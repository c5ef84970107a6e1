import Mathlib.Data.List.Infix

/-
  Coroutines: programs that run without interruption from one `await` to the next.

  A program is a tree. A `sync` node reads the clock and the shared state and updates it, a
  `start` node starts an output, an `await` node gives control away until a reply arrives. What
  other programs do meanwhile is only known through the relation `R`: the state that a program
  finds again is one that the state it left can become.

  `wp` is the weakest precondition of a program under such a relation. It asks that every output
  is started where `P` holds, and that the program ends where `Q` does. The outputs started so
  far, by all programs, are part of what `P` and `Q` may speak about.
-/

namespace Async

variable {τ σ ω ρ α β : Type}

/-! ## Programs -/

/-- Clock `τ`, shared state `σ`, outputs `ω`, replies `ρ`. -/
inductive Prog (τ σ ω ρ α : Type) where
  /-- The end: a result, or `none` when the program raised. -/
  | done (result : Option α)
  | sync (update : τ → σ → σ) (next : τ → σ → Prog τ σ ω ρ α)
  | start (w : ω) (next : Prog τ σ ω ρ α)
  | await (next : ρ → Prog τ σ ω ρ α)

/-- Code between two suspensions: it moves the state, and returns or raises. -/
def Sync (τ σ α : Type) : Type := τ → σ → σ × Option α

namespace Sync

def fail : Sync τ σ α := fun _ s => (s, none)

def read (f : τ → σ → α) : Sync τ σ α := fun c s => (s, some (f c s))

/-- Raises unless the condition holds. -/
def require (p : τ → σ → Bool) : Sync τ σ Unit := fun c s => (s, if p c s then some () else none)

/-- Raises unless there is a value. -/
def expect (o : Option α) : Sync τ σ α := fun _ s => (s, o)

def andThen (m : Sync τ σ α) (f : α → Sync τ σ β) : Sync τ σ β := fun c s =>
  match m c s with
  | (s, some a) => f a c s
  | (s, none) => (s, none)

end Sync

namespace Prog

/-- Runs on with the result, or with the exception. -/
def follow (f : Option α → Prog τ σ ω ρ β) : Prog τ σ ω ρ α → Prog τ σ ω ρ β
  | done r => f r
  | sync u n => sync u fun c s => (n c s).follow f
  | start w n => start w (n.follow f)
  | await n => await fun r => (n r).follow f

/-- Runs on unless the program raised. -/
def andThen (p : Prog τ σ ω ρ α) (f : α → Prog τ σ ω ρ β) : Prog τ σ ω ρ β :=
  p.follow fun
    | some a => f a
    | none => done none

/-- `try: p finally: q`, when `q` does not swallow exceptions. -/
def andFinally (p : Prog τ σ ω ρ α) (q : Prog τ σ ω ρ Unit) : Prog τ σ ω ρ α :=
  p.follow fun r => q.andThen fun _ => done r

/-- Code without a suspension point. -/
def ofSync (m : Sync τ σ α) (f : α → Prog τ σ ω ρ β) : Prog τ σ ω ρ β :=
  sync (fun c s => (m c s).1) fun c s => match (m c s).2 with
    | some a => f a
    | none => done none

end Prog

/-! ## Synchronous code -/

/-- The code moves the state along `R`, and where it returns, `Q` holds. -/
def Ensures (R : σ → σ → Prop) (m : Sync τ σ α) (c : τ) (s : σ) (Q : σ → α → Prop) : Prop :=
  R s (m c s).1 ∧ ∀ a, (m c s).2 = some a → Q (m c s).1 a

section Ensures

variable {R : σ → σ → Prop} {c : τ} {s : σ}

theorem Ensures.mono {m : Sync τ σ α} {Q Q' : σ → α → Prop} (h : Ensures R m c s Q)
    (hQ : ∀ s a, Q s a → Q' s a) : Ensures R m c s Q' :=
  ⟨h.1, fun a ha => hQ _ a (h.2 a ha)⟩

theorem Ensures.related {m : Sync τ σ α} {Q : σ → α → Prop} (h : Ensures R m c s Q) :
    Ensures R m c s fun s' a => R s s' ∧ Q s' a :=
  ⟨h.1, fun a ha => ⟨h.1, h.2 a ha⟩⟩

theorem Ensures.fail (hrefl : ∀ s, R s s) {Q : σ → α → Prop} : Ensures R Sync.fail c s Q :=
  ⟨hrefl s, fun _ ha => by cases ha⟩

theorem Ensures.read (hrefl : ∀ s, R s s) {f : τ → σ → α} {Q : σ → α → Prop} (h : Q s (f c s)) :
    Ensures R (Sync.read f) c s Q :=
  ⟨hrefl s, fun _ ha => Option.some.inj ha ▸ h⟩

theorem Ensures.require (hrefl : ∀ s, R s s) {p : τ → σ → Bool} {Q : σ → Unit → Prop}
    (h : p c s = true → Q s ()) : Ensures R (Sync.require p) c s Q := by
  refine ⟨hrefl s, fun a ha => ?_⟩
  unfold Sync.require at ha ⊢
  dsimp only at ha ⊢
  split at ha
  · next hp => exact h hp
  · cases ha

theorem Ensures.expect (hrefl : ∀ s, R s s) {o : Option α} {Q : σ → α → Prop}
    (h : ∀ a, o = some a → Q s a) : Ensures R (Sync.expect o) c s Q := ⟨hrefl s, h⟩

theorem Ensures.andThen (htrans : ∀ {a b c}, R a b → R b c → R a c) {m : Sync τ σ α}
    {f : α → Sync τ σ β} {Q : σ → β → Prop}
    (hm : Ensures R m c s fun s a => Ensures R (f a) c s Q) :
    Ensures R (m.andThen f) c s Q := by
  obtain ⟨hR, hf⟩ := hm
  unfold Ensures Sync.andThen
  generalize m c s = o at hR hf
  obtain ⟨s', _ | a⟩ := o
  · exact ⟨hR, fun b hb => by cases hb⟩
  · obtain ⟨hR', hQ⟩ := hf a rfl
    exact ⟨htrans hR hR', hQ⟩

end Ensures

/-! ## Segments -/

/-- An output, the clock and the state at its start, and the job that started it. -/
structure Started (τ σ ω : Type) where
  job : Nat
  clock : τ
  state : σ
  output : ω

/-- A program that stopped running: it ended, or waits for a reply. -/
inductive Stopped (τ σ ω ρ α : Type) where
  | ended (result : Option α)
  | waiting (next : ρ → Prog τ σ ω ρ α)

/-- What running until the next suspension leaves behind. -/
structure Segment (τ σ ω ρ α : Type) where
  state : σ
  started : List (Started τ σ ω)
  stopped : Stopped τ σ ω ρ α

/-- Runs job `i` until it suspends or ends. -/
def Prog.segment (i : Nat) (c : τ) : Prog τ σ ω ρ α → List (Started τ σ ω) → σ →
    Segment τ σ ω ρ α
  | .done r, h, s => ⟨s, h, .ended r⟩
  | .sync u n, h, s => (n c s).segment i c h (u c s)
  | .start w n, h, s => n.segment i c (h ++ [⟨i, c, s, w⟩]) s
  | .await n, h, s => ⟨s, h, .waiting n⟩

/-! ## Weakest preconditions -/

section Wp

variable (R : σ → σ → Prop) (i : Nat)
  (P : τ → σ → ω → Prop)

/-- The program, run as job `i` from the clock `c`, the outputs `h` and the state `s`, starts
    outputs only where `P` holds and ends where `Q` does. -/
def wp : Prog τ σ ω ρ α → (List (Started τ σ ω) → τ → σ → Option α → Prop) →
    List (Started τ σ ω) → τ → σ → Prop
  | .done r, Q, h, c, s => Q h c s r
  | .sync u n, Q, h, c, s => R s (u c s) ∧ wp (n c s) Q h c (u c s)
  | .start w n, Q, h, c, s => P c s w ∧ wp n Q (h ++ [⟨i, c, s, w⟩]) c s
  | .await n, Q, h, _, s => ∀ r h' c' s', h <+: h' → R s s' → wp (n r) Q h' c' s'

variable {R i P}

theorem wp_mono {p : Prog τ σ ω ρ α} {Q Q' : List (Started τ σ ω) → τ → σ → Option α → Prop}
    {h : List (Started τ σ ω)} {c : τ} {s : σ} (hp : wp R i P p Q h c s)
    (hQ : ∀ h c s r, Q h c s r → Q' h c s r) : wp R i P p Q' h c s := by
  induction p generalizing h c s with
  | done r => exact hQ h c s r hp
  | sync u n ih => exact ⟨hp.1, ih c s hp.2⟩
  | start w n ih => exact ⟨hp.1, ih hp.2⟩
  | await n ih => exact fun r h' c' s' hh hs => ih r (hp r h' c' s' hh hs)

theorem wp_follow {p : Prog τ σ ω ρ α} {f : Option α → Prog τ σ ω ρ β}
    {Q : List (Started τ σ ω) → τ → σ → Option β → Prop}
    {h : List (Started τ σ ω)} {c : τ} {s : σ}
    (hp : wp R i P p (fun h c s r => wp R i P (f r) Q h c s) h c s) :
    wp R i P (p.follow f) Q h c s := by
  induction p generalizing h c s with
  | done r => exact hp
  | sync u n ih => exact ⟨hp.1, ih c s hp.2⟩
  | start w n ih => exact ⟨hp.1, ih hp.2⟩
  | await n ih => exact fun r h' c' s' hh hs => ih r (hp r h' c' s' hh hs)

/-- The program may raise; where it returns, `Q` holds. -/
def Returns (Q : List (Started τ σ ω) → τ → σ → α → Prop) :
    List (Started τ σ ω) → τ → σ → Option α → Prop :=
  fun h c s r => ∀ a, r = some a → Q h c s a

theorem returns_none {Q : List (Started τ σ ω) → τ → σ → α → Prop} {h : List (Started τ σ ω)}
    {c : τ} {s : σ} : Returns Q h c s none := fun _ ha => by cases ha

theorem returns_some {Q : List (Started τ σ ω) → τ → σ → α → Prop} {h : List (Started τ σ ω)}
    {c : τ} {s : σ} {a : α} (hQ : Q h c s a) : Returns Q h c s (some a) := by
  intro b hb
  obtain rfl := Option.some.inj hb
  exact hQ

theorem wp_andThen {p : Prog τ σ ω ρ α} {f : α → Prog τ σ ω ρ β}
    {Q : List (Started τ σ ω) → τ → σ → β → Prop}
    {h : List (Started τ σ ω)} {c : τ} {s : σ}
    (hp : wp R i P p (Returns fun h c s a => wp R i P (f a) (Returns Q) h c s) h c s) :
    wp R i P (p.andThen f) (Returns Q) h c s := by
  refine wp_follow (wp_mono hp ?_)
  intro h c s r hr
  cases r with
  | some a => exact hr a rfl
  | none => exact returns_none

/-- The last part of a `finally` runs in either case. -/
theorem wp_andFinally {p : Prog τ σ ω ρ α} {q : Prog τ σ ω ρ Unit}
    {Q : List (Started τ σ ω) → τ → σ → α → Prop}
    {h : List (Started τ σ ω)} {c : τ} {s : σ}
    (hp : wp R i P p (Returns fun h c s a => wp R i P q (Returns fun h c s _ => Q h c s a) h c s)
      h c s)
    (hq : ∀ h c s, wp R i P q (Returns fun _ _ _ _ => True) h c s) :
    wp R i P (p.andFinally q) (Returns Q) h c s := by
  refine wp_follow (wp_mono hp ?_)
  intro h c s r hr
  cases r with
  | some a =>
    refine wp_andThen (wp_mono (hr a rfl) ?_)
    intro h c s e he u hu
    exact returns_some (he u hu)
  | none =>
    refine wp_andThen (wp_mono (hq h c s) ?_)
    intro h c s e _ u _
    exact returns_none

theorem wp_ofSync {m : Sync τ σ α} {f : α → Prog τ σ ω ρ β}
    {Q : List (Started τ σ ω) → τ → σ → β → Prop}
    {h : List (Started τ σ ω)} {c : τ} {s : σ}
    (hm : Ensures R m c s fun s a => wp R i P (f a) (Returns Q) h c s) :
    wp R i P (Prog.ofSync m f) (Returns Q) h c s := by
  refine ⟨hm.1, ?_⟩
  dsimp only
  split
  · next a ha => exact hm.2 a ha
  · exact returns_none

/-- **One segment.** A program that meets its precondition starts outputs only where `P` holds,
    moves the state along `R`, and stops in a good place: where `Q` holds, or where every state
    it can find again meets the precondition of the rest. -/
theorem wp_segment (hrefl : ∀ s, R s s) (htrans : ∀ {a b c}, R a b → R b c → R a c)
    {p : Prog τ σ ω ρ α} {Q : List (Started τ σ ω) → τ → σ → Option α → Prop}
    {h : List (Started τ σ ω)} {c : τ} {s : σ} (hp : wp R i P p Q h c s) :
    h <+: (p.segment i c h s).started ∧ R s (p.segment i c h s).state ∧
    (∀ x ∈ (p.segment i c h s).started, x ∈ h ∨ x.job = i ∧ P x.clock x.state x.output) ∧
    match (p.segment i c h s).stopped with
    | .ended r => Q (p.segment i c h s).started c (p.segment i c h s).state r
    | .waiting k => ∀ r h' c' s', (p.segment i c h s).started <+: h' →
        R (p.segment i c h s).state s' → wp R i P (k r) Q h' c' s' := by
  induction p generalizing h s with
  | done r => exact ⟨List.prefix_refl h, hrefl s, fun x hx => Or.inl hx, hp⟩
  | sync u n ih =>
    obtain ⟨hpre, hs, hout, hstop⟩ := ih c s hp.2
    exact ⟨hpre, htrans hp.1 hs, hout, hstop⟩
  | start w n ih =>
    obtain ⟨hpre, hs, hout, hstop⟩ := ih hp.2
    refine ⟨(List.prefix_append h _).trans hpre, hs, ?_, hstop⟩
    intro x hx
    rcases hout x hx with hx | hx
    · rcases List.mem_append.mp hx with hx | hx
      · exact Or.inl hx
      · obtain rfl := List.mem_singleton.mp hx
        exact Or.inr ⟨rfl, hp.1⟩
    · exact Or.inr hx
  | await n ih => exact ⟨List.prefix_refl h, hrefl s, fun x hx => Or.inl hx, hp⟩

end Wp

end Async
