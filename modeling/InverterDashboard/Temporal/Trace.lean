import Mathlib.Data.List.Basic
import Mathlib.Data.List.Induction
import Mathlib.Order.Defs.PartialOrder

/-
  Runs of a deterministic system and what held in their past.

  A run is a list of events replayed from a start state. Its trace pairs every event with the
  state it met, so that a statement about "the last time that …" is a statement about a list:
  `Since p q l` says that `q` happened somewhere in `l` and `p` held at everything after it.

  `replay_induction` is the rule for invariants that mention the history: show them at the
  start, and show that one event keeps them.
-/

namespace Temporal

universe u v w

/-! ## Since -/

section Since

variable {α : Type u} {p q : α → Prop} {l : List α}

/-- `q` at some entry, and `p` at every later one. -/
def Since (p q : α → Prop) (l : List α) : Prop :=
  ∃ before a after, l = before ++ a :: after ∧ q a ∧ ∀ x ∈ after, p x

theorem not_since_nil : ¬ Since p q [] := by
  rintro ⟨before, a, after, h, -⟩
  simp at h

theorem Since.now {a : α} (h : q a) : Since p q (l ++ [a]) :=
  ⟨l, a, [], rfl, h, by simp⟩

theorem Since.later {a : α} (h : Since p q l) (ha : p a) : Since p q (l ++ [a]) := by
  obtain ⟨before, b, after, rfl, hq, hp⟩ := h
  refine ⟨before, b, after ++ [a], by simp, hq, ?_⟩
  intro x hx
  rcases List.mem_append.mp hx with hx | hx
  · exact hp x hx
  · rw [List.mem_singleton.mp hx]
    exact ha

theorem Since.mono {p' q' : α → Prop} (h : Since p q l) (hp : ∀ x ∈ l, p x → p' x)
    (hq : ∀ x ∈ l, q x → q' x) : Since p' q' l := by
  obtain ⟨before, a, after, rfl, ha, hafter⟩ := h
  refine ⟨before, a, after, rfl, hq a (by simp) ha, ?_⟩
  intro x hx
  exact hp x (by simp [hx]) (hafter x hx)

/-- In two lists one after the other, it happened in the second, or before it and nothing in the
    second undid it. -/
theorem Since.append {l₁ l₂ : List α} (h : Since p q (l₁ ++ l₂)) :
    Since p q l₂ ∨ Since p q l₁ ∧ ∀ x ∈ l₂, p x := by
  obtain ⟨before, a, after, heq, hq, hp⟩ := h
  rcases List.append_eq_append_iff.mp heq.symm with ⟨m, rfl, hm⟩ | ⟨m, rfl, hm⟩
  · cases m with
    | nil =>
      rw [List.nil_append] at hm
      exact Or.inl ⟨[], a, after, hm.symm, hq, hp⟩
    | cons b m =>
      rw [List.cons_append] at hm
      obtain ⟨rfl, rfl⟩ := List.cons.inj hm
      refine Or.inr ⟨⟨before, a, m, rfl, hq, ?_⟩, ?_⟩
      · exact fun x hx => hp x (List.mem_append_left _ hx)
      · exact fun x hx => hp x (List.mem_append_right _ hx)
  · exact Or.inl ⟨m, a, after, hm, hq, hp⟩

/-- One entry more: it happens there, or it happened before and is not undone. -/
theorem since_concat {a : α} : Since p q (l ++ [a]) ↔ q a ∨ p a ∧ Since p q l := by
  constructor
  · intro h
    rcases h.append with ⟨before, b, after, heq, hq, -⟩ | ⟨hbefore, hp⟩
    · rw [List.singleton_eq_append_iff] at heq
      rcases heq with ⟨-, hb⟩ | ⟨-, hb⟩
      · exact Or.inl ((List.cons.inj hb).1 ▸ hq)
      · cases hb
    · exact Or.inr ⟨hp a (List.mem_singleton_self a), hbefore⟩
  · rintro (hq | ⟨hp, hl⟩)
    · exact .now hq
    · exact hl.later hp

end Since

/-! ## Replays -/

section Replay

variable {σ : Type u} {ε : Type v} (step : σ → ε → σ)

/-- The state after a list of events. -/
def replay (s : σ) (es : List ε) : σ := es.foldl step s

/-- Every event with the state it met. -/
def trace (s : σ) : List ε → List (σ × ε)
  | [] => []
  | e :: es => (s, e) :: trace (step s e) es

@[simp] theorem replay_nil (s : σ) : replay step s [] = s := rfl

@[simp] theorem replay_append (s : σ) (es fs : List ε) :
    replay step s (es ++ fs) = replay step (replay step s es) fs :=
  List.foldl_append

@[simp] theorem replay_singleton (s : σ) (e : ε) : replay step s [e] = step s e := rfl

theorem trace_append (s : σ) (es fs : List ε) :
    trace step s (es ++ fs) = trace step s es ++ trace step (replay step s es) fs := by
  induction es generalizing s with
  | nil => rfl
  | cons e es ih =>
    rw [List.cons_append, trace, ih]
    rfl

theorem trace_concat (s : σ) (es : List ε) (e : ε) :
    trace step s (es ++ [e]) = trace step s es ++ [(replay step s es, e)] := by
  rw [trace_append]
  rfl

/-- What holds after every step of a run holds at its end. -/
theorem replay_last {s : σ} {es : List ε} {P : σ → Prop} (hne : es ≠ [])
    (h : ∀ x ∈ trace step s es, P (step x.1 x.2)) : P (replay step s es) := by
  obtain ⟨fs, e, rfl⟩ := (List.eq_nil_or_concat es).resolve_left hne
  rw [List.concat_eq_append, trace_concat] at h
  rw [List.concat_eq_append, replay_append]
  exact h (replay step s fs, e) (List.mem_append_right _ List.mem_cons_self)

/-- What holds at the start holds after every part of a run if it does after every step. -/
theorem forall_prefix_iff {s : σ} {es : List ε} {P : σ → Prop} (h0 : P s) :
    (∀ before, before <+: es → P (replay step s before)) ↔
      ∀ x ∈ trace step s es, P (step x.1 x.2) := by
  induction es generalizing s with
  | nil =>
    refine iff_of_true (fun before hbefore => ?_) fun x hx => nomatch hx
    rw [List.prefix_nil.mp hbefore]
    exact h0
  | cons e es ih =>
    rw [trace, List.forall_mem_cons]
    constructor
    · intro hall
      have hfirst : P (step s e) := hall [e] (by simp)
      refine ⟨hfirst, (ih hfirst).mp fun before hbefore => ?_⟩
      exact hall (e :: before) (List.cons_prefix_cons.mpr ⟨rfl, hbefore⟩)
    · rintro ⟨hfirst, hrest⟩ before hbefore
      cases before with
      | nil => exact h0
      | cons e' before =>
        obtain ⟨rfl, hmore⟩ := List.cons_prefix_cons.mp hbefore
        exact (ih hfirst).mpr hrest before hmore

theorem mem_of_mem_trace {s : σ} {es : List ε} {x : σ × ε} (h : x ∈ trace step s es) :
    x.2 ∈ es := by
  induction es generalizing s with
  | nil => cases h
  | cons e es ih =>
    rcases List.mem_cons.mp h with rfl | h
    · exact List.mem_cons_self
    · exact List.mem_cons_of_mem _ (ih h)

/-- Steps that do the same on a run. -/
theorem run_congr {step step' : σ → ε → σ} {s : σ} {es : List ε}
    (h : ∀ x ∈ trace step s es, step' x.1 x.2 = step x.1 x.2) :
    replay step' s es = replay step s es ∧ trace step' s es = trace step s es := by
  induction es generalizing s with
  | nil => exact ⟨rfl, rfl⟩
  | cons e es ih =>
    have hfirst : step' s e = step s e := h (s, e) List.mem_cons_self
    obtain ⟨hreplay, htrace⟩ := ih fun x hx => h x (List.mem_cons_of_mem _ hx)
    refine ⟨?_, ?_⟩
    · show replay step' (step' s e) es = _
      rw [hfirst, hreplay]
      rfl
    · show (s, e) :: trace step' (step' s e) es = (s, e) :: trace step (step s e) es
      rw [hfirst, htrace]

/-- A measure that no step lowers, while an invariant holds, is after a step of the run at most
    what it is at the end. -/
theorem measure_le_of_mem_trace {β : Type w} [Preorder β] {f : σ → β} {I : σ → Prop}
    (hinv : ∀ s e, I s → I (step s e)) (hmono : ∀ s e, I s → f s ≤ f (step s e)) {s : σ}
    (h0 : I s) {es : List ε} {x : σ × ε} (h : x ∈ trace step s es) :
    f (step x.1 x.2) ≤ f (replay step s es) := by
  have hend : ∀ (s : σ) (es : List ε), I s → f s ≤ f (replay step s es) := by
    intro s es hs
    induction es generalizing s with
    | nil => exact le_refl _
    | cons e es ih => exact le_trans (hmono s e hs) (ih (step s e) (hinv s e hs))
  induction es generalizing s with
  | nil => cases h
  | cons e es ih =>
    rcases List.mem_cons.mp h with rfl | h
    · exact hend (step s e) es (hinv s e h0)
    · exact ih (hinv s e h0) h

/-- An invariant of the history and the state it leads to. -/
theorem replay_induction {s : σ} {I : List ε → σ → Prop} (h0 : I [] s)
    (hstep : ∀ es e, I es (replay step s es) → I (es ++ [e]) (step (replay step s es) e))
    (es : List ε) : I es (replay step s es) := by
  induction es using List.reverseRecOn with
  | nil => exact h0
  | append_singleton es e ih =>
    rw [replay_append]
    exact hstep es e ih

/-- An invariant of the state. -/
theorem replay_invariant {s : σ} {I : σ → Prop} (h0 : I s) (hstep : ∀ s e, I s → I (step s e))
    (es : List ε) : I (replay step s es) :=
  replay_induction step (I := fun _ s => I s) h0 (fun _ _ h => hstep _ _ h) es

/-- An invariant of every state that a run meets. -/
theorem trace_invariant {s : σ} {I : σ → Prop} (h0 : I s) (hstep : ∀ s e, I s → I (step s e))
    {es : List ε} {x : σ × ε} (hx : x ∈ trace step s es) : I x.1 := by
  induction es generalizing s with
  | nil => cases hx
  | cons e es ih =>
    rcases List.mem_cons.mp hx with rfl | hx
    · exact h0
    · exact ih (hstep s e h0) hx

/-- What a run shows of its state is the fold of its inputs, when every step that takes an input
    does to the view what the input says and every other step leaves the view alone. -/
theorem view_replay {ν ι : Type w} {view : σ → ν} {input : σ × ε → Option ι} {receive : ν → ι → ν}
    {I : σ → Prop} (hinv : ∀ s e, I s → I (step s e))
    (htake : ∀ s e i, I s → input (s, e) = some i → view (step s e) = receive (view s) i)
    (hstutter : ∀ s e, I s → input (s, e) = none → view (step s e) = view s) {s : σ} (h0 : I s)
    (es : List ε) :
    view (replay step s es) = ((trace step s es).filterMap input).foldl receive (view s) := by
  induction es generalizing s with
  | nil => rfl
  | cons e es ih =>
    show view (replay step (step s e) es) = _
    rw [ih (hinv s e h0), trace]
    cases hinput : input (s, e) with
    | none => rw [List.filterMap_cons_none hinput, hstutter s e h0 hinput]
    | some i =>
      rw [List.filterMap_cons_some hinput, List.foldl_cons, htake s e i h0 hinput]

end Replay

/-! ## Clocks -/

section Clock

variable {ε : Type v} {τ : Type u} [Preorder τ] (time : ε → τ)

/-- Times never go back. -/
def Nondecreasing (es : List ε) : Prop := es.Pairwise fun a b => time a ≤ time b

theorem Nondecreasing.of_concat {es : List ε} {e : ε} (h : Nondecreasing time (es ++ [e])) :
    Nondecreasing time es ∧ ∀ x ∈ es, time x ≤ time e := by
  have := List.pairwise_append.mp h
  exact ⟨this.1, fun x hx => this.2.2 x hx e (by simp)⟩

end Clock

end Temporal
