import Mathlib.Data.List.Basic
import InverterDashboard.Async.Coroutine
import InverterDashboard.Temporal.Trace

/-
  Jobs: commands that run their work in a task of their own and wait for it.

  Accepting a command runs its first segment. If that does not raise, it leaves a label (what
  the command captured) and a task; the command itself waits until the task has ended and then
  runs its last segment, or is cancelled. Between any two segments the world, other commands and
  other tasks may take any number of steps, and a task may be resumed with any reply.

  `Verified` collects what the segments have to satisfy. From it, every output of every run was
  started where its job's `P` holds (`started_verified`), and a command that returned did so
  after its task ended where `Q` holds (`returned_verified`).
-/

namespace Async

open Temporal

variable {τ σ ω ρ ε γ κ : Type}

/-! ## States and steps -/

/-- A point of a run. -/
structure Moment (τ σ ω : Type) where
  clock : τ
  started : List (Started τ σ ω)
  state : σ

inductive Task (τ σ ω ρ : Type) where
  | waiting (next : ρ → Prog τ σ ω ρ Unit)
  | ended (result : Option Unit) (moment : Moment τ σ ω)

inductive Caller (τ σ ω : Type) where
  | joining
  | ended (result : Option Unit) (moment : Moment τ σ ω)

structure Job (τ σ ω ρ κ : Type) where
  label : κ
  accepted : Moment τ σ ω
  task : Task τ σ ω ρ
  caller : Caller τ σ ω

def Job.setTask (job : Job τ σ ω ρ κ) (task : Task τ σ ω ρ) : Job τ σ ω ρ κ :=
  { job with task := task }

def Job.setCaller (job : Job τ σ ω ρ κ) (caller : Caller τ σ ω) : Job τ σ ω ρ κ :=
  { job with caller := caller }

structure System (τ σ ω ρ κ : Type) where
  state : σ
  started : List (Started τ σ ω)
  jobs : List (Job τ σ ω ρ κ)

/-- What runs the jobs: how the world moves, the first segment of a command, and the segment
    that follows its task. -/
structure Scheduler (τ σ ω ρ ε γ κ : Type) where
  act : τ → ε → σ → σ
  begins : γ → Sync τ σ (κ × (ρ → Prog τ σ ω ρ Unit))
  returns : κ → Option Unit → Sync τ σ Unit

inductive Action (ρ ε γ : Type) where
  | world (e : ε)
  | accept (command : γ)
  | resume (job : Nat) (reply : ρ)
  | join (job : Nat)
  | cancel (job : Nat)

/-- The task after its segment. -/
def Segment.task (c : τ) (g : Segment τ σ ω ρ Unit) : Task τ σ ω ρ :=
  match g.stopped with
  | .ended r => .ended r ⟨c, g.started, g.state⟩
  | .waiting k => .waiting k

variable (S : Scheduler τ σ ω ρ ε γ κ)

namespace System

def accept (c : τ) (command : γ) (s : System τ σ ω ρ κ) : System τ σ ω ρ κ :=
  let begun := S.begins command c s.state
  match begun.2 with
  | some (label, task) =>
    { s with
      state := begun.1
      jobs := s.jobs ++ [⟨label, ⟨c, s.started, begun.1⟩, .waiting task, .joining⟩] }
  | none => { s with state := begun.1 }

def resume (c : τ) (i : Nat) (reply : ρ) (s : System τ σ ω ρ κ) : System τ σ ω ρ κ :=
  match s.jobs[i]? with
  | some job =>
    match job.task with
    | .waiting k =>
      let g := (k reply).segment i c s.started s.state
      ⟨g.state, g.started, s.jobs.set i (job.setTask (g.task c))⟩
    | .ended _ _ => s
  | none => s

/-- The caller goes on once its task has ended. -/
def join (c : τ) (i : Nat) (s : System τ σ ω ρ κ) : System τ σ ω ρ κ :=
  match s.jobs[i]? with
  | some job =>
    match job.task, job.caller with
    | .ended r _, .joining =>
      let returned := S.returns job.label r c s.state
      { s with
        state := returned.1
        jobs := s.jobs.set i (job.setCaller (.ended returned.2 ⟨c, s.started, s.state⟩)) }
    | _, _ => s
  | none => s

def cancel (c : τ) (i : Nat) (s : System τ σ ω ρ κ) : System τ σ ω ρ κ :=
  match s.jobs[i]? with
  | some job =>
    match job.caller with
    | .joining =>
      { s with jobs := s.jobs.set i (job.setCaller (.ended none ⟨c, s.started, s.state⟩)) }
    | .ended _ _ => s
  | none => s

def step (s : System τ σ ω ρ κ) (e : τ × Action ρ ε γ) : System τ σ ω ρ κ :=
  match e.2 with
  | .world a => { s with state := S.act e.1 a s.state }
  | .accept command => s.accept S e.1 command
  | .resume i reply => s.resume e.1 i reply
  | .join i => s.join S e.1 i
  | .cancel i => s.cancel e.1 i

/-- Nothing has been accepted yet. -/
def initial (state : σ) : System τ σ ω ρ κ := ⟨state, [], []⟩

end System

/-! ## What the segments have to satisfy -/

/-- `R` is what any step does to the state, `A` what a job's label says of the state it was
    accepted in, `P` where job outputs may start, `Q` where its task may end. -/
structure Verified (R : σ → σ → Prop) (A : κ → σ → Prop) (P : κ → τ → σ → ω → Prop)
    (Q : Nat → κ → List (Started τ σ ω) → τ → σ → Option Unit → Prop) : Prop where
  refl : ∀ s, R s s
  trans : ∀ {a b c}, R a b → R b c → R a c
  act : ∀ c e s, R s (S.act c e s)
  begins : ∀ command c s, R s (S.begins command c s).1
  accepted : ∀ command c s label task, (S.begins command c s).2 = some (label, task) →
    A label (S.begins command c s).1
  task : ∀ command c s label task, (S.begins command c s).2 = some (label, task) →
    ∀ i reply h c' s', R (S.begins command c s).1 s' →
      wp R i (P label) (task reply) (Q i label) h c' s'
  returns : ∀ label r c s, R s (S.returns label r c s).1

/-- `b` is a later point than `a`. -/
def Later (R : σ → σ → Prop) (a b : List (Started τ σ ω) × σ) : Prop := a.1 <+: b.1 ∧ R a.2 b.2

/-- What holds of job `i` while the system is at the point `p`. -/
structure JobGood (R : σ → σ → Prop) (A : κ → σ → Prop) (P : κ → τ → σ → ω → Prop)
    (Q : Nat → κ → List (Started τ σ ω) → τ → σ → Option Unit → Prop)
    (p : List (Started τ σ ω) × σ) (i : Nat) (job : Job τ σ ω ρ κ) : Prop where
  accepted : A job.label job.accepted.state
  after : Later R (job.accepted.started, job.accepted.state) p
  waiting : ∀ k, job.task = .waiting k → ∀ reply h c s, Later R p (h, s) →
    wp R i (P job.label) (k reply) (Q i job.label) h c s
  ended : ∀ r m, job.task = .ended r m → Q i job.label m.started m.clock m.state r ∧
    Later R (job.accepted.started, job.accepted.state) (m.started, m.state) ∧
    Later R (m.started, m.state) p
  returned : ∀ m, job.caller = .ended (some ()) m →
    ∃ r m', job.task = .ended r m' ∧ (S.returns job.label r m.clock m.state).2 = some () ∧
      Later R (m'.started, m'.state) (m.started, m.state) ∧ Later R (m.started, m.state) p

section Rules

variable {S} {R : σ → σ → Prop} {A : κ → σ → Prop} {P : κ → τ → σ → ω → Prop}
  {Q : Nat → κ → List (Started τ σ ω) → τ → σ → Option Unit → Prop}

theorem Verified.later_refl (v : Verified S R A P Q) (p : List (Started τ σ ω) × σ) :
    Later R p p := ⟨List.prefix_refl _, v.refl _⟩

theorem Verified.later_trans (v : Verified S R A P Q) {a b c : List (Started τ σ ω) × σ}
    (hab : Later R a b) (hbc : Later R b c) : Later R a c :=
  ⟨hab.1.trans hbc.1, v.trans hab.2 hbc.2⟩

/-- What holds of a job holds of it later on. -/
theorem JobGood.later (v : Verified S R A P Q) {p p' : List (Started τ σ ω) × σ} {i : Nat}
    {job : Job τ σ ω ρ κ} (h : JobGood S R A P Q p i job) (hp : Later R p p') :
    JobGood S R A P Q p' i job where
  accepted := h.accepted
  after := v.later_trans h.after hp
  waiting := fun k hk reply h' c s' hs => h.waiting k hk reply h' c s' (v.later_trans hp hs)
  ended := by
    intro r m hr
    obtain ⟨hQ, hacc, hm⟩ := h.ended r m hr
    exact ⟨hQ, hacc, v.later_trans hm hp⟩
  returned := by
    intro m hm
    obtain ⟨r, m', ht, hret, hmm, hlast⟩ := h.returned m hm
    exact ⟨r, m', ht, hret, hmm, v.later_trans hlast hp⟩

/-- Every job is good, and every output was started by a job that allows it. -/
structure Good (S : Scheduler τ σ ω ρ ε γ κ) (R : σ → σ → Prop) (A : κ → σ → Prop)
    (P : κ → τ → σ → ω → Prop)
    (Q : Nat → κ → List (Started τ σ ω) → τ → σ → Option Unit → Prop)
    (s : System τ σ ω ρ κ) : Prop where
  jobs : ∀ i job, s.jobs[i]? = some job → JobGood S R A P Q (s.started, s.state) i job
  started : ∀ x ∈ s.started, ∃ job, s.jobs[x.job]? = some job ∧
    P job.label x.clock x.state x.output

/-- The step moves on along `Later`, and jobs keep their labels. -/
structure Moves (R : σ → σ → Prop) (s s' : System τ σ ω ρ κ) : Prop where
  later : Later R (s.started, s.state) (s'.started, s'.state)
  jobs : ∀ (i : Nat) (job : Job τ σ ω ρ κ), s.jobs[i]? = some job →
    ∃ job' : Job τ σ ω ρ κ, s'.jobs[i]? = some job' ∧ job'.label = job.label

/-- Replacing one job by another with its label. -/
theorem moves_set {s s' : System τ σ ω ρ κ} {i : Nat} {job job' : Job τ σ ω ρ κ}
    (hi : s.jobs[i]? = some job) (hlabel : job'.label = job.label)
    (hjobs : s'.jobs = s.jobs.set i job')
    (hlater : Later R (s.started, s.state) (s'.started, s'.state)) : Moves R s s' where
  later := hlater
  jobs := by
    intro j job₀ hj
    rw [hjobs, List.getElem?_set]
    by_cases hij : i = j
    · subst hij
      have hlt : i < s.jobs.length := (List.getElem?_eq_some_iff.mp hi).1
      rw [hi] at hj
      obtain rfl := Option.some.inj hj
      exact ⟨job', by simp [hlt], hlabel⟩
    · exact ⟨job₀, by simp [hij, hj], rfl⟩

/-- A good system stays good when one job is replaced by a good one. -/
theorem Good.set (v : Verified S R A P Q) {s s' : System τ σ ω ρ κ} (h : Good S R A P Q s)
    {i : Nat} {job job' : Job τ σ ω ρ κ} (hi : s.jobs[i]? = some job)
    (hlabel : job'.label = job.label) (hjobs : s'.jobs = s.jobs.set i job')
    (hlater : Later R (s.started, s.state) (s'.started, s'.state))
    (hgood : JobGood S R A P Q (s'.started, s'.state) i job')
    (hout : ∀ x ∈ s'.started, x ∈ s.started ∨ x.job = i ∧ P job.label x.clock x.state x.output) :
    Good S R A P Q s' ∧ Moves R s s' := by
  have hmoves : Moves R s s' := moves_set hi hlabel hjobs hlater
  refine ⟨⟨?_, ?_⟩, hmoves⟩
  · intro j job₀ hj
    rw [hjobs, List.getElem?_set] at hj
    split at hj
    · next hij =>
      subst hij
      split at hj
      · obtain rfl := Option.some.inj hj
        exact hgood
      · cases hj
    · exact (h.jobs j job₀ hj).later v hlater
  · intro x hx
    have hold : ∀ (j : Nat) (k : Job τ σ ω ρ κ), s.jobs[j]? = some k →
        P k.label x.clock x.state x.output → ∃ k' : Job τ σ ω ρ κ, s'.jobs[j]? = some k' ∧
          P k'.label x.clock x.state x.output := by
      intro j k hk hP
      obtain ⟨k', hk', hlab⟩ := hmoves.jobs j k hk
      exact ⟨k', hk', hlab ▸ hP⟩
    rcases hout x hx with hx | ⟨hxi, hP⟩
    · obtain ⟨k, hk, hP⟩ := h.started x hx
      exact hold _ k hk hP
    · rw [hxi]
      exact hold i job hi hP

theorem good_world (v : Verified S R A P Q) {s : System τ σ ω ρ κ} (h : Good S R A P Q s) (c : τ)
    (e : ε) : Good S R A P Q (s.step S (c, .world e)) ∧ Moves R s (s.step S (c, .world e)) := by
  have hlater : Later R (s.started, s.state) (s.started, S.act c e s.state) :=
    ⟨List.prefix_refl _, v.act c e s.state⟩
  exact ⟨⟨fun i job hj => (h.jobs i job hj).later v hlater, h.started⟩,
    ⟨hlater, fun i job hj => ⟨job, hj, rfl⟩⟩⟩

theorem good_accept (v : Verified S R A P Q) {s : System τ σ ω ρ κ} (h : Good S R A P Q s) (c : τ)
    (command : γ) : Good S R A P Q (s.accept S c command) ∧ Moves R s (s.accept S c command) := by
  have hlater : Later R (s.started, s.state) (s.started, (S.begins command c s.state).1) :=
    ⟨List.prefix_refl _, v.begins command c s.state⟩
  unfold System.accept
  dsimp only
  split
  · next label task hb =>
    have hold : ∀ (i : Nat) (job : Job τ σ ω ρ κ), s.jobs[i]? = some job →
        (s.jobs ++ [⟨label, ⟨c, s.started, (S.begins command c s.state).1⟩, .waiting task,
          .joining⟩])[i]? = some job := by
      intro i job hj
      rw [List.getElem?_append_left (List.getElem?_eq_some_iff.mp hj).1]
      exact hj
    refine ⟨⟨?_, ?_⟩, ⟨hlater, fun i job hj => ⟨job, hold i job hj, rfl⟩⟩⟩
    · intro i job hj
      rw [List.getElem?_append] at hj
      split at hj
      · exact (h.jobs i job hj).later v hlater
      · rw [List.getElem?_singleton] at hj
        split at hj
        · obtain rfl := Option.some.inj hj
          refine ⟨v.accepted _ _ _ _ _ hb, v.later_refl _, ?_, ?_, ?_⟩
          · rintro k hk reply h' c' s' ⟨-, hs⟩
            obtain rfl : task = k := Task.waiting.inj hk
            exact v.task _ _ _ _ _ hb i reply h' c' s' hs
          · intro r m hr
            cases hr
          · intro m hm
            cases hm
        · cases hj
    · intro x hx
      obtain ⟨job, hj, hP⟩ := h.started x hx
      exact ⟨job, hold _ _ hj, hP⟩
  · exact ⟨⟨fun i job hj => (h.jobs i job hj).later v hlater, h.started⟩,
      ⟨hlater, fun i job hj => ⟨job, hj, rfl⟩⟩⟩

theorem good_resume (v : Verified S R A P Q) {s : System τ σ ω ρ κ} (h : Good S R A P Q s) (c : τ)
    (i : Nat) (reply : ρ) :
    Good S R A P Q (s.resume c i reply) ∧ Moves R s (s.resume c i reply) := by
  have hsame : Good S R A P Q s ∧ Moves R s s :=
    ⟨h, ⟨v.later_refl _, fun i job hj => ⟨job, hj, rfl⟩⟩⟩
  unfold System.resume
  split
  · next job hi =>
    split
    · next k hk =>
      have hjob := h.jobs i job hi
      have hwp := hjob.waiting k hk reply s.started c s.state (v.later_refl _)
      obtain ⟨hpre, hs, hout, hstop⟩ := wp_segment v.refl v.trans hwp
      have hlater : Later R (s.started, s.state)
          (((k reply).segment i c s.started s.state).started,
            ((k reply).segment i c s.started s.state).state) := ⟨hpre, hs⟩
      dsimp only
      generalize (k reply).segment i c s.started s.state = g at *
      have hlabel : (job.setTask (g.task c)).label = job.label := rfl
      refine h.set v hi hlabel rfl hlater ?_ hout
      have hafter := hjob.later v hlater
      refine ⟨hafter.accepted, hafter.after, ?_, ?_, ?_⟩
      · intro k' hk' reply' h' c' s' hs'
        change g.task c = .waiting k' at hk'
        unfold Segment.task at hk'
        split at hk'
        · cases hk'
        · next k'' hstopped =>
          obtain rfl := Task.waiting.inj hk'
          rw [hstopped] at hstop
          exact hstop reply' h' c' s' hs'.1 hs'.2
      · intro r m hr
        change g.task c = .ended r m at hr
        unfold Segment.task at hr
        split at hr
        · next r' hstopped =>
          obtain ⟨rfl, rfl⟩ := Task.ended.inj hr
          rw [hstopped] at hstop
          exact ⟨hstop, hafter.after, v.later_refl _⟩
        · cases hr
      · intro m hm
        obtain ⟨r, m', ht, -⟩ := hjob.returned m hm
        rw [hk] at ht
        cases ht
    · exact hsame
  · exact hsame

theorem good_join (v : Verified S R A P Q) {s : System τ σ ω ρ κ} (h : Good S R A P Q s) (c : τ)
    (i : Nat) : Good S R A P Q (s.join S c i) ∧ Moves R s (s.join S c i) := by
  have hsame : Good S R A P Q s ∧ Moves R s s :=
    ⟨h, ⟨v.later_refl _, fun i job hj => ⟨job, hj, rfl⟩⟩⟩
  unfold System.join
  split
  · next job hi =>
    split
    · next r m ht hc =>
      have hjob := h.jobs i job hi
      have hlater : Later R (s.started, s.state)
          (s.started, (S.returns job.label r c s.state).1) :=
        ⟨List.prefix_refl _, v.returns job.label r c s.state⟩
      have hlabel : (job.setCaller (.ended (S.returns job.label r c s.state).2
          ⟨c, s.started, s.state⟩)).label = job.label := rfl
      refine h.set v hi hlabel rfl hlater ?_ fun x hx => Or.inl hx
      have hafter := hjob.later v hlater
      refine ⟨hafter.accepted, hafter.after, hafter.waiting, hafter.ended, ?_⟩
      intro m' hm'
      obtain ⟨hret, rfl⟩ := Caller.ended.inj hm'
      obtain ⟨-, -, hm⟩ := hjob.ended r m ht
      exact ⟨r, m, ht, hret, hm, hlater⟩
    · exact hsame
  · exact hsame

theorem good_cancel (v : Verified S R A P Q) {s : System τ σ ω ρ κ} (h : Good S R A P Q s) (c : τ)
    (i : Nat) : Good S R A P Q (s.cancel c i) ∧ Moves R s (s.cancel c i) := by
  have hsame : Good S R A P Q s ∧ Moves R s s :=
    ⟨h, ⟨v.later_refl _, fun i job hj => ⟨job, hj, rfl⟩⟩⟩
  unfold System.cancel
  split
  · next job hi =>
    split
    · next hc =>
      have hjob := h.jobs i job hi
      have hlabel : (job.setCaller (.ended none ⟨c, s.started, s.state⟩)).label = job.label := rfl
      refine h.set v hi hlabel rfl (v.later_refl _) ?_ fun x hx => Or.inl hx
      refine ⟨hjob.accepted, hjob.after, hjob.waiting, hjob.ended, ?_⟩
      intro m hm
      cases (Caller.ended.inj hm).1
    · exact hsame
  · exact hsame

/-- **One step** keeps the system good. -/
theorem good_step (v : Verified S R A P Q) {s : System τ σ ω ρ κ} (h : Good S R A P Q s)
    (e : τ × Action ρ ε γ) : Good S R A P Q (s.step S e) ∧ Moves R s (s.step S e) := by
  obtain ⟨c, a⟩ := e
  cases a with
  | world e => exact good_world v h c e
  | accept command => exact good_accept v h c command
  | resume i reply => exact good_resume v h c i reply
  | join i => exact good_join v h c i
  | cancel i => exact good_cancel v h c i

/-! ## Runs -/

theorem good_initial (state : σ) :
    Good S R A P Q (System.initial state : System τ σ ω ρ κ) where
  jobs := by
    intro i job hj
    cases hj
  started := by
    intro x hx
    cases hx

theorem good_run (v : Verified S R A P Q) (state : σ) (es : List (τ × Action ρ ε γ)) :
    Good S R A P Q (replay (System.step S) (System.initial state) es) :=
  replay_invariant (System.step S) (I := Good S R A P Q) (good_initial state)
    (fun _ e h => (good_step v h e).1) es

theorem Moves.trans (v : Verified S R A P Q) {a b c : System τ σ ω ρ κ} (hab : Moves R a b)
    (hbc : Moves R b c) : Moves R a c where
  later := v.later_trans hab.later hbc.later
  jobs := by
    intro i job hj
    obtain ⟨job', hj', hlabel'⟩ := hab.jobs i job hj
    obtain ⟨job'', hj'', hlabel''⟩ := hbc.jobs i job' hj'
    exact ⟨job'', hj'', hlabel''.trans hlabel'⟩

/-- A run moves on from each of its points. -/
theorem moves_replay (v : Verified S R A P Q) {s : System τ σ ω ρ κ} (h : Good S R A P Q s)
    (es : List (τ × Action ρ ε γ)) : Moves R s (replay (System.step S) s es) := by
  have hboth : Good S R A P Q (replay (System.step S) s es) ∧
      Moves R s (replay (System.step S) s es) :=
    replay_invariant (System.step S) (I := fun x => Good S R A P Q x ∧ Moves R s x)
      ⟨h, ⟨v.later_refl _, fun i job hj => ⟨job, hj, rfl⟩⟩⟩
      (fun x e hx => ⟨(good_step v hx.1 e).1, hx.2.trans v (good_step v hx.1 e).2⟩) es
  exact hboth.2

/-- **Every output is allowed where it starts**, by the job that starts it. -/
theorem started_verified (v : Verified S R A P Q) (state : σ) (es : List (τ × Action ρ ε γ))
    {x : Started τ σ ω} (hx : x ∈ (replay (System.step S) (System.initial state) es).started) :
    ∃ job, (replay (System.step S) (System.initial state) es).jobs[x.job]? = some job ∧
      A job.label job.accepted.state ∧ P job.label x.clock x.state x.output := by
  have hgood := good_run v state es
  obtain ⟨job, hj, hP⟩ := hgood.started x hx
  exact ⟨job, hj, (hgood.jobs _ job hj).accepted, hP⟩

/-- **A caller that returned** did so after its task had ended where `Q` holds. -/
theorem returned_verified (v : Verified S R A P Q) (state : σ) (es : List (τ × Action ρ ε γ))
    {i : Nat} {job : Job τ σ ω ρ κ} {m : Moment τ σ ω}
    (hj : (replay (System.step S) (System.initial state) es).jobs[i]? = some job)
    (hm : job.caller = .ended (some ()) m) :
    A job.label job.accepted.state ∧ ∃ r m', job.task = .ended r m' ∧
      Q i job.label m'.started m'.clock m'.state r ∧
      (S.returns job.label r m.clock m.state).2 = some () ∧
      Later R (job.accepted.started, job.accepted.state) (m'.started, m'.state) ∧
      Later R (m'.started, m'.state) (m.started, m.state) := by
  have hgood := (good_run v state es).jobs i job hj
  obtain ⟨r, m', ht, hret, hmm, -⟩ := hgood.returned m hm
  obtain ⟨hQ, hacc, -⟩ := hgood.ended r m' ht
  exact ⟨hgood.accepted, r, m', ht, hQ, hret, hacc, hmm⟩

/-- A caller ends at the point of the step that ends it. -/
theorem caller_step {s : System τ σ ω ρ κ} (e : τ × Action ρ ε γ) {i : Nat}
    {job : Job τ σ ω ρ κ} {r : Option Unit} {m : Moment τ σ ω}
    (hj : (s.step S e).jobs[i]? = some job) (hm : job.caller = .ended r m) :
    (∃ job₀ : Job τ σ ω ρ κ, s.jobs[i]? = some job₀ ∧ job₀.caller = .ended r m) ∨
      (m.started, m.state) = (s.started, s.state) := by
  have hset : ∀ (j : Nat) (old new : Job τ σ ω ρ κ), s.jobs[j]? = some old →
      (s.jobs.set j new)[i]? = some job →
      (new.caller = old.caller ∨ ∃ r c, new.caller = .ended r ⟨c, s.started, s.state⟩) →
      (∃ job₀ : Job τ σ ω ρ κ, s.jobs[i]? = some job₀ ∧ job₀.caller = .ended r m) ∨
        (m.started, m.state) = (s.started, s.state) := by
    intro j old new hold hnew hcaller
    rw [List.getElem?_set] at hnew
    split at hnew
    · next hji =>
      subst hji
      split at hnew
      · obtain rfl := Option.some.inj hnew
        rcases hcaller with hc | ⟨r', c, hc⟩
        · exact Or.inl ⟨old, hold, hc ▸ hm⟩
        · rw [hc] at hm
          obtain ⟨-, rfl⟩ := Caller.ended.inj hm
          exact Or.inr rfl
      · cases hnew
    · exact Or.inl ⟨job, hnew, hm⟩
  obtain ⟨c, a⟩ := e
  cases a with
  | world e => exact Or.inl ⟨job, hj, hm⟩
  | accept command =>
    change (s.accept S c command).jobs[i]? = some job at hj
    unfold System.accept at hj
    dsimp only at hj
    split at hj
    · rw [List.getElem?_append] at hj
      split at hj
      · exact Or.inl ⟨job, hj, hm⟩
      · rw [List.getElem?_singleton] at hj
        split at hj
        · obtain rfl := Option.some.inj hj
          cases hm
        · cases hj
    · exact Or.inl ⟨job, hj, hm⟩
  | resume j reply =>
    change (s.resume c j reply).jobs[i]? = some job at hj
    unfold System.resume at hj
    split at hj
    · next old hold =>
      split at hj
      · exact hset j old _ hold hj (Or.inl rfl)
      · exact Or.inl ⟨job, hj, hm⟩
    · exact Or.inl ⟨job, hj, hm⟩
  | join j =>
    change (s.join S c j).jobs[i]? = some job at hj
    unfold System.join at hj
    split at hj
    · next old hold =>
      split at hj
      · exact hset j old _ hold hj (Or.inr ⟨_, c, rfl⟩)
      · exact Or.inl ⟨job, hj, hm⟩
    · exact Or.inl ⟨job, hj, hm⟩
  | cancel j =>
    change (s.cancel c j).jobs[i]? = some job at hj
    unfold System.cancel at hj
    split at hj
    · next old hold =>
      split at hj
      · exact hset j old _ hold hj (Or.inr ⟨_, c, rfl⟩)
      · exact Or.inl ⟨job, hj, hm⟩
    · exact Or.inl ⟨job, hj, hm⟩

/-- A caller that still waits at one point of a run ends at a later point. -/
theorem ended_later (v : Verified S R A P Q) {s : System τ σ ω ρ κ} (h : Good S R A P Q s)
    (es : List (τ × Action ρ ε γ)) {i : Nat} {job₀ job : Job τ σ ω ρ κ} {r : Option Unit}
    {m : Moment τ σ ω} (hj₀ : s.jobs[i]? = some job₀) (hwait : job₀.caller = .joining)
    (hj : (replay (System.step S) s es).jobs[i]? = some job) (hm : job.caller = .ended r m) :
    Later R (s.started, s.state) (m.started, m.state) := by
  induction es using List.reverseRecOn generalizing job with
  | nil =>
    rw [replay_nil, hj₀] at hj
    obtain rfl := Option.some.inj hj
    rw [hwait] at hm
    cases hm
  | append_singleton es e ih =>
    rw [replay_append, replay_singleton] at hj
    rcases caller_step e hj hm with ⟨job₁, hj₁, hm₁⟩ | heq
    · exact ih hj₁ hm₁
    · rw [heq]
      exact (moves_replay v h es).later

end Rules

end Async
