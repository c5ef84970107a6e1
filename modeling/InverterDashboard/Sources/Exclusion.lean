import InverterDashboard.Sources.Steps

/-
  One data source at a time.

  The task that fails over or recovers takes itself off the list of tasks, cancels the others and
  waits until they have ended, so that nobody can cancel it any more. Proved for every startup and
  every order of steps:
  - `sources_exclusive`: only the newest source is ever current, and it is the active one; one task
    at most has a client or may still make one; one switch at most is under way, and while it is no
    source is current;
  - `retired_inert`: what a retired source still does changes its own task only, and it never
    becomes current again.
-/

namespace InverterDashboard.Sources

open Temporal

/-! ## The invariant -/

/-- A switch is under way. -/
def Busy (w : World) : Prop := ∃ (i : Nat) (t : Task), w.tasks[i]? = some t ∧ t.point.isSwitching = true

def Retired (w : World) : Prop := ∀ c ∈ w.sources, c.generation < w.app.sourceGeneration

/-- A watchdog or recovery loop that will not switch. -/
def Task.harmless (t : Task) : Prop :=
  t.role.isSource = false → t.point = .ended ∨ t.cancelled = true

/-- No source is current and nothing will start one. -/
structure Quiet (w : World) : Prop where
  retired : Retired w
  unlisted : w.app.mqttTasks = []
  still : ∀ (i : Nat) (t : Task), w.tasks[i]? = some t → t.point.isSwitching = false ∧ t.harmless

/-- What holds while a task is in a switch. -/
structure Switch (w : World) (i : Nat) (children : List Nat) : Prop where
  retired : Retired w
  unlisted : w.app.mqttTasks = []
  apart : i ∉ children
  children : ∀ (j : Nat) (u : Task), w.tasks[j]? = some u → u.mayConnect = true → j ∈ children
  alone : ∀ (j : Nat) (u : Task), w.tasks[j]? = some u → u.point.isSwitching = true → j = i

/-- The newest source, when it has not been retired. -/
structure Newest (a : App) (c : Closure) : Prop where
  state : a.mqttState = some c.state
  dataSource : a.dataSource = some c.source
  activeSource : a.activeSource = some c.source

structure Inv (w : World) : Prop where
  sorted : w.sources.Pairwise fun c d => c.generation < d.generation
  bound : ∀ c ∈ w.sources, c.generation ≤ w.app.sourceGeneration
  newest : ∀ c ∈ w.sources.getLast?, c.generation = w.app.sourceGeneration → Newest w.app c
  known : ∀ t ∈ w.tasks, ∀ c, t.role.closure? = some c → c ∈ w.sources
  /-- Who may connect belongs to the newest source. -/
  latest : ∀ (i : Nat) (t : Task) c, w.tasks[i]? = some t → t.mayConnect = true →
    t.role.closure? = some c → w.sources.getLast? = some c
  /-- A watchdog or recovery loop that can still switch is on the list. -/
  listed : ∀ (i : Nat) (t : Task), w.tasks[i]? = some t → t.role.isSource = false →
    t.point ≠ .ended → t.cancelled = false → t.point.isSwitching = false → i ∈ w.app.mqttTasks
  switch : ∀ (i : Nat) (t : Task) target children, w.tasks[i]? = some t →
    t.point = .switching target children → t.cancelled = false ∧ Switch w i children
  /-- A task that may connect can be cancelled, or is being cancelled. -/
  reached : ∀ (i : Nat) (t : Task), w.tasks[i]? = some t → t.mayConnect = true →
    i ∈ w.app.mqttTasks ∨ Busy w ∨ Quiet w
  one : ∀ (i j : Nat) (t u : Task), w.tasks[i]? = some t → w.tasks[j]? = some u →
    t.mayConnect = true → u.mayConnect = true → i = j

/-! ### Tasks in the list -/

theorem getElem?_set_cases {α : Type} {l : List α} {i j : Nat} {a b : α}
    (h : (l.set i a)[j]? = some b) : (j = i ∧ b = a) ∨ (j ≠ i ∧ l[j]? = some b) := by
  rcases eq_or_ne i j with rfl | hne
  · obtain ⟨hlt, heq⟩ := List.getElem?_eq_some_iff.mp h
    rw [List.getElem_set_self] at heq
    exact Or.inl ⟨rfl, heq.symm⟩
  · rw [List.getElem?_set_ne hne] at h
    exact Or.inr ⟨hne.symm, h⟩

theorem switching_of {t : Task} (h : t.point.isSwitching = true) :
    ∃ target children, t.point = .switching target children := by
  cases hpoint : t.point with
  | switching target children => exact ⟨target, children, rfl⟩
  | _ => rw [hpoint] at h; cases h

/-- A task in a switch has no client. -/
theorem mayConnect_switching {t : Task} (h : t.point.isSwitching = true) : t.mayConnect = false := by
  obtain ⟨target, children, hpoint⟩ := switching_of h
  unfold Task.mayConnect
  rw [hpoint]
  cases t.role <;> rfl

theorem mayConnect_ended {t : Task} (h : t.point = .ended) : t.mayConnect = false := by
  unfold Task.mayConnect
  rw [h]
  cases t.role <;> rfl

theorem Inv.busy {w : World} (h : Inv w) (hbusy : Busy w) :
    ∃ i children, Switch w i children := by
  obtain ⟨i, t, ht, hpoint⟩ := hbusy
  obtain ⟨target, children, hpoint⟩ := switching_of hpoint
  exact ⟨i, children, (h.switch i t target children ht hpoint).2⟩

/-- While a source is current, or a watching task may switch, there is no switch and no shutdown. -/
theorem Inv.active {w : World} (h : Inv w) {i : Nat} {t : Task} (ht : w.tasks[i]? = some t)
    (hcurrent : ∀ c, t.role.closure? = some c → w.app.current c = true)
    (hwatching : t.role.isSource = false → t.cancelled = false)
    (hpoint : t.point.isSwitching = false) (hended : t.point ≠ .ended) :
    ¬ Busy w ∧ ¬ Quiet w := by
  have hnot : Retired w → w.app.mqttTasks = [] → False := by
    intro hretired hunlisted
    cases hsource : t.role.isSource with
    | true =>
      obtain ⟨c, hc⟩ : ∃ c, t.role.closure? = some c := by
        cases hr : t.role <;> rw [hr] at hsource <;> first | exact ⟨_, rfl⟩ | cases hsource
      have hmem := h.known t (List.mem_of_getElem? ht) c hc
      have hgeneration : w.app.sourceGeneration = c.generation := by
        have := hcurrent c hc
        unfold App.current at this
        exact (of_decide_eq_true this).1
      have := hretired c hmem
      omega
    | false =>
      have := h.listed i t ht hsource hended (hwatching hsource) hpoint
      rw [hunlisted] at this
      cases this
  refine ⟨fun hbusy => ?_, fun hquiet => hnot hquiet.retired hquiet.unlisted⟩
  obtain ⟨j, children, hswitch⟩ := h.busy hbusy
  exact hnot hswitch.retired hswitch.unlisted

/-! ### A task moves -/

theorem core_eq {a a' : App} (h : a'.core = a.core) :
    a'.mqttState = a.mqttState ∧ a'.mqttTasks = a.mqttTasks ∧ a'.dataSource = a.dataSource ∧
      a'.sourceGeneration = a.sourceGeneration ∧ a'.activeSource = a.activeSource := by
  simp only [App.core, Prod.mk.injEq] at h
  exact ⟨h.1, h.2.1, h.2.2.1, h.2.2.2.1, h.2.2.2.2.1⟩

theorem current_core {a a' : App} (h : a'.core = a.core) (c : Closure) :
    a'.current c = a.current c := by
  obtain ⟨hstate, -, hsource, hgeneration, -⟩ := core_eq h
  unfold App.current
  rw [hstate, hsource, hgeneration]

section Moved

variable {w w' : World} {i : Nat} {t t' : Task}

theorem Local.retired (hl : Local w i t w' t') (h : Retired w) : Retired w' := by
  unfold Retired
  rw [hl.sources, (core_eq hl.core).2.2.2.1]
  exact h

theorem Local.cases (hl : Local w i t w' t') {j : Nat} {u : Task} (hu : w'.tasks[j]? = some u) :
    (j = i ∧ u = t') ∨ (j ≠ i ∧ w.tasks[j]? = some u) := by
  rw [hl.tasks] at hu
  exact getElem?_set_cases hu

/-- A watching task that is left to run was left to run before. -/
theorem Local.harmless (hl : Local w i t w' t')
    (h : t.role.isSource = false → t.point = .ended ∨ t.cancelled = true ∨ t.point.isSwitching = true) :
    t'.harmless := by
  intro hsource
  rw [hl.role] at hsource
  by_contra hnot
  rw [not_or] at hnot
  obtain ⟨hcancelled, hpoint, hended⟩ := hl.watching hsource hnot.1
  rcases h hsource with h | h | h
  · exact hended h
  · rw [hcancelled] at h
    cases h
  · rw [hpoint] at h
    cases h

theorem Local.quiet (hl : Local w i t w' t') (ht : w.tasks[i]? = some t) (h : Quiet w) :
    Quiet w' where
  retired := hl.retired h.retired
  unlisted := (core_eq hl.core).2.1.trans h.unlisted
  still j u hu := by
    rcases hl.cases hu with ⟨rfl, rfl⟩ | ⟨-, hu⟩
    · exact ⟨hl.point, hl.harmless fun hs => ((h.still _ t ht).2 hs).imp_right Or.inl⟩
    · exact h.still j u hu

/-- A switch that is cancelled leaves no source. -/
theorem Local.abandoned (hl : Local w i t w' t') (h : Inv w) (ht : w.tasks[i]? = some t)
    (hpoint : t.point.isSwitching = true) : Quiet w' := by
  obtain ⟨target, children, hswitching⟩ := switching_of hpoint
  obtain ⟨-, hswitch⟩ := h.switch i t target children ht hswitching
  refine ⟨hl.retired hswitch.retired, (core_eq hl.core).2.1.trans hswitch.unlisted, ?_⟩
  intro j u hu
  rcases hl.cases hu with ⟨rfl, rfl⟩ | ⟨hne, hu⟩
  · exact ⟨hl.point, hl.harmless fun _ => Or.inr (Or.inr hpoint)⟩
  · have hstill : u.point.isSwitching = false := by
      rw [← Bool.not_eq_true]
      exact fun hu' => hne (hswitch.alone j u hu hu')
    refine ⟨hstill, fun hsource => ?_⟩
    by_contra hnot
    rw [not_or, Bool.not_eq_true] at hnot
    have hlisted := h.listed j u hu hsource hnot.1 hnot.2 hstill
    rw [hswitch.unlisted] at hlisted
    cases hlisted

theorem Inv.moved (h : Inv w) (ht : w.tasks[i]? = some t) (hl : Local w i t w' t') : Inv w' := by
  obtain ⟨hstate, htasks, hsource, hgeneration, hactive⟩ := core_eq hl.core
  have hbefore : ∀ {j : Nat} {u : Task}, w'.tasks[j]? = some u → u.mayConnect = true →
      ∃ v : Task, w.tasks[j]? = some v ∧ v.mayConnect = true ∧ u.role = v.role := by
    intro j u hu hconnect
    rcases hl.cases hu with ⟨rfl, rfl⟩ | ⟨-, hu⟩
    · exact ⟨t, ht, hl.connects hconnect, hl.role⟩
    · exact ⟨u, hu, hconnect, rfl⟩
  constructor
  · rw [hl.sources]
    exact h.sorted
  · rw [hl.sources, hgeneration]
    exact h.bound
  · rw [hl.sources, hgeneration]
    intro c hc heq
    obtain ⟨h₁, h₂, h₃⟩ := h.newest c hc heq
    exact ⟨hstate.trans h₁, hsource.trans h₂, hactive.trans h₃⟩
  · intro u hu c hc
    rw [hl.sources]
    obtain ⟨j, hj⟩ := List.mem_iff_getElem?.mp hu
    rcases hl.cases hj with ⟨rfl, rfl⟩ | ⟨-, hj⟩
    · exact h.known t (List.mem_of_getElem? ht) c (hl.role ▸ hc)
    · exact h.known u (List.mem_of_getElem? hj) c hc
  · intro j u c hu hconnect hc
    obtain ⟨v, hv, hconnect', hrole⟩ := hbefore hu hconnect
    rw [hl.sources]
    exact h.latest j v c hv hconnect' (hrole ▸ hc)
  · intro j u hu hrole hended hcancelled hpoint
    rw [htasks]
    rcases hl.cases hu with ⟨rfl, rfl⟩ | ⟨-, hu⟩
    · rw [hl.role] at hrole
      obtain ⟨hcancelled, hpoint, hended⟩ := hl.watching hrole hended
      exact h.listed _ t ht hrole hended hcancelled hpoint
    · exact h.listed j u hu hrole hended hcancelled hpoint
  · intro j u target children hu hpoint
    have hswitching : u.point.isSwitching = true := by rw [hpoint]; rfl
    rcases hl.cases hu with ⟨rfl, rfl⟩ | ⟨-, hu⟩
    · rw [hl.point] at hswitching
      cases hswitching
    · obtain ⟨hcancelled, hswitch⟩ := h.switch j u target children hu hpoint
      refine ⟨hcancelled, hl.retired hswitch.retired, htasks.trans hswitch.unlisted,
        hswitch.apart, ?_, ?_⟩
      · intro k v hv hconnect
        obtain ⟨v', hv', hconnect', -⟩ := hbefore hv hconnect
        exact hswitch.children k v' hv' hconnect'
      · intro k v hv hv'
        rcases hl.cases hv with ⟨rfl, rfl⟩ | ⟨-, hv⟩
        · rw [hl.point] at hv'
          cases hv'
        · exact hswitch.alone k v hv hv'
  · intro j u hu hconnect
    obtain ⟨v, hv, hconnect', -⟩ := hbefore hu hconnect
    rw [htasks]
    rcases h.reached j v hv hconnect' with hlisted | ⟨k, x, hx, hpoint⟩ | hquiet
    · exact Or.inl hlisted
    · refine Or.inr ?_
      rcases eq_or_ne k i with rfl | hne
      · rw [ht] at hx
        obtain rfl := Option.some.inj hx
        exact Or.inr (hl.abandoned h ht hpoint)
      · refine Or.inl ⟨k, x, ?_, hpoint⟩
        rw [hl.tasks, List.getElem?_set_ne hne.symm]
        exact hx
    · exact Or.inr (Or.inr (hl.quiet ht hquiet))
  · intro j k u v hu hv huconnect hvconnect
    obtain ⟨u', hu', hu'', -⟩ := hbefore hu huconnect
    obtain ⟨v', hv', hv'', -⟩ := hbefore hv hvconnect
    exact h.one j k u' v' hu' hv' hu'' hv''

end Moved

/-! ### A source is started -/

/-- A task that has no part in the data source. -/
structure Task.Idle (t : Task) : Prop where
  point : t.point.isSwitching = false
  connects : t.mayConnect = false
  harmless : t.harmless

/-- `startSource`, on a state with nothing left of another source. -/
structure Started (w : World) (source : Source) (w' : World) (created : List Task) : Prop where
  state : w'.app.mqttState = some w.fresh
  dataSource : w'.app.dataSource = some source
  generation : w'.app.sourceGeneration = w.app.sourceGeneration + 1
  activeSource : w'.app.activeSource = w.app.activeSource
  sources : w'.sources = w.sources ++ [w.nextClosure source]
  tasks : w'.tasks = w.tasks ++ created
  listed : ∀ k < created.length, w.tasks.length + k ∈ w'.app.mqttTasks
  created : ∀ (k : Nat) (t : Task), created[k]? = some t → t.point = .created ∧
    (∀ c, t.role.closure? = some c → c = w.nextClosure source) ∧ (t.mayConnect = true → k = 0)

theorem startSource_started (w : World) (source : Source) (dual clientMade : Bool) :
    ∃ created, Started w source (w.startSource source dual clientMade) created := by
  have hone : ∀ {role : Role} {c : Closure}, (∀ d, role.closure? = some d → d = c) →
      ∀ (k : Nat) (t : Task), [Task.new role][k]? = some t → t.point = .created ∧
        (∀ d, t.role.closure? = some d → d = c) ∧ (t.mayConnect = true → k = 0) := by
    intro role c hrole k t ht
    cases k with
    | zero =>
      obtain rfl := Option.some.inj ht
      exact ⟨rfl, hrole, fun _ => rfl⟩
    | succ k => simp at ht
  have htwo : ∀ {role watching : Role} {c : Closure}, (∀ d, role.closure? = some d → d = c) →
      watching.isSource = false →
      ∀ (k : Nat) (t : Task), [Task.new role, Task.new watching][k]? = some t →
        t.point = .created ∧ (∀ d, t.role.closure? = some d → d = c) ∧
        (t.mayConnect = true → k = 0) := by
    intro role watching c hrole hwatching k t ht
    match k with
    | 0 =>
      obtain rfl := Option.some.inj ht
      exact ⟨rfl, hrole, fun _ => rfl⟩
    | 1 =>
      obtain rfl := Option.some.inj ht
      cases watching with
      | mqtt | gateway => cases hwatching
      | _ => exact ⟨rfl, nofun, nofun⟩
    | k + 2 => simp at ht
  have hclosure : ∀ (c d : Closure), some c = some d → d = c :=
    fun c d h => (Option.some.inj h).symm
  cases source with
  | mqtt =>
    cases clientMade with
    | false =>
      refine ⟨[], ?_⟩
      cases dual <;>
        exact ⟨rfl, rfl, rfl, rfl, rfl, (List.append_nil _).symm, nofun, nofun⟩
    | true =>
      cases dual with
      | false =>
        refine ⟨[.new (.mqtt (w.nextClosure .mqtt))], rfl, rfl, rfl, rfl, rfl, rfl, ?_,
          hone (hclosure _)⟩
        intro k hk
        simp only [List.length_singleton] at hk
        simp [World.startSource, World.startMqttClient, World.createTask, World.makeClient,
          World.newSourceState, App.retire]
        omega
      | true =>
        refine ⟨[.new (.mqtt (w.nextClosure .mqtt)), .new .watchdog], rfl, rfl, rfl, rfl, rfl, ?_,
          ?_, htwo (hclosure _) rfl⟩
        · simp [World.startSource, World.startMqttClient, World.createTask, World.makeClient,
            World.newSourceState]
        · intro k hk
          simp only [List.length_cons, List.length_nil] at hk
          simp [World.startSource, World.startMqttClient, World.createTask, World.makeClient,
            World.newSourceState, App.retire]
          omega
  | igw =>
    cases dual with
    | false =>
      refine ⟨[.new (.gateway (w.nextClosure .igw))], rfl, rfl, rfl, rfl, rfl, rfl, ?_,
        hone (hclosure _)⟩
      intro k hk
      simp only [List.length_singleton] at hk
      simp [World.startSource, World.startGatewayClient, World.createTask, World.newSourceState,
        App.retire]
      omega
    | true =>
      refine ⟨[.new (.gateway (w.nextClosure .igw)), .new .recovery], rfl, rfl, rfl, rfl, rfl, ?_,
        ?_, htwo (hclosure _) rfl⟩
      · simp [World.startSource, World.startGatewayClient, World.createTask, World.newSourceState]
      · intro k hk
        simp only [List.length_cons, List.length_nil] at hk
        simp [World.startSource, World.startGatewayClient, World.createTask, World.newSourceState,
          App.retire]
        omega

section Started

variable {w w' : World} {source : Source} {created tasks : List Task}

/-- Nothing is left of another source when one is started. -/
theorem Started.inv (h : Started w source w' created)
    (hsorted : w.sources.Pairwise fun c d => c.generation < d.generation)
    (hbound : ∀ c ∈ w.sources, c.generation ≤ w.app.sourceGeneration)
    (hactive : w.app.activeSource = some source)
    (htasks : ∀ (j : Nat) (t : Task), tasks[j]? = some t →
      (t.Idle ∧ ∀ c, t.role.closure? = some c → c ∈ w.sources) ∨
      ∃ k, j = w.tasks.length + k ∧ created[k]? = some t) :
    Inv { w' with tasks := tasks } := by
  have hnew : ∀ {k : Nat} {t : Task}, created[k]? = some t →
      w.tasks.length + k ∈ w'.app.mqttTasks ∧ t.point.isSwitching = false := by
    intro k t ht
    refine ⟨h.listed k (List.getElem?_eq_some_iff.mp ht).1, ?_⟩
    rw [(h.created k t ht).1]
    rfl
  have hstill : ∀ {j : Nat} {t : Task}, tasks[j]? = some t → t.point.isSwitching = false := by
    intro j t ht
    rcases htasks j t ht with ⟨hidle, -⟩ | ⟨k, -, hk⟩
    · exact hidle.point
    · exact (hnew hk).2
  have hconnects : ∀ {j : Nat} {t : Task}, tasks[j]? = some t → t.mayConnect = true →
      j = w.tasks.length ∧ j ∈ w'.app.mqttTasks := by
    intro j t ht hconnect
    rcases htasks j t ht with ⟨hidle, -⟩ | ⟨k, rfl, hk⟩
    · rw [hidle.connects] at hconnect
      cases hconnect
    · have := (h.created k t hk).2.2 hconnect
      exact ⟨by omega, (hnew hk).1⟩
  constructor
  · rw [h.sources, List.pairwise_append]
    refine ⟨hsorted, List.pairwise_singleton .., ?_⟩
    intro c hc d hd
    rw [List.mem_singleton.mp hd]
    exact Nat.lt_succ_of_le (hbound c hc)
  · intro c hc
    rw [h.sources] at hc
    rw [h.generation]
    rcases List.mem_append.mp hc with hc | hc
    · exact Nat.le_succ_of_le (hbound c hc)
    · rw [List.mem_singleton.mp hc]
      exact Nat.le_refl _
  · intro c hc _
    rw [h.sources, List.getLast?_concat, Option.mem_def] at hc
    obtain rfl := Option.some.inj hc
    exact ⟨h.state, h.dataSource, h.activeSource.trans hactive⟩
  · intro t ht c hc
    rw [h.sources, List.mem_append]
    obtain ⟨j, hj⟩ := List.mem_iff_getElem?.mp ht
    rcases htasks j t hj with ⟨-, hknown⟩ | ⟨k, -, hk⟩
    · exact Or.inl (hknown c hc)
    · rw [(h.created k t hk).2.1 c hc]
      exact Or.inr (List.mem_singleton_self _)
  · intro j t c ht hconnect hc
    rw [h.sources, List.getLast?_concat]
    rcases htasks j t ht with ⟨hidle, -⟩ | ⟨k, -, hk⟩
    · rw [hidle.connects] at hconnect
      cases hconnect
    · rw [(h.created k t hk).2.1 c hc]
  · intro j t ht hsource hended hcancelled _
    rcases htasks j t ht with ⟨hidle, -⟩ | ⟨k, rfl, hk⟩
    · rcases hidle.harmless hsource with hend | hcancel
      · exact absurd hend hended
      · rw [hcancelled] at hcancel
        cases hcancel
    · exact (hnew hk).1
  · intro j t target children ht hpoint
    have := hstill ht
    rw [hpoint] at this
    cases this
  · exact fun j t ht hconnect => Or.inl (hconnects ht hconnect).2
  · exact fun j k t u ht hu htc huc => (hconnects ht htc).1.trans (hconnects hu huc).1.symm

end Started

/-! ### Switches -/

section Switches

variable {w : World} {i : Nat} {t : Task}

/-- The other tasks have been stopped, and the task goes on. -/
structure Ready (w : World) (i : Nat) : Prop where
  own : i < w.tasks.length
  sorted : w.sources.Pairwise fun c d => c.generation < d.generation
  bound : ∀ c ∈ w.sources, c.generation ≤ w.app.sourceGeneration
  known : ∀ t ∈ w.tasks, ∀ c, t.role.closure? = some c → c ∈ w.sources
  others : ∀ (j : Nat) (t : Task), j ≠ i → w.tasks[j]? = some t → t.Idle

theorem afterSwitch_idle (t : Task) : (World.afterSwitch t).Idle := by
  obtain ⟨role, client, keepalive, cancelled, point⟩ := t
  cases role with
  | mqtt c => cases keepalive <;> exact ⟨rfl, rfl, nofun⟩
  | gateway c => exact ⟨rfl, rfl, nofun⟩
  | _ => exact ⟨rfl, rfl, fun _ => Or.inl rfl⟩

theorem afterSwitch_role (t : Task) : (World.afterSwitch t).role = t.role := by
  unfold World.afterSwitch
  split <;> rfl

theorem Ready.finish (h : Ready w i) (target : Source) (env : Env) :
    Inv (w.finishSwitch i target env) := by
  unfold World.finishSwitch
  dsimp only
  obtain ⟨created, hstarted⟩ := startSource_started
    { w with app := App.select { w.app with
        mqttConnected := false, gatewayConnected := false, mqttClient := none } (some target) true }
    target true env.clientMade
  refine hstarted.inv h.sorted h.bound rfl ?_
  intro j t ht
  rw [hstarted.tasks, List.getElem?_modify, List.getElem?_append] at ht
  by_cases hj : j < w.tasks.length
  · rw [if_pos hj] at ht
    obtain ⟨u, hu, rfl⟩ := Option.map_eq_some_iff.mp ht
    refine Or.inl ?_
    have hmem := List.mem_of_getElem? hu
    by_cases hij : i = j
    · rw [if_pos hij]
      refine ⟨afterSwitch_idle u, fun c hc => ?_⟩
      rw [afterSwitch_role] at hc
      exact h.known u hmem c hc
    · rw [if_neg hij]
      exact ⟨h.others j u (Ne.symm hij) hu, h.known u hmem⟩
  · rw [if_neg hj] at ht
    obtain ⟨u, hu, rfl⟩ := Option.map_eq_some_iff.mp ht
    refine Or.inr ⟨j - w.tasks.length, ?_, ?_⟩
    · show j = w.tasks.length + _
      omega
    · rw [hu, if_neg (by have := h.own; omega)]

/-- A cancelled task is as it was, but for its request. -/
theorem cancelTasks_cases {children : List Nat} {tasks : List Task} {j : Nat} {u : Task}
    (hu : (World.cancelTasks children tasks)[j]? = some u) :
    ∃ v : Task, tasks[j]? = some v ∧ u.role = v.role ∧ u.point = v.point ∧
      u.mayConnect = v.mayConnect ∧ u.cancelled = (v.cancelled || decide (j ∈ children)) := by
  rw [World.cancelTasks, List.getElem?_mapIdx] at hu
  obtain ⟨v, hv, rfl⟩ := Option.map_eq_some_iff.mp hu
  refine ⟨v, hv, ?_⟩
  split
  · next hmem => exact ⟨rfl, rfl, rfl, by simp [Task.cancel, hmem]⟩
  · next hmem => exact ⟨rfl, rfl, rfl, by simp [hmem]⟩

/-- A source is taken away while nothing else switches. -/
theorem Inv.began (h : Inv w) (ht : w.tasks[i]? = some t) (hbusy : ¬ Busy w) (hquiet : ¬ Quiet w)
    (hcancelled : t.cancelled = false) (target : Source) (env : Env) :
    Inv (w.beginSwitch i target env) := by
  obtain ⟨hlt, -⟩ := List.getElem?_eq_some_iff.mp ht
  have hstill : ∀ {j : Nat} {u : Task}, w.tasks[j]? = some u → u.point.isSwitching = false := by
    intro j u hu
    rw [← Bool.not_eq_true]
    exact fun hpoint => hbusy ⟨j, u, hu, hpoint⟩
  have hconnects : ∀ {j : Nat} {u : Task}, w.tasks[j]? = some u → u.mayConnect = true →
      j ∈ w.app.mqttTasks := by
    intro j u hu hconnect
    rcases h.reached j u hu hconnect with hlisted | hbusy' | hquiet'
    · exact hlisted
    · exact absurd hbusy' hbusy
    · exact absurd hquiet' hquiet
  have hbound : ∀ c ∈ w.sources, c.generation < w.app.sourceGeneration + 1 :=
    fun c hc => Nat.lt_succ_of_le (h.bound c hc)
  have hknown : ∀ (children : List Nat), ∀ u ∈ World.cancelTasks children w.tasks,
      ∀ c, u.role.closure? = some c → c ∈ w.sources := by
    intro children u hu c hc
    obtain ⟨j, hj⟩ := List.mem_iff_getElem?.mp hu
    obtain ⟨v, hv, hrole, -⟩ := cancelTasks_cases hj
    exact h.known v (List.mem_of_getElem? hv) c (hrole ▸ hc)
  have hchildren : ∀ {j : Nat}, j ∈ w.app.mqttTasks → j ≠ i →
      j ∈ w.app.mqttTasks.filter (· ≠ i) :=
    fun hlisted hne => List.mem_filter.mpr ⟨hlisted, decide_eq_true hne⟩
  have hharmless : ∀ {j : Nat} {u : Task}, j ≠ i →
      (World.cancelTasks (w.app.mqttTasks.filter (· ≠ i)) w.tasks)[j]? = some u → u.harmless := by
    intro j u hne hu hsource
    obtain ⟨v, hv, hrole, hpoint, -, hflag⟩ := cancelTasks_cases hu
    rw [hpoint, hflag, Bool.or_eq_true, decide_eq_true_eq]
    by_contra hnot
    rw [not_or, not_or, Bool.not_eq_true] at hnot
    exact hnot.2.2 (hchildren (h.listed j v hv (hrole ▸ hsource) hnot.1 hnot.2.1 (hstill hv)) hne)
  unfold World.beginSwitch
  dsimp only
  split
  · next hnone =>
    -- nobody is left to wait for
    refine Ready.finish ?_ target env
    refine ⟨?_, h.sorted, ?_, hknown _, ?_⟩
    · rw [World.cancelTasks, List.length_mapIdx]
      exact hlt
    · exact fun c hc => Nat.le_of_lt (hbound c hc)
    · intro j u hne hu
      obtain ⟨v, hv, hrole, hpoint, hmay, -⟩ := cancelTasks_cases hu
      refine ⟨hpoint ▸ hstill hv, ?_, hharmless hne hu⟩
      rw [hmay, ← Bool.not_eq_true]
      intro hconnect
      have := hchildren (hconnects hv hconnect) hne
      rw [hnone] at this
      cases this
  · -- the task waits for them, and nobody knows it any more
    have hcases : ∀ {j : Nat} {u : Task},
        ((World.cancelTasks (w.app.mqttTasks.filter (· ≠ i)) w.tasks).modify i
          (Task.awaiting · (.switching target (w.app.mqttTasks.filter (· ≠ i)))))[j]? = some u →
        (j = i ∧ u.role = t.role ∧ u.cancelled = false ∧
          u.point = .switching target (w.app.mqttTasks.filter (· ≠ i))) ∨
        (j ≠ i ∧ (World.cancelTasks (w.app.mqttTasks.filter (· ≠ i)) w.tasks)[j]? = some u ∧
          u.point.isSwitching = false) := by
      intro j u hu
      rw [List.getElem?_modify] at hu
      obtain ⟨v, hv, rfl⟩ := Option.map_eq_some_iff.mp hu
      obtain ⟨v', hv', hrole, hpoint, -, hflag⟩ := cancelTasks_cases hv
      rcases eq_or_ne i j with rfl | hne
      · rw [ht] at hv'
        obtain rfl := Option.some.inj hv'
        rw [if_pos rfl]
        refine Or.inl ⟨rfl, hrole, ?_, rfl⟩
        have hapart : i ∉ w.app.mqttTasks.filter (· ≠ i) := by simp
        show v.cancelled = false
        rw [hflag, hcancelled, decide_eq_false hapart]
        rfl
      · rw [if_neg hne]
        exact Or.inr ⟨hne.symm, hv, hpoint ▸ hstill hv'⟩
    have hbefore : ∀ {j : Nat} {u : Task},
        ((World.cancelTasks (w.app.mqttTasks.filter (· ≠ i)) w.tasks).modify i
          (Task.awaiting · (.switching target (w.app.mqttTasks.filter (· ≠ i)))))[j]? = some u →
        u.mayConnect = true →
        ∃ v : Task, w.tasks[j]? = some v ∧ v.mayConnect = true ∧ u.role = v.role := by
      intro j u hu hconnect
      rcases hcases hu with ⟨rfl, -, -, hswitching⟩ | ⟨-, hu, -⟩
      · rw [mayConnect_switching (by rw [hswitching]; rfl)] at hconnect
        cases hconnect
      · obtain ⟨v, hv, hrole, -, hmay, -⟩ := cancelTasks_cases hu
        exact ⟨v, hv, hmay ▸ hconnect, hrole⟩
    have hretired : ∀ c ∈ w.sources, c.generation < (App.retire w.app.invalidate).sourceGeneration :=
      hbound
    constructor
    · exact h.sorted
    · exact fun c hc => Nat.le_of_lt (hretired c hc)
    · intro c hc heq
      have := hretired c (List.mem_of_getLast? hc)
      exact absurd heq (Nat.ne_of_lt this)
    · intro u hu c hc
      obtain ⟨j, hj⟩ := List.mem_iff_getElem?.mp hu
      rcases hcases hj with ⟨rfl, hrole, -⟩ | ⟨-, hj, -⟩
      · exact h.known t (List.mem_of_getElem? ht) c (hrole ▸ hc)
      · exact hknown _ u (List.mem_of_getElem? hj) c hc
    · intro j u c hu hconnect hc
      obtain ⟨v, hv, hconnect', hrole⟩ := hbefore hu hconnect
      exact h.latest j v c hv hconnect' (hrole ▸ hc)
    · intro j u hu hsource hended hflag hpoint
      rcases hcases hu with ⟨rfl, -, -, hswitching⟩ | ⟨hne, hu, -⟩
      · rw [hswitching] at hpoint
        cases hpoint
      · rcases hharmless hne hu hsource with hend | hcancel
        · exact absurd hend hended
        · rw [hflag] at hcancel
          cases hcancel
    · intro j u target' children hu hpoint
      rcases hcases hu with ⟨rfl, -, hflag, hswitching⟩ | ⟨-, -, hnot⟩
      · rw [hpoint] at hswitching
        obtain ⟨rfl, rfl⟩ := Point.switching.inj hswitching
        refine ⟨hflag, hretired, rfl, by simp, ?_, ?_⟩
        · intro k v hv hconnect
          rcases hcases hv with ⟨rfl, -, -, hswitching⟩ | ⟨hne, hv, -⟩
          · rw [mayConnect_switching (by rw [hswitching]; rfl)] at hconnect
            cases hconnect
          · obtain ⟨v', hv', -, -, hmay, -⟩ := cancelTasks_cases hv
            exact hchildren (hconnects hv' (hmay ▸ hconnect)) hne
        · intro k v hv hv'
          rcases hcases hv with ⟨rfl, -⟩ | ⟨-, -, hnot⟩
          · rfl
          · rw [hnot] at hv'
            cases hv'
      · rw [hpoint] at hnot
        cases hnot
    · intro j u hu hconnect
      refine Or.inr (Or.inl ⟨i, ?_⟩)
      dsimp only
      rw [List.getElem?_modify_eq, World.cancelTasks, List.getElem?_mapIdx, ht]
      exact ⟨_, rfl, rfl⟩
    · intro j k u v hu hv huconnect hvconnect
      obtain ⟨u', hu', huconnect', -⟩ := hbefore hu huconnect
      obtain ⟨v', hv', hvconnect', -⟩ := hbefore hv hvconnect
      exact h.one j k u' v' hu' hv' huconnect' hvconnect'

/-- A task that finishes its switch. -/
theorem Inv.ready (h : Inv w) (ht : w.tasks[i]? = some t) {target : Source} {children : List Nat}
    (hpoint : t.point = .switching target children) (hchildren : w.allEnded children = true) :
    Ready { w with tasks := w.tasks.set i t.woken } i := by
  obtain ⟨hlt, -⟩ := List.getElem?_eq_some_iff.mp ht
  obtain ⟨-, hswitch⟩ := h.switch i t target children ht hpoint
  refine ⟨by rw [List.length_set]; exact hlt, h.sorted, h.bound, ?_, ?_⟩
  · intro u hu c hc
    rcases List.mem_or_eq_of_mem_set hu with hu | rfl
    · exact h.known u hu c hc
    · exact h.known t (List.mem_of_getElem? ht) c hc
  · intro j u hne hu
    rw [List.getElem?_set_ne hne.symm] at hu
    have hstill : u.point.isSwitching = false := by
      rw [← Bool.not_eq_true]
      exact fun hu' => hne (hswitch.alone j u hu hu')
    refine ⟨hstill, ?_, fun hsource => ?_⟩
    · rw [← Bool.not_eq_true]
      intro hconnect
      have hended := List.all_eq_true.mp hchildren j (hswitch.children j u hu hconnect)
      rw [hu] at hended
      rw [mayConnect_ended (of_decide_eq_true hended)] at hconnect
      cases hconnect
    · by_contra hnot
      rw [not_or, Bool.not_eq_true] at hnot
      have hlisted := h.listed j u hu hsource hnot.1 hnot.2 hstill
      rw [hswitch.unlisted] at hlisted
      cases hlisted

end Switches

/-! ## Runs -/

section Runs

variable {w : World}

theorem Inv.resume (h : Inv w) {i : Nat} {t : Task} {reply : Reply} (env : Env)
    (ht : w.tasks[i]? = some t) (hlegal : legal w t reply = true) :
    Inv (resume w i t reply env) := by
  cases resume_cases env hlegal with
  | moved t' hl => exact h.moved ht hl
  | began a target hcore hcurrent hwatching hpoint hended heq =>
    obtain ⟨hlt, -⟩ := List.getElem?_eq_some_iff.mp ht
    have hl : Local w i t { w with app := a, tasks := w.tasks.set i t.woken } t.woken := by
      refine ⟨rfl, hcore, rfl, rfl, rfl, rfl, hpoint, id, ?_, fun c hc hnot => ?_⟩
      · exact fun hsource _ => ⟨hwatching hsource, hpoint, hended⟩
      · rw [hcurrent c hc] at hnot
        cases hnot
    have ht' : (w.tasks.set i t.woken)[i]? = some t.woken := List.getElem?_set_self hlt
    obtain ⟨hbusy, hquiet⟩ := (h.moved ht hl).active ht'
      (fun c hc => (current_core hcore c).trans (hcurrent c hc)) (fun _ => rfl) hpoint hended
    rw [heq]
    exact (h.moved ht hl).began ht' hbusy hquiet rfl target env
  | finished target children hpoint hchildren heq =>
    rw [heq]
    exact (h.ready ht hpoint hchildren).finish target env

/-- `_shutdown_tasks` cancels what is on the list. -/
theorem Inv.shutdown (h : Inv w) : Inv w.shutdown ∧ (¬ Busy w → Quiet w.shutdown) := by
  have hretired : ∀ c ∈ w.sources, c.generation < (App.retire w.app.invalidate).sourceGeneration :=
    fun c hc => Nat.lt_succ_of_le (h.bound c hc)
  have hharmless : ∀ {j : Nat} {u : Task}, u.point.isSwitching = false →
      w.shutdown.tasks[j]? = some u → u.harmless := by
    intro j u hstill hu hsource
    obtain ⟨v, hv, hrole, hpoint, -, hflag⟩ := cancelTasks_cases hu
    rw [hpoint, hflag, Bool.or_eq_true, decide_eq_true_eq]
    by_contra hnot
    rw [not_or, not_or, Bool.not_eq_true] at hnot
    exact hnot.2.2 (h.listed j v hv (hrole ▸ hsource) hnot.1 hnot.2.1 (hpoint ▸ hstill))
  have hquiet : ¬ Busy w → Quiet w.shutdown := by
    refine fun hbusy => ⟨hretired, rfl, fun j u hu => ?_⟩
    have hstill : u.point.isSwitching = false := by
      obtain ⟨v, hv, -, hpoint, -⟩ := cancelTasks_cases hu
      rw [← Bool.not_eq_true, hpoint]
      exact fun hv' => hbusy ⟨j, v, hv, hv'⟩
    exact ⟨hstill, hharmless hstill hu⟩
  refine ⟨?_, hquiet⟩
  have hbefore : ∀ {j : Nat} {u : Task},
      w.shutdown.tasks[j]? = some u → u.mayConnect = true →
      ∃ v : Task, w.tasks[j]? = some v ∧ v.mayConnect = true ∧ u.role = v.role := by
    intro j u hu hconnect
    obtain ⟨v, hv, hrole, -, hmay, -⟩ := cancelTasks_cases hu
    exact ⟨v, hv, hmay ▸ hconnect, hrole⟩
  constructor
  · exact h.sorted
  · exact fun c hc => Nat.le_of_lt (hretired c hc)
  · intro c hc heq
    exact absurd heq (Nat.ne_of_lt (hretired c (List.mem_of_getLast? hc)))
  · intro u hu c hc
    obtain ⟨j, hj⟩ := List.mem_iff_getElem?.mp hu
    obtain ⟨v, hv, hrole, -⟩ := cancelTasks_cases hj
    exact h.known v (List.mem_of_getElem? hv) c (hrole ▸ hc)
  · intro j u c hu hconnect hc
    obtain ⟨v, hv, hconnect', hrole⟩ := hbefore hu hconnect
    exact h.latest j v c hv hconnect' (hrole ▸ hc)
  · intro j u hu hsource hended hflag hstill
    rcases hharmless hstill hu hsource with hend | hcancel
    · exact absurd hend hended
    · rw [hflag] at hcancel
      cases hcancel
  · intro j u target children hu hpoint
    obtain ⟨v, hv, -, hpoint', -, hflag⟩ := cancelTasks_cases hu
    -- whoever is in a switch is alone: the list is empty
    obtain ⟨hcancelled, hswitch⟩ := h.switch j v target children hv (hpoint' ▸ hpoint)
    refine ⟨?_, hretired, rfl, hswitch.apart, ?_, ?_⟩
    · rw [hflag, hcancelled, hswitch.unlisted]
      rfl
    · intro k x hx hconnect
      obtain ⟨y, hy, hconnect', -⟩ := hbefore hx hconnect
      exact hswitch.children k y hy hconnect'
    · intro k x hx hx'
      obtain ⟨y, hy, -, hpoint'', -⟩ := cancelTasks_cases hx
      exact hswitch.alone k y hy (hpoint'' ▸ hx')
  · intro j u hu hconnect
    refine Or.inr ?_
    by_cases hbusy : Busy w
    · obtain ⟨k, x, hx, hpoint⟩ := hbusy
      refine Or.inl ⟨k, ?_⟩
      rw [World.shutdown, World.cancelTasks, List.getElem?_mapIdx, hx]
      refine ⟨_, rfl, ?_⟩
      split <;> exact hpoint
    · exact Or.inr (hquiet hbusy)
  · intro j k u v hu hv huconnect hvconnect
    obtain ⟨u', hu', huconnect', -⟩ := hbefore hu huconnect
    obtain ⟨v', hv', hvconnect', -⟩ := hbefore hv hvconnect
    exact h.one j k u' v' hu' hv' huconnect' hvconnect'

/-- Flags and the client are none of the invariant. -/
theorem Inv.flags (h : Inv w) {a : App} (hcore : a.core = w.app.core) :
    Inv { w with app := a } := by
  obtain ⟨hstate, htasks, hsource, hgeneration, hactive⟩ := core_eq hcore
  have hretired : Retired w → Retired { w with app := a } := by
    intro hw c hc
    rw [hgeneration]
    exact hw c hc
  refine ⟨h.sorted, ?_, ?_, h.known, h.latest, ?_, ?_, ?_, h.one⟩
  · rw [hgeneration]
    exact h.bound
  · intro c hc heq
    obtain ⟨h₁, h₂, h₃⟩ := h.newest c hc (heq.trans hgeneration)
    exact ⟨hstate.trans h₁, hsource.trans h₂, hactive.trans h₃⟩
  · rw [htasks]
    exact h.listed
  · intro i t target children ht hpoint
    obtain ⟨hcancelled, hswitch⟩ := h.switch i t target children ht hpoint
    exact ⟨hcancelled, hretired hswitch.retired, htasks.trans hswitch.unlisted, hswitch.apart,
      hswitch.children, hswitch.alone⟩
  · intro i t ht hconnect
    rw [htasks]
    refine (h.reached i t ht hconnect).imp_right (Or.imp_right fun hquiet => ?_)
    exact ⟨hretired hquiet.retired, htasks.trans hquiet.unlisted, hquiet.still⟩

theorem Inv.step (h : Inv w) (op : Op) : Inv (step w op) := by
  cases op with
  | resume i reply env =>
    unfold Sources.step
    dsimp only
    split
    · next t ht =>
      split
      · next hlegal => exact h.resume env ht hlegal
      · exact h
    · exact h
  | shutdown =>
    unfold Sources.step
    dsimp only
    split
    · exact h
    · exact h.shutdown.1
  | clear =>
    unfold Sources.step
    dsimp only
    split
    · split
      · exact h.flags rfl
      · exact h
    · exact h

theorem Inv.of_empty (hsources : w.sources = []) (htasks : w.tasks = []) : Inv w := by
  have hnone : ∀ {i : Nat} {t : Task} {P : Prop}, w.tasks[i]? = some t → P := by
    intro i t P ht
    rw [htasks] at ht
    cases ht
  constructor
  · rw [hsources]
    exact .nil
  · rw [hsources]
    exact nofun
  · rw [hsources]
    exact nofun
  · rw [htasks]
    exact nofun
  · exact fun i t c ht => hnone ht
  · exact fun i t ht => hnone ht
  · exact fun i t target children ht => hnone ht
  · exact fun i t ht => hnone ht
  · exact fun i j t u ht => hnone ht

theorem startup_inv (env : Env) (reachable : Bool) : Inv (startup env reachable) := by
  unfold startup
  dsimp only
  cases chooseStartupSource env.mqttConfigured env.gatewayConfigured
      (if env.mqttConfigured && env.gatewayConfigured then reachable else env.mqttConfigured) with
  | none => exact .of_empty rfl rfl
  | some source =>
    obtain ⟨created, hstarted⟩ := startSource_started
      { World.initial with
        app := App.initial.select (some source) (env.mqttConfigured && env.gatewayConfigured) }
      source (env.mqttConfigured && env.gatewayConfigured) env.clientMade
    have htasks : (World.startSource _ source _ env.clientMade).tasks = created := hstarted.tasks
    refine hstarted.inv .nil nofun rfl fun j t ht => Or.inr ⟨j, (Nat.zero_add j).symm, ?_⟩
    rw [← htasks]
    exact ht

theorem inv_run (env : Env) (reachable : Bool) (ops : List Op) :
    Inv (replay step (startup env reachable) ops) :=
  replay_invariant step (I := Inv) (startup_inv env reachable) (fun _ op h => h.step op) ops

/-- A source of the present generation is the newest one. -/
theorem Inv.last (h : Inv w) {c : Closure} (hc : c ∈ w.sources)
    (heq : c.generation = w.app.sourceGeneration) : w.sources.getLast? = some c := by
  obtain ⟨before, after, hsplit⟩ := List.append_of_mem hc
  cases after with
  | nil => rw [hsplit, List.getLast?_concat]
  | cons d after =>
    -- whatever came later would have a later generation
    have hd : d ∈ w.sources := by rw [hsplit]; simp
    have hlt : c.generation < d.generation := by
      have := h.sorted
      rw [hsplit, List.pairwise_append] at this
      exact List.rel_of_pairwise_cons this.2.1 List.mem_cons_self
    have := h.bound d hd
    omega

theorem Inv.current_iff (h : Inv w) {c : Closure} (hc : c ∈ w.sources) :
    w.app.current c = true ↔ c.generation = w.app.sourceGeneration := by
  unfold App.current
  rw [decide_eq_true_eq]
  refine ⟨fun hcurrent => hcurrent.1.symm, fun heq => ?_⟩
  obtain ⟨hstate, hsource, -⟩ := h.newest c (h.last hc heq) heq
  exact ⟨heq.symm, hstate, hsource⟩

theorem Retired.not_current {c : Closure} (h : Retired w) (hc : c ∈ w.sources) :
    w.app.current c = false := by
  have hlt := h c hc
  rw [← Bool.not_eq_true]
  intro hcurrent
  unfold App.current at hcurrent
  have := (of_decide_eq_true hcurrent).1
  omega

/-- What one data source at a time means. -/
structure Exclusive (w : World) : Prop where
  current : ∀ c ∈ w.sources, w.app.current c = true →
    w.sources.getLast? = some c ∧ w.app.activeSource = some c.source
  connects : ∀ (i j : Nat) (t u : Task), w.tasks[i]? = some t → w.tasks[j]? = some u →
    t.mayConnect = true → u.mayConnect = true → i = j
  owner : ∀ (i : Nat) (t : Task) c, w.tasks[i]? = some t → t.mayConnect = true →
    t.role.closure? = some c → w.sources.getLast? = some c
  switches : ∀ (i j : Nat) (t u : Task), w.tasks[i]? = some t → w.tasks[j]? = some u →
    t.point.isSwitching = true → u.point.isSwitching = true → i = j
  gap : Busy w → ∀ c ∈ w.sources, w.app.current c = false

theorem sources_exclusive (env : Env) (reachable : Bool) (ops : List Op) :
    Exclusive (replay step (startup env reachable) ops) := by
  have h := inv_run env reachable ops
  refine ⟨fun c hc hcurrent => ?_, h.one, h.latest, ?_, ?_⟩
  · have heq := (h.current_iff hc).mp hcurrent
    exact ⟨h.last hc heq, (h.newest c (h.last hc heq) heq).activeSource⟩
  · intro i j t u ht hu hi hj
    obtain ⟨target, children, hpoint⟩ := switching_of hj
    exact (h.switch j u target children hu hpoint).2.alone i t ht hi
  · intro hbusy c hc
    obtain ⟨i, children, hswitch⟩ := h.busy hbusy
    exact hswitch.retired.not_current hc

/-! ## Retired sources -/

/-- Sources are added, and generations go up. -/
structure Grows (w w' : World) : Prop where
  sources : ∀ c ∈ w.sources, c ∈ w'.sources
  generation : w.app.sourceGeneration ≤ w'.app.sourceGeneration

theorem finishSwitch_grows (w : World) (i : Nat) (target : Source) (env : Env) :
    Grows w (w.finishSwitch i target env) := by
  obtain ⟨created, hstarted⟩ := startSource_started
    { w with app := App.select { w.app with
        mqttConnected := false, gatewayConnected := false, mqttClient := none } (some target) true }
    target true env.clientMade
  refine ⟨fun c hc => ?_, ?_⟩
  · exact hstarted.sources ▸ List.mem_append_left _ hc
  · exact hstarted.generation ▸ Nat.le_succ _

theorem beginSwitch_grows (w : World) (i : Nat) (target : Source) (env : Env) :
    Grows w (w.beginSwitch i target env) := by
  unfold World.beginSwitch
  dsimp only
  split
  · obtain ⟨hsources, hgeneration⟩ := finishSwitch_grows { w with
      app := { w.app.invalidate.retire with mqttTasks := [] }
      tasks := World.cancelTasks (w.app.mqttTasks.filter (· ≠ i)) w.tasks } i target env
    exact ⟨hsources, Nat.le_of_succ_le hgeneration⟩
  · exact ⟨fun c hc => hc, Nat.le_succ _⟩

theorem step_grows (w : World) (op : Op) : Grows w (step w op) := by
  have hrefl : Grows w w := ⟨fun c hc => hc, Nat.le_refl _⟩
  cases op with
  | resume i reply env =>
    unfold step
    dsimp only
    split
    · next t ht =>
      split
      · next hlegal =>
        cases resume_cases env hlegal with
        | moved t' hl =>
          exact ⟨fun c hc => hl.sources ▸ hc, Nat.le_of_eq (core_eq hl.core).2.2.2.1.symm⟩
        | began a target hcore hcurrent hwatching hpoint hended heq =>
          rw [heq]
          obtain ⟨hsources, hgeneration⟩ :=
            beginSwitch_grows { w with app := a, tasks := w.tasks.set i t.woken } i target env
          exact ⟨hsources, (core_eq hcore).2.2.2.1 ▸ hgeneration⟩
        | finished target children hpoint hchildren heq =>
          rw [heq]
          obtain ⟨hsources, hgeneration⟩ :=
            finishSwitch_grows { w with tasks := w.tasks.set i t.woken } i target env
          exact ⟨hsources, hgeneration⟩
      · exact hrefl
    · exact hrefl
  | shutdown =>
    unfold step
    dsimp only
    split
    · exact hrefl
    · exact ⟨fun c hc => hc, Nat.le_succ _⟩
  | clear =>
    unfold step
    dsimp only
    split
    · split <;> exact ⟨fun c hc => hc, Nat.le_refl _⟩
    · exact hrefl

theorem run_grows (w : World) (ops : List Op) : Grows w (replay step w ops) := by
  induction ops generalizing w with
  | nil => exact ⟨fun c hc => hc, Nat.le_refl _⟩
  | cons op ops ih =>
    obtain ⟨hsources, hgeneration⟩ := step_grows w op
    obtain ⟨hsources', hgeneration'⟩ := ih (step w op)
    exact ⟨fun c hc => hsources' c (hsources c hc), Nat.le_trans hgeneration hgeneration'⟩

/-- A retired source stays retired. -/
theorem Inv.retired (h : Inv w) {c : Closure} (hc : c ∈ w.sources)
    (hnot : w.app.current c = false) (more : List Op) :
    (replay Sources.step w more).app.current c = false := by
  have hlt : c.generation < w.app.sourceGeneration := by
    refine Nat.lt_of_le_of_ne (h.bound c hc) fun heq => ?_
    rw [(h.current_iff hc).mpr heq] at hnot
    cases hnot
  have hgrows := run_grows w more
  have hinv : Inv (replay Sources.step w more) :=
    replay_invariant Sources.step (I := Inv) h (fun _ op h => h.step op) more
  rw [← Bool.not_eq_true, hinv.current_iff (hgrows.sources c hc)]
  have := hgrows.generation
  omega

/-- What a task of a retired source does is its own affair. -/
theorem step_retired {c : Closure} {i : Nat} {t : Task} (ht : w.tasks[i]? = some t)
    (hrole : t.role.closure? = some c) (hnot : w.app.current c = false)
    (hpoint : t.point.isSwitching = false) (reply : Reply) (env : Env) :
    ∃ t', step w (.resume i reply env) = { w with tasks := w.tasks.set i t' } := by
  unfold step
  dsimp only
  rw [ht]
  dsimp only
  split
  · next hlegal =>
    cases resume_cases env hlegal with
    | moved t' hl =>
      refine ⟨t', ?_⟩
      obtain ⟨happ, hfresh⟩ := hl.late c hrole hnot
      generalize resume w i t reply env = w' at hl happ hfresh
      obtain ⟨app, sources, tasks, fresh, down⟩ := w'
      obtain rfl := happ
      obtain rfl := hfresh
      obtain rfl := hl.sources
      obtain rfl := hl.down
      obtain rfl := hl.tasks
      rfl
    | began a target hcore hcurrent =>
      rw [hcurrent c hrole] at hnot
      cases hnot
    | finished target children hswitching =>
      rw [hswitching] at hpoint
      cases hpoint
  · refine ⟨t, ?_⟩
    obtain ⟨hlt, rfl⟩ := List.getElem?_eq_some_iff.mp ht
    rw [List.set_getElem_self]

theorem retired_inert (env : Env) (reachable : Bool) (ops : List Op) {c : Closure}
    (hc : c ∈ (replay step (startup env reachable) ops).sources)
    (hnot : (replay step (startup env reachable) ops).app.current c = false) (more : List Op) :
    (replay step (startup env reachable) (ops ++ more)).app.current c = false ∧
    ∀ (i : Nat) (t : Task) (reply : Reply) (env' : Env),
      (replay step (startup env reachable) (ops ++ more)).tasks[i]? = some t →
      t.role.closure? = some c → t.point.isSwitching = false →
      ∃ t', step (replay step (startup env reachable) (ops ++ more)) (.resume i reply env') =
        { replay step (startup env reachable) (ops ++ more) with
          tasks := (replay step (startup env reachable) (ops ++ more)).tasks.set i t' } := by
  have hretired : (replay step (startup env reachable) (ops ++ more)).app.current c = false := by
    rw [replay_append]
    exact (inv_run env reachable ops).retired hc hnot more
  exact ⟨hretired, fun i t reply env' ht hrole hpoint =>
    step_retired ht hrole hretired hpoint reply env'⟩

/-- The watchdog fails over while the MQTT loop is still connecting. -/
def failover : List Op :=
  [.resume 0 (.returned true) ⟨true, true, true⟩, .resume 1 (.returned true) ⟨true, true, true⟩,
    .resume 1 (.returned true) ⟨true, true, true⟩]

/-- The MQTT loop is cancelled then, and the watchdog goes on to start the gateway. -/
theorem retired_inert_failover :
    (replay step (startup ⟨true, true, true⟩ true)
      (failover ++ [.resume 0 .cancelled ⟨true, true, true⟩,
        .resume 1 (.returned true) ⟨true, true, true⟩])).app.current ⟨1, 0, .mqtt⟩ = false ∧
    ∃ t', step (replay step (startup ⟨true, true, true⟩ true) failover)
        (.resume 0 .cancelled ⟨true, true, true⟩) =
      { replay step (startup ⟨true, true, true⟩ true) failover with
        tasks := (replay step (startup ⟨true, true, true⟩ true) failover).tasks.set 0 t' } := by
  have hinert := retired_inert ⟨true, true, true⟩ true failover (c := ⟨1, 0, .mqtt⟩)
    (by decide) (by decide)
  refine ⟨(hinert _).1, ?_⟩
  exact (hinert []).2 0 _ .cancelled ⟨true, true, true⟩ rfl rfl rfl

end Runs

end InverterDashboard.Sources
