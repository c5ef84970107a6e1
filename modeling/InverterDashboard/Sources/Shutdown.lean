import InverterDashboard.Sources.Exclusion

/-
  Shutdown.

  `_shutdown_tasks` cancels the tasks of `mqtt_tasks`, and a task that fails over or recovers is not
  one of them: it has taken the list. `revived_iff`: a data source can still come up after a shutdown
  exactly when a switch is under way then. Otherwise every task that is left gives up, whatever the
  order of steps.
-/

namespace InverterDashboard.Sources

open Temporal

/-! ## Nothing is left -/

section Quiet

variable {w : World}

theorem Quiet.not_busy (h : Quiet w) : ¬ Busy w := by
  rintro ⟨i, t, ht, hpoint⟩
  rw [(h.still i t ht).1] at hpoint
  cases hpoint

theorem Quiet.step (h : Quiet w) (hinv : Inv w) (op : Op) : Quiet (step w op) := by
  cases op with
  | resume i reply env =>
    unfold Sources.step
    dsimp only
    split
    · next t ht =>
      split
      · next hlegal =>
        cases resume_cases env hlegal with
        | moved t' hl => exact hl.quiet ht h
        | began a target hcore hcurrent hwatching hpoint hended =>
          exact absurd h (hinv.active ht hcurrent hwatching hpoint hended).2
        | finished target children hpoint =>
          have hnot := (h.still i t ht).1
          rw [hpoint] at hnot
          cases hnot
      · exact h
    · exact h
  | shutdown =>
    unfold Sources.step
    dsimp only
    split
    · exact h
    · exact hinv.shutdown.2 h.not_busy
  | clear =>
    unfold Sources.step
    dsimp only
    split
    · split
      · exact ⟨h.retired, h.unlisted, h.still⟩
      · exact h
    · exact h

theorem Quiet.run (h : Quiet w) (hinv : Inv w) (ops : List Op) : Quiet (replay Sources.step w ops) :=
  (replay_invariant Sources.step (I := fun w => Quiet w ∧ Inv w) ⟨h, hinv⟩
    (fun _ op h => ⟨h.1.step h.2 op, h.2.step op⟩) ops).1

end Quiet

/-! ## A switch completes -/

/-- How many cancellations a task takes to end, at most. -/
def Point.rank : Point → Nat
  | .ended | .switching _ _ => 0
  | .subscribing | .listening | .handling => 3
  | .connecting | .disconnecting _ | .notifying _ => 2
  | .fetching | .emitting | .reporting | .delaying => 2
  | _ => 1

section Drain

variable {w : World} {i : Nat} {t : Task}

theorem joinKeepalive_rank (c : Closure) (a : App) (t : Task) :
    (joinKeepalive c a t .raising).point.rank ≤ 1 := by
  unfold joinKeepalive
  split
  · exact Nat.le_refl _
  · exact Nat.zero_le _

/-- A task of a retired source that is cancelled comes closer to its end. -/
theorem turn_cancelled (env : Env) {a : App}
    (hlate : ∀ c, t.role.closure? = some c → a.current c = false) (hended : t.point ≠ .ended)
    (hpoint : t.point.isSwitching = false) :
    ∃ t', turn env a t .cancelled = .moves a t' ∧ t'.point.rank < t.point.rank := by
  obtain ⟨role, client, keepalive, cancelled, point⟩ := t
  cases role with
  | mqtt c =>
    have hnot : a.current c = false := hlate c rfl
    have hfinish : ∀ t, finishSession c a t .raising = .moves a (joinKeepalive c a t .raising) := by
      intro t
      unfold finishSession
      rw [if_neg]
      simp [hnot]
    cases point with
    | ended => exact absurd rfl hended
    | switching target children => cases hpoint
    | connecting | disconnecting =>
      exact ⟨_, hfinish _, Nat.lt_succ_of_le (joinKeepalive_rank c a _)⟩
    | notifying => exact ⟨_, rfl, Nat.lt_succ_of_le (joinKeepalive_rank c a _)⟩
    | subscribing | listening | handling => exact ⟨_, rfl, Nat.lt_succ_self 2⟩
    | fetching | emitting | reporting | delaying => exact ⟨_, rfl, Nat.zero_lt_two⟩
    | _ => exact ⟨_, rfl, Nat.zero_lt_one⟩
  | gateway c =>
    cases point with
    | ended => exact absurd rfl hended
    | switching target children => cases hpoint
    | fetching | emitting | reporting | delaying => exact ⟨_, rfl, Nat.lt_succ_self 1⟩
    | subscribing | listening | handling => exact ⟨_, rfl, Nat.zero_lt_succ 2⟩
    | connecting | disconnecting | notifying => exact ⟨_, rfl, Nat.zero_lt_two⟩
    | _ => exact ⟨_, rfl, Nat.zero_lt_one⟩
  | _ =>
    cases point with
    | ended => exact absurd rfl hended
    | switching target children => cases hpoint
    | subscribing | listening | handling => exact ⟨_, rfl, Nat.zero_lt_succ 2⟩
    | connecting | disconnecting | notifying => exact ⟨_, rfl, Nat.zero_lt_two⟩
    | fetching | emitting | reporting | delaying => exact ⟨_, rfl, Nat.zero_lt_two⟩
    | _ => exact ⟨_, rfl, Nat.zero_lt_one⟩

/-- Cancelled often enough, a task of a retired source ends, and nothing else changes. -/
theorem drain_one (env : Env) (ht : w.tasks[i]? = some t)
    (hlate : ∀ c, t.role.closure? = some c → w.app.current c = false)
    (hpoint : t.point.isSwitching = false) :
    ∃ ops t', replay step w ops = { w with tasks := w.tasks.set i t' } ∧ t'.point = .ended := by
  induction hrank : t.point.rank using Nat.strongRecOn generalizing w t with
  | _ n ih =>
    by_cases hended : t.point = .ended
    · refine ⟨[], t, ?_, hended⟩
      obtain ⟨hlt, rfl⟩ := List.getElem?_eq_some_iff.mp ht
      rw [List.set_getElem_self]
      rfl
    · obtain ⟨u, hturn, hlt⟩ := turn_cancelled (t := t.woken) env hlate hended hpoint
      have hsound := turn_sound env w.app t.woken .cancelled
      rw [hturn] at hsound
      have hstep : step w (.resume i .cancelled env) = { w with tasks := w.tasks.set i u } := by
        have hlegal : legal w t .cancelled = true := decide_eq_true hended
        rw [step_resume ht hlegal]
        rcases resume_eq w i t .cancelled env with ⟨_, _, _, _, h, _⟩ | heq
        · cases h
        · rw [heq, hturn]
          show { w with tasks := (w.tasks.set i t.woken).set i u } = _
          rw [List.set_set]
      have hi : i < w.tasks.length := (List.getElem?_eq_some_iff.mp ht).1
      obtain ⟨ops, t', hrun, hend⟩ := ih u.point.rank (hrank ▸ hlt)
        (w := { w with tasks := w.tasks.set i u }) (List.getElem?_set_self hi)
        (fun c hc => hlate c (hsound.role ▸ hc)) hsound.point rfl
      refine ⟨.resume i .cancelled env :: ops, t', ?_, hend⟩
      show replay step (step w (.resume i .cancelled env)) ops = _
      rw [hstep, hrun, List.set_set]

/-- The tasks that a switch waits for can all end while it waits. -/
theorem drain (env : Env) (h : Inv w) (ht : w.tasks[i]? = some t) {target : Source}
    {children : List Nat} (hpoint : t.point = .switching target children) (rest : List Nat)
    (hrest : rest ⊆ children) :
    ∃ ops, (replay step w ops).tasks[i]? = some t ∧ (replay step w ops).allEnded rest = true := by
  induction rest with
  | nil => exact ⟨[], ht, rfl⟩
  | cons j rest ih =>
    obtain ⟨ops, ht', hended⟩ := ih fun k hk => hrest (List.mem_cons_of_mem _ hk)
    have hinv : Inv (replay step w ops) :=
      replay_invariant step (I := Inv) h (fun _ op h => h.step op) ops
    obtain ⟨-, hswitch⟩ := hinv.switch i t target children ht' hpoint
    have hji : j ≠ i := fun heq => hswitch.apart (heq ▸ hrest List.mem_cons_self)
    generalize hw' : replay step w ops = w' at ht' hended hinv hswitch
    cases hj : w'.tasks[j]? with
    | none =>
      refine ⟨ops, hw' ▸ ht', ?_⟩
      rw [hw', World.allEnded, List.all_cons, hj]
      exact hended
    | some u =>
      have hstill : u.point.isSwitching = false := by
        rw [← Bool.not_eq_true]
        exact fun hu => hji (hswitch.alone j u hj hu)
      obtain ⟨ops', u', hrun, hend⟩ := drain_one env hj (fun c hc =>
        hswitch.retired.not_current (hinv.known u (List.mem_of_getElem? hj) c hc)) hstill
      refine ⟨ops ++ ops', ?_⟩
      rw [replay_append, hw', hrun]
      refine ⟨(List.getElem?_set_ne hji).trans ht', ?_⟩
      refine List.all_eq_true.mpr fun k hk => ?_
      dsimp only
      rcases eq_or_ne j k with rfl | hne
      · rw [List.getElem?_set_self (List.getElem?_eq_some_iff.mp hj).1]
        exact decide_eq_true hend
      · rw [List.getElem?_set_ne hne]
        have hk' : k ∈ rest := (List.mem_cons.mp hk).resolve_left hne.symm
        exact List.all_eq_true.mp hended k hk'

/-- A switch that is under way can always complete. -/
theorem Inv.completes (h : Inv w) (hbusy : Busy w) :
    ∃ ops, ∃ c ∈ (replay Sources.step w ops).sources,
      (replay Sources.step w ops).app.current c = true := by
  obtain ⟨i, t, ht, hswitching⟩ := hbusy
  obtain ⟨target, children, hpoint⟩ := switching_of hswitching
  obtain ⟨ops, ht', hended⟩ := drain ⟨true, true, true⟩ h ht hpoint children (List.Subset.refl _)
  have hinv : Inv (replay Sources.step w ops) :=
    replay_invariant Sources.step (I := Inv) h (fun _ op h => h.step op) ops
  obtain ⟨hcancelled, -⟩ := hinv.switch i t target children ht' hpoint
  refine ⟨ops ++ [.resume i (.returned true) ⟨true, true, true⟩], ?_⟩
  rw [replay_append, replay_singleton]
  generalize replay Sources.step w ops = w' at ht' hended
  have hstep : Sources.step w' (.resume i (.returned true) ⟨true, true, true⟩) =
      World.finishSwitch { w' with tasks := w'.tasks.set i t.woken } i target ⟨true, true, true⟩ := by
    have hlegal : legal w' t (.returned true) = true := by
      unfold legal
      simp only [hpoint, hcancelled, hended]
      rfl
    rw [step_resume ht' hlegal]
    unfold Sources.resume
    dsimp only
    rw [hpoint]
  rw [hstep]
  obtain ⟨created, hstarted⟩ := startSource_started
    { w' with
      tasks := w'.tasks.set i t.woken
      app := App.select { w'.app with
        mqttConnected := false, gatewayConnected := false, mqttClient := none } (some target) true }
    target true true
  refine ⟨_, hstarted.sources ▸ List.mem_append_right _ (List.mem_singleton_self _), ?_⟩
  exact decide_eq_true ⟨hstarted.generation, hstarted.state, hstarted.dataSource⟩

/-- A shutdown leaves a switch alone. -/
theorem shutdown_busy : Busy w.shutdown ↔ Busy w := by
  constructor
  · rintro ⟨i, t, ht, hpoint⟩
    obtain ⟨u, hu, -, heq, -⟩ := cancelTasks_cases ht
    exact ⟨i, u, hu, heq ▸ hpoint⟩
  · rintro ⟨i, t, ht, hpoint⟩
    refine ⟨i, ?_⟩
    rw [World.shutdown, World.cancelTasks, List.getElem?_mapIdx, ht]
    refine ⟨_, rfl, ?_⟩
    split <;> exact hpoint

end Drain

theorem revived_iff (env : Env) (reachable : Bool) (before : List Op)
    (hdown : (replay step (startup env reachable) before).down = none) :
    (∃ after, ∃ c ∈ (replay step (startup env reachable) (before ++ .shutdown :: after)).sources,
      (replay step (startup env reachable) (before ++ .shutdown :: after)).app.current c = true) ↔
    Busy (replay step (startup env reachable) before) := by
  have hinv := inv_run env reachable before
  have hsplit : ∀ after, replay step (startup env reachable) (before ++ .shutdown :: after) =
      replay step (replay step (startup env reachable) before).shutdown after := by
    intro after
    rw [replay_append, ← step_shutdown hdown]
    rfl
  constructor
  · rintro ⟨after, c, hc, hcurrent⟩
    by_contra hbusy
    rw [hsplit] at hc hcurrent
    have hquiet := (hinv.shutdown.2 hbusy).run hinv.shutdown.1 after
    rw [hquiet.retired.not_current hc] at hcurrent
    cases hcurrent
  · intro hbusy
    obtain ⟨after, c, hc, hcurrent⟩ := hinv.shutdown.1.completes (shutdown_busy.mpr hbusy)
    refine ⟨after, c, ?_⟩
    rw [hsplit]
    exact ⟨hc, hcurrent⟩

/-- A shutdown while the watchdog fails over. -/
theorem revived_iff_failover :
    ∃ after, ∃ c ∈ (replay step (startup ⟨true, true, true⟩ true)
        ([.resume 1 (.returned true) ⟨true, true, true⟩,
          .resume 1 (.returned true) ⟨true, true, true⟩] ++ .shutdown :: after)).sources,
      (replay step (startup ⟨true, true, true⟩ true)
        ([.resume 1 (.returned true) ⟨true, true, true⟩,
          .resume 1 (.returned true) ⟨true, true, true⟩] ++ .shutdown :: after)).app.current c = true :=
  (revived_iff ⟨true, true, true⟩ true _ rfl).mpr ⟨1, _, rfl, rfl⟩

end InverterDashboard.Sources
