import InverterDashboard.Push.Rows

/-
  Claims: the rows that the workers took, against the rows in the table.

  Every step of an unpruned run is a `Move`. From the moves follows `Owning`: a row with the key of
  a claim is the claimed row itself, at that attempt or a later one, so the ownership check of a
  late outcome finds its own row or none.
-/

namespace InverterDashboard.Push

open Python Cerbo Bounded Temporal

/-- The seconds for which a claim holds a row. -/
def leaseSeconds : ℚ := 30

/-- The task that a worker awaits. -/
def PushService.sends (s : PushService) (w : Nat) : Option Nat :=
  match s.workers[w]? with
  | some ⟨.sending i, _⟩ => some i
  | _ => none

variable (onCurve : List UInt8 → Bool)

/-- No step of a run prunes an event identity. -/
def Unpruned (start : PushService) (ops : List ServiceOp) : Prop :=
  ∀ x ∈ trace (serviceStep onCurve) start ops,
    ∀ y ∈ trace storeStep x.1.store (storeCalls onCurve x.1 x.2), KeepsIdentities y

/-- What a start finds in the tables: rows with distinct keys, of known identities, that have been
    tried at most twice. -/
structure SoundRows (store : PushStore) : Prop where
  keys : (store.deliveries.map Delivery.row).Nodup
  known : ∀ d ∈ store.deliveries, d.eventId ∈ store.eventIds
  attempts : ∀ d ∈ store.deliveries, d.attempts ≤ 2

/-! ## Moves -/

/-- Tasks keep what they claimed, and none comes back to life. -/
structure TasksKept (s s' : PushService) : Prop where
  kept : s'.tasks.map (fun t => (t.delivery, t.claimedAt)) =
    s.tasks.map fun t => (t.delivery, t.claimedAt)
  live : ∀ (i : Nat) (t' : SendTask), s'.tasks[i]? = some t' → t'.live = true →
    ∃ t, s.tasks[i]? = some t ∧ t.live = true

/-- A step seen from the rows and the workers. -/
inductive Move (s : PushService) (op : ServiceOp) (s' : PushService) : Prop where
  | kept (hrows : Intake (fun e => s.isCurrent e = true) s.store s'.store)
      (htasks : TasksKept s s') (hsends : ∀ v, s'.sends v = s.sends v)
  | claimed (w : Nat) (d : Delivery) (now : ℚ) (tie : Nat) (hop : op = .work w now tie)
      (hfree : s.sends w = none) (havailable : s.available = true)
      (hfound : (s.store.nextDelivery now tie).1 = some d)
      (hcurrent : s.isCurrent d.epoch = true)
      (hstore : s'.store = (s.store.expire now).claim d (now + leaseSeconds))
      (htasks : s'.tasks = s.tasks ++ [⟨d, now, .created, false⟩])
      (hsends : ∀ v, s'.sends v = if v = w then some s.tasks.length else s.sends v)
  | resumed (w i : Nat) (t : SendTask) (checked retried again : ℚ)
      (hop : op = .resume w checked retried again) (hw : s.sends w = some i)
      (ht : s.tasks[i]? = some t) (hdone : t.live = false) (htasks : TasksKept s s')
      (hsends : ∀ v, s'.sends v = if v = w then none else s.sends v)
      (hsettled : (s'.store = s.store ∧ ∃ worker ∈ s.workers, worker.cancelled = true) ∨
        Settled s t.delivery checked again s'.store)

theorem tasksKept_refl {s s' : PushService} (h : s'.tasks = s.tasks) : TasksKept s s' :=
  ⟨by rw [h], fun _ t ht hlive => ⟨t, h ▸ ht, hlive⟩⟩

theorem tasksKept_mapIdx {s s' : PushService} {f : Nat → SendTask → SendTask}
    (h : s'.tasks = s.tasks.mapIdx f)
    (hf : ∀ i t, (f i t).delivery = t.delivery ∧ (f i t).claimedAt = t.claimedAt ∧
      ((f i t).live = true → t.live = true)) : TasksKept s s' where
  kept := by
    rw [h]
    refine List.ext_getElem? ?_
    intro i
    rw [List.getElem?_map, List.getElem?_mapIdx, List.getElem?_map]
    cases s.tasks[i]? with
    | none => rfl
    | some t =>
      obtain ⟨hd, hc, -⟩ := hf i t
      show some ((f i t).delivery, (f i t).claimedAt) = some (t.delivery, t.claimedAt)
      rw [hd, hc]
  live := by
    intro i t' ht hlive
    rw [h, List.getElem?_mapIdx] at ht
    obtain ⟨t, hold, rfl⟩ := Option.map_eq_some_iff.mp ht
    exact ⟨t, hold, (hf i t).2.2 hlive⟩

theorem cancel_kept (t : SendTask) : t.cancel.delivery = t.delivery ∧
    t.cancel.claimedAt = t.claimedAt ∧ (t.cancel.live = true → t.live = true) := by
  obtain ⟨d, claimedAt, stage, cancelled⟩ := t
  cases stage <;> exact ⟨rfl, rfl, fun h => h⟩

theorem tasksKept_cancelInflight {s s' : PushService} {p : Inflight → Bool}
    (h : s'.tasks = (s.cancelInflight p).tasks) : TasksKept s s' := by
  refine tasksKept_mapIdx h ?_
  intro i t
  split
  · exact cancel_kept t
  · exact ⟨rfl, rfl, fun h => h⟩

theorem tasksKept_setStage {s s' : PushService} {i : Nat} {stage : Stage} {t : SendTask}
    (h : s'.tasks = (s.setStage i stage).tasks) (ht : s.tasks[i]? = some t) (hlive : t.live = true) :
    TasksKept s s' where
  kept := by
    rw [h]
    refine List.ext_getElem? ?_
    intro j
    unfold PushService.setStage
    rw [List.getElem?_map, List.getElem?_modify, List.getElem?_map]
    cases s.tasks[j]? with
    | none => rfl
    | some u => split <;> rfl
  live := by
    intro j t' hj hl
    rw [h] at hj
    unfold PushService.setStage at hj
    rw [List.getElem?_modify] at hj
    obtain ⟨u, hu, rfl⟩ := Option.map_eq_some_iff.mp hj
    by_cases hij : i = j
    · subst hij
      exact ⟨t, ht, hlive⟩
    · rw [if_neg hij] at hl
      exact ⟨u, hu, hl⟩

theorem sends_congr {s s' : PushService} (h : s'.workers = s.workers) (v : Nat) :
    s'.sends v = s.sends v := by
  unfold PushService.sends
  rw [h]

theorem sends_setWorker (s : PushService) {w : Nat} (stage : WorkerStage) {worker : Worker}
    (hw : s.workers[w]? = some worker) (v : Nat) :
    (s.setWorker w stage).sends v = if v = w then
      (match stage with
        | .sending i => some i
        | _ => none) else s.sends v := by
  unfold PushService.setWorker PushService.sends
  dsimp only
  rw [List.getElem?_modify]
  by_cases hv : v = w
  · subst hv
    rw [if_pos rfl, hw]
    simp only [if_true, Option.map_eq_map, Option.map_some]
    cases stage <;> rfl
  · rw [if_neg hv]
    simp only [if_neg (Ne.symm hv), Option.map_eq_map, Option.map_id_fun', id]

theorem sends_fail (s : PushService) (v : Nat) : s.fail.sends v = s.sends v := by
  unfold PushService.sends PushService.fail
  dsimp only
  rw [List.getElem?_map]
  cases s.workers[v]? with
  | none => rfl
  | some worker =>
    obtain ⟨stage, cancelled⟩ := worker
    cases stage <;> rfl

/-- A claimed row that is dropped at once: its claim leaves no trace. -/
theorem claim_finish (t : PushStore) (d : Delivery) (time : ℚ) :
    (t.claim d time).finish d none = t.finish d none := by
  unfold PushStore.claim PushStore.finish
  dsimp only
  congr 1
  induction t.deliveries with
  | nil => rfl
  | cons e rows ih =>
    rw [List.map_cons, List.filter_cons, List.filter_cons, ih]
    by_cases h : e.isFor d.eventId d.subscriptionId = true
    · rw [if_pos h, h]
      have hmoved : Delivery.isFor d.eventId d.subscriptionId { e with nextAt := time } = true := h
      rw [hmoved]
      rfl
    · rw [if_neg h]

/-- A worker's round that creates no task only removes rows. -/
theorem Intake.dropped {ok : Str → Prop} {t : PushStore} {now : ℚ} {d : Delivery} {tie : Nat}
    (hfound : (t.nextDelivery now tie).1 = some d) :
    Intake ok t ((t.nextDelivery now tie).2.finish d none) := by
  rw [(PushStore.nextDelivery_some hfound).2.2.2, claim_finish]
  exact .of_sublist (List.filter_sublist.trans (sublist_expire t now)) rfl

theorem work_move (s : PushService) (w : Nat) (now : ℚ) (tie : Nat) :
    Move s (.work w now tie) (s.work w now tie) := by
  have hsame : Move s (.work w now tie) s :=
    .kept (Intake.refl _ _) (tasksKept_refl rfl) (fun _ => rfl)
  unfold PushService.work
  cases hw : s.workers[w]? with
  | none => exact hsame
  | some worker =>
    obtain ⟨stage, cancelled⟩ := worker
    cases stage with
    | sending i => exact hsame
    | ended => exact hsame
    | polling =>
      have hfree : s.sends w = none := by
        unfold PushService.sends
        rw [hw]
      by_cases hstop : (cancelled || !s.available) = true
      · dsimp only
        rw [if_pos hstop]
        refine .kept (Intake.refl _ _) (tasksKept_refl rfl) fun v => ?_
        rw [sends_setWorker s .ended hw]
        split
        · next hv => rw [hv, hfree]
        · rfl
      · dsimp only
        rw [if_neg hstop]
        rw [Bool.or_eq_true, not_or, Bool.not_eq_true, Bool.not_eq_true, Bool.not_eq_false'] at hstop
        have hsubs := PushStore.nextDelivery_subscriptions s.store now tie
        cases hfound : (s.store.nextDelivery now tie).1 with
        | none =>
          refine .kept ?_ (tasksKept_refl rfl) fun v => rfl
          rw [PushService.store_withStore, PushStore.nextDelivery_none hfound]
          exact .of_sublist (sublist_expire _ now) rfl
        | some d =>
          dsimp only
          unfold PushService.deliver
          rw [PushService.store_withStore, PushStore.get_congr hsubs]
          cases hget : s.store.get d.subscriptionId with
          | none =>
            refine .kept ?_ (tasksKept_refl rfl) fun v => rfl
            exact .dropped hfound
          | some subscription =>
            by_cases hsend : ((s.withStore (s.store.nextDelivery now tie).2).isCurrent d.epoch &&
                PushService.wanted subscription.preferences d.payload.kind) = true
            · dsimp only
              rw [if_pos hsend]
              refine .claimed w d now tie rfl hfree hstop.2 hfound (Bool.and_eq_true_iff.mp hsend).1
                (PushStore.nextDelivery_some hfound).2.2.2 rfl fun v => ?_
              exact sends_setWorker
                { s.withStore (s.store.nextDelivery now tie).2 with tasks := _, inflight := _ } _ hw v
            · dsimp only
              rw [if_neg hsend]
              exact .kept (.dropped hfound) (tasksKept_refl rfl) fun v => rfl

/-- What resuming does: nothing, or the worker is free again and the outcome is settled. -/
theorem resume_cases (s : PushService) (w : Nat) (checked retried again : ℚ) :
    s.resume w checked retried again = s ∨
    ∃ i t, s.sends w = some i ∧ s.tasks[i]? = some t ∧ t.live = false ∧
      TasksKept s (s.resume w checked retried again) ∧
      (∀ v, (s.resume w checked retried again).sends v = if v = w then none else s.sends v) ∧
      (((s.resume w checked retried again).store = s.store ∧
          ∃ worker ∈ s.workers, worker.cancelled = true) ∨
        Settled s t.delivery checked again (s.resume w checked retried again).store) := by
  unfold PushService.resume
  cases hw : s.workers[w]? with
  | none => exact Or.inl rfl
  | some worker =>
    obtain ⟨stage, cancelled⟩ := worker
    cases stage with
    | polling => exact Or.inl rfl
    | ended => exact Or.inl rfl
    | sending i =>
      have hsends : s.sends w = some i := by
        unfold PushService.sends
        rw [hw]
      dsimp only
      cases ht : s.tasks[i]? with
      | none => exact Or.inl rfl
      | some t =>
        obtain ⟨d, claimedAt, stage, requested⟩ := t
        cases stage with
        | created => exact Or.inl rfl
        | running since => exact Or.inl rfl
        | done outcome =>
          refine Or.inr ⟨i, _, hsends, ht, rfl, ?_⟩
          cases cancelled with
          | true =>
            refine ⟨tasksKept_refl rfl, ?_, Or.inl ⟨rfl, _, List.mem_of_getElem? hw, rfl⟩⟩
            exact sends_setWorker { s with inflight := _ } .ended hw
          | false =>
            have hcontrol := PushService.settle_control
              { s with inflight := s.inflight.filter (·.task ≠ i) } d outcome checked retried again
            have hsettled := settle_settled
              { s with inflight := s.inflight.filter (·.task ≠ i) } d outcome checked retried again
            have hw' := (congrArg (·[w]?) hcontrol.workers).trans hw
            refine ⟨tasksKept_refl hcontrol.tasks, ?_, Or.inr hsettled.of_inflight⟩
            intro v
            refine (sends_setWorker _ .polling hw' v).trans ?_
            rw [sends_congr hcontrol.workers]
            rfl

theorem resume_move (s : PushService) (w : Nat) (checked retried again : ℚ) :
    Move s (.resume w checked retried again) (s.resume w checked retried again) := by
  rcases resume_cases s w checked retried again with
    hsame | ⟨i, t, hw, ht, hdone, htasks, hsends, hsettled⟩
  · rw [hsame]
    exact .kept (Intake.refl _ _) (tasksKept_refl rfl) fun _ => rfl
  · exact .resumed w i t checked retried again rfl hw ht hdone htasks hsends hsettled

/-- The steps that are neither a worker's nor a registered call keep claims and workers. -/
theorem control_kept {s s' : PushService} {op : ServiceOp} (h : ControlStep s op s')
    (hwork : ∀ w now tie, op ≠ .work w now tie)
    (hresume : ∀ w checked retried again, op ≠ .resume w checked retried again) :
    TasksKept s s' ∧ ∀ v, s'.sends v = s.sends v := by
  cases h with
  | quiet h => exact ⟨tasksKept_refl h.tasks, sends_congr h.workers⟩
  | retired epoch now hop h => exact ⟨tasksKept_cancelInflight h.tasks, sends_congr h.workers⟩
  | revoked id h => exact ⟨tasksKept_cancelInflight h.tasks, sends_congr h.workers⟩
  | failed h =>
    refine ⟨tasksKept_cancelInflight h.tasks, fun v => ?_⟩
    exact (sends_congr h.workers v).trans (sends_fail s v)
  | left w cancelled hw hstop h =>
    refine ⟨tasksKept_refl h.tasks, fun v => ?_⟩
    rw [sends_congr h.workers, sends_setWorker s .ended hw]
    split
    · next hv =>
      unfold PushService.sends
      rw [hv, hw]
    · rfl
  | claimed w d now tie hop hw havailable hfound hsend h => exact absurd hop (hwork w now tie)
  | begun j now u hop hu hstage h =>
    refine ⟨tasksKept_setStage h.tasks hu ?_, sends_congr h.workers⟩
    unfold SendTask.live
    rw [hstage]
  | ended j u outcome now since hop hu hstage h =>
    refine ⟨tasksKept_setStage h.tasks hu ?_, sends_congr h.workers⟩
    unfold SendTask.live
    rw [hstage]
  | resumed w j cancelled u outcome checked retried again hop hw hu hstage h =>
    exact absurd hop (hresume w checked retried again)

theorem intakes_of_callOf {s : PushService} {op : ServiceOp} {c : StoreOp}
    (h : CallOf onCurve s op c) (hwork : ∀ w now tie, op ≠ .work w now tie)
    (hresume : ∀ w checked retried again, op ≠ .resume w checked retried again) :
    intakes (fun e => s.isCurrent e = true) c := by
  cases h with
  | test endpoint uuid identifier now event hop hevent => exact isCurrent_iff.mpr (Or.inl rfl)
  | event event targets now hevent => exact isCurrent_iff.mpr (Or.inr rfl)
  | nextDelivery worker now tie hop => exact absurd hop (hwork worker now tie)
  | drop worker now tie d hop => exact absurd hop (hwork worker now tie)
  | finish worker checked retried again d retryAt hop =>
    exact absurd hop (hresume worker checked retried again)
  | _ => trivial

/-- **Moves.** What every step of an unpruned run does to rows and workers. -/
theorem serviceStep_move {s : PushService} {op : ServiceOp}
    (hkeeps : ∀ y ∈ trace storeStep s.store (storeCalls onCurve s op), KeepsIdentities y) :
    Move s op (serviceStep onCurve s op) := by
  by_cases hwork : ∃ w now tie, op = .work w now tie
  · obtain ⟨w, now, tie, rfl⟩ := hwork
    exact work_move s w now tie
  by_cases hresume : ∃ w checked retried again, op = .resume w checked retried again
  · obtain ⟨w, checked, retried, again, rfl⟩ := hresume
    exact resume_move s w checked retried again
  have hwork : ∀ w now tie, op ≠ .work w now tie := fun w now tie h => hwork ⟨w, now, tie, h⟩
  have hresume : ∀ w checked retried again, op ≠ .resume w checked retried again :=
    fun w checked retried again h => hresume ⟨w, checked, retried, again, h⟩
  obtain ⟨htasks, hsends⟩ := control_kept (serviceStep_control onCurve s op) hwork hresume
  refine .kept ?_ htasks hsends
  rw [serviceStep_store]
  exact intake_replay
    (fun c hc => intakes_of_callOf onCurve (mem_storeCalls onCurve hc) hwork hresume) hkeeps

/-! ## Availability and epochs -/

/-- A cancelled worker belongs to a service that has failed. -/
def FailsTogether (s : PushService) : Prop :=
  ∀ worker ∈ s.workers, worker.cancelled = true → s.available = false

theorem failsTogether_step {s s' : PushService} {op : ServiceOp} (h : ControlStep s op s')
    (hs : FailsTogether s) : FailsTogether s' ∧ (s'.available = true → s.available = true) := by
  have hmodify : ∀ {r : PushService} {w : Nat} {stage : WorkerStage},
      SameControl (r.setWorker w stage) s' → r.workers = s.workers →
      r.available = s.available → FailsTogether s' ∧ (s'.available = true → s.available = true) := by
    intro r w stage hsame hworkers havailable
    have havail : s'.available = s.available := hsame.available.trans havailable
    refine ⟨?_, fun h => havail ▸ h⟩
    intro worker hworker hcancelled
    rw [hsame.workers] at hworker
    obtain ⟨v, hv⟩ := List.mem_iff_getElem?.mp hworker
    unfold PushService.setWorker at hv
    rw [List.getElem?_modify] at hv
    obtain ⟨old, hold, rfl⟩ := Option.map_eq_some_iff.mp hv
    rw [havail]
    refine hs old (hworkers ▸ List.mem_of_getElem? hold) ?_
    split at hcancelled <;> exact hcancelled
  have hsame : ∀ {r : PushService}, SameControl r s' → r.workers = s.workers →
      r.available = s.available → FailsTogether s' ∧ (s'.available = true → s.available = true) := by
    intro r hr hworkers havailable
    have havail : s'.available = s.available := hr.available.trans havailable
    refine ⟨?_, fun h => havail ▸ h⟩
    intro worker hworker hcancelled
    rw [hr.workers, hworkers] at hworker
    rw [havail]
    exact hs worker hworker hcancelled
  cases h with
  | quiet h => exact hsame h rfl rfl
  | retired epoch now hop h => exact hsame h rfl rfl
  | revoked id h => exact hsame h rfl rfl
  | failed h =>
    have hdown : s'.available = false := h.available
    refine ⟨fun _ _ _ => hdown, fun hup => ?_⟩
    rw [hdown] at hup
    cases hup
  | left w cancelled hw hstop h => exact hmodify h rfl rfl
  | claimed w d now tie hop hw havailable hfound hsend h => exact hmodify h rfl rfl
  | begun j now u hop hu hstage h => exact hsame h rfl rfl
  | ended j u outcome now since hop hu hstage h => exact hsame h rfl rfl
  | resumed w j cancelled u outcome checked retried again hop hw hu hstage h =>
    exact hmodify h rfl rfl

theorem epoch_kept {s : PushService} {op : ServiceOp} (h : ¬ retires s op = true) :
    (serviceStep onCurve s op).processor.epoch = s.processor.epoch := by
  have hnone : op.epoch? = none → (serviceStep onCurve s op).processor.epoch = s.processor.epoch := by
    intro hop
    refine (epoch_step (serviceStep_control onCurve s op)).resolve_right ?_
    rw [hop]
    exact fun h => by cases h
  cases op with
  | connect source owner force epoch now =>
    have hno : ¬ s.connects source owner force = true := h
    exact congrArg (fun r : PushService => r.processor.epoch) (if_neg hno)
  | disconnect party epoch now =>
    have hno : ¬ s.disconnects party = true := h
    exact congrArg (fun r : PushService => r.processor.epoch) (if_neg hno)
  | _ => exact hnone rfl

/-- A retirement leaves rows of the new epoch and of tests. -/
theorem retired_rows {s : PushService} {op : ServiceOp} (h : retires s op = true) :
    ∀ d ∈ (serviceStep onCurve s op).store.deliveries,
      (serviceStep onCurve s op).isCurrent d.epoch = true := by
  obtain ⟨epoch, now, hop, hsame⟩ := retired_step onCurve h
  have hstore : (serviceStep onCurve s op).store = s.store.retireEpochs epoch := by
    rw [serviceStep_store]
    cases op with
    | connect source owner force e time =>
      obtain rfl := Option.some.inj hop
      have hyes : s.connects source owner force = true := h
      unfold storeCalls
      dsimp only
      rw [if_pos hyes]
      rfl
    | disconnect party e time =>
      obtain rfl := Option.some.inj hop
      have hyes : s.disconnects party = true := h
      unfold storeCalls
      dsimp only
      rw [if_pos hyes]
      rfl
    | _ => cases hop
  intro d hd
  rw [hstore] at hd
  obtain ⟨-, hepoch⟩ := List.mem_filter.mp hd
  rw [isCurrent_iff, hsame.epoch]
  rcases Bool.or_eq_true_iff.mp hepoch with h | h
  · exact Or.inr (of_decide_eq_true h)
  · exact Or.inl (of_decide_eq_true h)

/-! ## Claims against rows -/

/-- The rows that the tasks claimed. -/
def claims (s : PushService) : List Delivery := s.tasks.map SendTask.delivery

theorem TasksKept.same {s s' : PushService} (h : TasksKept s s') : claims s' = claims s := by
  have := congrArg (List.map Prod.fst) h.kept
  rw [List.map_map, List.map_map] at this
  exact this

/-- A row with the key of a claim is that row, at this or a later attempt. -/
structure Continues (c d : Delivery) : Prop where
  attempts : c.attempts ≤ d.attempts
  same : d = { c with nextAt := d.nextAt, attempts := d.attempts }

/-- Rows and claims fit together. -/
structure Owning (s : PushService) : Prop where
  sound : SoundRows s.store
  current : ∀ d ∈ s.store.deliveries, s.isCurrent d.epoch = true
  fails : FailsTogether s
  known : ∀ c ∈ claims s, c.eventId ∈ s.store.eventIds
  tries : ∀ c ∈ claims s, c.attempts ≤ 2
  continues : ∀ c ∈ claims s, ∀ d ∈ s.store.deliveries, d.row = c.row → Continues c d

/-- A row of the claimed table is an old one, with its next time moved when it is the claimed. -/
theorem mem_claim {t : PushStore} {c d : Delivery} {time : ℚ}
    (h : d ∈ (t.claim c time).deliveries) : ∃ e ∈ t.deliveries,
      d = { e with nextAt := d.nextAt } ∧ (e.row = c.row → d.nextAt = time) ∧
        (e.row ≠ c.row → d = e) := by
  obtain ⟨e, he, rfl⟩ := List.mem_map.mp h
  refine ⟨e, he, ?_⟩
  by_cases hrow : e.isFor c.eventId c.subscriptionId = true
  · rw [if_pos hrow]
    exact ⟨rfl, fun _ => rfl, fun hne => absurd (isFor_iff.mp hrow) hne⟩
  · rw [if_neg hrow]
    exact ⟨rfl, fun heq => absurd (isFor_iff.mpr heq) hrow, fun _ => rfl⟩

theorem claim_row (t : PushStore) (c : Delivery) (time : ℚ) :
    (t.claim c time).deliveries.map Delivery.row = t.deliveries.map Delivery.row := by
  unfold PushStore.claim
  dsimp only
  rw [List.map_map]
  refine List.map_congr_left ?_
  intro e _
  dsimp only [Function.comp]
  split <;> rfl

/-- A row after a retry: the retried one has one attempt more. -/
theorem mem_retry {t : PushStore} {c d : Delivery} {time : ℚ} (hattempts : c.attempts < 2)
    (h : d ∈ (t.finish c (some time)).deliveries) : ∃ e ∈ t.deliveries,
      (e.row = c.row ∧ d = { e with attempts := e.attempts + 1, nextAt := time }) ∨
      (e.row ≠ c.row ∧ d = e) := by
  unfold PushStore.finish at h
  dsimp only at h
  rw [if_neg (by omega)] at h
  obtain ⟨e, he, rfl⟩ := List.mem_map.mp h
  refine ⟨e, he, ?_⟩
  unfold PushStore.retried
  by_cases hrow : e.isFor c.eventId c.subscriptionId = true
  · rw [if_pos hrow]
    exact Or.inl ⟨isFor_iff.mp hrow, rfl⟩
  · rw [if_neg hrow]
    exact Or.inr ⟨fun heq => hrow (isFor_iff.mpr heq), rfl⟩

theorem retry_row {t : PushStore} {c : Delivery} {time : ℚ} (hattempts : c.attempts < 2) :
    (t.finish c (some time)).deliveries.map Delivery.row = t.deliveries.map Delivery.row := by
  unfold PushStore.finish
  dsimp only
  rw [if_neg (by omega), List.map_map]
  refine List.map_congr_left ?_
  intro e _
  unfold PushStore.retried
  dsimp only [Function.comp]
  split <;> rfl

theorem retry_eventIds {t : PushStore} {c : Delivery} {time : ℚ} (hattempts : c.attempts < 2) :
    (t.finish c (some time)).eventIds = t.eventIds := by
  unfold PushStore.finish
  dsimp only
  rw [if_neg (by omega)]
  rfl

/-- Two rows with one key are one row. -/
theorem SoundRows.unique {t : PushStore} (h : SoundRows t) {d e : Delivery}
    (hd : d ∈ t.deliveries) (he : e ∈ t.deliveries) (hrow : d.row = e.row) : d = e :=
  List.inj_on_of_nodup_map h.keys hd he hrow

/-- What an owned claim says about its row. -/
theorem Owning.owned {s : PushService} (h : Owning s) {c d : Delivery} {now : ℚ}
    (hc : c ∈ claims s) (howns : s.owns c now = true) (hd : d ∈ s.store.deliveries)
    (hrow : d.row = c.row) :
    s.available = true ∧ d = { c with nextAt := d.nextAt } ∧ now < d.expiresAt := by
  obtain ⟨havailable, -, e, he, herow, -, hattempts, hnow⟩ := (owns_iff h.sound.keys).mp howns
  obtain rfl := h.sound.unique hd he (hrow.trans herow.symm)
  have hsame := (h.continues c hc d hd hrow).same
  rw [hattempts] at hsame
  exact ⟨havailable, hsame, hnow⟩

/-- What an unowned claim says about its row. -/
theorem Owning.unowned {s : PushService} (h : Owning s) {c d : Delivery} {now : ℚ}
    (hc : c ∈ claims s) (howns : s.owns c now = false) (hd : d ∈ s.store.deliveries)
    (hrow : d.row = c.row) (hattempts : d.attempts = c.attempts) :
    s.available = false ∨ d.expiresAt ≤ now := by
  by_contra hno
  rw [not_or, not_le, Bool.not_eq_false] at hno
  have hsame := (h.continues c hc d hd hrow).same
  have hepoch : d.epoch = c.epoch := by rw [hsame]
  have := (owns_iff h.sound.keys).mpr ⟨hno.1, hepoch ▸ h.current d hd, d, hd, hrow, hepoch,
    hattempts, hno.2⟩
  rw [howns] at this
  cases this

theorem Continues.refl (d : Delivery) : Continues d d := ⟨le_refl _, rfl⟩

theorem Continues.trans {a b c : Delivery} (h : Continues a b) (h' : Continues b c) :
    Continues a c := by
  refine ⟨h.attempts.trans h'.attempts, ?_⟩
  have hc := h'.same
  have hb := h.same
  rw [hb] at hc
  exact hc

theorem Continues.row {a b : Delivery} (h : Continues a b) : b.row = a.row := by
  have hb := h.same
  rw [hb]
  rfl

/-- Where the rows after a step come from: each continues an old one, or is new. -/
structure RowsFrom (s : PushService) (t' : PushStore) : Prop where
  rows : ∀ d ∈ t'.deliveries, (∃ e ∈ s.store.deliveries, Continues e d) ∨
    d.attempts = 0 ∧ s.isCurrent d.epoch = true ∧ d.eventId ∉ s.store.eventIds ∧
      d.eventId ∈ t'.eventIds
  keys : (s.store.deliveries.map Delivery.row).Nodup → (t'.deliveries.map Delivery.row).Nodup
  known : ∀ id ∈ s.store.eventIds, id ∈ t'.eventIds

theorem RowsFrom.of_sublist {s : PushService} {t' : PushStore}
    (hrows : t'.deliveries.Sublist s.store.deliveries) (hids : t'.eventIds = s.store.eventIds) :
    RowsFrom s t' :=
  ⟨fun d hd => Or.inl ⟨d, hrows.subset hd, .refl d⟩, fun h => h.sublist (hrows.map Delivery.row),
    fun _ hid => hids ▸ hid⟩

theorem move_rows {s s' : PushService} {op : ServiceOp} (h : Move s op s') :
    RowsFrom s s'.store := by
  have hsame : s'.store = s.store → RowsFrom s s'.store := fun hstore => by
    rw [hstore]
    exact .of_sublist (List.Sublist.refl _) rfl
  cases h with
  | kept hrows htasks hsends =>
    refine ⟨fun d hd => ?_, hrows.keys, fun id hid => hrows.known hid⟩
    rcases hrows.rows d hd with hold | hnew
    · exact Or.inl ⟨d, hold, .refl d⟩
    · exact Or.inr hnew
  | claimed w c now tie hop hfree havailable hfound hcurrent hstore htasks hsends =>
    rw [hstore]
    refine ⟨fun d hd => ?_, fun h => ?_, fun id hid => hid⟩
    · obtain ⟨e, he, hd, -, -⟩ := mem_claim hd
      refine Or.inl ⟨e, (sublist_expire s.store now).subset he, ?_⟩
      have hattempts : d.attempts = e.attempts := by rw [hd]
      exact ⟨hattempts.ge, by rw [hattempts]; exact hd⟩
    · rw [claim_row]
      exact h.sublist ((sublist_expire s.store now).map Delivery.row)
  | resumed w i t checked retried again hop hw ht hdone htasks hsends hsettled =>
    rcases hsettled with ⟨hstore, -⟩ | hsettled
    · exact hsame hstore
    · cases hsettled with
      | unowned hstore howns => exact hsame hstore
      | removed howns hrows hids hgone => exact .of_sublist hrows hids
      | retried howns hattempts time hstore =>
        rw [hstore]
        refine ⟨fun d hd => Or.inl ?_, fun h => (retry_row hattempts).symm ▸ h,
          fun id hid => (retry_eventIds hattempts).symm ▸ hid⟩
        obtain ⟨e, he, ⟨-, rfl⟩ | ⟨-, rfl⟩⟩ := mem_retry hattempts hd
        · exact ⟨e, he, Nat.le_succ _, rfl⟩
        · exact ⟨d, he, .refl d⟩

/-- No row is tried more than twice, after any move. -/
theorem Owning.attempts_step {s s' : PushService} {op : ServiceOp} (hs : Owning s)
    (h : Move s op s') : ∀ d ∈ s'.store.deliveries, d.attempts ≤ 2 := by
  intro d hd
  have hold : ∀ e ∈ s.store.deliveries, d.attempts = e.attempts → d.attempts ≤ 2 :=
    fun e he heq => heq ▸ hs.sound.attempts e he
  cases h with
  | kept hrows htasks hsends =>
    rcases hrows.rows d hd with hd | ⟨hzero, -⟩
    · exact hold d hd rfl
    · omega
  | claimed w c now tie hop hfree havailable hfound hcurrent hstore htasks hsends =>
    rw [hstore] at hd
    obtain ⟨e, he, heq, -, -⟩ := mem_claim hd
    exact hold e ((sublist_expire s.store now).subset he) (by rw [heq])
  | resumed w i t checked retried again hop hw ht hdone htasks hsends hsettled =>
    rcases hsettled with ⟨hstore, -⟩ | hsettled
    · exact hold d (hstore ▸ hd) rfl
    · cases hsettled with
      | unowned hstore howns => exact hold d (hstore ▸ hd) rfl
      | removed howns hrows hids hgone => exact hold d (hrows.subset hd) rfl
      | retried howns hattempts time hstore =>
        rw [hstore] at hd
        obtain ⟨e, he, ⟨hrow, rfl⟩ | ⟨-, rfl⟩⟩ := mem_retry hattempts hd
        · -- The row is owned: it is at the attempt of its claim.
          have hc : t.delivery ∈ claims s := List.mem_map_of_mem (List.mem_of_getElem? ht)
          obtain ⟨reading, -, howns⟩ := howns
          have hsame := (hs.owned hc howns he hrow).2.1
          have : e.attempts = t.delivery.attempts := by rw [hsame]
          dsimp only
          omega
        · exact hold d he rfl

theorem Owning.step {s : PushService} {op : ServiceOp} (hs : Owning s)
    (h : Move s op (serviceStep onCurve s op)) : Owning (serviceStep onCurve s op) := by
  obtain ⟨hrows, hkeys, hknown⟩ := move_rows h
  -- A claim of the old state, against the new rows.
  have hclaims : ∀ c ∈ claims s, c.eventId ∈ (serviceStep onCurve s op).store.eventIds ∧
      ∀ d ∈ (serviceStep onCurve s op).store.deliveries, d.row = c.row → Continues c d := by
    intro c hc
    refine ⟨hknown _ (hs.known c hc), ?_⟩
    intro d hd hrow
    rcases hrows d hd with ⟨e, he, hed⟩ | ⟨-, -, hnew, -⟩
    · exact (hs.continues c hc e he (hed.row.symm.trans hrow)).trans hed
    · have : d.eventId = c.eventId := congrArg Prod.fst hrow
      exact absurd (hs.known c hc) (this ▸ hnew)
  have hnew : ∀ c ∈ claims (serviceStep onCurve s op), c ∈ claims s ∨
      c ∈ s.store.deliveries ∧
        ∀ d ∈ (serviceStep onCurve s op).store.deliveries, d.row = c.row → Continues c d := by
    intro c hc
    cases h with
    | kept _ htasks _ => exact Or.inl (htasks.same ▸ hc)
    | resumed _ _ _ _ _ _ _ _ _ _ htasks _ _ => exact Or.inl (htasks.same ▸ hc)
    | claimed w e now tie hop hfree havailable hfound hcurrent hstore htasks hsends =>
      unfold claims at hc
      rw [htasks, List.map_append] at hc
      rcases List.mem_append.mp hc with hc | hc
      · exact Or.inl hc
      · obtain rfl : c = e := List.mem_singleton.mp hc
        have hmem := (PushStore.nextDelivery_some hfound).1
        refine Or.inr ⟨hmem, ?_⟩
        intro d hd hrow
        rcases hrows d hd with ⟨f, hf, hfd⟩ | ⟨-, -, hnew, -⟩
        · obtain rfl := hs.sound.unique hf hmem (hfd.row.symm.trans hrow)
          exact hfd
        · have : d.eventId = c.eventId := congrArg Prod.fst hrow
          exact absurd (hs.sound.known c hmem) (this ▸ hnew)
  refine ⟨⟨hkeys hs.sound.keys, ?_, hs.attempts_step h⟩, ?_,
    (failsTogether_step (serviceStep_control onCurve s op) hs.fails).1, ?_, ?_, ?_⟩
  · intro d hd
    rcases hrows d hd with ⟨e, he, hed⟩ | ⟨-, -, -, hin⟩
    · have : d.eventId = e.eventId := congrArg Prod.fst hed.row
      exact this ▸ hknown _ (hs.sound.known e he)
    · exact hin
  · intro d hd
    by_cases hretires : retires s op = true
    · exact retired_rows onCurve hretires d hd
    · rw [isCurrent_congr (epoch_kept onCurve hretires)]
      rcases hrows d hd with ⟨e, he, hed⟩ | ⟨-, hcurrent, -, -⟩
      · have : d.epoch = e.epoch := by rw [hed.same]
        exact this ▸ hs.current e he
      · exact hcurrent
  · intro c hc
    rcases hnew c hc with hold | ⟨hmem, -⟩
    · exact (hclaims c hold).1
    · exact hknown _ (hs.sound.known c hmem)
  · intro c hc
    rcases hnew c hc with hold | ⟨hmem, -⟩
    · exact hs.tries c hold
    · exact hs.sound.attempts c hmem
  · intro c hc
    rcases hnew c hc with hold | ⟨-, hcont⟩
    · exact (hclaims c hold).2
    · exact hcont

/-! ## Runs -/

/-- The claims with their times. -/
def held (s : PushService) : List (Delivery × ℚ) := s.tasks.map fun t => (t.delivery, t.claimedAt)

theorem claims_eq (s : PushService) : claims s = (held s).map Prod.fst := by
  unfold claims held
  rw [List.map_map]
  rfl

theorem held_iff {s : PushService} {i : Nat} {c : Delivery} {a : ℚ} :
    (held s)[i]? = some (c, a) ↔ ∃ t, s.tasks[i]? = some t ∧ t.delivery = c ∧ t.claimedAt = a := by
  unfold held
  rw [List.getElem?_map, Option.map_eq_some_iff]
  simp only [Prod.mk.injEq]

theorem claim_of_held {s : PushService} {i : Nat} {c : Delivery} {a : ℚ}
    (h : (held s)[i]? = some (c, a)) : c ∈ claims s := by
  rw [claims_eq]
  exact List.mem_map_of_mem (f := Prod.fst) (List.mem_of_getElem? h)

theorem owning_started {store : PushStore} (h : SoundRows store) (epoch : Str) (now : ℚ) :
    Owning (.started store epoch now) where
  sound := ⟨h.keys.sublist (List.filter_sublist.map Delivery.row),
    fun d hd => h.known d (List.filter_sublist.subset hd),
    fun d hd => h.attempts d (List.filter_sublist.subset hd)⟩
  current := by
    intro d hd
    obtain ⟨-, hepoch⟩ := List.mem_filter.mp hd
    rcases Bool.or_eq_true_iff.mp hepoch with h | h
    · exact isCurrent_iff.mpr (Or.inr (of_decide_eq_true h))
    · exact isCurrent_iff.mpr (Or.inl (of_decide_eq_true h))
  fails := by
    intro worker hworker hcancelled
    have : worker = ⟨.polling, false⟩ := by
      simpa [PushService.started] using hworker
    rw [this] at hcancelled
    cases hcancelled
  known := fun c hc => by cases hc
  tries := fun c hc => by cases hc
  continues := fun c hc => by cases hc

variable {onCurve} in
theorem Unpruned.append {start : PushService} {before after : List ServiceOp}
    (h : Unpruned onCurve start (before ++ after)) :
    Unpruned onCurve start before ∧
      Unpruned onCurve (replay (serviceStep onCurve) start before) after := by
  unfold Unpruned at h ⊢
  rw [trace_append] at h
  exact ⟨fun x hx => h x (List.mem_append_left _ hx), fun x hx => h x (List.mem_append_right _ hx)⟩

variable {onCurve} in
/-- The step at the end of an unpruned run is a move. -/
theorem Unpruned.move {start : PushService} {ops : List ServiceOp} {op : ServiceOp}
    (h : Unpruned onCurve start (ops ++ [op])) :
    Move (replay (serviceStep onCurve) start ops) op
      (serviceStep onCurve (replay (serviceStep onCurve) start ops) op) :=
  serviceStep_move onCurve (h.append.2 _ List.mem_cons_self)

theorem owning_replay {s : PushService} (h : Owning s) {ops : List ServiceOp}
    (hops : Unpruned onCurve s ops) : Owning (replay (serviceStep onCurve) s ops) := by
  induction ops using List.reverseRecOn with
  | nil => exact h
  | append_singleton ops op ih =>
    rw [replay_append, replay_singleton]
    exact (ih hops.append.1).step onCurve hops.move

/-- Identities stay known. -/
theorem known_replay {s : PushService} {ops : List ServiceOp} (hops : Unpruned onCurve s ops)
    {id : Str} (h : id ∈ s.store.eventIds) :
    id ∈ (replay (serviceStep onCurve) s ops).store.eventIds := by
  induction ops using List.reverseRecOn with
  | nil => exact h
  | append_singleton ops op ih =>
    rw [replay_append, replay_singleton]
    exact (move_rows hops.move).known id (ih hops.append.1)

/-- Tasks stay for what they claimed. -/
theorem held_replay {s : PushService} {ops : List ServiceOp} (hops : Unpruned onCurve s ops) :
    held s <+: held (replay (serviceStep onCurve) s ops) := by
  induction ops using List.reverseRecOn with
  | nil => exact List.prefix_refl _
  | append_singleton ops op ih =>
    rw [replay_append, replay_singleton]
    refine (ih hops.append.1).trans ?_
    cases hops.move with
    | kept _ htasks _ => exact (show held _ = held _ from htasks.kept).symm ▸ List.prefix_refl _
    | resumed _ _ _ _ _ _ _ _ _ _ htasks _ _ =>
      exact (show held _ = held _ from htasks.kept).symm ▸ List.prefix_refl _
    | claimed w d now tie hop hfree havailable hfound hcurrent hstore htasks hsends =>
      unfold held
      rw [htasks, List.map_append]
      exact List.prefix_append _ _

/-- The key of a row that is gone does not come back while its identity is known. -/
theorem gone_replay {s : PushService} {ops : List ServiceOp} (hops : Unpruned onCurve s ops)
    {row : Str × Str} (hknown : row.1 ∈ s.store.eventIds)
    (hgone : ∀ d ∈ s.store.deliveries, d.row ≠ row) :
    ∀ d ∈ (replay (serviceStep onCurve) s ops).store.deliveries, d.row ≠ row := by
  induction ops using List.reverseRecOn with
  | nil => exact hgone
  | append_singleton ops op ih =>
    rw [replay_append, replay_singleton]
    rintro d hd rfl
    rcases (move_rows hops.move).rows d hd with ⟨e, he, hed⟩ | ⟨-, -, hnew, -⟩
    · exact ih hops.append.1 e he hed.row.symm
    · exact hnew (known_replay onCurve hops.append.1 hknown)

end InverterDashboard.Push
