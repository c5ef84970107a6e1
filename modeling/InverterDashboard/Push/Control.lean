import InverterDashboard.Push.Calls

/-
  The control part of the service: its workers, its send tasks, `inflight`, the epoch.

  `ControlStep` lists all that a step can do to it, and `serviceStep_control` shows that nothing
  else happens. Invariants about tasks and workers are proved by cases on it.
-/

namespace InverterDashboard.Push

open Python Cerbo Bounded Temporal

/-- The control parts of two states agree. -/
structure SameControl (s s' : PushService) : Prop where
  tasks : s'.tasks = s.tasks
  inflight : s'.inflight = s.inflight
  workers : s'.workers = s.workers
  available : s'.available = s.available
  epoch : s'.processor.epoch = s.processor.epoch

theorem SameControl.refl (s : PushService) : SameControl s s := ⟨rfl, rfl, rfl, rfl, rfl⟩

theorem SameControl.trans {a b c : PushService} (h : SameControl a b) (h' : SameControl b c) :
    SameControl a c :=
  ⟨h'.tasks.trans h.tasks, h'.inflight.trans h.inflight, h'.workers.trans h.workers,
    h'.available.trans h.available, h'.epoch.trans h.epoch⟩

/-- A delivery that may be sent: it is current and its subscription wants its kind. -/
structure Sendable (s : PushService) (d : Delivery) : Prop where
  current : s.isCurrent d.epoch = true
  wanted : ∃ r, s.store.get d.subscriptionId = some r ∧
    PushService.wanted r.preferences d.payload.kind = true

/-- What a step can do to workers, tasks, `inflight` and the epoch. -/
inductive ControlStep (s : PushService) (op : ServiceOp) (s' : PushService) : Prop where
  | quiet (h : SameControl s s')
  /-- `connect` or `disconnect`. -/
  | retired (epoch : Str) (now : ℚ) (hop : op.epoch? = some epoch)
      (h : SameControl (s.retire epoch now) s')
  /-- `register` or `delete`. -/
  | revoked (id : Str) (h : SameControl (s.cancelInflight fun f => f.subscriptionId = id) s')
  | failed (h : SameControl s.fail s')
  /-- A worker leaves its loop. -/
  | left (w : Nat) (cancelled : Bool) (hw : s.workers[w]? = some ⟨.polling, cancelled⟩)
      (hstop : (cancelled || !s.available) = true) (h : SameControl (s.setWorker w .ended) s')
  /-- A worker claims a row that may be sent. -/
  | claimed (w : Nat) (d : Delivery) (now : ℚ) (tie : Nat) (hop : op = .work w now tie)
      (hw : s.workers[w]? = some ⟨.polling, false⟩) (havailable : s.available = true)
      (hfound : (s.store.nextDelivery now tie).1 = some d) (hsend : Sendable s d)
      (h : SameControl (s.createTask w d now) s')
  | begun (i : Nat) (now : ℚ) (t : SendTask) (hop : op = .begin i now)
      (ht : s.tasks[i]? = some t) (hstage : t.stage = .created)
      (h : SameControl (s.setStage i (if t.cancelled then .done .cancelled else .running now)) s')
  | ended (i : Nat) (t : SendTask) (outcome : Outcome) (now since : ℚ)
      (hop : op = .finishSend i outcome now) (ht : s.tasks[i]? = some t)
      (hstage : t.stage = .running since) (h : SameControl (s.setStage i (.done outcome)) s')
  /-- A worker resumes: its entry of `inflight` goes. -/
  | resumed (w i : Nat) (cancelled : Bool) (t : SendTask) (outcome : Outcome)
      (checked retried again : ℚ) (hop : op = .resume w checked retried again)
      (hw : s.workers[w]? = some ⟨.sending i, cancelled⟩) (ht : s.tasks[i]? = some t)
      (hstage : t.stage = .done outcome)
      (h : SameControl ({ s with inflight := s.inflight.filter (·.task ≠ i) }.setWorker w
        (if cancelled then .ended else .polling)) s')

/-! ## Calls that only change the tables -/

namespace PushService

theorem withStore_control (s : PushService) (t : PushStore) : SameControl s (s.withStore t) :=
  ⟨rfl, rfl, rfl, rfl, rfl⟩

theorem enqueueTest_control (s : PushService) (identifier uuid : Str) (now : ℚ) :
    SameControl s (s.enqueueTest identifier uuid now) := by
  unfold enqueueTest
  split
  · exact SameControl.refl s
  · split
    · exact s.withStore_control _
    · exact SameControl.refl s

theorem testRegistered_control (s : PushService) (identifier uuid : Str) (now : ℚ) :
    SameControl s (s.testRegistered identifier uuid now) := by
  unfold testRegistered
  dsimp only
  split
  · exact ⟨rfl, rfl, rfl, rfl, rfl⟩
  · split
    · refine SameControl.trans ?_ (enqueueTest_control _ identifier uuid now)
      exact ⟨rfl, rfl, rfl, rfl, rfl⟩
    · exact ⟨rfl, rfl, rfl, rfl, rfl⟩

theorem test_control (s : PushService) (endpoint uuid : Str) (now : ℚ) :
    SameControl s (s.test endpoint uuid now) := by
  unfold test
  split
  · split
    · exact SameControl.refl s
    · exact s.testRegistered_control _ uuid now
  · exact SameControl.refl s

theorem finishOwned_control (s : PushService) (d : Delivery) (retryAt : Option ℚ) (now : ℚ) :
    SameControl s (s.finishOwned d retryAt now) := by
  unfold finishOwned
  split
  · exact s.withStore_control _
  · exact SameControl.refl s

theorem settle_control (s : PushService) (d : Delivery) (outcome : Outcome)
    (checked retried again : ℚ) : SameControl s (s.settle d outcome checked retried again) := by
  unfold settle
  dsimp only
  cases outcome with
  | status code =>
    dsimp only
    split
    · exact SameControl.refl s
    · split
      · exact (s.withStore_control _).trans (finishOwned_control _ d none again)
      · split
        · exact s.finishOwned_control d _ again
        · exact s.finishOwned_control d none again
  | invalid => exact s.finishOwned_control d none again
  | failed => exact s.finishOwned_control d _ again
  | cancelled => exact s.finishOwned_control d none again

/-! ## The observer's calls -/

theorem queue_control {s : PushService} {event : EventPayload} {now : ℚ} {o : Bool × PushService}
    (h : s.queue event now = .ok o) : SameControl s o.2 := by
  unfold queue at h
  split at h
  · split at h
    · obtain rfl := Except.ok.inj h
      exact s.withStore_control _
    · cases h
  · obtain rfl := Except.ok.inj h
    exact SameControl.refl s

theorem fail_control {s s' : PushService} (h : SameControl s s') : SameControl s.fail s'.fail where
  tasks := by
    unfold fail cancelInflight
    dsimp only
    rw [h.tasks, h.inflight]
  inflight := h.inflight
  workers := by
    unfold fail
    dsimp only
    rw [h.workers]
  available := rfl
  epoch := h.epoch

theorem queueAll_control (events : List EventPayload) (clock : Nat → ℚ) (s : PushService) :
    SameControl s (queueAll events clock s).2 ∨ SameControl s.fail (queueAll events clock s).2 := by
  induction events generalizing clock s with
  | nil => exact Or.inl (SameControl.refl s)
  | cons event events ih =>
    unfold queueAll
    cases hqueue : s.queue event (clock 0) with
    | error e => exact Or.inr (SameControl.refl _)
    | ok o =>
      have hsame := queue_control hqueue
      rcases ih (fun i => clock (i + 1)) o.2 with h | h
      · exact Or.inl (hsame.trans h)
      · exact Or.inr ((fail_control hsame).trans h)

theorem queueDetected_control (s : PushService)
    (detected : EventProcessor × Option (List EventPayload)) (clock : Nat → ℚ)
    (hepoch : detected.1.epoch = s.processor.epoch) :
    SameControl s (s.queueDetected detected clock).2 ∨
      SameControl s.fail (s.queueDetected detected clock).2 := by
  have hsame : SameControl s { s with processor := detected.1 } := ⟨rfl, rfl, rfl, rfl, hepoch⟩
  unfold queueDetected
  dsimp only
  cases detected.2 with
  | none => exact Or.inr (fail_control hsame)
  | some events =>
    rcases queueAll_control events clock { s with processor := detected.1 } with h | h
    · exact Or.inl (hsame.trans h)
    · exact Or.inr ((fail_control hsame).trans h)

end PushService

/-! ## Claims -/

namespace PushStore

/-- What `next_delivery` returns: a row that is due and has not expired, and its claim. -/
theorem nextDelivery_some {s : PushStore} {now : ℚ} {tie : Nat} {d : Delivery}
    (h : (s.nextDelivery now tie).1 = some d) :
    d ∈ s.deliveries ∧ d.nextAt ≤ now ∧ now < d.expiresAt ∧
      (s.nextDelivery now tie).2 = (s.expire now).claim d (now + 30) := by
  unfold nextDelivery at h ⊢
  dsimp only at h ⊢
  cases hdue : (s.expire now).due now tie with
  | none =>
    rw [hdue] at h
    cases h
  | some e =>
    rw [hdue] at h
    obtain rfl := Option.some.inj h
    have hmem := List.mem_of_getElem? hdue
    obtain ⟨hdue, -⟩ := List.mem_filter.mp hmem
    obtain ⟨hrow, hnow⟩ := List.mem_filter.mp hdue
    obtain ⟨hold, hlive⟩ := List.mem_filter.mp hrow
    exact ⟨hold, of_decide_eq_true hnow, of_decide_eq_true hlive, rfl⟩

theorem nextDelivery_none {s : PushStore} {now : ℚ} {tie : Nat}
    (h : (s.nextDelivery now tie).1 = none) : (s.nextDelivery now tie).2 = s.expire now := by
  unfold nextDelivery at h ⊢
  dsimp only at h ⊢
  cases hdue : (s.expire now).due now tie with
  | none => rfl
  | some e =>
    rw [hdue] at h
    cases h

theorem nextDelivery_subscriptions (s : PushStore) (now : ℚ) (tie : Nat) :
    (s.nextDelivery now tie).2.subscriptions = s.subscriptions := by
  cases h : (s.nextDelivery now tie).1 with
  | none => rw [nextDelivery_none h]; rfl
  | some d => rw [(nextDelivery_some h).2.2.2]; rfl

theorem get_congr {s t : PushStore} (h : s.subscriptions = t.subscriptions) (id : Str) :
    s.get id = t.get id := by
  unfold get
  rw [h]

end PushStore

/-! ## Every step -/

namespace PushService

theorem deliver_control (s : PushService) (w : Nat) (d : Delivery) (now : ℚ) :
    SameControl s (s.deliver w d now) ∨
      Sendable s d ∧ SameControl (s.createTask w d now) (s.deliver w d now) := by
  unfold deliver
  cases hget : s.store.get d.subscriptionId with
  | none => exact Or.inl (s.withStore_control _)
  | some subscription =>
    by_cases h : (s.isCurrent d.epoch && wanted subscription.preferences d.payload.kind) = true
    · obtain ⟨hcurrent, hwanted⟩ := Bool.and_eq_true_iff.mp h
      refine Or.inr ⟨⟨hcurrent, subscription, hget, hwanted⟩, ?_⟩
      dsimp only
      rw [if_pos h]
      exact SameControl.refl _
    · dsimp only
      rw [if_neg h]
      exact Or.inl (s.withStore_control _)

theorem createTask_control {s s' : PushService} (h : SameControl s s') (w : Nat) (d : Delivery)
    (now : ℚ) : SameControl (s.createTask w d now) (s'.createTask w d now) where
  tasks := by
    show s'.tasks ++ _ = s.tasks ++ _
    rw [h.tasks]
  inflight := by
    show s'.inflight ++ [⟨s'.tasks.length, _, _⟩] = s.inflight ++ [⟨s.tasks.length, _, _⟩]
    rw [h.inflight, h.tasks]
  workers := by
    show s'.workers.modify w (fun worker => { worker with stage := .sending s'.tasks.length }) =
      s.workers.modify w fun worker => { worker with stage := .sending s.tasks.length }
    rw [h.workers, h.tasks]
  available := h.available
  epoch := h.epoch

theorem setWorker_control {s s' : PushService} (h : SameControl s s') (w : Nat)
    (stage : WorkerStage) : SameControl (s.setWorker w stage) (s'.setWorker w stage) where
  tasks := h.tasks
  inflight := h.inflight
  workers := by
    show s'.workers.modify w _ = s.workers.modify w _
    rw [h.workers]
  available := h.available
  epoch := h.epoch

theorem work_control (s : PushService) (w : Nat) (now : ℚ) (tie : Nat) :
    ControlStep s (.work w now tie) (s.work w now tie) := by
  unfold work
  cases hw : s.workers[w]? with
  | none => exact .quiet (SameControl.refl s)
  | some worker =>
    obtain ⟨stage, cancelled⟩ := worker
    cases stage with
    | sending i => exact .quiet (SameControl.refl s)
    | ended => exact .quiet (SameControl.refl s)
    | polling =>
      by_cases hstop : (cancelled || !s.available) = true
      · dsimp only
        rw [if_pos hstop]
        exact .left w cancelled hw hstop (SameControl.refl _)
      · dsimp only
        rw [if_neg hstop]
        rw [Bool.or_eq_true, not_or, Bool.not_eq_true, Bool.not_eq_true, Bool.not_eq_false'] at hstop
        obtain ⟨rfl, havailable⟩ := hstop
        have hsame := s.withStore_control (s.store.nextDelivery now tie).2
        have hsubs := PushStore.nextDelivery_subscriptions s.store now tie
        cases hfound : (s.store.nextDelivery now tie).1 with
        | none => exact .quiet hsame
        | some d =>
          rcases deliver_control (s.withStore (s.store.nextDelivery now tie).2) w d now with
            h | ⟨hsend, h⟩
          · exact .quiet (hsame.trans h)
          · refine .claimed w d now tie rfl hw havailable hfound ⟨hsend.current, ?_⟩
              ((createTask_control hsame w d now).trans h)
            obtain ⟨r, hget, hwanted⟩ := hsend.wanted
            exact ⟨r, (PushStore.get_congr hsubs.symm _).trans hget, hwanted⟩

theorem begin_control (s : PushService) (i : Nat) (now : ℚ) :
    ControlStep s (.begin i now) (s.begin i now) := by
  unfold begin
  cases ht : s.tasks[i]? with
  | none => exact .quiet (SameControl.refl s)
  | some t =>
    obtain ⟨d, claimedAt, stage, cancelled⟩ := t
    cases stage with
    | created => exact .begun i now _ rfl ht rfl (SameControl.refl _)
    | running since => exact .quiet (SameControl.refl s)
    | done outcome => exact .quiet (SameControl.refl s)

theorem finishSend_control (s : PushService) (i : Nat) (outcome : Outcome) (now : ℚ) :
    ControlStep s (.finishSend i outcome now) (s.finishSend i outcome) := by
  unfold finishSend
  cases ht : s.tasks[i]? with
  | none => exact .quiet (SameControl.refl s)
  | some t =>
    obtain ⟨d, claimedAt, stage, cancelled⟩ := t
    cases stage with
    | created => exact .quiet (SameControl.refl s)
    | running since => exact .ended i _ outcome now since rfl ht rfl (SameControl.refl _)
    | done outcome => exact .quiet (SameControl.refl s)

theorem resume_control (s : PushService) (w : Nat) (checked retried again : ℚ) :
    ControlStep s (.resume w checked retried again) (s.resume w checked retried again) := by
  unfold resume
  cases hw : s.workers[w]? with
  | none => exact .quiet (SameControl.refl s)
  | some worker =>
    obtain ⟨stage, cancelled⟩ := worker
    cases stage with
    | polling => exact .quiet (SameControl.refl s)
    | ended => exact .quiet (SameControl.refl s)
    | sending i =>
      dsimp only
      cases ht : s.tasks[i]? with
      | none => exact .quiet (SameControl.refl s)
      | some t =>
        obtain ⟨d, claimedAt, stage, requested⟩ := t
        cases stage with
        | created => exact .quiet (SameControl.refl s)
        | running since => exact .quiet (SameControl.refl s)
        | done outcome =>
          refine .resumed w i cancelled _ outcome checked retried again rfl hw ht rfl ?_
          cases cancelled with
          | true => exact SameControl.refl _
          | false => exact setWorker_control (settle_control _ d outcome checked retried again) w _

end PushService

/-! ## The outlook -/

namespace PushService

/-- What only connections and observations change: the processor apart from its tables, and the
    connection. -/
def outlook (s : PushService) : EventProcessor × Option (Str × Nat) :=
  ({ s.processor with store := PushStore.empty }, s.connection)

theorem testRegistered_outlook (s : PushService) (identifier uuid : Str) (now : ℚ) :
    (s.testRegistered identifier uuid now).outlook = s.outlook := by
  unfold testRegistered
  dsimp only
  split
  · rfl
  · split
    · unfold enqueueTest
      split
      · rfl
      · split <;> rfl
    · rfl

theorem deliver_outlook (s : PushService) (w : Nat) (d : Delivery) (now : ℚ) :
    (s.deliver w d now).outlook = s.outlook := by
  unfold deliver
  split
  · rfl
  · split <;> rfl

theorem work_outlook (s : PushService) (w : Nat) (now : ℚ) (tie : Nat) :
    (s.work w now tie).outlook = s.outlook := by
  unfold work
  split
  · split
    · rfl
    · dsimp only
      split
      · rfl
      · exact deliver_outlook _ w _ now
  · rfl

theorem finishOwned_outlook (s : PushService) (d : Delivery) (retryAt : Option ℚ) (now : ℚ) :
    (s.finishOwned d retryAt now).outlook = s.outlook := by
  unfold finishOwned
  split <;> rfl

theorem settle_outlook (s : PushService) (d : Delivery) (outcome : Outcome)
    (checked retried again : ℚ) :
    (s.settle d outcome checked retried again).outlook = s.outlook := by
  unfold settle
  cases outcome with
  | status code =>
    dsimp only
    split
    · rfl
    · split
      · exact finishOwned_outlook _ d none again
      · split
        · exact finishOwned_outlook _ d _ again
        · exact finishOwned_outlook _ d none again
  | invalid => exact finishOwned_outlook _ d none again
  | failed => exact finishOwned_outlook _ d _ again
  | cancelled => exact finishOwned_outlook _ d none again

theorem resume_outlook (s : PushService) (w : Nat) (checked retried again : ℚ) :
    (s.resume w checked retried again).outlook = s.outlook := by
  unfold resume
  split
  · split
    · dsimp only
      split
      · rfl
      · exact settle_outlook _ _ _ checked retried again
    · rfl
  · rfl

end PushService

/-- The steps that connect, observe or fail. -/
def ServiceOp.looks : ServiceOp → Bool
  | .connect _ _ _ _ _ => true
  | .disconnect _ _ _ => true
  | .native _ _ _ _ => true
  | .sample _ _ _ _ _ _ => true
  | .fail => true
  | _ => false

variable (onCurve : List UInt8 → Bool)

/-- **One step.** Nothing else happens to workers, tasks, `inflight` and the epoch. -/
theorem serviceStep_control (s : PushService) (op : ServiceOp) :
    ControlStep s op (serviceStep onCurve s op) := by
  cases op with
  | connect source owner force epoch now =>
    unfold serviceStep PushService.connect
    dsimp only
    split
    · refine .retired epoch now rfl ?_
      split
      · exact ⟨rfl, rfl, rfl, rfl, native_epoch _ [] now true⟩
      · exact ⟨rfl, rfl, rfl, rfl, rfl⟩
    · exact .quiet (SameControl.refl s)
  | disconnect party epoch now =>
    unfold serviceStep PushService.disconnect
    dsimp only
    split
    · exact .retired epoch now rfl ⟨rfl, rfl, rfl, rfl, rfl⟩
    · exact .quiet (SameControl.refl s)
  | register subscription selected now =>
    unfold serviceStep PushService.register
    dsimp only
    split
    · next registered t _ => exact .revoked registered.1 ⟨rfl, rfl, rfl, rfl, rfl⟩
    · exact .quiet (SameControl.refl s)
  | delete endpoint =>
    unfold serviceStep PushService.delete
    dsimp only
    split
    · exact .revoked (PushStore.identifierOf endpoint) ⟨rfl, rfl, rfl, rfl, rfl⟩
    · exact .quiet (SameControl.refl s)
  | test endpoint uuid now => exact .quiet (s.test_control endpoint uuid now)
  | native notifications now prime clock =>
    unfold serviceStep PushService.observeNative
    dsimp only
    split
    · rcases s.queueDetected_control (native s.processor notifications now prime) clock
        (native_epoch _ _ _ _) with h | h
      · exact .quiet h
      · exact .failed h
    · exact .quiet (SameControl.refl s)
  | sample kind identifier value now prime clock =>
    unfold serviceStep PushService.observeSample
    dsimp only
    split
    · rcases s.queueDetected_control ((sample s.processor kind identifier value now prime).1, _)
        (fun _ => clock) (sample_epoch _ _ _ _ _ _) with h | h
      · exact .quiet h
      · exact .failed h
    · exact .quiet (SameControl.refl s)
  | fail => exact .failed (SameControl.refl _)
  | work worker now tie => exact s.work_control worker now tie
  | begin task now => exact s.begin_control task now
  | finishSend task outcome now => exact s.finishSend_control task outcome now
  | resume worker checked retried again => exact s.resume_control worker checked retried again

/-- The other steps leave the outlook alone. -/
theorem serviceStep_outlook (s : PushService) {op : ServiceOp} (h : op.looks = false) :
    (serviceStep onCurve s op).outlook = s.outlook := by
  cases op with
  | connect source owner force epoch now => cases h
  | disconnect party epoch now => cases h
  | native notifications now prime clock => cases h
  | sample kind identifier value now prime clock => cases h
  | fail => cases h
  | register value selected now =>
    show (s.register onCurve value selected now).outlook = s.outlook
    unfold PushService.register
    split <;> rfl
  | delete endpoint =>
    show (s.delete endpoint).outlook = s.outlook
    unfold PushService.delete
    split <;> rfl
  | test endpoint uuid now =>
    show (s.test endpoint uuid now).outlook = s.outlook
    unfold PushService.test
    split
    · split
      · rfl
      · exact s.testRegistered_outlook _ uuid now
    · rfl
  | work worker now tie => exact s.work_outlook worker now tie
  | begin task now =>
    show (s.begin task now).outlook = s.outlook
    unfold PushService.begin
    split <;> rfl
  | finishSend task outcome now =>
    show (s.finishSend task outcome).outlook = s.outlook
    unfold PushService.finishSend
    split <;> rfl
  | resume worker checked retried again => exact s.resume_outlook worker checked retried again

end InverterDashboard.Push
