import Mathlib.Data.List.Find
import InverterDashboard.Push.Control

/-
  Revocation: what no longer goes out after a registration, a deletion or a new epoch.

  The calls delete the pending rows and cancel the tasks that `inflight` lists. A send that begins
  later was claimed from a row queued later, because every task that may still run is listed
  (`Tracked`) and every row of the subscription is new. `revocations_hold` puts this together for
  all runs, with the categories that the latest registration allows.
-/

namespace InverterDashboard.Push

open Python Cerbo Bounded Temporal

/-! ## What is revoked, and what still may run -/

/-- The send has not ended. -/
def SendTask.live (t : SendTask) : Bool :=
  match t.stage with
  | .done _ => false
  | _ => true

/-- The send may still run: it has not ended and was not cancelled. -/
def SendTask.pending (t : SendTask) : Bool := t.live && !t.cancelled

variable (onCurve : List UInt8 → Bool)

/-- What an accepted call of `register` registers. -/
def registration (s : PushService) : ServiceOp → Option (Str × Preferences)
  | .register subscription selected now =>
    (s.registers onCurve subscription selected now).map Prod.fst
  | _ => none

/-- The subscription whose deliveries a step revokes: that of an accepted `register` or `delete`. -/
def revokedId (s : PushService) : ServiceOp → Option Str
  | .register subscription selected now =>
    (registration onCurve s (.register subscription selected now)).map Prod.fst
  | .delete endpoint =>
    if acceptsEndpoint endpoint then some (PushStore.identifierOf endpoint) else none
  | _ => none

/-- Whether a step retires the epoch. -/
def retires (s : PushService) : ServiceOp → Bool
  | .connect source owner force _ _ => s.connects source owner force
  | .disconnect party _ _ => s.disconnects party
  | _ => false

def epochsOf (ops : List ServiceOp) : List Str := ops.filterMap ServiceOp.epoch?

/-- The table has a row for this event and this subscription. -/
def hasRow (s : PushService) (eventId subscriptionId : Str) : Prop :=
  ∃ d ∈ s.store.deliveries, d.eventId = eventId ∧ d.subscriptionId = subscriptionId

/-- A row for this event and this subscription was inserted by one of these steps. -/
def QueuedDuring (s : PushService) (ops : List ServiceOp) (eventId subscriptionId : Str) : Prop :=
  ∃ before op after, ops = before ++ op :: after ∧
    ¬ hasRow (replay (serviceStep onCurve) s before) eventId subscriptionId ∧
    hasRow (serviceStep onCurve (replay (serviceStep onCurve) s before) op) eventId subscriptionId

/-- Preferences after one more step. -/
def updated (id : Str) (before : Option Preferences) (registered : Option (Str × Preferences)) :
    Option Preferences :=
  match registered with
  | some (i, preferences) => if i = id then some preferences else before
  | none => before

/-- The latest registered preferences of a subscription. -/
def latestPreferences (start : PushService) (ops : List ServiceOp) (id : Str) : Option Preferences :=
  (trace (serviceStep onCurve) start ops).foldl
    (fun before x => updated id before (registration onCurve x.1 x.2))
    ((start.store.get id).map Registration.preferences)

/-- Revocations hold in a run. A send begins in a state when the task's turn comes there. -/
structure RevocationsHold (start : PushService) (ops : List ServiceOp) : Prop where
  /-- After `register` or `delete`, every running send to the subscription is cancelled, and every
      later send to it is for a row that was queued after the call. -/
  subscription : ∀ before op after, ops = before ++ op :: after →
    ∀ id ∈ revokedId onCurve (replay (serviceStep onCurve) start before) op,
      (∀ t ∈ (replay (serviceStep onCurve) start (before ++ [op])).tasks,
        t.delivery.subscriptionId = id → t.live = true → t.cancelled = true) ∧
      ∀ i, ∀ t ∈ (replay (serviceStep onCurve) start ops).begins i,
        t.delivery.subscriptionId = id →
        QueuedDuring onCurve (replay (serviceStep onCurve) start (before ++ [op])) after
          t.delivery.eventId id
  /-- After `connect` or `disconnect` retired the epoch, every running send but that of a test is
      cancelled, and no later send is for a row of an earlier epoch. -/
  epoch : ∀ before op after, ops = before ++ op :: after →
    retires (replay (serviceStep onCurve) start before) op = true →
      (∀ t ∈ (replay (serviceStep onCurve) start (before ++ [op])).tasks,
        t.delivery.epoch ≠ PushStore.testEpoch → t.live = true → t.cancelled = true) ∧
      ∀ i, ∀ t ∈ (replay (serviceStep onCurve) start ops).begins i,
        t.delivery.epoch ≠ PushStore.testEpoch →
        t.delivery.epoch ∉ start.processor.epoch :: epochsOf before
  /-- What is sent is a test or of a category that the latest registered preferences allow. -/
  preference : ∀ i, ∀ t ∈ (replay (serviceStep onCurve) start ops).begins i,
    t.delivery.payload.kind = Str.lit "test" ∨
      ∃ p ∈ latestPreferences onCurve start ops t.delivery.subscriptionId,
        p.allows t.delivery.payload.kind = true

/-! ## Tasks that may still run -/

theorem mem_begins {s : PushService} {i : Nat} {t : SendTask} :
    t ∈ s.begins i ↔ s.tasks[i]? = some t ∧ t.stage = .created ∧ t.cancelled = false := by
  unfold PushService.begins
  rw [Option.mem_def, Option.filter_eq_some_iff]
  simp

theorem pending_of_begins {s : PushService} {i : Nat} {t : SendTask} (h : t ∈ s.begins i) :
    s.tasks[i]? = some t ∧ t.pending = true := by
  obtain ⟨ht, hstage, hcancelled⟩ := mem_begins.mp h
  refine ⟨ht, ?_⟩
  unfold SendTask.pending SendTask.live
  rw [hstage, hcancelled]
  rfl

theorem pending_of_uncancelled {t : SendTask} (hlive : t.live = true) (h : ¬ t.cancelled = true) :
    t.pending = true := by
  unfold SendTask.pending
  rw [hlive]
  simpa using h

theorem cancel_pending (t : SendTask) : t.cancel.pending = false := by
  obtain ⟨d, claimedAt, stage, cancelled⟩ := t
  cases stage <;> simp [SendTask.cancel, SendTask.pending, SendTask.live]

/-- A task that survives a cancellation is not listed under it. -/
theorem pending_of_cancelInflight {s : PushService} {p : Inflight → Bool} {i : Nat} {t : SendTask}
    (ht : (s.cancelInflight p).tasks[i]? = some t) (hpending : t.pending = true) :
    s.tasks[i]? = some t ∧ ∀ f ∈ s.inflight, f.task = i → p f = false := by
  unfold PushService.cancelInflight at ht
  rw [List.getElem?_mapIdx] at ht
  obtain ⟨u, hu, hcancel⟩ := Option.map_eq_some_iff.mp ht
  split at hcancel
  · rw [← hcancel, cancel_pending] at hpending
    cases hpending
  · next hnone =>
    obtain rfl := hcancel
    refine ⟨hu, ?_⟩
    intro f hf htask
    rw [Bool.not_eq_true, List.any_eq_false] at hnone
    have hp := hnone f hf
    simpa [htask] using hp

/-- A task that may still run did so before, or was created for a claimed row. -/
theorem pending_step {s s' : PushService} {op : ServiceOp} (h : ControlStep s op s') {i : Nat}
    {t : SendTask} (ht : s'.tasks[i]? = some t) (hpending : t.pending = true) :
    (∃ u, s.tasks[i]? = some u ∧ u.pending = true ∧ u.delivery = t.delivery) ∨
    (i = s.tasks.length ∧ t.delivery ∈ s.store.deliveries ∧ Sendable s t.delivery) := by
  have hkept : ∀ {r : PushService} {j : Nat} {stage : Stage},
      SameControl (r.setStage j stage) s' → r.tasks = s.tasks →
      (∀ u, s.tasks[j]? = some u → u.live = true) →
      ∃ u, s.tasks[i]? = some u ∧ u.pending = true ∧ u.delivery = t.delivery := by
    intro r j stage hsame hr hlive
    rw [hsame.tasks] at ht
    unfold PushService.setStage at ht
    rw [hr, List.getElem?_modify] at ht
    obtain ⟨u, hu, rfl⟩ := Option.map_eq_some_iff.mp ht
    refine ⟨u, hu, ?_, ?_⟩
    · by_cases hij : j = i
      · subst hij
        rw [if_pos rfl] at hpending
        unfold SendTask.pending at hpending ⊢
        rw [hlive u hu]
        exact (Bool.and_eq_true_iff.mp hpending).2
      · rw [if_neg hij] at hpending
        exact hpending
    · split <;> rfl
  cases h with
  | quiet h => exact Or.inl ⟨t, h.tasks ▸ ht, hpending, rfl⟩
  | retired epoch now hop h =>
    rw [h.tasks] at ht
    exact Or.inl ⟨t, (pending_of_cancelInflight ht hpending).1, hpending, rfl⟩
  | revoked id h =>
    rw [h.tasks] at ht
    exact Or.inl ⟨t, (pending_of_cancelInflight ht hpending).1, hpending, rfl⟩
  | failed h =>
    rw [h.tasks] at ht
    exact Or.inl ⟨t, (pending_of_cancelInflight ht hpending).1, hpending, rfl⟩
  | left w cancelled hw hstop h =>
    rw [h.tasks] at ht
    exact Or.inl ⟨t, ht, hpending, rfl⟩
  | claimed w d now tie hop hw havailable hfound hsend h =>
    rw [h.tasks] at ht
    unfold PushService.createTask PushService.setWorker at ht
    dsimp only at ht
    rw [List.getElem?_append] at ht
    split at ht
    · exact Or.inl ⟨t, ht, hpending, rfl⟩
    · next hlt =>
      have hi : i - s.tasks.length = 0 := by
        by_contra hne
        rw [List.getElem?_eq_none (by simp; omega)] at ht
        cases ht
      rw [hi] at ht
      obtain rfl := Option.some.inj ht
      exact Or.inr ⟨by omega, (PushStore.nextDelivery_some hfound).1, hsend⟩
  | begun j now u hop hu hstage h =>
    refine Or.inl (hkept h rfl ?_)
    intro v hv
    rw [hu] at hv
    obtain rfl := Option.some.inj hv
    unfold SendTask.live
    rw [hstage]
  | ended j u outcome now since hop hu hstage h =>
    refine Or.inl (hkept h rfl ?_)
    intro v hv
    rw [hu] at hv
    obtain rfl := Option.some.inj hv
    unfold SendTask.live
    rw [hstage]
  | resumed w j cancelled u outcome checked retried again hop hw hu hstage h =>
    rw [h.tasks] at ht
    exact Or.inl ⟨t, ht, hpending, rfl⟩

/-- Every task that may still run is listed in `inflight`, and its epoch is current. -/
def Tracked (s : PushService) : Prop :=
  ∀ i t, s.tasks[i]? = some t → t.pending = true →
    ⟨i, t.delivery.epoch, t.delivery.subscriptionId⟩ ∈ s.inflight ∧
      s.isCurrent t.delivery.epoch = true

theorem isCurrent_iff {s : PushService} {epoch : Str} :
    s.isCurrent epoch = true ↔ epoch = PushStore.testEpoch ∨ epoch = s.processor.epoch := by
  unfold PushService.isCurrent
  simp

theorem isCurrent_congr {s s' : PushService} (h : s'.processor.epoch = s.processor.epoch)
    (epoch : Str) : s'.isCurrent epoch = s.isCurrent epoch := by
  unfold PushService.isCurrent
  rw [h]

/-- The listed tasks of a revocation no longer may run. -/
theorem Tracked.cancelled {s : PushService} (h : Tracked s) {p : Inflight → Bool} {i : Nat}
    {t : SendTask} (ht : (s.cancelInflight p).tasks[i]? = some t) (hpending : t.pending = true) :
    p ⟨i, t.delivery.epoch, t.delivery.subscriptionId⟩ = false := by
  obtain ⟨hold, hnone⟩ := pending_of_cancelInflight ht hpending
  exact hnone _ (h i t hold hpending).1 rfl

theorem Tracked.step {s s' : PushService} {op : ServiceOp} (hs : Tracked s)
    (h : ControlStep s op s') : Tracked s' := by
  intro i t ht hpending
  -- A task of the old state keeps its entry, unless the step removes it.
  have hkeep : s'.inflight = s.inflight → s'.processor.epoch = s.processor.epoch →
      (∃ u, s.tasks[i]? = some u ∧ u.pending = true ∧ u.delivery = t.delivery) →
      ⟨i, t.delivery.epoch, t.delivery.subscriptionId⟩ ∈ s'.inflight ∧
        s'.isCurrent t.delivery.epoch = true := by
    rintro hinflight hepoch ⟨u, hu, hup, hud⟩
    rw [hinflight, isCurrent_congr hepoch, ← hud]
    exact hs i u hu hup
  have hstep := pending_step h ht hpending
  cases h with
  | quiet h =>
    rw [h.tasks] at ht
    exact hkeep h.inflight h.epoch ⟨t, ht, hpending, rfl⟩
  | retired epoch now hop h =>
    rw [h.tasks] at ht
    obtain ⟨hold, -⟩ := pending_of_cancelInflight ht hpending
    have htest := hs.cancelled ht hpending
    refine ⟨h.inflight ▸ (hs i t hold hpending).1, isCurrent_iff.mpr (Or.inl ?_)⟩
    simpa using htest
  | revoked id h =>
    rw [h.tasks] at ht
    exact hkeep h.inflight h.epoch ⟨t, (pending_of_cancelInflight ht hpending).1, hpending, rfl⟩
  | failed h =>
    rw [h.tasks] at ht
    exact hkeep h.inflight h.epoch ⟨t, (pending_of_cancelInflight ht hpending).1, hpending, rfl⟩
  | left w cancelled hw hstop h =>
    rw [h.tasks] at ht
    exact hkeep h.inflight h.epoch ⟨t, ht, hpending, rfl⟩
  | claimed w d now tie hop hw havailable hfound hsend h =>
    rw [h.inflight, isCurrent_congr h.epoch]
    rcases hstep with ⟨u, hu, hup, hud⟩ | ⟨hi, -, -⟩
    · rw [← hud]
      exact ⟨List.mem_append_left _ (hs i u hu hup).1, (hs i u hu hup).2⟩
    · have htask : t.delivery = d := by
        rw [h.tasks] at ht
        unfold PushService.createTask PushService.setWorker at ht
        dsimp only at ht
        rw [hi, List.getElem?_append_right (le_refl _), Nat.sub_self] at ht
        rw [← Option.some.inj ht]
      rw [htask, hi]
      exact ⟨List.mem_append_right _ List.mem_cons_self, hsend.current⟩
  | begun j now u hop hu hstage h =>
    rcases hstep with hold | ⟨hi, -, -⟩
    · exact hkeep h.inflight h.epoch hold
    · have hlen : s'.tasks.length = s.tasks.length := by
        rw [h.tasks]
        exact List.length_modify _ _ _
      rw [List.getElem?_eq_none (by omega)] at ht
      cases ht
  | ended j u outcome now since hop hu hstage h =>
    rcases hstep with hold | ⟨hi, -, -⟩
    · exact hkeep h.inflight h.epoch hold
    · have hlen : s'.tasks.length = s.tasks.length := by
        rw [h.tasks]
        exact List.length_modify _ _ _
      rw [List.getElem?_eq_none (by omega)] at ht
      cases ht
  | resumed w j cancelled u outcome checked retried again hop hw hu hstage h =>
    rw [h.tasks] at ht
    obtain ⟨hmem, hcurrent⟩ := hs i t ht hpending
    rw [h.inflight, isCurrent_congr h.epoch]
    refine ⟨List.mem_filter.mpr ⟨hmem, ?_⟩, hcurrent⟩
    -- The task that is done is another one.
    have hne : i ≠ j := by
      rintro rfl
      have hu : s.tasks[i]? = some u := hu
      have ht : s.tasks[i]? = some t := ht
      rw [hu] at ht
      obtain rfl := Option.some.inj ht
      unfold SendTask.pending SendTask.live at hpending
      rw [hstage] at hpending
      cases hpending
    simpa using hne

theorem tracked_started (store : PushStore) (epoch : Str) (now : ℚ) :
    Tracked (.started store epoch now) := by
  intro i t ht
  cases ht

theorem tracked_replay {s : PushService} (h : Tracked s) (ops : List ServiceOp) :
    Tracked (replay (serviceStep onCurve) s ops) :=
  replay_invariant _ h (fun s op hs => hs.step (serviceStep_control onCurve s op)) ops

/-! ## Revoking a subscription -/

/-- What an accepted registration does to the tables. -/
theorem register_ok {t t' : PushStore} {subscription : Subscription} {preferences : Preferences}
    {now : ℚ} {identifier : Str}
    (h : t.register subscription preferences now = .ok (identifier, t')) :
    t' = t.registered identifier subscription preferences now := by
  unfold PushStore.register at h
  dsimp only at h
  split at h
  · split at h
    · cases h
    · obtain ⟨rfl, rfl⟩ := Prod.mk.inj (Except.ok.inj h)
      rfl
  · split at h
    · cases h
    · obtain ⟨rfl, rfl⟩ := Prod.mk.inj (Except.ok.inj h)
      rfl

theorem registers_some {s : PushService} {value selected : Value} {now : ℚ} {id : Str}
    {preferences : Preferences} {t : PushStore}
    (h : s.registers onCurve value selected now = some ((id, preferences), t)) :
    ∃ subscription, t = s.store.registered id subscription preferences now := by
  unfold PushService.registers at h
  split at h
  · next subscription preferences' hv hp =>
    split at h
    · next identifier t' hok =>
      obtain ⟨hpair, rfl⟩ := Prod.mk.inj (Option.some.inj h)
      obtain ⟨rfl, rfl⟩ := Prod.mk.inj hpair
      exact ⟨subscription, register_ok hok⟩
    · cases h
  · cases h

/-- A revocation cancels the listed tasks and deletes the rows of the subscription. -/
theorem revoked_step {s : PushService} {op : ServiceOp} {id : Str}
    (h : id ∈ revokedId onCurve s op) :
    SameControl (s.cancelInflight fun f => f.subscriptionId = id) (serviceStep onCurve s op) ∧
      ∀ d ∈ (serviceStep onCurve s op).store.deliveries, d.subscriptionId ≠ id := by
  cases op with
  | register value selected now =>
    obtain ⟨⟨i, preferences⟩, hreg, rfl⟩ := Option.map_eq_some_iff.mp h
    obtain ⟨⟨pair, t⟩, hregisters, rfl⟩ := Option.map_eq_some_iff.mp hreg
    obtain ⟨subscription, ht⟩ := registers_some onCurve hregisters
    show SameControl _ (s.register onCurve value selected now) ∧
      ∀ d ∈ (s.register onCurve value selected now).store.deliveries, _
    unfold PushService.register
    rw [hregisters]
    refine ⟨⟨rfl, rfl, rfl, rfl, rfl⟩, ?_⟩
    intro d hd
    rw [PushService.store_cancelInflight, PushService.store_withStore, ht] at hd
    exact of_decide_eq_true (List.mem_filter.mp hd).2
  | delete endpoint =>
    unfold revokedId at h
    dsimp only at h
    split at h
    · next haccepts =>
      obtain rfl := Option.some.inj h
      show SameControl _ (s.delete endpoint) ∧ ∀ d ∈ (s.delete endpoint).store.deliveries, _
      unfold PushService.delete
      rw [if_pos haccepts]
      refine ⟨⟨rfl, rfl, rfl, rfl, rfl⟩, ?_⟩
      intro d hd
      exact of_decide_eq_true (List.mem_filter.mp hd).2
    · cases h
  | connect _ _ _ _ _ => cases h
  | disconnect _ _ _ => cases h
  | test _ _ _ => cases h
  | native _ _ _ _ => cases h
  | sample _ _ _ _ _ _ => cases h
  | fail => cases h
  | work _ _ _ => cases h
  | begin _ _ => cases h
  | finishSend _ _ _ => cases h
  | resume _ _ _ _ => cases h

theorem QueuedDuring.concat {s : PushService} {ops : List ServiceOp} {eventId id : Str}
    (h : QueuedDuring onCurve s ops eventId id) (op : ServiceOp) :
    QueuedDuring onCurve s (ops ++ [op]) eventId id := by
  obtain ⟨before, op', after, rfl, hno, hyes⟩ := h
  exact ⟨before, op', after ++ [op], by simp, hno, hyes⟩

/-- From a state without rows and without tasks of a subscription, every row and every task that
    may run comes from a row that was queued on the way. -/
theorem queued_replay {s : PushService} {id : Str}
    (hrows : ∀ d ∈ s.store.deliveries, d.subscriptionId ≠ id)
    (htasks : ∀ (i : Nat) (t : SendTask), s.tasks[i]? = some t → t.pending = true →
      t.delivery.subscriptionId ≠ id)
    (ops : List ServiceOp) :
    (∀ d ∈ (replay (serviceStep onCurve) s ops).store.deliveries, d.subscriptionId = id →
      QueuedDuring onCurve s ops d.eventId id) ∧
    ∀ (i : Nat) (t : SendTask), (replay (serviceStep onCurve) s ops).tasks[i]? = some t →
      t.pending = true → t.delivery.subscriptionId = id →
        QueuedDuring onCurve s ops t.delivery.eventId id := by
  refine replay_induction (serviceStep onCurve) (s := s) (I := fun ops r =>
    (∀ d ∈ r.store.deliveries, d.subscriptionId = id → QueuedDuring onCurve s ops d.eventId id) ∧
    ∀ (i : Nat) (t : SendTask), r.tasks[i]? = some t → t.pending = true →
      t.delivery.subscriptionId = id → QueuedDuring onCurve s ops t.delivery.eventId id) ?_ ?_ ops
  · exact ⟨fun d hd hid => absurd hid (hrows d hd),
      fun i t ht hp hid => absurd hid (htasks i t ht hp)⟩
  · intro ops op ⟨ihrows, ihtasks⟩
    refine ⟨?_, ?_⟩
    · intro d hd hid
      by_cases hold : hasRow (replay (serviceStep onCurve) s ops) d.eventId id
      · obtain ⟨e, he, heid, hesub⟩ := hold
        exact heid ▸ (ihrows e he hesub).concat onCurve op
      · exact ⟨ops, op, [], rfl, hold, d, hd, rfl, hid⟩
    · intro i t ht hp hid
      rcases pending_step (serviceStep_control onCurve _ op) ht hp with
        ⟨u, hu, hup, hud⟩ | ⟨-, hmem, -⟩
      · exact hud ▸ (ihtasks i u hu hup (hud ▸ hid)).concat onCurve op
      · exact (ihrows _ hmem hid).concat onCurve op

/-! ## Retiring an epoch -/

theorem retired_step {s : PushService} {op : ServiceOp} (h : retires s op = true) :
    ∃ epoch now, op.epoch? = some epoch ∧
      SameControl (s.retire epoch now) (serviceStep onCurve s op) := by
  cases op with
  | connect source owner force epoch now =>
    refine ⟨epoch, now, rfl, ?_⟩
    show SameControl _ (s.connect source owner force epoch now)
    unfold PushService.connect
    have hconnects : s.connects source owner force = true := h
    rw [if_pos hconnects]
    dsimp only
    split
    · exact ⟨rfl, rfl, rfl, rfl, native_epoch _ [] now true⟩
    · exact ⟨rfl, rfl, rfl, rfl, rfl⟩
  | disconnect party epoch now =>
    refine ⟨epoch, now, rfl, ?_⟩
    show SameControl _ (s.disconnect party epoch now)
    unfold PushService.disconnect
    have hdisconnects : s.disconnects party = true := h
    rw [if_pos hdisconnects]
    exact ⟨rfl, rfl, rfl, rfl, rfl⟩
  | register _ _ _ => cases h
  | delete _ => cases h
  | test _ _ _ => cases h
  | native _ _ _ _ => cases h
  | sample _ _ _ _ _ _ => cases h
  | fail => cases h
  | work _ _ _ => cases h
  | begin _ _ => cases h
  | finishSend _ _ _ => cases h
  | resume _ _ _ _ => cases h

/-- The epoch changes to one that a call brings. -/
theorem epoch_step {s s' : PushService} {op : ServiceOp} (h : ControlStep s op s') :
    s'.processor.epoch = s.processor.epoch ∨ op.epoch? = some s'.processor.epoch := by
  cases h with
  | quiet h => exact Or.inl h.epoch
  | retired epoch now hop h => exact Or.inr (hop.trans (congrArg some h.epoch.symm))
  | revoked id h => exact Or.inl h.epoch
  | failed h => exact Or.inl h.epoch
  | left w cancelled hw hstop h => exact Or.inl h.epoch
  | claimed w d now tie hop hw havailable hfound hsend h => exact Or.inl h.epoch
  | begun j now u hop hu hstage h => exact Or.inl h.epoch
  | ended j u outcome now since hop hu hstage h => exact Or.inl h.epoch
  | resumed w j cancelled u outcome checked retried again hop hw hu hstage h =>
    exact Or.inl h.epoch

theorem epoch_replay (s : PushService) (ops : List ServiceOp) :
    (replay (serviceStep onCurve) s ops).processor.epoch ∈ s.processor.epoch :: epochsOf ops := by
  refine replay_induction (serviceStep onCurve) (s := s)
    (I := fun ops r => r.processor.epoch ∈ s.processor.epoch :: epochsOf ops)
    List.mem_cons_self ?_ ops
  intro ops op ih
  unfold epochsOf at ih ⊢
  rw [List.filterMap_append]
  rcases epoch_step (serviceStep_control onCurve (replay (serviceStep onCurve) s ops) op) with h | h
  · rw [h]
    rcases List.mem_cons.mp ih with hfirst | hlater
    · exact hfirst ▸ List.mem_cons_self
    · exact List.mem_cons_of_mem _ (List.mem_append_left _ hlater)
  · refine List.mem_cons_of_mem _ (List.mem_append_right _ ?_)
    exact List.mem_filterMap.mpr ⟨op, List.mem_cons_self, h⟩

/-! ## Registered preferences -/

/-- No registration appears, and none changes its preferences. -/
def KeepsPreferences (t t' : PushStore) : Prop :=
  ∀ id r', t'.get id = some r' → ∃ r, t.get id = some r ∧ r.preferences = r'.preferences

theorem keepsPreferences_of_eq {t t' : PushStore} (h : t'.subscriptions = t.subscriptions) :
    KeepsPreferences t t' := by
  intro id r' hr
  exact ⟨r', (PushStore.get_congr h id).symm.trans hr, rfl⟩

theorem KeepsPreferences.trans {a b c : PushStore} (h : KeepsPreferences a b)
    (h' : KeepsPreferences b c) : KeepsPreferences a c := by
  intro id r hr
  obtain ⟨q, hq, hqr⟩ := h' id r hr
  obtain ⟨p, hp, hpq⟩ := h id q hq
  exact ⟨p, hp, hpq.trans hqr⟩

theorem enqueue_subscriptions {t t' : PushStore} {eventId : Str} {payload : EventPayload}
    {targets : List Str} {now : ℚ} {epoch : Str} {b : Bool}
    (h : t.enqueue eventId payload targets now epoch = .ok (b, t')) :
    t'.subscriptions = t.subscriptions := by
  unfold PushStore.enqueue at h
  split at h
  · cases h
  · split at h
    · cases h
    · unfold PushStore.reserve at h
      split at h
      · next r hr =>
        obtain ⟨-, rfl⟩ := Prod.mk.inj (Except.ok.inj h)
        exact congrArg (fun o : Bool × PushStore => o.2.subscriptions) hr.symm
      · next r hr =>
        dsimp only at h
        split at h
        · obtain ⟨-, rfl⟩ := Prod.mk.inj (Except.ok.inj h)
          exact congrArg (fun o : Bool × PushStore => o.2.subscriptions) hr.symm
        · cases h

theorem get_id {t : PushStore} {id : Str} {r : Registration} (h : t.get id = some r) : r.id = id := by
  unfold PushStore.get at h
  have hid := List.find?_some h
  exact of_decide_eq_true hid

theorem find?_filter_some {α : Type} {p q : α → Bool} {l : List α} {a : α}
    (hpq : ∀ b, p b = true → q b = q a) (h : (l.filter q).find? p = some a) : l.find? p = some a := by
  rw [List.find?_filter] at h
  have hmem := List.find?_some h
  rw [decide_eq_true_eq] at hmem
  rw [← h]
  refine List.find?_congr ?_
  intro b hb
  cases hp : p b with
  | false => simp
  | true => simp [hpq b hp, hmem.1]

theorem delete_keepsPreferences (t : PushStore) (identifier : Str) :
    KeepsPreferences t (t.delete identifier) := by
  intro id r hr
  refine ⟨r, find?_filter_some ?_ hr, rfl⟩
  intro b hb
  have hid := get_id hr
  rw [decide_eq_true_eq] at hb
  rw [hb, hid]

theorem allowTest_keepsPreferences (t : PushStore) (identifier : Str) (now : ℚ) :
    KeepsPreferences t (t.allowTest identifier now).2 := by
  intro id r hr
  unfold PushStore.get PushStore.allowTest at hr
  dsimp only at hr
  rw [List.find?_map] at hr
  obtain ⟨q, hq, rfl⟩ := Option.map_eq_some_iff.mp hr
  refine ⟨q, ?_, ?_⟩
  · unfold PushStore.get
    rw [← hq]
    refine List.find?_congr ?_
    intro b _
    dsimp only [Function.comp]
    split <;> rfl
  · split <;> rfl

/-- Only a registration changes preferences. -/
theorem storeStep_keepsPreferences (t : PushStore) (op : StoreOp)
    (h : ∀ subscription preferences now, op ≠ .register subscription preferences now) :
    KeepsPreferences t (storeStep t op) := by
  cases op with
  | remember identifier now => exact keepsPreferences_of_eq rfl
  | enqueue eventId payload targets now epoch =>
    unfold storeStep
    dsimp only
    cases henq : t.enqueue eventId payload targets now epoch with
    | error e => exact keepsPreferences_of_eq rfl
    | ok o => exact keepsPreferences_of_eq (enqueue_subscriptions henq)
  | register subscription preferences now => exact absurd rfl (h subscription preferences now)
  | delete identifier => exact delete_keepsPreferences t identifier
  | allowTest identifier now => exact allowTest_keepsPreferences t identifier now
  | hasDeliveryCapacity now => exact keepsPreferences_of_eq rfl
  | retireEpochs epoch => exact keepsPreferences_of_eq rfl
  | nextDelivery now tie =>
    exact keepsPreferences_of_eq (PushStore.nextDelivery_subscriptions t now tie)
  | finish delivery retryAt =>
    refine keepsPreferences_of_eq ?_
    unfold storeStep PushStore.finish
    dsimp only
    split
    · rfl
    · split
      · rfl
      · rfl
  | reopen => exact keepsPreferences_of_eq rfl

theorem replay_keepsPreferences {t : PushStore} {calls : List StoreOp}
    (h : ∀ c ∈ calls, ∀ subscription preferences now, c ≠ .register subscription preferences now) :
    KeepsPreferences t (replay storeStep t calls) := by
  induction calls generalizing t with
  | nil => exact keepsPreferences_of_eq rfl
  | cons c calls ih =>
    exact (storeStep_keepsPreferences t c (h c List.mem_cons_self)).trans
      (ih fun d hd => h d (List.mem_cons_of_mem _ hd))

/-- The preferences of a registered row. -/
theorem get_registered {t : PushStore} {id identifier : Str} {subscription : Subscription}
    {preferences : Preferences} {now : ℚ} {r : Registration}
    (h : (t.registered id subscription preferences now).get identifier = some r) :
    if id = identifier then r.preferences = preferences else t.get identifier = some r := by
  have hid : r.id = identifier := get_id h
  unfold PushStore.get PushStore.registered PushStore.upsert at h
  dsimp only at h
  by_cases hid' : id = identifier
  · rw [if_pos hid']
    subst hid'
    split at h
    · obtain ⟨q, -, hq⟩ := List.mem_map.mp (List.mem_of_find?_eq_some h)
      split at hq
      · rw [← hq]
      · next hne =>
        rw [hq] at hne
        exact absurd hid hne
    · next hnone =>
      rcases List.mem_append.mp (List.mem_of_find?_eq_some h) with hr | hr
      · exact absurd (List.any_eq_true.mpr ⟨r, hr, by simpa using hid⟩) hnone
      · rw [List.mem_singleton.mp hr]
  · rw [if_neg hid']
    unfold PushStore.get
    split at h
    · rw [List.find?_map] at h
      obtain ⟨q, hq, hqr⟩ := Option.map_eq_some_iff.mp h
      have hne : q.id ≠ id := by
        intro hqid
        rw [if_pos hqid] at hqr
        rw [← hqr] at hid
        exact hid' (hqid.symm.trans hid)
      rw [if_neg hne] at hqr
      rw [← hqr, ← hq]
      refine List.find?_congr ?_
      intro b _
      dsimp only [Function.comp]
      split <;> rfl
    · rw [List.find?_append] at h
      cases hold : t.subscriptions.find? (fun row => decide (row.id = identifier)) with
      | some q =>
        rw [hold] at h
        exact h
      | none =>
        rw [hold, Option.none_or] at h
        have hr := List.mem_singleton.mp (List.mem_of_find?_eq_some h)
        rw [hr] at hid
        exact absurd hid hid'

theorem registration_eq {s : PushService} {op : ServiceOp} {pair : Str × Preferences}
    (h : registration onCurve s op = some pair) : revokedId onCurve s op = some pair.1 := by
  cases op with
  | register value selected now => exact congrArg (Option.map Prod.fst) h
  | connect _ _ _ _ _ => cases h
  | disconnect _ _ _ => cases h
  | delete _ => cases h
  | test _ _ _ => cases h
  | native _ _ _ _ => cases h
  | sample _ _ _ _ _ _ => cases h
  | fail => cases h
  | work _ _ _ => cases h
  | begin _ _ => cases h
  | finishSend _ _ _ => cases h
  | resume _ _ _ _ => cases h

/-- The preferences in the table after a step. -/
theorem preferences_step {s : PushService} {op : ServiceOp} {id : Str} {r : Registration}
    (h : (serviceStep onCurve s op).store.get id = some r) :
    updated id ((s.store.get id).map Registration.preferences) (registration onCurve s op) =
      some r.preferences := by
  by_cases hop : ∃ value selected now, op = .register value selected now
  · obtain ⟨value, selected, now, rfl⟩ := hop
    have hstep : (serviceStep onCurve s (.register value selected now)).store =
        (s.register onCurve value selected now).store := rfl
    rw [hstep] at h
    unfold PushService.register at h
    unfold registration
    dsimp only
    cases hregs : s.registers onCurve value selected now with
    | none =>
      rw [hregs] at h
      rw [h]
      rfl
    | some o =>
      obtain ⟨⟨i, preferences⟩, t⟩ := o
      rw [hregs] at h
      obtain ⟨subscription, ht⟩ := registers_some onCurve hregs
      rw [PushService.store_cancelInflight, PushService.store_withStore, ht] at h
      have hget := get_registered h
      show (if i = id then some preferences else _) = _
      by_cases hi : i = id
      · rw [if_pos hi] at hget ⊢
        rw [hget]
      · rw [if_neg hi] at hget ⊢
        rw [hget]
        rfl
  · have hcalls : ∀ c ∈ storeCalls onCurve s op, ∀ subscription preferences now,
        c ≠ .register subscription preferences now := by
      rintro c hc subscription preferences now rfl
      cases mem_storeCalls onCurve hc with
      | register value selected _ _ _ hop' _ _ => exact hop ⟨value, selected, now, hop'⟩
    have hnone : registration onCurve s op = none := by
      cases op with
      | register value selected now => exact absurd ⟨value, selected, now, rfl⟩ hop
      | _ => rfl
    rw [serviceStep_store] at h
    obtain ⟨q, hq, hqr⟩ := replay_keepsPreferences hcalls id r h
    rw [hnone, hq]
    exact congrArg some hqr

theorem latestPreferences_concat (start : PushService) (ops : List ServiceOp) (op : ServiceOp)
    (id : Str) : latestPreferences onCurve start (ops ++ [op]) id =
      updated id (latestPreferences onCurve start ops id)
        (registration onCurve (replay (serviceStep onCurve) start ops) op) := by
  unfold latestPreferences
  rw [trace_concat, List.foldl_append]
  rfl

theorem updated_of_ne {id : Str} {before : Option Preferences}
    {registered : Option (Str × Preferences)}
    (h : ∀ preferences, registered ≠ some (id, preferences)) :
    updated id before registered = before := by
  cases registered with
  | none => rfl
  | some pair =>
    obtain ⟨i, preferences⟩ := pair
    have hne : i ≠ id := by
      rintro rfl
      exact h preferences rfl
    exact if_neg hne

/-- Every row has the latest preferences, and every task that may run is allowed by them. -/
theorem governed_replay {start : PushService} (htracked : Tracked start)
    (htasks : start.tasks = []) (ops : List ServiceOp) :
    (∀ id r, (replay (serviceStep onCurve) start ops).store.get id = some r →
      latestPreferences onCurve start ops id = some r.preferences) ∧
    ∀ (i : Nat) (t : SendTask), (replay (serviceStep onCurve) start ops).tasks[i]? = some t →
      t.pending = true → t.delivery.payload.kind = Str.lit "test" ∨
        ∃ p ∈ latestPreferences onCurve start ops t.delivery.subscriptionId,
          p.allows t.delivery.payload.kind = true := by
  induction ops using List.reverseRecOn with
  | nil =>
    refine ⟨?_, ?_⟩
    · intro id r hr
      exact congrArg (Option.map Registration.preferences) hr
    · intro i t ht
      rw [replay_nil, htasks] at ht
      cases ht
  | append_singleton ops op ih =>
    obtain ⟨ihrows, ihtasks⟩ := ih
    have htr := tracked_replay onCurve htracked ops
    have hlatest := latestPreferences_concat onCurve start ops op
    rw [replay_append, replay_singleton]
    refine ⟨?_, ?_⟩
    · intro id r hr
      rw [hlatest, ← preferences_step onCurve hr]
      cases hold : (replay (serviceStep onCurve) start ops).store.get id with
      | some q => rw [ihrows id q hold]; rfl
      | none =>
        have hnow := preferences_step onCurve hr
        rw [hold] at hnow
        -- Only its own registration gives an identifier a row.
        cases hreg : registration onCurve (replay (serviceStep onCurve) start ops) op with
        | none =>
          rw [hreg] at hnow
          cases hnow
        | some pair =>
          obtain ⟨i, preferences⟩ := pair
          rw [hreg] at hnow
          by_cases hi : i = id
          · exact (if_pos hi).trans (if_pos hi).symm
          · exact absurd ((if_neg hi).symm.trans hnow) (by simp)
    · intro i t ht hp
      have hother : ∀ preferences,
          registration onCurve (replay (serviceStep onCurve) start ops) op ≠
            some (t.delivery.subscriptionId, preferences) := by
        intro preferences hreg
        obtain ⟨hsame, -⟩ := revoked_step onCurve (registration_eq onCurve hreg)
        rw [hsame.tasks] at ht
        have := htr.cancelled ht hp
        simp at this
      rw [hlatest, updated_of_ne hother]
      rcases pending_step (serviceStep_control onCurve _ op) ht hp with
        ⟨u, hu, hup, hud⟩ | ⟨-, -, hsend⟩
      · exact hud ▸ ihtasks i u hu hup
      · obtain ⟨r, hget, hwanted⟩ := hsend.wanted
        unfold PushService.wanted at hwanted
        rcases Bool.or_eq_true_iff.mp hwanted with h | h
        · exact Or.inl (of_decide_eq_true h)
        · exact Or.inr ⟨r.preferences, ihrows _ r hget, h⟩

/-! ## All runs -/

/-- **Revocations.** In every run from a store, with a new epoch at each connection, nothing that
    a call revoked is sent later, and nothing is sent that the latest preferences exclude. -/
theorem revocations_hold (store : PushStore) (epoch : Str) (now : ℚ) (ops : List ServiceOp)
    (hepochs : (epoch :: epochsOf ops).Nodup) :
    RevocationsHold onCurve (.started store epoch now) ops := by
  have htracked := tracked_started store epoch now
  refine ⟨?_, ?_, ?_⟩
  · rintro before op after rfl id hid
    have htr := tracked_replay onCurve htracked before
    obtain ⟨hsame, hrows⟩ := revoked_step onCurve hid
    rw [← replay_singleton (serviceStep onCurve), ← replay_append] at hsame hrows
    -- The pending tasks right after the call are those of other subscriptions.
    have hnone : ∀ (i : Nat) (t : SendTask),
        (replay (serviceStep onCurve) (.started store epoch now) (before ++ [op])).tasks[i]? = some t →
        t.pending = true → t.delivery.subscriptionId ≠ id := by
      intro i t ht hp
      rw [hsame.tasks] at ht
      have := htr.cancelled ht hp
      simpa using this
    refine ⟨?_, ?_⟩
    · intro t ht hsub hlive
      obtain ⟨i, hi⟩ := List.mem_iff_getElem?.mp ht
      by_contra hcancelled
      exact hnone i t hi (pending_of_uncancelled hlive hcancelled) hsub
    · intro i t ht hsub
      obtain ⟨hget, hp⟩ := pending_of_begins ht
      rw [show before ++ op :: after = (before ++ [op]) ++ after by simp, replay_append] at hget
      exact (queued_replay onCurve hrows hnone after).2 i t hget hp hsub
  · rintro before op after rfl hretires
    have htr := tracked_replay onCurve htracked before
    obtain ⟨new, time, hnew, hsame⟩ := retired_step onCurve hretires
    rw [← replay_singleton (serviceStep onCurve), ← replay_append] at hsame
    refine ⟨?_, ?_⟩
    · intro t ht htest hlive
      obtain ⟨i, hi⟩ := List.mem_iff_getElem?.mp ht
      by_contra hcancelled
      rw [hsame.tasks] at hi
      have := htr.cancelled hi (pending_of_uncancelled hlive hcancelled)
      simp [htest] at this
    · intro i t ht htest hearlier
      obtain ⟨hget, hp⟩ := pending_of_begins ht
      have hcurrent := (tracked_replay onCurve htracked (before ++ op :: after) i t hget hp).2
      have hepoch := (isCurrent_iff.mp hcurrent).resolve_left htest
      -- The current epoch is the one of the call or a later one.
      have hlater := epoch_replay onCurve
        (replay (serviceStep onCurve) (.started store epoch now) (before ++ [op])) after
      rw [← replay_append, List.append_assoc, List.singleton_append, ← hepoch, hsame.epoch] at hlater
      have hsplit : epoch :: epochsOf (before ++ op :: after) =
          (epoch :: epochsOf before) ++ (new :: epochsOf after) := by
        unfold epochsOf
        rw [List.filterMap_append, List.filterMap_cons, hnew]
        rfl
      rw [hsplit] at hepochs
      exact List.disjoint_of_nodup_append hepochs hearlier hlater
  · intro i t ht
    obtain ⟨hget, hp⟩ := pending_of_begins ht
    exact (governed_replay onCurve htracked rfl ops).2 i t hget hp

/-- A subscription in its stored form. -/
def browser : Subscription where
  endpoint := Str.lit "https://fcm.googleapis.com/a"
  p256dh := List.replicate 87 (char 'A')
  auth := List.replicate 22 (char 'A')

/-- A browser registers, an event is queued and claimed, and the browser unregisters before the
    send task has its turn. -/
def unregisteredInTime : List ServiceOp :=
  [.connect (Str.lit "mqtt") 0 false (Str.lit "first") 1000,
   .register browser.value Preferences.default.value 1001,
   .native [⟨Str.lit "n", Str.lit "Grid lost", [], .none, .str (Str.lit "alarm"),
     .str (Str.lit "1970-01-01T00:16:42+00:00")⟩] 1002 false (fun _ => 1002),
   .work 0 1003 0,
   .delete browser.endpoint,
   .begin 0 1004,
   .disconnect none (Str.lit "second") 1005]

/-- Nothing revoked is sent in that run. -/
theorem revocations_hold_unregistered :
    RevocationsHold (fun _ => true) (.started .empty (Str.lit "start") 999) unregisteredInTime :=
  revocations_hold _ _ _ _ _ (by decide)

end InverterDashboard.Push
