import InverterDashboard.Push.Revocation

/-
  Rows: what the calls of a step and the outcomes of sends do to the table of deliveries.

  Rows are compared by their keys. While no identity is pruned, a call that queues inserts rows
  of identities that were not known, so a key that was used before is not used again (`Intake`);
  an outcome leaves the table alone, removes the row it owns or sets it up for another try
  (`Settled`).
-/

namespace InverterDashboard.Push

open Python Cerbo Bounded Temporal

/-- The primary key of a delivery. -/
def Delivery.row (d : Delivery) : Str × Str := (d.eventId, d.subscriptionId)

/-- No call evicts an identity that was recorded before or is recorded by it. -/
def KeepsIdentities (x : PushStore × StoreOp) : Prop :=
  (∀ id ∈ x.1.eventIds, id ∈ (storeStep x.1 x.2).eventIds) ∧
    ∀ id, x.2.identity? = some id → answer x.1 x.2 = some true → id ∈ (storeStep x.1 x.2).eventIds

/-! ## Rows under the calls of a step -/

/-- What a call leaves in the table: old rows, and new ones that are untried, of an epoch that is
    `ok`, and of an identity that was not known. -/
structure Intake (ok : Str → Prop) (t t' : PushStore) : Prop where
  rows : ∀ d ∈ t'.deliveries, d ∈ t.deliveries ∨
    d.attempts = 0 ∧ ok d.epoch ∧ d.eventId ∉ t.eventIds ∧ d.eventId ∈ t'.eventIds
  keys : (t.deliveries.map Delivery.row).Nodup → (t'.deliveries.map Delivery.row).Nodup
  known : t.eventIds ⊆ t'.eventIds

theorem Intake.of_sublist {ok : Str → Prop} {t t' : PushStore}
    (hrows : t'.deliveries.Sublist t.deliveries) (hids : t'.eventIds = t.eventIds) :
    Intake ok t t' where
  rows := fun _ hd => Or.inl (hrows.subset hd)
  keys := fun h => h.sublist (hrows.map Delivery.row)
  known := fun _ hid => hids ▸ hid

theorem Intake.refl (ok : Str → Prop) (t : PushStore) : Intake ok t t :=
  .of_sublist (List.Sublist.refl _) rfl

theorem Intake.trans {ok : Str → Prop} {a b c : PushStore} (h : Intake ok a b)
    (h' : Intake ok b c) : Intake ok a c where
  rows := by
    intro d hd
    rcases h'.rows d hd with hd | ⟨hattempts, hepoch, hnew, hknown⟩
    · rcases h.rows d hd with hd | ⟨hattempts, hepoch, hnew, hknown⟩
      · exact Or.inl hd
      · exact Or.inr ⟨hattempts, hepoch, hnew, h'.known hknown⟩
    · exact Or.inr ⟨hattempts, hepoch, fun hid => hnew (h.known hid), hknown⟩
  keys := fun hkeys => h'.keys (h.keys hkeys)
  known := fun _ hid => h'.known (h.known hid)

theorem isFor_iff {eventId id : Str} {d : Delivery} :
    d.isFor eventId id = true ↔ d.row = (eventId, id) := by
  unfold Delivery.isFor Delivery.row
  simp

theorem insertDeliveries_rows (rows : List Delivery) (eventId : Str) (payload : EventPayload)
    (now : ℚ) (epoch : Str) (targets : List Str) :
    (∀ d ∈ PushStore.insertDeliveries rows eventId payload now epoch targets, d ∈ rows ∨
      d.attempts = 0 ∧ d.epoch = epoch ∧ d.eventId = eventId) ∧
    ((rows.map Delivery.row).Nodup →
      ((PushStore.insertDeliveries rows eventId payload now epoch targets).map
        Delivery.row).Nodup) := by
  unfold PushStore.insertDeliveries
  induction targets generalizing rows with
  | nil => exact ⟨fun d hd => Or.inl hd, fun h => h⟩
  | cons target targets ih =>
    rw [List.foldl_cons]
    generalize hone : PushStore.insertDelivery rows
      (PushStore.newDelivery eventId payload now epoch target) = rows'
    obtain ⟨ihrows, ihkeys⟩ := ih rows'
    have hinsert : (∀ d ∈ rows', d ∈ rows ∨ d.attempts = 0 ∧ d.epoch = epoch ∧ d.eventId = eventId) ∧
        ((rows.map Delivery.row).Nodup → (rows'.map Delivery.row).Nodup) := by
      rw [← hone]
      unfold PushStore.insertDelivery
      split
      · exact ⟨fun d hd => Or.inl hd, fun h => h⟩
      · next hno =>
        refine ⟨?_, ?_⟩
        · intro d hd
          rcases List.mem_append.mp hd with hd | hd
          · exact Or.inl hd
          · rw [List.mem_singleton.mp hd]
            exact Or.inr ⟨rfl, rfl, rfl⟩
        · intro h
          rw [List.map_append, List.nodup_append]
          refine ⟨h, List.nodup_singleton _, ?_⟩
          rintro key hkey _ hnew rfl
          rw [List.map_singleton, List.mem_singleton] at hnew
          obtain ⟨d, hd, rfl⟩ := List.mem_map.mp hkey
          exact hno (List.any_eq_true.mpr ⟨d, hd, isFor_iff.mpr hnew⟩)
    refine ⟨?_, fun h => ihkeys (hinsert.2 h)⟩
    intro d hd
    rcases ihrows d hd with hd | hnew
    · exact hinsert.1 d hd
    · exact Or.inr hnew

/-- What a call of `enqueue` that returns leaves in the table: no new row, or rows for targets that
    are registered and for which there is room. -/
theorem enqueue_ok {t t' : PushStore} {eventId : Str} {payload : EventPayload} {targets : List Str}
    {now : ℚ} {epoch : Str} {b : Bool}
    (h : t.enqueue eventId payload targets now epoch = .ok (b, t')) :
    (∃ size, payload.size? = some size ∧ size ≤ maxPayloadBytes) ∧
    ((b = false ∧ t'.deliveries = (t.expire now).deliveries) ∨
    (b = true ∧ eventId ∉ t.eventIds ∧ ∃ within : List Str,
      (∀ id ∈ within, (t.get id).isSome) ∧
      within.length ≤ maxDeliveries - (t.expire now).deliveries.length ∧ t'.deliveries =
        PushStore.insertDeliveries (t.expire now).deliveries eventId payload now epoch within)) := by
  unfold PushStore.enqueue at h
  split at h
  · cases h
  · next size hsize =>
    split at h
    · cases h
    · next hfits =>
      refine ⟨⟨size, hsize, Nat.le_of_not_lt hfits⟩, ?_⟩
      unfold PushStore.reserve at h
      have hfst := remember_fst (t.expire now) eventId now
      split at h
      · next r hr =>
        obtain ⟨rfl, rfl⟩ := Prod.mk.inj (Except.ok.inj h)
        refine Or.inl ⟨rfl, ?_⟩
        exact congrArg (fun o : Bool × PushStore => o.2.deliveries) hr.symm
      · next r hr =>
        dsimp only at h
        have hrows : r.deliveries = (t.expire now).deliveries :=
          congrArg (fun o : Bool × PushStore => o.2.deliveries) hr.symm
        have hsubs : r.subscriptions = t.subscriptions :=
          congrArg (fun o : Bool × PushStore => o.2.subscriptions) hr.symm
        rw [hr, eventIds_expire] at hfst
        split at h
        · next hall =>
          obtain ⟨rfl, rfl⟩ := Prod.mk.inj (Except.ok.inj h)
          refine Or.inr ⟨rfl, of_decide_eq_true hfst.symm, r.targetsWithin targets, ?_, ?_, ?_⟩
          · intro id hid
            rw [← PushStore.get_congr hsubs]
            exact List.all_eq_true.mp hall id hid
          · rw [← hrows]
            exact List.length_take_le _ _
          · dsimp only
            rw [hrows]
        · cases h

/-- The calls that neither claim nor retry a row, and insert rows of epochs that are `ok`. -/
def intakes (ok : Str → Prop) : StoreOp → Prop
  | .enqueue _ _ _ _ epoch => ok epoch
  | .nextDelivery _ _ => False
  | .finish _ retryAt => retryAt = none
  | _ => True

theorem intake_call {ok : Str → Prop} {t : PushStore} {c : StoreOp} (hc : intakes ok c)
    (hkeeps : KeepsIdentities (t, c)) : Intake ok t (storeStep t c) := by
  obtain ⟨hknown, hnew⟩ := hkeeps
  cases c with
  | remember identifier now =>
    exact ⟨fun d hd => Or.inl hd, fun h => h, fun id hid => hknown id hid⟩
  | enqueue eventId payload targets now e =>
    have hok : ok e := hc
    unfold storeStep at hknown hnew ⊢
    dsimp only at hknown hnew ⊢
    cases henq : t.enqueue eventId payload targets now e with
    | error err => exact Intake.refl ok t
    | ok o =>
      obtain ⟨b, t'⟩ := o
      rw [henq] at hknown hnew
      obtain ⟨-, ⟨rfl, hrows⟩ | ⟨rfl, hunknown, within, -, -, hrows⟩⟩ := enqueue_ok henq
      · refine ⟨?_, ?_, fun id hid => hknown id hid⟩
        · intro d hd
          rw [show (committed t (.ok (false, t'))).deliveries = t'.deliveries from rfl, hrows] at hd
          exact Or.inl ((sublist_expire t now).subset hd)
        · intro h
          rw [show (committed t (.ok (false, t'))).deliveries = t'.deliveries from rfl, hrows]
          exact h.sublist ((sublist_expire t now).map Delivery.row)
      · have hans : answer t (.enqueue eventId payload targets now e) = some true := by
          unfold answer
          dsimp only
          rw [henq]
          rfl
        obtain ⟨hins, hkeys⟩ := insertDeliveries_rows (t.expire now).deliveries eventId payload now e
          within
        refine ⟨?_, ?_, fun id hid => hknown id hid⟩
        · intro d hd
          rw [show (committed t (.ok (true, t'))).deliveries = t'.deliveries from rfl, hrows] at hd
          rcases hins d hd with hd | ⟨hattempts, hepoch, hid⟩
          · exact Or.inl ((sublist_expire t now).subset hd)
          · refine Or.inr ⟨hattempts, hepoch ▸ hok, hid ▸ hunknown, ?_⟩
            rw [hid]
            exact hnew eventId rfl hans
        · intro h
          rw [show (committed t (.ok (true, t'))).deliveries = t'.deliveries from rfl, hrows]
          exact hkeys (h.sublist ((sublist_expire t now).map Delivery.row))
  | register subscription preferences now =>
    unfold storeStep
    dsimp only
    cases hreg : t.register subscription preferences now with
    | error err => exact Intake.refl ok t
    | ok o =>
      obtain ⟨id, t'⟩ := o
      rw [show committed t (.ok (id, t')) = t' from rfl, register_ok hreg]
      exact .of_sublist List.filter_sublist rfl
  | delete identifier => exact .of_sublist List.filter_sublist rfl
  | allowTest identifier now => exact .of_sublist (List.Sublist.refl _) rfl
  | hasDeliveryCapacity now => exact .of_sublist (sublist_expire t now) rfl
  | retireEpochs e => exact .of_sublist List.filter_sublist rfl
  | nextDelivery now tie => exact absurd hc id
  | finish delivery retryAt =>
    obtain rfl : retryAt = none := hc
    exact .of_sublist List.filter_sublist rfl
  | reopen => exact Intake.refl ok t

theorem intake_replay {ok : Str → Prop} {t : PushStore} {calls : List StoreOp}
    (hcalls : ∀ c ∈ calls, intakes ok c) (hkeeps : ∀ y ∈ trace storeStep t calls, KeepsIdentities y) :
    Intake ok t (replay storeStep t calls) := by
  induction calls generalizing t with
  | nil => exact Intake.refl ok t
  | cons c calls ih =>
    exact (intake_call (hcalls c List.mem_cons_self) (hkeeps _ List.mem_cons_self)).trans
      (ih (fun d hd => hcalls d (List.mem_cons_of_mem _ hd))
        fun y hy => hkeeps y (List.mem_cons_of_mem _ hy))

/-! ## Outcomes -/

/-- What an outcome does to the tables: nothing, because the row is not owned; it removes the row;
    or it sets the row up for another try. -/
inductive Settled (s : PushService) (d : Delivery) (checked again : ℚ) (t' : PushStore) : Prop where
  | unowned (hstore : t' = s.store) (howns : s.owns d checked = false ∨ s.owns d again = false)
  | removed (howns : ∃ time ∈ [checked, again], s.owns d time = true)
      (hrows : t'.deliveries.Sublist s.store.deliveries) (hids : t'.eventIds = s.store.eventIds)
      (hgone : ∀ e ∈ t'.deliveries, e.row ≠ d.row)
  | retried (howns : ∃ time ∈ [checked, again], s.owns d time = true) (hattempts : d.attempts < 2)
      (time : ℚ) (hstore : t' = s.store.finish d (some time))

theorem finish_none_rows (t : PushStore) (d : Delivery) :
    ∀ e ∈ (t.finish d none).deliveries, e.row ≠ d.row := by
  intro e he hrow
  obtain ⟨-, hne⟩ := List.mem_filter.mp he
  rw [isFor_iff.mpr (show e.row = (d.eventId, d.subscriptionId) from hrow)] at hne
  cases hne

theorem finishOwned_settled (s : PushService) (d : Delivery) (retryAt : Option ℚ)
    (checked again : ℚ) :
    Settled s d checked again (s.finishOwned d retryAt again).store := by
  unfold PushService.finishOwned
  cases howns : s.owns d again with
  | false =>
    rw [if_neg (by simp)]
    exact .unowned rfl (Or.inr howns)
  | true =>
    rw [if_pos rfl, PushService.store_withStore]
    have howned : ∃ time ∈ [checked, again], s.owns d time = true := ⟨again, by simp, howns⟩
    cases retryAt with
    | none => exact .removed howned List.filter_sublist rfl (finish_none_rows s.store d)
    | some time =>
      by_cases hattempts : 2 ≤ d.attempts
      · have hfinish : s.store.finish d (some time) = s.store.finish d none := by
          unfold PushStore.finish
          exact if_pos hattempts
        rw [hfinish]
        exact .removed howned List.filter_sublist rfl (finish_none_rows s.store d)
      · exact .retried howned (by omega) time rfl

/-- A row is gone with its subscription. -/
theorem ownsDelivery_delete (t : PushStore) (d : Delivery) (now : ℚ) :
    (t.delete d.subscriptionId).ownsDelivery d now = false := by
  unfold PushStore.ownsDelivery PushStore.delete
  dsimp only
  split
  · rfl
  · next row hrow =>
    obtain ⟨-, hsub⟩ := List.mem_filter.mp (List.mem_of_find?_eq_some hrow)
    have hkey := isFor_iff.mp (List.find?_some hrow)
    have : row.subscriptionId = d.subscriptionId := congrArg Prod.snd hkey
    simp [this] at hsub

theorem settle_settled (s : PushService) (d : Delivery) (outcome : Outcome)
    (checked retried again : ℚ) :
    Settled s d checked again (s.settle d outcome checked retried again).store := by
  unfold PushService.settle
  dsimp only
  cases outcome with
  | status code =>
    dsimp only
    cases howns : s.owns d checked with
    | false =>
      rw [if_pos (by simp)]
      exact .unowned rfl (Or.inl howns)
    | true =>
      rw [if_neg (by simp)]
      split
      · -- The subscription is gone, so the second check finds no row.
        have hnot : (s.withStore (s.store.delete d.subscriptionId)).owns d again = false := by
          unfold PushService.owns
          rw [PushService.store_withStore, ownsDelivery_delete, Bool.and_false]
        unfold PushService.finishOwned
        rw [hnot, if_neg (by simp), PushService.store_withStore]
        refine .removed ⟨checked, by simp, howns⟩ List.filter_sublist rfl ?_
        intro e he hrow
        obtain ⟨-, hsub⟩ := List.mem_filter.mp he
        have : e.subscriptionId = d.subscriptionId := congrArg Prod.snd hrow
        simp [this] at hsub
      · split
        · exact finishOwned_settled s d _ checked again
        · exact finishOwned_settled s d none checked again
  | invalid => exact finishOwned_settled s d none checked again
  | failed => exact finishOwned_settled s d _ checked again
  | cancelled => exact finishOwned_settled s d none checked again

/-- The entries of `inflight` play no part. -/
theorem Settled.of_inflight {s : PushService} {entries : List Inflight} {d : Delivery}
    {checked again : ℚ} {t' : PushStore}
    (h : Settled { s with inflight := entries } d checked again t') :
    Settled s d checked again t' := by
  cases h with
  | unowned hstore howns => exact .unowned hstore howns
  | removed howns hrows hids hgone => exact .removed howns hrows hids hgone
  | retried howns hattempts time hstore => exact .retried howns hattempts time hstore

/-- What ownership says about the table. -/
theorem owns_iff {s : PushService} {d : Delivery} {now : ℚ}
    (hkeys : (s.store.deliveries.map Delivery.row).Nodup) :
    s.owns d now = true ↔ s.available = true ∧ s.isCurrent d.epoch = true ∧
      ∃ e ∈ s.store.deliveries, e.row = d.row ∧ e.epoch = d.epoch ∧ e.attempts = d.attempts ∧
        now < e.expiresAt := by
  unfold PushService.owns PushStore.ownsDelivery
  rw [Bool.and_eq_true, Bool.and_eq_true, and_assoc]
  refine and_congr Iff.rfl (and_congr Iff.rfl ?_)
  cases hfind : s.store.deliveries.find? (Delivery.isFor d.eventId d.subscriptionId) with
  | none =>
    constructor
    · intro h
      cases h
    · rintro ⟨e, he, hrow, -⟩
      exact absurd (isFor_iff.mpr hrow) (List.find?_eq_none.mp hfind e he)
  | some row =>
    have hmem := List.mem_of_find?_eq_some hfind
    have hkey : row.row = d.row := isFor_iff.mp (List.find?_some hfind)
    dsimp only
    rw [Bool.and_eq_true, Bool.and_eq_true, decide_eq_true_eq, decide_eq_true_eq, decide_eq_true_eq,
      and_assoc]
    constructor
    · rintro ⟨hepoch, hattempts, hnow⟩
      exact ⟨row, hmem, hkey, hepoch, hattempts, hnow⟩
    · rintro ⟨e, he, hrow, hepoch, hattempts, hnow⟩
      obtain rfl := List.inj_on_of_nodup_map hkeys he hmem (hrow.trans hkey.symm)
      exact ⟨hepoch, hattempts, hnow⟩

end InverterDashboard.Push
