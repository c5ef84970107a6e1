import Mathlib.Tactic.Linarith
import InverterDashboard.Push.Revocation

/-
  One registration over whole runs: what becomes of the row of an endpoint.

  Three calls touch it: an accepted registration, its deletion, and a test that is due. From what
  they do, `registered_iff` reads the answer of `registered` off the history of a run.
-/

namespace InverterDashboard.Push

open Python Cerbo Bounded Temporal

variable (onCurve : List UInt8 → Bool)

/-! ## The row of an identifier -/

/-- Whether a call writes the table of subscriptions. -/
def writesSubscriptions : StoreOp → Bool
  | .register _ _ _ => true
  | .delete _ => true
  | .allowTest _ _ => true
  | _ => false

theorem storeStep_subscriptions (t : PushStore) {call : StoreOp}
    (h : writesSubscriptions call = false) : (storeStep t call).subscriptions = t.subscriptions := by
  cases call with
  | register subscription preferences now => cases h
  | delete identifier => cases h
  | allowTest identifier now => cases h
  | enqueue eventId payload targets now epoch =>
    unfold storeStep
    dsimp only
    cases henq : t.enqueue eventId payload targets now epoch with
    | error e => rfl
    | ok o => exact enqueue_subscriptions henq
  | nextDelivery now tie => exact PushStore.nextDelivery_subscriptions t now tie
  | finish delivery retryAt =>
    unfold storeStep PushStore.finish
    dsimp only
    split
    · rfl
    · split
      · rfl
      · rfl
  | remember identifier now => rfl
  | hasDeliveryCapacity now => rfl
  | retireEpochs epoch => rfl
  | reopen => rfl

/-- What a call other than a registration or a deletion leaves of a row. -/
def tested (call : StoreOp) (row : Registration) : Registration :=
  match call with
  | .allowTest identifier now =>
    if row.id = identifier && decide (row.lastTestAt ≤ now - 60) then { row with lastTestAt := now }
    else row
  | _ => row

theorem tested_preferences (call : StoreOp) (row : Registration) :
    (tested call row).preferences = row.preferences := by
  unfold tested
  split
  · split <;> rfl
  · rfl

/-- A test that is due is later than the last one. -/
theorem le_tested (call : StoreOp) (row : Registration) :
    row.lastTestAt ≤ (tested call row).lastTestAt := by
  unfold tested
  split
  · split
    · next now h =>
      rw [Bool.and_eq_true, decide_eq_true_eq, decide_eq_true_eq] at h
      exact h.2.trans (sub_le_self now (by norm_num))
    · exact le_refl _
  · exact le_refl _

theorem find?_map_id {rows : List Registration} {f : Registration → Registration}
    (hf : ∀ r, (f r).id = r.id) (id : Str) :
    (rows.map f).find? (·.id = id) = (rows.find? (·.id = id)).map f := by
  rw [List.find?_map]
  congr 2
  funext r
  exact congrArg (fun i => decide (i = id)) (hf r)

theorem get_storeStep (t : PushStore) {call : StoreOp} {id : Str} (hdelete : call ≠ .delete id)
    (hregister : ∀ subscription preferences now, call ≠ .register subscription preferences now) :
    (storeStep t call).get id = (t.get id).map (tested call) := by
  cases hwrites : writesSubscriptions call with
  | false =>
    have hsame : tested call = fun row => row := by
      funext row
      cases call <;> first | rfl | cases hwrites
    rw [hsame, Option.map_id', PushStore.get_congr (storeStep_subscriptions t hwrites)]
  | true =>
    cases call with
    | register subscription preferences now => exact absurd rfl (hregister _ _ now)
    | delete identifier =>
      have hne : identifier ≠ id := fun h => hdelete (congrArg StoreOp.delete h)
      refine Eq.trans ?_ Option.map_id'.symm
      unfold storeStep PushStore.delete PushStore.get
      dsimp only
      rw [List.find?_filter]
      refine List.find?_congr ?_
      intro r _
      by_cases hid : r.id = id
      · simp [hid, hne.symm]
      · simp [hid]
    | allowTest identifier now =>
      refine find?_map_id ?_ id
      intro r
      split <;> rfl
    | _ => cases hwrites

theorem get_delete (t : PushStore) (id : Str) : (t.delete id).get id = none := by
  unfold PushStore.get PushStore.delete
  dsimp only
  rw [List.find?_eq_none]
  intro r hr
  have hne := (List.mem_filter.mp hr).2
  simpa using hne

/-- The row of an accepted registration keeps the time of its last test. -/
theorem get_registered_eq (t : PushStore) (identifier id : Str) (subscription : Subscription)
    (preferences : Preferences) (now : ℚ) :
    (t.registered identifier subscription preferences now).get id =
      if identifier = id then
        some ⟨id, subscription, preferences, now, ((t.get id).map Registration.lastTestAt).getD 0⟩
      else t.get id := by
  unfold PushStore.registered PushStore.upsert PushStore.get
  dsimp only
  split
  · next hknown =>
    rw [find?_map_id (fun r => by split <;> rfl)]
    split
    · next hid =>
      subst hid
      cases hfind : t.subscriptions.find? (·.id = identifier) with
      | none =>
        obtain ⟨r, hr, hid⟩ := List.any_eq_true.mp hknown
        exact absurd hid (List.find?_eq_none.mp hfind r hr)
      | some r =>
        have hid : r.id = identifier := get_id hfind
        simp [hid]
    · next hid =>
      cases hfind : t.subscriptions.find? (·.id = id) with
      | none => rfl
      | some r =>
        have hrow : r.id = id := get_id hfind
        have hne : r.id ≠ identifier := fun h => hid (h.symm.trans hrow)
        simp [hne]
  · next hunknown =>
    rw [List.find?_append]
    split
    · next hid =>
      subst hid
      have hnone : t.subscriptions.find? (·.id = identifier) = none := by
        rw [List.find?_eq_none]
        intro r hr hid
        exact hunknown (List.any_eq_true.mpr ⟨r, hr, hid⟩)
      simp [hnone]
    · next hid => simp [hid]

/-- Identifiers are the primary key. -/
def UniqueIds (t : PushStore) : Prop := (t.subscriptions.map Registration.id).Nodup

theorem upsert_unique {rows : List Registration} (h : (rows.map Registration.id).Nodup)
    (identifier : Str) (subscription : Subscription) (preferences : Preferences) (now : ℚ) :
    ((PushStore.upsert rows identifier subscription preferences now).map Registration.id).Nodup := by
  unfold PushStore.upsert
  split
  · rw [List.map_map]
    have hid : Registration.id ∘ (fun row : Registration =>
        if row.id = identifier then
          { row with subscription := subscription, preferences := preferences, updatedAt := now }
        else row) = Registration.id := by
      funext row
      dsimp only [Function.comp]
      split <;> rfl
    rw [hid]
    exact h
  · next hunknown =>
    rw [List.map_append, List.nodup_append]
    refine ⟨h, List.nodup_singleton _, ?_⟩
    rintro a ha b hb rfl
    obtain ⟨r, hr, rfl⟩ := List.mem_map.mp ha
    refine hunknown (List.any_eq_true.mpr ⟨r, hr, ?_⟩)
    simpa using hb

theorem storeStep_unique {t : PushStore} (h : UniqueIds t) (call : StoreOp) :
    UniqueIds (storeStep t call) := by
  cases hwrites : writesSubscriptions call with
  | false =>
    unfold UniqueIds
    rw [storeStep_subscriptions t hwrites]
    exact h
  | true =>
    cases call with
    | register subscription preferences now =>
      unfold storeStep
      dsimp only
      cases hreg : t.register subscription preferences now with
      | error e => exact h
      | ok o =>
        obtain ⟨id, t'⟩ := o
        rw [show committed t (.ok (id, t')) = t' from rfl, register_ok hreg]
        exact upsert_unique h id subscription preferences now
    | delete identifier => exact h.sublist (List.filter_sublist.map _)
    | allowTest identifier now =>
      unfold UniqueIds storeStep PushStore.allowTest
      dsimp only
      rw [List.map_map]
      refine Eq.mp (congrArg List.Nodup (List.map_congr_left ?_)) h
      intro r _
      dsimp only [Function.comp]
      split <;> rfl
    | _ => cases hwrites

theorem unique_replay {s : PushService} (h : UniqueIds s.store) (ops : List ServiceOp) :
    UniqueIds (replay (serviceStep onCurve) s ops).store := by
  refine replay_invariant (I := fun s => UniqueIds s.store) (serviceStep onCurve) h ?_ ops
  intro s op hs
  rw [serviceStep_store]
  exact replay_invariant storeStep hs (fun t call ht => storeStep_unique ht call) _

/-! ## The row after a step -/

/-- What the calls of a step leave of a row that none of them deletes. -/
def testedBy (calls : List StoreOp) (row : Registration) : Registration :=
  calls.foldl (fun row call => tested call row) row

theorem testedBy_preferences (calls : List StoreOp) (row : Registration) :
    (testedBy calls row).preferences = row.preferences := by
  induction calls generalizing row with
  | nil => rfl
  | cons call calls ih => exact (ih (tested call row)).trans (tested_preferences call row)

theorem le_testedBy (calls : List StoreOp) (row : Registration) :
    row.lastTestAt ≤ (testedBy calls row).lastTestAt := by
  induction calls generalizing row with
  | nil => exact le_refl _
  | cons call calls ih => exact (le_tested call row).trans (ih (tested call row))

section Calls

variable {t : PushStore} {calls : List StoreOp} {id : Str}
  (hregister : ∀ c ∈ calls, ∀ subscription preferences now,
    c ≠ .register subscription preferences now)

include hregister

theorem get_replay (hdelete : StoreOp.delete id ∉ calls) :
    (replay storeStep t calls).get id = (t.get id).map (testedBy calls) := by
  induction calls generalizing t with
  | nil => exact Option.map_id'.symm
  | cons call calls ih =>
    rw [List.mem_cons, not_or] at hdelete
    have hrest := ih (t := storeStep t call) (fun c hc => hregister c (List.mem_cons_of_mem _ hc))
      hdelete.2
    refine hrest.trans ?_
    rw [get_storeStep t (Ne.symm hdelete.1) (hregister call List.mem_cons_self), Option.map_map]
    rfl

theorem get_replay_none (h : t.get id = none ∨ StoreOp.delete id ∈ calls) :
    (replay storeStep t calls).get id = none := by
  induction calls generalizing t with
  | nil => exact h.resolve_right List.not_mem_nil
  | cons call calls ih =>
    refine ih (t := storeStep t call) (fun c hc => hregister c (List.mem_cons_of_mem _ hc)) ?_
    by_cases hcall : call = .delete id
    · exact Or.inl (hcall ▸ get_delete t id)
    · rcases h with h | h
      · rw [get_storeStep t hcall (hregister call List.mem_cons_self), h]
        exact Or.inl rfl
      · exact Or.inr ((List.mem_cons.mp h).resolve_left (Ne.symm hcall))

end Calls

/-- Neither an accepted registration of an identifier nor its deletion. -/
def Untouched (id : Str) (x : PushService × ServiceOp) : Prop :=
  (∀ preferences, registration onCurve x.1 x.2 ≠ some (id, preferences)) ∧
    StoreOp.delete id ∉ storeCalls onCurve x.1 x.2

variable {onCurve} {s : PushService} {op : ServiceOp} {id : Str}

/-- Only a registration calls `register`. -/
theorem not_register_of_ne (h : ∀ value selected now, op ≠ .register value selected now) :
    ∀ c ∈ storeCalls onCurve s op, ∀ subscription preferences now,
      c ≠ .register subscription preferences now := by
  rintro c hc subscription preferences now rfl
  cases mem_storeCalls onCurve hc with
  | register value selected _ _ _ hop _ _ => exact h value selected now hop

theorem get_of_registration {preferences : Preferences}
    (h : registration onCurve s op = some (id, preferences)) :
    ∃ subscription now, (serviceStep onCurve s op).store.get id = some ⟨id, subscription,
      preferences, now, ((s.store.get id).map Registration.lastTestAt).getD 0⟩ := by
  cases op with
  | register value selected now =>
    obtain ⟨⟨pair, t⟩, hregisters, hpair⟩ := Option.map_eq_some_iff.mp h
    obtain rfl : pair = (id, preferences) := hpair
    obtain ⟨subscription, ht⟩ := registers_some onCurve hregisters
    refine ⟨subscription, now, ?_⟩
    unfold serviceStep PushService.register
    dsimp only
    rw [hregisters]
    dsimp only
    rw [PushService.store_cancelInflight, PushService.store_withStore, ht, get_registered_eq,
      if_pos rfl]
  | _ => cases h

theorem register_deletes_nothing (value selected : Value) (now : ℚ) :
    StoreOp.delete id ∉ storeCalls onCurve s (.register value selected now) := by
  intro h
  unfold storeCalls at h
  dsimp only at h
  split at h
  · cases List.mem_singleton.mp h
  · cases h

theorem get_of_deleted (h : StoreOp.delete id ∈ storeCalls onCurve s op) :
    (serviceStep onCurve s op).store.get id = none := by
  rw [serviceStep_store]
  refine get_replay_none (not_register_of_ne ?_) (Or.inr h)
  rintro value selected now rfl
  exact register_deletes_nothing value selected now h

/-- What else happens to a row are tests. -/
theorem get_of_untouched (h : Untouched onCurve id (s, op)) :
    ∃ calls, (serviceStep onCurve s op).store.get id = (s.store.get id).map (testedBy calls) := by
  by_cases hop : ∃ value selected now, op = .register value selected now
  · obtain ⟨value, selected, now, rfl⟩ := hop
    refine ⟨[], Eq.trans ?_ Option.map_id'.symm⟩
    unfold serviceStep PushService.register
    dsimp only
    cases hregisters : s.registers onCurve value selected now with
    | none => rfl
    | some o =>
      obtain ⟨⟨identifier, preferences⟩, t⟩ := o
      have hne : identifier ≠ id := by
        rintro rfl
        exact h.1 preferences (congrArg (Option.map Prod.fst) hregisters)
      obtain ⟨subscription, ht⟩ := registers_some onCurve hregisters
      dsimp only
      rw [PushService.store_cancelInflight, PushService.store_withStore, ht, get_registered_eq,
        if_neg hne]
  · refine ⟨storeCalls onCurve s op, ?_⟩
    rw [serviceStep_store]
    exact get_replay (not_register_of_ne fun value selected now h => hop ⟨value, selected, now, h⟩)
      h.2

/-- **What `registered` answers.** It is what the run last said about the endpoint: the
    preferences of an accepted registration, after which the row was not deleted, or those of the
    row at the start if the run did not touch it. -/
theorem registered_iff (store : PushStore) (id : Str) (epoch : Str) (start : ℚ)
    (ops : List ServiceOp) (preferences : Preferences) :
    ((replay (serviceStep onCurve) (.started store epoch start) ops).store.get id).map
        Registration.preferences = some preferences ↔
      Since (Untouched onCurve id) (fun x => registration onCurve x.1 x.2 = some (id, preferences))
          (trace (serviceStep onCurve) (.started store epoch start) ops) ∨
        (store.get id).map Registration.preferences = some preferences ∧
          ∀ x ∈ trace (serviceStep onCurve) (.started store epoch start) ops,
            Untouched onCurve id x := by
  induction ops using List.reverseRecOn with
  | nil =>
    have hstart : (PushService.started store epoch start).store.get id = store.get id := rfl
    rw [replay_nil, hstart]
    refine ⟨fun h => Or.inr ⟨h, fun x hx => nomatch hx⟩, fun h => ?_⟩
    exact h.elim (fun hsince => absurd hsince not_since_nil) And.left
  | append_singleton ops op ih =>
    rw [replay_append, replay_singleton, trace_concat, since_concat, List.forall_mem_append,
      List.forall_mem_singleton]
    generalize replay (serviceStep onCurve) (.started store epoch start) ops = s at ih ⊢
    by_cases hregistered : ∃ p, registration onCurve s op = some (id, p)
    · obtain ⟨p, hp⟩ := hregistered
      obtain ⟨subscription, now, hget⟩ := get_of_registration hp
      rw [hget, hp]
      have hno : ¬ Untouched onCurve id (s, op) := fun h => h.1 p hp
      simp [hno]
    · by_cases hdeleted : StoreOp.delete id ∈ storeCalls onCurve s op
      · have hno : ¬ Untouched onCurve id (s, op) := fun h => h.2 hdeleted
        have hnot : registration onCurve s op ≠ some (id, preferences) :=
          fun h => hregistered ⟨preferences, h⟩
        rw [get_of_deleted hdeleted]
        simp [hno, hnot]
      · have huntouched : Untouched onCurve id (s, op) :=
          ⟨fun p hp => hregistered ⟨p, hp⟩, hdeleted⟩
        obtain ⟨calls, hget⟩ := get_of_untouched huntouched
        have hsame : Registration.preferences ∘ testedBy calls = Registration.preferences := by
          funext row
          exact testedBy_preferences calls row
        rw [hget, Option.map_map, hsame, ih]
        have hnot : registration onCurve s op ≠ some (id, preferences) := huntouched.1 preferences
        simp [hnot, huntouched]

end InverterDashboard.Push
