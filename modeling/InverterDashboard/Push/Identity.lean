import InverterDashboard.Push.Store

/-
  How long a reserved event identity suppresses its repetition.

  `_remember` inserts and then keeps the 4096 identities with the latest times, so what goes is
  chosen by the clock and not by the order of the calls. A history of calls keeps every identity
  for 4096 later ones exactly when each call that records into a full table evicts the identity
  recorded first (`reservations_last_iff`). A clock that steps back breaks this: the new identity
  itself is evicted while the call returns `True`.
-/

namespace InverterDashboard.Push

open Python Cerbo Bounded Temporal

/-! ## The order of event identities -/

theorem leText_antisymm {a b : Str} (hab : leText a b) (hba : leText b a) : a = b := by
  induction a generalizing b with
  | nil =>
    cases b with
    | nil => rfl
    | cons y t => cases hba
  | cons x s ih =>
    cases b with
    | nil => cases hab
    | cons y t =>
      simp only [leText, Bool.or_eq_true, Bool.and_eq_true, decide_eq_true_eq] at hab hba
      rcases hab with h | ⟨rfl, h⟩
      · rcases hba with h' | ⟨rfl, -⟩
        · exact absurd (lt_trans h h') (lt_irrefl _)
        · exact absurd h (lt_irrefl _)
      · rcases hba with h' | ⟨-, h'⟩
        · exact absurd h' (lt_irrefl _)
        · rw [ih h h']

theorem ranked_iff {a b : EventRow} :
    ranked a b ↔ b.observedAt < a.observedAt ∨ a.observedAt = b.observedAt ∧ leText b.id a.id := by
  simp [ranked, EventRow.before]

instance : Std.Total ranked where
  total := by
    intro a b
    rw [ranked_iff, ranked_iff]
    rcases lt_trichotomy a.observedAt b.observedAt with h | h | h
    · exact Or.inr (Or.inl h)
    · rcases leText_total a.id b.id with hid | hid
      · exact Or.inr (Or.inr ⟨h.symm, hid⟩)
      · exact Or.inl (Or.inr ⟨h, hid⟩)
    · exact Or.inl (Or.inl h)

instance : IsTrans EventRow ranked where
  trans := by
    intro a b c hab hbc
    rw [ranked_iff] at hab hbc ⊢
    rcases hab with h | ⟨h, hid⟩
    · rcases hbc with h' | ⟨h', -⟩
      · exact Or.inl (lt_trans h' h)
      · exact Or.inl (h' ▸ h)
    · rcases hbc with h' | ⟨h', hid'⟩
      · exact Or.inl (h.symm ▸ h')
      · exact Or.inr ⟨h.trans h', leText_trans hid' hid⟩

instance : Std.Antisymm ranked where
  antisymm := by
    intro a b hab hba
    rw [ranked_iff] at hab hba
    rcases hab with h | ⟨h, hid⟩
    · rcases hba with h' | ⟨h', -⟩
      · exact absurd (lt_trans h h') (lt_irrefl _)
      · exact absurd h (h' ▸ lt_irrefl _)
    · rcases hba with h' | ⟨-, hid'⟩
      · exact absurd h' (h ▸ lt_irrefl _)
      · obtain ⟨ia, ta⟩ := a
        obtain ⟨ib, tb⟩ := b
        rw [EventRow.mk.injEq]
        exact ⟨leText_antisymm hid' hid, h⟩

/-! ## Histories of a store -/

inductive StoreOp where
  | remember (identifier : Str) (now : ℚ)
  | enqueue (eventId : Str) (payload : EventPayload) (targets : List Str) (now : ℚ) (epoch : Str)
  | register (subscription : Subscription) (preferences : Preferences) (now : ℚ)
  | delete (identifier : Str)
  | allowTest (identifier : Str) (now : ℚ)
  | hasDeliveryCapacity (now : ℚ)
  | retireEpochs (epoch : Str)
  | nextDelivery (now : ℚ) (tie : Nat)
  | finish (delivery : Delivery) (retryAt : Option ℚ)
  /-- The process ends and the database is opened again. -/
  | reopen

/-- The tables after a transaction, which may have been rolled back. -/
def committed {α : Type} (s : PushStore) : Except StoreError (α × PushStore) → PushStore
  | .ok (_, s) => s
  | .error _ => s

def storeStep (s : PushStore) : StoreOp → PushStore
  | .remember identifier now => (s.remember identifier now).2
  | .enqueue eventId payload targets now epoch =>
    committed s (s.enqueue eventId payload targets now epoch)
  | .register subscription preferences now => committed s (s.register subscription preferences now)
  | .delete identifier => s.delete identifier
  | .allowTest identifier now => (s.allowTest identifier now).2
  | .hasDeliveryCapacity now => (s.hasDeliveryCapacity now).2
  | .retireEpochs epoch => s.retireEpochs epoch
  | .nextDelivery now tie => (s.nextDelivery now tie).2
  | .finish delivery retryAt => s.finish delivery retryAt
  | .reopen => s

/-- The identity a `remember` or `enqueue` call is for. -/
def StoreOp.identity? : StoreOp → Option Str
  | .remember identifier _ => some identifier
  | .enqueue eventId _ _ _ _ => some eventId
  | _ => none

/-- What a `remember` or `enqueue` call returns, unless it raises. -/
def answer (s : PushStore) : StoreOp → Option Bool
  | .remember identifier now => some (s.remember identifier now).1
  | .enqueue eventId payload targets now epoch =>
    (s.enqueue eventId payload targets now epoch).toOption.map Prod.fst
  | _ => none

/-- The identities for which the calls of a history returned `True`. -/
def reservedIds (s : PushStore) (ops : List StoreOp) : List Str :=
  (trace storeStep s ops).filterMap fun x =>
    if answer x.1 x.2 = some true then x.2.identity? else none

/-- A call for a reserved identity returns `False`, unless it raises, and queues nothing. -/
def Suppresses (s : PushStore) (identity : Str) : Prop :=
  ∀ op : StoreOp, op.identity? = some identity →
    answer s op ≠ some true ∧ (storeStep s op).deliveries.Sublist s.deliveries

/-- Whenever a call for an identity returned `True`, the identity is in the table and is
    suppressed from then on, until 4096 other identities have been reserved after it. -/
def ReservationsLast (ops : List StoreOp) : Prop :=
  ∀ before op after rest, ops = before ++ op :: (after ++ rest) →
    ∀ identity, op.identity? = some identity →
      answer (replay storeStep .empty before) op = some true →
      ((reservedIds (replay storeStep .empty (before ++ [op])) after).filter
        (· ≠ identity)).dedup.length < maxEvents →
      identity ∈ (replay storeStep .empty (before ++ op :: after)).eventIds ∧
        Suppresses (replay storeStep .empty (before ++ op :: after)) identity

/-- The row that a call inserts when its identity is new: an `enqueue` also needs a payload that
    fits and targets that are registered. -/
def insertedRow (s : PushStore) : StoreOp → Option EventRow
  | .remember identifier now => some ⟨identifier, now⟩
  | .enqueue eventId payload targets now _ =>
    if payload.size?.any (· ≤ maxPayloadBytes) &&
        (decide (eventId ∈ s.eventIds) ||
          ((s.expire now).targetsWithin targets).all fun t => (s.get t).isSome) then
      some ⟨eventId, now⟩
    else none
  | _ => none

/-- A new identity that meets a full table ranks, by time and then by text, above the identity
    recorded first, and so do all the others. -/
def EvictsEarliest (x : PushStore × StoreOp) : Prop :=
  ∀ row ∈ insertedRow x.1 x.2, row.id ∉ x.1.eventIds → x.1.events.length = maxEvents →
    ∀ earliest ∈ x.1.events.head?, ∀ other ∈ x.1.events ++ [row], ranked other earliest

/-! ## The table of identities is a journal -/

theorem remember_fst (s : PushStore) (identifier : Str) (now : ℚ) :
    (s.remember identifier now).1 = decide (identifier ∉ s.eventIds) := rfl

theorem eventIds_expire (s : PushStore) (now : ℚ) : (s.expire now).eventIds = s.eventIds := rfl

/-- What `enqueue` does: it raises and nothing is inserted, its identity is known, or it is
    new. -/
theorem enqueue_cases (s : PushStore) (eventId : Str) (payload : EventPayload)
    (targets : List Str) (now : ℚ) (epoch : Str) :
    let op := StoreOp.enqueue eventId payload targets now epoch
    (insertedRow s op = none ∧ (s.enqueue eventId payload targets now epoch).toOption = none) ∨
    (insertedRow s op = some ⟨eventId, now⟩ ∧ eventId ∈ s.eventIds ∧
      s.enqueue eventId payload targets now epoch =
        .ok (false, ((s.expire now).remember eventId now).2)) ∨
    (insertedRow s op = some ⟨eventId, now⟩ ∧ eventId ∉ s.eventIds ∧
      ∃ t : PushStore, t.events = ((s.expire now).remember eventId now).2.events ∧
        s.enqueue eventId payload targets now epoch = .ok (true, t)) := by
  intro op
  cases hsize : payload.size? with
  | none => exact Or.inl ⟨by simp [op, insertedRow, hsize], by simp [PushStore.enqueue, hsize,
      Except.toOption]⟩
  | some size =>
    by_cases hbig : maxPayloadBytes < size
    · refine Or.inl ⟨?_, by simp [PushStore.enqueue, hsize, hbig, Except.toOption]⟩
      have : ¬ size ≤ maxPayloadBytes := by omega
      simp [op, insertedRow, hsize, this]
    · have hfits : size ≤ maxPayloadBytes := by omega
      have hreserve : s.enqueue eventId payload targets now epoch =
          s.reserve eventId payload targets now epoch := by
        unfold PushStore.enqueue
        rw [hsize]
        simp [hbig]
      rw [hreserve]
      unfold PushStore.reserve
      by_cases hknown : eventId ∈ s.eventIds
      · refine Or.inr (Or.inl ⟨by simp [op, insertedRow, hsize, hfits, hknown], hknown, ?_⟩)
        have hfalse : ((s.expire now).remember eventId now).1 = false := by
          rw [remember_fst, eventIds_expire]
          simpa using hknown
        generalize (s.expire now).remember eventId now = o at hfalse ⊢
        obtain ⟨b, t⟩ := o
        obtain rfl : b = false := hfalse
        rfl
      · have htrue : ((s.expire now).remember eventId now).1 = true := by
          rw [remember_fst, eventIds_expire]
          simpa using hknown
        have hsame : ((s.expire now).remember eventId now).2.subscriptions = s.subscriptions ∧
            ((s.expire now).remember eventId now).2.deliveries = (s.expire now).deliveries :=
          ⟨rfl, rfl⟩
        generalize (s.expire now).remember eventId now = o at htrue hsame ⊢
        obtain ⟨b, t⟩ := o
        obtain rfl : b = true := htrue
        obtain ⟨hsubs, hdeliveries⟩ := hsame
        dsimp only at hsubs hdeliveries ⊢
        have htargets : t.targetsWithin targets = (s.expire now).targetsWithin targets := by
          unfold PushStore.targetsWithin
          rw [hdeliveries]
        have hget : ∀ id, t.get id = s.get id := by
          intro id
          unfold PushStore.get
          rw [hsubs]
        by_cases hall : ((s.expire now).targetsWithin targets).all fun t => (s.get t).isSome
        · refine Or.inr (Or.inr ⟨by simp [op, insertedRow, hsize, hfits, hall], hknown, ?_⟩)
          simp only [htargets, hget, hall, if_true]
          exact ⟨{ t with
            deliveries := PushStore.insertDeliveries t.deliveries eventId payload now epoch
              ((s.expire now).targetsWithin targets) }, rfl, rfl⟩
        · refine Or.inl ⟨by simp [op, insertedRow, hsize, hfits, hall, hknown], ?_⟩
          simp only [htargets, hget, hall]
          rfl

/-- Every call changes the identities by one recording at most. -/
theorem store_records :
    Records storeStep PushStore.events insertedRow ranked maxEvents EventRow.id := by
  intro s op
  cases op with
  | remember identifier now => rfl
  | enqueue eventId payload targets now epoch =>
    rcases enqueue_cases s eventId payload targets now epoch with
      ⟨hrow, herror⟩ | ⟨hrow, -, hok⟩ | ⟨hrow, -, t, ht, hok⟩
    · rw [hrow]
      unfold storeStep
      dsimp only
      cases h : s.enqueue eventId payload targets now epoch with
      | ok o =>
        rw [h] at herror
        cases herror
      | error e => rfl
    · rw [hrow]
      unfold storeStep
      dsimp only
      rw [hok]
      rfl
    · rw [hrow]
      unfold storeStep
      dsimp only
      rw [hok]
      exact ht
  | register subscription preferences now =>
    show (committed s (s.register subscription preferences now)).events = s.events
    unfold PushStore.register
    dsimp only
    split
    · split
      · rfl
      · rfl
    · split
      · rfl
      · rfl
  | delete identifier => rfl
  | allowTest identifier now => rfl
  | hasDeliveryCapacity now => rfl
  | retireEpochs epoch => rfl
  | nextDelivery now tie =>
    show (s.nextDelivery now tie).2.events = s.events
    unfold PushStore.nextDelivery
    dsimp only
    split
    · rfl
    · rfl
  | finish delivery retryAt =>
    show (s.finish delivery retryAt).events = s.events
    unfold PushStore.finish
    dsimp only
    split
    · rfl
    · split
      · rfl
      · rfl
  | reopen => rfl

theorem identity_of_insertedRow {s : PushStore} {op : StoreOp} {row : EventRow}
    (h : insertedRow s op = some row) : op.identity? = some row.id := by
  cases op with
  | remember identifier now =>
    obtain rfl := Option.some.inj h
    rfl
  | enqueue eventId payload targets now epoch =>
    unfold insertedRow at h
    dsimp only at h
    split at h
    · obtain rfl := Option.some.inj h
      rfl
    · cases h
  | register _ _ _ => cases h
  | delete _ => cases h
  | allowTest _ _ => cases h
  | hasDeliveryCapacity _ => cases h
  | retireEpochs _ => cases h
  | nextDelivery _ _ => cases h
  | finish _ _ => cases h
  | reopen => cases h

/-- A call that inserts a row answers whether its identity is new; any other answers nothing. -/
theorem answer_eq (s : PushStore) (op : StoreOp) :
    answer s op = (insertedRow s op).map fun row => decide (row.id ∉ s.eventIds) := by
  cases op with
  | remember identifier now => rfl
  | enqueue eventId payload targets now epoch =>
    unfold answer
    dsimp only
    rcases enqueue_cases s eventId payload targets now epoch with
      ⟨hrow, herror⟩ | ⟨hrow, hknown, hok⟩ | ⟨hrow, hnew, t, -, hok⟩
    · rw [hrow, herror]
      rfl
    · rw [hrow, hok]
      simp [Except.toOption, hknown]
    · rw [hrow, hok]
      simp [Except.toOption, hnew]
  | register _ _ _ => rfl
  | delete _ => rfl
  | allowTest _ _ => rfl
  | hasDeliveryCapacity _ => rfl
  | retireEpochs _ => rfl
  | nextDelivery _ _ => rfl
  | finish _ _ => rfl
  | reopen => rfl

/-- A call returns `True` exactly when it records its identity. -/
theorem reserves_iff (s : PushStore) (op : StoreOp) (identity : Str) :
    (op.identity? = some identity ∧ answer s op = some true) ↔
      ∃ row ∈ recorded PushStore.events insertedRow EventRow.id (s, op), row.id = identity := by
  rw [answer_eq]
  constructor
  · rintro ⟨hid, hans⟩
    obtain ⟨row, hrow, hnew⟩ := Option.map_eq_some_iff.mp hans
    have hrid := identity_of_insertedRow hrow
    rw [hid] at hrid
    exact ⟨row, mem_recorded.mpr ⟨hrow, of_decide_eq_true hnew⟩, (Option.some.inj hrid).symm⟩
  · rintro ⟨row, hmem, rfl⟩
    obtain ⟨hrow, hnew⟩ := mem_recorded.mp hmem
    dsimp only at hrow hnew
    refine ⟨identity_of_insertedRow hrow, ?_⟩
    rw [hrow]
    exact congrArg some (decide_eq_true hnew)

theorem reservedIds_eq (s : PushStore) (ops : List StoreOp) :
    reservedIds s ops =
      (recordings storeStep PushStore.events insertedRow EventRow.id s ops).map EventRow.id := by
  unfold reservedIds recordings
  rw [List.map_filterMap]
  refine List.filterMap_congr ?_
  rintro ⟨t, op⟩ -
  dsimp only
  cases hrec : recorded PushStore.events insertedRow EventRow.id (t, op) with
  | none =>
    rw [if_neg]
    · rfl
    · intro hans
      obtain ⟨row, hrow, -⟩ := Option.map_eq_some_iff.mp (answer_eq t op ▸ hans)
      obtain ⟨row', hmem, -⟩ :=
        (reserves_iff t op row.id).mp ⟨identity_of_insertedRow hrow, hans⟩
      rw [hrec] at hmem
      cases hmem
  | some row =>
    obtain ⟨hid, hans⟩ := (reserves_iff t op row.id).mpr ⟨row, hrec, rfl⟩
    rw [if_pos hans, hid]
    rfl

/-! ## Suppression -/

theorem sublist_expire (s : PushStore) (now : ℚ) :
    (s.expire now).deliveries.Sublist s.deliveries := List.filter_sublist

/-- An identity in the table is suppressed. -/
theorem suppresses_of_mem {s : PushStore} {identity : Str} (h : identity ∈ s.eventIds) :
    Suppresses s identity := by
  intro op hop
  refine ⟨?_, ?_⟩
  · intro hans
    obtain ⟨row, hmem, rfl⟩ := (reserves_iff s op identity).mp ⟨hop, hans⟩
    exact (mem_recorded.mp hmem).2 h
  · cases op with
    | remember identifier now => exact List.Sublist.refl _
    | enqueue eventId payload targets now epoch =>
      obtain rfl := Option.some.inj hop
      unfold storeStep
      dsimp only
      rcases enqueue_cases s eventId payload targets now epoch with
        ⟨-, herror⟩ | ⟨-, -, hok⟩ | ⟨-, hnew, -⟩
      · cases h : s.enqueue eventId payload targets now epoch with
        | ok o =>
          rw [h] at herror
          cases herror
        | error e => exact List.Sublist.refl _
      · rw [hok]
        exact sublist_expire s now
      · exact absurd h hnew
    | register _ _ _ => cases hop
    | delete _ => cases hop
    | allowTest _ _ => cases hop
    | hasDeliveryCapacity _ => cases hop
    | retireEpochs _ => cases hop
    | nextDelivery _ _ => cases hop
    | finish _ _ => cases hop
    | reopen => cases hop

/-! ## Histories -/

theorem reservationsLast_iff_lasting (ops : List StoreOp) :
    ReservationsLast ops ↔
      Lasting storeStep PushStore.events insertedRow maxEvents EventRow.id .empty ops := by
  constructor
  · intro h before op after rest hops row hrow hfew
    obtain ⟨hid, hans⟩ := (reserves_iff _ op row.id).mpr ⟨row, hrow, rfl⟩
    refine (h before op after rest hops row.id hid hans ?_).1
    rw [reservedIds_eq, replay_append, replay_singleton]
    exact hfew
  · intro h before op after rest hops identity hid hans hfew
    obtain ⟨row, hrow, rfl⟩ := (reserves_iff _ op identity).mp ⟨hid, hans⟩
    rw [reservedIds_eq, replay_append, replay_singleton] at hfew
    have hmem := h before op after rest hops row hrow hfew
    exact ⟨hmem, suppresses_of_mem hmem⟩

theorem evictsEarliest_iff (x : PushStore × StoreOp) :
    EvictsEarliest x ↔
      DropsOldest PushStore.events insertedRow ranked maxEvents EventRow.id x := by
  constructor
  · intro h row hrow
    obtain ⟨hins, hnew⟩ := mem_recorded.mp hrow
    exact h row hins hnew
  · intro h row hins hnew
    exact h row (mem_recorded.mpr ⟨hins, hnew⟩)

/-- **Reservations.** Every reserved identity lasts for 4096 later ones exactly when each call
    that records into a full table evicts the identity recorded first. -/
theorem reservations_last_iff (ops : List StoreOp) :
    ReservationsLast ops ↔ ∀ x ∈ trace storeStep .empty ops, EvictsEarliest x := by
  rw [reservationsLast_iff_lasting, lasting_iff store_records rfl]
  simp only [evictsEarliest_iff]

/-! ### A clock that steps back -/

/-- The identity number `i`: 64 hexadecimal digits, the first three counting. -/
def numberedKey (i : Nat) : Str :=
  [hexDigit (i / 256), hexDigit (i / 16 % 16), hexDigit (i % 16)] ++ List.replicate 61 (hexDigit 0)

/-- 4096 identities at time 100, then one more after the clock went back to 50. -/
def steppedBack : List StoreOp :=
  (List.range 4096).map (fun i => .remember (numberedKey i) 100) ++
    [.remember (List.replicate 64 (hexDigit 15)) 50]

theorem hexDigit_injective {a b : Nat} (ha : a < 16) (hb : b < 16) (h : hexDigit a = hexDigit b) :
    a = b := by
  have hall : ∀ a < 16, ∀ b < 16, hexDigit a = hexDigit b → a = b := by decide
  exact hall a ha b hb h

theorem numberedKey_injective {i j : Nat} (hi : i < 4096) (hj : j < 4096)
    (h : numberedKey i = numberedKey j) : i = j := by
  have hheads := (List.append_inj h rfl).1
  rw [List.cons.injEq, List.cons.injEq, List.cons.injEq] at hheads
  obtain ⟨h₁, h₂, h₃, -⟩ := hheads
  have h₁ := hexDigit_injective (by omega) (by omega) h₁
  have h₂ := hexDigit_injective (by omega) (by omega) h₂
  have h₃ := hexDigit_injective (by omega) (by omega) h₃
  omega

/-- The rows after the first `n` of the numbered identities. -/
theorem events_numbered {n : Nat} (hn : n ≤ 4096) :
    (replay storeStep .empty ((List.range n).map fun i => .remember (numberedKey i) 100)).events =
      (List.range n).map fun i => ⟨numberedKey i, 100⟩ := by
  induction n with
  | zero => rfl
  | succ n ih =>
    have ih := ih (by omega)
    rw [List.range_succ, List.map_append, List.map_append, replay_append]
    generalize replay storeStep .empty ((List.range n).map fun i =>
      StoreOp.remember (numberedKey i) 100) = s at ih
    have hwithin : Within maxEvents EventRow.id s.events := by
      rw [ih]
      refine ⟨by rw [List.length_map, List.length_range]; unfold maxEvents; omega, ?_⟩
      rw [List.map_map]
      refine List.Nodup.map_on ?_ List.nodup_range
      intro i hi j hj hij
      rw [List.mem_range] at hi hj
      exact numberedKey_injective (by omega) (by omega) hij
    have hnew : numberedKey n ∉ s.events.map EventRow.id := by
      rw [ih, List.map_map]
      intro hmem
      obtain ⟨i, hi, hkey⟩ := List.mem_map.mp hmem
      rw [List.mem_range] at hi
      have := numberedKey_injective (by omega) (by omega) hkey
      omega
    show record ranked maxEvents EventRow.id s.events ⟨numberedKey n, 100⟩ = _
    rcases record_new (r := ranked) (a := ⟨numberedKey n, 100⟩) hwithin hnew with
      ⟨-, hrec⟩ | ⟨hlen, -⟩
    · rw [hrec, ih]
      rfl
    · rw [ih, List.length_map, List.length_range] at hlen
      unfold maxEvents at hlen
      omega

/-- The last identity is none of the numbered ones. -/
theorem numberedKey_ne (i : Nat) : numberedKey i ≠ List.replicate 64 (hexDigit 15) := by
  intro h
  have hzero : (numberedKey i).getLast? = some (hexDigit 0) := by
    unfold numberedKey
    rw [List.getLast?_append, show (List.replicate 61 (hexDigit 0)).getLast? = some (hexDigit 0) by
      decide]
    rfl
  rw [h] at hzero
  revert hzero
  decide

/-- The last call returns `True`, and its identity is not in the table. -/
theorem stepped_back_unreserved : ¬ ReservationsLast steppedBack := by
  intro h
  have hrows := events_numbered (le_refl 4096)
  have hwithin := store_records.within_replay Within.nil (s := .empty)
    ((List.range 4096).map fun i => .remember (numberedKey i) 100)
  have hlast := h _ _ [] [] rfl (List.replicate 64 (hexDigit 15)) rfl
  rw [replay_append] at hlast
  generalize replay storeStep .empty ((List.range 4096).map fun i =>
    StoreOp.remember (numberedKey i) 100) = s at hrows hwithin hlast
  have hnew : List.replicate 64 (hexDigit 15) ∉ s.events.map EventRow.id := by
    rw [hrows, List.map_map]
    intro hmem
    obtain ⟨i, -, hkey⟩ := List.mem_map.mp hmem
    exact numberedKey_ne i hkey
  obtain ⟨hmem, -⟩ := hlast (congrArg some (decide_eq_true hnew)) (by show 0 < maxEvents; decide)
  have hkey : List.replicate 64 (hexDigit 15) ∈
      (record ranked maxEvents EventRow.id s.events ⟨List.replicate 64 (hexDigit 15), 50⟩).map
        EventRow.id := hmem
  rcases record_new (r := ranked) (a := ⟨List.replicate 64 (hexDigit 15), 50⟩) hwithin hnew with
    ⟨hlt, -⟩ | ⟨-, v, hv, hrank, hrec⟩
  · rw [hrows, List.length_map, List.length_range] at hlt
    unfold maxEvents at hlt
    omega
  · rw [hrec] at hkey
    -- Every older row has a later time, so the new one is the row that goes.
    have hv' : v = ⟨List.replicate 64 (hexDigit 15), 50⟩ := by
      rcases List.mem_append.mp hv with hv | hv
      · rw [hrows] at hv
        obtain ⟨i, -, rfl⟩ := List.mem_map.mp hv
        have := ranked_iff.mp (hrank ⟨List.replicate 64 (hexDigit 15), 50⟩ (by simp))
        norm_num at this
      · exact List.mem_singleton.mp hv
    rw [hv'] at hkey hv
    exact key_not_mem_filter (nodup_concat hwithin hnew) hv hkey

end InverterDashboard.Push
