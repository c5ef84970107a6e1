import Mathlib.Data.Set.Finite.Lattice
import Mathlib.Data.Set.Finite.List
import InverterDashboard.Push.Claims

/-
  Deliveries as leases: a claim holds a row for 30 seconds.

  While its worker resumes within the lease, a row has one send at a time and three in all, and a
  late outcome finds its row gone. The clock of the lease starts at the claim, so a send that by
  itself takes less than 30 seconds can still outlive it (`stalled_send_overlaps`).
-/

namespace InverterDashboard.Push

open Python Cerbo Bounded Temporal

/-- The clock readings of a step. `native` reads the clock again for each event it queues. -/
def ServiceOp.readings : ServiceOp → List ℚ
  | .connect _ _ _ _ now => [now]
  | .disconnect _ _ now => [now]
  | .register _ _ now => [now]
  | .delete _ => []
  | .test _ _ now => [now]
  | .native _ now _ clock => now :: (List.range nativeLimit).map clock
  | .sample _ _ _ now _ clock => [now, clock]
  | .fail => []
  | .work _ now _ => [now]
  | .begin _ now => [now]
  | .finishSend _ _ now => [now]
  | .resume _ checked retried again => [checked, retried, again]

/-- The clock never goes back. -/
def Clocked (ops : List ServiceOp) : Prop := (ops.flatMap ServiceOp.readings).Pairwise (· ≤ ·)

variable (onCurve : List UInt8 → Bool)

/-- Every send lasts less than a lease, from its first turn on. -/
def SendsShort (start : PushService) (ops : List ServiceOp) : Prop :=
  ∀ x ∈ trace (serviceStep onCurve) start ops, ∀ t ∈ x.1.tasks, ∀ since,
    t.stage = .running since → ∀ time ∈ x.2.readings, time < since + leaseSeconds

/-- Every worker resumes before the lease of the row it claimed ends. -/
def InLease (start : PushService) (ops : List ServiceOp) : Prop :=
  ∀ x ∈ trace (serviceStep onCurve) start ops, ∀ w i t, x.1.sends w = some i →
    x.1.tasks[i]? = some t → ∀ time ∈ x.2.readings, time < t.claimedAt + leaseSeconds

/-! ## What deliveries promise -/

/-- Two sends for the same row never overlap. -/
def NoOverlap (s : PushService) : Prop :=
  ∀ (i j : Nat) (t u : SendTask) (a b : ℚ), s.tasks[i]? = some t → s.tasks[j]? = some u →
    t.stage = .running a → u.stage = .running b → t.delivery.row = u.delivery.row → i = j

/-- The send tasks that were created for a row. -/
def sendsFor (s : PushService) (row : Str × Str) : Nat :=
  (s.tasks.map SendTask.delivery).countP fun d => d.row = row

/-- The row that a task claimed is still in the table: same key, epoch and attempt, with only its
    next time moved, and not expired at one of these readings. -/
def OwnedRow (s : PushService) (t : SendTask) (readings : List ℚ) : Prop :=
  ∃ d ∈ s.store.deliveries, d = { t.delivery with nextAt := d.nextAt } ∧
    ∃ time ∈ readings, time < d.expiresAt

structure DeliveriesHold (start : PushService) (ops : List ServiceOp) : Prop where
  /-- Sends for one row do not overlap, and at most three are ever made. -/
  exclusive : Clocked ops → InLease onCurve start ops →
    NoOverlap (replay (serviceStep onCurve) start ops) ∧
      ∀ row, sendsFor (replay (serviceStep onCurve) start ops) row ≤ 3
  /-- An outcome changes the tables only while the very row it claimed exists. -/
  owned : ∀ before w checked retried again after,
    ops = before ++ .resume w checked retried again :: after →
    (replay (serviceStep onCurve) start (before ++ [.resume w checked retried again])).store ≠
      (replay (serviceStep onCurve) start before).store →
    ∃ i t, (replay (serviceStep onCurve) start before).sends w = some i ∧
      (replay (serviceStep onCurve) start before).tasks[i]? = some t ∧
      OwnedRow (replay (serviceStep onCurve) start before) t [checked, again]
  /-- Once its subscription was registered again or deleted, an outcome changes nothing. -/
  revoked : ∀ before op mid w checked retried again after,
    ops = before ++ op :: (mid ++ .resume w checked retried again :: after) →
    ∀ id ∈ revokedId onCurve (replay (serviceStep onCurve) start before) op,
    ∀ i t, (replay (serviceStep onCurve) start before).tasks[i]? = some t →
      t.delivery.subscriptionId = id →
      (replay (serviceStep onCurve) start (before ++ op :: mid)).sends w = some i →
      (replay (serviceStep onCurve) start
          (before ++ op :: (mid ++ [.resume w checked retried again]))).store =
        (replay (serviceStep onCurve) start (before ++ op :: mid)).store
  /-- No row has been tried more than twice. -/
  attempts : ∀ d ∈ (replay (serviceStep onCurve) start ops).store.deliveries, d.attempts ≤ 2

/-! ## Leases -/

theorem sendsFor_eq (s : PushService) (row : Str × Str) :
    sendsFor s row = (claims s).countP fun d => d.row = row := rfl

/-- A worker awaits the send of a claim of this row. -/
def BusyFor (s : PushService) (row : Str × Str) : Prop :=
  ∃ w i c a, s.sends w = some i ∧ (held s)[i]? = some (c, a) ∧ c.row = row

/-- No row with a worker is due again, and every send for a row has used up one of its attempts.
    `now` is a time that no later reading is before. -/
structure Leased (now : ℚ) (s : PushService) : Prop where
  owning : Owning s
  distinct : ∀ v w i, s.sends v = some i → s.sends w = some i → v = w
  bound : ∀ w i, s.sends w = some i → i < s.tasks.length
  awaited : ∀ (i : Nat) (t : SendTask), s.tasks[i]? = some t → t.live = true →
    ∃ w, s.sends w = some i
  exclusive : ∀ v w i j c a c' a', s.sends v = some i → s.sends w = some j →
    (held s)[i]? = some (c, a) → (held s)[j]? = some (c', a') → c.row = c'.row → i = j
  lease : ∀ w i c a, s.sends w = some i → (held s)[i]? = some (c, a) →
    ∀ d ∈ s.store.deliveries, d.row = c.row → d.attempts = c.attempts ∧ a + leaseSeconds ≤ d.nextAt
  three : ∀ row, sendsFor s row ≤ 3
  count : ∀ d ∈ s.store.deliveries, sendsFor s d.row ≤ d.attempts ∨
    (BusyFor s d.row ∧ sendsFor s d.row ≤ d.attempts + 1) ∨ d.expiresAt ≤ now ∨ s.available = false

/-- A row that is not known to the table has no claims. -/
theorem Owning.sendsFor_new {s : PushService} (h : Owning s) {d : Delivery}
    (hnew : d.eventId ∉ s.store.eventIds) : sendsFor s d.row = 0 := by
  rw [sendsFor_eq, List.countP_eq_zero]
  intro c hc hrow
  have : c.eventId = d.eventId := congrArg Prod.fst (of_decide_eq_true hrow)
  exact hnew (this ▸ h.known c hc)

/-- Later times and a failure keep the bounds of a row. -/
theorem count_mono {s s' : PushService} {d : Delivery} {now later : ℚ} (hlater : now ≤ later)
    (hup : s'.available = true → s.available = true) (hsends : sendsFor s' d.row = sendsFor s d.row)
    (hbusy : BusyFor s d.row → BusyFor s' d.row)
    (h : sendsFor s d.row ≤ d.attempts ∨ (BusyFor s d.row ∧ sendsFor s d.row ≤ d.attempts + 1) ∨
      d.expiresAt ≤ now ∨ s.available = false) :
    sendsFor s' d.row ≤ d.attempts ∨ (BusyFor s' d.row ∧ sendsFor s' d.row ≤ d.attempts + 1) ∨
      d.expiresAt ≤ later ∨ s'.available = false := by
  rw [hsends]
  rcases h with h | ⟨hb, h⟩ | h | h
  · exact Or.inl h
  · exact Or.inr (Or.inl ⟨hbusy hb, h⟩)
  · exact Or.inr (Or.inr (Or.inl (h.trans hlater)))
  · refine Or.inr (Or.inr (Or.inr ?_))
    by_contra hno
    rw [hup (Bool.not_eq_false _ ▸ hno)] at h
    cases h

/-- The row a worker claims has no other worker. -/
theorem Leased.free {now time : ℚ} {s : PushService} (h : Leased now s)
    (hlease : ∀ w i t, s.sends w = some i → s.tasks[i]? = some t → time < t.claimedAt + leaseSeconds)
    {d : Delivery} (hd : d ∈ s.store.deliveries) (hdue : d.nextAt ≤ time) : ¬ BusyFor s d.row := by
  rintro ⟨w, i, c, a, hw, hheld, hrow⟩
  obtain ⟨t, ht, -, rfl⟩ := held_iff.mp hheld
  have hnext := (h.lease w i c _ hw hheld d hd hrow.symm).2
  exact absurd (lt_of_le_of_lt (hnext.trans hdue) (hlease w i t hw ht)) (lt_irrefl _)

theorem TasksKept.length {s s' : PushService} (h : TasksKept s s') :
    s'.tasks.length = s.tasks.length := by
  have := congrArg List.length h.kept
  rwa [List.length_map, List.length_map] at this

theorem Leased.kept {now later : ℚ} {s s' : PushService} (h : Leased now s) (howning : Owning s')
    (hlater : now ≤ later) (hup : s'.available = true → s.available = true)
    (hrows : Intake (fun e => s.isCurrent e = true) s.store s'.store) (htasks : TasksKept s s')
    (hsends : ∀ v, s'.sends v = s.sends v) : Leased later s' := by
  have hheld : held s' = held s := htasks.kept
  have hfor : ∀ row, sendsFor s' row = sendsFor s row := by
    intro row
    rw [sendsFor_eq, sendsFor_eq, htasks.same]
  refine ⟨howning, ?_, ?_, ?_, ?_, ?_, ?_, ?_⟩
  · intro v w i hv hw
    exact h.distinct v w i (hsends v ▸ hv) (hsends w ▸ hw)
  · intro w i hw
    rw [htasks.length]
    exact h.bound w i (hsends w ▸ hw)
  · intro i t ht hlive
    obtain ⟨u, hu, hul⟩ := htasks.live i t ht hlive
    obtain ⟨w, hw⟩ := h.awaited i u hu hul
    exact ⟨w, (hsends w).trans hw⟩
  · intro v w i j c a c' a' hv hw hc hc'
    exact h.exclusive v w i j c a c' a' (hsends v ▸ hv) (hsends w ▸ hw) (hheld ▸ hc) (hheld ▸ hc')
  · intro w i c a hw hc d hd hrow
    rw [hheld] at hc
    rcases hrows.rows d hd with hd | ⟨-, -, hnew, -⟩
    · exact h.lease w i c a (hsends w ▸ hw) hc d hd hrow
    · have : d.eventId = c.eventId := congrArg Prod.fst hrow
      exact absurd (h.owning.known c (claim_of_held hc)) (this ▸ hnew)
  · intro row
    rw [hfor]
    exact h.three row
  · intro d hd
    rcases hrows.rows d hd with hd | ⟨-, -, hnew, -⟩
    · refine count_mono hlater hup (hfor _) ?_ (h.count d hd)
      rintro ⟨w, i, c, a, hw, hc, hrow⟩
      exact ⟨w, i, c, a, (hsends w).trans hw, hheld ▸ hc, hrow⟩
    · refine Or.inl ?_
      rw [hfor, h.owning.sendsFor_new hnew]
      exact Nat.zero_le _

theorem Leased.claimed {now time later : ℚ} {s s' : PushService} {w : Nat} {d : Delivery}
    {tie : Nat} (h : Leased now s) (howning : Owning s') (hnow : now ≤ time) (hlater : time ≤ later)
    (hlease : ∀ w i t, s.sends w = some i → s.tasks[i]? = some t → time < t.claimedAt + leaseSeconds)
    (hup : s'.available = true → s.available = true) (hfree : s.sends w = none)
    (havailable : s.available = true) (hfound : (s.store.nextDelivery time tie).1 = some d)
    (hstore : s'.store = (s.store.expire time).claim d (time + leaseSeconds))
    (htasks : s'.tasks = s.tasks ++ [⟨d, time, .created, false⟩])
    (hsends : ∀ v, s'.sends v = if v = w then some s.tasks.length else s.sends v) :
    Leased later s' := by
  obtain ⟨hd, hdue, hlive, -⟩ := PushStore.nextDelivery_some hfound
  have hidle := h.free hlease hd hdue
  have hheld : held s' = held s ++ [(d, time)] := by
    unfold held
    rw [htasks, List.map_append]
    rfl
  have hlength : (held s).length = s.tasks.length := List.length_map _
  have hother : ∀ v, s.sends v ≠ none → s'.sends v = s.sends v := by
    intro v hv
    rw [hsends, if_neg]
    rintro rfl
    exact hv hfree
  -- Of the new workers, one awaits the new claim, and the others await old ones.
  have hcases : ∀ v i c a, s'.sends v = some i → (held s')[i]? = some (c, a) →
      (v = w ∧ i = s.tasks.length ∧ c = d ∧ a = time) ∨
      (v ≠ w ∧ s.sends v = some i ∧ (held s)[i]? = some (c, a)) := by
    intro v i c a hv hc
    rw [hsends] at hv
    rw [hheld] at hc
    split at hv
    · next hvw =>
      obtain rfl := Option.some.inj hv
      rw [← hlength, List.getElem?_append_right (le_refl _), Nat.sub_self] at hc
      obtain ⟨rfl, rfl⟩ := Prod.mk.inj (Option.some.inj hc)
      exact Or.inl ⟨hvw, rfl, rfl, rfl⟩
    · next hvw =>
      rw [List.getElem?_append_left (hlength ▸ h.bound v i hv)] at hc
      exact Or.inr ⟨hvw, hv, hc⟩
  have hfor : ∀ row, sendsFor s' row = sendsFor s row + if d.row = row then 1 else 0 := by
    intro row
    rw [sendsFor_eq, claims_eq, hheld, List.map_append, List.countP_append, ← claims_eq, ← sendsFor_eq]
    by_cases hrow : d.row = row <;> simp [hrow]
  have hcount : sendsFor s d.row ≤ d.attempts := by
    rcases h.count d hd with hc | ⟨hb, -⟩ | hexpired | hdown
    · exact hc
    · exact absurd hb hidle
    · exact absurd (lt_of_le_of_lt (hexpired.trans hnow) hlive) (lt_irrefl _)
    · rw [havailable] at hdown
      cases hdown
  refine ⟨howning, ?_, ?_, ?_, ?_, ?_, ?_, ?_⟩
  · intro u v i hu hv
    rw [hsends] at hu hv
    split at hu
    · next huw =>
      split at hv
      · next hvw => rw [huw, hvw]
      · have := h.bound v i hv
        have := Option.some.inj hu
        omega
    · split at hv
      · have := h.bound u i hu
        have := Option.some.inj hv
        omega
      · exact h.distinct u v i hu hv
  · intro v i hv
    rw [htasks, List.length_append, List.length_singleton]
    rw [hsends] at hv
    split at hv
    · have := Option.some.inj hv
      omega
    · have := h.bound v i hv
      omega
  · intro i t ht hl
    rw [htasks] at ht
    rcases Nat.lt_or_ge i s.tasks.length with hi | hi
    · rw [List.getElem?_append_left hi] at ht
      obtain ⟨v, hv⟩ := h.awaited i t ht hl
      exact ⟨v, (hother v (by rw [hv]; simp)).trans hv⟩
    · have hi' : i = s.tasks.length := by
        by_contra hne
        rw [List.getElem?_eq_none (by simp; omega)] at ht
        cases ht
      exact ⟨w, by rw [hsends, if_pos rfl, hi']⟩
  · intro u v i j c a c' a' hu hv hc hc' hrow
    rcases hcases u i c a hu hc with ⟨-, rfl, rfl, rfl⟩ | ⟨-, hu', hcu⟩
    · rcases hcases v j c' a' hv hc' with ⟨-, rfl, -, -⟩ | ⟨-, hv', hcv⟩
      · rfl
      · exact absurd ⟨v, j, c', a', hv', hcv, hrow.symm⟩ hidle
    · rcases hcases v j c' a' hv hc' with ⟨-, rfl, rfl, rfl⟩ | ⟨-, hv', hcv⟩
      · exact absurd ⟨u, i, c, a, hu', hcu, hrow⟩ hidle
      · exact h.exclusive u v i j c a c' a' hu' hv' hcu hcv hrow
  · intro v i c a hv hc e' he' hrow
    rw [hstore] at he'
    obtain ⟨e, he, heq, hmoved, hkept⟩ := mem_claim he'
    have hrow' : e'.row = e.row := by rw [heq]; rfl
    have hes := (sublist_expire s.store time).subset he
    rcases hcases v i c a hv hc with ⟨-, rfl, rfl, rfl⟩ | ⟨-, hv', hcv⟩
    · obtain rfl := h.owning.sound.unique hes hd (hrow'.symm.trans hrow)
      exact ⟨by rw [heq], (hmoved rfl).ge⟩
    · have hne : e.row ≠ d.row := by
        intro hed
        exact hidle ⟨v, i, c, a, hv', hcv, hrow.symm.trans (hrow'.trans hed)⟩
      rw [hkept hne]
      exact h.lease v i c a hv' hcv e hes (hrow'.symm.trans hrow)
  · intro row
    rw [hfor]
    split
    · next hrow =>
      have := h.owning.sound.attempts d hd
      rw [← hrow]
      omega
    · exact h.three row
  · intro e' he'
    rw [hstore] at he'
    obtain ⟨e, he, heq, hmoved, hkept⟩ := mem_claim he'
    have hes := (sublist_expire s.store time).subset he
    have hrow' : e'.row = e.row := by rw [heq]; rfl
    by_cases hrow : e.row = d.row
    · obtain rfl := h.owning.sound.unique hes hd hrow
      refine Or.inr (Or.inl ⟨⟨w, s.tasks.length, e, time, by rw [hsends, if_pos rfl], ?_,
        hrow'.symm⟩, ?_⟩)
      · rw [hheld, ← hlength, List.getElem?_append_right (le_refl _), Nat.sub_self]
        rfl
      · have hattempts : e'.attempts = e.attempts := by rw [heq]
        rw [hfor, hrow', if_pos rfl, hattempts]
        omega
    · rw [hkept hrow]
      refine count_mono (hnow.trans hlater) hup ?_ ?_ (h.count e hes)
      · rw [hfor, if_neg (fun h => hrow h.symm), Nat.add_zero]
      · rintro ⟨v, i, c, a, hv, hc, hcrow⟩
        refine ⟨v, i, c, a, (hother v (by rw [hv]; simp)).trans hv, ?_, hcrow⟩
        rw [hheld, List.getElem?_append_left (hlength ▸ h.bound v i hv)]
        exact hc

theorem Leased.resumed {now later : ℚ} {s s' : PushService} {w i : Nat} {t : SendTask}
    {checked again : ℚ} (h : Leased now s) (howning : Owning s') (hlater : now ≤ later)
    (hchecked : checked ≤ later) (hagain : again ≤ later)
    (hup : s'.available = true → s.available = true) (hw : s.sends w = some i)
    (ht : s.tasks[i]? = some t) (hdone : t.live = false) (htasks : TasksKept s s')
    (hsends : ∀ v, s'.sends v = if v = w then none else s.sends v)
    (hsettled : (s'.store = s.store ∧ ∃ worker ∈ s.workers, worker.cancelled = true) ∨
      Settled s t.delivery checked again s'.store) : Leased later s' := by
  have hheld : held s' = held s := htasks.kept
  have hfor : ∀ row, sendsFor s' row = sendsFor s row := by
    intro row
    rw [sendsFor_eq, sendsFor_eq, htasks.same]
  have hold : ∀ v j, s'.sends v = some j → v ≠ w ∧ s.sends v = some j := by
    intro v j hv
    rw [hsends] at hv
    split at hv
    · cases hv
    · next hvw => exact ⟨hvw, hv⟩
  have hclaim : (held s)[i]? = some (t.delivery, t.claimedAt) := held_iff.mpr ⟨t, ht, rfl, rfl⟩
  have hmem : t.delivery ∈ claims s := claim_of_held hclaim
  -- A row with another worker has another key.
  have hother : ∀ v j c a, s'.sends v = some j → (held s)[j]? = some (c, a) →
      c.row ≠ t.delivery.row := by
    intro v j c a hv hc hrow
    obtain ⟨hvw, hv⟩ := hold v j hv
    obtain rfl := h.exclusive v w j i c a _ _ hv hw hc hclaim hrow
    exact hvw (h.distinct v w j hv hw)
  have hbusy : ∀ d : Delivery, d.row ≠ t.delivery.row → BusyFor s d.row → BusyFor s' d.row := by
    rintro d hrow ⟨v, j, c, a, hv, hc, hcrow⟩
    refine ⟨v, j, c, a, ?_, hheld ▸ hc, hcrow⟩
    rw [hsends, if_neg]
    · exact hv
    · rintro rfl
      rw [hw] at hv
      obtain rfl := Option.some.inj hv
      rw [hclaim] at hc
      obtain ⟨rfl, -⟩ := Prod.mk.inj (Option.some.inj hc)
      exact hrow hcrow.symm
  have hkept : ∀ d ∈ s.store.deliveries, d.row ≠ t.delivery.row → _ := fun d hd hrow =>
    count_mono hlater hup (hfor d.row) (hbusy d hrow) (h.count d hd)
  -- The lease of another claim, on a row that this step left alone.
  have hleased : ∀ v j c a, s'.sends v = some j → (held s')[j]? = some (c, a) →
      ∀ d ∈ s.store.deliveries, d.row = c.row →
        d.attempts = c.attempts ∧ a + leaseSeconds ≤ d.nextAt := by
    intro v j c a hv hc d hd hrow
    exact h.lease v j c a (hold v j hv).2 (hheld ▸ hc) d hd hrow
  have hrest : (∀ v j c a, s'.sends v = some j → (held s')[j]? = some (c, a) →
      ∀ d ∈ s'.store.deliveries, d.row = c.row →
        d.attempts = c.attempts ∧ a + leaseSeconds ≤ d.nextAt) →
      (∀ d ∈ s'.store.deliveries, sendsFor s' d.row ≤ d.attempts ∨
        (BusyFor s' d.row ∧ sendsFor s' d.row ≤ d.attempts + 1) ∨ d.expiresAt ≤ later ∨
        s'.available = false) → Leased later s' := by
    intro hl hc
    refine ⟨howning, ?_, ?_, ?_, ?_, hl, ?_, hc⟩
    · intro u v j hu hv
      exact h.distinct u v j (hold u j hu).2 (hold v j hv).2
    · intro v j hv
      rw [htasks.length]
      exact h.bound v j (hold v j hv).2
    · intro j u hu hul
      obtain ⟨u', hu', hul'⟩ := htasks.live j u hu hul
      obtain ⟨v, hv⟩ := h.awaited j u' hu' hul'
      refine ⟨v, ?_⟩
      rw [hsends, if_neg]
      · exact hv
      · rintro rfl
        rw [hw] at hv
        obtain rfl := Option.some.inj hv
        rw [ht] at hu'
        obtain rfl := Option.some.inj hu'
        rw [hdone] at hul'
        cases hul'
    · intro u v j k c a c' a' hu hv hcu hcv
      exact h.exclusive u v j k c a c' a' (hold u j hu).2 (hold v k hv).2 (hheld ▸ hcu) (hheld ▸ hcv)
    · intro row
      rw [hfor]
      exact h.three row
  rcases hsettled with ⟨hstore, worker, hworker, hcancelled⟩ | hsettled
  · refine hrest (fun v j c a hv hc d hd => hleased v j c a hv hc d (hstore ▸ hd)) fun d _ => ?_
    have hdown := h.owning.fails worker hworker hcancelled
    refine Or.inr (Or.inr (Or.inr ?_))
    by_contra hno
    rw [hup (Bool.not_eq_false _ ▸ hno)] at hdown
    cases hdown
  · cases hsettled with
    | unowned hstore howns =>
      refine hrest (fun v j c a hv hc d hd => hleased v j c a hv hc d (hstore ▸ hd)) fun d hd => ?_
      rw [hstore] at hd
      by_cases hrow : d.row = t.delivery.row
      · have hattempts := (h.lease w i _ _ hw hclaim d hd hrow).1
        have hgone : s.available = false ∨ d.expiresAt ≤ later := by
          rcases howns with howns | howns
          · exact (h.owning.unowned hmem howns hd hrow hattempts).imp id fun h => h.trans hchecked
          · exact (h.owning.unowned hmem howns hd hrow hattempts).imp id fun h => h.trans hagain
        rcases hgone with hdown | hexpired
        · refine Or.inr (Or.inr (Or.inr ?_))
          by_contra hno
          rw [hup (Bool.not_eq_false _ ▸ hno)] at hdown
          cases hdown
        · exact Or.inr (Or.inr (Or.inl hexpired))
      · exact hkept d hd hrow
    | removed howns hrows hids hgone =>
      exact hrest (fun v j c a hv hc d hd => hleased v j c a hv hc d (hrows.subset hd))
        fun d hd => hkept d (hrows.subset hd) (hgone d hd)
    | retried howns hattempts time hstore =>
      refine hrest (fun v j c a hv hc d hd hrow => ?_) fun d hd => ?_
      · rw [hstore] at hd
        obtain ⟨e, he, ⟨herow, rfl⟩ | ⟨-, rfl⟩⟩ := mem_retry hattempts hd
        · exact absurd (hrow.symm.trans herow) (hother v j c a hv (hheld ▸ hc))
        · exact hleased v j c a hv hc d he hrow
      · rw [hstore] at hd
        obtain ⟨e, he, ⟨herow, rfl⟩ | ⟨hne, rfl⟩⟩ := mem_retry hattempts hd
        · rcases h.count e he with hc | ⟨-, hc⟩ | hexpired | hdown
          · exact Or.inl ((hfor _).trans_le (hc.trans (Nat.le_succ _)))
          · exact Or.inl ((hfor _).trans_le hc)
          · exact Or.inr (Or.inr (Or.inl (hexpired.trans hlater)))
          · refine Or.inr (Or.inr (Or.inr ?_))
            by_contra hno
            rw [hup (Bool.not_eq_false _ ▸ hno)] at hdown
            cases hdown
        · exact hkept d he hne

/-! ## Runs -/

theorem sends_started (store : PushStore) (epoch : Str) (start : ℚ) (w : Nat) :
    (PushService.started store epoch start).sends w = none := by
  unfold PushService.sends PushService.started
  rcases w with _ | _ | w <;> rfl

theorem leased_started {store : PushStore} (hstore : SoundRows store) (epoch : Str)
    (start now : ℚ) : Leased now (.started store epoch start) := by
  have hnone := sends_started store epoch start
  refine ⟨owning_started hstore epoch start, ?_, ?_, ?_, ?_, ?_, fun _ => Nat.zero_le 3,
    fun _ _ => Or.inl (Nat.zero_le _)⟩
  · intro v w i hv
    rw [hnone] at hv
    cases hv
  · intro w i hw
    rw [hnone] at hw
    cases hw
  · intro i t ht
    cases ht
  · intro v w i j c a c' a' hv
    rw [hnone] at hv
    cases hv
  · intro w i c a hw
    rw [hnone] at hw
    cases hw

variable {onCurve} in
theorem InLease.append {start : PushService} {before after : List ServiceOp}
    (h : InLease onCurve start (before ++ after)) :
    InLease onCurve start before ∧
      InLease onCurve (replay (serviceStep onCurve) start before) after := by
  unfold InLease at h ⊢
  rw [trace_append] at h
  exact ⟨fun x hx => h x (List.mem_append_left _ hx), fun x hx => h x (List.mem_append_right _ hx)⟩

/-- In a clocked run within its leases, at any time that no reading is after. -/
theorem leased_replay {store : PushStore} (hstore : SoundRows store) (epoch : Str) (start : ℚ)
    {ops : List ServiceOp} (hops : Unpruned onCurve (.started store epoch start) ops)
    (hclock : Clocked ops) (hlease : InLease onCurve (.started store epoch start) ops) (now : ℚ)
    (hnow : ∀ time ∈ ops.flatMap ServiceOp.readings, time ≤ now) :
    Leased now (replay (serviceStep onCurve) (.started store epoch start) ops) := by
  induction ops using List.reverseRecOn generalizing now with
  | nil => exact leased_started hstore epoch start now
  | append_singleton ops op ih =>
    unfold Clocked at hclock
    rw [List.flatMap_append, List.pairwise_append] at hclock
    obtain ⟨hbefore, -, hbetween⟩ := hclock
    rw [List.flatMap_append] at hnow
    have hreading : ∀ time ∈ op.readings, time ≤ now := fun time htime =>
      hnow time (List.mem_append_right _ (List.mem_flatMap.mpr ⟨op, List.mem_singleton_self op, htime⟩))
    have hwithin := hlease.append.2 (_, op) List.mem_cons_self
    have ih := ih hops.append.1 hbefore hlease.append.1
    have hold := ih now fun time htime => hnow time (List.mem_append_left _ htime)
    rw [replay_append, replay_singleton]
    have howning := hold.owning.step onCurve hops.move
    have hup := (failsTogether_step (serviceStep_control onCurve _ op) hold.owning.fails).2
    cases hops.move with
    | kept hrows htasks hsends => exact hold.kept howning (le_refl now) hup hrows htasks hsends
    | claimed w d time tie hop hfree havailable hfound hcurrent hrows htasks hsends =>
      subst hop
      have hthen : ∀ earlier ∈ ops.flatMap ServiceOp.readings, earlier ≤ time := fun earlier h =>
        hbetween earlier h time (List.mem_singleton_self time)
      exact (ih time hthen).claimed howning (le_refl time)
        (hreading time (List.mem_singleton_self time))
        (fun v i t hv ht => hwithin v i t hv ht time (List.mem_singleton_self time)) hup hfree
        havailable hfound hrows htasks hsends
    | resumed w i t checked retried again hop hw ht hdone htasks hsends hsettled =>
      subst hop
      exact hold.resumed howning (le_refl now) (hreading checked (by simp [ServiceOp.readings]))
        (hreading again (by simp [ServiceOp.readings])) hup hw ht hdone htasks hsends hsettled

/-! ## All runs -/

theorem Leased.noOverlap {now : ℚ} {s : PushService} (h : Leased now s) : NoOverlap s := by
  intro i j t u a b ht hu hta hub hrow
  have hlive : ∀ {v : SendTask} {since : ℚ}, v.stage = .running since → v.live = true := by
    intro v since hv
    unfold SendTask.live
    rw [hv]
  obtain ⟨v, hv⟩ := h.awaited i t ht (hlive hta)
  obtain ⟨w, hw⟩ := h.awaited j u hu (hlive hub)
  exact h.exclusive v w i j _ _ _ _ hv hw (held_iff.mpr ⟨t, ht, rfl, rfl⟩)
    (held_iff.mpr ⟨u, hu, rfl, rfl⟩) hrow

/-- What an outcome that changes the tables owns. -/
theorem Owning.owned_row {s : PushService} (h : Owning s) {i : Nat} {t : SendTask}
    (ht : s.tasks[i]? = some t) {readings : List ℚ}
    (howns : ∃ time ∈ readings, s.owns t.delivery time = true) : OwnedRow s t readings := by
  obtain ⟨time, htime, howns⟩ := howns
  obtain ⟨-, -, d, hd, hrow, -, -, hnow⟩ := (owns_iff h.sound.keys).mp howns
  have hmem : t.delivery ∈ claims s := List.mem_map_of_mem (List.mem_of_getElem? ht)
  exact ⟨d, hd, (h.owned hmem howns hd hrow).2.1, time, htime, hnow⟩

theorem Owning.resume_changes {s : PushService} (h : Owning s) {w : Nat} {checked retried again : ℚ}
    (hchanges : (s.resume w checked retried again).store ≠ s.store) :
    ∃ i t, s.sends w = some i ∧ s.tasks[i]? = some t ∧ OwnedRow s t [checked, again] := by
  rcases resume_cases s w checked retried again with
    hsame | ⟨i, t, hw, ht, -, -, -, ⟨hstore, -⟩ | hsettled⟩
  · exact absurd (congrArg PushService.store hsame) hchanges
  · exact absurd hstore hchanges
  · refine ⟨i, t, hw, ht, ?_⟩
    cases hsettled with
    | unowned hstore howns => exact absurd hstore hchanges
    | removed howns hrows hids hgone => exact h.owned_row ht howns
    | retried howns hattempts time hstore => exact h.owned_row ht howns

/-- A claim on a subscription that was revoked settles into nothing. -/
theorem Owning.stale {s : PushService} (h : Owning s) {op : ServiceOp} {ops : List ServiceOp}
    (hops : Unpruned onCurve s (op :: ops)) {id : Str} (hid : id ∈ revokedId onCurve s op) {i w : Nat}
    {t : SendTask} (ht : s.tasks[i]? = some t) (hsub : t.delivery.subscriptionId = id)
    (hw : (replay (serviceStep onCurve) s (op :: ops)).sends w = some i)
    (checked retried again : ℚ) :
    ((replay (serviceStep onCurve) s (op :: ops)).resume w checked retried again).store =
      (replay (serviceStep onCurve) s (op :: ops)).store := by
  have hsplit : Unpruned onCurve s ([op] ++ ops) := hops
  have hclaim : (held s)[i]? = some (t.delivery, t.claimedAt) := held_iff.mpr ⟨t, ht, rfl, rfl⟩
  -- Right after the call no row has the key of the claim, and then none gets it.
  have hgone : ∀ d ∈ (serviceStep onCurve s op).store.deliveries, d.row ≠ t.delivery.row := by
    intro d hd hrow
    exact (revoked_step onCurve hid).2 d hd ((congrArg Prod.snd hrow).trans hsub)
  have hknown : t.delivery.row.1 ∈ (serviceStep onCurve s op).store.eventIds :=
    known_replay onCurve hsplit.append.1 (h.known _ (claim_of_held hclaim))
  have hlater := gone_replay onCurve hsplit.append.2 hknown hgone
  -- The worker awaits this claim.
  obtain ⟨more, hmore⟩ := held_replay onCurve hops
  have hsame : (held s ++ more)[i]? = (held s)[i]? :=
    List.getElem?_append_left (List.getElem?_eq_some_iff.mp hclaim).1
  rw [hmore, hclaim] at hsame
  obtain ⟨u, hu, hud, -⟩ := held_iff.mp hsame
  by_contra hchanges
  obtain ⟨j, v, hj, hv, d, hd, hrow, -⟩ := (owning_replay onCurve h hops).resume_changes hchanges
  obtain rfl : j = i := Option.some.inj (hj.symm.trans hw)
  obtain rfl : v = u := Option.some.inj (hv.symm.trans hu)
  refine hlater d hd ?_
  rw [hrow, ← hud]
  rfl

/-- **Deliveries.** In every run from a store, while no identity is pruned: with a clock that does
    not go back and workers that resume within their leases, a row has one send at a time and three
    in all; and without these, an outcome changes only the very row that its worker claimed. -/
theorem deliveries_hold (store : PushStore) (hstore : SoundRows store) (epoch : Str) (now : ℚ)
    (ops : List ServiceOp) (hops : Unpruned onCurve (.started store epoch now) ops) :
    DeliveriesHold onCurve (.started store epoch now) ops := by
  have hstart := owning_started hstore epoch now
  refine ⟨?_, ?_, ?_, (owning_replay onCurve hstart hops).sound.attempts⟩
  · intro hclock hlease
    obtain ⟨last, hlast⟩ := (List.finite_toSet (ops.flatMap ServiceOp.readings)).bddAbove
    have hleased := leased_replay onCurve hstore epoch now hops hclock hlease last
      fun time htime => hlast htime
    exact ⟨hleased.noOverlap, hleased.three⟩
  · rintro before w checked retried again after rfl hchanges
    rw [replay_append, replay_singleton] at hchanges
    exact (owning_replay onCurve hstart hops.append.1).resume_changes hchanges
  · rintro before op mid w checked retried again after rfl id hid i t ht hsub hw
    have hmid : Unpruned onCurve (replay (serviceStep onCurve) (.started store epoch now) before)
        (op :: mid) := by
      rw [← List.cons_append] at hops
      exact hops.append.2.append.1
    rw [← List.cons_append, ← List.append_assoc, replay_append, replay_singleton]
    rw [replay_append] at hw ⊢
    exact (owning_replay onCurve hstart hops.append.1).stale onCurve hmid hid ht hsub hw checked
      retried again

/-! ## A stalled send -/

/-- A pending test notification. -/
def pendingTest : Delivery where
  eventId := Str.lit "e"
  subscriptionId := Str.lit "a"
  payload := ⟨Str.lit "e", Str.lit "test", Str.lit "push", 1000000, 1000000, Str.lit "Title",
    Str.lit "Body"⟩
  expiresAt := 1300
  nextAt := 1000
  attempts := 0
  epoch := PushStore.testEpoch

/-- The tables of a process that stopped before it was sent. -/
def stoppedEarly : PushStore where
  subscriptions := [⟨Str.lit "a", browser, Preferences.default, 990, 1000⟩]
  events := [⟨Str.lit "e", 1000⟩]
  deliveries := [pendingTest]

instance : DecidablePred KeepsIdentities := fun x =>
  inferInstanceAs (Decidable ((∀ id ∈ x.1.eventIds, id ∈ (storeStep x.1 x.2).eventIds) ∧
    ∀ id ∈ x.2.identity?, answer x.1 x.2 = some true → id ∈ (storeStep x.1 x.2).eventIds))

instance (start : PushService) (ops : List ServiceOp) : Decidable (Unpruned onCurve start ops) :=
  inferInstanceAs (Decidable (∀ x ∈ trace (serviceStep onCurve) start ops,
    ∀ y ∈ trace storeStep x.1.store (storeCalls onCurve x.1 x.2), KeepsIdentities y))

/-- The test goes out at its third try. -/
def thirdTry : List ServiceOp :=
  [.work 0 1001 0, .begin 0 1001, .finishSend 0 .failed 1002, .resume 0 1002 1002 1002,
   .work 1 1017 0, .begin 1 1017, .finishSend 1 (.status 503) 1018, .resume 1 1018 1018 1018,
   .work 0 1078 0, .begin 2 1078, .finishSend 2 (.status 201) 1079, .resume 0 1079 1079 1079]

/-- Its deliveries are as promised. -/
theorem deliveries_hold_thirdTry :
    DeliveriesHold (fun _ => true) (.started stoppedEarly (Str.lit "start") 1000) thirdTry :=
  deliveries_hold _ stoppedEarly ⟨by decide, by decide, by decide⟩ _ _ thirdTry
    (by decide +kernel)

/-- The first send begins a second after its claim, and is slow. -/
def stalledSend : List ServiceOp :=
  [.work 0 1003 0, .begin 0 1004, .work 1 1033 0, .begin 1 (1033 + 1/5)]

instance (stage : Stage) (p : ℚ → Prop) [DecidablePred p] :
    Decidable (∀ since, stage = .running since → p since) :=
  match stage with
  | .created => isTrue fun _ h => by cases h
  | .running since => decidable_of_iff (p since)
      ⟨fun h _ heq => Stage.running.inj heq ▸ h, fun h => h since rfl⟩
  | .done _ => isTrue fun _ h => by cases h

instance (start : PushService) (ops : List ServiceOp) : Decidable (SendsShort onCurve start ops) :=
  inferInstanceAs (Decidable (∀ x ∈ trace (serviceStep onCurve) start ops, ∀ t ∈ x.1.tasks,
    ∀ since, t.stage = .running since → ∀ time ∈ x.2.readings, time < since + leaseSeconds))

/-- Each send is shorter than the lease, and yet the two overlap. -/
theorem stalled_send_overlaps : SoundRows stoppedEarly ∧ Clocked stalledSend ∧
    Unpruned (fun _ => true) (.started stoppedEarly (Str.lit "start") 1000) stalledSend ∧
    SendsShort (fun _ => true) (.started stoppedEarly (Str.lit "start") 1000) stalledSend ∧
    ¬ NoOverlap (replay (serviceStep fun _ => true)
      (.started stoppedEarly (Str.lit "start") 1000) stalledSend) := by
  refine ⟨⟨by decide, by decide, by decide⟩, ?_, by decide +kernel, by decide +kernel, ?_⟩
  · unfold Clocked
    decide +kernel
  · have htasks : (replay (serviceStep fun _ => true)
        (.started stoppedEarly (Str.lit "start") 1000) stalledSend).tasks =
        [⟨pendingTest, 1003, .running 1004, false⟩,
          ⟨{ pendingTest with nextAt := 1033 }, 1033, .running (1033 + 1/5), false⟩] := by
      decide +kernel
    intro h
    have := h 0 1 _ _ 1004 (1033 + 1/5) (congrArg (·[0]?) htasks) (congrArg (·[1]?) htasks) rfl rfl
      rfl
    omega

end InverterDashboard.Push
