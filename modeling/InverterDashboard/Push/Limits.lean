import InverterDashboard.Bounded.Window
import InverterDashboard.Push.Registrations

/-
  The limits on test notifications, over whole runs.

  The service keeps the times of the tests it let through in a queue, and each subscription the
  time of its last one. `tests_limited` reads both off the history: as long as the clock does not
  go back, a test is let through exactly when the history of the last minute allows it, and no
  minute has seen more than ten. `tests_apart` needs no clock: only a deleted subscription is
  tested twice within a minute.
-/

namespace InverterDashboard.Push

open Python Cerbo Bounded Temporal

variable (onCurve : List UInt8 → Bool)

/-! ## Answers -/

/-- How a call of `test` ends. -/
inductive TestAnswer where
  /-- `ValueError` of `endpoint_host`. -/
  | invalid
  /-- `KeyError`. -/
  | unregistered
  /-- `PushRateLimit`. -/
  | limited
  | queued
  deriving DecidableEq

namespace PushService

/-- The condition on which `test` does not raise `PushRateLimit`. -/
def allowsTest (s : PushService) (identifier : Str) (now : ℚ) : Bool :=
  let recent := s.testTimes.dropWhile fun t => 60 ≤ now - t
  let capacity := s.store.hasDeliveryCapacity now
  if !capacity.1 || 10 ≤ recent.length then false
  else (capacity.2.allowTest identifier now).1

def testAnswer (s : PushService) (endpoint : Str) (now : ℚ) : TestAnswer :=
  if acceptsEndpoint endpoint then
    match s.store.get (PushStore.identifierOf endpoint) with
    | none => .unregistered
    | some subscription => if s.allowsTest subscription.id now then .queued else .limited
  else .invalid

end PushService

/-- Times count for a minute. -/
def minute : Span ℚ where
  expired now t := 60 ≤ now - t
  expired_later {now later t} hle h := by
    rw [decide_eq_true_eq] at h ⊢
    linarith
  expired_earlier {now s t} hle h := by
    rw [decide_eq_true_eq] at h ⊢
    linarith

theorem minute_live (now : ℚ) (times : List ℚ) :
    minute.live now times = times.filter fun t => now - t < 60 := by
  refine List.filter_congr ?_
  intro t _
  simp [minute, ← not_lt]

theorem minute_window {n : Nat} {history : List ℚ} (h : minute.Limited n history)
    (hsorted : history.Pairwise (· ≤ ·)) (moment : ℚ) :
    (history.filter fun t => t ≤ moment ∧ moment - t < 60).length ≤ n := by
  have hwindow := h.window_le hsorted moment
  rw [minute_live, List.filter_filter] at hwindow
  refine le_trans (le_of_eq (congrArg List.length ?_)) hwindow
  refine List.filter_congr ?_
  intro t _
  simp [Bool.and_comm]

/-- When a test is let through. -/
theorem queued_iff (s : PushService) (endpoint : Str) (now : ℚ) :
    s.testAnswer endpoint now = .queued ↔
      acceptsEndpoint endpoint = true ∧
      (∃ r ∈ s.store.subscriptions,
        r.id = PushStore.identifierOf endpoint ∧ r.lastTestAt ≤ now - 60) ∧
      (s.store.hasDeliveryCapacity now).1 = true ∧
      (minute.prune now s.testTimes).length < 10 := by
  have hallows : ∀ identifier, s.allowsTest identifier now = true ↔
      (s.store.hasDeliveryCapacity now).1 = true ∧ (minute.prune now s.testTimes).length < 10 ∧
      ∃ r ∈ s.store.subscriptions, r.id = identifier ∧ r.lastTestAt ≤ now - 60 := by
    intro identifier
    unfold PushService.allowsTest
    dsimp only
    split
    · next hlimit =>
      rw [Bool.or_eq_true, Bool.not_eq_true', decide_eq_true_eq] at hlimit
      refine ⟨fun h => (nomatch h), fun ⟨hcapacity, hfew, _⟩ => ?_⟩
      rcases hlimit with h | h
      · rw [h] at hcapacity
        cases hcapacity
      · exact absurd hfew (not_lt.mpr h)
    · next hlimit =>
      rw [Bool.or_eq_true, not_or, decide_eq_true_eq, not_le] at hlimit
      have hcapacity : (s.store.hasDeliveryCapacity now).1 = true := by simpa using hlimit.1
      have hfew : (minute.prune now s.testTimes).length < 10 := hlimit.2
      simp only [hcapacity, hfew, true_and]
      unfold PushStore.allowTest PushStore.hasDeliveryCapacity PushStore.expire
      simp [List.any_eq_true]
  unfold PushService.testAnswer
  by_cases hendpoint : acceptsEndpoint endpoint = true
  · rw [if_pos hendpoint]
    cases hget : s.store.get (PushStore.identifierOf endpoint) with
    | none =>
      refine ⟨fun h => (nomatch h), fun ⟨_, ⟨r, hr, hid, _⟩, _⟩ => ?_⟩
      exact absurd (decide_eq_true hid) (List.find?_eq_none.mp hget r hr)
    | some subscription =>
      dsimp only
      rw [get_id hget]
      cases hallowed : s.allowsTest (PushStore.identifierOf endpoint) now with
      | true =>
        obtain ⟨hcapacity, hfew, hdue⟩ := (hallows _).mp hallowed
        simp [hendpoint, hcapacity, hfew, hdue]
      | false =>
        have hno := mt (hallows (PushStore.identifierOf endpoint)).mpr (by simp [hallowed])
        refine ⟨fun h => (nomatch h), fun ⟨_, hdue, hcapacity, hfew⟩ => ?_⟩
        exact absurd ⟨hcapacity, hfew, hdue⟩ hno
  · rw [if_neg hendpoint]
    exact ⟨fun h => (nomatch h), fun h => absurd h.1 hendpoint⟩

/-! ## Test times -/

namespace PushService

theorem enqueueTest_testTimes (s : PushService) (identifier uuid : Str) (now : ℚ) :
    (s.enqueueTest identifier uuid now).testTimes = s.testTimes := by
  unfold enqueueTest
  split
  · rfl
  · split
    · rfl
    · rfl

theorem testRegistered_testTimes (s : PushService) (identifier uuid : Str) (now : ℚ) :
    (s.testRegistered identifier uuid now).testTimes =
      minute.prune now s.testTimes ++ if s.allowsTest identifier now then [now] else [] := by
  unfold testRegistered allowsTest
  dsimp only
  split
  · simp [Span.prune, minute]
  · split
    · next h =>
      have hallowed : ((s.store.hasDeliveryCapacity now).2.allowTest identifier now).1 = true := h
      rw [enqueueTest_testTimes, if_pos hallowed]
      rfl
    · next h =>
      have hallowed : ¬ ((s.store.hasDeliveryCapacity now).2.allowTest identifier now).1 = true := h
      rw [if_neg hallowed, List.append_nil]
      rfl

/-- The queue after a call of `test`. -/
theorem test_testTimes (s : PushService) (endpoint uuid : Str) (now : ℚ) :
    (s.test endpoint uuid now).testTimes =
      match s.testAnswer endpoint now with
      | .queued => minute.prune now s.testTimes ++ [now]
      | .limited => minute.prune now s.testTimes
      | _ => s.testTimes := by
  unfold test testAnswer
  by_cases hendpoint : acceptsEndpoint endpoint = true
  · rw [if_pos hendpoint, if_pos hendpoint]
    cases s.store.get (PushStore.identifierOf endpoint) with
    | none => rfl
    | some subscription =>
      dsimp only
      rw [testRegistered_testTimes]
      cases s.allowsTest subscription.id now with
      | true => rfl
      | false => exact List.append_nil _
  · rw [if_neg hendpoint, if_neg hendpoint]

theorem queueAll_testTimes (events : List EventPayload) (clock : Nat → ℚ) (s : PushService) :
    (queueAll events clock s).2.testTimes = s.testTimes := by
  induction events generalizing clock s with
  | nil => rfl
  | cons event events ih =>
    unfold queueAll
    cases hqueue : s.queue event (clock 0) with
    | error e => rfl
    | ok o =>
      obtain ⟨reserved, s'⟩ := o
      dsimp only
      rw [ih]
      unfold queue at hqueue
      split at hqueue
      · split at hqueue
        · obtain ⟨-, rfl⟩ := Prod.mk.inj (Except.ok.inj hqueue)
          rfl
        · cases hqueue
      · obtain ⟨-, rfl⟩ := Prod.mk.inj (Except.ok.inj hqueue)
        rfl

theorem queueDetected_testTimes (s : PushService)
    (detected : EventProcessor × Option (List EventPayload)) (clock : Nat → ℚ) :
    (s.queueDetected detected clock).2.testTimes = s.testTimes := by
  unfold queueDetected
  dsimp only
  split
  · rfl
  · rw [queueAll_testTimes]

theorem finishOwned_testTimes (s : PushService) (d : Delivery) (retryAt : Option ℚ) (now : ℚ) :
    (s.finishOwned d retryAt now).testTimes = s.testTimes := by
  unfold finishOwned
  split
  · rfl
  · rfl

theorem settle_testTimes (s : PushService) (d : Delivery) (outcome : Outcome)
    (checked retried again : ℚ) :
    (s.settle d outcome checked retried again).testTimes = s.testTimes := by
  unfold settle
  dsimp only
  split
  · split
    · rfl
    · split
      · rw [finishOwned_testTimes]
        rfl
      · split
        · rw [finishOwned_testTimes]
        · rw [finishOwned_testTimes]
  all_goals rw [finishOwned_testTimes]

theorem work_testTimes (s : PushService) (w : Nat) (now : ℚ) (tie : Nat) :
    (s.work w now tie).testTimes = s.testTimes := by
  unfold work
  split
  · split
    · rfl
    · dsimp only
      split
      · rfl
      · unfold deliver
        split
        · rfl
        · split
          · rfl
          · rfl
  · rfl

theorem resume_testTimes (s : PushService) (w : Nat) (checked retried again : ℚ) :
    (s.resume w checked retried again).testTimes = s.testTimes := by
  unfold resume
  split
  · split
    · dsimp only
      split
      · rfl
      · unfold setWorker
        dsimp only
        rw [settle_testTimes]
    · rfl
  · rfl

end PushService

/-- The time of a call of `test`. -/
def testTime : ServiceOp → Option ℚ
  | .test _ _ now => some now
  | _ => none

/-- Nothing but `test` reads or writes the queue. -/
theorem serviceStep_testTimes {s : PushService} {op : ServiceOp} (h : testTime op = none) :
    (serviceStep onCurve s op).testTimes = s.testTimes := by
  cases op with
  | test endpoint uuid now => cases h
  | connect source owner force epoch now =>
    unfold serviceStep PushService.connect
    dsimp only
    split
    · split
      · rfl
      · rfl
    · rfl
  | disconnect party epoch now =>
    unfold serviceStep PushService.disconnect
    dsimp only
    split
    · rfl
    · rfl
  | register subscription selected now =>
    unfold serviceStep PushService.register
    dsimp only
    split
    · rfl
    · rfl
  | delete endpoint =>
    unfold serviceStep PushService.delete
    dsimp only
    split
    · rfl
    · rfl
  | native notifications now prime clock =>
    unfold serviceStep PushService.observeNative
    dsimp only
    split
    · exact PushService.queueDetected_testTimes s _ clock
    · rfl
  | sample kind identifier value now prime clock =>
    unfold serviceStep PushService.observeSample
    dsimp only
    split
    · exact PushService.queueDetected_testTimes s _ _
    · rfl
  | fail => rfl
  | work w now tie => exact s.work_testTimes w now tie
  | begin i now =>
    unfold serviceStep PushService.begin
    dsimp only
    split
    · rfl
    · rfl
  | finishSend i outcome now =>
    unfold serviceStep PushService.finishSend
    dsimp only
    split
    · rfl
    · rfl
  | resume w checked retried again => exact s.resume_testTimes w checked retried again

/-! ## The history of tests -/

/-- The time of a test that a step let through. -/
def queuedAt (x : PushService × ServiceOp) : Option ℚ :=
  match x.2 with
  | .test endpoint _ now => if x.1.testAnswer endpoint now = .queued then some now else none
  | _ => none

/-- The times of the tests that a run let through. -/
def queuedTests (s : PushService) (ops : List ServiceOp) : List ℚ :=
  (trace (serviceStep onCurve) s ops).filterMap queuedAt

theorem tests_guard :
    minute.Guards 10 (serviceStep onCurve) PushService.testTimes testTime queuedAt where
  idle s op htime := by
    refine ⟨?_, serviceStep_testTimes onCurve htime⟩
    cases op <;> first | rfl | cases htime
  asked s op t htime := by
    cases op with
    | test endpoint uuid now =>
      obtain rfl : now = t := Option.some.inj htime
      have hstep : serviceStep onCurve s (.test endpoint uuid now) = s.test endpoint uuid now := rfl
      have hqueued : queuedAt (s, .test endpoint uuid now) =
        if s.testAnswer endpoint now = .queued then some now else none := rfl
      rw [hstep, hqueued, PushService.test_testTimes]
      cases hanswer : s.testAnswer endpoint now with
      | queued => exact Or.inl ⟨rfl, ((queued_iff s endpoint now).mp hanswer).2.2.2, rfl⟩
      | limited => exact Or.inr ⟨rfl, Or.inl rfl⟩
      | unregistered => exact Or.inr ⟨rfl, Or.inr rfl⟩
      | invalid => exact Or.inr ⟨rfl, Or.inr rfl⟩
    | _ => cases htime

/-- **The limits on tests.** While the clock of `test` does not go back, the next test is let
    through exactly when its subscription has not been tested for a minute, there is room for a
    delivery, and the run let through fewer than ten in the last minute. No minute of the run has
    more than ten. -/
theorem tests_limited (store : PushStore) (epoch : Str) (start : ℚ) (ops : List ServiceOp)
    (endpoint uuid : Str) (now : ℚ)
    (hclock : ((ops ++ [ServiceOp.test endpoint uuid now]).filterMap testTime).Pairwise (· ≤ ·)) :
    let s := replay (serviceStep onCurve) (.started store epoch start) ops
    let queued := queuedTests onCurve (.started store epoch start) ops
    (s.testAnswer endpoint now = .queued ↔
      acceptsEndpoint endpoint = true ∧
      (∃ r ∈ s.store.subscriptions,
        r.id = PushStore.identifierOf endpoint ∧ r.lastTestAt ≤ now - 60) ∧
      (s.store.hasDeliveryCapacity now).1 = true ∧
      (queued.filter fun t => now - t < 60).length < 10) ∧
    ∀ moment, (queued.filter fun t => t ≤ moment ∧ moment - t < 60).length ≤ 10 := by
  rw [List.filterMap_append] at hclock
  obtain ⟨hinit, -, hlater⟩ := List.pairwise_append.mp hclock
  have hadmits := (tests_guard onCurve).run (s := .started store epoch start) rfl ops hinit
    fun t ht => hlater t ht now (by simp [testTime])
  refine ⟨?_, ?_⟩
  · rw [queued_iff, hadmits.prune_eq, minute_live]
    rfl
  · intro moment
    exact minute_window hadmits.limited hadmits.sorted moment

/-- The endpoint of the browser on a page. -/
def pageEndpoint (n : Nat) : Str := Str.lit "https://fcm.googleapis.com/" ++ natStr n

/-- The tables with a registration for each of eleven pages. -/
def elevenRegistrations : PushStore where
  subscriptions := (List.range 11).map fun n => ⟨PushStore.identifierOf (pageEndpoint n),
    { browser with endpoint := pageEndpoint n }, Preferences.default, 0, 0⟩
  events := []
  deliveries := []

/-- Ten pages are tested, one after the other. -/
def tenTests : List ServiceOp :=
  (List.range 10).map fun n => .test (pageEndpoint n) (natStr n) (100 + n)

/-- All ten tests are let through, and the one of the eleventh page is not. -/
theorem tests_limited_eleventh :
    (queuedTests (fun _ => true) (.started elevenRegistrations (Str.lit "e") 0) tenTests).length =
      10 ∧
    (replay (serviceStep fun _ => true) (.started elevenRegistrations (Str.lit "e") 0)
      tenTests).testAnswer (pageEndpoint 10) 115 ≠ .queued := by
  have hqueued : queuedTests (fun _ => true) (.started elevenRegistrations (Str.lit "e") 0)
      tenTests = (List.range 10).map fun n => (100 + n : ℚ) := by decide +kernel
  refine ⟨by rw [hqueued]; rfl, fun hanswer => ?_⟩
  have hfew := ((tests_limited (fun _ => true) elevenRegistrations (Str.lit "e") 0 tenTests
    (pageEndpoint 10) (Str.lit "u") 115 (by decide +kernel)).1.mp hanswer).2.2.2
  rw [hqueued] at hfew
  exact absurd hfew (by decide +kernel)

/-! ## Tests of one endpoint -/

section Apart

variable {onCurve} {s : PushService} {endpoint uuid : Str} {now : ℚ}

theorem get_of_mem {t : PushStore} (h : UniqueIds t) {r : Registration}
    (hr : r ∈ t.subscriptions) : t.get r.id = some r := by
  cases hget : t.get r.id with
  | none => exact absurd (decide_eq_true rfl) (List.find?_eq_none.mp hget r hr)
  | some q =>
    have hq : q ∈ t.subscriptions := List.mem_of_find?_eq_some hget
    rw [List.inj_on_of_nodup_map h hq hr (get_id hget)]

theorem test_deletes_nothing (id : Str) :
    StoreOp.delete id ∉ storeCalls onCurve s (.test endpoint uuid now) := by
  intro h
  unfold storeCalls at h
  dsimp only at h
  split at h
  · split at h
    · cases h
    · rcases PushService.mem_testCalls h with hcall | hcall | ⟨event, -, hcall⟩
      · cases hcall
      · cases hcall
      · cases hcall
  · cases h

/-- The calls of a test that was let through: the capacity check, the mark, the queueing. -/
theorem calls_of_queued (h : s.testAnswer endpoint now = .queued) :
    storeCalls onCurve s (.test endpoint uuid now) =
      .hasDeliveryCapacity now :: .allowTest (PushStore.identifierOf endpoint) now ::
        ((PushService.testEvent uuid now).map fun event => StoreOp.enqueue event.eventKey event
          [PushStore.identifierOf endpoint] now PushStore.testEpoch).toList := by
  obtain ⟨hendpoint, ⟨r, hr, hid, hdue⟩, hcapacity, hfew⟩ := (queued_iff s endpoint now).mp h
  have hlimit : ¬ (!(s.store.hasDeliveryCapacity now).1 ||
      decide (10 ≤ (s.testTimes.dropWhile fun t => decide (60 ≤ now - t)).length)) = true := by
    rw [Bool.or_eq_true, not_or, hcapacity, decide_eq_true_eq, not_le]
    exact ⟨by simp, hfew⟩
  have hallowed : ((s.store.hasDeliveryCapacity now).2.allowTest (PushStore.identifierOf endpoint)
      now).1 = true := List.any_eq_true.mpr ⟨r, hr, by simp [hid, hdue]⟩
  cases hget : s.store.get (PushStore.identifierOf endpoint) with
  | none => exact absurd (decide_eq_true hid) (List.find?_eq_none.mp hget r hr)
  | some subscription =>
    unfold storeCalls
    dsimp only
    rw [if_pos hendpoint, hget]
    dsimp only
    rw [get_id hget]
    unfold PushService.testCalls
    dsimp only
    rw [if_neg hlimit, if_pos hallowed]

/-- A test that was let through marks its row. -/
theorem get_of_queued (hunique : UniqueIds s.store) (h : s.testAnswer endpoint now = .queued) :
    ∃ r, (serviceStep onCurve s (.test endpoint uuid now)).store.get
      (PushStore.identifierOf endpoint) = some r ∧ now ≤ r.lastTestAt := by
  obtain ⟨-, ⟨r, hr, hid, hdue⟩, -⟩ := (queued_iff s endpoint now).mp h
  have hget : s.store.get (PushStore.identifierOf endpoint) = some r := hid ▸ get_of_mem hunique hr
  have hregister : ∀ c ∈ storeCalls onCurve s (.test endpoint uuid now), ∀ subscription preferences
      time, c ≠ .register subscription preferences time :=
    not_register_of_ne fun value selected time h => by cases h
  rw [serviceStep_store, get_replay hregister (test_deletes_nothing _), hget, calls_of_queued h]
  refine ⟨_, rfl, ?_⟩
  have hmarked : (tested (.allowTest (PushStore.identifierOf endpoint) now) r).lastTestAt = now := by
    simp [tested, hid, hdue]
  exact hmarked.symm.le.trans (le_testedBy _ _)

/-- A row that is not deleted keeps the time of its last test or gets a later one. -/
theorem lastTestAt_step {op : ServiceOp} {id : Str} {r : Registration}
    (hget : s.store.get id = some r) (hkept : StoreOp.delete id ∉ storeCalls onCurve s op) :
    ∃ r', (serviceStep onCurve s op).store.get id = some r' ∧ r.lastTestAt ≤ r'.lastTestAt := by
  by_cases hregistered : ∃ preferences, registration onCurve s op = some (id, preferences)
  · obtain ⟨preferences, hregistered⟩ := hregistered
    obtain ⟨subscription, time, hafter⟩ := get_of_registration hregistered
    rw [hget] at hafter
    exact ⟨_, hafter, le_refl _⟩
  · have huntouched : Untouched onCurve id (s, op) :=
      ⟨fun preferences h => hregistered ⟨preferences, h⟩, hkept⟩
    obtain ⟨calls, hafter⟩ := get_of_untouched huntouched
    rw [hget] at hafter
    exact ⟨_, hafter, le_testedBy calls r⟩

theorem lastTestAt_run {ops : List ServiceOp} {id : Str} {r : Registration}
    (hget : s.store.get id = some r)
    (hkept : ∀ x ∈ trace (serviceStep onCurve) s ops,
      StoreOp.delete id ∉ storeCalls onCurve x.1 x.2) :
    ∃ r', (replay (serviceStep onCurve) s ops).store.get id = some r' ∧
      r.lastTestAt ≤ r'.lastTestAt := by
  induction ops generalizing s r with
  | nil => exact ⟨r, hget, le_refl _⟩
  | cons op ops ih =>
    obtain ⟨q, hq, hle⟩ := lastTestAt_step hget (hkept (s, op) List.mem_cons_self)
    obtain ⟨r', hr', hle'⟩ := ih hq fun x hx => hkept x (List.mem_cons_of_mem _ hx)
    exact ⟨r', hr', hle.trans hle'⟩

/-- **Tests of one endpoint.** Two tests that are let through are a minute apart unless the
    registration was deleted in between; to register again does not help. -/
theorem tests_apart {store : PushStore} (hunique : UniqueIds store) (epoch : Str) (start : ℚ)
    (before mid : List ServiceOp) {uuid : Str} {next : ℚ}
    (h : (replay (serviceStep onCurve) (.started store epoch start) before).testAnswer endpoint
      now = .queued)
    (hnext : (replay (serviceStep onCurve) (.started store epoch start)
      (before ++ .test endpoint uuid now :: mid)).testAnswer endpoint next = .queued)
    (hkept : ∀ x ∈ trace (serviceStep onCurve) (replay (serviceStep onCurve)
        (.started store epoch start) (before ++ [.test endpoint uuid now])) mid,
      StoreOp.delete (PushStore.identifierOf endpoint) ∉ storeCalls onCurve x.1 x.2) :
    now + 60 ≤ next := by
  have hunique' := unique_replay onCurve (s := .started store epoch start) hunique before
  obtain ⟨r, hr, hmarked⟩ := @get_of_queued onCurve _ endpoint uuid now hunique' h
  rw [replay_append, replay_singleton] at hkept
  rw [replay_append] at hnext
  obtain ⟨r', hr', hle⟩ := lastTestAt_run hr hkept
  obtain ⟨-, ⟨q, hq, hid, hdue⟩, -⟩ := (queued_iff _ endpoint next).mp hnext
  have hunique'' := unique_replay onCurve hunique' (.test endpoint uuid now :: mid)
  have hsame := (get_of_mem hunique'' hq).symm.trans (hid ▸ hr')
  obtain rfl := Option.some.inj hsame
  linarith

end Apart

/-- The tables with one registration. -/
def oneRegistration : PushStore where
  subscriptions := [⟨PushStore.identifierOf browser.endpoint, browser, Preferences.default, 0, 0⟩]
  events := []
  deliveries := []

/-- A browser is tested, and registers again. -/
def testedAndBack : List ServiceOp :=
  [.test browser.endpoint (Str.lit "u") 100, .register browser.value Preferences.default.value 130]

/-- It is tested again a minute later. -/
theorem tests_apart_back :
    (replay (serviceStep fun _ => true) (.started oneRegistration (Str.lit "e") 0)
      ([] ++ testedAndBack)).testAnswer browser.endpoint 160 = .queued ∧ (100 : ℚ) + 60 ≤ 160 := by
  have hnext : (replay (serviceStep fun _ => true) (.started oneRegistration (Str.lit "e") 0)
      ([] ++ testedAndBack)).testAnswer browser.endpoint 160 = .queued := by decide +kernel
  have hunique : UniqueIds oneRegistration := List.nodup_singleton _
  refine ⟨hnext, tests_apart hunique (Str.lit "e") 0 [] _ (by decide +kernel) hnext ?_⟩
  intro x hx
  obtain rfl := List.mem_singleton.mp hx
  exact register_deletes_nothing _ _ _

end InverterDashboard.Push
