import InverterDashboard.Json.Scan
import InverterDashboard.Push.Limits
import InverterDashboard.Push.Rows

/-
  `PushAPI`: the HTTP endpoints over the service.

  A request passes the gates of `mutation` in one step. Its body arrives in another, in which the
  operation runs and the request is answered; any steps of the service and of other requests may
  lie in between. What `authorize` and `verify_origin` decide is an input of the first step, and
  `loads` stands for `json.loads` of bytes. Whether the store is broken is an input of the second:
  then the first call of the store raises `sqlite3.Error` or `OSError`, the service is disabled, and
  the answer is 503.

  `requests_limited` reads the rate limit off the history. `api_service` says that a run of the
  endpoints is a run of the service, in which every admitted request acts once at most, so that
  what holds of all runs of the service holds behind the endpoints: `status_iff` is an example.
-/

namespace InverterDashboard.Push

open Python Cerbo Bounded Temporal

/-! ## Bodies -/

/-- How the stream of a body ends. -/
inductive StreamEnd where
  | complete
  /-- `TimeoutError`. -/
  | timeout
  /-- `ClientDisconnect`. -/
  | disconnected
  deriving DecidableEq

/-- What follows the gates of a request. -/
structure Body where
  contentLength : Option Str
  chunks : List (List UInt8)
  ending : StreamEnd

/-- The loop over `request.stream()`; the error is a status. -/
def readStream (ending : StreamEnd) : List UInt8 → List (List UInt8) → Except Nat (List UInt8)
  | data, [] =>
    match ending with
    | .complete => .ok data
    | .timeout => .error 400
    | .disconnected => .error 500
  | data, chunk :: chunks =>
    let data := data ++ chunk
    if 8192 < data.length then .error 413 else readStream ending data chunks

section RequestBody

variable (loads : List UInt8 → Except Json.Failure Value)

/-- `request_body`; a `RecursionError` is not caught. -/
def requestBody (b : Body) : Except Nat (List (Str × Value)) :=
  let length := b.contentLength.map Str.toInt?
  if length = some none then .error 400
  else if length.join.any fun count => decide (count < 0) || decide (8192 < count) then .error 413
  else match readStream b.ending [] b.chunks with
    | .error status => .error status
    | .ok data =>
      match loads data with
      | .ok (.dict members) => .ok members
      | .ok _ => .error 400
      | .error .nesting => .error 500
      | .error _ => .error 400

end RequestBody

/-- `set(body) == {...}`. -/
def keysAre (names : List Str) (body : List (Str × Value)) : Bool :=
  body.all (fun e => e.1 ∈ names) && names.all fun n => (Dict.find n body).isSome

/-- `PushAPI.endpoint`; `none` when it raises. -/
def endpointOf (body : List (Str × Value)) : Option Str :=
  if keysAre [Str.lit "endpoint"] body then
    match Value.member (Str.lit "endpoint") body with
    | .str endpoint => some endpoint
    | _ => none
  else none

/-! ## Operations -/

inductive Route where
  | subscriptionStatus
  | subscribe
  | unsubscribe
  | test
  deriving DecidableEq

/-- What a request is answered. -/
inductive Answer where
  /-- `HTTPException`, or an exception that nothing catches: 500. -/
  | refused (status : Nat)
  /-- `{"registered": ..., "preferences": ...}` of `subscription_status`. -/
  | registration (preferences : Option Preferences)
  | registered (preferences : Preferences)
  | unregistered
  | queued
  deriving DecidableEq

/-- What `guarded` makes of a `sqlite3.Error` or an `OSError`. -/
def PushService.unavailable (s : PushService) : Answer × PushService := (.refused 503, s.fail)

/-- What `guarded` makes of an exception of the store; `IntegrityError` is a `sqlite3.Error`. -/
def PushService.guarded (s : PushService) : StoreError → Answer × PushService
  | .conflict => (.refused 409, s)
  | .subscriptionLimit => (.refused 429, s)
  | .payloadLimit => (.refused 400, s)
  | .unencodable => (.refused 400, s)
  | .foreignKey => s.unavailable

namespace PushService

variable (onCurve : List UInt8 → Bool)

/-- `registered`; `none` when it raises. -/
def registered (s : PushService) (endpoint : Str) : Option (Option Registration) :=
  if acceptsEndpoint endpoint then some (s.store.get (PushStore.identifierOf endpoint)) else none

/-- The operation of `subscription_status`. -/
def answerStatus (s : PushService) (body : List (Str × Value)) (broken : Bool) :
    Answer × PushService :=
  match (endpointOf body).bind s.registered with
  | none => (.refused 400, s)
  | some row =>
    if broken then s.unavailable else (.registration (row.map Registration.preferences), s)

/-- The operation of `subscribe`. -/
def answerSubscribe (s : PushService) (body : List (Str × Value)) (now : ℚ) (broken : Bool) :
    Answer × PushService :=
  let subscription := Value.member (Str.lit "subscription") body
  let selected := Value.member (Str.lit "preferences") body
  if keysAre [Str.lit "subscription", Str.lit "preferences"] body then
    match validateSubscription onCurve subscription, preferencesOf selected with
    | some valid, some preferences =>
      if broken then s.unavailable
      else match s.store.register valid preferences now with
        | .ok _ => (.registered preferences, s.register onCurve subscription selected now)
        | .error e => s.guarded e
    | _, _ => (.refused 400, s)
  else (.refused 400, s)

/-- The operation of `unsubscribe`: sends are cancelled before the row is deleted. -/
def answerUnsubscribe (s : PushService) (body : List (Str × Value)) (broken : Bool) :
    Answer × PushService :=
  match endpointOf body with
  | none => (.refused 400, s)
  | some endpoint =>
    if acceptsEndpoint endpoint then
      if broken then
        (s.cancelInflight fun f => f.subscriptionId = PushStore.identifierOf endpoint).unavailable
      else (.unregistered, s.delete endpoint)
    else (.refused 400, s)

/-- The exception of the last call of `test`, for a test that is let through. -/
def testFault (s : PushService) (endpoint uuid : Str) (now : ℚ) : Option StoreError :=
  let identifier := PushStore.identifierOf endpoint
  let marked := ((s.store.hasDeliveryCapacity now).2.allowTest identifier now).2
  match testEvent uuid now with
  | none => some .unencodable
  | some event =>
    match marked.enqueue event.eventKey event [identifier] now PushStore.testEpoch with
    | .ok _ => none
    | .error e => some e

/-- The operation of `test`. -/
def answerTest (s : PushService) (body : List (Str × Value)) (uuid : Str) (now : ℚ)
    (broken : Bool) : Answer × PushService :=
  match endpointOf body with
  | none => (.refused 400, s)
  | some endpoint =>
    if broken && acceptsEndpoint endpoint then s.unavailable else
    let tested := s.test endpoint uuid now
    match s.testAnswer endpoint now with
    | .invalid => (.refused 400, tested)
    | .unregistered => (.refused 404, tested)
    | .limited => (.refused 429, tested)
    | .queued =>
      match s.testFault endpoint uuid now with
      | none => (.queued, tested)
      | some e => tested.guarded e

/-- What a route does with the body of a request. -/
def serve (s : PushService) (route : Route) (body : List (Str × Value)) (uuid : Str) (now : ℚ)
    (broken : Bool) : Answer × PushService :=
  match route with
  | .subscriptionStatus => s.answerStatus body broken
  | .subscribe => s.answerSubscribe onCurve body now broken
  | .unsubscribe => s.answerUnsubscribe body broken
  | .test => s.answerTest body uuid now broken

end PushService

/-! ## Requests -/

structure PushAPI where
  service : Option PushService
  mutationTimes : List ℚ
  /-- The requests that await their bodies. -/
  pending : List Route

/-- `mutation` up to its await. `refused` is the status that `authorize` or `verify_origin`
    raises. -/
def PushAPI.mutation (a : PushAPI) (refused : Option Nat) (now : ℚ) : Except Nat Unit × PushAPI :=
  match refused with
  | some status => (.error status, a)
  | none =>
    let recent := a.mutationTimes.dropWhile fun t => 60 ≤ now - t
    if 60 ≤ recent.length then (.error 429, { a with mutationTimes := recent })
    else
      let admitted := { a with mutationTimes := recent ++ [now] }
      if a.service.any PushService.available then (.ok (), admitted) else (.error 503, admitted)

/-- A step of the endpoints or of the service behind them. -/
inductive ApiOp where
  | request (route : Route) (refused : Option Nat) (now : ℚ)
  | body (request : Nat) (body : Body) (uuid : Str) (now : ℚ) (broken : Bool)
  | service (op : ServiceOp)

section Step

variable (loads : List UInt8 → Except Json.Failure Value) (onCurve : List UInt8 → Bool)

/-- The answer of the step in which a body arrives, and the service after it. -/
def PushAPI.finish (s : PushService) (route : Route) (b : Body) (uuid : Str) (now : ℚ)
    (broken : Bool) : Answer × PushService :=
  match requestBody loads b with
  | .error status => (.refused status, s)
  | .ok body => s.serve onCurve route body uuid now broken

def apiStep (a : PushAPI) : ApiOp → PushAPI
  | .request route refused now =>
    match a.mutation refused now with
    | (.ok (), a) => { a with pending := a.pending ++ [route] }
    | (.error _, a) => a
  | .body i b uuid now broken =>
    match a.service, a.pending[i]? with
    | some s, some route =>
      { a with
        service := some (PushAPI.finish loads onCurve s route b uuid now broken).2
        pending := a.pending.eraseIdx i }
    | _, _ => a
  | .service op => { a with service := a.service.map fun s => serviceStep onCurve s op }

end Step

/-! ## The rate limit -/

/-- The time of a request that passes `authorize` and `verify_origin`. -/
def requestTime : ApiOp → Option ℚ
  | .request _ none now => some now
  | _ => none

/-- The time of a request that the rate limit lets through. -/
def admittedAt (x : PushAPI × ApiOp) : Option ℚ :=
  match x.2 with
  | .request _ none now => if (x.1.mutation none now).1 = .error 429 then none else some now
  | _ => none

/-- What the rate limit does, beside which a request may find no service. -/
theorem mutation_cases (a : PushAPI) (now : ℚ) :
    60 ≤ (minute.prune now a.mutationTimes).length ∧
      a.mutation none now =
        (.error 429, { a with mutationTimes := minute.prune now a.mutationTimes }) ∨
    (minute.prune now a.mutationTimes).length < 60 ∧ (a.mutation none now).1 ≠ .error 429 ∧
      (a.mutation none now).2 =
        { a with mutationTimes := minute.prune now a.mutationTimes ++ [now] } := by
  unfold PushAPI.mutation
  dsimp only
  split
  · next hfull => exact Or.inl ⟨hfull, rfl⟩
  · next hroom =>
    refine Or.inr ⟨Nat.lt_of_not_le hroom, ?_⟩
    split
    · exact ⟨by simp, rfl⟩
    · exact ⟨by simp, rfl⟩

section Runs

variable (loads : List UInt8 → Except Json.Failure Value) (onCurve : List UInt8 → Bool)

theorem request_times (a : PushAPI) (route : Route) (refused : Option Nat) (now : ℚ) :
    (apiStep loads onCurve a (.request route refused now)).mutationTimes =
      (a.mutation refused now).2.mutationTimes := by
  unfold apiStep
  dsimp only
  split
  · next b h => rw [h]
  · next b h => rw [h]

theorem requests_guard :
    minute.Guards 60 (apiStep loads onCurve) PushAPI.mutationTimes requestTime admittedAt where
  idle a op htime := by
    cases op with
    | request route refused now =>
      cases refused with
      | none => cases htime
      | some status => exact ⟨rfl, rfl⟩
    | body i b uuid now broken =>
      refine ⟨rfl, ?_⟩
      unfold apiStep
      dsimp only
      split <;> rfl
    | service op => exact ⟨rfl, rfl⟩
  asked a op t htime := by
    cases op with
    | request route refused now =>
      cases refused with
      | some status => cases htime
      | none =>
        obtain rfl : now = t := Option.some.inj htime
        have hadmitted : admittedAt (a, .request route none now) =
          if (a.mutation none now).1 = .error 429 then none else some now := rfl
        rw [request_times, hadmitted]
        rcases mutation_cases a now with ⟨-, hfull⟩ | ⟨hlt, hok, hafter⟩
        · rw [hfull]
          exact Or.inr ⟨rfl, Or.inl rfl⟩
        · rw [if_neg hok, hafter]
          exact Or.inl ⟨rfl, hlt, rfl⟩
    | body i b uuid now => cases htime
    | service op => cases htime

/-- **The rate limit of the endpoints.** While the clock does not go back, a request is answered
    429 at the gate exactly when 60 others were let through in the last minute, and no minute of
    the run has more than 60. -/
theorem requests_limited {a : PushAPI} (h0 : a.mutationTimes = []) (ops : List ApiOp) (route : Route)
    (now : ℚ)
    (hclock : ((ops ++ [ApiOp.request route none now]).filterMap requestTime).Pairwise (· ≤ ·)) :
    let admitted := (trace (apiStep loads onCurve) a ops).filterMap admittedAt
    (((replay (apiStep loads onCurve) a ops).mutation none now).1 = .error 429 ↔
      60 ≤ (admitted.filter fun t => now - t < 60).length) ∧
    ∀ moment, (admitted.filter fun t => t ≤ moment ∧ moment - t < 60).length ≤ 60 := by
  rw [List.filterMap_append] at hclock
  obtain ⟨hinit, -, hlater⟩ := List.pairwise_append.mp hclock
  have hadmits := (requests_guard loads onCurve).run h0 ops hinit
    fun t ht => hlater t ht now (by simp [requestTime])
  refine ⟨?_, ?_⟩
  · rw [← minute_live, ← hadmits.prune_eq]
    rcases mutation_cases (replay (apiStep loads onCurve) a ops) now with
      ⟨hfull, hanswer⟩ | ⟨hlt, hok, -⟩
    · simp [hanswer, hfull]
    · simp [hok, hlt]
  · intro moment
    exact minute_window hadmits.limited hadmits.sorted moment

end Runs

/-- The endpoints when the service starts. -/
def PushAPI.started (store : PushStore) (epoch : Str) (now : ℚ) : PushAPI :=
  ⟨some (.started store epoch now), [], []⟩

/-- Sixty requests at once: the next one is refused for a minute. -/
theorem requests_limited_burst :
    ((replay (apiStep (fun _ => .error .malformed) fun _ => true)
      (.started .empty (Str.lit "e") 0) (List.replicate 60 (.request .test none 100))).mutation none
        159).1 = .error 429 :=
  (requests_limited (fun _ => .error .malformed) (fun _ => true) rfl
    (List.replicate 60 (.request .test none 100)) .test 159 (by decide +kernel)).1.mpr
      (by decide +kernel)

/-! ## The service behind the endpoints -/

namespace PushService

/-- The calls of the service with which a route handles a body. -/
def serveOps (s : PushService) (route : Route) (body : List (Str × Value)) (uuid : Str) (now : ℚ) :
    List ServiceOp :=
  match route with
  | .subscriptionStatus => []
  | .subscribe =>
    if keysAre [Str.lit "subscription", Str.lit "preferences"] body then
      [.register (Value.member (Str.lit "subscription") body)
        (Value.member (Str.lit "preferences") body) now]
    else []
  | .unsubscribe => (endpointOf body).toList.map ServiceOp.delete
  | .test => (endpointOf body).toList.flatMap fun endpoint =>
      .test endpoint uuid now ::
        if s.testAnswer endpoint now = .queued ∧ s.testFault endpoint uuid now = some .foreignKey then
          [.fail]
        else []

variable (onCurve : List UInt8 → Bool)

/-- Whether a route comes to a call of the store. -/
def callsStore (route : Route) (body : List (Str × Value)) : Bool :=
  match route with
  | .subscribe => keysAre [Str.lit "subscription", Str.lit "preferences"] body &&
      (validateSubscription onCurve (Value.member (Str.lit "subscription") body)).isSome &&
      (preferencesOf (Value.member (Str.lit "preferences") body)).isSome
  | _ => (endpointOf body).any acceptsEndpoint

/-- The same, when the store may be broken. -/
def guardedOps (s : PushService) (route : Route) (body : List (Str × Value)) (uuid : Str) (now : ℚ)
    (broken : Bool) : List ServiceOp :=
  if broken && callsStore onCurve route body then [.fail] else s.serveOps route body uuid now

variable (s : PushService) (body : List (Str × Value)) (uuid : Str) (now : ℚ)

/-- `register` of the store raises one of two errors. -/
theorem register_error {t : PushStore} {subscription : Subscription} {preferences : Preferences}
    {e : StoreError} (h : t.register subscription preferences now = .error e) :
    e = .conflict ∨ e = .subscriptionLimit := by
  unfold PushStore.register at h
  dsimp only at h
  split at h
  · split at h
    · exact Or.inl (Except.error.inj h).symm
    · cases h
  · split at h
    · exact Or.inr (Except.error.inj h).symm
    · cases h

/-- `fail` cancels what was cancelled before it. -/
theorem fail_cancelInflight (p : Inflight → Bool) : (s.cancelInflight p).fail = s.fail := by
  unfold fail cancelInflight
  simp only [List.mapIdx_mapIdx, Bool.and_true]
  congr 2
  funext i t
  have hcancel : t.cancel.cancel = t.cancel := by
    unfold SendTask.cancel
    cases hstage : t.stage <;> simp [hstage]
  dsimp only [Function.comp]
  split
  · split
    · rw [hcancel]
    · rfl
  · next hnone =>
    rw [if_neg]
    intro hany
    refine hnone ?_
    rw [List.any_eq_true] at hany ⊢
    obtain ⟨f, hf, hboth⟩ := hany
    exact ⟨f, hf, (Bool.and_eq_true_iff.mp hboth).1⟩

theorem answerSubscribe_service : (s.answerSubscribe onCurve body now false).2 =
    replay (serviceStep onCurve) s (s.serveOps .subscribe body uuid now) := by
  unfold answerSubscribe serveOps
  dsimp only
  split
  · rw [replay_singleton]
    unfold serviceStep
    dsimp only
    split
    · next valid preferences hvalid hpreferences =>
      cases hregister : s.store.register valid preferences now with
      | ok o => rfl
      | error e =>
        unfold register registers
        rw [hvalid, hpreferences]
        dsimp only
        rw [hregister]
        rcases register_error now hregister with rfl | rfl
        · rfl
        · rfl
    · next hnone =>
      unfold register registers
      dsimp only
      split
      · next hsome =>
        split at hsome
        · next valid preferences hvalid hpreferences => exact absurd hpreferences (hnone _ _ hvalid)
        · cases hsome
      · rfl
  · rfl

theorem answerUnsubscribe_service : (s.answerUnsubscribe body false).2 =
    replay (serviceStep onCurve) s (s.serveOps .unsubscribe body uuid now) := by
  unfold answerUnsubscribe serveOps
  cases endpointOf body with
  | none => rfl
  | some endpoint =>
    show _ = s.delete endpoint
    dsimp only
    split
    · rfl
    · next hno =>
      unfold delete
      rw [if_neg hno]

theorem answerTest_service : (s.answerTest body uuid now false).2 =
    replay (serviceStep onCurve) s (s.serveOps .test body uuid now) := by
  unfold answerTest serveOps
  cases endpointOf body with
  | none => rfl
  | some endpoint =>
    show _ = replay (serviceStep onCurve) (s.test endpoint uuid now) (_ ++ [])
    rw [List.append_nil]
    dsimp only
    cases s.testAnswer endpoint now with
    | invalid => rfl
    | unregistered => rfl
    | limited => rfl
    | queued =>
      cases s.testFault endpoint uuid now with
      | none => rfl
      | some e => cases e <;> rfl

theorem answerStatus_service : (s.answerStatus body false).2 = s := by
  unfold answerStatus
  split <;> rfl

/-- A broken store is noticed by the operations that come to call it. -/
theorem serve_broken (route : Route) : s.serve onCurve route body uuid now true =
    if callsStore onCurve route body then s.unavailable
    else s.serve onCurve route body uuid now false := by
  unfold serve callsStore
  cases route with
  | subscriptionStatus =>
    unfold answerStatus registered
    cases endpointOf body with
    | none => rfl
    | some endpoint => by_cases haccepts : acceptsEndpoint endpoint = true <;> simp [haccepts]
  | subscribe =>
    unfold answerSubscribe
    dsimp only
    cases keysAre [Str.lit "subscription", Str.lit "preferences"] body with
    | false => rfl
    | true =>
      cases validateSubscription onCurve (Value.member (Str.lit "subscription") body) with
      | none => rfl
      | some subscription =>
        cases preferencesOf (Value.member (Str.lit "preferences") body) with
        | none => rfl
        | some preferences => rfl
  | unsubscribe =>
    unfold answerUnsubscribe unavailable
    cases endpointOf body with
    | none => rfl
    | some endpoint =>
      by_cases haccepts : acceptsEndpoint endpoint = true <;> simp [haccepts, fail_cancelInflight]
  | test =>
    unfold answerTest
    cases endpointOf body with
    | none => rfl
    | some endpoint => by_cases haccepts : acceptsEndpoint endpoint = true <;> simp [haccepts]

/-- An operation is what its calls do. -/
theorem serve_service (route : Route) (broken : Bool) :
    (s.serve onCurve route body uuid now broken).2 =
      replay (serviceStep onCurve) s (s.guardedOps onCurve route body uuid now broken) := by
  have hworks : (s.serve onCurve route body uuid now false).2 =
      replay (serviceStep onCurve) s (s.serveOps route body uuid now) := by
    cases route with
    | subscriptionStatus => exact s.answerStatus_service body
    | subscribe => exact s.answerSubscribe_service onCurve body uuid now
    | unsubscribe => exact s.answerUnsubscribe_service onCurve body uuid now
    | test => exact s.answerTest_service onCurve body uuid now
  unfold guardedOps
  cases broken with
  | false => exact hworks
  | true =>
    rw [serve_broken, Bool.true_and]
    split
    · rfl
    · exact hworks

end PushService

section Runs

variable (loads : List UInt8 → Except Json.Failure Value) (onCurve : List UInt8 → Bool)

/-- The calls of the service in a step. -/
def serviceOps (x : PushAPI × ApiOp) : List ServiceOp :=
  match x.2 with
  | .request _ _ _ => []
  | .body i b uuid now broken =>
    match x.1.service, x.1.pending[i]?, requestBody loads b with
    | some s, some route, .ok body => s.guardedOps onCurve route body uuid now broken
    | _, _, _ => []
  | .service op => [op]

theorem mutation_service (a : PushAPI) (refused : Option Nat) (now : ℚ) :
    (a.mutation refused now).2.service = a.service ∧
      (a.mutation refused now).2.pending = a.pending := by
  unfold PushAPI.mutation
  split
  · exact ⟨rfl, rfl⟩
  · dsimp only
    split
    · exact ⟨rfl, rfl⟩
    · split
      · exact ⟨rfl, rfl⟩
      · exact ⟨rfl, rfl⟩

theorem finish_service (s : PushService) (route : Route) (b : Body) (uuid : Str) (now : ℚ)
    (broken : Bool) :
    (PushAPI.finish loads onCurve s route b uuid now broken).2 =
      replay (serviceStep onCurve) s
        (match requestBody loads b with
        | .ok body => s.guardedOps onCurve route body uuid now broken
        | .error _ => []) := by
  unfold PushAPI.finish
  cases requestBody loads b with
  | error status => rfl
  | ok body => exact s.serve_service onCurve body uuid now route broken

theorem step_service (a : PushAPI) (op : ApiOp) :
    (apiStep loads onCurve a op).service =
      a.service.map fun s => replay (serviceStep onCurve) s (serviceOps loads onCurve (a, op)) := by
  cases op with
  | request route refused now =>
    have hservice := (mutation_service a refused now).1
    have hsame : a.service.map (fun s => replay (serviceStep onCurve) s
        (serviceOps loads onCurve (a, .request route refused now))) = a.service := Option.map_id'
    rw [hsame]
    unfold apiStep
    dsimp only
    split
    · next b h =>
      rw [h] at hservice
      exact hservice
    · next b h =>
      rw [h] at hservice
      exact hservice
  | body i b uuid now broken =>
    unfold apiStep serviceOps
    dsimp only
    cases hservice : a.service with
    | none => exact hservice
    | some s =>
      cases hpending : a.pending[i]? with
      | none => exact hservice
      | some route =>
        dsimp only
        rw [finish_service, Option.map_some]
        cases requestBody loads b with
        | error status => rfl
        | ok body => rfl
  | service op => rfl

theorem api_replay (a : PushAPI) (ops : List ApiOp) :
    (replay (apiStep loads onCurve) a ops).service = a.service.map fun s =>
      replay (serviceStep onCurve) s
        ((trace (apiStep loads onCurve) a ops).flatMap (serviceOps loads onCurve)) := by
  induction ops generalizing a with
  | nil => exact Option.map_id'.symm
  | cons op ops ih =>
    refine (ih (apiStep loads onCurve a op)).trans ?_
    rw [step_service, Option.map_map]
    refine congrArg (fun f => a.service.map f) ?_
    funext s
    exact (replay_append (serviceStep onCurve) s _ _).symm

/-! ## One action for each request -/

/-- Whether a step lets a request wait for its body. -/
def awaits (x : PushAPI × ApiOp) : Bool :=
  match x.2 with
  | .request _ refused now => (x.1.mutation refused now).1.isOk
  | _ => false

/-- Whether a step reads the body of a waiting request. -/
def finishes (x : PushAPI × ApiOp) : Bool :=
  match x.2 with
  | .body i _ _ _ _ => x.1.service.isSome && x.1.pending[i]?.isSome
  | _ => false

theorem waiting_step (a : PushAPI) (op : ApiOp) :
    (apiStep loads onCurve a op).pending.length + (finishes (a, op)).toNat =
      a.pending.length + (awaits (a, op)).toNat := by
  cases op with
  | request route refused now =>
    have hpending := (mutation_service a refused now).2
    unfold apiStep finishes awaits
    dsimp only
    split
    · next b h =>
      rw [h] at hpending ⊢
      have hsame : b.pending = a.pending := hpending
      simp [hsame, Except.isOk, Except.toBool]
    · next b h =>
      rw [h] at hpending ⊢
      have hsame : b.pending = a.pending := hpending
      simp [hsame, Except.isOk, Except.toBool]
  | body i b uuid now broken =>
    unfold apiStep finishes awaits
    dsimp only
    cases hservice : a.service with
    | none => simp
    | some s =>
      cases hpending : a.pending[i]? with
      | none => simp
      | some route =>
        obtain ⟨hi, -⟩ := List.getElem?_eq_some_iff.mp hpending
        simp [List.length_eraseIdx, hi]
        omega
  | service op => rfl

theorem waiting_run (a : PushAPI) (ops : List ApiOp) :
    (replay (apiStep loads onCurve) a ops).pending.length +
        (trace (apiStep loads onCurve) a ops).countP finishes =
      a.pending.length + (trace (apiStep loads onCurve) a ops).countP awaits := by
  induction ops generalizing a with
  | nil => rfl
  | cons op ops ih =>
    have hstep := waiting_step loads onCurve a op
    have hrest := ih (apiStep loads onCurve a op)
    have hcount : ∀ p : PushAPI × ApiOp → Bool,
        (trace (apiStep loads onCurve) a (op :: ops)).countP p =
          (trace (apiStep loads onCurve) (apiStep loads onCurve a op) ops).countP p +
            (p (a, op)).toNat := by
      intro p
      show ((a, op) :: trace (apiStep loads onCurve) (apiStep loads onCurve a op) ops).countP p = _
      rw [List.countP_cons]
      cases p (a, op) <;> simp
    rw [hcount finishes, hcount awaits]
    show (replay (apiStep loads onCurve) (apiStep loads onCurve a op) ops).pending.length + _ = _
    omega

theorem readStream_ok {ending : StreamEnd} {chunks : List (List UInt8)} {data all : List UInt8}
    (hdata : data.length ≤ 8192) (h : readStream ending data chunks = .ok all) :
    all = data ++ chunks.flatten ∧ all.length ≤ 8192 ∧ ending = .complete := by
  induction chunks generalizing data with
  | nil =>
    cases ending with
    | complete =>
      obtain rfl := Except.ok.inj h
      simp [hdata]
    | timeout => cases h
    | disconnected => cases h
  | cons chunk chunks ih =>
    unfold readStream at h
    dsimp only at h
    split at h
    · cases h
    · next hlength =>
      obtain ⟨rfl, hall⟩ := ih (Nat.le_of_not_lt hlength) h
      exact ⟨by simp, hall⟩

/-- A body that is read is an object of at most 8192 bytes that came to its end. -/
theorem requestBody_ok {b : Body} {members : List (Str × Value)}
    (h : requestBody loads b = .ok members) :
    b.chunks.flatten.length ≤ 8192 ∧ b.ending = .complete ∧
      loads b.chunks.flatten = .ok (.dict members) := by
  unfold requestBody at h
  dsimp only at h
  split at h
  · cases h
  · split at h
    · cases h
    · split at h
      · cases h
      · next data hdata =>
        obtain ⟨rfl, hlength, hending⟩ := readStream_ok (Nat.zero_le _) hdata
        rw [List.nil_append] at h hlength
        refine ⟨hlength, hending, ?_⟩
        split at h
        · next members' hloads =>
          obtain rfl := Except.ok.inj h
          exact hloads
        · cases h
        · cases h
        · cases h

theorem admitted_of_awaits {x : PushAPI × ApiOp} (h : awaits x = true) :
    (admittedAt x).isSome = true := by
  obtain ⟨a, op⟩ := x
  cases op with
  | body i b uuid now => cases h
  | service op => cases h
  | request route refused now =>
    cases refused with
    | some status => cases h
    | none =>
      have hok : (a.mutation none now).1 ≠ .error 429 := by
        intro hlimited
        unfold awaits at h
        dsimp only at h
        rw [hlimited] at h
        cases h
      unfold admittedAt
      dsimp only
      rw [if_neg hok]
      rfl

/-- **The endpoints and their service.** Behind a run of the endpoints is a run of the service. A
    call in it that the service did not make itself comes with the body of a waiting request, an
    object of at most 8192 bytes; and no more requests have been served than were let through. -/
theorem api_service {a : PushAPI} (h0 : a.pending = []) (ops : List ApiOp) :
    let history := trace (apiStep loads onCurve) a ops
    (replay (apiStep loads onCurve) a ops).service =
      a.service.map (fun s => replay (serviceStep onCurve) s (history.flatMap (serviceOps loads onCurve))) ∧
    (∀ x ∈ history, (∀ op, x.2 ≠ .service op) → serviceOps loads onCurve x ≠ [] →
      finishes x = true ∧ ∃ i b uuid now broken members, x.2 = .body i b uuid now broken ∧
        b.chunks.flatten.length ≤ 8192 ∧ b.ending = .complete ∧
        loads b.chunks.flatten = .ok (.dict members)) ∧
    history.countP finishes + (replay (apiStep loads onCurve) a ops).pending.length =
      history.countP awaits ∧
    history.countP awaits ≤ (history.filterMap admittedAt).length := by
  refine ⟨?_, ?_, ?_, ?_⟩
  · exact api_replay loads onCurve a ops
  · rintro ⟨b, op⟩ - hservice hops
    cases op with
    | request route refused now => exact absurd rfl hops
    | service op => exact absurd rfl (hservice op)
    | body i body uuid now broken =>
      unfold serviceOps at hops
      dsimp only at hops
      split at hops
      · next s route members hs hroute hmembers =>
        refine ⟨?_, i, body, uuid, now, broken, members, rfl, requestBody_ok loads hmembers⟩
        unfold finishes
        dsimp only
        rw [hs, hroute]
        rfl
      · exact absurd rfl hops
  · have hcount := waiting_run loads onCurve a ops
    rw [h0, List.length_nil] at hcount
    omega
  · rw [List.length_filterMap_eq_countP]
    exact List.countP_mono_left fun x _ h => admitted_of_awaits h

/-! ## A status -/

/-- **What `/subscription/status` reports.** An endpoint is registered with some preferences when
    the run behind the endpoints last registered it with these and has not deleted it since, or when
    it was so at the start and the run has not touched it. -/
theorem status_iff {store : PushStore} {endpoint : Str} (hendpoint : acceptsEndpoint endpoint = true)
    (epoch : Str) (start : ℚ) {a : PushAPI}
    (ha : a.service = some (.started store epoch start)) (ops : List ApiOp) {b : Body}
    {members : List (Str × Value)} (hbody : requestBody loads b = .ok members)
    (hmembers : endpointOf members = some endpoint) (uuid : Str) (now : ℚ)
    (preferences : Preferences) :
    ∃ s, (replay (apiStep loads onCurve) a ops).service = some s ∧
      ((PushAPI.finish loads onCurve s .subscriptionStatus b uuid now false).1 =
          .registration (some preferences) ↔
        Since (Untouched onCurve (PushStore.identifierOf endpoint))
            (fun x => registration onCurve x.1 x.2 =
              some (PushStore.identifierOf endpoint, preferences))
            (trace (serviceStep onCurve) (.started store epoch start)
              ((trace (apiStep loads onCurve) a ops).flatMap (serviceOps loads onCurve))) ∨
          (store.get (PushStore.identifierOf endpoint)).map Registration.preferences =
              some preferences ∧
            ∀ x ∈ trace (serviceStep onCurve) (.started store epoch start)
                ((trace (apiStep loads onCurve) a ops).flatMap (serviceOps loads onCurve)),
              Untouched onCurve (PushStore.identifierOf endpoint) x) := by
  have hservice := api_replay loads onCurve a ops
  rw [ha, Option.map_some] at hservice
  refine ⟨_, hservice, ?_⟩
  rw [← registered_iff]
  unfold PushAPI.finish
  rw [hbody]
  show ((PushService.answerStatus _ members false).1 = _) ↔ _
  unfold PushService.answerStatus PushService.registered
  rw [hmembers, Option.bind_some, if_pos hendpoint]
  exact ⟨fun h => Answer.registration.inj h, fun h => congrArg Answer.registration h⟩

end Runs

/-- `json.loads` of ASCII bytes. -/
def asciiLoads (bytes : List UInt8) : Except Json.Failure Value :=
  (Json.loads 1000 (bytes.map fun b => CodePoint.ofChar (Char.ofNat b.toNat))).map
    (Json.Tree.value Json.Tree.rounded)

/-- A body that names the endpoint of a browser. -/
def endpointBody : Body where
  contentLength := some (Str.lit "43")
  chunks := ["\x7b\"endpoint\":", "\"https://fcm.googleapis.com/a\"\x7d"].map fun text =>
    text.toList.map fun c => UInt8.ofNat c.toNat
  ending := .complete

/-- Two requests, one of which has sent its body. -/
theorem api_service_two :
    let ops : List ApiOp := [.request .test none 1, .request .unsubscribe none 2,
      .body 1 endpointBody (Str.lit "u") 3 false]
    (trace (apiStep asciiLoads fun _ => true) (.started .empty (Str.lit "e") 0) ops).countP finishes +
      (replay (apiStep asciiLoads fun _ => true) (.started .empty (Str.lit "e") 0) ops).pending.length =
    (trace (apiStep asciiLoads fun _ => true) (.started .empty (Str.lit "e") 0) ops).countP awaits :=
  (api_service asciiLoads (fun _ => true) rfl _).2.2.1

/-- A browser that has registered. -/
theorem status_iff_browser :
    ∃ s, (replay (apiStep asciiLoads fun _ => true) (.started .empty (Str.lit "e") 0)
        [.service (.register browser.value Preferences.default.value 10)]).service = some s ∧
      (PushAPI.finish asciiLoads (fun _ => true) s .subscriptionStatus endpointBody (Str.lit "u")
        20 false).1 = .registration (some Preferences.default) := by
  have hread : (requestBody asciiLoads endpointBody).toOption.bind endpointOf =
      some browser.endpoint := by decide +kernel
  obtain ⟨members, hsome, hmembers⟩ := Option.bind_eq_some_iff.mp hread
  have hbody : requestBody asciiLoads endpointBody = .ok members := by
    cases hcase : requestBody asciiLoads endpointBody with
    | error status =>
      rw [hcase] at hsome
      cases hsome
    | ok found =>
      rw [hcase] at hsome
      exact congrArg Except.ok (Option.some.inj hsome)
  obtain ⟨s, hs, hstatus⟩ := status_iff asciiLoads (fun _ => true) (by decide +kernel)
    (Str.lit "e") 0 (a := .started .empty (Str.lit "e") 0) rfl
    [.service (.register browser.value Preferences.default.value 10)] hbody hmembers (Str.lit "u") 20
    Preferences.default
  exact ⟨s, hs, hstatus.mpr (Or.inl (Since.now (l := []) (by decide +kernel)))⟩

/-! ## What an answer promises -/

variable (onCurve : List UInt8 → Bool)

end InverterDashboard.Push
