import InverterDashboard.Push.Events
import InverterDashboard.Push.Transport

/-
  `PushService`: one process that queues events and sends them with two workers.

  A step is what runs between two awaits. A claim, its checks and the creation of the send task are
  one step; the task begins in another, ends in another, and its worker resumes in another, with
  any calls in between. A worker that finds nothing to send for a row goes on at once in the
  program and in a later step here, which only adds interleavings.

  Left out are storage faults other than the call of `fail` they lead to, and `close`.
-/

namespace InverterDashboard.Push

open Python Cerbo

/-! ## Tasks -/

/-- How `transport.send` ends. -/
inductive Outcome where
  | status (code : Int)
  /-- `ValueError` or `TypeError`. -/
  | invalid
  /-- Any other exception. -/
  | failed
  /-- `CancelledError`. -/
  | cancelled
  deriving DecidableEq

inductive Stage where
  | created
  /-- Sending, since the task had its first turn. -/
  | running (since : ℚ)
  | done (outcome : Outcome)
  deriving DecidableEq

/-- The task of one send: the row it was claimed as, and when. `cancelled` records that `cancel`
    was called before it was done. -/
structure SendTask where
  delivery : Delivery
  claimedAt : ℚ
  stage : Stage
  cancelled : Bool
  deriving DecidableEq

/-- `task.cancel()`: nothing happens to a task that is done. -/
def SendTask.cancel (t : SendTask) : SendTask :=
  match t.stage with
  | .done _ => t
  | _ => { t with cancelled := true }

/-- An entry of `inflight`; tasks are numbered in the order of their creation. -/
structure Inflight where
  task : Nat
  epoch : Str
  subscriptionId : Str
  deriving DecidableEq

inductive WorkerStage where
  /-- At the top of its loop. -/
  | polling
  /-- Awaiting a send task. -/
  | sending (task : Nat)
  | ended
  deriving DecidableEq

structure Worker where
  stage : WorkerStage
  cancelled : Bool
  deriving DecidableEq

structure PushService where
  available : Bool
  /-- Its store is the store of the service. -/
  processor : EventProcessor
  connection : Option (Str × Nat)
  workers : List Worker
  tasks : List SendTask
  inflight : List Inflight
  testTimes : List ℚ

namespace PushService

def store (s : PushService) : PushStore := s.processor.store

def withStore (s : PushService) (t : PushStore) : PushService :=
  { s with processor := { s.processor with store := t } }

/-- `__init__` on a store that passes its checks, and `start`. -/
def started (store : PushStore) (epoch : Str) (now : ℚ) : PushService where
  available := true
  processor := (EventProcessor.init store).reset epoch now
  connection := none
  workers := [⟨.polling, false⟩, ⟨.polling, false⟩]
  tasks := []
  inflight := []
  testTimes := []

/-! ## Connections -/

/-- `task.cancel()` for the entries of `inflight` that match. -/
def cancelInflight (s : PushService) (p : Inflight → Bool) : PushService :=
  { s with tasks := s.tasks.mapIdx fun i t =>
      if s.inflight.any fun f => f.task = i && p f then t.cancel else t }

/-- `_retire`. -/
def retire (s : PushService) (epoch : Str) (now : ℚ) : PushService :=
  let s := s.cancelInflight fun f => f.epoch ≠ PushStore.testEpoch
  { s with processor := s.processor.reset epoch now }

/-- The source whose first list is empty and primes. -/
def mqttSource : Str := Str.lit "mqtt"

/-- Whether a call of `connect` retires the epoch. -/
def connects (s : PushService) (source : Str) (owner : Nat) (force : Bool) : Bool :=
  s.available && (force || s.connection ≠ some (source, owner))

/-- `connect`; its answer is `connects`. -/
def connect (s : PushService) (source : Str) (owner : Nat) (force : Bool) (epoch : Str) (now : ℚ) :
    PushService :=
  if s.connects source owner force then
    let s := { s.retire epoch now with connection := some (source, owner) }
    if source = mqttSource then { s with processor := (native s.processor [] now true).1 } else s
  else s

/-- Whether a call of `disconnect` retires the epoch; without a party every connection ends. -/
def disconnects (s : PushService) (party : Option (Str × Nat)) : Bool :=
  s.available && (party.isNone || s.connection = party)

/-- `disconnect`. -/
def disconnect (s : PushService) (party : Option (Str × Nat)) (epoch : Str) (now : ℚ) :
    PushService :=
  if s.disconnects party then { s with connection := none }.retire epoch now else s

/-- `fail`, called outside the workers. -/
def fail (s : PushService) : PushService :=
  { s.cancelInflight (fun _ => true) with
    available := false
    connection := none
    workers := s.workers.map fun w => { w with cancelled := true } }

/-! ## Subscriptions -/

variable (onCurve : List UInt8 → Bool)

/-- What a call of `register` registers, unless it raises: an identifier and its preferences. -/
def registers (s : PushService) (subscription selected : Value) (now : ℚ) :
    Option ((Str × Preferences) × PushStore) :=
  match validateSubscription onCurve subscription, preferencesOf selected with
  | some subscription, some preferences =>
    match s.store.register subscription preferences now with
    | .ok (identifier, t) => some ((identifier, preferences), t)
    | .error _ => none
  | _, _ => none

/-- `register`. -/
def register (s : PushService) (subscription selected : Value) (now : ℚ) : PushService :=
  match s.registers onCurve subscription selected now with
  | some (registered, t) =>
    (s.withStore t).cancelInflight fun f => f.subscriptionId = registered.1
  | none => s

/-- `delete`. -/
def delete (s : PushService) (endpoint : Str) : PushService :=
  if acceptsEndpoint endpoint then
    let identifier := PushStore.identifierOf endpoint
    let s := s.cancelInflight fun f => f.subscriptionId = identifier
    s.withStore (s.store.delete identifier)
  else s

/-- The event of a test notification; `uuid` is new. -/
def testEvent (uuid : Str) (now : ℚ) : Option EventPayload :=
  eventPayload (Str.lit "test") (Str.lit "system") uuid (nowMs now) now
    (Str.lit "Inverter Dashboard test") (Str.lit "This is a requested test notification.")

/-- The last lines of `test`. -/
def enqueueTest (s : PushService) (identifier uuid : Str) (now : ℚ) : PushService :=
  match testEvent uuid now with
  | none => s
  | some event =>
    match s.store.enqueue event.eventKey event [identifier] now PushStore.testEpoch with
    | .ok (_, t) => s.withStore t
    | .error _ => s

/-- The rate limits of `test`, for a registered subscription. -/
def testRegistered (s : PushService) (identifier uuid : Str) (now : ℚ) : PushService :=
  let recent := s.testTimes.dropWhile fun t => 60 ≤ now - t
  let capacity := s.store.hasDeliveryCapacity now
  let s : PushService := { s.withStore capacity.2 with testTimes := recent }
  if !capacity.1 || 10 ≤ recent.length then s
  else
    let allowed := s.store.allowTest identifier now
    let s := s.withStore allowed.2
    if allowed.1 then
      { s with testTimes := recent ++ [now] }.enqueueTest identifier uuid now
    else s

/-- `test`. -/
def test (s : PushService) (endpoint uuid : Str) (now : ℚ) : PushService :=
  if acceptsEndpoint endpoint then
    match s.store.get (PushStore.identifierOf endpoint) with
    | none => s
    | some subscription => s.testRegistered subscription.id uuid now
  else s

/-! ## Queueing -/

/-- The subscriptions that want an event, `ORDER BY id`. -/
def targets (s : PushService) (event : EventPayload) : List Str :=
  ((s.store.subscriptions.filter fun r => r.preferences.allows event.kind).map
    Registration.id).insertionSort fun a b => leText a b = true

/-- `queue`, with the answer of `enqueue`. -/
def queue (s : PushService) (event : EventPayload) (now : ℚ) :
    Except StoreError (Bool × PushService) :=
  if s.available && s.connection.isSome then
    match s.store.enqueue event.eventKey event (s.targets event) now s.processor.epoch with
    | .ok (reserved, t) => .ok (reserved, s.withStore t)
    | .error e => .error e
  else .ok (false, s)

/-- Queues events one by one and returns those that were reserved. `clock` is read once for each
    event; an exception ends the loop and disables the service. -/
def queueAll : List EventPayload → (Nat → ℚ) → PushService → List EventPayload × PushService
  | [], _, s => ([], s)
  | event :: events, clock, s =>
    match s.queue event (clock 0) with
    | .error _ => ([], s.fail)
    | .ok (reserved, s) =>
      let rest := queueAll events (fun i => clock (i + 1)) s
      ((if reserved then [event] else []) ++ rest.1, rest.2)

/-- Queues what the processor detected; a raised exception disables the service. -/
def queueDetected (s : PushService) (detected : EventProcessor × Option (List EventPayload))
    (clock : Nat → ℚ) : List EventPayload × PushService :=
  let s := { s with processor := detected.1 }
  match detected.2 with
  | none => ([], s.fail)
  | some events => queueAll events clock s

/-- The loop over `processor.native` in the observer. -/
def observeNative (s : PushService) (notifications : List Notification) (now : ℚ) (prime : Bool)
    (clock : Nat → ℚ) : List EventPayload × PushService :=
  if s.available then s.queueDetected (native s.processor notifications now prime) clock
  else ([], s)

/-- `queue(processor.sample(...))`. -/
def observeSample (s : PushService) (kind identifier : Str) (value : Option SampleValue) (now : ℚ)
    (prime : Bool) (clock : ℚ) : List EventPayload × PushService :=
  if s.available then
    let detected := sample s.processor kind identifier value now prime
    s.queueDetected (detected.1, detected.2.map Option.toList) fun _ => clock
  else ([], s)

/-! ## Workers -/

def setWorker (s : PushService) (w : Nat) (stage : WorkerStage) : PushService :=
  { s with workers := s.workers.modify w fun worker => { worker with stage := stage } }

/-- `epoch in ("test", self.processor.epoch)`. -/
def isCurrent (s : PushService) (epoch : Str) : Bool :=
  epoch = PushStore.testEpoch || epoch = s.processor.epoch

/-- The kind of a test notification needs no preference. -/
def wanted (preferences : Preferences) (kind : Str) : Bool :=
  kind = Str.lit "test" || preferences.allows kind

/-- Creates the send task of a claimed row. -/
def createTask (s : PushService) (w : Nat) (d : Delivery) (now : ℚ) : PushService :=
  let created : PushService := { s with
    tasks := s.tasks ++ [⟨d, now, .created, false⟩]
    inflight := s.inflight ++ [⟨s.tasks.length, d.epoch, d.subscriptionId⟩] }
  created.setWorker w (.sending s.tasks.length)

/-- `_deliver` up to its await. -/
def deliver (s : PushService) (w : Nat) (d : Delivery) (now : ℚ) : PushService :=
  match s.store.get d.subscriptionId with
  | none => s.withStore (s.store.finish d none)
  | some subscription =>
    if s.isCurrent d.epoch && wanted subscription.preferences d.payload.kind then
      s.createTask w d now
    else s.withStore (s.store.finish d none)

/-- One round of `_worker` up to its await. -/
def work (s : PushService) (w : Nat) (now : ℚ) (tie : Nat) : PushService :=
  match s.workers[w]? with
  | some ⟨.polling, cancelled⟩ =>
    if cancelled || !s.available then s.setWorker w .ended
    else
      let found := s.store.nextDelivery now tie
      let s := s.withStore found.2
      match found.1 with
      | none => s
      | some d => s.deliver w d now
  | _ => s

def setStage (s : PushService) (i : Nat) (stage : Stage) : PushService :=
  { s with tasks := s.tasks.modify i fun t => { t with stage := stage } }

/-- The task whose send begins, when its turn comes: one that was not cancelled before. -/
def begins (s : PushService) (i : Nat) : Option SendTask :=
  s.tasks[i]?.filter fun t => t.stage = .created && !t.cancelled

/-- The first step of a send task. -/
def begin (s : PushService) (i : Nat) (now : ℚ) : PushService :=
  match s.tasks[i]? with
  | some ⟨_, _, .created, cancelled⟩ =>
    s.setStage i (if cancelled then .done .cancelled else .running now)
  | _ => s

/-- The last step of a send task that has begun. -/
def finishSend (s : PushService) (i : Nat) (outcome : Outcome) : PushService :=
  match s.tasks[i]? with
  | some ⟨_, _, .running _, _⟩ => s.setStage i (.done outcome)
  | _ => s

/-- `_owns_delivery`. -/
def owns (s : PushService) (d : Delivery) (now : ℚ) : Bool :=
  s.available && s.isCurrent d.epoch && s.store.ownsDelivery d now

/-- `min(60, 5 * 2 ** attempts)`. -/
def backoff (attempts : Nat) : ℚ := min 60 (5 * 2 ^ attempts)

/-- The end of `_deliver`. -/
def finishOwned (s : PushService) (d : Delivery) (retryAt : Option ℚ) (now : ℚ) : PushService :=
  if s.owns d now then s.withStore (s.store.finish d retryAt) else s

/-- `_deliver` after its await. The clock is read for the first ownership check, for the time of a
    retry, and for the second ownership check. -/
def settle (s : PushService) (d : Delivery) (outcome : Outcome) (checked retried again : ℚ) :
    PushService :=
  let retryAt := retried + backoff d.attempts
  match outcome with
  | .status code =>
    if !s.owns d checked then s
    else if code = 404 || code = 410 then
      (s.withStore (s.store.delete d.subscriptionId)).finishOwned d none again
    else if code = 429 || 500 ≤ code then s.finishOwned d (some retryAt) again
    else s.finishOwned d none again
  | .failed => s.finishOwned d (some retryAt) again
  | .cancelled => s.finishOwned d none again
  | .invalid => s.finishOwned d none again

/-- The worker resumes after its send task is done. A cancelled worker ends. -/
def resume (s : PushService) (w : Nat) (checked retried again : ℚ) : PushService :=
  match s.workers[w]? with
  | some ⟨.sending i, cancelled⟩ =>
    match s.tasks[i]? with
    | some ⟨d, _, .done outcome, _⟩ =>
      let s := { s with inflight := s.inflight.filter (·.task ≠ i) }
      if cancelled then s.setWorker w .ended
      else (s.settle d outcome checked retried again).setWorker w .polling
    | _ => s
  | _ => s

end PushService

/-! ## Steps -/

/-- What happens between two awaits, with the values the step draws: readings of the clock, new
    identifiers, the choice between equal rows, the outcome of a send. -/
inductive ServiceOp where
  | connect (source : Str) (owner : Nat) (force : Bool) (epoch : Str) (now : ℚ)
  | disconnect (party : Option (Str × Nat)) (epoch : Str) (now : ℚ)
  | register (subscription selected : Value) (now : ℚ)
  | delete (endpoint : Str)
  | test (endpoint uuid : Str) (now : ℚ)
  | native (notifications : List Notification) (now : ℚ) (prime : Bool) (clock : Nat → ℚ)
  | sample (kind identifier : Str) (value : Option SampleValue) (now : ℚ) (prime : Bool) (clock : ℚ)
  | fail
  | work (worker : Nat) (now : ℚ) (tie : Nat)
  | begin (task : Nat) (now : ℚ)
  | finishSend (task : Nat) (outcome : Outcome) (now : ℚ)
  | resume (worker : Nat) (checked retried again : ℚ)

variable (onCurve : List UInt8 → Bool)

def serviceStep (s : PushService) : ServiceOp → PushService
  | .connect source owner force epoch now => s.connect source owner force epoch now
  | .disconnect party epoch now => s.disconnect party epoch now
  | .register subscription selected now => s.register onCurve subscription selected now
  | .delete endpoint => s.delete endpoint
  | .test endpoint uuid now => s.test endpoint uuid now
  | .native notifications now prime clock => (s.observeNative notifications now prime clock).2
  | .sample kind identifier value now prime clock =>
    (s.observeSample kind identifier value now prime clock).2
  | .fail => s.fail
  | .work worker now tie => s.work worker now tie
  | .begin task now => s.begin task now
  | .finishSend task outcome _ => s.finishSend task outcome
  | .resume worker checked retried again => s.resume worker checked retried again

end InverterDashboard.Push
