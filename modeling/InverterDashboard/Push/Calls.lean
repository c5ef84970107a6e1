import InverterDashboard.Push.Identity
import InverterDashboard.Push.Service

/-
  The service as a client of its store: the calls that each step makes, in order.

  `storeCalls` lists them, and `serviceStep_store` says that they are all that happens to the
  tables. What a step does beside the store is in `Quiet` and the lemmas after it: only the steps
  of workers and send tasks, and the calls that cancel, touch a task.
-/

namespace InverterDashboard.Push

open Python Cerbo Bounded Temporal

/-! ## The calls of a step -/

/-- A baseline of this notification exists under its title: it is not new, it got its time. -/
def hydrates (p : EventProcessor) (n : Notification) : Bool :=
  (p.unknownPrimed.get? n.identifier).any fun occurrence => occurrence.1 = n.title

/-- The identity that `_native_event` remembers instead of reporting the event. -/
def remembered (p : EventProcessor) (n : Notification) (now : ℚ) (prime : Bool) : Option Str :=
  (timestampMs n.ts).bind fun sourceMs =>
    (n.payload sourceMs now).bind fun event =>
      if prime || hydrates p n || n.urgent && !inWindow p.startedAt now sourceMs then
        some event.eventKey
      else none

def nativeCalls (now : ℚ) (prime : Bool) : List Notification → EventProcessor → List StoreOp
  | [], _ => []
  | n :: ns, p =>
    ((remembered p n now prime).map fun key => StoreOp.remember key now).toList ++
      match nativeEvent p n now prime with
      | (_, none) => []
      | (p, some _) => nativeCalls now prime ns p

/-- The processor at the first notification of a call of `native`. -/
def nativeStart (p : EventProcessor) (notifications : List Notification) : EventProcessor :=
  let present := (notifications.take nativeLimit).map Notification.identifier
  { p with unknownPrimed := keepPresent p.unknownPrimed present }

namespace PushService

def queueCall (s : PushService) (event : EventPayload) (now : ℚ) : List StoreOp :=
  if s.available && s.connection.isSome then
    [.enqueue event.eventKey event (s.targets event) now s.processor.epoch]
  else []

def queueCalls : List EventPayload → (Nat → ℚ) → PushService → List StoreOp
  | [], _, _ => []
  | event :: events, clock, s =>
    s.queueCall event (clock 0) ++
      match s.queue event (clock 0) with
      | .error _ => []
      | .ok (_, s) => queueCalls events (fun i => clock (i + 1)) s

def detectedCalls (s : PushService) (detected : EventProcessor × Option (List EventPayload))
    (clock : Nat → ℚ) : List StoreOp :=
  match detected.2 with
  | none => []
  | some events => queueCalls events clock { s with processor := detected.1 }

def testCalls (s : PushService) (identifier uuid : Str) (now : ℚ) : List StoreOp :=
  let recent := s.testTimes.dropWhile fun t => 60 ≤ now - t
  let capacity := s.store.hasDeliveryCapacity now
  .hasDeliveryCapacity now ::
    if !capacity.1 || 10 ≤ recent.length then []
    else .allowTest identifier now ::
      if (capacity.2.allowTest identifier now).1 then
        ((testEvent uuid now).map fun event =>
          StoreOp.enqueue event.eventKey event [identifier] now PushStore.testEpoch).toList
      else []

def deliverCalls (s : PushService) (d : Delivery) : List StoreOp :=
  match s.store.get d.subscriptionId with
  | none => [.finish d none]
  | some subscription =>
    if s.isCurrent d.epoch && wanted subscription.preferences d.payload.kind then []
    else [.finish d none]

def workCalls (s : PushService) (w : Nat) (now : ℚ) (tie : Nat) : List StoreOp :=
  match s.workers[w]? with
  | some ⟨.polling, cancelled⟩ =>
    if cancelled || !s.available then []
    else
      let found := s.store.nextDelivery now tie
      .nextDelivery now tie ::
        match found.1 with
        | none => []
        | some d => (s.withStore found.2).deliverCalls d
  | _ => []

def finishCalls (s : PushService) (d : Delivery) (retryAt : Option ℚ) (now : ℚ) : List StoreOp :=
  if s.owns d now then [.finish d retryAt] else []

def settleCalls (s : PushService) (d : Delivery) (outcome : Outcome) (checked retried again : ℚ) :
    List StoreOp :=
  let retryAt := retried + backoff d.attempts
  match outcome with
  | .status code =>
    if !s.owns d checked then []
    else if code = 404 || code = 410 then
      .delete d.subscriptionId ::
        (s.withStore (s.store.delete d.subscriptionId)).finishCalls d none again
    else if code = 429 || 500 ≤ code then s.finishCalls d (some retryAt) again
    else s.finishCalls d none again
  | .failed => s.finishCalls d (some retryAt) again
  | .cancelled => s.finishCalls d none again
  | .invalid => s.finishCalls d none again

def resumeCalls (s : PushService) (w : Nat) (checked retried again : ℚ) : List StoreOp :=
  match s.workers[w]? with
  | some ⟨.sending i, cancelled⟩ =>
    match s.tasks[i]? with
    | some ⟨d, _, .done outcome, _⟩ =>
      if cancelled then [] else s.settleCalls d outcome checked retried again
    | _ => []
  | _ => []

end PushService

variable (onCurve : List UInt8 → Bool)

/-- The calls of a step. -/
def storeCalls (s : PushService) : ServiceOp → List StoreOp
  | .connect source owner force epoch _ =>
    if s.connects source owner force then [.retireEpochs epoch] else []
  | .disconnect party epoch _ => if s.disconnects party then [.retireEpochs epoch] else []
  | .register subscription selected now =>
    match validateSubscription onCurve subscription, preferencesOf selected with
    | some subscription, some preferences => [.register subscription preferences now]
    | _, _ => []
  | .delete endpoint =>
    if acceptsEndpoint endpoint then [.delete (PushStore.identifierOf endpoint)] else []
  | .test endpoint uuid now =>
    if acceptsEndpoint endpoint then
      match s.store.get (PushStore.identifierOf endpoint) with
      | none => []
      | some subscription => s.testCalls subscription.id uuid now
    else []
  | .native notifications now prime clock =>
    if s.available then
      nativeCalls now (s.processor.primes prime) (notifications.take nativeLimit)
          (nativeStart s.processor notifications) ++
        s.detectedCalls (native s.processor notifications now prime) clock
    else []
  | .sample kind identifier value now prime clock =>
    if s.available then
      let detected := sample s.processor kind identifier value now prime
      s.detectedCalls (detected.1, detected.2.map Option.toList) fun _ => clock
    else []
  | .fail => []
  | .work worker now tie => s.workCalls worker now tie
  | .begin _ _ => []
  | .finishSend _ _ _ => []
  | .resume worker checked retried again => s.resumeCalls worker checked retried again

/-! ## The processor's calls -/

theorem nativeEvent_store (p : EventProcessor) (n : Notification) (now : ℚ) (prime : Bool) :
    (nativeEvent p n now prime).1.store = replay storeStep p.store
      ((remembered p n now prime).map fun key => StoreOp.remember key now).toList := by
  unfold nativeEvent remembered
  cases htime : timestampMs n.ts with
  | none =>
    dsimp only [Option.bind]
    split <;> rfl
  | some sourceMs =>
    dsimp only [Option.bind]
    cases hevent : n.payload sourceMs now with
    | none => rfl
    | some event =>
      dsimp only
      have hhyd : (Option.any (fun occurrence => decide (occurrence.1 = n.title))
          (p.unknownPrimed.get? n.identifier)) = hydrates p n := rfl
      rw [hhyd]
      cases hquiet : prime || hydrates p n with
      | true => rfl
      | false =>
        cases hurgent : n.urgent with
        | false => rfl
        | true =>
          cases hwindow : inWindow p.startedAt now sourceMs with
          | true => rfl
          | false => rfl

theorem nativeEvents_store (now : ℚ) (prime : Bool) (ns : List Notification)
    (p : EventProcessor) :
    (nativeEvents now prime ns p).1.store = replay storeStep p.store
      (nativeCalls now prime ns p) := by
  induction ns generalizing p with
  | nil => rfl
  | cons n ns ih =>
    have hstore := nativeEvent_store p n now prime
    unfold nativeEvents nativeCalls
    rw [replay_append, ← hstore]
    cases hevent : nativeEvent p n now prime with
    | mk q out =>
      cases out with
      | none => rfl
      | some event => exact ih q

/-- `native` leaves what its loop leaves, apart from `nativePrimed`. -/
theorem native_keeps {α : Type} (f : EventProcessor → α)
    (hf : ∀ q : EventProcessor, f { q with nativePrimed := true } = f q)
    (p : EventProcessor) (ns : List Notification) (now : ℚ) (prime : Bool) :
    f (native p ns now prime).1 =
      f (nativeEvents now (p.primes prime) (ns.take nativeLimit) (nativeStart p ns)).1 := by
  unfold native
  dsimp only
  split
  · next q hevents =>
    rw [show nativeEvents now (p.primes prime) (ns.take nativeLimit) (nativeStart p ns) =
      (q, none) from hevents]
  · next q events hevents =>
    rw [show nativeEvents now (p.primes prime) (ns.take nativeLimit) (nativeStart p ns) =
      (q, some events) from hevents]
    exact hf q

theorem native_store (p : EventProcessor) (ns : List Notification) (now : ℚ) (prime : Bool) :
    (native p ns now prime).1.store = replay storeStep p.store
      (nativeCalls now (p.primes prime) (ns.take nativeLimit) (nativeStart p ns)) := by
  have hkeeps := native_keeps (fun q => q.store) (fun _ => rfl) p ns now prime
  exact hkeeps.trans (nativeEvents_store now (p.primes prime) _ (nativeStart p ns))

theorem sample_store (p : EventProcessor) (kind identifier : Str) (value : Option SampleValue)
    (now : ℚ) (prime : Bool) : (sample p kind identifier value now prime).1.store = p.store := by
  unfold sample
  dsimp only
  split
  · rfl
  · split
    · rfl
    · split
      · rfl
      · split
        · rfl
        · rfl

/-! ## The processor keeps its epoch -/

theorem nativeEvent_epoch (p : EventProcessor) (n : Notification) (now : ℚ) (prime : Bool) :
    (nativeEvent p n now prime).1.epoch = p.epoch ∧
      (nativeEvent p n now prime).1.startedAt = p.startedAt ∧
      (nativeEvent p n now prime).1.nativePrimed = p.nativePrimed := by
  unfold nativeEvent
  split
  · split <;> exact ⟨rfl, rfl, rfl⟩
  · split
    · exact ⟨rfl, rfl, rfl⟩
    · dsimp only
      split
      · exact ⟨rfl, rfl, rfl⟩
      · split
        · exact ⟨rfl, rfl, rfl⟩
        · split <;> exact ⟨rfl, rfl, rfl⟩

theorem nativeEvents_epoch (now : ℚ) (prime : Bool) (ns : List Notification) (p : EventProcessor) :
    (nativeEvents now prime ns p).1.epoch = p.epoch := by
  induction ns generalizing p with
  | nil => rfl
  | cons n ns ih =>
    have hone := (nativeEvent_epoch p n now prime).1
    unfold nativeEvents
    cases hevent : nativeEvent p n now prime with
    | mk q out =>
      rw [hevent] at hone
      cases out with
      | none => exact hone
      | some event => exact (ih q).trans hone

theorem native_epoch (p : EventProcessor) (ns : List Notification) (now : ℚ) (prime : Bool) :
    (native p ns now prime).1.epoch = p.epoch := by
  have hkeeps := native_keeps (fun q => q.epoch) (fun _ => rfl) p ns now prime
  exact hkeeps.trans (nativeEvents_epoch now (p.primes prime) _ (nativeStart p ns))

theorem sample_epoch (p : EventProcessor) (kind identifier : Str) (value : Option SampleValue)
    (now : ℚ) (prime : Bool) : (sample p kind identifier value now prime).1.epoch = p.epoch := by
  unfold sample
  dsimp only
  split
  · rfl
  · split
    · rfl
    · split
      · rfl
      · split <;> rfl

/-! ## Every change of the tables is a call -/

namespace PushService

@[simp] theorem store_withStore (s : PushService) (t : PushStore) : (s.withStore t).store = t := rfl

@[simp] theorem store_cancelInflight (s : PushService) (p : Inflight → Bool) :
    (s.cancelInflight p).store = s.store := rfl

@[simp] theorem store_setWorker (s : PushService) (w : Nat) (stage : WorkerStage) :
    (s.setWorker w stage).store = s.store := rfl

@[simp] theorem store_fail (s : PushService) : s.fail.store = s.store := rfl

theorem queue_store (s : PushService) (event : EventPayload) (now : ℚ) :
    replay storeStep s.store (s.queueCall event now) =
      match s.queue event now with
      | .ok (_, s') => s'.store
      | .error _ => s.store := by
  unfold queue queueCall
  split
  · rw [replay_singleton]
    unfold storeStep
    dsimp only
    cases s.store.enqueue event.eventKey event (s.targets event) now s.processor.epoch with
    | ok o => rfl
    | error e => rfl
  · rfl

theorem queueAll_store (events : List EventPayload) (clock : Nat → ℚ) (s : PushService) :
    (queueAll events clock s).2.store = replay storeStep s.store (queueCalls events clock s) := by
  induction events generalizing clock s with
  | nil => rfl
  | cons event events ih =>
    have hcall := queue_store s event (clock 0)
    unfold queueAll queueCalls
    rw [replay_append, hcall]
    cases s.queue event (clock 0) with
    | error e => rfl
    | ok o => exact ih _ o.2

theorem queueDetected_store (s : PushService)
    (detected : EventProcessor × Option (List EventPayload)) (clock : Nat → ℚ) :
    (s.queueDetected detected clock).2.store =
      replay storeStep detected.1.store (s.detectedCalls detected clock) := by
  unfold queueDetected detectedCalls
  dsimp only
  cases detected.2 with
  | none => rfl
  | some events => exact queueAll_store events clock _

theorem enqueueTest_store (s : PushService) (identifier uuid : Str) (now : ℚ) :
    (s.enqueueTest identifier uuid now).store = replay storeStep s.store
      ((testEvent uuid now).map fun event =>
        StoreOp.enqueue event.eventKey event [identifier] now PushStore.testEpoch).toList := by
  unfold enqueueTest
  cases testEvent uuid now with
  | none => rfl
  | some event =>
    rw [Option.map_some, Option.toList_some, replay_singleton]
    unfold storeStep
    dsimp only
    cases s.store.enqueue event.eventKey event [identifier] now PushStore.testEpoch with
    | ok o => rfl
    | error e => rfl

theorem testRegistered_store (s : PushService) (identifier uuid : Str) (now : ℚ) :
    (s.testRegistered identifier uuid now).store =
      replay storeStep s.store (s.testCalls identifier uuid now) := by
  unfold testRegistered testCalls
  dsimp only
  by_cases hlimit : (!(s.store.hasDeliveryCapacity now).1 ||
      decide (10 ≤ (s.testTimes.dropWhile fun t => decide (60 ≤ now - t)).length)) = true
  · rw [if_pos hlimit, if_pos hlimit]
    rfl
  · rw [if_neg hlimit, if_neg hlimit]
    by_cases hallowed : ((s.store.hasDeliveryCapacity now).2.allowTest identifier now).1 = true
    · rw [if_pos hallowed]
      exact (congrArg store (if_pos hallowed)).trans (enqueueTest_store _ identifier uuid now)
    · rw [if_neg hallowed]
      exact congrArg store (if_neg hallowed)

theorem deliver_store (s : PushService) (w : Nat) (d : Delivery) (now : ℚ) :
    (s.deliver w d now).store = replay storeStep s.store (s.deliverCalls d) := by
  unfold deliver deliverCalls
  cases s.store.get d.subscriptionId with
  | none => rfl
  | some subscription =>
    by_cases h : (s.isCurrent d.epoch && wanted subscription.preferences d.payload.kind) = true
    · dsimp only
      rw [if_pos h, if_pos h]
      rfl
    · dsimp only
      rw [if_neg h, if_neg h]
      rfl

theorem work_store (s : PushService) (w : Nat) (now : ℚ) (tie : Nat) :
    (s.work w now tie).store = replay storeStep s.store (s.workCalls w now tie) := by
  unfold work workCalls
  cases s.workers[w]? with
  | none => rfl
  | some worker =>
    obtain ⟨stage, cancelled⟩ := worker
    cases stage with
    | sending i => rfl
    | ended => rfl
    | polling =>
      by_cases hstop : (cancelled || !s.available) = true
      · dsimp only
        rw [if_pos hstop, if_pos hstop]
        rfl
      · dsimp only
        rw [if_neg hstop, if_neg hstop]
        cases (s.store.nextDelivery now tie).1 with
        | none => rfl
        | some d => exact deliver_store _ w d now

theorem finishOwned_store (s : PushService) (d : Delivery) (retryAt : Option ℚ) (now : ℚ) :
    (s.finishOwned d retryAt now).store = replay storeStep s.store (s.finishCalls d retryAt now) := by
  unfold finishOwned finishCalls
  split
  · rfl
  · rfl

theorem settle_store (s : PushService) (d : Delivery) (outcome : Outcome)
    (checked retried again : ℚ) :
    (s.settle d outcome checked retried again).store =
      replay storeStep s.store (s.settleCalls d outcome checked retried again) := by
  unfold settle settleCalls
  dsimp only
  cases outcome with
  | status code =>
    dsimp only
    split
    · rfl
    · split
      · exact finishOwned_store _ d none again
      · split
        · exact finishOwned_store s d _ again
        · exact finishOwned_store s d none again
  | invalid => exact finishOwned_store s d none again
  | failed => exact finishOwned_store s d _ again
  | cancelled => exact finishOwned_store s d none again

theorem resume_store (s : PushService) (w : Nat) (checked retried again : ℚ) :
    (s.resume w checked retried again).store =
      replay storeStep s.store (s.resumeCalls w checked retried again) := by
  unfold resume resumeCalls
  cases s.workers[w]? with
  | none => rfl
  | some worker =>
    obtain ⟨stage, cancelled⟩ := worker
    cases stage with
    | polling => rfl
    | ended => rfl
    | sending i =>
      dsimp only
      cases s.tasks[i]? with
      | none => rfl
      | some task =>
        obtain ⟨d, claimedAt, stage, requested⟩ := task
        cases stage with
        | created => rfl
        | running => rfl
        | done outcome =>
          cases cancelled with
          | true => rfl
          | false => exact settle_store { s with inflight := _ } d outcome checked retried again

end PushService

/-- **The store of a step.** Its tables are those after its calls. -/
theorem serviceStep_store (s : PushService) (op : ServiceOp) :
    (serviceStep onCurve s op).store = replay storeStep s.store (storeCalls onCurve s op) := by
  cases op with
  | connect source owner force epoch now =>
    unfold serviceStep storeCalls PushService.connect
    dsimp only
    split
    · split
      · exact native_store _ [] now true
      · rfl
    · rfl
  | disconnect party epoch now =>
    unfold serviceStep storeCalls PushService.disconnect
    dsimp only
    split
    · rfl
    · rfl
  | register subscription selected now =>
    unfold serviceStep storeCalls PushService.register PushService.registers
    dsimp only
    cases validateSubscription onCurve subscription with
    | none => rfl
    | some subscription =>
      cases preferencesOf selected with
      | none => rfl
      | some preferences =>
        dsimp only
        rw [replay_singleton]
        unfold storeStep
        dsimp only
        cases s.store.register subscription preferences now with
        | ok o => rfl
        | error e => rfl
  | delete endpoint =>
    unfold serviceStep storeCalls PushService.delete
    dsimp only
    split
    · rfl
    · rfl
  | test endpoint uuid now =>
    unfold serviceStep storeCalls PushService.test
    dsimp only
    split
    · cases s.store.get (PushStore.identifierOf endpoint) with
      | none => rfl
      | some subscription => exact s.testRegistered_store _ uuid now
    · rfl
  | native notifications now prime clock =>
    unfold serviceStep storeCalls PushService.observeNative
    dsimp only
    split
    · rw [PushService.queueDetected_store, native_store, replay_append]
      rfl
    · rfl
  | sample kind identifier value now prime clock =>
    unfold serviceStep storeCalls PushService.observeSample
    dsimp only
    split
    · rw [PushService.queueDetected_store, sample_store]
      rfl
    · rfl
  | fail => rfl
  | work worker now tie => exact s.work_store worker now tie
  | begin task now =>
    show (s.begin task now).store = s.store
    unfold PushService.begin
    split
    · rfl
    · rfl
  | finishSend task outcome now =>
    show (s.finishSend task outcome).store = s.store
    unfold PushService.finishSend
    split
    · rfl
    · rfl
  | resume worker checked retried again => exact s.resume_store worker checked retried again

/-! ## Which calls a step can make -/

/-- The epoch that a call of `connect` or `disconnect` brings. -/
def ServiceOp.epoch? : ServiceOp → Option Str
  | .connect _ _ _ epoch _ => some epoch
  | .disconnect _ epoch _ => some epoch
  | _ => none

/-- The events that the processor reports in a step. -/
def detectedEvents (s : PushService) : ServiceOp → List EventPayload
  | .native notifications now prime _ => (native s.processor notifications now prime).2.getD []
  | .sample kind identifier value now prime _ =>
    (sample s.processor kind identifier value now prime).2.join.toList
  | _ => []

/-- A call that a step can make. -/
inductive CallOf (s : PushService) (op : ServiceOp) : StoreOp → Prop where
  | retireEpochs (epoch : Str) (hop : op.epoch? = some epoch) : CallOf s op (.retireEpochs epoch)
  | register (value selected : Value) (now : ℚ) (subscription : Subscription)
      (preferences : Preferences) (hop : op = .register value selected now)
      (hsubscription : validateSubscription onCurve value = some subscription)
      (hpreferences : preferencesOf selected = some preferences) :
      CallOf s op (.register subscription preferences now)
  | delete (endpoint : Str) (hop : op = .delete endpoint) (haccepts : acceptsEndpoint endpoint = true) :
      CallOf s op (.delete (PushStore.identifierOf endpoint))
  | hasDeliveryCapacity (now : ℚ) : CallOf s op (.hasDeliveryCapacity now)
  | allowTest (identifier : Str) (now : ℚ) : CallOf s op (.allowTest identifier now)
  | test (endpoint uuid identifier : Str) (now : ℚ) (event : EventPayload)
      (hop : op = .test endpoint uuid now) (hevent : PushService.testEvent uuid now = some event) :
      CallOf s op (.enqueue event.eventKey event [identifier] now PushStore.testEpoch)
  | remember (key : Str) (now : ℚ) : CallOf s op (.remember key now)
  | event (event : EventPayload) (targets : List Str) (now : ℚ)
      (hevent : event ∈ detectedEvents s op) :
      CallOf s op (.enqueue event.eventKey event targets now s.processor.epoch)
  | nextDelivery (worker : Nat) (now : ℚ) (tie : Nat) (hop : op = .work worker now tie) :
      CallOf s op (.nextDelivery now tie)
  | drop (worker : Nat) (now : ℚ) (tie : Nat) (d : Delivery) (hop : op = .work worker now tie) :
      CallOf s op (.finish d none)
  | gone (worker : Nat) (checked retried again : ℚ) (id : Str)
      (hop : op = .resume worker checked retried again) : CallOf s op (.delete id)
  | finish (worker : Nat) (checked retried again : ℚ) (d : Delivery) (retryAt : Option ℚ)
      (hop : op = .resume worker checked retried again) : CallOf s op (.finish d retryAt)

theorem mem_nativeCalls {now : ℚ} {prime : Bool} {ns : List Notification} {p : EventProcessor}
    {c : StoreOp} (h : c ∈ nativeCalls now prime ns p) : ∃ key, c = .remember key now := by
  induction ns generalizing p with
  | nil => cases h
  | cons n ns ih =>
    unfold nativeCalls at h
    rcases List.mem_append.mp h with h | h
    · obtain ⟨key, -, rfl⟩ := Option.map_eq_some_iff.mp (Option.mem_toList.mp h)
      exact ⟨key, rfl⟩
    · split at h
      · cases h
      · exact ih h

namespace PushService

theorem queue_epoch {s : PushService} {event : EventPayload} {now : ℚ} {o : Bool × PushService}
    (h : s.queue event now = .ok o) : o.2.processor.epoch = s.processor.epoch := by
  unfold queue at h
  split at h
  · split at h
    · obtain rfl := Except.ok.inj h
      rfl
    · cases h
  · obtain rfl := Except.ok.inj h
    rfl

theorem mem_queueCalls {events : List EventPayload} {clock : Nat → ℚ} {s : PushService}
    {c : StoreOp} (h : c ∈ queueCalls events clock s) : ∃ event ∈ events, ∃ targets now,
      c = .enqueue event.eventKey event targets now s.processor.epoch := by
  induction events generalizing clock s with
  | nil => cases h
  | cons event events ih =>
    unfold queueCalls at h
    rcases List.mem_append.mp h with h | h
    · unfold queueCall at h
      split at h
      · obtain rfl := List.mem_singleton.mp h
        exact ⟨event, List.mem_cons_self, _, _, rfl⟩
      · cases h
    · split at h
      · cases h
      · next hqueue =>
        obtain ⟨e, he, targets, now, rfl⟩ := ih h
        exact ⟨e, List.mem_cons_of_mem _ he, targets, now, by rw [← queue_epoch hqueue]⟩

theorem mem_detectedCalls {s : PushService} {detected : EventProcessor × Option (List EventPayload)}
    {clock : Nat → ℚ} {c : StoreOp} (h : c ∈ s.detectedCalls detected clock) :
    ∃ event ∈ detected.2.getD [], ∃ targets now,
      c = .enqueue event.eventKey event targets now detected.1.epoch := by
  unfold detectedCalls at h
  split at h
  · cases h
  · next events heq =>
    rw [heq]
    exact mem_queueCalls h

theorem mem_finishCalls {s : PushService} {d : Delivery} {retryAt : Option ℚ} {now : ℚ}
    {c : StoreOp} (h : c ∈ s.finishCalls d retryAt now) : c = .finish d retryAt := by
  unfold finishCalls at h
  split at h
  · exact List.mem_singleton.mp h
  · cases h

theorem mem_settleCalls {s : PushService} {d : Delivery} {outcome : Outcome}
    {checked retried again : ℚ} {c : StoreOp}
    (h : c ∈ s.settleCalls d outcome checked retried again) :
    c = .delete d.subscriptionId ∨ ∃ retryAt, c = .finish d retryAt := by
  unfold settleCalls at h
  dsimp only at h
  cases outcome with
  | status code =>
    dsimp only at h
    split at h
    · cases h
    · split at h
      · rcases List.mem_cons.mp h with rfl | h
        · exact Or.inl rfl
        · exact Or.inr ⟨_, mem_finishCalls h⟩
      · split at h
        · exact Or.inr ⟨_, mem_finishCalls h⟩
        · exact Or.inr ⟨_, mem_finishCalls h⟩
  | invalid => exact Or.inr ⟨_, mem_finishCalls h⟩
  | failed => exact Or.inr ⟨_, mem_finishCalls h⟩
  | cancelled => exact Or.inr ⟨_, mem_finishCalls h⟩

theorem mem_resumeCalls {s : PushService} {w : Nat} {checked retried again : ℚ} {c : StoreOp}
    (h : c ∈ s.resumeCalls w checked retried again) :
    ∃ d, c = .delete d.subscriptionId ∨ ∃ retryAt, c = .finish d retryAt := by
  unfold resumeCalls at h
  split at h
  · split at h
    · split at h
      · cases h
      · exact ⟨_, mem_settleCalls h⟩
    · cases h
  · cases h

theorem mem_workCalls {s : PushService} {w : Nat} {now : ℚ} {tie : Nat} {c : StoreOp}
    (h : c ∈ s.workCalls w now tie) : c = .nextDelivery now tie ∨ ∃ d, c = .finish d none := by
  unfold workCalls at h
  split at h
  · split at h
    · cases h
    · rcases List.mem_cons.mp h with rfl | h
      · exact Or.inl rfl
      · split at h
        · cases h
        · next d _ =>
          unfold deliverCalls at h
          split at h
          · exact Or.inr ⟨d, List.mem_singleton.mp h⟩
          · split at h
            · cases h
            · exact Or.inr ⟨d, List.mem_singleton.mp h⟩
  · cases h

theorem mem_testCalls {s : PushService} {identifier uuid : Str} {now : ℚ} {c : StoreOp}
    (h : c ∈ s.testCalls identifier uuid now) :
    c = .hasDeliveryCapacity now ∨ c = .allowTest identifier now ∨
      ∃ event, testEvent uuid now = some event ∧
        c = .enqueue event.eventKey event [identifier] now PushStore.testEpoch := by
  unfold testCalls at h
  rcases List.mem_cons.mp h with rfl | h
  · exact Or.inl rfl
  · split at h
    · cases h
    · rcases List.mem_cons.mp h with rfl | h
      · exact Or.inr (Or.inl rfl)
      · split at h
        · obtain ⟨event, hevent, rfl⟩ := Option.map_eq_some_iff.mp (Option.mem_toList.mp h)
          exact Or.inr (Or.inr ⟨event, hevent, rfl⟩)
        · cases h

end PushService

/-- Every call of a step is one of these. -/
theorem mem_storeCalls {s : PushService} {op : ServiceOp} {c : StoreOp}
    (h : c ∈ storeCalls onCurve s op) : CallOf onCurve s op c := by
  cases op with
  | connect source owner force epoch now =>
    unfold storeCalls at h
    dsimp only at h
    split at h
    · obtain rfl := List.mem_singleton.mp h
      exact .retireEpochs epoch rfl
    · cases h
  | disconnect party epoch now =>
    unfold storeCalls at h
    dsimp only at h
    split at h
    · obtain rfl := List.mem_singleton.mp h
      exact .retireEpochs epoch rfl
    · cases h
  | register value selected now =>
    unfold storeCalls at h
    dsimp only at h
    split at h
    · next hv hp =>
      obtain rfl := List.mem_singleton.mp h
      exact .register value selected now _ _ rfl hv hp
    · cases h
  | delete endpoint =>
    unfold storeCalls at h
    dsimp only at h
    split at h
    · next haccepts =>
      obtain rfl := List.mem_singleton.mp h
      exact .delete endpoint rfl haccepts
    · cases h
  | test endpoint uuid now =>
    unfold storeCalls at h
    dsimp only at h
    split at h
    · split at h
      · cases h
      · rcases PushService.mem_testCalls h with rfl | rfl | ⟨event, hevent, rfl⟩
        · exact .hasDeliveryCapacity now
        · exact .allowTest _ now
        · exact .test endpoint uuid _ now event rfl hevent
    · cases h
  | native notifications now prime clock =>
    unfold storeCalls at h
    dsimp only at h
    split at h
    · rcases List.mem_append.mp h with h | h
      · obtain ⟨key, rfl⟩ := mem_nativeCalls h
        exact .remember key now
      · obtain ⟨event, hevent, targets, time, rfl⟩ := PushService.mem_detectedCalls h
        rw [native_epoch]
        exact .event event targets time hevent
    · cases h
  | sample kind identifier value now prime clock =>
    unfold storeCalls at h
    dsimp only at h
    split at h
    · obtain ⟨event, hevent, targets, time, rfl⟩ := PushService.mem_detectedCalls h
      rw [sample_epoch]
      refine .event event targets time ?_
      unfold detectedEvents
      dsimp only at hevent ⊢
      cases hsample : (sample s.processor kind identifier value now prime).2 with
      | none =>
        rw [hsample] at hevent
        cases hevent
      | some out =>
        rw [hsample] at hevent
        exact hevent
    · cases h
  | fail => cases h
  | work worker now tie =>
    rcases PushService.mem_workCalls h with rfl | ⟨d, rfl⟩
    · exact .nextDelivery worker now tie rfl
    · exact .drop worker now tie d rfl
  | begin task now => cases h
  | finishSend task outcome now => cases h
  | resume worker checked retried again =>
    obtain ⟨d, rfl | ⟨retryAt, rfl⟩⟩ := PushService.mem_resumeCalls h
    · exact .gone worker checked retried again _ rfl
    · exact .finish worker checked retried again d retryAt rfl

end InverterDashboard.Push
