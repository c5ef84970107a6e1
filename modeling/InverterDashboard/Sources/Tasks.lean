import InverterDashboard.Temporal.Trace

/-
  The tasks that keep a live data source: MQTT loop, gateway poller, watchdog and recovery loop.

  A task runs without interruption from one await to the next. `Point` names the awaits of the four
  coroutines, and a step resumes one task with what it awaited: it returned, it raised, or the task
  finds `CancelledError` there. Values that are read from the configuration, and whether a client
  can be made, come with the step. What a task does to its own `MqttState`, to the keepalive it
  owns and to the push service is left out, and so is what it logs.

  `_app_state` is never rebound, so that its owner test always holds. Clients and `MqttState`s are
  numbers, each new one a fresh number.
-/

namespace InverterDashboard.Sources

/-- `StartupSource` without `"none"`. -/
inductive Source where
  | mqtt | igw
  deriving DecidableEq

/-- What `current` captures in `_new_source_state`. -/
structure Closure where
  generation : Nat
  state : Nat
  source : Source
  deriving DecidableEq

/-- `AppState`, and the selection in `gateway`. -/
structure App where
  mqttState : Option Nat
  mqttClient : Option Nat
  mqttTasks : List Nat
  mqttConnected : Bool
  mqttReconnects : Nat
  gatewayConnected : Bool
  gatewayPolls : Nat
  gatewayErrors : Nat
  dataSource : Option Source
  sourceGeneration : Nat
  activeSource : Option Source
  dualPath : Bool
  /-- `gateway._source_generation`. -/
  essGeneration : Nat

/-- `AppState()`. -/
def App.initial : App where
  mqttState := none
  mqttClient := none
  mqttTasks := []
  mqttConnected := false
  mqttReconnects := 0
  gatewayConnected := false
  gatewayPolls := 0
  gatewayErrors := 0
  dataSource := none
  sourceGeneration := 0
  activeSource := none
  dualPath := false
  essGeneration := 0

namespace App

/-- `current()`. -/
def current (a : App) (c : Closure) : Bool :=
  a.sourceGeneration = c.generation ∧ a.mqttState = some c.state ∧ a.dataSource = some c.source

/-- `invalidate_ess_commands`. -/
def invalidate (a : App) : App := { a with essGeneration := a.essGeneration + 1 }

/-- `_retire_source`. -/
def retire (a : App) : App := { a with sourceGeneration := a.sourceGeneration + 1 }

/-- `set_active_source`. -/
def select (a : App) (source : Option Source) (dual : Bool) : App :=
  { a.invalidate with activeSource := source, dualPath := dual && source.isSome }

end App

/-! ## Tasks -/

/-- What follows the `finally` of the MQTT loop. -/
inductive Exit where
  | next | leave | raising
  deriving DecidableEq

/-- What is pending while the client disconnects. -/
inductive Pending where
  | leave | ended | error | cancelled
  deriving DecidableEq

/-- What a task awaits. -/
inductive Point where
  /-- The task has not run yet. -/
  | created
  /-- MQTT: `__aenter__`, the subscriptions, a message, `on_message`, `__aexit__`. -/
  | connecting | subscribing | listening | handling
  | disconnecting (pending : Pending)
  /-- MQTT: `_emit` and the keepalive in `_finish_mqtt_session`, the retry delay. -/
  | notifying (exit : Exit)
  | joining (exit : Exit)
  | retrying
  /-- Gateway: `__aenter__`, `fetch_snapshot`, `_emit` after a snapshot and after a failure, the
      delay, `__aexit__`. -/
  | opening | fetching | emitting | reporting | delaying | closing
  /-- Watchdog and recovery loop: the delay, the probe. -/
  | sleeping | probing
  /-- `_cancel_data_source_tasks`, before the other source is started. -/
  | switching (target : Source) (children : List Nat)
  | ended
  deriving DecidableEq

inductive Role where
  | mqtt (c : Closure)
  | gateway (c : Closure)
  | watchdog | recovery
  deriving DecidableEq

structure Task where
  role : Role
  /-- `client` of the MQTT loop. -/
  client : Option Nat
  /-- The MQTT loop has a keepalive task in this session. -/
  keepalive : Bool
  /-- Cancellation was requested and has not been raised yet. -/
  cancelled : Bool
  point : Point

namespace Task

def new (role : Role) : Task := ⟨role, none, false, false, .created⟩

def awaiting (t : Task) (point : Point) : Task := { t with point := point }

def cancel (t : Task) : Task := { t with cancelled := true }

/-- The task runs, and a cancellation has been raised. -/
def woken (t : Task) : Task := { t with cancelled := false }

end Task

inductive Reply where
  /-- The value is a message or a reachable broker, or not. -/
  | returned (value : Bool)
  | raised
  | cancelled
  deriving DecidableEq

/-- What is read while a task runs. -/
structure Env where
  mqttConfigured : Bool
  gatewayConfigured : Bool
  /-- `_make_mqtt_client` returns. -/
  clientMade : Bool

/-- Where a turn of a task leads. -/
inductive Turn where
  | moves (a : App) (t : Task)
  /-- The MQTT loop makes the client of its next session. -/
  | reconnects
  /-- `_cancel_data_source_tasks`, on the way to another source. -/
  | switches (a : App) (target : Source)

/-! ## The MQTT loop -/

section Mqtt

variable (c : Closure)

/-- The head of the loop. A client that is missing raises when it is entered. -/
def mqttSession (a : App) (t : Task) : Task :=
  if a.current c then { t with client := a.mqttClient, keepalive := false, point := .connecting }
  else t.awaiting .ended

/-- What follows the `finally` of the loop. -/
def afterSession (a : App) (t : Task) : Exit → Task
  | .next => t.awaiting (if a.current c then .retrying else .ended)
  | _ => t.awaiting .ended

/-- The `finally` of `_finish_mqtt_session`. -/
def joinKeepalive (a : App) (t : Task) (exit : Exit) : Task :=
  if t.keepalive then t.awaiting (.joining exit) else afterSession c a t exit

/-- `_finish_mqtt_session`. -/
def finishSession (a : App) (t : Task) (exit : Exit) : Turn :=
  if a.current c ∧ a.mqttClient = t.client then
    .moves { a with mqttConnected := false } (t.awaiting (.notifying exit))
  else .moves a (joinKeepalive c a t exit)

/-- `_handle_mqtt_failure`, with the guards of `_failover_to_igw`. -/
def handleFailure (env : Env) (a : App) (t : Task) : Turn :=
  if a.current c then
    let a := { a with mqttReconnects := a.mqttReconnects + 1 }
    if a.dualPath && env.gatewayConfigured then
      if a.activeSource = some .igw then finishSession c a t .leave else .switches a .igw
    else finishSession c a t .next
  else finishSession c a t .leave

/-- What was pending when the client has disconnected. -/
def disconnected (env : Env) (a : App) (t : Task) : Pending → Turn
  | .leave => finishSession c a t .leave
  | .ended => finishSession c a t .next
  | .error => handleFailure c env a t
  | .cancelled => finishSession c a t .raising

/-- `_mqtt_connect_and_loop`. -/
def mqttTurn (env : Env) (a : App) (t : Task) (reply : Reply) : Turn :=
  match t.point, reply with
  | .created, .returned _ => .moves a (mqttSession c a t)
  | .connecting, .returned _ =>
    if a.current c ∧ a.mqttClient = t.client then
      .moves { a with mqttConnected := true } (t.awaiting .subscribing)
    else .moves a (t.awaiting (.disconnecting .leave))
  | .connecting, .raised => handleFailure c env a t
  | .connecting, .cancelled => finishSession c a t .raising
  | .subscribing, .returned _ =>
    if a.current c then .moves a { t with keepalive := true, point := .listening }
    else .moves a (t.awaiting (.disconnecting .leave))
  | .listening, .returned message =>
    if message = true ∧ a.current c ∧ a.mqttClient = t.client then .moves a (t.awaiting .handling)
    else .moves a (t.awaiting (.disconnecting .ended))
  | .handling, .returned _ => .moves a (t.awaiting .listening)
  | .subscribing, .raised | .listening, .raised | .handling, .raised =>
    .moves a (t.awaiting (.disconnecting .error))
  | .subscribing, .cancelled | .listening, .cancelled | .handling, .cancelled =>
    .moves a (t.awaiting (.disconnecting .cancelled))
  | .disconnecting pending, .returned _ => disconnected c env a t pending
  | .disconnecting _, .raised => handleFailure c env a t
  | .disconnecting _, .cancelled => finishSession c a t .raising
  | .notifying exit, .returned _ => .moves a (joinKeepalive c a t exit)
  | .notifying _, _ => .moves a (joinKeepalive c a t .raising)
  | .joining exit, .returned _ => .moves a (afterSession c a t exit)
  | .retrying, .returned _ => if a.current c then .reconnects else .moves a (t.awaiting .ended)
  | .switching _ _, .cancelled => finishSession c a t .raising
  | _, _ => .moves a (t.awaiting .ended)

end Mqtt

/-! ## The gateway poller -/

section Gateway

variable (c : Closure)

/-- The head of the loop. -/
def gatewayNext (a : App) (t : Task) : Task :=
  t.awaiting (if a.current c then .fetching else .closing)

/-- The `except` of the loop, with `_report_gateway_failure`. -/
def gatewayFailure (a : App) (t : Task) : Turn :=
  if a.current c then
    .moves { a with
        gatewayErrors := a.gatewayErrors + 1
        gatewayConnected := false
        mqttConnected := false }
      (t.awaiting (if a.gatewayConnected then .reporting else .delaying))
  else .moves a (t.awaiting .closing)

/-- `gateway_poll_loop`. A snapshot is applied, or raises when it is. -/
def gatewayTurn (a : App) (t : Task) (reply : Reply) : Turn :=
  match t.point, reply with
  | .created, .returned _ => .moves a (t.awaiting .opening)
  | .opening, .returned _ => .moves a (gatewayNext c a t)
  | .fetching, .returned applied =>
    if a.current c then
      let a := { a with gatewayConnected := true, mqttConnected := false }
      if applied then .moves a (t.awaiting .emitting) else gatewayFailure c a t
    else .moves a (t.awaiting .closing)
  | .emitting, .returned _ =>
    if a.current c then .moves { a with gatewayPolls := a.gatewayPolls + 1 } (t.awaiting .delaying)
    else .moves a (t.awaiting .closing)
  | .fetching, .raised | .emitting, .raised => gatewayFailure c a t
  | .reporting, .returned _ => .moves a (t.awaiting .delaying)
  | .delaying, .returned _ => .moves a (gatewayNext c a t)
  | .fetching, .cancelled | .emitting, .cancelled | .reporting, _ | .delaying, _ =>
    .moves a (t.awaiting .closing)
  | _, _ => .moves a (t.awaiting .ended)

end Gateway

/-! ## Watchdog and recovery loop -/

/-- `_mqtt_connect_watchdog`, with the guards of `_failover_to_igw`. -/
def watchdogTurn (env : Env) (a : App) (t : Task) (reply : Reply) : Turn :=
  match t.point, reply with
  | .created, .returned _ => .moves a (t.awaiting .sleeping)
  | .sleeping, .returned _ =>
    if a.dualPath = true ∧ a.activeSource = some .mqtt ∧ a.mqttConnected = false ∧
        env.gatewayConfigured = true then .switches a .igw
    else .moves a (t.awaiting .ended)
  | _, _ => .moves a (t.awaiting .ended)

/-- The head of the loop. -/
def recoveryNext (a : App) (t : Task) : Task :=
  t.awaiting (if a.dualPath = true ∧ a.activeSource = some .igw then .sleeping else .ended)

/-- `_mqtt_recovery_loop`. -/
def recoveryTurn (env : Env) (a : App) (t : Task) (reply : Reply) : Turn :=
  match t.point, reply with
  | .created, .returned _ => .moves a (recoveryNext a t)
  | .sleeping, .returned _ =>
    .moves a (if env.mqttConfigured then t.awaiting .probing else recoveryNext a t)
  | .probing, .returned reachable =>
    if reachable then .switches a .mqtt else .moves a (recoveryNext a t)
  | _, _ => .moves a (t.awaiting .ended)

def turn (env : Env) (a : App) (t : Task) (reply : Reply) : Turn :=
  match t.role with
  | .mqtt c => mqttTurn c env a t reply
  | .gateway c => gatewayTurn c a t reply
  | .watchdog => watchdogTurn env a t reply
  | .recovery => recoveryTurn env a t reply

/-! ## The event loop -/

structure World where
  app : App
  /-- What `_new_source_state` has captured, in its order. -/
  sources : List Closure
  /-- All tasks that were created; a task is its place in the list. -/
  tasks : List Task
  fresh : Nat
  /-- The tasks that `_shutdown_tasks` awaits. -/
  down : Option (List Nat)

namespace World

def initial : World := ⟨.initial, [], [], 0, none⟩

/-- `asyncio.create_task`, appended to `mqtt_tasks`. -/
def createTask (w : World) (role : Role) : World :=
  { w with
    app := { w.app with mqttTasks := w.app.mqttTasks ++ [w.tasks.length] }
    tasks := w.tasks ++ [.new role] }

/-- What the next `_new_source_state` captures. -/
def nextClosure (w : World) (source : Source) : Closure :=
  ⟨w.app.sourceGeneration + 1, w.fresh, source⟩

/-- `_new_source_state`. -/
def newSourceState (w : World) (source : Source) : World :=
  { w with
    app := { w.app.retire with mqttState := some w.fresh, dataSource := some source }
    sources := w.sources ++ [w.nextClosure source]
    fresh := w.fresh + 1 }

/-- `_make_mqtt_client`, assigned to `mqtt_client`. -/
def makeClient (w : World) : World :=
  { w with app := { w.app with mqttClient := some w.fresh }, fresh := w.fresh + 1 }

/-- `_start_mqtt_client`. -/
def startMqttClient (w : World) (clientMade : Bool) : World :=
  if clientMade then (w.newSourceState .mqtt).makeClient.createTask (.mqtt (w.nextClosure .mqtt))
  else w.newSourceState .mqtt

/-- `_start_gateway_client`. -/
def startGatewayClient (w : World) : World :=
  let w' := w.newSourceState .igw
  createTask { w' with app := { w'.app with mqttClient := none } } (.gateway (w.nextClosure .igw))

/-- A source, and what watches it in dual-path mode. -/
def startSource (w : World) (source : Source) (dual clientMade : Bool) : World :=
  match source with
  | .mqtt =>
    if dual && clientMade then (w.startMqttClient clientMade).createTask .watchdog
    else w.startMqttClient clientMade
  | .igw => if dual then w.startGatewayClient.createTask .recovery else w.startGatewayClient

/-- `task.cancel()` of some tasks. -/
def cancelTasks (children : List Nat) (tasks : List Task) : List Task :=
  tasks.mapIdx fun j t => if j ∈ children then t.cancel else t

/-- The rest of the task when the other source was started: the session of the MQTT loop is not
    current any more. -/
def afterSwitch (t : Task) : Task :=
  match t.role with
  | .mqtt _ => t.awaiting (if t.keepalive then .joining .leave else .ended)
  | _ => t.awaiting .ended

/-- What follows the `gather` of `_cancel_data_source_tasks`. -/
def finishSwitch (w : World) (i : Nat) (target : Source) (env : Env) : World :=
  let a := { w.app with mqttConnected := false, gatewayConnected := false, mqttClient := none }
  let w' := startSource { w with app := a.select (some target) true } target true env.clientMade
  { w' with tasks := w'.tasks.modify i afterSwitch }

/-- `_cancel_data_source_tasks`, called by a task. -/
def beginSwitch (w : World) (i : Nat) (target : Source) (env : Env) : World :=
  let children := w.app.mqttTasks.filter (· ≠ i)
  let w' := { w with
    app := { w.app.invalidate.retire with mqttTasks := [] }
    tasks := cancelTasks children w.tasks }
  if children = [] then w'.finishSwitch i target env
  else { w' with tasks := w'.tasks.modify i (Task.awaiting · (.switching target children)) }

/-- `_shutdown_tasks`, up to its `gather`. -/
def shutdown (w : World) : World :=
  { w with
    app := { w.app.invalidate.retire with mqttTasks := [] }
    tasks := cancelTasks w.app.mqttTasks w.tasks
    down := some w.app.mqttTasks }

/-- The tasks have ended. -/
def allEnded (w : World) (children : List Nat) : Bool :=
  children.all fun j => match w.tasks[j]? with
    | some t => t.point = .ended
    | none => true

end World

def Role.isSource : Role → Bool
  | .mqtt _ | .gateway _ => true
  | _ => false

/-- What a task can find at its await. A client may answer a cancellation with an error of its own;
    a `gather` returns when all its tasks have ended. -/
def legal (w : World) (t : Task) : Reply → Bool
  | .cancelled => t.point ≠ .ended
  | .raised => match t.point with
    | .created | .switching _ _ | .ended => false
    | _ => !t.cancelled || t.role.isSource
  | .returned _ => match t.point with
    | .ended => false
    | .switching _ children => !t.cancelled && w.allEnded children
    | _ => !t.cancelled

/-- Where a turn leaves the task and the shared state. -/
def follow (w : World) (i : Nat) (t : Task) (env : Env) : Turn → World
  | .moves a t => { w with app := a, tasks := w.tasks.set i t }
  | .reconnects =>
    match t.role, env.clientMade with
    | .mqtt c, true => { w.makeClient with tasks := w.tasks.set i (mqttSession c w.makeClient.app t) }
    | _, _ => { w with tasks := w.tasks.set i (t.awaiting .ended) }
  | .switches a target => World.beginSwitch { w with app := a } i target env

/-- A task runs to its next await. -/
def resume (w : World) (i : Nat) (t : Task) (reply : Reply) (env : Env) : World :=
  let w := { w with tasks := w.tasks.set i t.woken }
  match t.point, reply with
  | .switching target _, .returned _ => w.finishSwitch i target env
  | _, _ => follow w i t.woken env (turn env w.app t.woken reply)

inductive Op where
  | resume (i : Nat) (reply : Reply) (env : Env)
  | shutdown
  /-- `_clear_mqtt_client`, after that. -/
  | clear

def step (w : World) : Op → World
  | .resume i reply env => match w.tasks[i]? with
    | some t => if legal w t reply then resume w i t reply env else w
    | none => w
  | .shutdown => if w.down.isSome then w else w.shutdown
  | .clear => match w.down with
    | some children =>
      if w.allEnded children then
        { w with app := { w.app with mqttConnected := false, mqttClient := none } }
      else w
    | none => w

/-! ## Startup -/

/-- `choose_startup_source`; `none` is `"none"`. -/
def chooseStartupSource (mqttConfigured igwConfigured mqttReachable : Bool) : Option Source :=
  if mqttConfigured && igwConfigured then some (if mqttReachable then .mqtt else .igw)
  else if mqttConfigured then some .mqtt
  else if igwConfigured then some .igw
  else none

/-- `_select_and_start_data_source`, with the outcome of its probe. -/
def startup (env : Env) (reachable : Bool) : World :=
  let dual := env.mqttConfigured && env.gatewayConfigured
  let source := chooseStartupSource env.mqttConfigured env.gatewayConfigured
    (if dual then reachable else env.mqttConfigured)
  let w := { World.initial with app := App.initial.select source dual }
  match source with
  | some source => w.startSource source dual env.clientMade
  | none =>
    { w with app := { w.app.select none false with mqttState := some w.fresh }, fresh := w.fresh + 1 }

end InverterDashboard.Sources
