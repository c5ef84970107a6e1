import InverterDashboard.Async.Jobs
import InverterDashboard.Commands.Checks

/-
  The five command paths of the WebSocket handler, as coroutines: the generic controller command
  (`mqtt_publish`), the ESS selection, the water mode, the setpoint override and the tariff, and
  the acknowledgement of native notifications.

  A physical write is a `start` node. Everything the network does arrives as a reply: the
  snapshot of a GET, an ordinary answer, or a failure, which also stands for a timeout and for a
  cancellation. Broadcasting the state is a suspension too; what it reads of an `MqttState`
  other steps may read at any time.
-/

namespace InverterDashboard.Commands

open Python Cerbo Controller Server Temporal Async

/-! ## Outputs and replies -/

inductive Write where
  /-- `client.publish`; no message is the empty text. -/
  | publish (topic : Str) (message : Option Value)
  /-- `client.post` to `/v1/commands/{name}`. -/
  | post (name : Str) (body : Value)

inductive Reply where
  | ok
  | snapshot (snapshot : Object)
  | failed

abbrev Code (α : Type) : Type := Prog Clock World Write Reply α

/-- An `await` whose answer does not matter. -/
def awaitDone : Code Unit := .await fun
  | .failed => .done none
  | _ => .done (some ())

/-! ## The gateway -/

/-- `fetch_snapshot`. -/
def fetchSnapshot : Code Object := .await fun
  | .snapshot snapshot => .done (some snapshot)
  | _ => .done none

/-- `async with gateway._new_gateway_client()`. -/
def withGatewayClient {α : Type} (body : Code α) : Code α :=
  awaitDone.andThen fun _ => body.andFinally awaitDone

/-- `post_command`, with the value its `before_send` noted. -/
def postCommand {α : Type} (name : Str) (body : Value) (expectedGeneration : Nat)
    (beforeSend : Sync Clock World α) : Code α :=
  withGatewayClient <|
    .ofSync (Sync.require fun _ w => expectedGeneration = w.sourceGeneration) fun _ =>
      .ofSync beforeSend fun noted =>
        .start (.post name body) (awaitDone.andThen fun _ => .done (some noted))

/-- `client.publish`. -/
def publish (topic : Str) (message : Option Value) : Code Unit :=
  .start (.publish topic message) awaitDone

/-! ## Generic controller commands -/

/-- `_CONTROL_FLAG_KEYS`. -/
def controlFlagKeys : List Str := keyList
  ["only_charging", "no_feed", "house_support", "charge_battery", "do_not_supply_charger",
   "set_limit_to_ev_charger", "minimize_charging"]

/-- `s.removeprefix(p)`. -/
def removePrefix (p s : Str) : Str := if p.isPrefixOf s then s.drop p.length else s

/-- `_control_flag_key`. -/
def controlFlagKey (entity : Value) : Option Str :=
  match entity with
  | .str s =>
    let key := removePrefix (Str.lit "input_boolean.") s.strip
    if !s.strip.isEmpty && key ∈ controlFlagKeys then some key else none
  | _ => none

/-- `_gateway_command_body`; `none` is its `ValueError`. -/
def gatewayCommandBody (action : Str) (payload : List (Str × Value)) : Option Value :=
  if action = Str.lit "toggle" then
    match controlFlagKey (Value.member (Str.lit "entity") payload),
        controlBoolean (Value.member (Str.lit "state") payload) with
    | some flag, some value => some (.dict [(Str.lit "entity", .str flag),
        (Str.lit "state", .str (Str.lit (if value then "on" else "off")))])
    | _, _ => none
  else if action = Str.lit "dry_run" then
    match Value.member (Str.lit "value") payload with
    | .bool _ => some (.dict payload)
    | _ => none
  else if action = Str.lit "ess_mode" then
    if payload.isEmpty then some (.dict payload) else none
  else none

section Tasks

variable (settings : Settings)

/-- `send_checked` of `mqtt_publish`. -/
def sendPublish (l : Label) (action : Str) (payload : List (Str × Value)) : Code Unit :=
  .ofSync (l.current settings) fun _ =>
    if l.ticket.remote then
      .ofSync (Sync.expect (gatewayCommandBody action payload)) fun body =>
        postCommand action body l.ticket.generation (l.current settings)
    else publish (Str.lit "inverter/cmd/" ++ action)
      (if payload.isEmpty then none else some (.dict payload))

/-! ## ESS selection -/

def EssBody.toValue (body : EssBody) : Value :=
  .dict [(Str.lit "mode", .str body.mode), (Str.lit "request_id", body.requestId)]

/-- The capabilities and the controller object of a snapshot, when it advertises `name`. -/
def snapshotController (name : Str) (snapshot : Object) : Option Object := do
  let capabilities ← (snapshot.getD (Str.lit "capabilities")).dict?
  let controller ← (snapshot.getD (Str.lit "inverter")).dict?
  if (Value.member name capabilities).isTrue then some (Dict.ofList controller) else none

/-- `validate_gateway_snapshot`. -/
def validateGatewaySnapshot (snapshot : Object) : Sync Clock World Unit :=
  Sync.require fun clock _ => match snapshotController (Str.lit "set_ess_mode") snapshot with
    | some controller => telemetryReady clock.wall
        (((controller.getD (Str.lit "ess_mode")).dict?).map Dict.ofList) (some clock.wall)
        (controller.getD (Str.lit "dry_run"))
    | none => false

/-- `send_checked` of `_select_ess_mode`. -/
def sendEssMode (l : Label) (body : EssBody) : Code Unit :=
  .ofSync (l.current settings) fun _ =>
    if l.ticket.remote then
      (withGatewayClient (fetchSnapshot.andThen fun snapshot =>
        .ofSync (validateGatewaySnapshot snapshot) fun _ => .done (some ()))).andThen fun _ =>
          .ofSync (l.current settings) fun _ =>
            postCommand (Str.lit "set_ess_mode") (EssBody.toValue body) l.ticket.generation
              (l.current settings)
    else publish (Str.lit "inverter/cmd/set_ess_mode") (some (EssBody.toValue body))

/-! ## Water mode -/

/-- `_validate_water_snapshot`. -/
def validWaterSnapshot (snapshot : Object) (inst : Int) : Bool :=
  match (snapshot.getD (Str.lit "capabilities")).dict?, (snapshot.getD (Str.lit "pump")).dict? with
  | some capabilities, some pumps =>
    (Value.member (Str.lit "water_mode") capabilities).isTrue &&
      isMode (Value.member (intStr inst ++ Str.lit "/Mode") pumps) &&
      match Dict.find (intStr inst ++ Str.lit "/Connected") pumps with
      | some v => isConnected v
      | none => true
  | _, _ => false

/-- `send_checked` of `_set_water_mode`. -/
def sendWaterMode (l : Label) (inst mode : Int) (portal : Option Str) : Code Unit :=
  .ofSync (l.current settings) fun _ =>
    match portal with
    | none =>
      (withGatewayClient fetchSnapshot).andThen fun snapshot =>
        .ofSync (l.current settings) fun _ =>
          .ofSync (Sync.require fun _ _ => validWaterSnapshot snapshot inst) fun _ =>
            postCommand (Str.lit "water_mode")
              (.dict [(Str.lit "instance", .int inst), (Str.lit "mode", .int mode)])
              l.ticket.generation (l.current settings)
    | some portal =>
      publish (Str.lit "W/" ++ portal ++ Str.lit "/pump/" ++ intStr inst ++ Str.lit "/Mode")
        (some (.dict [(Str.lit "value", .int mode)]))

/-! ## Setpoint override and tariff -/

/-- `_validate_controller_snapshot`. -/
def validateControllerSnapshot (name : ControllerCommand) (snapshot : Object) : Option Object := do
  let controller ← snapshotController name.name snapshot
  let supported := match name with
    | .setpointOverride => (overrideStatus (controller.getD name.name)).isSome
    | .electricityTariff =>
      (Value.member (Str.lit "writable") (tariffStatus controller)).isTrue
  if supported then some controller else none

/-- `before_dispatch`: the check, and the override observations seen so far. -/
def beforeDispatch (l : Label) : Sync Clock World Nat :=
  (l.current settings).andThen fun _ => match l.ticket.owner with
    | some i => Sync.read fun _ w => (w.state settings i).overrideObservationSequence
    | none => Sync.fail

/-- What one look at the acknowledgement says. -/
inductive Ack where
  | confirmed
  | refused
  | absent

/-- The comparison at the end of `_wait_override_ack`'s loop. -/
def compareAck (body : OverrideBody) (dispatchedSequence sequence : Nat) (state : Object) : Ack :=
  match overrideStatus (state.getD (Str.lit "setpoint_override")) with
  | some status =>
    if dispatchedSequence < sequence && status.requestId.eqv body.requestId then
      if !status.lastError.isNone || !status.value.eqv body.value then .refused else .confirmed
    else .absent
  | none => .absent

/-- Reads the acknowledgement off the captured state. -/
def readAck (l : Label) (body : OverrideBody) (dispatchedSequence : Nat) :
    Sync Clock World Ack :=
  (askOwner settings l.ticket (.readState settings.cfg)).andThen fun state =>
    match l.ticket.owner with
    | some i => Sync.read fun _ w =>
        compareAck body dispatchedSequence (w.state settings i).overrideObservationSequence state
    | none => Sync.fail

/-- Stores a status read from the gateway: `observe` of a live message. -/
def observeAck (l : Label) (controller : Object) : Sync Clock World Unit :=
  match l.ticket.owner with
  | some i => fun clock w =>
    (w.observe i ⟨clock, .override (controller.getD (Str.lit "setpoint_override")) false⟩, some ())
  | none => Sync.fail

/-- The gateway read of one round of `_wait_override_ack`. -/
def fetchAck (l : Label) : Code Unit :=
  (withGatewayClient fetchSnapshot).andThen fun snapshot =>
    .ofSync (l.current settings) fun _ =>
      .ofSync (Sync.expect (validateControllerSnapshot .setpointOverride snapshot)) fun controller =>
        .ofSync (observeAck l controller) fun _ =>
          awaitDone.andThen fun _ => .ofSync (l.current settings) fun _ => .done (some ())

/-- `_wait_override_ack`, until the deadline cancels it. -/
def waitOverrideAck (l : Label) (body : OverrideBody) (dispatchedSequence : Nat) : Nat → Code Unit
  | 0 => .done none
  | polls + 1 =>
    .ofSync (l.current settings) fun _ =>
      (if l.ticket.remote then fetchAck settings l else .done (some ())).andThen fun _ =>
        .ofSync (readAck settings l body dispatchedSequence) fun
          | .confirmed => .done (some ())
          | .refused => .done none
          | .absent =>
            awaitDone.andThen fun _ => waitOverrideAck l body dispatchedSequence polls

def overrideValue (body : OverrideBody) : Value :=
  .dict [(Str.lit "value", body.value), (Str.lit "request_id", body.requestId)]

def tariffValue (body : TariffBody) : Value :=
  .dict [(Str.lit "plan", body.plan), (Str.lit "revision", body.revision),
    (Str.lit "request_id", body.requestId)]

/-- The preflight read of `_send_controller_command` through the gateway. -/
def preflight (name : ControllerCommand) : Code Object :=
  (withGatewayClient fetchSnapshot).andThen fun snapshot =>
    .done (validateControllerSnapshot name snapshot)

/-- The write of `send_checked`, with the sequence noted right before it. -/
def dispatch (l : Label) (name : ControllerCommand) (body : Value) : Code Nat :=
  if l.ticket.remote then
    .ofSync (l.current settings) fun _ =>
      postCommand name.name body l.ticket.generation (beforeDispatch settings l)
  else
    .ofSync (beforeDispatch settings l) fun sequence =>
      (publish (Str.lit "inverter/cmd/" ++ name.name) (some body)).andThen fun _ =>
        .done (some sequence)

/-- `send_checked` of `_send_controller_command` for an override. -/
def sendOverride (l : Label) (body : OverrideBody) (polls : Nat) : Code Unit :=
  .ofSync (l.current settings) fun _ =>
    (if l.ticket.remote then (preflight .setpointOverride).andThen fun _ => .done (some ())
      else .done (some ())).andThen fun _ =>
        (dispatch settings l .setpointOverride (overrideValue body)).andThen fun sequence =>
          waitOverrideAck settings l body sequence polls

/-- `send_checked` of `_send_controller_command` for a tariff. -/
def sendTariff (l : Label) (body : TariffBody) : Code Unit :=
  .ofSync (l.current settings) fun _ =>
    (if l.ticket.remote then (preflight .electricityTariff).andThen fun controller =>
        .ofSync (Sync.require fun _ _ => (tariffRevision controller).eqv body.revision) fun _ =>
          .done (some ())
      else .done (some ())).andThen fun _ =>
        (dispatch settings l .electricityTariff (tariffValue body)).andThen fun _ =>
          .done (some ())

/-! ## Native notifications -/

/-- `send_checked` of `_native_notification_command`. -/
def sendNotification (l : Label) (name : NotificationCommand) (portal : Str) : Code Unit :=
  .ofSync (l.current settings) fun _ =>
    (if l.ticket.remote then
      postCommand name.name (.dict []) l.ticket.generation (l.current settings)
    else match name with
      | .acknowledgeAllNotifications =>
        publish (Str.lit "W/" ++ portal ++ Str.lit "/platform/0/Notifications/AcknowledgeAll")
          (some (.dict [(Str.lit "value", .int 1)]))
      | .silenceAlarm => .done none).andThen fun _ =>
        .ofSync (l.current settings) fun _ => .done (some ())

/-! ## Commands -/

/-- `send_checked` of a command. -/
def Label.send (l : Label) : Code Unit :=
  match l.work with
  | .publish action payload => sendPublish settings l action payload
  | .selectEssMode body => sendEssMode settings l body
  | .waterMode _ inst mode portal => sendWaterMode settings l inst mode portal
  | .setpointOverride body polls => sendOverride settings l body polls
  | .electricityTariff body => sendTariff settings l body
  | .notification name portal => sendNotification settings l name portal

/-- The task `run_ess_selection` creates. One that is cancelled first never runs. -/
def Label.task (l : Label) : Reply → Code Unit
  | .failed => .done none
  | _ => l.send settings

/-- `run_ess_selection` before its task: a stale generation raises. -/
def runEssSelection (l : Label) : Sync Clock World (Label × (Reply → Code Unit)) :=
  (Sync.require fun _ w => l.ticket.generation = w.sourceGeneration).andThen fun _ =>
    Sync.read fun _ _ => (l, l.task settings)

/-- `run_ess_selection` after its task, and what a command does then. -/
def returns (l : Label) (result : Option Unit) : Sync Clock World Unit :=
  (Sync.require fun _ w => l.ticket.generation = w.sourceGeneration).andThen fun _ =>
    (Sync.expect result).andThen fun _ => match l.work with
      | .notification _ _ => l.current settings
      | _ => Sync.read fun _ _ => ()

inductive Request where
  | publish (action : Str) (payload : List (Str × Value))
  | selectEssMode (data : Object)
  | setWaterMode (which mode : Value)
  | sendController (name : ControllerCommand) (data : Object) (polls : Nat)
  | nativeNotification (name : NotificationCommand)

/-- A request, and the client the handler passed with it. -/
structure Command where
  client : Option Nat
  request : Request

/-- The selection a command captures. -/
def capture (client : Option Nat) : Sync Clock World Ticket :=
  Sync.read fun _ w => ⟨w.mqttState, w.sourceGeneration, w.preferGateway settings, client⟩

/-- The request without its action. -/
def commandBody (data : Object) : Value :=
  .dict (data.entries.filter fun e => e.1 ≠ Str.lit "action")

/-- Captures the selection, checks it, and leaves the rest to a task. -/
def acceptWork (client : Option Nat) (work : Ticket → World → Work) :
    Sync Clock World (Label × (Reply → Code Unit)) :=
  (capture settings client).andThen fun ticket =>
    (Sync.read fun _ w => Label.mk ticket (work ticket w)).andThen fun l =>
      (l.current settings).andThen fun _ => runEssSelection settings l

/-- A validated override or tariff command. -/
def controllerWork (name : ControllerCommand) (body : Value) (polls : Nat) : Option Work :=
  match name with
  | .setpointOverride => (validateOverride body).map fun b => .setpointOverride b polls
  | .electricityTariff => (validateTariff body).map .electricityTariff

/-- The pump or the valve, and a mode that may be set. -/
def waterRequest (which mode : Value) : Option (WaterDevice × Int) :=
  match which, mode with
  | .str which, .int m =>
    if m = 0 ∨ m = 1 ∨ m = 2 then
      if which = Str.lit "pump" then some (.pump, m)
      else if which = Str.lit "valve" then some (.valve, m) else none
    else none
  | _, _ => none

/-- `_set_water_mode` up to its task. -/
def acceptWaterMode (client : Option Nat) (which mode : Value) :
    Sync Clock World (Label × (Reply → Code Unit)) :=
  (Sync.expect (waterRequest which mode)).andThen fun request =>
    (Sync.read fun _ w => waterContext settings w).andThen fun context =>
      (Sync.expect context).andThen fun live =>
        (Sync.require fun _ _ => live.portal.isNone || client = live.client).andThen fun _ =>
          (Sync.expect (waterInstance settings request.1)).andThen fun inst =>
            (Sync.require fun clock w =>
              waterAvailable settings request.1 live.owner clock w).andThen fun _ =>
                (Sync.read fun _ w => Ticket.mk (some live.owner) w.sourceGeneration
                  live.portal.isNone live.client).andThen fun ticket =>
                    runEssSelection settings
                      ⟨ticket, .waterMode request.1 inst request.2 live.portal⟩

/-- A command up to its task. -/
def begins (command : Command) : Sync Clock World (Label × (Reply → Code Unit)) :=
  match command.request with
  | .publish action payload => acceptWork settings command.client fun _ _ => .publish action payload
  | .selectEssMode data => (Sync.expect (validateSelection (commandBody data))).andThen fun body =>
      acceptWork settings command.client fun _ _ => .selectEssMode body
  | .setWaterMode which mode => acceptWaterMode settings command.client which mode
  | .sendController name data polls =>
    (Sync.expect (controllerWork name (commandBody data) polls)).andThen fun work =>
      acceptWork settings command.client fun _ _ => work
  | .nativeNotification name => acceptWork settings command.client fun ticket w =>
      .notification name (notificationPortal settings ticket.owner w)

/-- What runs the commands. -/
def scheduler : Scheduler Clock World Write Reply WorldOp Command Label where
  act := act
  begins := begins settings
  returns := returns settings

end Tasks

end InverterDashboard.Commands
