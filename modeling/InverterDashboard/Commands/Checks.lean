import InverterDashboard.Commands.World
import InverterDashboard.Controller.Encoding

/-
  What a command captures when it is accepted, and the check it makes of it (`current` in the
  source) before every send.
-/

namespace InverterDashboard.Commands

open Python Cerbo Controller Server Temporal Async

/-! ## Captured values -/

/-- The source a command was accepted for. -/
structure Ticket where
  owner : Option Nat
  generation : Nat
  remote : Bool
  client : Option Nat

inductive WaterDevice where
  | pump
  | valve

inductive NotificationCommand where
  | acknowledgeAllNotifications
  | silenceAlarm

def NotificationCommand.name : NotificationCommand → Str
  | .acknowledgeAllNotifications => Str.lit "acknowledge_all_notifications"
  | .silenceAlarm => Str.lit "silence_alarm"

/-- What a command is to do, and what else it captured. -/
inductive Work where
  | publish (action : Str) (payload : List (Str × Value))
  | selectEssMode (body : EssBody)
  | waterMode (which : WaterDevice) (inst mode : Int) (portal : Option Str)
  /-- `polls` bounds the acknowledgement reads its deadline leaves time for. -/
  | setpointOverride (body : OverrideBody) (polls : Nat)
  | electricityTariff (body : TariffBody)
  | notification (name : NotificationCommand) (portal : Str)

structure Label where
  ticket : Ticket
  work : Work

section Checks

variable (settings : Settings)

/-- `_current_source`. -/
def currentSource (t : Ticket) (w : World) : Bool :=
  t.owner = w.mqttState && t.generation = w.sourceGeneration && t.remote = w.preferGateway settings

/-- A check of the captured `MqttState`; without one it fails. -/
def askOwner {α : Type} (t : Ticket) (check : LiveCheck settings.cfg α) : Sync Clock World α :=
  match t.owner with
  | some i => ask i check
  | none => Sync.fail

/-- The client is the captured one, or none is needed. -/
def clientMatches (t : Ticket) (w : World) : Bool := t.remote || w.currentMqttClient t.client

/-- `current` of `_controller_transport_guard`. -/
def controllerTransport (t : Ticket) : Sync Clock World Unit :=
  (Sync.require fun _ w => currentSource settings t w).andThen fun _ =>
    (askOwner settings t (.commandsAvailable settings.cfg)).andThen fun available =>
      Sync.require fun _ w => available && w.transportConnected t.remote && clientMatches t w

/-- `current` of `_select_ess_mode`. -/
def essSelection (t : Ticket) : Sync Clock World Unit :=
  (Sync.require fun _ w => currentSource settings t w && w.transportConnected t.remote).andThen
    fun _ => (Sync.read fun _ w => w.connected t.remote).andThen fun connected =>
      (askOwner settings t (.selectEssMode settings.cfg t.remote connected)).andThen fun can =>
        Sync.require fun _ w => can && clientMatches t w

/-- `_can_controller_command` and the rest of `check_current` of `_controller_command_guard`. -/
def controllerSupport (t : Ticket) (name : ControllerCommand) : Sync Clock World Unit :=
  (Sync.require fun _ w => currentSource settings t w).andThen fun _ =>
    (Sync.read fun _ w => w.transportConnected t.remote).andThen fun connected =>
      (askOwner settings t (.controllerCommand settings.cfg name t.remote connected)).andThen
        fun can => Sync.require fun _ w => can && clientMatches t w

/-- The revision of the tariff that is shown. -/
def tariffRevision (state : Object) : Value :=
  Value.member (Str.lit "revision") (tariffStatus state)

/-- `check_current` of the tariff command: nobody else changed the tariff. -/
def tariffSupport (t : Ticket) (revision : Value) : Sync Clock World Unit :=
  (controllerSupport settings t .electricityTariff).andThen fun _ =>
    (askOwner settings t (.readState settings.cfg)).andThen fun state =>
      Sync.require fun _ _ => (tariffRevision state).eqv revision

/-! ## Water -/

/-- What `_water_context` returns: no client and no portal for the gateway. -/
structure WaterContext where
  client : Option Nat
  owner : Nat
  portal : Option Str

/-- `_water_context`; `none` is its `RuntimeError`. -/
def waterContext (w : World) : Option WaterContext :=
  match w.appMqttState with
  | none => none
  | some i =>
    let s := w.state settings i
    if w.preferGateway settings then
      if w.dataSource ≠ .igw || !w.gatewayConnected then none
      else if !(s.gatewayCapabilities.getD (Str.lit "water_mode")).isTrue then none
      else some ⟨none, i, none⟩
    else if w.dataSource ≠ .mqtt then none
    else if !w.mqttConnected || w.mqttClient.isNone then none
    else if portalValid s.portalId then some ⟨w.mqttClient, i, some s.portalId⟩ else none

/-- `_water_instance`. -/
def waterInstance (which : WaterDevice) : Option Int :=
  let inst := match which with
    | .pump => settings.cfg.waterPumpInstance
    | .valve => settings.cfg.waterValveInstance
  if inst < 0 then none else some inst

/-- `_water_device_available` of the `MqttState` number `i`. -/
def waterAvailable (which : WaterDevice) (i : Nat) (clock : Clock) (w : World) : Bool :=
  match waterInstance settings which with
  | some inst => waterDeviceAvailable clock (intStr inst) (w.state settings i) = some true
  | none => false

/-- The live context is the captured one. -/
def sameWaterContext (t : Ticket) (portal : Option Str) (live : WaterContext) : Bool :=
  t.owner = some live.owner && portal = live.portal && t.client = live.client

/-- `current` of `_set_water_mode`. -/
def waterDispatch (t : Ticket) (which : WaterDevice) (portal : Option Str) :
    Sync Clock World Unit :=
  Sync.require fun clock w => match waterContext settings w with
    | some live => t.generation = w.sourceGeneration && sameWaterContext t portal live &&
      waterAvailable settings which live.owner clock w
    | none => false

/-! ## Native notifications -/

/-- `_notification_portal`. -/
def notificationPortal (owner : Option Nat) (w : World) : Str :=
  match owner with
  | some i =>
    let portal := (w.state settings i).portalId
    if portal.isEmpty then settings.cerboPortalId else portal
  | none => settings.cerboPortalId

/-- `_valid_notification_portal`. -/
def validNotificationPortal (portal : Str) : Bool :=
  !portal.isEmpty && portal.all fun c => c ∉ Str.lit "/+#" && !isspace c && 32 ≤ c.val

/-- `current` of `_native_notification_command`. -/
def nativeNotification (t : Ticket) (portal : Str) : Sync Clock World Unit :=
  Sync.require fun _ w => t.owner.isSome && currentSource settings t w &&
    w.transportConnected t.remote && portal = notificationPortal settings t.owner w &&
    (t.remote || w.currentMqttClient t.client && validNotificationPortal portal)

/-- The check a command makes before every send. -/
def Label.current (l : Label) : Sync Clock World Unit :=
  match l.work with
  | .publish _ _ => controllerTransport settings l.ticket
  | .selectEssMode _ => essSelection settings l.ticket
  | .waterMode which _ _ portal => waterDispatch settings l.ticket which portal
  | .setpointOverride _ _ => controllerSupport settings l.ticket .setpointOverride
  | .electricityTariff body => tariffSupport settings l.ticket body.revision
  | .notification _ portal => nativeNotification settings l.ticket portal

end Checks

end InverterDashboard.Commands
