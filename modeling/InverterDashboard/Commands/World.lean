import InverterDashboard.Async.Coroutine
import InverterDashboard.Server.CommandChecks

/-
  The world the WebSocket commands run in: the selected source and its generation, the
  connection flags, the MQTT client, and every `MqttState` there is.

  An `MqttState` is kept as the operations that were applied to it, so that a command can later
  say what was observed and when (`SourceLog`). Objects are compared by identity in the source;
  here they are numbers.

  `Extends` is what any step does to the world: the generation never falls, and no operation is
  taken back.
-/

namespace InverterDashboard.Commands

open Python Cerbo Controller Server Temporal Async

/-! ## State -/

/-- `StartupSource`. -/
inductive StartupSource where
  | mqtt
  | igw
  | none
  deriving DecidableEq

/-- The configuration the commands read. -/
structure Settings where
  cfg : Config
  gatewayConfigured : Bool
  mqttConfigured : Bool
  cerboPortalId : Str

/-- One `MqttState`: the portal it was given, and every operation since. -/
structure SourceLog where
  portal : Str
  events : List Event

def SourceLog.state (cfg : Config) (x : SourceLog) : MqttState :=
  replay (step cfg) (MqttState.init x.portal) x.events

def SourceLog.append (x : SourceLog) (e : Event) : SourceLog := ⟨x.portal, x.events ++ [e]⟩

structure World where
  /-- `gateway._active_source` and `gateway._source_generation`. -/
  activeSource : StartupSource
  sourceGeneration : Nat
  /-- `_state["mqtt_state"]` of the WebSocket handler. -/
  mqttState : Option Nat
  /-- The application state: its own `mqtt_state`, its transport and the client. -/
  appMqttState : Option Nat
  dataSource : StartupSource
  gatewayConnected : Bool
  mqttConnected : Bool
  mqttClient : Option Nat
  sources : Nat → SourceLog

namespace World

variable (settings : Settings)

def state (w : World) (i : Nat) : MqttState := (w.sources i).state settings.cfg

/-- One more operation on an `MqttState`. -/
def observe (w : World) (i : Nat) (e : Event) : World :=
  { w with sources := fun j => if j = i then (w.sources j).append e else w.sources j }

/-- `prefer_gateway`. -/
def preferGateway (w : World) : Bool :=
  if w.activeSource = .none then settings.gatewayConfigured && !settings.mqttConfigured
  else w.activeSource = .igw

/-- The connection flag of a transport. -/
def connected (w : World) (remote : Bool) : Bool :=
  if remote then w.gatewayConnected else w.mqttConnected

/-- `_transport_connected`. -/
def transportConnected (w : World) (remote : Bool) : Bool :=
  w.dataSource = (if remote then .igw else .mqtt) && w.connected remote

/-- `_current_mqtt_client`. -/
def currentMqttClient (w : World) (client : Option Nat) : Bool :=
  client.isSome && client = w.mqttClient

end World

/-! ## What else may happen -/

inductive WorldOp where
  | setActiveSource (source : StartupSource)
  | invalidateEssCommands
  | setMqttState (owner : Option Nat)
  | setAppMqttState (owner : Option Nat)
  | setDataSource (source : StartupSource)
  | setConnected (gateway mqtt : Bool)
  | setMqttClient (client : Option Nat)
  /-- An operation on one of the `MqttState` objects. -/
  | source (i : Nat) (op : MqttOp)

/-- The world after an operation of the rest of the program. -/
def act (clock : Clock) (op : WorldOp) (w : World) : World :=
  match op with
  | .setActiveSource source =>
    { w with activeSource := source, sourceGeneration := w.sourceGeneration + 1 }
  | .invalidateEssCommands => { w with sourceGeneration := w.sourceGeneration + 1 }
  | .setMqttState owner => { w with mqttState := owner }
  | .setAppMqttState owner => { w with appMqttState := owner }
  | .setDataSource source => { w with dataSource := source }
  | .setConnected gateway mqtt => { w with gatewayConnected := gateway, mqttConnected := mqtt }
  | .setMqttClient client => { w with mqttClient := client }
  | .source i op => w.observe i ⟨clock, op⟩

/-- `w'` comes after `w`. -/
structure Extends (w w' : World) : Prop where
  generation : w.sourceGeneration ≤ w'.sourceGeneration
  portal : ∀ i, (w'.sources i).portal = (w.sources i).portal
  events : ∀ i, (w.sources i).events <+: (w'.sources i).events

namespace Extends

theorem refl (w : World) : Extends w w := ⟨le_refl _, fun _ => rfl, fun _ => List.prefix_refl _⟩

theorem trans {a b c : World} (hab : Extends a b) (hbc : Extends b c) : Extends a c where
  generation := le_trans hab.generation hbc.generation
  portal := fun i => (hbc.portal i).trans (hab.portal i)
  events := fun i => (hab.events i).trans (hbc.events i)

theorem of_sources {w w' : World} (hg : w.sourceGeneration ≤ w'.sourceGeneration)
    (hs : w'.sources = w.sources) : Extends w w' where
  generation := hg
  portal := by
    intro i
    rw [hs]
  events := by
    intro i
    rw [hs]

theorem observe (w : World) (i : Nat) (e : Event) : Extends w (w.observe i e) where
  generation := le_refl _
  portal := by
    intro j
    unfold World.observe
    dsimp only
    split
    · rfl
    · rfl
  events := by
    intro j
    unfold World.observe
    dsimp only
    split
    · exact List.prefix_append _ _
    · exact List.prefix_refl _

theorem act (clock : Clock) (op : WorldOp) (w : World) : Extends w (act clock op w) := by
  cases op with
  | setActiveSource source => exact of_sources (Nat.le_succ _) rfl
  | invalidateEssCommands => exact of_sources (Nat.le_succ _) rfl
  | source i op => exact observe w i ⟨clock, op⟩
  | _ => exact of_sources (le_refl _) rfl

end Extends

theorem World.state_observe (settings : Settings) (w : World) (i : Nat) (e : Event) :
    (w.observe i e).state settings i = step settings.cfg (w.state settings i) e := by
  have hi : (w.observe i e).sources i = (w.sources i).append e := if_pos rfl
  unfold World.state SourceLog.state
  rw [hi]
  exact replay_append _ _ _ _

/-! ## Live questions -/

/-- A live check of an `MqttState`: all it does to the state is to drop an expired controller. -/
structure LiveCheck (cfg : Config) (α : Type) where
  call : Clock → MqttState → Call α
  state_eq : ∀ clock s, (call clock s).state = step cfg s ⟨clock, .readController⟩

/-- Asks a live check of the `MqttState` number `i`. -/
def ask {α : Type} {settings : Settings} (i : Nat) (check : LiveCheck settings.cfg α) :
    Sync Clock World α := fun clock w =>
  (w.observe i ⟨clock, .readController⟩, (check.call clock (w.state settings i)).result)

theorem controllerAvailable_andThen_state {α : Type} {cfg : Config} {clock : Clock} {s : MqttState}
    {f : Bool → MqttState → Call α} (hno : ∀ s, (f false s).state = s)
    (hyes : controllerAvailable cfg clock s = ⟨s, some true⟩ → (f true s).state = s) :
    ((controllerAvailable cfg clock s).andThen f).state =
      step cfg s ⟨clock, .readController⟩ := by
  show _ = (controllerAvailable cfg clock s).state
  cases hr : (controllerAvailable cfg clock s).result with
  | none =>
    unfold Call.andThen
    rw [hr]
  | some available =>
    cases available with
    | false =>
      unfold Call.andThen
      rw [hr]
      exact hno _
    | true =>
      have hs := controllerAvailable_some_true hr
      rw [hs]
      exact hyes hs

namespace LiveCheck

variable (cfg : Config)

/-- `controller_commands_available`. -/
def commandsAvailable : LiveCheck cfg Bool where
  call := controllerCommandsAvailable cfg
  state_eq := by
    intro clock s
    unfold controllerCommandsAvailable
    exact controllerAvailable_andThen_state (fun _ => rfl) fun _ => rfl

/-- `get_state`. -/
def readState : LiveCheck cfg Object where
  call := getState cfg
  state_eq := by
    intro clock s
    unfold getState
    exact controllerAvailable_andThen_state (fun _ => rfl) fun _ => rfl

/-- `_can_select_ess_mode`. -/
def selectEssMode (remote connected : Bool) : LiveCheck cfg Bool where
  call := fun clock => canSelectEssMode cfg clock remote connected
  state_eq := by
    intro clock s
    unfold canSelectEssMode
    refine controllerAvailable_andThen_state (fun _ => rfl) fun hs => ?_
    rw [getState_available hs]
    split
    · rfl
    · split
      · rfl
      · rfl

/-- `_can_controller_command`. -/
def controllerCommand (name : ControllerCommand) (remote connected : Bool) :
    LiveCheck cfg Bool where
  call := fun clock => canControllerCommand cfg clock name remote connected
  state_eq := by
    intro clock s
    unfold canControllerCommand
    refine controllerAvailable_andThen_state (fun _ => rfl) fun hs => ?_
    rw [getState_available hs]
    split
    · rfl
    · split
      · rfl
      · rfl

end LiveCheck

end InverterDashboard.Commands
