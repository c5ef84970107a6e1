import InverterDashboard.Cerbo.Overlay
import InverterDashboard.Controller.Commands

/-
  `MqttState`: the telemetry one data source builds up, and the operations both transports and
  the controller apply to it.

  A `Call` is what an operation leaves behind: the state it reached and, unless it raised, its
  result. Python keeps every assignment made before an exception, so a raising call still has a
  state. Clocks are read once for each operation.

  Banner notifications, alarms and camera events live in the same Python object; no operation
  below reads them.
-/

namespace InverterDashboard.Server

open Python Cerbo Controller

/-! ## State -/

/-- The two clocks an operation reads: `time.time()` and `time.monotonic()`, in seconds. -/
structure Clock where
  wall : ℚ
  mono : ℚ

structure MqttState where
  currentState : Object
  portalId : Str
  cerboDevices : Devices
  /-- Read through membership only. -/
  cerboClaimedKeys : List Str
  nativeObservations : Dict Str Clock
  nativeInvalidated : List Str
  nativeLastEmit : Option ℚ
  waterModeObservations : Dict Str ℚ
  gatewayCapabilities : Object
  daemonKeys : List Str
  daemonReceivedAt : Option ℚ
  controllerCommandReceivedAt : Option ℚ
  controllerEssMode : Option Object
  essModeObservedAt : Option ℚ
  setpointOverrideObservedAt : Option ℚ
  overrideObservationSequence : Nat
  electricityTariffObservedAt : Option ℚ

/-- `MqttState()` with the configured portal, empty when it has to be discovered. -/
def MqttState.init (portal : Str) : MqttState where
  currentState := Dict.empty
  portalId := portal
  cerboDevices := Dict.empty
  cerboClaimedKeys := []
  nativeObservations := Dict.empty
  nativeInvalidated := []
  nativeLastEmit := none
  waterModeObservations := Dict.empty
  gatewayCapabilities := Dict.empty
  daemonKeys := []
  daemonReceivedAt := none
  controllerCommandReceivedAt := none
  controllerEssMode := none
  essModeObservedAt := none
  setpointOverrideObservedAt := none
  overrideObservationSequence := 0
  electricityTariffObservedAt := none

/-- What a call leaves: its state, and its result unless it raised. -/
structure Call (α : Type) where
  state : MqttState
  result : Option α

/-- Continues with `f` unless the call raised. -/
def Call.andThen {α β : Type} (c : Call α) (f : α → MqttState → Call β) : Call β :=
  match c.result with
  | some a => f a c.state
  | none => ⟨c.state, none⟩

def Call.done (s : MqttState) : Call Unit := ⟨s, some ()⟩

/-- What holds where a call ends holds where its continuation ends, if each keeps it. -/
theorem Call.andThen_state {α β : Type} {P : MqttState → Prop} {c : Call α}
    {f : α → MqttState → Call β} (hc : P c.state) (hf : ∀ a, P (f a c.state).state) :
    P (c.andThen f).state := by
  unfold Call.andThen
  split
  · exact hf _
  · exact hc

/-- `set.update`. -/
def unionKeys (a b : List Str) : List Str := a ++ b.filter (· ∉ a)

@[simp] theorem mem_unionKeys {a b : List Str} {k : Str} : k ∈ unionKeys a b ↔ k ∈ a ∨ k ∈ b := by
  unfold unionKeys
  by_cases h : k ∈ a <;> simp [h]

/-! ## Overlays -/

/-- The claims and the kinds ever stored, as the projections read them. -/
def MqttState.seen (s : MqttState) : Seen := ⟨fun kind => s.cerboDevices.has kind, s.cerboClaimedKeys⟩

/-- `telemetry_available`. -/
def telemetryAvailable (current : Object) : Value :=
  .dict ((cerboOwnedKeys.filter fun k => (Dict.find k collectionDefaults).isNone).map fun k =>
    (k, .bool !(current.getD k).isNone))

/-- The state an overlay is applied to. -/
def MqttState.show (s : MqttState) (o : Object) : MqttState :=
  -- A formerly observed field stays unavailable after null/removal until a native
  -- replacement arrives.
  let claimed := unionKeys s.cerboClaimedKeys o.keys
  let current := s.currentState.setAll claimed fun k => (o.get? k).getD (collectionDefault k)
  { s with
    cerboClaimedKeys := claimed
    currentState :=
      if claimed.isEmpty && current.isEmpty then current
      else current.set (Str.lit "telemetry_available") (telemetryAvailable current) }

/-- `_apply_cerbo_overlays`. -/
def applyCerboOverlays (cfg : Config) (s : MqttState) : Call Unit :=
  match overlay cfg s.seen (devices s.cerboDevices) with
  | some o => .done (s.show o)
  | none => ⟨s, none⟩

/-- `_note_native_observation`. -/
def noteNativeObservation (source : Str) (clock : Clock) (s : MqttState) : MqttState :=
  { s with
    nativeObservations := s.nativeObservations.set source clock
    nativeInvalidated := s.nativeInvalidated.filter (· ≠ source) }

/-- `clear_cerbo_state`. -/
def clearCerboState (cfg : Config) (s : MqttState) : Call Unit :=
  applyCerboOverlays cfg
    { s with
      cerboDevices := Dict.empty
      waterModeObservations := Dict.empty
      nativeInvalidated := unionKeys s.nativeInvalidated s.nativeObservations.keys }

/-! ## Snapshots of the gateway -/

/-- `_snapshot_leaf`: instance and path of an accepted key. -/
def snapshotLeaf (kind : Kind) (key : Str) (value : Value) : Option (Str × Str) :=
  match Str.cutSlash key with
  | none => none
  | some (inst, path) =>
    if inst.isEmpty || path.isEmpty || !validPathValue path value || !knownPath kind path then none
    else some (inst, path)

/-- One accepted leaf. -/
structure Leaf where
  kind : Kind
  inst : Str
  path : Str
  value : Value

/-- The accepted leaves of a snapshot, in its order. -/
def snapshotLeaves (snapshot : Object) : List Leaf :=
  cerboKinds.flatMap fun kind =>
    (((snapshot.getD kind.name).dict?).getD []).filterMap fun e =>
      (snapshotLeaf kind e.1 e.2).map fun l => ⟨kind, l.1, l.2, e.2⟩

def storeLeaf (m : Devices) (l : Leaf) : Devices := m.store l.kind l.inst l.path l.value

/-- The keys a leaf claims when its value is null. -/
def Leaf.claims (cfg : Config) (l : Leaf) : List Str :=
  if l.value.isNone then invalidLeafKeys cfg l.kind l.inst l.path else []

/-- The pumps whose mode a snapshot establishes. -/
def modeObservations (pumps : Listing) (now : ℚ) : Dict Str ℚ :=
  Dict.ofList ((pumps.filter fun d => isMode (d.2.value (Str.lit "Mode"))).map fun d => (d.1, now))

/-- `replace_cerbo_snapshot`. -/
def replaceCerboSnapshot (cfg : Config) (clock : Clock) (snapshot : Object) (s : MqttState) :
    Call Unit :=
  let leaves := snapshotLeaves snapshot
  let s := { s with
    cerboDevices := leaves.foldl storeLeaf Dict.empty
    cerboClaimedKeys := unionKeys s.cerboClaimedKeys (leaves.flatMap (Leaf.claims cfg)) }
  match devices s.cerboDevices .pump with
  -- The devices are replaced already when sorting the pumps raises.
  | none => ⟨s, none⟩
  | some pumps =>
    applyCerboOverlays cfg (noteNativeObservation (Str.lit "igw") clock
      { s with waterModeObservations := modeObservations pumps clock.mono })

/-! ## Native messages -/

/-- The service and path a native topic of the selected portal addresses. -/
def nativeTopic (portalId topic : Str) : Option (Kind × Str × Str) :=
  match topic.splitSlash with
  | n :: portal :: kind :: inst :: rest =>
    if n ≠ Str.lit "N" ∨ portal.isEmpty ∨ inst.isEmpty then none
    else if !portalId.isEmpty && portal ≠ portalId then none
    else (Kind.ofName? kind).map fun k => (k, inst, Str.joinSlash rest)
  | _ => none

/-- `_observe_water_mode`. -/
def observeWaterMode (clock : Clock) (kind : Kind) (inst path : Str) (value : Value)
    (retained : Bool) (observations : Dict Str ℚ) : Dict Str ℚ :=
  if kind ≠ .pump then observations
  else if path = Str.lit "Connected" then
    if isConnected value then observations else observations.erase inst
  else if path = Str.lit "Mode" then
    if !retained && isMode value then (observations.erase inst).set inst clock.mono
    else observations.erase inst
  else observations

/-- The value of an accepted leaf message. -/
def leafValue? (kind : Kind) (path : Str) (payload : Payload) : Option Value :=
  match payload with
  | .json (.dict es) =>
    if path.isEmpty then none
    else match Dict.find (Str.lit "value") es with
      | some value => if validPathValue path value && knownPath kind path then some value else none
      | none => none
  | _ => none

/-- `_store_cerbo_leaf`; `none` when it returns `False`. -/
def storeCerboLeaf (cfg : Config) (clock : Clock) (kind : Kind) (inst path : Str)
    (payload : Payload) (retained : Bool) (s : MqttState) : Option MqttState :=
  (leafValue? kind path payload).map fun value =>
    { s with
      cerboDevices := s.cerboDevices.store kind inst path value
      waterModeObservations :=
        observeWaterMode clock kind inst path value retained s.waterModeObservations
      cerboClaimedKeys := unionKeys s.cerboClaimedKeys
        (Leaf.claims cfg ⟨kind, inst, path, value⟩) }

/-- `_remove_cerbo_device`; `none` when it returns `False`. -/
def removeCerboDevice (kind : Kind) (inst : Str) (s : MqttState) : Option MqttState :=
  (s.cerboDevices.remove kind inst).map fun devices =>
    { s with
      cerboDevices := devices
      waterModeObservations :=
        if kind = .pump then s.waterModeObservations.erase inst else s.waterModeObservations }

/-- `_refresh_native_mqtt_state`. -/
def refreshNativeMqttState (cfg : Config) (clock : Clock) (s : MqttState) : Call Bool :=
  let before := s.currentState
  (applyCerboOverlays cfg (noteNativeObservation (Str.lit "mqtt") clock s)).andThen fun _ s =>
    let changed := !Object.eqv s.currentState before
    if changed || s.nativeLastEmit.all fun last => 1 ≤ clock.mono - last then
      ⟨{ s with nativeLastEmit := some clock.mono }, some true⟩
    else ⟨s, some false⟩

/-- Any report on a pump's mode supersedes the old command authority. -/
def supersedeMode (kind : Kind) (inst path : Str) (s : MqttState) : MqttState :=
  if kind = .pump ∧ path = Str.lit "Mode" then
    { s with waterModeObservations := s.waterModeObservations.erase inst }
  else s

/-- The device change of a native message: an empty payload removes the service. -/
def applyNativePayload (cfg : Config) (clock : Clock) (kind : Kind) (inst path : Str)
    (payload : Payload) (retained : Bool) (s : MqttState) : Option MqttState :=
  match payload with
  | .empty => removeCerboDevice kind inst s
  | payload => storeCerboLeaf cfg clock kind inst path payload retained s

/-- `_handle_cerbo_device`. -/
def handleCerboDevice (cfg : Config) (clock : Clock) (topic : Str) (payload : Payload)
    (retained : Bool) (s : MqttState) : Call Bool :=
  match nativeTopic s.portalId topic with
  | none => ⟨s, some false⟩
  | some (kind, inst, path) =>
    let s := supersedeMode kind inst path s
    match applyNativePayload cfg clock kind inst path payload retained s with
    | none => ⟨s, some false⟩
    | some s => refreshNativeMqttState cfg clock s

/-- `water_mode_fresh`. -/
def waterModeFresh (clock : Clock) (inst : Str) (s : MqttState) : Bool :=
  match s.waterModeObservations.get? inst with
  | some t => 0 ≤ clock.mono - t ∧ clock.mono - t ≤ 30
  | none => false

/-! ## Controller messages -/

/-- `_coerced_booleans`. The stored booleans are an object or `None`: only this function writes
    them. -/
def coercedBooleans (current : Object) (value : Value) : Value :=
  match value with
  | .dict es =>
    let stored := ((current.getD (Str.lit "booleans")).dict?).getD []
    .dict ((es.map fun e => (e.1, match controlBoolean e.2 with
      | some b => Value.bool b
      | none => Value.none)).foldl (fun d e => d.set e.1 e.2) (Dict.ofList stored)).entries
  | _ => .none

/-- Keys a controller message never writes. -/
def reservedKeys : List Str := nativeSectionKeys ++ serverFields

/-- `_merge_daemon_field`. -/
def mergeDaemonField (claimed : List Str) (current : Object) (key : Str) (value : Value) :
    Object :=
  if key ∈ reservedKeys then current
  else if key ∈ cerboOwnedKeys ∧ key ∈ claimed then current
  else current.set key
    (if key = Str.lit "booleans" then coercedBooleans current value else value)

/-- `_merge_daemon_field` of every field in turn. -/
def mergeDaemonFields (claimed : List Str) (incoming current : Object) : Object :=
  incoming.entries.foldl (fun current e => mergeDaemonField claimed current e.1 e.2) current

/-- The `setpoint_override` part of `observe`. -/
def observeOverride (now : ℚ) (value : Value) (retained : Bool) (s : MqttState) : MqttState :=
  match overrideStatus value with
  | some status =>
    { s with
      currentState := s.currentState.set (Str.lit "setpoint_override") status.toValue
      setpointOverrideObservedAt := if retained then none else some now
      overrideObservationSequence :=
        if retained then s.overrideObservationSequence else s.overrideObservationSequence + 1 }
  | none =>
    { s with
      currentState := s.currentState.set (Str.lit "setpoint_override") .none
      setpointOverrideObservedAt := none }

/-- The measurement time of a grid backup report; `none` when `isfinite` overflows. -/
def backupObservedAt (backup : Value) : Option Value :=
  match (backup.dict?).map (Value.member (Str.lit "measurement_time")) with
  | some (.int i) => (Float64.ofInt? i).map fun _ => .int i
  | some (.float x) => some (match x.finite? with
      | some _ => .float x
      | none => .none)
  | _ => some .none

/-- `controller_commands.observe`. -/
def observe (clock : Clock) (incoming : Object) (retained : Bool) (s : MqttState) : Call Unit :=
  let s := match incoming.get? (Str.lit "setpoint_override") with
    | some value => observeOverride clock.wall value retained s
    | none => s
  let s := if incoming.has (Str.lit "ui_config") then
      { s with electricityTariffObservedAt := if retained then none else some clock.wall }
    else s
  match incoming.get? (Str.lit "grid_backup") with
  | none => .done s
  | some backup =>
    match backupObservedAt backup with
    | none => ⟨s, none⟩
    | some measured => .done
        { s with currentState := s.currentState.set (Str.lit "grid_backup_observed_at") measured }

/-- The `ess_mode` part of a merge. -/
def observeEssMode (now : ℚ) (mode : Value) (retained : Bool) (s : MqttState) : MqttState :=
  { s with
    controllerEssMode := (mode.dict?).map Dict.ofList
    essModeObservedAt := if (mode.dict?).isSome && !retained then some now else none }

/-- The receipt a merge notes before it reads any field. -/
def noteDaemonReceipt (clock : Clock) (incoming : Object) (retained : Bool) (s : MqttState) :
    MqttState :=
  { s with
    daemonReceivedAt := some clock.mono
    controllerCommandReceivedAt := if retained then none else some clock.mono
    daemonKeys := unionKeys s.daemonKeys (incoming.keys.filter (· ∉ reservedKeys)) }

/-- `_merge_daemon_state`. -/
def mergeDaemonState (cfg : Config) (clock : Clock) (incoming : Object) (retained : Bool)
    (s : MqttState) : Call Unit :=
  let s := noteDaemonReceipt clock incoming retained s
  let s := match incoming.get? (Str.lit "ess_mode") with
    | some mode => observeEssMode clock.wall mode retained s
    | none => s
  let s := { s with currentState := mergeDaemonFields s.cerboClaimedKeys incoming s.currentState }
  (observe clock incoming retained s).andThen fun _ s =>
    -- Re-apply durable Cerbo maps so slim ticks cannot blank live tiles.
    applyCerboOverlays cfg s

/-- The state without any controller observation, before the overlays are applied again. -/
def MqttState.withoutDaemon (s : MqttState) : MqttState :=
  let current := s.currentState.setAll s.daemonKeys fun _ => Value.none
  { s with
    currentState :=
      if current.isEmpty then current
      else (current.set (Str.lit "setpoint_override") .none).set
        (Str.lit "grid_backup_observed_at") .none
    daemonReceivedAt := none
    controllerCommandReceivedAt := none
    controllerEssMode := none
    essModeObservedAt := none
    setpointOverrideObservedAt := none
    electricityTariffObservedAt := none }

/-- `clear_daemon_state`. -/
def clearDaemonState (cfg : Config) (s : MqttState) : Call Unit :=
  applyCerboOverlays cfg s.withoutDaemon

/-- `controller_available`. -/
def controllerAvailable (cfg : Config) (clock : Clock) (s : MqttState) : Call Bool :=
  match s.daemonReceivedAt with
  | none => ⟨s, some false⟩
  | some t =>
    if 120 < clock.mono - t then (clearDaemonState cfg s).andThen fun _ s => ⟨s, some false⟩
    else ⟨s, some true⟩

/-- `controller_commands_available`. -/
def controllerCommandsAvailable (cfg : Config) (clock : Clock) (s : MqttState) : Call Bool :=
  -- The receipt is read before the expiry check may clear it.
  let observed := s.controllerCommandReceivedAt
  (controllerAvailable cfg clock s).andThen fun available s =>
    ⟨s, some (available && observed.any fun t => 0 ≤ clock.mono - t ∧ clock.mono - t ≤ 30)⟩

/-- The capabilities a snapshot advertises. -/
def snapshotCapabilities (snapshot : Object) : Object :=
  (((snapshot.getD (Str.lit "capabilities")).dict?).map Dict.ofList).getD Dict.empty

/-- The controller part of `apply_snapshot`. -/
def applySnapshotController (cfg : Config) (clock : Clock) (snapshot : Object) (s : MqttState) :
    Call Unit :=
  let s := { s with gatewayCapabilities := snapshotCapabilities snapshot }
  let controller := match snapshot.get? (Str.lit "inverter") with
    | some (.dict es) =>
      -- A complete retained controller object, not a slim tick.
      (clearDaemonState cfg s).andThen fun _ s =>
        mergeDaemonState cfg clock (Dict.ofList es) false s
    | some .none => clearDaemonState cfg s
    | _ => .done s
  controller.andThen fun _ s =>
    if (s.gatewayCapabilities.getD (Str.lit "setpoint_override")).isTrue then .done s
    else .done { s with
      currentState := s.currentState.set (Str.lit "setpoint_override") .none
      setpointOverrideObservedAt := none }

/-- `apply_snapshot`, up to the notification leaves. -/
def applySnapshot (cfg : Config) (clock : Clock) (snapshot : Object) (s : MqttState) :
    Call Unit :=
  (applySnapshotController cfg clock snapshot s).andThen fun _ s =>
    replaceCerboSnapshot cfg clock snapshot s

/-- A portal id a topic may carry: no topic wildcard, no blank, no NUL. -/
def portalValid (portal : Str) : Bool :=
  !portal.isEmpty && portal.all fun c => c ∉ Str.lit "/+#" && !isspace c && c.val ≠ 0

/-- `_discover_portal`. -/
def discoverPortal (portal : Str) (s : MqttState) : MqttState :=
  if s.portalId.isEmpty && portalValid portal then { s with portalId := portal } else s

/-- `_native_topic_selected`: the state after a possible discovery, and whether the message is
    from the selected portal. -/
def nativeTopicSelected (topic : Str) (payload : Payload) (s : MqttState) : MqttState × Bool :=
  match topic.splitSlash with
  | n :: portal :: rest =>
    if n ≠ Str.lit "N" then (s, true)
    else match rest with
      | [] => (s, false)
      | kind :: rest =>
        let announces := !rest.isEmpty && !rest.tail.isEmpty ||
          kind ∈ [Str.lit "heartbeat", Str.lit "keepalive"]
        if s.portalId.isEmpty && announces then
          match payload with
          | .empty => (s, portal = s.portalId)
          | .malformed => (s, false)
          | .json data =>
            let value := Value.member (Str.lit "value") (data.dict?.getD [])
            let s := match value with
              | .str text => if text.strip.isEmpty then s else discoverPortal portal s
              | value => if (number value).isSome then discoverPortal portal s else s
            (s, portal = s.portalId)
        else (s, portal = s.portalId)
  | _ => (s, true)

/-- A native message on its way to `_handle_cerbo_device`. -/
def nativeMessage (cfg : Config) (clock : Clock) (topic : Str) (payload : Payload)
    (retained : Bool) (s : MqttState) : Call Bool :=
  let selected := nativeTopicSelected topic payload s
  if selected.2 then handleCerboDevice cfg clock topic payload retained selected.1
  else ⟨selected.1, some false⟩

/-- `get_state`. -/
def getState (cfg : Config) (clock : Clock) (s : MqttState) : Call Object :=
  (controllerAvailable cfg clock s).andThen fun _ s =>
    let result := match s.controllerEssMode with
      | some mode =>
        if (mode.getD (Str.lit "selection_supported")).isTrue then
          s.currentState.set (Str.lit "ess_mode") (.dict mode.entries)
        else s.currentState
      | none => s.currentState
    let time := fun (t : Option ℚ) => match t with
      | some q => Value.float (.fin q)
      | none => Value.none
    ⟨s, some (if result.isEmpty then result
      else ((result.set (Str.lit "ess_mode_observed_at") (time s.essModeObservedAt)).set
        (Str.lit "setpoint_override_observed_at") (time s.setpointOverrideObservedAt)).set
        (Str.lit "electricity_tariff_observed_at") (time s.electricityTariffObservedAt))⟩

end InverterDashboard.Server
