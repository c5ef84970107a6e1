import InverterDashboard.Server.Operations

/-
  The live checks of the WebSocket commands, as far as they read one `MqttState`: the ESS
  selection, the override and tariff commands, and the water devices.

  A check may drop an expired controller before it answers. One that succeeds has changed
  nothing (`controllerAvailable_some_true`), so what it says holds of the state it was asked of.
-/

namespace InverterDashboard.Server

open Python Cerbo Controller Temporal

/-! ## Definitions -/

/-- `_can_select_ess_mode`, once an `MqttState` is selected. `connected` is the flag of the
    transport that `remote` names. -/
def canSelectEssMode (cfg : Config) (clock : Clock) (remote connected : Bool) (s : MqttState) :
    Call Bool :=
  (controllerAvailable cfg clock s).andThen fun available s =>
    if !available || !connected then ⟨s, some false⟩
    else if remote && !(s.gatewayCapabilities.getD (Str.lit "set_ess_mode")).isTrue then
      ⟨s, some false⟩
    else (getState cfg clock s).andThen fun state s =>
      ⟨s, some (telemetryReady clock.wall s.controllerEssMode s.essModeObservedAt
        (state.getD (Str.lit "dry_run")))⟩

/-- The commands `_send_controller_command` knows. -/
inductive ControllerCommand where
  | setpointOverride
  | electricityTariff
deriving DecidableEq

def ControllerCommand.name : ControllerCommand → Str
  | .setpointOverride => Str.lit "setpoint_override"
  | .electricityTariff => Str.lit "electricity_tariff"

/-- The last step of `_can_controller_command`: support that was reported recently. -/
def commandSupported (clock : Clock) (name : ControllerCommand) (state : Object) (s : MqttState) :
    Bool :=
  match name with
  | .setpointOverride =>
    (overrideStatus (state.getD name.name)).isSome && fresh clock.wall s.setpointOverrideObservedAt
  | .electricityTariff =>
    (Value.member (Str.lit "writable") (tariffStatus state)).isTrue &&
      fresh clock.wall s.electricityTariffObservedAt

/-- `_can_controller_command`, once an `MqttState` is selected. `connected` is the answer of
    `_transport_connected(remote)`. -/
def canControllerCommand (cfg : Config) (clock : Clock) (name : ControllerCommand)
    (remote connected : Bool) (s : MqttState) : Call Bool :=
  (controllerAvailable cfg clock s).andThen fun available s =>
    if !available || !connected then ⟨s, some false⟩
    else if remote && !(s.gatewayCapabilities.getD name.name).isTrue then ⟨s, some false⟩
    else (getState cfg clock s).andThen fun state s =>
      ⟨s, some (commandSupported clock name state s)⟩

/-- `_water_device_available` for a configured instance; `none` when the devices do not sort. -/
def waterDeviceAvailable (clock : Clock) (inst : Str) (s : MqttState) : Option Bool :=
  (devices s.cerboDevices .pump).map fun pumps =>
    let leaves := ((pumps.find? fun d => d.1 = inst).map Prod.snd).getD (Leaves.ofDict Dict.empty)
    isMode (leaves.value (Str.lit "Mode")) && waterModeFresh clock inst s

/-! ## What a check reads -/

theorem controllerAvailable_some_true {cfg : Config} {clock : Clock} {s : MqttState}
    (h : (controllerAvailable cfg clock s).result = some true) :
    controllerAvailable cfg clock s = ⟨s, some true⟩ := by
  unfold controllerAvailable at h ⊢
  split at h
  · cases h
  · split at h
    · unfold Call.andThen at h
      split at h
      · cases h
      · cases h
    · next hexp => rw [if_neg hexp]

/-- The copy `get_state` returns of a state that is not expired. -/
def shownState (s : MqttState) : Object :=
  let result := match s.controllerEssMode with
    | some mode =>
      if (mode.getD (Str.lit "selection_supported")).isTrue then
        s.currentState.set (Str.lit "ess_mode") (.dict mode.entries)
      else s.currentState
    | none => s.currentState
  let time := fun (t : Option ℚ) => match t with
    | some q => Value.float (.fin q)
    | none => Value.none
  if result.isEmpty then result
  else ((result.set (Str.lit "ess_mode_observed_at") (time s.essModeObservedAt)).set
    (Str.lit "setpoint_override_observed_at") (time s.setpointOverrideObservedAt)).set
    (Str.lit "electricity_tariff_observed_at") (time s.electricityTariffObservedAt)

theorem getState_available {cfg : Config} {clock : Clock} {s : MqttState}
    (h : controllerAvailable cfg clock s = ⟨s, some true⟩) :
    getState cfg clock s = ⟨s, some (shownState s)⟩ := by
  unfold getState
  rw [h]
  rfl

/-- The keys `get_state` adds or replaces. -/
def derivedKeys : List Str := keyList
  ["ess_mode", "ess_mode_observed_at", "setpoint_override_observed_at",
   "electricity_tariff_observed_at"]

theorem shownState_get? (s : MqttState) {k : Str} (hk : k ∉ derivedKeys) :
    (shownState s).get? k = s.currentState.get? k := by
  simp only [derivedKeys, keyList, List.map_cons, List.map_nil, List.mem_cons, List.not_mem_nil,
    or_false, not_or] at hk
  obtain ⟨hess, hobserved, hoverride, htariff⟩ := hk
  have hmode : ∀ o : Object, o = (match s.controllerEssMode with
      | some mode =>
        if (mode.getD (Str.lit "selection_supported")).isTrue then
          s.currentState.set (Str.lit "ess_mode") (.dict mode.entries)
        else s.currentState
      | none => s.currentState) → o.get? k = s.currentState.get? k := by
    rintro _ rfl
    split
    · split
      · exact Dict.get?_set_ne _ _ hess
      · rfl
    · rfl
  unfold shownState
  extract_lets result time
  have hresult : result.get? k = s.currentState.get? k := hmode result rfl
  split
  · exact hresult
  · rw [Dict.get?_set_ne _ _ htariff, Dict.get?_set_ne _ _ hoverride,
      Dict.get?_set_ne _ _ hobserved, hresult]

theorem shownState_getD (s : MqttState) {k : Str} (hk : k ∉ derivedKeys) :
    (shownState s).getD k = s.currentState.getD k := by
  unfold Object.getD
  rw [shownState_get? s hk]

/-- A check that starts with `controller_available` says yes only of a state that is not
    expired. -/
theorem check_some_true {cfg : Config} {clock : Clock} {s : MqttState}
    {f : Bool → MqttState → Call Bool} (hf : ∀ s, (f false s).result = some false)
    (h : ((controllerAvailable cfg clock s).andThen f).result = some true) :
    (controllerAvailable cfg clock s).andThen f = f true s ∧
      controllerAvailable cfg clock s = ⟨s, some true⟩ := by
  have ha : (controllerAvailable cfg clock s).result = some true := by
    unfold Call.andThen at h
    split at h
    · next available ha =>
      cases available with
      | false =>
        rw [hf] at h
        cases h
      | true => exact ha
    · cases h
  have hs := controllerAvailable_some_true ha
  refine ⟨?_, hs⟩
  rw [hs]
  rfl

/-- What `_can_select_ess_mode` says yes to. -/
theorem canSelectEssMode_some_true {cfg : Config} {clock : Clock} {remote connected : Bool}
    {s : MqttState} (h : (canSelectEssMode cfg clock remote connected s).result = some true) :
    (canSelectEssMode cfg clock remote connected s).state = s ∧
      telemetryReady clock.wall s.controllerEssMode s.essModeObservedAt
        (s.currentState.getD (Str.lit "dry_run")) = true := by
  obtain ⟨heq, hs⟩ := check_some_true (fun _ => by simp) h
  change ((controllerAvailable cfg clock s).andThen _).state = s ∧ _
  change ((controllerAvailable cfg clock s).andThen _).result = some true at h
  rw [heq] at h ⊢
  rw [getState_available hs] at h ⊢
  split at h
  · cases h
  · next hlive =>
    split at h
    · cases h
    · next hcap =>
      rw [if_neg hlive, if_neg hcap]
      have hready := Option.some.inj h
      rw [shownState_getD s (by decide)] at hready
      exact ⟨rfl, hready⟩

/-- What `_can_controller_command` says yes to. -/
theorem canControllerCommand_some_true {cfg : Config} {clock : Clock} {name : ControllerCommand}
    {remote connected : Bool} {s : MqttState}
    (h : (canControllerCommand cfg clock name remote connected s).result = some true) :
    (canControllerCommand cfg clock name remote connected s).state = s ∧
      controllerAvailable cfg clock s = ⟨s, some true⟩ ∧
      commandSupported clock name (shownState s) s = true := by
  obtain ⟨heq, hs⟩ := check_some_true (fun _ => by simp) h
  change ((controllerAvailable cfg clock s).andThen _).state = s ∧ _
  change ((controllerAvailable cfg clock s).andThen _).result = some true at h
  rw [heq] at h ⊢
  rw [getState_available hs] at h ⊢
  split at h
  · cases h
  · next hlive =>
    split at h
    · cases h
    · next hcap =>
      rw [if_neg hlive, if_neg hcap]
      exact ⟨rfl, hs, Option.some.inj h⟩

end InverterDashboard.Server
