import InverterDashboard.Cerbo.Keys

/-
  Validation of controller commands and of the controller's status reports: the setpoint
  override, the electricity tariff and the ESS selection.

  A command body is checked before anything is sent; a status report is checked when it is
  received, and only a checked status is stored.
-/

namespace InverterDashboard.Controller

open Python

/-! ## Server-owned fields -/

/-- `controller_commands.SERVER_FIELDS`. -/
def commandServerFields : List Str := Cerbo.keyList
  ["setpoint_override_observed_at", "setpoint_override_controls_available",
   "electricity_tariff_observed_at", "electricity_tariff_controls_available",
   "grid_backup_observed_at"]

/-- `ess_mode.SERVER_FIELDS`. -/
def essServerFields : List Str := Cerbo.keyList
  ["ess_mode_observed_at", "ess_mode_controls_available"]

/-- Fields a controller message may not set. -/
def serverFields : List Str := essServerFields ++ commandServerFields

/-! ## Values -/

def isAsciiAlnum (c : CodePoint) : Bool :=
  (0x30 ≤ c.val ∧ c.val ≤ 0x39) ∨ (0x41 ≤ c.val ∧ c.val ≤ 0x5a) ∨ (0x61 ≤ c.val ∧ c.val ≤ 0x7a)

/-- A character of `[A-Za-z0-9._:-]`. -/
def isRequestIdChar (c : CodePoint) : Bool := isAsciiAlnum c || c ∈ Str.lit "._:-"

/-- `request_id_valid`. -/
def requestIdValid : Value → Bool
  | .str s => 1 ≤ s.length ∧ s.length ≤ 128 ∧ s.all isRequestIdChar
  | _ => false

/-- `int32_or_null`. -/
def int32OrNull : Value → Bool
  | .none => true
  | .int i => -2 ^ 31 ≤ i ∧ i < 2 ^ 31
  | _ => false

/-- `value is None or isinstance(value, str)`. -/
def textOrNull : Value → Bool
  | .none => true
  | .str _ => true
  | _ => false

/-- `control_boolean`. -/
def controlBoolean (value : Value) : Option Bool :=
  match value with
  | .bool b => some b
  | .str s =>
    let normalized := s.strip.lower
    if normalized ∈ [Str.lit "true", Str.lit "1", Str.lit "on"] then some true
    else if normalized ∈ [Str.lit "false", Str.lit "0", Str.lit "off"] then some false
    else none
  | .int i => if i = 0 ∨ i = 1 then some (i = 1) else none
  | .float x => if x = .fin 0 ∨ x = .fin 1 then some (x = .fin 1) else none
  | _ => none

/-! ## The setpoint override -/

/-- A checked override status: the controller's value, its error and the request it answers. -/
structure OverrideStatus where
  value : Value
  lastError : Value
  requestId : Value

def OverrideStatus.toValue (s : OverrideStatus) : Value :=
  .dict [(Str.lit "value", s.value), (Str.lit "last_error", s.lastError),
    (Str.lit "request_id", s.requestId)]

/-- `override_status`. -/
def overrideStatus (value : Value) : Option OverrideStatus := do
  let es ← value.dict?
  let v ← Dict.find (Str.lit "value") es
  let e ← Dict.find (Str.lit "last_error") es
  let r ← Dict.find (Str.lit "request_id") es
  if int32OrNull v && textOrNull e && textOrNull r then some ⟨v, e, r⟩ else none

/-- A checked status checks again to itself. -/
theorem overrideStatus_toValue {value : Value} {s : OverrideStatus}
    (h : overrideStatus value = some s) : overrideStatus s.toValue = some s := by
  unfold overrideStatus at h
  obtain ⟨es, -, h⟩ := Option.bind_eq_some_iff.mp h
  obtain ⟨v, -, h⟩ := Option.bind_eq_some_iff.mp h
  obtain ⟨e, -, h⟩ := Option.bind_eq_some_iff.mp h
  obtain ⟨r, -, h⟩ := Option.bind_eq_some_iff.mp h
  split at h
  · next hc =>
    obtain rfl := Option.some.inj h
    unfold overrideStatus OverrideStatus.toValue
    simp only [Value.dict?, Dict.find, Str.lit_inj, bind, Option.bind_some, reduceIte,
      String.reduceEq]
    rw [if_pos hc]
  · cases h

/-- A setpoint override command: `validate_override` of its body. -/
structure OverrideBody where
  value : Value
  requestId : Value
  valid : int32OrNull value = true ∧ requestIdValid requestId = true

/-- `set(body) == keys`. -/
def keysAre (es : List (Str × Value)) (keys : List Str) : Bool :=
  es.all (fun e => e.1 ∈ keys) && keys.all fun k => (Dict.find k es).isSome

/-- `validate_override`; `none` is its `ValueError`. -/
def validateOverride (body : Value) : Option OverrideBody := do
  let es ← body.dict?
  let v := Value.member (Str.lit "value") es
  let r := Value.member (Str.lit "request_id") es
  if keysAre es [Str.lit "value", Str.lit "request_id"] then
    if h : int32OrNull v = true ∧ requestIdValid r = true then some ⟨v, r, h⟩ else none
  else none

/-- `fresh`: a receipt at most 30 seconds old by the wall clock, and not from the future. -/
def fresh (now : ℚ) (observedAt : Option ℚ) : Bool :=
  match observedAt with
  | some t => 0 ≤ now - t ∧ now - t ≤ 30
  | none => false

/-! ## The electricity tariff -/

def isLowerHex (c : CodePoint) : Bool :=
  (0x30 ≤ c.val ∧ c.val ≤ 0x39) ∨ (0x61 ≤ c.val ∧ c.val ≤ 0x66)

/-- A tariff revision: 64 lower-case hexadecimal digits. -/
def revisionValid : Value → Bool
  | .str s => s.length = 64 ∧ s.all isLowerHex
  | _ => false

/-- `tariff_status`: the members of the status, none when it is missing. -/
def tariffStatus (state : Object) : List (Str × Value) :=
  match (state.getD (Str.lit "ui_config")).dict? with
  | some ui => ((Value.member (Str.lit "electricity_tariff_status") ui).dict?).getD []
  | none => []

/-! ## ESS selection -/

/-- `ess_mode.MODES`. -/
def essModes : List Str := Cerbo.keyList
  ["off", "on", "optimized_with_battery_life", "optimized_without_battery_life",
   "keep_batteries_charged", "external_control"]

/-- An ESS selection: `validate_selection` of its body. -/
structure EssBody where
  mode : Str
  requestId : Value
  valid : mode ∈ essModes ∧ requestIdValid requestId = true

/-- `validate_selection`; `none` is its `ValueError`. -/
def validateSelection (body : Value) : Option EssBody := do
  let es ← body.dict?
  let r := Value.member (Str.lit "request_id") es
  if keysAre es [Str.lit "mode", Str.lit "request_id"] then
    match Value.member (Str.lit "mode") es with
    | .str mode =>
      if h : mode ∈ essModes ∧ requestIdValid r = true then some ⟨mode, r, h⟩ else none
    | _ => none
  else none

/-- `telemetry_ready`. -/
def telemetryReady (now : ℚ) (mode : Option Object) (observedAt : Option ℚ) (dryRun : Value) :
    Bool :=
  match mode with
  | some mode =>
    (mode.getD (Str.lit "selection_supported")).isTrue && fresh now observedAt && dryRun.isFalse
  | none => false

theorem fresh_eq_true {now : ℚ} {observedAt : Option ℚ} :
    fresh now observedAt = true ↔ ∃ t, observedAt = some t ∧ t ≤ now ∧ now - t ≤ 30 := by
  cases observedAt with
  | none => simp [fresh]
  | some t => simp [fresh]

theorem telemetryReady_eq_true {now : ℚ} {mode : Option Object} {observedAt : Option ℚ}
    {dryRun : Value} : telemetryReady now mode observedAt dryRun = true ↔
      (∃ m, mode = some m ∧ m.getD (Str.lit "selection_supported") = .bool true) ∧
        (∃ t, observedAt = some t ∧ t ≤ now ∧ now - t ≤ 30) ∧ dryRun = .bool false := by
  cases mode with
  | none => simp [telemetryReady]
  | some m =>
    rw [← fresh_eq_true]
    simp [telemetryReady, and_assoc]

end InverterDashboard.Controller
