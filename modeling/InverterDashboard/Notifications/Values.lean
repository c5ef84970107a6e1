import InverterDashboard.Python.Decimal

/-
  How notification leaves are read: the values each field accepts, and what they mean.

  Enumerations and times are compared exactly, as decimals: a number next to an enumerated one is
  not that one.
-/

namespace InverterDashboard.Notifications

open Python

/-- `PLATFORM_FIELDS`. -/
inductive PlatformField where
  | description | deviceName | service | dateTime | type | active | acknowledged | silenced
  deriving DecidableEq

/-- The name of a field in a topic. -/
def PlatformField.name : PlatformField → Str
  | .description => Str.lit "Description"
  | .deviceName => Str.lit "DeviceName"
  | .service => Str.lit "Service"
  | .dateTime => Str.lit "DateTime"
  | .type => Str.lit "Type"
  | .active => Str.lit "Active"
  | .acknowledged => Str.lit "Acknowledged"
  | .silenced => Str.lit "Silenced"

def platformFields : List PlatformField :=
  [.description, .deviceName, .service, .dateTime, .type, .active, .acknowledged, .silenced]

/-- The field of a name. -/
def PlatformField.ofName? (s : Str) : Option PlatformField := platformFields.find? (·.name = s)

theorem PlatformField.ofName?_name (f : PlatformField) : ofName? f.name = some f := by
  cases f <;> decide

/-! ## Coercions -/

/-- `_as_bool`. -/
def asBool : Value → Option Bool
  | .bool b => some b
  | .int i => if i = 0 then some false else if i = 1 then some true else none
  | .float (.fin q) => if q = 0 then some false else if q = 1 then some true else none
  | .str s =>
    let t := s.strip.lower
    if t = Str.lit "1" ∨ t = Str.lit "true" then some true
    else if t = Str.lit "0" ∨ t = Str.lit "false" then some false
    else none
  | _ => none

/-- `_as_i64`. -/
def asI64 : Value → Option Int
  | .bool b => some (if b then 1 else 0)
  | .int i => some i
  | .float x => x.toInt?
  | .str s => (Float64.ofText s.strip).bind Float64.toInt?
  | _ => none

/-- `_as_str` of the values that text fields accept. -/
def asStr : Value → Option Str
  | .str s => if s.strip.isEmpty then none else some s.strip
  | _ => none

/-- `Decimal(value)` of a number or a text. -/
def decimalOf : Value → Option Decimal
  | .int i => some (.ofInt i)
  | .float x => some (.ofFloat x)
  | .str s => Decimal.ofText s
  | _ => none

/-- 9999-12-31T23:59:59Z. -/
def lastSecond : Nat := 253402300799

/-- `_event_datetime` of the values that the time field accepts. -/
def eventDatetime (value : Value) : Option Nat :=
  ((decimalOf value).bind (Decimal.natUpTo lastSecond)).filter (0 < ·)

/-- `alarm_value`. -/
def alarmValue : Value → Option Nat
  | .none => some 0
  | value => (decimalOf value).bind (Decimal.natUpTo 2)

/-- `exact_json_number`: what becomes of a number with a fraction or an exponent. -/
def exactJsonNumber (literal : Str) : Value :=
  match alarmValue (.str literal) with
  | some n => .int n
  | none => .str literal

/-- `_valid_platform_value`. -/
def validPlatformValue (field : PlatformField) (value : Value) : Bool :=
  match value with
  | .none => true
  | value =>
    match field with
    | .dateTime => (match value with
      | .str _ => true
      | .int _ => true
      | .float _ => true
      | .bool _ => true
      | _ => false)
    | .type => (alarmValue value).isSome
    | .active => (asBool value).isSome
    | .acknowledged => (asBool value).isSome
    | .silenced => (asBool value).isSome
    | _ => (match value with
      | .str _ => true
      | _ => false)

end InverterDashboard.Notifications
