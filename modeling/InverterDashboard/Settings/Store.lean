import InverterDashboard.Json.File
import InverterDashboard.Python.Printing

/-
  The settings file: `load_settings`, `save_settings` and `apply_connection_overrides`.

  The file is a sequence of bytes, or absent. The defaults come from the environment of the process
  and are no part of the file until a save writes them there: a save stores everything it loaded.
-/

namespace InverterDashboard.Settings

open Python Json

/-! ## Keys -/

/-- A type of `ALLOWED_KEYS`. -/
inductive Kind where
  | str | bool | int
  deriving DecidableEq

/-- `__name__`. -/
def Kind.name : Kind → Str
  | .str => Str.lit "str"
  | .bool => Str.lit "bool"
  | .int => Str.lit "int"

def mqttPortKey : Str := Str.lit "mqtt_port"

/-- `ALLOWED_KEYS`. -/
def allowedKeys : List (Str × Kind) :=
  [(Str.lit "camera_topic", .str),
   (Str.lit "show_daily_stats", .bool),
   (Str.lit "show_header_toggles", .bool),
   (Str.lit "show_ha_sensors", .bool),
   (Str.lit "show_ha_numbers", .bool),
   (Str.lit "show_batteries", .bool),
   (Str.lit "show_solar_production", .bool),
   (Str.lit "show_active_loads", .bool),
   (Str.lit "show_ev", .bool),
   (Str.lit "show_washer", .bool),
   (Str.lit "show_dryer", .bool),
   (Str.lit "show_dishwasher", .bool),
   (Str.lit "show_home_section", .bool),
   (Str.lit "show_ha_covers", .bool),
   (Str.lit "show_ha_media", .bool),
   (Str.lit "show_ha_scenes", .bool),
   (Str.lit "show_ha_weather", .bool),
   (Str.lit "mqtt_host", .str),
   (mqttPortKey, .int),
   (Str.lit "mqtt_username", .str),
   (Str.lit "mqtt_password", .str),
   (Str.lit "ha_url", .str),
   (Str.lit "ha_token", .str)]

/-- `SECRET_KEYS`. -/
def secretKeys : List Str := [Str.lit "mqtt_password", Str.lit "ha_token"]

/-- What the configuration takes from the environment: its strings have a UTF-8 form, and its
    numbers were read from a text. -/
structure Config where
  cameraTopic : Str
  mqttHost : Str
  mqttPort : Int
  mqttUsername : Str
  mqttPassword : Str
  scalar : Scalar cameraTopic ∧ Scalar mqttHost ∧ Scalar mqttUsername ∧ Scalar mqttPassword
  digits : (natStr mqttPort.natAbs).length ≤ intMaxStrDigits

/-- The entries of `DEFAULTS`. -/
def defaultEntries (c : Config) : List (Str × Value) :=
  [(Str.lit "camera_topic", .str c.cameraTopic),
   (Str.lit "show_daily_stats", .bool true),
   (Str.lit "show_header_toggles", .bool true),
   (Str.lit "show_ha_sensors", .bool true),
   (Str.lit "show_ha_numbers", .bool true),
   (Str.lit "show_batteries", .bool true),
   (Str.lit "show_solar_production", .bool true),
   (Str.lit "show_active_loads", .bool true),
   (Str.lit "show_ev", .bool true),
   (Str.lit "show_washer", .bool true),
   (Str.lit "show_dryer", .bool true),
   (Str.lit "show_dishwasher", .bool true),
   (Str.lit "show_home_section", .bool true),
   (Str.lit "show_ha_covers", .bool true),
   (Str.lit "show_ha_media", .bool true),
   (Str.lit "show_ha_scenes", .bool true),
   (Str.lit "show_ha_weather", .bool true),
   (Str.lit "mqtt_host", .str c.mqttHost),
   (mqttPortKey, .int c.mqttPort),
   (Str.lit "mqtt_username", .str c.mqttUsername),
   (Str.lit "mqtt_password", .str []),
   (Str.lit "ha_url", .str []),
   (Str.lit "ha_token", .str [])]

theorem keys_defaultEntries (c : Config) :
    (defaultEntries c).map Prod.fst = allowedKeys.map Prod.fst := rfl

theorem nodup_allowedKeys : (allowedKeys.map Prod.fst).Nodup := by decide

/-- `DEFAULTS`. -/
def defaults (c : Config) : Object := ⟨defaultEntries c, nodup_allowedKeys⟩

/-! ## Values -/

/-- `isinstance(value, typ)`; a `bool` is an `int`. -/
def Kind.accepts : Kind → Value → Bool
  | .str, .str _ => true
  | .bool, .bool _ => true
  | .int, .int _ => true
  | .int, .bool _ => true
  | _, _ => false

/-- `value == "***"`. -/
def isMasked : Value → Bool
  | .str s => s = Str.lit "***"
  | _ => false

/-- A port: `not isinstance(value, bool) and 1 <= value <= 65535`. -/
def isPort : Value → Bool
  | .int i => 1 ≤ i ∧ i ≤ 65535
  | _ => false

/-- `_valid_setting`. -/
def validSetting (key : Str) (value : Value) (kind : Kind) : Bool :=
  if kind.accepts value = false then false
  else if key = mqttPortKey then isPort value
  else !(key ∈ secretKeys && isMasked value)

/-! ## Loading -/

/-- What a call raises. -/
inductive Failed where
  /-- `UnicodeDecodeError`. -/
  | unicodeDecode
  /-- `RecursionError`. -/
  | recursion
  /-- `ValueError`: an integer of too many digits. -/
  | digits
  /-- `ValueError` of an unknown key. -/
  | unknown (key : Str)
  /-- `ValueError` of a value that is not valid. -/
  | mustBe (key : Str) (kind : Kind)
  /-- `OSError`. -/
  | os
  deriving DecidableEq

/-- The messages of the errors of a patch. -/
def Failed.message : Failed → Option Str
  | .unknown key => some (Str.lit "unknown setting: " ++ key)
  | .mustBe key kind => some (Str.lit "setting " ++ key ++ Str.lit " must be " ++ kind.name)
  | _ => none

/-- The bytes of the file; `none` when it cannot be opened. -/
abbrev File := Option (List UInt8)

/-- How deep the runtime follows nested containers. -/
structure Runtime where
  depth : Nat
  pos : 0 < depth

variable (rt : Runtime)

/-- The object in the file. A file that is absent, is not JSON or holds another value has none. -/
def readStored (file : File) : Except Failed (Option (List (Str × Value))) :=
  match file with
  | none => .ok none
  | some bytes =>
    match readText bytes with
    | none => .error .unicodeDecode
    | some text =>
      match loads rt.depth text with
      | .ok tree => .ok (tree.value Tree.rounded).dict?
      -- Only `OSError` and `JSONDecodeError` are caught.
      | .error .malformed => .ok none
      | .error .nesting => .error .recursion
      | .error .digits => .error .digits

/-- A step of the loop over `ALLOWED_KEYS`. -/
def overlayKey (stored : List (Str × Value)) (out : Object) (key : Str × Kind) : Object :=
  match Dict.find key.1 stored with
  | some v => if validSetting key.1 v key.2 then out.set key.1 v else out
  | none => out

/-- The defaults, and what the file stores. -/
def overlay (c : Config) (stored : Option (List (Str × Value))) : Object :=
  match stored with
  | some members => allowedKeys.foldl (overlayKey members) (defaults c)
  | none => defaults c

/-- `"***"` or nothing for each secret. -/
def maskSecrets (out : Object) : Object :=
  out.setAll secretKeys fun key =>
    .str (if ((out.get? key).getD .none).truthy then Str.lit "***" else [])

/-- `load_settings`. -/
def loadSettings (c : Config) (file : File) (mask : Bool) : Except Failed Object :=
  match readStored rt file with
  | .ok stored => .ok (if mask then maskSecrets (overlay c stored) else overlay c stored)
  | .error e => .error e

/-! ## Saving -/

/-- A step of the loop over a patch. -/
def cleanEntry (clean : Object) (entry : Str × Value) : Except Failed Object :=
  match Dict.find entry.1 allowedKeys with
  | none => .error (.unknown entry.1)
  | some kind =>
    if entry.1 ∈ secretKeys ∧ isMasked entry.2 = true then .ok clean
    else if validSetting entry.1 entry.2 kind then .ok (clean.set entry.1 entry.2)
    else .error (.mustBe entry.1 kind)

/-- The entries of a patch that are saved. -/
def cleanPatch (patch : Object) : Except Failed Object :=
  patch.entries.foldlM cleanEntry Dict.empty

/-- `d.update(other)`. -/
def update (d other : Object) : Object := other.entries.foldl (fun d e => d.set e.1 e.2) d

/-- What the storage does with a write: it may fail before the new file takes the place of the old
    one, or after. -/
inductive Disk where
  | works | failsBefore | failsAfter
  deriving DecidableEq

/-- `_write_private_settings`. -/
def writePrivateSettings (disk : Disk) (file : File) (merged : Object) : Except Failed Unit × File :=
  match (dump 0 (.dict merged.entries)).bind Str.utf8 with
  | none => (.error .digits, file)
  | some bytes =>
    match disk with
    | .works => (.ok (), some bytes)
    | .failsBefore => (.error .os, file)
    | .failsAfter => (.error .os, some bytes)

/-- `save_settings`: its result and the file it leaves. -/
def saveSettings (c : Config) (disk : Disk) (file : File) (patch : Object) :
    Except Failed Object × File :=
  match cleanPatch patch with
  | .error e => (.error e, file)
  | .ok clean =>
    match loadSettings rt c file false with
    | .error e => (.error e, file)
    | .ok settings =>
      let merged := update settings clean
      match writePrivateSettings disk file merged with
      | (.ok (), file) => (.ok merged, file)
      | (.error e, file) => (.error e, file)

end InverterDashboard.Settings
