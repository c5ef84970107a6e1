import InverterDashboard.Cerbo.Listing
import InverterDashboard.Notifications.Values
import InverterDashboard.Python.Printing

/-
  The notification slots of the platform: `apply_platform_field`, `sync_platform_map`, and the
  banners that the slots show.

  A slot record may lack keys after a session ended; every reader takes a missing key as `None` or
  `False`, so such a record is a blank slot here. The answer of `apply_platform_field`, which
  nobody reads, is left out.
-/

namespace InverterDashboard.Notifications

open Python Cerbo

/-! ## Records -/

/-- Instance and slot number. -/
abbrev SlotKey := Str × Nat

@[ext] structure Slot where
  description : Option Str
  deviceName : Option Str
  service : Option Str
  dateTime : Option Nat
  lastValidDateTime : Option Nat
  notifType : Option Int
  pushTypeKnown : Bool
  active : Option Bool
  acknowledged : Option Bool
  silenced : Option Bool
  userDismissed : Bool
  deriving DecidableEq

abbrev Slots := Dict SlotKey Slot

/-- The record of a slot without any leaf. -/
def Slot.blank : Slot where
  description := none
  deviceName := none
  service := none
  dateTime := none
  lastValidDateTime := none
  notifType := none
  pushTypeKnown := false
  active := none
  acknowledged := none
  silenced := none
  userDismissed := false

inductive Level where
  | info | warning | alarm
  deriving DecidableEq

def Level.name : Level → Str
  | .info => Str.lit "info"
  | .warning => Str.lit "warning"
  | .alarm => Str.lit "alarm"

structure Banner where
  id : Str
  level : Level
  title : Str
  body : Str
  source : Str
  ts : Str
  deriving DecidableEq

/-! ## Leaves -/

/-- A nonempty text of ASCII digits. -/
def isAsciiDecimal (s : Str) : Bool := !s.isEmpty && s.all asciiDigit

/-- `parse_platform_leaf_key`. -/
def parsePlatformLeafKey (key : Str) : Option (SlotKey × PlatformField) :=
  match key.splitSlash with
  | [inst, mark, slot, field] =>
    if mark = Str.lit "Notifications" && isAsciiDecimal inst && isAsciiDecimal slot then
      (PlatformField.ofName? field).bind fun field =>
        ((intOfDigits slot).filter (· ≤ 20)).map fun n => ((inst, n), field)
    else none
  | _ => none

/-- `_apply_platform_datetime`. -/
def Slot.applyDatetime (slot : Slot) (value : Value) : Slot :=
  match eventDatetime value with
  | some next => { slot with
      userDismissed := slot.userDismissed && slot.lastValidDateTime = some next
      lastValidDateTime := some next
      dateTime := some next }
  | none => { slot with dateTime := none }

/-- An explicit type, as a push notification needs it. -/
def explicitType : Value → Bool
  | .int i => i = 0 ∨ i = 1 ∨ i = 2
  | .float (.fin q) => q = 0 ∨ q = 1 ∨ q = 2
  | _ => false

/-- A field of a slot set to an accepted value. -/
def Slot.put (slot : Slot) (field : PlatformField) (value : Value) : Slot :=
  match field with
  | .description => { slot with description := asStr value }
  | .deviceName => { slot with deviceName := asStr value }
  | .service => { slot with service := asStr value }
  | .dateTime => slot.applyDatetime value
  | .type => { slot with pushTypeKnown := explicitType value, notifType := asI64 value }
  | .active => { slot with
      active := asBool value
      userDismissed := slot.userDismissed && !(asBool value = some false && slot.active = some true) }
  | .acknowledged => { slot with acknowledged := asBool value }
  | .silenced => { slot with silenced := asBool value }

/-- The record of a key, as `setdefault` leaves it. -/
def Slots.record (slots : Slots) (key : SlotKey) : Slot := (slots.get? key).getD .blank

/-- `apply_platform_field`. -/
def applyPlatformField (slots : Slots) (key : Str) (value : Value) : Slots :=
  match parsePlatformLeafKey key with
  | some (slot, field) =>
    if validPlatformValue field value then
      slots.set slot ((slots.record slot).put field value)
    else slots
  | none => slots

/-! ## Banners -/

/-- `_slot_level`. -/
def slotLevel (notifType : Option Int) : Level :=
  if notifType = some 0 then .warning else if notifType = some 2 then .info else .alarm

/-- `_slot_should_show`. -/
def Slot.shouldShow (slot : Slot) : Bool :=
  !(slot.userDismissed || slot.acknowledged = some true) &&
    !((slot.description.getD []).strip).isEmpty

/-- `a or b or ""`. -/
def firstText (a b : Option Str) : Str :=
  if (a.getD []).isEmpty then b.getD [] else a.getD []

def platformPrefix : Str := Str.lit "victron-platform-"

/-- `f"victron-platform-\x7binst\x7d-\x7bslot_n\x7d"`. -/
def platformId (key : SlotKey) : Str := platformPrefix ++ key.1 ++ [dash] ++ natStr key.2

/-- `_slot_to_notification` of a slot that shows. -/
def Slot.banner (key : SlotKey) (slot : Slot) : Banner where
  id := platformId key
  level := slotLevel slot.notifType
  title := (slot.description.getD []).strip
  body := (firstText slot.deviceName slot.service).strip
  source := Str.lit "victron"
  ts := match slot.dateTime with
    | some seconds => if 0 < seconds then utcIsoformat seconds else []
    | none => []

/-- `_slot_to_notification`. -/
def slotToNotification (key : SlotKey) (slot : Slot) : Option Banner :=
  if slot.shouldShow then some (slot.banner key) else none

/-- The order of `(inst, slot)` tuples. -/
def SlotKey.le (a b : SlotKey) : Bool := if a.1 = b.1 then a.2 ≤ b.2 else leText a.1 b.1

def bySlot (a b : SlotKey × Slot) : Prop := SlotKey.le a.1 b.1

instance : DecidableRel bySlot := fun a b => inferInstanceAs (Decidable (SlotKey.le a.1 b.1 = true))

/-- `notifications_from_platform_slots`. -/
def notificationsFromPlatformSlots (slots : Slots) : List Banner :=
  (slots.entries.insertionSort bySlot).filterMap fun e => slotToNotification e.1 e.2

/-! ## Dismissals -/

/-- The slot that an id with the platform prefix names; the number is read with `int`. -/
def dismissedSlot (nid : Str) : Option SlotKey :=
  (Str.cutLastDash (nid.drop platformPrefix.length)).bind fun parts =>
    (Str.toInt? parts.2).bind fun n => if 0 ≤ n then some (parts.1, n.toNat) else none

/-- The slot part of `mqtt_dismiss_notification`. -/
def Slots.dismiss (slots : Slots) (nid : Str) : Slots :=
  if platformPrefix.isPrefixOf nid then
    match dismissedSlot nid with
    | some key => match slots.get? key with
      | some slot => slots.set key { slot with userDismissed := true }
      | none => slots
    | none => slots
  else slots

/-! ## Snapshots -/

/-- The value of a leaf of a snapshot, which may be wrapped. -/
def unwrap (raw : Value) : Value :=
  match raw with
  | .dict es => (Dict.find (Str.lit "value") es).getD raw
  | raw => raw

/-- The dismissal and the last valid time a rebuilt slot inherits. -/
def Slot.inherit (before : Option Slot) (slot : Slot) : Slot :=
  let date := before.bind Slot.lastValidDateTime
  let slot := if slot.dateTime.isNone then { slot with lastValidDateTime := date } else slot
  if before.any Slot.userDismissed then
    { slot with userDismissed := !(date ≠ slot.dateTime && slot.dateTime.isSome) }
  else slot

/-- The slots that the leaves of a snapshot build. -/
def rebuild (leaves : Object) : Slots :=
  leaves.entries.foldl (fun slots e => applyPlatformField slots e.1 (unwrap e.2)) Dict.empty

/-- `sync_platform_map`: the slots it leaves. It returns their banners. -/
def syncPlatformMap (slots : Slots) (leaves : Object) : Slots :=
  (rebuild leaves).mapValues fun key slot => slot.inherit (slots.get? key)

end InverterDashboard.Notifications
