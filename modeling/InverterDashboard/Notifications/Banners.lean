import InverterDashboard.Bounded.Edits
import InverterDashboard.Notifications.Slots

/-
  The banner list of one source and the tables beside it.

  The list is what browsers are shown. The slots, the last alarm values, the dismissed ids and the
  flag of the platform decide what is put on it and taken off it; no operation reads the list to
  change a table. The answers of the operations, which only decide whether a broadcast follows,
  are left out.
-/

namespace InverterDashboard.Notifications

open Python Cerbo Bounded

/-! ## State -/

structure Board where
  notifications : List Banner
  alarmValues : Dict Str Nat
  platformSlots : Slots
  platformSeen : Bool
  /-- A set. -/
  dismissedIds : List Str

/-- The board of a new source. -/
def Board.init : Board where
  notifications := []
  alarmValues := Dict.empty
  platformSlots := Dict.empty
  platformSeen := false
  dismissedIds := []

/-- What a list keeps after an entry is appended: the banners, and the dismissed ids, of which one
    may be forgotten. Which one the iteration order of a set decides. -/
structure Limits where
  cut : List Banner → List Banner
  forget : Nat → List Str → List Str

/-- `NOTIFICATIONS_MAX`. -/
def notificationsMax : Nat := 100

def dismissedMax : Nat := 200

/-- The limits of the program. -/
def Limits.program : Limits where
  cut := newest notificationsMax
  forget i ids := if dismissedMax < ids.length then ids.eraseIdx (i % ids.length) else ids

/-- No limits, to say what the limits would cut. -/
def Limits.none : Limits := ⟨uncut, fun _ ids => ids⟩

/-! ## Texts -/

variable (u : Unicode)

/-- `_capitalize`. -/
def capitalize : Str → Str
  | [] => []
  | c :: s => u.upper c ++ s

/-- One step of `_split_camel`: the words so far, and the current one. -/
def splitCamelStep (acc : List Str × Str) (c : CodePoint) : List Str × Str :=
  if u.isUpper c && acc.2.getLast?.any u.isLower then (acc.1 ++ [acc.2], [c])
  else if c ∈ Str.lit "_- " then (if acc.2.isEmpty then acc.1 else acc.1 ++ [acc.2], [])
  else (acc.1, acc.2 ++ [c])

/-- `_split_camel`. -/
def splitCamel (s : Str) : List Str :=
  let (words, current) := s.foldl (splitCamelStep u) ([], [])
  if current.isEmpty then words else words ++ [current]

/-- `pretty_alarm_name`. -/
def prettyAlarmName (name : Str) : Str :=
  (Str.lit " ").intercalate ((splitCamel u name).map (capitalize u))

/-- What precedes the last underscore, and what follows it. -/
def cutLastUnderscore (s : Str) : Str × Str :=
  match s.reverse.dropWhile (· ≠ underscore) with
  | [] => ([], s)
  | _ :: front => (front.reverse, (s.reverse.takeWhile (· ≠ underscore)).reverse)

/-- `pretty_service_name`. -/
def prettyServiceName (service : Str) : Str :=
  let (name, inst) := cutLastUnderscore service
  if !name.isEmpty && inst.isdigit then capitalize u name ++ Str.lit " " ++ inst
  else capitalize u service

/-! ## The list -/

/-- `id.startswith("victron-platform-")`. -/
def isPlatformId (id : Str) : Bool := platformPrefix.isPrefixOf id

/-- `_is_raw_alarm`. -/
def isRawId (id : Str) : Bool :=
  (Str.lit "victron-N/").isPrefixOf id || (Str.lit "victron-alarm-").isPrefixOf id

def levelOf (s : Str) : Level :=
  if s = Str.lit "warning" then .warning else if s = Str.lit "alarm" then .alarm else .info

/-- `normalize_notification`. -/
def normalizeNotification (data : Value) : Option Banner :=
  match data with
  | .dict es =>
    let field := fun (name default : String) =>
      (Value.member (Str.lit name) es).textOr u (Str.lit default)
    let nid := (field "id" "").strip
    let title := (field "title" "").strip
    if nid.isEmpty && title.isEmpty then none
    else some {
      id := if nid.isEmpty then title else nid
      level := levelOf (field "level" "info").strip.lower
      title := if title.isEmpty then nid else title
      body := field "body" ""
      source := field "source" "inverter-control"
      ts := field "ts" "" }
  | _ => none

/-! ## Messages -/

/-- A value as `parse_float` finds it: a number with a fraction or an exponent keeps its text. -/
inductive Wire where
  | value (v : Value)
  | real (literal : Str)

/-- A message body: no bytes, bytes that are not JSON, a bare value, or an object with its member
    `value`. -/
inductive Body where
  | empty
  | malformed
  | bare (w : Wire)
  | object (value : Option Wire)

/-- The value with `parse_float=exact_json_number`. -/
def Wire.exact : Wire → Value
  | .value v => v
  | .real literal => exactJsonNumber literal

/-- The value with `parse_float=float`, for fields that accept no number. -/
def Wire.rounded : Wire → Value
  | .value v => v
  | .real literal => .float ((Float64.ofText literal).getD .nan)

/-- The value in an alarm message. -/
def Body.alarm : Body → Option Value
  | .empty => some .none
  | .object (some w) => some w.exact
  | _ => none

/-- Fields with an exact value. -/
def PlatformField.isNumeric : PlatformField → Bool
  | .description => false
  | .deviceName => false
  | .service => false
  | _ => true

/-- The value in a platform message. -/
def Body.platform (field : PlatformField) (body : Body) : Option Value :=
  let read := fun (w : Wire) => if field.isNumeric then w.exact else w.rounded
  match body with
  | .empty => some .none
  | .malformed => none
  | .bare w => some (read w)
  | .object (some w) => some (read w)
  | .object none => none

/-! ## Operations -/

namespace Board

variable (limits : Limits)

/-- `mqtt_upsert_notification`. -/
def upsert (b : Board) (banner : Banner) : Board :=
  { b with notifications := upsertKey Banner.id limits.cut banner b.notifications }

/-- The banners whose id satisfies `p`. -/
def keep (b : Board) (p : Str → Bool) : Board :=
  { b with notifications := b.notifications.filter fun banner => p banner.id }

/-- `mqtt_remove_notification_id`. -/
def removeId (b : Board) (nid : Str) : Board := b.keep (· ≠ nid)

/-- `mqtt_push_notification`. -/
def pushNotification (b : Board) (data : Value) : Board :=
  match normalizeNotification u data with
  | some banner => if banner.id ∈ b.dismissedIds then b else b.upsert limits banner
  | none => b

/-- `_activate_platform`. -/
def activatePlatform (b : Board) : Board := { b with platformSeen := true }.keep fun id => !isRawId id

/-- The banners of the platform replaced by those of the slots. -/
def showSlots (b : Board) : Board :=
  (notificationsFromPlatformSlots b.platformSlots).foldl (Board.upsert limits)
    (b.keep fun id => !isPlatformId id)

/-- The slot field that a topic of the platform names, with the key of the leaf. -/
def platformTopic (topic : Str) : Option (Str × PlatformField) :=
  match topic.splitSlash with
  | [n, _, platform, inst, mark, slot, field] =>
    if n = Str.lit "N" ∧ platform = Str.lit "platform" then
      let key := Str.joinSlash [inst, mark, slot, field]
      (parsePlatformLeafKey key).map fun name => (key, name.2)
    else none
  | _ => none

/-- The leaf of a platform message that is accepted. -/
def platformLeaf (topic : Str) (body : Body) : Option (Str × Value) :=
  (platformTopic topic).bind fun leaf =>
    (body.platform leaf.2).bind fun value =>
      if validPlatformValue leaf.2 value then some (leaf.1, value) else none

/-- `mqtt_handle_platform_notification`. -/
def handlePlatformNotification (b : Board) (topic : Str) (body : Body) : Board :=
  match platformLeaf topic body with
  | some leaf =>
    let b := b.activatePlatform
    { b with platformSlots := applyPlatformField b.platformSlots leaf.1 leaf.2 }.showSlots limits
  | none => b

/-- `f"victron-\x7btopic\x7d"`. -/
def alarmId (topic : Str) : Str := Str.lit "victron-" ++ topic

/-- The service an alarm topic names. -/
def alarmService (topic : Str) : Str :=
  let parts := topic.splitSlash
  let service := if 4 < parts.length then parts[2]?.getD [] else Str.lit "device"
  if 5 < parts.length ∧ parts[3]? ≠ some (Str.lit "Alarms") then
    service ++ [underscore] ++ parts[3]?.getD []
  else service

/-- A notification of an alarm. -/
def alarmData (nid title : Str) (name : Str) (value : Nat) : Value :=
  .dict [(Str.lit "id", .str nid),
    (Str.lit "level", .str (Str.lit (if value = 2 then "alarm" else "warning"))),
    (Str.lit "title", .str title),
    (Str.lit "body", .str (prettyAlarmName u name ++
      Str.lit (if value = 2 then ": Alarm" else ": Warning"))),
    (Str.lit "source", .str (Str.lit "victron"))]

/-- A value of an alarm: the topic it is remembered under, and the notification it is. -/
structure AlarmReport where
  topic : Str
  nid : Str
  value : Nat
  data : Value

/-- A report: a new value is remembered, and its banner goes or is pushed. -/
def setAlarm (b : Board) (r : AlarmReport) : Board :=
  if (b.alarmValues.get? r.topic).getD 0 = r.value then b
  else
    let b := { b with alarmValues := b.alarmValues.set r.topic r.value }
    if r.value = 1 ∨ r.value = 2 then b.pushNotification u limits r.data else b.removeId r.nid

/-- What an alarm message reports. -/
def messageReport (topic : Str) (body : Body) : Option AlarmReport :=
  (body.alarm.bind alarmValue).map fun value => ⟨topic, alarmId topic, value,
    alarmData u (alarmId topic) (prettyServiceName u (alarmService topic))
      (topic.splitSlash.getLast?.getD []) value⟩

/-- `handle_alarm`. -/
def handleAlarm (b : Board) (topic : Str) (body : Body) : Board :=
  match messageReport u topic body with
  | some r => b.setAlarm u limits r
  | none => b

/-! ## Snapshots -/

/-- `mqtt_sync_platform_from_snapshot`. -/
def syncPlatformFromSnapshot (b : Board) (leaves : Value) : Board :=
  match leaves with
  | .dict es =>
    let b := { b with platformSlots := syncPlatformMap b.platformSlots (Dict.ofList es) }
    (if b.platformSlots.isEmpty then b else b.activatePlatform).showSlots limits
  | _ => b

/-- `parse_alarm_leaf_key`: the service and the alarm. -/
def parseAlarmLeafKey (bucket key : Str) : Option (Str × Str) :=
  match key.splitSlash with
  | inst :: mark :: name :: rest =>
    let alarm := Str.joinSlash (name :: rest)
    if mark ≠ Str.lit "Alarms" ∨ inst.isEmpty ∨ alarm.isEmpty then none
    else some (bucket ++ [underscore] ++ inst, alarm)
  | _ => none

/-- `f"igw/\x7bbucket\x7d/\x7bkey\x7d"`. -/
def snapshotTopic (bucket key : Str) : Str := Str.lit "igw/" ++ bucket ++ [slash] ++ key

/-- `f"victron-alarm-\x7bservice_id\x7d-\x7balarm_name\x7d"`. -/
def snapshotAlarmId (parsed : Str × Str) : Str :=
  Str.lit "victron-alarm-" ++ parsed.1 ++ [dash] ++ parsed.2

/-- What a leaf of a snapshot reports. -/
def leafReport (bucket : Str) (leaf : Str × Value) : Option AlarmReport :=
  (parseAlarmLeafKey bucket leaf.1).bind fun parsed =>
    (alarmValue (unwrap leaf.2)).map fun value => ⟨snapshotTopic bucket leaf.1,
      snapshotAlarmId parsed, value,
      alarmData u (snapshotAlarmId parsed) (prettyServiceName u parsed.1) parsed.2 value⟩

/-- `_sync_alarm_leaf`. -/
def syncAlarmLeaf (b : Board) (bucket : Str) (leaf : Str × Value) : Board :=
  match leafReport u bucket leaf with
  | some r => b.setAlarm u limits r
  | none => b

/-- The buckets that hold alarms. -/
def alarmBuckets : List Str := [Str.lit "battery", Str.lit "vebus"]

/-- The leaves of a bucket; `none` when the bucket is malformed. -/
def bucketLeaves (snapshot : Object) (bucket : Str) : Option (List (Str × Value)) :=
  match snapshot.get? bucket with
  | none => some []
  | some (.dict es) => some es
  | some _ => none

/-- The topics a snapshot vouches for: the alarms it lists, and all of a malformed bucket. -/
def present (snapshot : Object) (topic : Str) : Bool :=
  alarmBuckets.any fun bucket =>
    match bucketLeaves snapshot bucket with
    | some leaves => leaves.any fun leaf =>
        (parseAlarmLeafKey bucket leaf.1).isSome && topic = snapshotTopic bucket leaf.1
    | none => (Str.lit "igw/" ++ bucket ++ [slash]).isPrefixOf topic

/-- The alarm of a topic of a snapshot. -/
def snapshotAlarm (topic : Str) : Option (Str × Str) :=
  match topic.splitSlashMax 2 with
  | [_, bucket, key] => parseAlarmLeafKey bucket key
  | _ => none

/-- One step of `_prune_snapshot_alarms`. -/
def pruneAlarm (b : Board) (topic : Str) : Board :=
  let b := { b with alarmValues := b.alarmValues.erase topic }
  match snapshotAlarm topic with
  | some parsed => b.removeId (snapshotAlarmId parsed)
  | none => b

/-- `_prune_snapshot_alarms`. -/
def pruneSnapshotAlarms (b : Board) (present : Str → Bool) : Board :=
  (b.alarmValues.keys.filter fun topic => (Str.lit "igw/").isPrefixOf topic && !present topic).foldl
    pruneAlarm b

/-- The alarm leaves of a snapshot with their buckets. -/
def alarmLeaves (snapshot : Object) : List (Str × (Str × Value)) :=
  alarmBuckets.flatMap fun bucket =>
    ((bucketLeaves snapshot bucket).getD []).map fun leaf => (bucket, leaf)

/-- `mqtt_sync_alarms_from_snapshot`. -/
def syncAlarmsFromSnapshot (b : Board) (snapshot : Object) : Board :=
  if b.platformSeen then b
  else ((alarmLeaves snapshot).foldl (fun b leaf => b.syncAlarmLeaf u limits leaf.1 leaf.2)
    b).pruneSnapshotAlarms (present snapshot)

/-- The notification part of `apply_snapshot`. -/
def applySnapshot (b : Board) (snapshot : Object) : Board :=
  (b.syncPlatformFromSnapshot limits
    ((snapshot.get? (Str.lit "platform")).getD (.dict []))).syncAlarmsFromSnapshot u limits snapshot

/-! ## Dismissals and sessions -/

/-- `set.add`, within the limit. -/
def dismissId (b : Board) (nid : Str) (forgotten : Nat) : Board :=
  if nid ∈ b.dismissedIds then b
  else { b with dismissedIds := limits.forget forgotten (b.dismissedIds ++ [nid]) }

/-- `mqtt_dismiss_notification`. -/
def dismiss (b : Board) (nid : Str) (forgotten : Nat) : Board :=
  if nid.isEmpty then b
  else
    let b := b.removeId nid
    if isPlatformId nid then { b with platformSlots := b.platformSlots.dismiss nid }
    else b.dismissId limits nid forgotten

/-- What stays of a slot when a session ends. -/
def retainedSlot (slot : Slot) : Slot :=
  { Slot.blank with userDismissed := true, lastValidDateTime := slot.lastValidDateTime }

/-- The slots that stay when a session ends: the dismissed ones. -/
def retainedSlots (slots : Slots) : Slots :=
  Dict.mapValues (fun _ => retainedSlot) ⟨slots.entries.filter fun e => e.2.userDismissed,
    slots.nodup.sublist (List.filter_sublist.map Prod.fst)⟩

/-- `mqtt_clear_native_state`. -/
def clearNativeState (b : Board) : Board :=
  { b with
    platformSlots := retainedSlots b.platformSlots
    platformSeen := false
    alarmValues := Dict.empty }.keep fun id => !isRawId id && !isPlatformId id

end Board

/-! ## Steps -/

/-- What is done to the board of a source. -/
inductive BoardOp where
  /-- A platform topic over MQTT. -/
  | platform (topic : Str) (body : Body)
  /-- An alarm topic over MQTT. -/
  | alarm (topic : Str) (body : Body)
  /-- A snapshot of the gateway. -/
  | snapshot (snapshot : Object)
  /-- A notification of the controller. -/
  | push (data : Value)
  | dismiss (nid : Str) (forgotten : Nat)
  | clear

def boardStep (limits : Limits) (b : Board) : BoardOp → Board
  | .platform topic body => b.handlePlatformNotification limits topic body
  -- Raw alarms are ignored once the platform reports.
  | .alarm topic body => if b.platformSeen then b else b.handleAlarm u limits topic body
  | .snapshot snapshot => b.applySnapshot u limits snapshot
  | .push data => b.pushNotification u limits data
  | .dismiss nid forgotten => b.dismiss limits nid forgotten
  | .clear => b.clearNativeState

end InverterDashboard.Notifications
