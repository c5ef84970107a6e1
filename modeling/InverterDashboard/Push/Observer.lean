import InverterDashboard.Push.Service
import InverterDashboard.Server.Isolation

/-
  `PushObserver`: what the reducer holds after a packet or a poll, as observations of the service.

  A sample is a value selected from the store together with the exact leaf it was read from. The
  observer remembers the samples it selected last, and drops the baseline of one that is no longer
  selected. An exception anywhere in an observation disables the service; what follows it in the
  source is then not run, which here is a call on a service that is not available.
-/

namespace InverterDashboard.Push

open Python Cerbo Server Notifications

/-! ## Samples -/

/-- Kind, instance and path of a native leaf. -/
structure LeafName where
  kind : Str
  inst : Str
  path : Str
  deriving DecidableEq

inductive Role where
  | pump | valve | ev | lowBattery
  deriving DecidableEq

/-- `Sample`. -/
structure Sample where
  kind : Str
  identifier : Str
  value : Option SampleValue
  leaf : LeafName

/-- The role of each sample, in the order of the loop. -/
abbrev Samples := List (Role × Sample)

def connectedPath : Str := Str.lit "Connected"

def statePath : Str := Str.lit "State"

def statusPath : Str := Str.lit "Status"

/-- `EV_POWER`. -/
def evPower : Str := Str.lit "Ac/Power"

def socPath : Str := Str.lit "Dc/Battery/Soc"

/-- A state of charge in percent. -/
def percent (q : ℚ) : Option SampleValue := if 0 ≤ q ∧ q ≤ 100 then some (.level q) else none

/-- `bool(raw) if raw in (0, 1) else None`. -/
def switched (q : ℚ) : Option SampleValue := if q = 0 ∨ q = 1 then some (.flag (q ≠ 0)) else none

/-- `power > 10`. -/
def charging (q : ℚ) : SampleValue := .flag (10 < q)

/-- `_soc_sample`; `none` outside when a listing raises. -/
def socSample (listing : Kind → Option Listing) : Option (Option Sample) := do
  let systems ← listing .system
  let (systemId, system) := systems.head?.getD (Str.lit "0", .absent)
  match system.number socPath with
  | some q => return some {
      kind := Str.lit "lowBattery"
      identifier := Str.lit "system:" ++ systemId
      value := percent q
      leaf := ⟨Str.lit "system", systemId, socPath⟩ }
  | none =>
    let batteries ← listing .battery
    let single : Option (Str × Leaves) := match batteries with
      | [battery] => some battery
      | _ => none
    let selected : Option (Str × Leaves) := match system.number (Str.lit "Dc/Battery/Instance") with
      | some q => if q.den = 1 then batteries.find? fun d => d.1 = intStr q.num else single
      | none => single
    return selected.map fun battery => {
      kind := Str.lit "lowBattery"
      identifier := Str.lit "battery:" ++ battery.1
      value := (battery.2.number (Str.lit "Soc")).bind percent
      leaf := ⟨Str.lit "battery", battery.1, Str.lit "Soc"⟩ }

/-- The sample of a switched pump: its `State`, or its `Status` while no `State` was stored. -/
def pumpSample (label : String) (inst : Int) (pumps : Listing) : Sample :=
  let leaves := lookup pumps (intStr inst)
  let field := if leaves.has statePath then statePath else statusPath
  { kind := Str.lit "water"
    identifier := Str.lit label ++ Str.lit ":" ++ intStr inst
    value := (leaves.number field).bind switched
    leaf := ⟨Str.lit "pump", intStr inst, field⟩ }

/-- The sample of the charger that is configured, or of the first that reports its power. -/
def evSample (configured : Option Int) (chargers : Listing) : Option Sample :=
  let selected : Option (Str × Leaves) := match configured with
    | some inst => chargers.find? fun d => d.1 = intStr inst
    | none => chargers.find? fun d => (d.2.number evPower).isSome
  selected.map fun charger => {
    kind := Str.lit "ev"
    identifier := Str.lit "evcharger:" ++ charger.1
    value := (charger.2.number evPower).map charging
    leaf := ⟨Str.lit "evcharger", charger.1, evPower⟩ }

/-- `selected_samples`; `none` when a listing raises. -/
def selectedSamples (cfg : Config) (s : MqttState) : Option Samples := do
  let pumps ← devices s.cerboDevices .pump
  let chargers ← devices s.cerboDevices .evcharger
  let soc ← socSample (devices s.cerboDevices)
  return [(.pump, pumpSample "pump" cfg.waterPumpInstance pumps),
      (.valve, pumpSample "valve" cfg.waterValveInstance pumps)] ++
    ((evSample cfg.evchargerInstance chargers).map fun s => (Role.ev, s)).toList ++
    (soc.map fun s => (Role.lowBattery, s)).toList

/-! ## Notifications -/

/-- The types of the slots, by the id of their banners. -/
def knownTypes (slots : Slots) : Dict Str (Option Int) :=
  Dict.ofList (slots.entries.map fun e =>
    (platformId e.1, if e.2.pushTypeKnown then e.2.notifType else none))

/-- The level a push classification sees. -/
def pushLevel (known : Dict Str (Option Int)) (banner : Banner) : Str :=
  let type := (known.get? banner.id).bind id
  if isPlatformId banner.id && !(type = some 0 || type = some 1 || type = some 2) then
    Str.lit "unknown"
  else banner.level.name

/-- `native_notifications`. -/
def nativeNotifications (b : Board) : List Notification :=
  b.notifications.map fun banner => {
    id := banner.id
    title := banner.title
    body := banner.body
    source := .str banner.source
    level := .str (pushLevel (knownTypes b.platformSlots) banner)
    ts := .str banner.ts }

/-! ## The observer -/

/-- `PushObserver`, apart from its service. -/
structure Observer where
  selected : Samples
  epoch : Str

def Observer.init : Observer := ⟨[], []⟩

/-- A source with the number of its object, the observer, and the service. -/
structure Watch where
  source : Source
  owner : Nat
  observer : Observer
  service : PushService

/-- The readings of the clock in one observation: once at its start, and once for each event that
    is queued. -/
structure Reading where
  now : ℚ
  native : Nat → ℚ
  sample : Role → ℚ

/-- `processor.sample(previous.kind, previous.identifier, None, …)`. -/
def forget (p : EventProcessor) (previous : Sample) : EventProcessor :=
  (sample p previous.kind previous.identifier none 0 false).1

/-- The loop of `_selection`: a role that lost its sample, or changed it, loses its baseline. -/
def dropUnselected (samples selected : Samples) (p : EventProcessor) : EventProcessor :=
  selected.foldl (fun p previous =>
    match Dict.find previous.1 samples with
    | some current => if current.identifier = previous.2.identifier then p else forget p previous.2
    | none => forget p previous.2) p

/-- The samples an observer still has when it selects: none of an earlier epoch. -/
def Observer.current (o : Observer) (epoch : Str) : Samples :=
  if o.epoch = epoch then o.selected else []

/-- `_selection`, given the samples of the reducer. -/
def Watch.select (w : Watch) (samples : Samples) : Watch :=
  let p := w.service.processor
  { w with
    observer := ⟨samples, p.epoch⟩
    service := { w.service with
      processor := dropUnselected samples (w.observer.current p.epoch) p } }

/-- A loop over the selected samples, each of which may queue an event. -/
def observeSamples (observe : Role × Sample → PushService → List EventPayload × PushService) :
    Samples → PushService → List EventPayload × PushService
  | [], s => ([], s)
  | e :: es, s =>
    let first := observe e s
    let rest := observeSamples observe es first.2
    (first.1 ++ rest.1, rest.2)

/-- One sample in `_snapshot`. -/
def snapshotSample (reading : Reading) (prime : Bool) (e : Role × Sample) (s : PushService) :
    List EventPayload × PushService :=
  s.observeSample e.2.kind e.2.identifier e.2.value reading.now prime (reading.sample e.1)

/-- `_mqtt_sample`. -/
def mqttSample (leaf : LeafName) (reading : Reading) (clear priming : Bool) (e : Role × Sample)
    (s : PushService) : List EventPayload × PushService :=
  let wanted := e.2
  if wanted.value.isNone || (leaf.kind = wanted.leaf.kind && leaf.inst = wanted.leaf.inst &&
      (leaf.path.isEmpty || leaf.path = connectedPath)) then
    s.observeSample wanted.kind wanted.identifier none reading.now false (reading.sample e.1)
  else if leaf = wanted.leaf then
    s.observeSample wanted.kind wanted.identifier (if clear then none else wanted.value)
      reading.now priming (reading.sample e.1)
  else ([], s)

/-- A topic whose messages change notifications. -/
def isNotificationTopic (topic : Str) : Bool :=
  topic = Str.lit "inverter/notifications" || (Str.lit "/Notifications/").contains topic ||
    (Str.lit "/Alarms/").contains topic

/-- The leaf a topic of the portal names; what follows the fourth slash is its path. -/
def observedLeaf (portal topic : Str) : Option LeafName :=
  match topic.splitSlash with
  | n :: p :: kind :: inst :: rest =>
    if n = Str.lit "N" ∧ p = portal then some ⟨kind, inst, Str.joinSlash rest⟩ else none
  | _ => none

/-- The number a packet itself carries: only this one refreshes a baseline, not the cached leaf. -/
def packetNumber (payload : Payload) : Option ℚ :=
  match payload with
  | .json (.dict es) => number (Value.member (Str.lit "value") es)
  | _ => none

namespace Watch

/-- `_selection` and the loop over it. An exception before it ended the call. -/
def observeSelected (site : Site)
    (observe : Role × Sample → PushService → List EventPayload × PushService) (w : Watch) :
    List EventPayload × Watch :=
  if !w.service.available then ([], w)
  else match selectedSamples site.cfg w.source.mqtt with
    | none => ([], { w with service := w.service.fail })
    | some samples =>
      let w := w.select samples
      let sampled := observeSamples observe samples w.service
      (sampled.1, { w with service := sampled.2 })

/-- A packet soon after the connection is a baseline. -/
def priming (reading : Reading) (w : Watch) : Bool :=
  reading.now - w.service.processor.startedAt < mqttPrimingSeconds

/-- What `_mqtt` does about notifications. -/
def noted (m : Message) (reading : Reading) (w : Watch) : List EventPayload × Watch :=
  if isNotificationTopic m.topic then
    let noted := w.service.observeNative (nativeNotifications w.source.board) reading.now
      (m.retained || w.priming reading) reading.native
    (noted.1, { w with service := noted.2 })
  else ([], w)

/-- What `_mqtt` does about samples. -/
def sampled (site : Site) (m : Message) (reading : Reading) (w : Watch) :
    List EventPayload × Watch :=
  match observedLeaf w.source.mqtt.portalId m.topic with
  | none => ([], w)
  | some leaf =>
    let clear := m.retained || (packetNumber m.payload.loaded).isNone
    w.observeSelected site (mqttSample leaf reading clear (w.priming reading))

/-- `mqtt`: the events that were reserved, and what is left. -/
def mqtt (site : Site) (m : Message) (reading : Reading) (w : Watch) : List EventPayload × Watch :=
  if w.service.available && w.service.connection = some (PushService.mqttSource, w.owner) then
    let noted := w.noted m reading
    let sampled := noted.2.sampled site m reading
    (noted.1 ++ sampled.1, sampled.2)
  else ([], w)

/-- The source of snapshots. -/
def gatewaySource : Str := Str.lit "igw"

/-- `self.service.connect("igw", ms)`. -/
def connectGateway (epoch : Str) (connected : ℚ) (w : Watch) : Watch :=
  { w with service := w.service.connect gatewaySource w.owner false epoch connected }

/-- `snapshot`: the first complete poll of a connection is a silent baseline. -/
def snapshot (site : Site) (epoch : Str) (connected : ℚ) (reading : Reading) (w : Watch) :
    List EventPayload × Watch :=
  if w.service.available then
    let prime := w.service.connects gatewaySource w.owner false
    let w := w.connectGateway epoch connected
    let noted := w.service.observeNative (nativeNotifications w.source.board) reading.now prime
      reading.native
    let sampled := { w with service := noted.2 }.observeSelected site (snapshotSample reading prime)
    (noted.1 ++ sampled.1, sampled.2)
  else ([], w)

end Watch

/-! ## Runs -/

/-- A packet, with the clocks of the reducer and the readings of the observer. -/
structure Packet where
  clock : Clock
  message : Message
  reading : Reading

/-- A poll of the gateway; the epoch and its time are for the case that it connects. -/
structure Poll where
  clock : Clock
  snapshot : Object
  epoch : Str
  connected : ℚ
  reading : Reading

namespace Watch

/-- The packet as the reducer leaves it to the observer: whatever the handlers raised is logged. -/
def receive (site : Site) (p : Packet) (w : Watch) : Watch :=
  { w with source := (w.source.onMessage site p.clock p.message).source }

/-- The body of `_consume_mqtt_messages`. -/
def packet (site : Site) (p : Packet) (w : Watch) : List EventPayload × Watch :=
  (w.receive site p).mqtt site p.message p.reading

/-- The poll as the reducer leaves it. -/
def apply (site : Site) (p : Poll) (w : Watch) : Watch :=
  { w with source := (w.source.applySnapshot site p.clock p.snapshot).source }

/-- `_apply_and_emit`: a snapshot that raises is not observed. -/
def poll (site : Site) (p : Poll) (w : Watch) : List EventPayload × Watch :=
  if (w.source.applySnapshot site p.clock p.snapshot).completed then
    (w.apply site p).snapshot site p.epoch p.connected p.reading
  else ([], w.apply site p)

end Watch

/-- The steps of the service that are neither observations nor storage faults. -/
def ServiceOp.isOwn : ServiceOp → Bool
  | .native _ _ _ _ => false
  | .sample _ _ _ _ _ _ => false
  | .fail => false
  | _ => true

/-- A step of a session. -/
inductive SessionOp where
  | packet (p : Packet)
  | service (op : ServiceOp) (own : op.isOwn = true)

variable (onCurve : List UInt8 → Bool) (site : Site)

/-- The events a step of a session reserves, and what it leaves. -/
def Watch.session (w : Watch) : SessionOp → List EventPayload × Watch
  | .packet p => w.packet site p
  | .service op _ => ([], { w with service := serviceStep onCurve w.service op })

def sessionStep (w : Watch) (op : SessionOp) : Watch := (w.session onCurve site op).2

/-- A step, with either transport. -/
inductive WatchOp where
  | session (op : SessionOp)
  | poll (p : Poll)
  /-- Another source, or the source after anything else that happens to it. -/
  | replace (source : Source) (owner : Nat)

def watchStep (w : Watch) : WatchOp → Watch
  | .session op => sessionStep onCurve site w op
  | .poll p => (w.poll site p).2
  | .replace source owner => { w with source := source, owner := owner }

end InverterDashboard.Push
