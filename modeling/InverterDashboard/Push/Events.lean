import InverterDashboard.Push.Store
import InverterDashboard.Python.Repr

/-
  `EventProcessor`: which notifications and samples are events.

  A processor belongs to one connection, its epoch. It primes silently, then lets fresh native
  notifications and fresh transitions of samples pass. `none` in a result is a raised
  `ValueError`: a text that cannot be encoded.
-/

namespace InverterDashboard.Push

open Python Cerbo

/-! ## State -/

/-- A notification as `native` reads it. The first three fields are what `str(item.get(...))`
    gives, the empty text when the item has none. -/
structure Notification where
  id : Str
  title : Str
  body : Str
  source : Value
  level : Value
  ts : Value

/-- A sampled value: a switch state or a measurement. -/
inductive SampleValue where
  | flag (b : Bool)
  | level (q : ℚ)
  deriving DecidableEq

/-- The number a sample compares as. -/
def SampleValue.rat : SampleValue → ℚ
  | .flag b => if b then 1 else 0
  | .level q => q

structure EventProcessor where
  store : PushStore
  epoch : Str
  startedAt : ℚ
  nativePrimed : Bool
  /-- Title and body of the notifications without a usable time during priming. -/
  unknownPrimed : Dict Str (Str × Str)
  samples : Dict Str (SampleValue × ℚ)

namespace EventProcessor

/-- `EventProcessor(store)`. -/
def init (store : PushStore) : EventProcessor := ⟨store, [], 0, false, Dict.empty, Dict.empty⟩

/-- `reset`. -/
def reset (p : EventProcessor) (epoch : Str) (now : ℚ) : EventProcessor where
  store := p.store.retireEpochs epoch
  epoch := epoch
  startedAt := now
  nativePrimed := false
  unknownPrimed := Dict.empty
  samples := Dict.empty

/-- `self.store.remember(identifier, now)`. -/
def remember (p : EventProcessor) (identifier : Str) (now : ℚ) : EventProcessor :=
  { p with store := (p.store.remember identifier now).2 }

end EventProcessor

/-! ## Native notifications -/

/-- The entries of a call that count. -/
def nativeLimit : Nat := 100

/-- `str(notification.get("id", ""))[:200]`. -/
def Notification.identifier (n : Notification) : Str := n.id.take 200

/-- `"victron"` or `"system"`. -/
def Notification.sourceName (n : Notification) : Str :=
  match n.source with
  | .str s => if s = Str.lit "victron" then s else Str.lit "system"
  | _ => Str.lit "system"

/-- `level in ("warning", "alarm", "error")`. -/
def Notification.urgent (n : Notification) : Bool :=
  match n.level with
  | .str s => s = Str.lit "warning" || s = Str.lit "alarm" || s = Str.lit "error"
  | _ => false

/-- The payload of a notification with a known time. -/
def Notification.payload (n : Notification) (sourceMs : Int) (now : ℚ) : Option EventPayload :=
  eventPayload (Str.lit "native") n.sourceName n.identifier sourceMs now n.title n.body

/-- The source time is neither before the connection, nor too old, nor in the future. -/
def inWindow (startedAt now : ℚ) (sourceMs : Int) : Bool :=
  let time : ℚ := sourceMs / 1000
  !(time < startedAt - futureSkewSeconds || maxAgeSeconds < now - time ||
    futureSkewSeconds < time - now)

/-- What a notification does: the processor it leaves, and an event unless it raises. -/
abbrev Detected := EventProcessor × Option (Option EventPayload)

/-- `_native_event`. -/
def nativeEvent (p : EventProcessor) (n : Notification) (now : ℚ) (prime : Bool) : Detected :=
  match timestampMs n.ts with
  | none =>
    if prime && !n.identifier.isEmpty then
      ({ p with unknownPrimed := p.unknownPrimed.set n.identifier (n.title, n.body) }, some none)
    else (p, some none)
  | some sourceMs =>
    match n.payload sourceMs now with
    | none => (p, none)
    | some event =>
      let initial := p.unknownPrimed.get? n.identifier
      let p := { p with unknownPrimed := p.unknownPrimed.erase n.identifier }
      let hydrated := initial.any fun occurrence => occurrence.1 = n.title
      if prime || hydrated then (p.remember event.eventKey now, some none)
      else if !n.urgent then (p, some none)
      else if !inWindow p.startedAt now sourceMs then (p.remember event.eventKey now, some none)
      else (p, some (some event))

/-- The loop of `native`. -/
def nativeEvents (now : ℚ) (prime : Bool) :
    List Notification → EventProcessor → EventProcessor × Option (List EventPayload)
  | [], p => (p, some [])
  | n :: ns, p =>
    match nativeEvent p n now prime with
    | (p, none) => (p, none)
    | (p, some event) =>
      let rest := nativeEvents now prime ns p
      (rest.1, rest.2.map fun events => event.toList ++ events)

/-- The notifications a baseline survives: those whose identifier is still present. -/
def keepPresent (d : Dict Str (Str × Str)) (present : List Str) : Dict Str (Str × Str) :=
  ⟨d.entries.filter fun e => e.1 ∈ present,
    d.nodup.sublist (List.filter_sublist.map Prod.fst)⟩

/-- Whether a call primes: asked to, or the first of its epoch. -/
def EventProcessor.primes (p : EventProcessor) (prime : Bool) : Bool := prime || !p.nativePrimed

/-- `native`. -/
def native (p : EventProcessor) (notifications : List Notification) (now : ℚ) (prime : Bool) :
    EventProcessor × Option (List EventPayload) :=
  let listed := notifications.take nativeLimit
  let start := { p with
    unknownPrimed := keepPresent p.unknownPrimed (listed.map Notification.identifier) }
  match nativeEvents now (p.primes prime) listed start with
  | (p, none) => (p, none)
  | (p, some events) => ({ p with nativePrimed := true }, some events)

/-! ## Samples -/

/-- `_sample_message`. -/
def sampleMessage (kind identifier : Str) (before value : SampleValue) : Option (Str × Str) :=
  if kind = Str.lit "lowBattery" then
    if 20 < before.rat ∧ value.rat ≤ 20 then
      some (Str.lit "Low battery",
        Str.lit "Battery state of charge is " ++ Float64.formatG (.fin value.rat) ++ Str.lit "%")
    else none
  else if value.rat = before.rat then none
  else if kind = Str.lit "ev" then
    some (Str.lit (if value.rat ≠ 0 then "EV charging started" else "EV charging stopped"),
      Str.lit "Observed from the selected EV charger")
  else if kind = Str.lit "water" then
    let label := if (Str.lit "pump:").isPrefixOf identifier then Str.lit "Water pump"
      else Str.lit "Water valve"
    some (label ++ Str.lit (if value.rat ≠ 0 then " on" else " off"),
      Str.lit "Observed from native device state")
  else none

/-- `f"{kind}:{identifier}"`. -/
def sampleKey (kind identifier : Str) : Str := kind ++ Str.lit ":" ++ identifier

/-- The baseline of a sample is fresh. -/
def baselineFresh (now since : ℚ) : Bool := 0 ≤ now - since ∧ now - since ≤ sampleFreshSeconds

/-- `sample`. -/
def sample (p : EventProcessor) (kind identifier : Str) (value : Option SampleValue) (now : ℚ)
    (prime : Bool) : Detected :=
  let key := sampleKey kind identifier
  match value with
  | none => ({ p with samples := p.samples.erase key }, some none)
  | some value =>
    let previous := p.samples.get? key
    let p := { p with samples := p.samples.set key (value, now) }
    match previous with
    | none => (p, some none)
    | some (before, since) =>
      if prime || !baselineFresh now since then (p, some none)
      else match sampleMessage kind identifier before value with
        | none => (p, some none)
        | some (title, body) =>
          (p, (eventPayload kind (Str.lit "victron") identifier (nowMs now) now title body).map some)

end InverterDashboard.Push
