import InverterDashboard.Cerbo.Projection
import InverterDashboard.Python.Encoding
import InverterDashboard.Python.DateTime

/-
  Push event payloads: what is notified, under which identity, and how it is cut to size.

  `schemaVersion` and `url` are constants of the payload and appear in its JSON text only. A text
  with a lone surrogate has no bytes: encoding it raises, and so does every function here that
  has to encode it. Clocks are exact rationals of seconds.
-/

namespace InverterDashboard.Push

open Python Cerbo

def maxAgeSeconds : ℚ := 300

def futureSkewSeconds : ℚ := 30

def sampleFreshSeconds : ℚ := 30

def mqttPrimingSeconds : ℚ := 10

/-- The bytes a payload may have. -/
def maxPayloadBytes : Nat := 3072

/-! ## Preferences -/

/-- `preferences`: a switch for each of the four categories, and no other key. -/
structure Preferences where
  native : Bool
  ev : Bool
  water : Bool
  lowBattery : Bool
  deriving DecidableEq

/-- `DEFAULT_PREFERENCES`. -/
def Preferences.default : Preferences := ⟨true, true, true, true⟩

/-- `preferences.get(kind) is True`. -/
def Preferences.allows (p : Preferences) (kind : Str) : Bool :=
  if kind = Str.lit "native" then p.native
  else if kind = Str.lit "ev" then p.ev
  else if kind = Str.lit "water" then p.water
  else if kind = Str.lit "lowBattery" then p.lowBattery
  else false

/-! ## Times -/

/-- `timestamp_ms`: the instant a text with an explicit UTC offset names, in milliseconds. -/
def timestampMs (value : Value) : Option Int :=
  match value with
  | .str s =>
    if 64 < s.length then none
    else match fromisoformat s with
      | some (some micros) =>
        match Float64.mul (Float64.ofRat (micros / 1000000)) (.fin 1000) with
        | .fin ms => if ms ≤ 0 then none else some (trunc ms)
        | _ => none
      | _ => none
  | _ => none

/-- `int(now * 1000)`, of the rounded product; no clock is so late that it overflows. -/
def nowMs (now : ℚ) : Int :=
  match Float64.mul (.fin now) (.fin 1000) with
  | .fin ms => trunc ms
  | _ => trunc (now * 1000)

/-! ## Payloads -/

structure EventPayload where
  eventKey : Str
  kind : Str
  source : Str
  sourceTimestampMs : Int
  observedAtMs : Int
  title : Str
  body : Str
  deriving DecidableEq

/-- `json.dumps(payload, separators=(",", ":"), ensure_ascii=False)`. -/
def EventPayload.json (p : EventPayload) : Str :=
  jsonObject
    [(Str.lit "schemaVersion", Str.lit "1"),
     (Str.lit "eventKey", jsonStr p.eventKey),
     (Str.lit "kind", jsonStr p.kind),
     (Str.lit "source", jsonStr p.source),
     (Str.lit "sourceTimestampMs", intStr p.sourceTimestampMs),
     (Str.lit "observedAtMs", intStr p.observedAtMs),
     (Str.lit "title", jsonStr p.title),
     (Str.lit "body", jsonStr p.body),
     (Str.lit "url", jsonStr (Str.lit "/"))]

/-- The length of the encoded payload; `none` when it cannot be encoded. -/
def EventPayload.size? (p : EventPayload) : Option Nat := p.json.utf8.map List.length

def EventPayload.withBody (p : EventPayload) (body : Str) : EventPayload := { p with body := body }

/-- The loop of `event_payload`: drops the last character of the body until the payload fits.
    The bound is the length of the body; an empty body that does not fit would loop forever. -/
def fitBody (p : EventPayload) : Nat → Option EventPayload
  | 0 => p.size?.bind fun size => if maxPayloadBytes < size then none else some p
  | n + 1 => p.size?.bind fun size =>
    if maxPayloadBytes < size then fitBody (p.withBody p.body.dropLast) n else some p

/-- The identity of an event: the digest of its kind, source, identifier and source time. -/
def eventKey (kind source identifier : Str) (sourceMs : Int) : Option Str :=
  (jsonArray [jsonStr kind, jsonStr source, jsonStr identifier, intStr sourceMs]).utf8.map sha256Hex

/-- `event_payload`; `none` when a text cannot be encoded. -/
def eventPayload (kind source identifier : Str) (sourceMs : Int) (now : ℚ) (title body : Str) :
    Option EventPayload :=
  (eventKey kind source identifier sourceMs).bind fun key =>
    let body := body.take 1000
    fitBody ⟨key, kind, source, sourceMs, nowMs now, title.take 120, body⟩ body.length

/-! ### What the loop keeps -/

/-- Everything but the body. -/
theorem fitBody_eq {n : Nat} {p q : EventPayload} (h : fitBody p n = some q) :
    q = p.withBody q.body ∧ q.body <+: p.body := by
  induction n generalizing p with
  | zero =>
    obtain ⟨size, -, hq⟩ := Option.bind_eq_some_iff.mp h
    split at hq
    · cases hq
    · obtain rfl := Option.some.inj hq
      exact ⟨rfl, List.prefix_refl _⟩
  | succ n ih =>
    obtain ⟨size, -, hq⟩ := Option.bind_eq_some_iff.mp h
    split at hq
    · obtain ⟨heq, hpre⟩ := ih hq
      exact ⟨heq, hpre.trans (List.dropLast_prefix _)⟩
    · obtain rfl := Option.some.inj hq
      exact ⟨rfl, List.prefix_refl _⟩

/-- A payload that leaves the loop fits. -/
theorem fitBody_size {n : Nat} {p q : EventPayload} (h : fitBody p n = some q) :
    ∃ size, q.size? = some size ∧ size ≤ maxPayloadBytes := by
  induction n generalizing p with
  | zero =>
    obtain ⟨size, hsize, hq⟩ := Option.bind_eq_some_iff.mp h
    split at hq
    · cases hq
    · next hle =>
      obtain rfl := Option.some.inj hq
      exact ⟨size, hsize, Nat.le_of_not_lt hle⟩
  | succ n ih =>
    obtain ⟨size, hsize, hq⟩ := Option.bind_eq_some_iff.mp h
    split at hq
    · exact ih hq
    · next hle =>
      obtain rfl := Option.some.inj hq
      exact ⟨size, hsize, Nat.le_of_not_lt hle⟩

/-- The fields of an event that do not depend on its texts. -/
theorem eventPayload_fields {kind source identifier : Str} {sourceMs : Int} {now : ℚ}
    {title body : Str} {p : EventPayload}
    (h : eventPayload kind source identifier sourceMs now title body = some p) :
    eventKey kind source identifier sourceMs = some p.eventKey ∧ p.kind = kind ∧
      p.source = source ∧ p.sourceTimestampMs = sourceMs ∧ p.observedAtMs = nowMs now := by
  obtain ⟨key, hkey, hfit⟩ := Option.bind_eq_some_iff.mp h
  obtain ⟨heq, -⟩ := fitBody_eq hfit
  rw [heq]
  exact ⟨hkey, rfl, rfl, rfl, rfl⟩

end InverterDashboard.Push
