import InverterDashboard.Json.Compact
import InverterDashboard.Push.Fitting
import InverterDashboard.Worker.Storage

/-
  What the notification worker accepts of a push message.

  The worker checks a message on its own, with other bounds than the startup check of the server.
  Proved (`normalizedEvent_persisted`): of the payloads that a start accepts, it takes exactly those
  with a title and with both times at most five minutes old and at most 30 seconds ahead, and what
  it shows are the texts and the source time that were sent.
-/

namespace InverterDashboard.Worker

open Python Json Push

/-- `MAX_EVENT_AGE_MS`. -/
def maxEventAgeMs : Int := 5 * 60 * 1000

/-- What is left of a message. -/
structure Event where
  key : Str
  title : Str
  body : Str
  timestamp : Int
  deriving DecidableEq

/-- `options.includes(value)`. -/
def oneOf (options : List Str) : Value → Bool
  | .str s => decide (s ∈ options)
  | _ => false

def kinds : List Str :=
  [Str.lit "native", Str.lit "ev", Str.lit "water", Str.lit "lowBattery", Str.lit "test"]

def sources : List Str := [Str.lit "victron", Str.lit "ha", Str.lit "system"]

def nativeSources : List Str := [Str.lit "victron", Str.lit "system"]

/-- What the loop over the timestamps lets through. -/
def Timely (now timestamp : Int) : Prop :=
  0 < timestamp ∧ timestamp ≤ now + 30000 ∧ now - timestamp ≤ maxEventAgeMs

instance (now timestamp : Int) : Decidable (Timely now timestamp) :=
  inferInstanceAs (Decidable (_ ∧ _ ∧ _))

def timestamp? (now : Int) (value : Value) : Option Int :=
  (safeInteger? value).filter fun timestamp => Timely now timestamp

/-- `normalizedEvent` at a reading of the clock. Only an object has a schema version. -/
def normalizedEvent (now : Int) (value : Value) : Option Event :=
  match value with
  | .dict members =>
    let field := fun (name : String) => Value.member (Str.lit name) members
    if safeInteger? (field "schemaVersion") ≠ some 1 ∨ oneOf [Str.lit "/"] (field "url") = false then
      none
    else if oneOf kinds (field "kind") = false then none
    else if oneOf sources (field "source") = false then none
    else if oneOf [Str.lit "native"] (field "kind") = true ∧
        oneOf nativeSources (field "source") = false then none
    else if isEventKey (field "eventKey") = false then none
    else
      match field "eventKey", field "title", field "body" with
      | .str key, .str title, .str body =>
        if title = [] ∨ 120 < title.length ∨ 1000 < body.length then none
        else
          match timestamp? now (field "sourceTimestampMs"), timestamp? now (field "observedAtMs") with
          | some timestamp, some _ => some ⟨key, title, body, timestamp⟩
          | _, _ => none
      | _, _, _ => none
  | _ => none

/-! ## Payloads on the wire -/

/-- What a start checks beside the size. -/
theorem wellFormed_of_valid {p : EventPayload} (h : validatePersistedPayload p.value = true) :
    p.WellFormed := by
  have hkeys : Controller.keysAre p.members payloadKeys = true := rfl
  unfold validatePersistedPayload EventPayload.value at h
  simp only [hkeys] at h
  unfold EventPayload.members validatePayloadFields at h
  simp only [Value.member, Dict.find, Str.lit_inj, Option.getD, reduceIte, String.reduceEq, isText,
    isPersistedTime, decide_true, Bool.true_and, Bool.and_eq_true, decide_eq_true_eq] at h
  exact ⟨h.2.1.1.1.2, h.1, h.2.1.1.2, h.2.1.2, h.2.1.1.1.1.1.2, h.2.1.1.1.1.2⟩

/-- The tree of a payload. -/
def payloadTree (p : EventPayload) : List (Str × Tree) :=
  [(Str.lit "schemaVersion", .number (.ofInt 1)),
    (Str.lit "eventKey", .str p.eventKey),
    (Str.lit "kind", .str p.kind),
    (Str.lit "source", .str p.source),
    (Str.lit "sourceTimestampMs", .number (.ofInt p.sourceTimestampMs)),
    (Str.lit "observedAtMs", .number (.ofInt p.observedAtMs)),
    (Str.lit "title", .str p.title),
    (Str.lit "body", .str p.body),
    (Str.lit "url", .str (Str.lit "/"))]

theorem compactMember_str (k s : Str) : CompactMember (k, jsonStr s) (k, .str s) :=
  ⟨rfl, .str s, rfl, rfl⟩

/-- The times a start accepts have at most 16 digits. -/
theorem compactMember_ms (k : Str) {ms : Int} (h : isPersistedMs ms = true) :
    CompactMember (k, intStr ms) (k, .number (.ofInt ms)) := by
  have hms := (isPersistedMs_iff ms).mp h
  have hlength : (natStr ms.natAbs).length ≤ 16 := by
    unfold natStr
    rw [List.length_map]
    exact (Nat.length_toDigits_le_iff (by decide) (by decide)).mpr (by omega)
  have hlimit : 16 ≤ intMaxStrDigits := by decide
  exact ⟨rfl, .int ms, rfl, if_pos (hlength.trans hlimit)⟩

theorem loads_json {p : EventPayload} (h : p.WellFormed) :
    loads 1 p.json = .ok (.obj (payloadTree p)) := by
  refine loads_compact (by decide) ?_ (by simp)
  refine .cons (@compactMember_ms _ 1 (by decide)) ?_
  refine .cons (compactMember_str _ _) (.cons (compactMember_str _ _) ?_)
  refine .cons (compactMember_str _ _) (.cons (compactMember_ms _ h.sourceMs) ?_)
  refine .cons (compactMember_ms _ h.observedMs) (.cons (compactMember_str _ _) ?_)
  exact .cons (compactMember_str _ _) (.cons (compactMember_str _ _) .nil)

theorem value_payloadTree (p : EventPayload) (hook : Tree.Hook) :
    (Tree.obj (payloadTree p)).value hook = p.value := by
  have hint : ∀ i : Int, (Tree.number (.ofInt i)).value hook = .int i := fun i =>
    value_leaf (v := .int i) rfl hook
  have hmembers : Tree.members hook (payloadTree p) = p.members := by
    unfold payloadTree EventPayload.members
    simp only [Tree.members, hint]
    rfl
  show Value.dict (Dict.ofList (Tree.members hook (payloadTree p))).entries = _
  have hnodup : (p.members.map Prod.fst).Nodup := by
    show payloadKeys.Nodup
    decide
  rw [hmembers, Dict.entries_ofList hnodup]
  rfl

/-! ## The two checks -/

/-- The times a start accepts are numbers of the browser. -/
theorem timestamp?_persisted {ms : Int} (h : isPersistedMs ms = true) (now : Int) :
    timestamp? now (.int ms) = if Timely now ms then some ms else none := by
  have hms := (isPersistedMs_iff ms).mp h
  have hmax : maxSafeInteger.natAbs = 2 ^ 53 - 1 := rfl
  unfold timestamp?
  rw [safeInteger?_int (by omega)]
  by_cases ht : Timely now ms <;> simp [ht, Option.filter]

/-- The kinds and the sources of the server are kinds and sources of the browser. -/
theorem known_of_sourcesOf {kind source : Str} (h : source ∈ sourcesOf kind) :
    kind ∈ kinds ∧ source ∈ sources ∧ (kind = Str.lit "native" → source ∈ nativeSources) := by
  have hvictron : ∀ k ∈ [Str.lit "ev", Str.lit "water", Str.lit "lowBattery"],
      k ∈ kinds ∧ k ≠ Str.lit "native" := by decide
  have hsource : ∀ s ∈ nativeSources, s ∈ sources := by decide
  unfold sourcesOf at h
  split at h
  · next hkind =>
    subst hkind
    exact ⟨by decide, hsource _ h, fun _ => h⟩
  split at h
  · next hkind =>
    obtain ⟨hmem, hnative⟩ := hvictron kind (by simpa using hkind)
    rw [List.mem_singleton] at h
    exact ⟨hmem, by rw [h]; decide, fun heq => absurd heq hnative⟩
  split at h
  · next hkind =>
    subst hkind
    rw [List.mem_singleton] at h
    exact ⟨by decide, by rw [h]; decide, fun _ => by rw [h]; decide⟩
  · cases h

theorem normalizedEvent_value {p : EventPayload} (h : p.WellFormed) (now : Int) :
    normalizedEvent now p.value =
      if p.title ≠ [] ∧ Timely now p.sourceTimestampMs ∧ Timely now p.observedAtMs then
        some ⟨p.eventKey, p.title, p.body, p.sourceTimestampMs⟩
      else none := by
  obtain ⟨hkind, hsource, hnative⟩ := known_of_sourcesOf h.source
  have hversion : safeInteger? (.int 1) = some 1 := safeInteger?_int (by decide)
  have hpair : ¬ (p.kind = Str.lit "native" ∧ p.source ∉ nativeSources) :=
    fun hboth => hboth.2 (hnative hboth.1)
  have htitle : ¬ 120 < p.title.length := not_lt.mpr h.title
  have hbody : ¬ 1000 < p.body.length := not_lt.mpr h.body
  unfold normalizedEvent EventPayload.value EventPayload.members
  simp only [Value.member, Dict.find, Str.lit_inj, Option.getD, reduceIte, String.reduceEq, oneOf,
    hversion, hkind, hsource, hpair, h.key, htitle, hbody, timestamp?_persisted h.sourceMs,
    timestamp?_persisted h.observedMs, decide_true, decide_eq_true_eq, decide_eq_false_iff_not,
    ne_eq, not_true_eq_false, or_self, or_false, Bool.true_eq_false, List.mem_singleton]
  by_cases hempty : p.title = []
  · simp [hempty]
  by_cases hfirst : Timely now p.sourceTimestampMs
  · by_cases hsecond : Timely now p.observedAtMs <;> simp [hempty, hfirst, hsecond]
  · simp [hempty, hfirst]

/-! ## Main result -/

/-- **What the server sends, the browser reads; and it takes the timely messages with a title.** -/
theorem normalizedEvent_persisted {p : EventPayload} (h : validatePersistedPayload p.value = true)
    (now : Int) :
    ∃ tree, loads 1 p.json = .ok tree ∧ tree.value Tree.rounded = p.value ∧
      normalizedEvent now (tree.value Tree.rounded) =
        if p.title ≠ [] ∧ Timely now p.sourceTimestampMs ∧ Timely now p.observedAtMs then
          some ⟨p.eventKey, p.title, p.body, p.sourceTimestampMs⟩
        else none := by
  have hwell := wellFormed_of_valid h
  refine ⟨.obj (payloadTree p), loads_json hwell, value_payloadTree p _, ?_⟩
  rw [value_payloadTree]
  exact normalizedEvent_value hwell now

/-- A charger that started, as it is sent. -/
def chargerStarted : EventPayload where
  eventKey := List.replicate 64 (hexDigit 10)
  kind := Str.lit "ev"
  source := Str.lit "victron"
  sourceTimestampMs := 1800000000000
  observedAtMs := 1800000000000
  title := Str.lit "EV charging started"
  body := Str.lit "Observed from the selected EV charger"

theorem normalizedEvent_persisted_charger :
    validatePersistedPayload chargerStarted.value = true ∧
      ∃ tree, loads 1 chargerStarted.json = .ok tree ∧ tree.value Tree.rounded = chargerStarted.value ∧
        normalizedEvent 1800000300000 (tree.value Tree.rounded) =
          some ⟨chargerStarted.eventKey, chargerStarted.title, chargerStarted.body, 1800000000000⟩ := by
  have hvalid : validatePersistedPayload chargerStarted.value = true := by decide +kernel
  obtain ⟨tree, htree, hvalue, hevent⟩ := normalizedEvent_persisted hvalid 1800000300000
  refine ⟨hvalid, tree, htree, hvalue, ?_⟩
  rw [hevent, if_pos (by decide)]
  rfl

end InverterDashboard.Worker
