import InverterDashboard.HomeAssistant.Actions
import InverterDashboard.HomeAssistant.Durations

/-
  `fetch_states_once`: one poll of Home Assistant, from its requests to the overlay.

  A poll asks for the configured entities one after the other. `Reply` is how a request ends; a
  body appears as what `response.json` makes of it, and the text of a URL is left out. A failed
  request fails the poll, so that an overlay that says it is connected rests on an answer to every
  request of its own poll (`fetch_whole`), and an action on a display goes back to the document of
  a configured entity (`posts_observed`).
-/

namespace InverterDashboard.HomeAssistant

open Python Cerbo

/-! ## Requests -/

/-- How a request ends. -/
inductive Reply where
  /-- `HTTPError` of the connection. -/
  | failed
  /-- A response; its document is `none` where `json` raises `ValueError`. -/
  | response (status : Int) (document : Option Value)

/-- What ends a poll early. -/
inductive PollError where
  /-- `HTTPError`, which `fetch_states_once` handles. -/
  | http
  /-- Anything else. -/
  | raised
  deriving DecidableEq

abbrev Document := List (Str × Value)

def stateKey : Str := Str.lit "state"
def attributesKey : Str := Str.lit "attributes"

/-- `_decode_state_document`: the document and its state. -/
def decodeStateDocument : Option Value → Except PollError (Document × Str)
  | some (.dict doc) =>
    match Value.member stateKey doc, Value.member attributesKey doc with
    | .str state, .none => .ok (doc, state)
    | .str state, .dict _ => .ok (doc, state)
    | _, _ => .error .http
  | _ => .error .http

/-- What `_get_state` and `_get_full_state` do with a reply; `none` is a missing entity. -/
def Reply.observed : Reply → Except PollError (Option (Document × Str))
  | .failed => .error .http
  | .response status document =>
    if status = 404 then .ok none
    -- `raise_for_status`
    else if status < 200 || 300 ≤ status then .error .http
    else if status ≠ 200 then .ok none
    else (decodeStateDocument document).map some

/-- Whether `quote` accepts an entity. -/
def quotable : Value → Bool
  | .str entity => entity.utf8.isSome
  | _ => false

/-- The requests for some entities in order. -/
def requestAll : List Value → (Nat → Reply) → Except PollError (List (Option (Document × Str)))
  | [], _ => .ok []
  | entity :: entities, replies =>
    if quotable entity then do
      let x ← (replies 0).observed
      let xs ← requestAll entities fun i => replies (i + 1)
      return x :: xs
    else .error .raised

/-! ## Fields -/

/-- `_home_switch_state`. -/
def homeSwitchState (raw : Option Str) : Value :=
  match raw with
  | none => .none
  | some s =>
    let value := s.strip.lower
    if value ∈ keyList ["on", "true", "yes", "1"] then .bool true
    else if value ∈ keyList ["off", "false", "no", "0"] then .bool false
    else .none

/-- `_boolish`. -/
def boolish (raw : Option Str) : Bool :=
  match raw with
  | none => false
  | some s => s.lower ∈ keyList ["on", "true", "yes", "1"]

/-- `_appliance_field_value`. -/
def applianceFieldValue (key : Str) (entity : Str) (raw : Option Str) : Value :=
  if domainOf entity ∈ keyList ["binary_sensor", "switch", "light", "input_boolean"] then
    .bool (boolish raw)
  else if domainOf entity = Str.lit "sensor" then
    if (Str.lit "_power").isSuffixOf key then
      match parseNumericState raw with
      | some value => .bool (decide (1 < value))
      | none => .bool (boolish raw)
    else .int (sensorStateToSeconds raw)
  else .bool false

/-- The value of a sensor. -/
def sensorFieldValue (raw : Option Str) : Value :=
  match parseNumericState raw with
  | some value => .float (.fin value)
  | none => .none

/-! ## Displays -/

section Displays

variable (u : Unicode)

/-- `doc.get("attributes") or {}` of a decoded document. -/
def attributes (doc : Document) : Document :=
  match Value.member attributesKey doc with
  | .dict fields => fields
  | _ => []

/-- `attrs.get(k, default)`. -/
def attributeOr (doc : Document) (k : String) (default : Value) : Value :=
  (Dict.find (Str.lit k) (attributes doc)).getD default

/-- `attrs.get(k) or default`. -/
def attributeElse (doc : Document) (k : String) (default : Value) : Value :=
  let v := attributeOr doc k .none
  if v.truthy then v else default

/-- `_friendly_name`. -/
def friendlyName (doc : Document) : Value :=
  .str ((attributeElse doc "friendly_name" (Value.member entityIdKey doc)).textOr u [])

/-- The entries that every display begins with. -/
def displayHead (doc : Document) : Document :=
  [(entityIdKey, Value.member entityIdKey doc), (Str.lit "name", friendlyName u doc)]

/-- `str(doc.get("state") or "")` of a decoded document. -/
def stateEntry (state : Str) : Str × Value := (stateKey, .str state)

/-- `_sensor_display`. -/
def sensorDisplay (doc : Document) (state : Str) : Document :=
  displayHead u doc ++
    [stateEntry state, (Str.lit "unit", attributeElse doc "unit_of_measurement" (.str []))]

/-- `_number_display`. -/
def numberDisplay (doc : Document) (state : Str) : Option Document :=
  (parseNumericState (some state)).map fun value =>
    displayHead u doc ++
      [(valueKey, .float (.fin value)),
       (Str.lit "min", attributeOr doc "min" (.int 0)),
       (Str.lit "max", attributeOr doc "max" (.int 100)),
       (Str.lit "step", attributeOr doc "step" (.int 1)),
       (Str.lit "unit", attributeElse doc "unit_of_measurement" (.str []))]

/-- The position that `_cover_display` shows. The floats of a document are finite. -/
def coverPosition (doc : Document) (state : Str) : Int :=
  match attributeOr doc "current_position" .none with
  | .int i => i
  | .bool b => if b then 1 else 0
  | .float x => x.toInt?.getD 0
  | _ => if state = Str.lit "open" then 100 else 0

/-- `_cover_display`. -/
def coverDisplay (doc : Document) (state : Str) : Document :=
  displayHead u doc ++ [(positionKey, .int (coverPosition doc state))]

/-- `_weather_display`. -/
def weatherDisplay (doc : Document) (state : Str) : Document :=
  displayHead u doc ++
    [stateEntry state,
     (Str.lit "temperature", attributeOr doc "temperature" .none),
     (Str.lit "unit", attributeElse doc "temperature_unit" (.str [])),
     (Str.lit "forecast", attributeElse doc "forecast" (.list []))]

/-- `doc.get("state") not in (None, "unknown", "unavailable")`. -/
def isAvailable (state : Str) : Bool := state ∉ keyList ["unknown", "unavailable"]

/-- A section of the displays: its name and what it shows of a document. -/
structure Section where
  name : Str
  display : Document → Str → Option Document

def sensorSection : Section where
  name := Str.lit "sensors"
  display doc state := some (sensorDisplay u doc state)

def numberSection : Section where
  name := HaAction.numberSet.displaySection
  display doc state := numberDisplay u doc state

def coverSection : Section where
  name := HaAction.setCoverPosition.displaySection
  display doc state := if isAvailable state then some (coverDisplay u doc state) else none

def mediaPlayerSection : Section where
  name := HaAction.mediaPlayer.displaySection
  display doc state :=
    if isAvailable state then some (displayHead u doc ++ [stateEntry state]) else none

def sceneSection : Section where
  name := HaAction.sceneActivate.displaySection
  display doc state := if state ≠ Str.lit "unavailable" then some (displayHead u doc) else none

/-- The sections in the order of `build_filtered_displays`. -/
def sections : List Section :=
  [sensorSection u, numberSection u, coverSection u, mediaPlayerSection u, sceneSection u]

end Displays

/-! ## Polls -/

/-- The configuration with the weather entity of `HA_FILTERED_ENTITIES`. -/
structure PollConfig extends Config where
  weather : Option Value

/-- `cfg.get(key) or []`. -/
def Config.listed (c : Config) (displaySection : Str) : List Value :=
  (c.filteredEntities.get? displaySection).getD []

/-- `if _filtered_entities`. -/
def PollConfig.hasFiltered (c : PollConfig) : Bool :=
  !c.filteredEntities.isEmpty || c.weather.isSome

/-- `e not in wanted`, and then it is. -/
def addWanted (wanted : List Value) (e : Value) : List Value :=
  if wanted.any fun w => w.eqv e then wanted else wanted ++ [e]

/-- The entities that `_fetch_filtered` asks for. -/
def PollConfig.wanted (c : PollConfig) : List Value :=
  let listed := (keyList ["sensors", "numbers", "covers", "media_players", "scenes"]).flatMap c.listed
  (listed ++ (c.weather.filter Value.truthy).toList).foldl addWanted []

/-- `docs`: the entities with their documents. -/
abbrev Docs := List (Value × Option (Document × Str))

/-- `docs.get(eid)`; a document without an `entity_id` is none. -/
def Docs.get (docs : Docs) (eid : Value) : Option (Document × Str) :=
  ((docs.find? fun d => d.1.eqv eid).bind Prod.snd).filter fun d =>
    (Dict.find entityIdKey d.1).isSome

/-- The displays of a section. -/
def Section.displays (s : Section) (docs : Docs) (c : Config) : List Value :=
  (c.listed s.name).filterMap fun eid =>
    (docs.get eid).bind fun d => (s.display d.1 d.2).map Value.dict

variable (u : Unicode)

/-- `build_filtered_displays`. -/
def buildFilteredDisplays (docs : Docs) (c : PollConfig) : Document :=
  (sections u).map (fun s => (s.name, .list (s.displays docs c.toConfig))) ++
    [(Str.lit "weather",
      match (c.weather.filter Value.truthy).bind docs.get with
      | some d => .dict (weatherDisplay u d.1 d.2)
      | none => .none)]

def shift (replies : Nat → Reply) (n : Nat) : Nat → Reply := fun i => replies (i + n)

/-- `_fetch_filtered`. -/
def fetchFiltered (c : PollConfig) (replies : Nat → Reply) : Except PollError Value :=
  (requestAll c.wanted replies).map fun xs => .dict (buildFilteredDisplays u (c.wanted.zip xs) c)

/-- The states of the fields that some entities fill. -/
def fetchFields (entities : Mapping) (replies : Nat → Reply) :
    Except PollError (List ((Str × Value) × Option Str)) :=
  (requestAll ((haFields entities).map Prod.snd) replies).map fun xs =>
    (haFields entities).zip (xs.map (Option.map Prod.snd))

/-- `out[key] = ...` for each field. -/
def setFields (out : Object) (fields : List ((Str × Value) × Option Str))
    (value : Str × Value → Option Str → Value) : Object :=
  fields.foldl (fun out f => out.set f.1.1 (value f.1 f.2)) out

def entityText : Value → Str
  | .str s => s
  | _ => []

/-- The overlay of a poll without its displays. -/
def overlayOf (booleans switches appliances sensors : List ((Str × Value) × Option Str)) : Object :=
  let out : Object := Dict.empty.set booleansKey
    (.dict (setFields Dict.empty booleans fun _ st => homeSwitchState st).entries)
  let out := setFields out switches fun _ st => homeSwitchState st
  let out := setFields out appliances fun e st => applianceFieldValue e.1 (entityText e.2) st
  let out := out.set connectedKey (.bool true)
  setFields out sensors fun _ st => sensorFieldValue st

/-- The body of `fetch_states_once`. -/
def fetchStates (c : PollConfig) (replies : Nat → Reply) : Except PollError Object := do
  let booleans ← fetchFields c.booleanEntities replies
  let replies := shift replies (haFields c.booleanEntities).length
  let switches ← fetchFields c.switchEntities replies
  let replies := shift replies (haFields c.switchEntities).length
  let appliances ← fetchFields c.applianceEntities replies
  let replies := shift replies (haFields c.applianceEntities).length
  let sensors ← fetchFields c.sensorEntities replies
  let replies := shift replies (haFields c.sensorEntities).length
  let out := overlayOf booleans switches appliances sensors
  if c.hasFiltered then
    return out.set filteredKey (← fetchFiltered u c replies)
  else return out

/-- The overlay of a poll that failed. -/
def disconnected : Object := Dict.ofList [(booleansKey, .dict []), (connectedKey, .bool false)]

/-- `fetch_states_once`; `none` when an exception escapes. -/
def fetchStatesOnce (c : PollConfig) (replies : Nat → Reply) : Option Object :=
  if c.isDirectMode then
    match fetchStates u c replies with
    | .ok out => some out
    | .error .http => some disconnected
    | .error .raised => none
  else some Dict.empty

/-! ## Requests of a poll -/

/-- The entities that a poll asks for, in order. -/
def PollConfig.requests (c : PollConfig) : List Value :=
  (haFields c.booleanEntities).map Prod.snd ++ ((haFields c.switchEntities).map Prod.snd ++
    ((haFields c.applianceEntities).map Prod.snd ++ ((haFields c.sensorEntities).map Prod.snd ++
      if c.hasFiltered then c.wanted else [])))

/-- Every request for these entities was made and answered. -/
def Answered (entities : List Value) (replies : Nat → Reply) : Prop :=
  ∀ i e, entities[i]? = some e → quotable e = true ∧ ∃ x, (replies i).observed = .ok x

theorem Answered.append {es fs : List Value} {replies : Nat → Reply} (h : Answered es replies)
    (h' : Answered fs (shift replies es.length)) : Answered (es ++ fs) replies := by
  intro i e he
  by_cases hi : i < es.length
  · rw [List.getElem?_append_left hi] at he
    exact h i e he
  · have hle : es.length ≤ i := Nat.le_of_not_lt hi
    rw [List.getElem?_append_right hle] at he
    obtain ⟨hquotable, x, hx⟩ := h' _ e he
    refine ⟨hquotable, x, ?_⟩
    unfold shift at hx
    rwa [Nat.sub_add_cancel hle] at hx

theorem Answered.of_append {es fs : List Value} {replies : Nat → Reply}
    (h : Answered (es ++ fs) replies) :
    Answered es replies ∧ Answered fs (shift replies es.length) := by
  refine ⟨fun i e he => h i e ?_, fun i e he => h (i + es.length) e ?_⟩
  · rw [List.getElem?_append_left (List.getElem?_eq_some_iff.mp he).1]
    exact he
  · rw [List.getElem?_append_right (Nat.le_add_left _ _), Nat.add_sub_cancel]
    exact he

theorem bind_ok {α β : Type} {x : Except PollError α} {f : α → Except PollError β} {b : β}
    (h : x >>= f = .ok b) : ∃ a, x = .ok a ∧ f a = .ok b := by
  cases x with
  | error e => cases h
  | ok a => exact ⟨a, rfl, h⟩

theorem map_ok {α β : Type} {x : Except PollError α} {f : α → β} {b : β}
    (h : x.map f = .ok b) : ∃ a, x = .ok a ∧ f a = b := by
  cases x with
  | error e => cases h
  | ok a => exact ⟨a, rfl, Except.ok.inj h⟩

/-- What the requests for some entities were answered. -/
theorem requestAll_ok {entities : List Value} {replies : Nat → Reply}
    {xs : List (Option (Document × Str))} (h : requestAll entities replies = .ok xs) :
    xs.length = entities.length ∧ ∀ i e, entities[i]? = some e →
      quotable e = true ∧ ∃ x, xs[i]? = some x ∧ (replies i).observed = .ok x := by
  induction entities generalizing replies xs with
  | nil =>
    obtain rfl := Except.ok.inj h
    exact ⟨rfl, fun i e he => by simp at he⟩
  | cons entity entities ih =>
    unfold requestAll at h
    split at h
    · next hquotable =>
      obtain ⟨x, hfirst, h⟩ := bind_ok h
      obtain ⟨rest, hrest, h⟩ := bind_ok h
      obtain rfl : x :: rest = xs := Except.ok.inj h
      obtain ⟨hlength, hall⟩ := ih hrest
      refine ⟨by simp [hlength], ?_⟩
      intro i e he
      cases i with
      | zero =>
        obtain rfl := Option.some.inj he
        exact ⟨hquotable, x, rfl, hfirst⟩
      | succ i => exact hall i e he
    · cases h

theorem answered_of_requestAll {entities : List Value} {replies : Nat → Reply}
    {xs : List (Option (Document × Str))} (h : requestAll entities replies = .ok xs) :
    Answered entities replies := by
  intro i e he
  obtain ⟨hquotable, x, -, hx⟩ := (requestAll_ok h).2 i e he
  exact ⟨hquotable, x, hx⟩

theorem requestAll_of_answered {entities : List Value} {replies : Nat → Reply}
    (h : Answered entities replies) : ∃ xs, requestAll entities replies = .ok xs := by
  induction entities generalizing replies with
  | nil => exact ⟨[], rfl⟩
  | cons entity entities ih =>
    obtain ⟨hquotable, x, hx⟩ := h 0 entity rfl
    obtain ⟨rest, hrest⟩ := ih fun i e he => h (i + 1) e he
    refine ⟨x :: rest, ?_⟩
    unfold requestAll
    rw [if_pos hquotable, hx]
    show (requestAll entities (fun i => replies (i + 1)) >>= fun xs => .ok (x :: xs)) = _
    rw [hrest]
    rfl

theorem fetchFields_of_answered {entities : Mapping} {replies : Nat → Reply}
    (h : Answered ((haFields entities).map Prod.snd) replies) :
    ∃ fields, fetchFields entities replies = .ok fields := by
  obtain ⟨xs, hxs⟩ := requestAll_of_answered h
  unfold fetchFields
  rw [hxs]
  exact ⟨_, rfl⟩

/-- The fields of a mapping, each with the state of its own reply. -/
theorem fetchFields_ok {entities : Mapping} {replies : Nat → Reply}
    {fields : List ((Str × Value) × Option Str)} (h : fetchFields entities replies = .ok fields) :
    Answered ((haFields entities).map Prod.snd) replies ∧
      fields.map Prod.fst = haFields entities ∧
      ∀ (i : Nat) e st, fields[i]? = some (e, st) →
        ∃ x, (replies i).observed = .ok x ∧ st = x.map Prod.snd := by
  obtain ⟨xs, hxs, rfl⟩ := map_ok h
  obtain ⟨hlength, hall⟩ := requestAll_ok hxs
  rw [List.length_map] at hlength
  refine ⟨answered_of_requestAll hxs, ?_, ?_⟩
  · rw [List.map_fst_zip]
    rw [List.length_map, hlength]
  · intro i e st hi
    rw [List.getElem?_zip_eq_some, List.getElem?_map] at hi
    obtain ⟨he, hst⟩ := hi
    obtain ⟨x, hx, rfl⟩ := Option.map_eq_some_iff.mp hst
    obtain ⟨-, y, hy, hobserved⟩ := hall i e.2 (by rw [List.getElem?_map, he]; rfl)
    obtain rfl := Option.some.inj (hx.symm.trans hy)
    exact ⟨x, hobserved, rfl⟩

/-- The replies to the requests after those for the booleans, switches and appliances. -/
def PollConfig.sensorReplies (c : PollConfig) (replies : Nat → Reply) : Nat → Reply :=
  shift (shift (shift replies (haFields c.booleanEntities).length)
    (haFields c.switchEntities).length) (haFields c.applianceEntities).length

/-- The replies to the requests after those for the fields. -/
def PollConfig.displayReplies (c : PollConfig) (replies : Nat → Reply) : Nat → Reply :=
  shift (c.sensorReplies replies) (haFields c.sensorEntities).length

section Polls

variable {u} {c : PollConfig} {replies : Nat → Reply} {out : Object}

/-- A poll that ends has an answer to each of its requests. -/
theorem fetchStates_ok (h : fetchStates u c replies = .ok out) :
    Answered c.requests replies ∧ ∃ booleans switches appliances sensors,
      fetchFields c.booleanEntities replies = .ok booleans ∧
      switches.map Prod.fst = haFields c.switchEntities ∧
      appliances.map Prod.fst = haFields c.applianceEntities ∧
      fetchFields c.sensorEntities (c.sensorReplies replies) = .ok sensors ∧
      (c.hasFiltered = true → ∃ xs, requestAll c.wanted (c.displayReplies replies) = .ok xs ∧
        out = (overlayOf booleans switches appliances sensors).set filteredKey
          (.dict (buildFilteredDisplays u (c.wanted.zip xs) c))) ∧
      (c.hasFiltered = false → out = overlayOf booleans switches appliances sensors) := by
  obtain ⟨booleans, hbooleans, h⟩ := bind_ok h
  obtain ⟨switches, hswitches, h⟩ := bind_ok h
  obtain ⟨appliances, happliances, h⟩ := bind_ok h
  obtain ⟨sensors, hsensors, h⟩ := bind_ok h
  have hfields : ∀ tail, Answered tail (c.displayReplies replies) →
      Answered ((haFields c.booleanEntities).map Prod.snd ++
        ((haFields c.switchEntities).map Prod.snd ++
          ((haFields c.applianceEntities).map Prod.snd ++
            ((haFields c.sensorEntities).map Prod.snd ++ tail)))) replies := by
    intro tail htail
    refine (fetchFields_ok hbooleans).1.append ?_
    rw [List.length_map]
    refine (fetchFields_ok hswitches).1.append ?_
    rw [List.length_map]
    refine (fetchFields_ok happliances).1.append ?_
    rw [List.length_map]
    refine (fetchFields_ok hsensors).1.append ?_
    rw [List.length_map]
    exact htail
  refine ⟨?_, booleans, switches, appliances, sensors, hbooleans, (fetchFields_ok hswitches).2.1,
    (fetchFields_ok happliances).2.1, hsensors, ?_⟩
  · unfold PollConfig.requests
    refine hfields _ ?_
    split
    · next hfiltered =>
      rw [if_pos hfiltered] at h
      obtain ⟨displays, hdisplays, -⟩ := bind_ok h
      obtain ⟨xs, hxs, -⟩ := map_ok hdisplays
      exact answered_of_requestAll hxs
    · exact fun i e he => by simp at he
  · refine ⟨fun hfiltered => ?_, fun hnone => ?_⟩
    · rw [if_pos hfiltered] at h
      obtain ⟨displays, hdisplays, h⟩ := bind_ok h
      obtain ⟨xs, hxs, rfl⟩ := map_ok hdisplays
      exact ⟨xs, hxs, (Except.ok.inj h).symm⟩
    · rw [if_neg (by simp [hnone])] at h
      exact (Except.ok.inj h).symm

/-- An overlay that is connected comes from a poll that ended. -/
theorem fetchStates_of_connected {data : Object} (h : fetchStatesOnce u c replies = some data)
    (hconnected : data.getD connectedKey = .bool true) : fetchStates u c replies = .ok data := by
  unfold fetchStatesOnce at h
  split at h
  · split at h
    · next out hout =>
      rw [hout, Option.some.inj h]
    · obtain rfl := Option.some.inj h
      have hfalse : Object.getD disconnected connectedKey = .bool false := by rfl
      rw [hfalse] at hconnected
      cases hconnected
    · cases h
  · obtain rfl := Option.some.inj h
    cases hconnected

/-! ## What an overlay shows -/

theorem get?_setFields (out : Object) (fields : List ((Str × Value) × Option Str))
    (value : Str × Value → Option Str → Value) (k : Str) :
    (setFields out fields value).get? k =
      ((fields.reverse.find? fun f => f.1.1 = k).map fun f => value f.1 f.2).or (out.get? k) := by
  induction fields using List.reverseRecOn with
  | nil => rfl
  | append_singleton fields f ih =>
    unfold setFields at ih ⊢
    rw [List.foldl_append, List.foldl_cons, List.foldl_nil, Dict.get?_set, ih, List.reverse_append,
      List.reverse_singleton, List.singleton_append, List.find?_cons]
    by_cases hk : f.1.1 = k
    · simp [hk]
    · simp [hk, Ne.symm hk]

/-- A key that no field has. -/
theorem getD_setFields_ne (out : Object) {fields : List ((Str × Value) × Option Str)}
    (value : Str × Value → Option Str → Value) {k : Str}
    (h : ∀ e ∈ fields.map Prod.fst, e.1 ≠ k) :
    (setFields out fields value).getD k = out.getD k := by
  unfold Object.getD
  rw [get?_setFields, List.find?_eq_none.mpr]
  · rfl
  · intro f hf
    have hne := h f.1 (List.mem_map_of_mem (List.mem_reverse.mp hf))
    simpa using hne

/-- The key of a field. -/
theorem getD_setFields (out : Object) {fields : List ((Str × Value) × Option Str)}
    (value : Str × Value → Option Str → Value) {entities : Mapping}
    (hfields : fields.map Prod.fst = haFields entities) {e : Str × Value} {st : Option Str}
    (hmem : (e, st) ∈ fields) : (setFields out fields value).getD e.1 = value e st := by
  have hnodup : (fields.map fun f => f.1.1).Nodup := by
    have hkeys : (fields.map fun f => f.1.1) = (haFields entities).map Prod.fst := by
      rw [← hfields, List.map_map]
      rfl
    rw [hkeys]
    exact entities.nodup.sublist (List.filter_sublist.map _)
  have hfind : fields.reverse.find? (fun f => f.1.1 = e.1) = some (e, st) := by
    cases hfound : fields.reverse.find? (fun f => f.1.1 = e.1) with
    | none => exact absurd (decide_eq_true rfl) (List.find?_eq_none.mp hfound _
        (List.mem_reverse.mpr hmem))
    | some f =>
      have hf := List.mem_reverse.mp (List.mem_of_find?_eq_some hfound)
      have hkey := List.find?_some hfound
      rw [List.inj_on_of_nodup_map hnodup hf hmem (of_decide_eq_true hkey)]
  unfold Object.getD
  rw [get?_setFields, hfind]
  rfl

/-- What an overlay shows of a poll. -/
structure Shows (c : PollConfig) (replies : Nat → Reply) (data : Object) : Prop where
  booleans : ∃ shown, data.getD booleansKey = .dict shown ∧
    ∀ (i : Nat) e, (haFields c.booleanEntities)[i]? = some e → ∃ x, (replies i).observed = .ok x ∧
      Value.member e.1 shown = homeSwitchState (x.map Prod.snd)
  sensors : ∀ (i : Nat) e, (haFields c.sensorEntities)[i]? = some e → e.1 ≠ filteredKey →
    ∃ x, (c.sensorReplies replies i).observed = .ok x ∧
      data.getD e.1 = sensorFieldValue (x.map Prod.snd)

/-- A poll ends when all its requests were answered. -/
theorem fetchStates_of_answered (h : Answered c.requests replies) :
    ∃ out, fetchStates u c replies = .ok out := by
  obtain ⟨hb, h⟩ := h.of_append
  obtain ⟨hs, h⟩ := h.of_append
  obtain ⟨ha, h⟩ := h.of_append
  obtain ⟨hn, h⟩ := h.of_append
  rw [List.length_map] at hs ha hn h
  rw [List.length_map] at ha hn h
  rw [List.length_map] at hn h
  rw [List.length_map] at h
  obtain ⟨booleans, hbooleans⟩ := fetchFields_of_answered hb
  obtain ⟨switches, hswitches⟩ := fetchFields_of_answered hs
  obtain ⟨appliances, happliances⟩ := fetchFields_of_answered ha
  obtain ⟨sensors, hsensors⟩ := fetchFields_of_answered hn
  unfold fetchStates
  rw [hbooleans]
  dsimp only [Bind.bind, Except.bind]
  rw [hswitches]
  dsimp only
  rw [happliances]
  dsimp only
  rw [hsensors]
  dsimp only
  by_cases hfiltered : c.hasFiltered = true
  · rw [if_pos hfiltered] at h ⊢
    obtain ⟨xs, hxs⟩ := requestAll_of_answered h
    unfold fetchFiltered
    rw [hxs]
    exact ⟨_, rfl⟩
  · rw [if_neg hfiltered]
    exact ⟨_, rfl⟩

theorem getD_set (d : Object) (k x : Str) (v : Value) :
    Object.getD (d.set k v) x = if x = k then v else d.getD x := by
  unfold Object.getD
  rw [Dict.get?_set]
  split <;> rfl

/-- What a key of the fields has in the overlay. -/
theorem getD_fetched {data : Object} (h : fetchStates u c replies = .ok data) {k : Str}
    (hk : k ≠ filteredKey) : ∃ booleans switches appliances sensors,
      fetchFields c.booleanEntities replies = .ok booleans ∧
      switches.map Prod.fst = haFields c.switchEntities ∧
      appliances.map Prod.fst = haFields c.applianceEntities ∧
      fetchFields c.sensorEntities (c.sensorReplies replies) = .ok sensors ∧
      data.getD k = (overlayOf booleans switches appliances sensors).getD k := by
  obtain ⟨-, booleans, switches, appliances, sensors, hbooleans, hswitches, happliances, hsensors,
    hfiltered, hplain⟩ := fetchStates_ok h
  refine ⟨booleans, switches, appliances, sensors, hbooleans, hswitches, happliances, hsensors, ?_⟩
  cases hcase : c.hasFiltered with
  | true =>
    obtain ⟨xs, -, rfl⟩ := hfiltered hcase
    rw [getD_set, if_neg hk]
  | false => rw [hplain hcase]

theorem field_of_getElem? {fields : List ((Str × Value) × Option Str)} {entities : Mapping}
    (h : fields.map Prod.fst = haFields entities) {i : Nat} {e : Str × Value}
    (he : (haFields entities)[i]? = some e) : ∃ st, fields[i]? = some (e, st) := by
  rw [← h, List.getElem?_map] at he
  obtain ⟨⟨e', st⟩, hi, rfl⟩ := Option.map_eq_some_iff.mp he
  exact ⟨st, hi⟩

theorem shows_of_fetched {data : Object} (h : fetchStates u c replies = .ok data) :
    Shows c replies data := by
  refine ⟨?_, ?_⟩
  · obtain ⟨booleans, switches, appliances, sensors, hbooleans, hswitches, happliances, hsensors,
      hget⟩ := getD_fetched h (k := booleansKey) (by decide)
    have hother : ∀ {entities : Mapping} {fields : List ((Str × Value) × Option Str)},
        fields.map Prod.fst = haFields entities → ∀ e ∈ fields.map Prod.fst, e.1 ≠ booleansKey := by
      intro entities fields hfields e he hkey
      exact owned_of_haFields (hfields ▸ he) (hkey ▸ booleansKey_owned)
    obtain ⟨-, hkeys, hstates⟩ := fetchFields_ok hbooleans
    refine ⟨(setFields Dict.empty booleans fun _ st => homeSwitchState st).entries, hget.trans ?_, ?_⟩
    · unfold overlayOf
      dsimp only
      rw [getD_setFields_ne _ _ (hother (fetchFields_ok hsensors).2.1), getD_set, if_neg (by decide),
        getD_setFields_ne _ _ (hother happliances), getD_setFields_ne _ _ (hother hswitches), getD_set,
        if_pos rfl]
    · intro i e he
      obtain ⟨st, hi⟩ := field_of_getElem? hkeys he
      obtain ⟨x, hx, rfl⟩ := hstates i e st hi
      exact ⟨x, hx, getD_setFields Dict.empty _ hkeys (List.mem_of_getElem? hi)⟩
  · intro i e he hne
    obtain ⟨booleans, switches, appliances, sensors, -, -, -, hsensors, hget⟩ := getD_fetched h hne
    obtain ⟨-, hkeys, hstates⟩ := fetchFields_ok hsensors
    obtain ⟨st, hi⟩ := field_of_getElem? hkeys he
    obtain ⟨x, hx, rfl⟩ := hstates i e st hi
    refine ⟨x, hx, hget.trans ?_⟩
    exact getD_setFields _ (fun _ st => sensorFieldValue st) hkeys (List.mem_of_getElem? hi)

/-- **A poll is whole or void.** An overlay that is connected rests on an answer to each request
    of its poll, and shows these answers. Any other is the disconnected one, and some request of
    its poll was not answered, unless the operator maps a sensor to the name of the connection. -/
theorem fetch_whole {data : Object} (hdirect : c.isDirectMode = true)
    (h : fetchStatesOnce u c replies = some data) :
    (data.getD connectedKey = .bool true → Answered c.requests replies ∧ Shows c replies data) ∧
      ((∀ e ∈ haFields c.sensorEntities, e.1 ≠ connectedKey) → data.getD connectedKey ≠ .bool true →
        data = disconnected ∧ ¬ Answered c.requests replies) := by
  refine ⟨fun hconnected => ?_, fun hsensor hnot => ?_⟩
  · have hfetched := fetchStates_of_connected h hconnected
    exact ⟨(fetchStates_ok hfetched).1, shows_of_fetched hfetched⟩
  · unfold fetchStatesOnce at h
    rw [if_pos hdirect] at h
    split at h
    · next out hout =>
      obtain rfl := Option.some.inj h
      obtain ⟨booleans, switches, appliances, sensors, -, -, -, hsensors, hget⟩ :=
        getD_fetched hout (k := connectedKey) (by decide)
      refine absurd (hget.trans ?_) hnot
      unfold overlayOf
      dsimp only
      rw [getD_setFields_ne, getD_set, if_pos rfl]
      rw [(fetchFields_ok hsensors).2.1]
      exact hsensor
    · next herror =>
      refine ⟨(Option.some.inj h).symm, fun hanswered => ?_⟩
      obtain ⟨out, hout⟩ := fetchStates_of_answered (u := u) hanswered
      rw [hout] at herror
      cases herror
    · cases h

/-! ## Where a display comes from -/

/-- The answer to a request of a poll: a state document of one of its entities. -/
def Found (c : PollConfig) (replies : Nat → Reply) (eid : Value) (doc : Document) (state : Str) :
    Prop :=
  ∃ i, c.requests[i]? = some eid ∧ (replies i).observed = .ok (some (doc, state))

theorem str_of_quotable {v : Value} (h : quotable v = true) : ∃ t, v = .str t := by
  cases v with
  | str t => exact ⟨t, rfl⟩
  | _ => cases h

theorem eq_of_str_eqv {v : Value} {t : Str} (h : (Value.str t).eqv v = true) : v = .str t := by
  cases v with
  | str s => rw [of_decide_eq_true h]
  | bool b => simp [Value.eqv] at h
  | int i => simp [Value.eqv] at h
  | float x => simp [Value.eqv] at h
  | _ => cases h

/-- The requests for the displays are the last ones. -/
theorem requests_wanted (hfiltered : c.hasFiltered = true) {i : Nat} {e : Value}
    (h : c.wanted[i]? = some e) (r : Reply) (hr : c.displayReplies replies i = r) :
    ∃ j, c.requests[j]? = some e ∧ replies j = r := by
  have hskip : ∀ (es fs : List Value) (n : Nat), n = es.length → ∀ (rs : Nat → Reply) i,
      fs[i]? = some e → shift rs n i = r → ∃ j, (es ++ fs)[j]? = some e ∧ rs j = r := by
    rintro es fs n rfl rs i hi hr
    refine ⟨i + es.length, ?_, hr⟩
    rw [List.getElem?_append_right (Nat.le_add_left _ _), Nat.add_sub_cancel]
    exact hi
  unfold PollConfig.requests
  rw [if_pos hfiltered]
  unfold PollConfig.displayReplies at hr
  obtain ⟨i₁, h₁, hr₁⟩ := hskip ((haFields c.sensorEntities).map Prod.snd) _ _
    (by rw [List.length_map]) _ i h hr
  obtain ⟨i₂, h₂, hr₂⟩ := hskip ((haFields c.applianceEntities).map Prod.snd) _ _
    (by rw [List.length_map]) _ i₁ h₁ hr₁
  obtain ⟨i₃, h₃, hr₃⟩ := hskip ((haFields c.switchEntities).map Prod.snd) _ _
    (by rw [List.length_map]) _ i₂ h₂ hr₂
  exact hskip ((haFields c.booleanEntities).map Prod.snd) _ _ (by rw [List.length_map]) _ i₃ h₃ hr₃

theorem docs_get {xs : List (Option (Document × Str))}
    (hxs : requestAll c.wanted (c.displayReplies replies) = .ok xs)
    (hfiltered : c.hasFiltered = true) {eid : Value} {doc : Document} {state : Str}
    (h : Docs.get (c.wanted.zip xs) eid = some (doc, state)) : Found c replies eid doc state := by
  obtain ⟨hfound, -⟩ := Option.filter_eq_some_iff.mp h
  obtain ⟨⟨w, x⟩, hfind, hx⟩ := Option.bind_eq_some_iff.mp hfound
  obtain rfl : x = some (doc, state) := hx
  obtain ⟨i, hi⟩ := List.mem_iff_getElem?.mp (List.mem_of_find?_eq_some hfind)
  rw [List.getElem?_zip_eq_some] at hi
  obtain ⟨hquotable, y, hy, hobserved⟩ := (requestAll_ok hxs).2 i w hi.1
  obtain rfl := Option.some.inj (hi.2.symm.trans hy)
  have heqv := List.find?_some hfind
  dsimp only at heqv hobserved
  obtain ⟨t, rfl⟩ := str_of_quotable hquotable
  obtain rfl := eq_of_str_eqv heqv
  obtain ⟨j, hj, hreply⟩ := requests_wanted hfiltered hi.1 (c.displayReplies replies i) rfl
  exact ⟨j, hj, hreply ▸ hobserved⟩

/-- The section of the displays that an action is about. -/
def HaAction.sectionOf (u : Unicode) : HaAction → Section
  | .numberSet => numberSection u
  | .setCoverPosition => coverSection u
  | .mediaPlayer => mediaPlayerSection u
  | .sceneActivate => sceneSection u

theorem member_displays (docs : Docs) (c : PollConfig) (action : HaAction) :
    Value.member action.displaySection (buildFilteredDisplays u docs c) =
      .list ((action.sectionOf u).displays docs c.toConfig) := by
  cases action with
  | numberSet => rfl
  | setCoverPosition => rfl
  | mediaPlayer => rfl
  | sceneActivate => rfl

/-- A display of an overlay shows a document of its poll, found for a listed entity. -/
theorem displayed_found {data : Object} (h : fetchStates u c replies = .ok data)
    {action : HaAction} {listed : List Value}
    (hlisted : c.filteredEntities.get? action.displaySection = some listed)
    {members : Document} {items : List Value} {item : Document}
    (hmembers : data.getD filteredKey = .dict members)
    (hitems : Value.member action.displaySection members = .list items)
    (hitem : .dict item ∈ items) :
    ∃ eid ∈ c.listed action.displaySection, ∃ doc state, Found c replies eid doc state ∧
      (action.sectionOf u).display doc state = some item := by
  have hfiltered : c.hasFiltered = true := by
    unfold PollConfig.hasFiltered Dict.isEmpty
    unfold Dict.get? at hlisted
    cases hentries : c.filteredEntities.entries with
    | nil =>
      rw [hentries] at hlisted
      cases hlisted
    | cons e es => simp
  obtain ⟨-, booleans, switches, appliances, sensors, -, -, -, -, hdata, -⟩ := fetchStates_ok h
  obtain ⟨xs, hxs, rfl⟩ := hdata hfiltered
  have hget : Object.getD ((overlayOf booleans switches appliances sensors).set filteredKey
      (.dict (buildFilteredDisplays u (c.wanted.zip xs) c))) filteredKey =
        .dict (buildFilteredDisplays u (c.wanted.zip xs) c) := by
    unfold Object.getD
    rw [Dict.get?_set, if_pos rfl]
    rfl
  obtain rfl := Value.dict.inj (hget.symm.trans hmembers)
  rw [member_displays] at hitems
  obtain rfl := Value.list.inj hitems
  unfold Section.displays at hitem
  obtain ⟨eid, heid, hshown⟩ := List.mem_filterMap.mp hitem
  obtain ⟨⟨doc, state⟩, hdoc, hshown⟩ := Option.bind_eq_some_iff.mp hshown
  obtain ⟨shown, hdisplay, hsame⟩ := Option.map_eq_some_iff.mp hshown
  obtain rfl := Value.dict.inj hsame
  have hname : (action.sectionOf u).name = action.displaySection := by cases action <;> rfl
  rw [hname] at heid
  exact ⟨eid, heid, doc, state, docs_get hxs hfiltered hdoc, hdisplay⟩

/-- What a display says about its document. -/
theorem display_shows {action : HaAction} {doc item : Document} {state : Str}
    (h : (action.sectionOf u).display doc state = some item) :
    Value.member entityIdKey item = Value.member entityIdKey doc ∧
      match action with
      | .numberSet => (parseNumericState (some state)).isSome = true ∧
          Value.member (Str.lit "min") item = attributeOr doc "min" (.int 0) ∧
          Value.member (Str.lit "max") item = attributeOr doc "max" (.int 100)
      | .sceneActivate => state ≠ Str.lit "unavailable"
      | _ => isAvailable state = true := by
  cases action with
  | numberSet =>
    obtain ⟨value, hvalue, rfl⟩ := Option.map_eq_some_iff.mp h
    exact ⟨rfl, by rw [hvalue]; rfl, rfl, rfl⟩
  | setCoverPosition =>
    obtain ⟨havailable, h⟩ := Option.ite_none_right_eq_some.mp h
    obtain rfl := Option.some.inj h
    exact ⟨rfl, havailable⟩
  | mediaPlayer =>
    obtain ⟨havailable, h⟩ := Option.ite_none_right_eq_some.mp h
    obtain rfl := Option.some.inj h
    exact ⟨rfl, havailable⟩
  | sceneActivate =>
    obtain ⟨havailable, h⟩ := Option.ite_none_right_eq_some.mp h
    obtain rfl := Option.some.inj h
    exact ⟨rfl, havailable⟩

end Polls

/-! ## Actions on displays -/

/-- What a post about an entity rests on: a document of the poll, found for an entity that is
    listed for the action, that names the entity of the post and was fit for the action. -/
structure Observed (c : PollConfig) (replies : Nat → Reply) (action : HaAction) (entity : Str)
    (body : List (Str × Value)) (eid : Value) (doc : Document) (state : Str) : Prop where
  listed : eid ∈ c.listed action.displaySection
  found : Found c replies eid doc state
  named : Value.member entityIdKey doc = .str entity
  fit : match action with
    | .numberSet => (parseNumericState (some state)).isSome = true ∧ ∃ v minimum q maximum,
        body = [(entityIdKey, .str entity), (valueKey, v)] ∧
        finiteNumber (attributeOr doc "min" (.int 0)) = some minimum ∧
        finiteNumber (attributeOr doc "max" (.int 100)) = some maximum ∧
        finiteNumber v = some q ∧ minimum ≤ q ∧ q ≤ maximum
    | .sceneActivate => state ≠ Str.lit "unavailable"
    | _ => isAvailable state = true

/-- A rich action is permitted on a display, a number within the bounds it shows. -/
theorem permitted_rich {s : Client} {action : HaAction} {entity service : Str}
    {body : List (Str × Value)} (h : Permitted s action.name entity service body) :
    ∃ item, Displayed s action entity item ∧ (action = .numberSet → ∃ v minimum q maximum,
      body = [(entityIdKey, .str entity), (valueKey, v)] ∧
      finiteNumber (Value.member (Str.lit "min") item) = some minimum ∧
      finiteNumber (Value.member (Str.lit "max") item) = some maximum ∧
      finiteNumber v = some q ∧ minimum ≤ q ∧ q ≤ maximum) := by
  have hname : ∀ other : HaAction, action.name = other.name → action = other := by
    intro other hsame
    cases action <;> cases other <;> first | rfl | exact absurd hsame (by decide)
  have hplain : ∀ plain ∈ keyList ["toggle", "press"], action.name ≠ plain := by
    cases action <;> decide
  cases h with
  | toggle isToggle mapped switchable => exact absurd isToggle (hplain _ (by decide))
  | press isPress mapped button =>
    rcases isPress with isPress | isPress
    · exact absurd isPress (hplain _ (by decide))
    · exact absurd isPress (hplain _ (by decide))
  | number isNumber item displayed numeric v minimum q maximum hmin hmax hvalue lower upper =>
    obtain rfl := hname .numberSet isNumber
    exact ⟨item, displayed, fun _ => ⟨v, minimum, q, maximum, rfl, hmin, hmax, hvalue, lower,
      upper⟩⟩
  | cover isCover item displayed covers n lower upper =>
    obtain rfl := hname .setCoverPosition isCover
    exact ⟨item, displayed, fun h => by cases h⟩
  | media isMedia item displayed plays _ known =>
    obtain rfl := hname .mediaPlayer isMedia
    exact ⟨item, displayed, fun h => by cases h⟩
  | scene isScene item displayed scene =>
    obtain rfl := hname .sceneActivate isScene
    exact ⟨item, displayed, fun h => by cases h⟩

/-- **Posts about displays are observed.** When every overlay was the result of a poll, a rich
    action is posted at most thirty seconds after the last one, in which every request was
    answered, and one of the answers is a document of a listed entity that names the entity of the
    post. A number is within the bounds of this document. -/
theorem posts_observed (c : PollConfig) (polls : List Poll)
    (hpolls : ∀ p ∈ polls, ∃ replies, fetchStatesOnce u c replies = some p.data) {now later : ℚ}
    {action : HaAction} {v : Value} {payload : Object} {effect : Effect}
    (h : (Client.after c.toConfig polls).performAction now later action v payload = some effect) :
    ∃ entity service body p replies eid doc state, v = .str entity ∧
      effect = .servicePost (domainOf entity) service body ∧
      polls.getLast? = some p ∧ p.mono ≤ later ∧ later ≤ p.mono + 30 ∧
      fetchStatesOnce u c replies = some p.data ∧ Answered c.requests replies ∧
      Observed c replies action entity body eid doc state := by
  obtain ⟨entity, rfl, hlive, service, body, heffect, hpermitted⟩ := performAction_permitted h
  obtain ⟨hdirect, p, hlast, hconnected, hbefore, hfresh⟩ := controlsAvailable_after hlive
  obtain ⟨replies, hreplies⟩ := hpolls p (List.mem_of_getLast? hlast)
  have hfetched := fetchStates_of_connected hreplies hconnected
  obtain ⟨item, hdisplayed, hbounds⟩ := permitted_rich hpermitted
  obtain ⟨listed, hlisted, -⟩ := hdisplayed.listed
  obtain ⟨members, items, hmembers, hitems, hitem⟩ := hdisplayed.shown
  rw [config_after] at hlisted
  have hoverlay : (Client.after c.toConfig polls).overlay = p.data := by
    obtain ⟨earlier, rfl⟩ := List.getLast?_eq_some_iff.mp hlast
    rw [after_append]
    rfl
  rw [hoverlay] at hmembers
  obtain ⟨eid, heid, doc, state, hfound, hdisplay⟩ :=
    displayed_found hfetched hlisted hmembers hitems hitem
  obtain ⟨hnamed, hfit⟩ := display_shows hdisplay
  refine ⟨entity, service, body, p, replies, eid, doc, state, rfl, heffect, hlast, hbefore, hfresh,
    hreplies, (fetchStates_ok hfetched).1, heid, hfound, hnamed ▸ hdisplayed.named, ?_⟩
  cases action with
  | numberSet =>
    obtain ⟨hnumeric, hmin, hmax⟩ := hfit
    rw [← hmin, ← hmax]
    exact ⟨hnumeric, hbounds rfl⟩
  | setCoverPosition => exact hfit
  | mediaPlayer => exact hfit
  | sceneActivate => exact hfit

/-! ## A number -/

/-- The lamp and the number without a weather entity. -/
def lampAndAmps : PollConfig := ⟨lampAndNumber, none⟩

/-- Home Assistant has both of them. -/
def lampAndAmpsReplies : Nat → Reply
  | 0 => .response 200 (some (.dict [(stateKey, .str (Str.lit "on"))]))
  | _ => .response 200 (some (.dict [(entityIdKey, .str (Str.lit "number.amps")),
      (stateKey, .str (Str.lit "16")),
      (attributesKey, .dict [(Str.lit "min", .float (.fin 6)),
        (Str.lit "max", .float (.fin 32))])]))

/-- What that poll shows. -/
def ampsOverlay : Object :=
  (fetchStatesOnce .ascii lampAndAmps lampAndAmpsReplies).getD Dict.empty

theorem fetch_whole_amps : Shows lampAndAmps lampAndAmpsReplies ampsOverlay :=
  ((fetch_whole (u := .ascii) rfl rfl).1 rfl).2

/-- A number is set within the bounds of the last poll. -/
theorem posts_observed_amps :
    ∃ effect, (Client.after lampAndAmps.toConfig [Poll.mk 100 ampsOverlay]).performAction 120 130
        .numberSet (.str (Str.lit "number.amps")) (Dict.ofList [(valueKey, .float (.fin 20))]) =
          some effect ∧
      ∃ entity service body p replies eid doc state,
        Value.str (Str.lit "number.amps") = .str entity ∧
        effect = .servicePost (domainOf entity) service body ∧
        [Poll.mk 100 ampsOverlay].getLast? = some p ∧ p.mono ≤ 130 ∧ 130 ≤ p.mono + 30 ∧
        fetchStatesOnce .ascii lampAndAmps replies = some p.data ∧
        Answered lampAndAmps.requests replies ∧
        Observed lampAndAmps replies .numberSet entity body eid doc state := by
  obtain ⟨effect, hpost⟩ := Option.isSome_iff_exists.mp (by decide +kernel : ((Client.after
    lampAndAmps.toConfig [Poll.mk 100 ampsOverlay]).performAction 120 130 .numberSet
      (.str (Str.lit "number.amps")) (Dict.ofList [(valueKey, .float (.fin 20))])).isSome = true)
  refine ⟨effect, hpost, posts_observed .ascii lampAndAmps _ ?_ hpost⟩
  intro p hp
  obtain rfl := List.mem_singleton.mp hp
  exact ⟨lampAndAmpsReplies, rfl⟩

end InverterDashboard.HomeAssistant
