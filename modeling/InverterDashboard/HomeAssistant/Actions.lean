import InverterDashboard.HomeAssistant.Ownership
import InverterDashboard.Python.Decimal

/-
  The actions of the WebSocket handler, up to the first thing they ask of another party.

  An action posts to Home Assistant, sends a command to the controller, or is refused. Between its
  checks and the post there is no `await`, so that all of them see one configuration and one
  overlay; only the clock is read twice (`now` and `later`).
-/

namespace InverterDashboard.HomeAssistant

open Python Cerbo

/-! ## The client -/

/-- What `ha_client` knows: its configuration, the last overlay and when it was observed. -/
structure Client where
  config : Config
  overlay : Object
  observedMonotonic : Option ℚ

/-- The result of `fetch_states_once`, and when it was stored. -/
structure Poll where
  mono : ℚ
  data : Object

/-- The client before its first poll. -/
def Client.initial (c : Config) : Client where
  config := c
  overlay := Dict.ofList [(booleansKey, .dict []), (connectedKey, .bool false)]
  observedMonotonic := none

/-- `replace_overlay`. -/
def Client.replaceOverlay (s : Client) (p : Poll) : Client where
  config := s.config
  overlay := p.data
  observedMonotonic := if (p.data.getD connectedKey).isTrue then some p.mono else none

def Client.after (c : Config) (polls : List Poll) : Client :=
  polls.foldl Client.replaceOverlay (Client.initial c)

/-- `controls_available`. -/
def Client.controlsAvailable (s : Client) (now : ℚ) : Bool :=
  s.config.isDirectMode && (s.overlay.getD connectedKey).isTrue &&
    s.observedMonotonic.any fun t => decide (0 ≤ now - t) && decide (now - t ≤ 30)

/-! ## Entities -/

def dot : CodePoint := CodePoint.ofChar '.'

/-- `entity.split(".")[0]`. -/
def domainOf (entity : Str) : Str := entity.takeWhile (· ≠ dot)

/-- `entity.rsplit(".", 1)[-1]`. -/
def afterLastDot (entity : Str) : Str := (entity.reverse.takeWhile (· ≠ dot)).reverse

/-- `is_toggle_allowed`. -/
def Config.isToggleAllowed (c : Config) (entity : Str) : Bool :=
  !entity.isEmpty && c.configured &&
    (haFields c.booleanEntities ++ haFields c.switchEntities).any fun e => e.2.eqv (.str entity)

/-- `domain_for_press`, which is the button domain or none. -/
def isButton (entity : Str) : Bool := (Str.lit "button.").isPrefixOf entity

def entityKey : Str := Str.lit "entity"
def entityIdKey : Str := Str.lit "entity_id"

/-! ## Posts -/

/-- What an action asks of another party. -/
inductive Effect where
  /-- `POST /api/services/{domain}/{service}`. -/
  | servicePost (domain service : Str) (body : List (Str × Value))
  /-- A command of the controller or of a native device. -/
  | command (request : Commands.Request)
  | saveSettings (patch : Object)
  | dismissNotification (nid : Str)

/-- `_ha_request` of a post. -/
def Client.haPost (s : Client) (later : ℚ) (domain service : Str) (body : List (Str × Value)) :
    Option Effect :=
  if s.config.configured && s.controlsAvailable later then some (.servicePost domain service body)
  else none

/-- `toggle_entity`. -/
def Client.toggleEntity (s : Client) (now later : ℚ) (entity : Str) : Option Effect :=
  if s.controlsAvailable now && s.config.configured &&
      domainOf entity ∈ keyList ["input_boolean", "switch", "light"] then
    s.haPost later (domainOf entity) (Str.lit "toggle") [(entityIdKey, .str entity)]
  else none

/-- `press_entity`. -/
def Client.pressEntity (s : Client) (now later : ℚ) (entity : Str) : Option Effect :=
  if s.controlsAvailable now then
    s.haPost later (Str.lit "button") (Str.lit "press") [(entityIdKey, .str entity)]
  else none

/-! ## Rich actions -/

inductive HaAction where
  | numberSet
  | setCoverPosition
  | mediaPlayer
  | sceneActivate

def HaAction.name : HaAction → Str
  | .numberSet => Str.lit "number_set"
  | .setCoverPosition => Str.lit "set_cover_position"
  | .mediaPlayer => Str.lit "media_player"
  | .sceneActivate => Str.lit "scene_activate"

/-- The section of the filtered entities an action is about. -/
def HaAction.displaySection : HaAction → Str
  | .numberSet => Str.lit "numbers"
  | .setCoverPosition => Str.lit "covers"
  | .mediaPlayer => Str.lit "media_players"
  | .sceneActivate => Str.lit "scenes"

/-- The domains an action is about. -/
def HaAction.domains : HaAction → List Str
  | .numberSet => keyList ["number", "input_number"]
  | .setCoverPosition => keyList ["cover"]
  | .mediaPlayer => keyList ["media_player"]
  | .sceneActivate => keyList ["scene"]

/-- A finite number that is no boolean. An integer beyond the floats raises in `isfinite`. -/
def finiteNumber : Value → Option ℚ
  | .int i => (Float64.ofInt? i).map fun _ => (i : ℚ)
  | .float x => x.finite?
  | _ => none

/-- `int(q)`. -/
def truncated (q : ℚ) : Int := q.num.tdiv q.den

def valueKey : Str := Str.lit "value"
def positionKey : Str := Str.lit "position"

/-- `_number_action_value`. -/
def numberActionValue (payload : Object) : Option ℚ := finiteNumber (payload.getD valueKey)

/-- `_cover_action_position`, as an integer. -/
def coverActionPosition (payload : Object) : Option Int :=
  match finiteNumber (payload.getD positionKey) with
  | some q => if 0 ≤ q ∧ q ≤ 100 ∧ (truncated q : ℚ) = q then some (truncated q) else none
  | none => none

/-- The media service of an `mp_action`. -/
def mediaService : Value → Option Str
  | .str s =>
    if s = Str.lit "play" then some (Str.lit "media_play")
    else if s = Str.lit "pause" then some (Str.lit "media_pause")
    else if s = Str.lit "stop" then some (Str.lit "media_stop")
    else none
  | _ => none

/-- What `_prepare_action` adds to the body, and its service. -/
def prepareRequest (action : HaAction) (payload : Object) : Option (List (Str × Value) × Str) :=
  match action with
  | .numberSet => (numberActionValue payload).map fun _ =>
      ([(valueKey, payload.getD valueKey)], Str.lit "set_value")
  | .setCoverPosition => (coverActionPosition payload).map fun n =>
      ([(positionKey, .int n)], Str.lit "set_cover_position")
  | .mediaPlayer => (mediaService (payload.getD (Str.lit "mp_action"))).map fun service =>
      ([], service)
  | .sceneActivate => some ([], Str.lit "turn_on")

/-- `_prepare_action`. -/
def Config.prepareAction (c : Config) (action : HaAction) (entity : Str) (payload : Object) :
    Option (List (Str × Value) × Str) :=
  let listed := (c.filteredEntities.get? action.displaySection).getD []
  let allowed := domainOf entity ∈ action.domains && listed.any fun v => v.eqv (.str entity)
  (prepareRequest action payload).bind fun request =>
    if allowed then some ((entityIdKey, .str entity) :: request.1, request.2) else none

/-- `(_overlay.get("ha_filtered") or {}).get(section) or []`, as what a loop takes from it. -/
def displays (overlay : Object) (displaySection : Str) : Option (List Value) :=
  let filtered := overlay.getD filteredKey
  if filtered.truthy then
    match filtered with
    | .dict sections =>
      let items := Value.member displaySection sections
      if items.truthy then
        match items with
        | .list items => some items
        -- The keys of a dict and the characters of a text have no `get`.
        | _ => none
      else some []
    | _ => none
  else some []

/-- The first display of an entity; an item before it that is no dict raises. -/
def observedDisplay (entity : Str) : List Value → Option (List (Str × Value))
  | [] => none
  | .dict item :: rest =>
    if (Value.member entityIdKey item).eqv (.str entity) then some item
    else observedDisplay entity rest
  | _ :: _ => none

/-- `minimum <= value <= maximum` of two finite bounds. -/
def withinDisplayed (item : List (Str × Value)) (payload : Object) : Bool :=
  match finiteNumber (Value.member (Str.lit "min") item),
      finiteNumber (Value.member (Str.lit "max") item), numberActionValue payload with
  | some minimum, some maximum, some value => decide (minimum ≤ value) && decide (value ≤ maximum)
  | _, _, _ => false

/-- `perform_action`. -/
def Client.performAction (s : Client) (now later : ℚ) (action : HaAction) (entity : Value)
    (payload : Object) : Option Effect :=
  if s.config.isDirectMode && s.controlsAvailable now then
    match entity with
    | .str entity =>
      if entity.isEmpty || afterLastDot entity ∈ controlFlagKeys then none
      else do
        let request ← s.config.prepareAction action entity payload
        let items ← displays s.overlay action.displaySection
        let observed ← observedDisplay entity items
        match action with
        | .numberSet =>
          if withinDisplayed observed payload then
            s.haPost later (domainOf entity) request.2 request.1
          else none
        | _ => s.haPost later (domainOf entity) request.2 request.1
    | _ => none
  else none

/-! ## Dispatch -/

/-- `_perform_direct_toggle`, up to its post. -/
def Client.performDirectToggle (s : Client) (now later : ℚ) (entity : Str) : Option Effect :=
  if isButton entity then s.pressEntity now later entity else s.toggleEntity now later entity

/-- A toggle or a press for the controller. -/
def publishCommand (action : String) (payload : List (Str × Value)) : Option Effect :=
  some (.command (.publish (Str.lit action) payload))

/-- `{k: data[k]}` when there is one. -/
def entryOf (k : Str) (data : Object) : List (Str × Value) :=
  match data.get? k with
  | some v => [(k, v)]
  | none => []

/-- `_dispatch_toggle`. -/
def Client.dispatchToggle (s : Client) (now later : ℚ) (data : Object) : Option Effect :=
  match data.getD entityKey with
  | .str entity =>
    if entity.isEmpty then none
    else
      match Commands.controlFlagKey (.str entity) with
      | some flag =>
        publishCommand "toggle" ((entityKey, .str flag) :: entryOf (Str.lit "state") data)
      | none =>
        if dot ∈ entity && (!s.config.isDirectMode || !s.config.isToggleAllowed entity) then none
        else if s.config.isDirectMode && s.config.isToggleAllowed entity then
          s.performDirectToggle now later entity
        else publishCommand "toggle" [(entityKey, .str entity)]
  | _ => none

/-- `_dispatch_press`. -/
def Client.dispatchPress (s : Client) (now later : ℚ) (data : Object) : Option Effect :=
  let entity := data.getD entityKey
  if s.config.isDirectMode then
    match entity with
    | .str entity =>
      if s.config.isToggleAllowed entity && isButton entity then s.pressEntity now later entity
      else none
    | _ => none
  else
    match entity with
    | .str name => if dot ∈ name then none else publishCommand "press" [(entityKey, entity)]
    | _ => publishCommand "press" [(entityKey, entity)]

/-- `_dispatch_legacy_action`. -/
def dispatchLegacyAction (action : Str) (data : Object) : Option Effect :=
  if action = Str.lit "setpoint" then
    publishCommand "setpoint" [(valueKey, data.getD valueKey)]
  else if action = Str.lit "dry_run" then publishCommand "dry_run" (entryOf valueKey data)
  else if action = Str.lit "limits" then
    publishCommand "limits"
      [(Str.lit "min", (data.get? (Str.lit "min")).getD (.int (-2300))),
       (Str.lit "max", (data.get? (Str.lit "max")).getD (.int 2250))]
  else if action = Str.lit "ess_mode" then publishCommand "ess_mode" []
  else if action = Str.lit "loop_interval" then
    publishCommand "loop_interval"
      [(Str.lit "interval",
        (data.get? (Str.lit "interval")).getD (.float (Float64.ofRat (33 / 100))))]
  else none

/-- The rich action of a name. -/
def haActionOf (name : Str) : Option HaAction :=
  [HaAction.numberSet, .setCoverPosition, .mediaPlayer, .sceneActivate].find? fun a => a.name = name

/-- `_dispatch_dismissal`, which ignores an id that is no text. -/
def dispatchDismissal (data : Object) : Option Effect :=
  match data.getD (Str.lit "id") with
  | .str nid => if nid.isEmpty then none else some (.dismissNotification nid)
  | _ => none

/-- The patch of `_dispatch_settings`. -/
def settingsPatch (data : Object) : Object :=
  ⟨data.entries.filter fun e => e.1 ∉ keyList ["action", "request_id"], by
    exact data.nodup.sublist (List.filter_sublist.map _)⟩

/-- `_dispatch_action`; `rounds` bounds the wait for an acknowledgement. -/
def Client.dispatchAction (s : Client) (rounds : Nat) (now later : ℚ) (action : Value)
    (data : Object) : Option Effect :=
  match action with
  | .str action =>
    if action = Str.lit "set_setpoint_override" then
      some (.command (.sendController .setpointOverride data rounds))
    else if action = Str.lit "electricity_tariff" then
      some (.command (.sendController .electricityTariff data rounds))
    else if action = Str.lit "set_ess_mode" then some (.command (.selectEssMode data))
    else if action = Str.lit "water_mode" then
      some (.command (.setWaterMode (data.getD (Str.lit "which")) (data.getD (Str.lit "mode"))))
    else match haActionOf action with
      | some rich => s.performAction now later rich (data.getD entityKey) data
      | none =>
        if action = Str.lit "toggle" then s.dispatchToggle now later data
        else if action = Str.lit "press" then s.dispatchPress now later data
        else if action = Str.lit "set_settings" then some (.saveSettings (settingsPatch data))
        else if action = Str.lit "dismiss_notification" then dispatchDismissal data
        else dispatchLegacyAction action data
  | _ => none

/-- One message of `handle_websocket`. -/
def Client.handle (s : Client) (rounds : Nat) (now later : ℚ) (message : Value) : Option Effect :=
  match message with
  | .dict members =>
    let data : Object := Dict.ofList members
    let action := data.getD (Str.lit "action")
    let requestId := data.get? (Str.lit "request_id")
    if action.truthy && requestId.all Controller.requestIdValid then
      s.dispatchAction rounds now later action data
    else none
  -- Only a dict has `get`.
  | _ => none

/-! ## What may be asked of Home Assistant -/

/-- The last poll found Home Assistant, at most thirty seconds ago. -/
def FreshPoll (polls : List Poll) (now : ℚ) : Prop :=
  ∃ p, polls.getLast? = some p ∧ p.data.getD connectedKey = .bool true ∧
    p.mono ≤ now ∧ now ≤ p.mono + 30

/-- An entity that Home Assistant owns by the boolean or by the switch mapping. -/
def Config.Maps (c : Config) (entity : Str) : Prop :=
  ∃ e ∈ haFields c.booleanEntities ++ haFields c.switchEntities, e.2 = .str entity

/-- An entity that is listed for an action, and its display in the overlay. -/
structure Displayed (s : Client) (action : HaAction) (entity : Str) (item : List (Str × Value)) :
    Prop where
  listed : ∃ listed, s.config.filteredEntities.get? action.displaySection = some listed ∧
    .str entity ∈ listed
  shown : ∃ sections items, s.overlay.getD filteredKey = .dict sections ∧
    Value.member action.displaySection sections = .list items ∧ .dict item ∈ items
  named : Value.member entityIdKey item = .str entity

/-- What an action of a browser may ask of Home Assistant about an entity. -/
inductive Permitted (s : Client) (action : Str) (entity : Str) : Str → List (Str × Value) → Prop
  | toggle (isToggle : action = Str.lit "toggle") (mapped : s.config.Maps entity)
      (switchable : domainOf entity ∈ keyList ["input_boolean", "switch", "light"]) :
      Permitted s action entity (Str.lit "toggle") [(entityIdKey, .str entity)]
  | press (isPress : action = Str.lit "toggle" ∨ action = Str.lit "press")
      (mapped : s.config.Maps entity) (button : domainOf entity = Str.lit "button") :
      Permitted s action entity (Str.lit "press") [(entityIdKey, .str entity)]
  | number (isNumber : action = Str.lit "number_set") (item : List (Str × Value))
      (displayed : Displayed s .numberSet entity item)
      (numeric : domainOf entity ∈ keyList ["number", "input_number"]) (v : Value)
      (minimum q maximum : ℚ) (isMinimum : finiteNumber (Value.member (Str.lit "min") item) = some minimum)
      (isMaximum : finiteNumber (Value.member (Str.lit "max") item) = some maximum)
      (isValue : finiteNumber v = some q) (lower : minimum ≤ q) (upper : q ≤ maximum) :
      Permitted s action entity (Str.lit "set_value") [(entityIdKey, .str entity), (valueKey, v)]
  | cover (isCover : action = Str.lit "set_cover_position") (item : List (Str × Value))
      (displayed : Displayed s .setCoverPosition entity item)
      (covers : domainOf entity = Str.lit "cover") (n : Int) (lower : 0 ≤ n) (upper : n ≤ 100) :
      Permitted s action entity (Str.lit "set_cover_position")
        [(entityIdKey, .str entity), (positionKey, .int n)]
  | media (isMedia : action = Str.lit "media_player") (item : List (Str × Value))
      (displayed : Displayed s .mediaPlayer entity item)
      (plays : domainOf entity = Str.lit "media_player") (service : Str)
      (known : service ∈ keyList ["media_play", "media_pause", "media_stop"]) :
      Permitted s action entity service [(entityIdKey, .str entity)]
  | scene (isScene : action = Str.lit "scene_activate") (item : List (Str × Value))
      (displayed : Displayed s .sceneActivate entity item)
      (scene : domainOf entity = Str.lit "scene") :
      Permitted s action entity (Str.lit "turn_on") [(entityIdKey, .str entity)]

/-! ## Posts are permitted -/

/-- Only a text equals a text. -/
theorem eq_of_eqv_str {v : Value} {t : Str} (h : v.eqv (.str t) = true) : v = .str t := by
  cases v with
  | str s => rw [of_decide_eq_true h]
  | none => cases h
  | bool b => simp [Value.eqv, Value.rat?] at h
  | int i => simp [Value.eqv, Value.rat?] at h
  | float x =>
    unfold Value.eqv at h
    split at h
    · simp [Value.rat?] at h
    · cases h
  | list xs => cases h
  | dict es => cases h

section Posts

variable {s : Client} {now later : ℚ} {entity : Str} {effect : Effect}

/-- A post is made with live controls. -/
theorem haPost_eq_some {domain service : Str} {body : List (Str × Value)}
    (h : s.haPost later domain service body = some effect) :
    s.controlsAvailable later = true ∧ effect = .servicePost domain service body := by
  unfold Client.haPost at h
  split at h
  · next hlive =>
    rw [Bool.and_eq_true] at hlive
    exact ⟨hlive.2, (Option.some.inj h).symm⟩
  · cases h

theorem isToggleAllowed_eq_true {c : Config} (h : c.isToggleAllowed entity = true) :
    c.Maps entity := by
  unfold Config.isToggleAllowed at h
  rw [Bool.and_eq_true, List.any_eq_true] at h
  obtain ⟨-, e, he, heqv⟩ := h
  exact ⟨e, he, eq_of_eqv_str heqv⟩

theorem domainOf_button (h : isButton entity = true) : domainOf entity = Str.lit "button" := by
  obtain ⟨rest, rfl⟩ := List.isPrefixOf_iff_prefix.mp h
  rfl

/-- A post about an entity that is permitted for an action. -/
def PermittedPost (s : Client) (later : ℚ) (action entity : Str) (effect : Effect) : Prop :=
  s.controlsAvailable later = true ∧ ∃ service body,
    effect = .servicePost (domainOf entity) service body ∧ Permitted s action entity service body

theorem toggleEntity_permitted (hmaps : s.config.Maps entity)
    (h : s.toggleEntity now later entity = some effect) :
    PermittedPost s later (Str.lit "toggle") entity effect := by
  unfold Client.toggleEntity at h
  split at h
  · next hchecks =>
    simp only [Bool.and_eq_true, decide_eq_true_eq] at hchecks
    obtain ⟨hlive, heffect⟩ := haPost_eq_some h
    exact ⟨hlive, _, _, heffect, .toggle rfl hmaps hchecks.2⟩
  · cases h

theorem pressEntity_permitted {action : Str}
    (haction : action = Str.lit "toggle" ∨ action = Str.lit "press")
    (hmaps : s.config.Maps entity) (hbutton : isButton entity = true)
    (h : s.pressEntity now later entity = some effect) :
    PermittedPost s later action entity effect := by
  unfold Client.pressEntity at h
  split at h
  · obtain ⟨hlive, heffect⟩ := haPost_eq_some h
    rw [← domainOf_button hbutton] at heffect
    exact ⟨hlive, _, _, heffect, .press haction hmaps (domainOf_button hbutton)⟩
  · cases h

theorem displays_eq_some {overlay : Object} {displaySection : Str} {items : List Value}
    {item : Value} (h : displays overlay displaySection = some items) (hitem : item ∈ items) :
    ∃ sections, overlay.getD filteredKey = .dict sections ∧
      Value.member displaySection sections = .list items := by
  unfold displays at h
  dsimp only at h
  split at h
  · split at h
    · next sections hsections =>
      split at h
      · split at h
        · next list hlist =>
          injection h with h
          subst h
          exact ⟨sections, hsections, hlist⟩
        · cases h
      · injection h with h
        subst h
        cases hitem
    · cases h
  · injection h with h
    subst h
    cases hitem

theorem observedDisplay_eq_some {items : List Value} {item : List (Str × Value)}
    (h : observedDisplay entity items = some item) :
    .dict item ∈ items ∧ Value.member entityIdKey item = .str entity := by
  induction items with
  | nil => cases h
  | cons v items ih =>
    cases v with
    | dict fields =>
      unfold observedDisplay at h
      split at h
      · next heqv =>
        injection h with h
        subst h
        exact ⟨List.mem_cons_self, eq_of_eqv_str heqv⟩
      · obtain ⟨hmem, hnamed⟩ := ih h
        exact ⟨List.mem_cons_of_mem _ hmem, hnamed⟩
    | _ => cases h

theorem withinDisplayed_eq_true {item : List (Str × Value)} {payload : Object}
    (h : withinDisplayed item payload = true) :
    ∃ minimum q maximum, finiteNumber (Value.member (Str.lit "min") item) = some minimum ∧
      finiteNumber (Value.member (Str.lit "max") item) = some maximum ∧
      finiteNumber (payload.getD valueKey) = some q ∧ minimum ≤ q ∧ q ≤ maximum := by
  unfold withinDisplayed at h
  split at h
  · next minimum maximum q hmin hmax hvalue =>
    simp only [Bool.and_eq_true, decide_eq_true_eq] at h
    exact ⟨minimum, q, maximum, hmin, hmax, hvalue, h.1, h.2⟩
  · cases h

theorem coverActionPosition_eq_some {payload : Object} {n : Int}
    (h : coverActionPosition payload = some n) : 0 ≤ n ∧ n ≤ 100 := by
  unfold coverActionPosition at h
  split at h
  · next q =>
    split at h
    · next hrange =>
      injection h with h
      obtain ⟨hlower, hupper, hint⟩ := hrange
      rw [← hint, h] at hlower hupper
      exact ⟨by exact_mod_cast hlower, by exact_mod_cast hupper⟩
    · cases h
  · cases h

theorem mediaService_eq_some {v : Value} {service : Str} (h : mediaService v = some service) :
    service ∈ keyList ["media_play", "media_pause", "media_stop"] := by
  unfold mediaService at h
  split at h
  · split at h
    · injection h with h
      subst h
      decide
    · split at h
      · injection h with h
        subst h
        decide
      · split at h
        · injection h with h
          subst h
          decide
        · cases h
  · cases h

theorem prepareAction_eq_some {c : Config} {action : HaAction} {payload : Object}
    {request : List (Str × Value) × Str} (h : c.prepareAction action entity payload = some request) :
    domainOf entity ∈ action.domains ∧
      (∃ listed, c.filteredEntities.get? action.displaySection = some listed ∧
        .str entity ∈ listed) ∧
      ∃ prepared, prepareRequest action payload = some prepared ∧
        request = ((entityIdKey, .str entity) :: prepared.1, prepared.2) := by
  unfold Config.prepareAction at h
  dsimp only at h
  obtain ⟨prepared, hprepared, h⟩ := Option.bind_eq_some_iff.mp h
  split at h
  · next hallowed =>
    injection h with h
    rw [Bool.and_eq_true, decide_eq_true_eq, List.any_eq_true] at hallowed
    obtain ⟨hdomain, v, hv, heqv⟩ := hallowed
    rw [eq_of_eqv_str heqv] at hv
    refine ⟨hdomain, ?_, prepared, hprepared, h.symm⟩
    cases hlisted : c.filteredEntities.get? action.displaySection with
    | none =>
      rw [hlisted] at hv
      cases hv
    | some listed =>
      rw [hlisted] at hv
      exact ⟨listed, rfl, hv⟩
  · cases h

/-- A rich action that posts is permitted. -/
theorem performAction_permitted {action : HaAction} {v : Value} {payload : Object}
    (h : s.performAction now later action v payload = some effect) :
    ∃ entity, v = .str entity ∧ PermittedPost s later action.name entity effect := by
  unfold Client.performAction at h
  split at h
  · split at h
    · next entity =>
      refine ⟨entity, rfl, ?_⟩
      split at h
      · cases h
      · obtain ⟨request, hrequest, h⟩ := Option.bind_eq_some_iff.mp h
        obtain ⟨items, hitems, h⟩ := Option.bind_eq_some_iff.mp h
        obtain ⟨item, hitem, h⟩ := Option.bind_eq_some_iff.mp h
        obtain ⟨hdomain, hlisted, prepared, hprepared, rfl⟩ := prepareAction_eq_some hrequest
        obtain ⟨hmem, hnamed⟩ := observedDisplay_eq_some hitem
        obtain ⟨sections, hsections, hlist⟩ := displays_eq_some hitems hmem
        have hdisplayed : Displayed s action entity item :=
          ⟨hlisted, ⟨sections, items, hsections, hlist, hmem⟩, hnamed⟩
        cases action with
        | numberSet =>
          dsimp only at h
          split at h
          · next hwithin =>
            obtain ⟨minimum, q, maximum, hmin, hmax, hq, hlower, hupper⟩ :=
              withinDisplayed_eq_true hwithin
            obtain ⟨_, -, rfl⟩ := Option.map_eq_some_iff.mp hprepared
            obtain ⟨hlive, heffect⟩ := haPost_eq_some h
            exact ⟨hlive, _, _, heffect, .number rfl item hdisplayed hdomain _ minimum q maximum
              hmin hmax hq hlower hupper⟩
          · cases h
        | setCoverPosition =>
          obtain ⟨n, hn, rfl⟩ := Option.map_eq_some_iff.mp hprepared
          obtain ⟨hlive, heffect⟩ := haPost_eq_some h
          obtain ⟨hlower, hupper⟩ := coverActionPosition_eq_some hn
          exact ⟨hlive, _, _, heffect, .cover rfl item hdisplayed (List.mem_singleton.mp hdomain)
            n hlower hupper⟩
        | mediaPlayer =>
          obtain ⟨service, hservice, rfl⟩ := Option.map_eq_some_iff.mp hprepared
          obtain ⟨hlive, heffect⟩ := haPost_eq_some h
          exact ⟨hlive, _, _, heffect, .media rfl item hdisplayed (List.mem_singleton.mp hdomain)
            service (mediaService_eq_some hservice)⟩
        | sceneActivate =>
          injection hprepared with hprepared
          subst hprepared
          obtain ⟨hlive, heffect⟩ := haPost_eq_some h
          exact ⟨hlive, _, _, heffect, .scene rfl item hdisplayed (List.mem_singleton.mp hdomain)⟩
    · cases h
  · cases h

theorem dispatchToggle_permitted {data : Object} {domain service : Str}
    {body : List (Str × Value)}
    (h : s.dispatchToggle now later data = some (.servicePost domain service body)) :
    ∃ entity, data.getD entityKey = .str entity ∧
      PermittedPost s later (Str.lit "toggle") entity (.servicePost domain service body) := by
  unfold Client.dispatchToggle at h
  split at h
  · next entity hentity =>
    refine ⟨entity, hentity, ?_⟩
    split at h
    · cases h
    · split at h
      · cases h
      · split at h
        · cases h
        · split at h
          · next hallowed =>
            rw [Bool.and_eq_true] at hallowed
            have hmaps := isToggleAllowed_eq_true hallowed.2
            unfold Client.performDirectToggle at h
            split at h
            · next hbutton => exact pressEntity_permitted (Or.inl rfl) hmaps hbutton h
            · exact toggleEntity_permitted hmaps h
          · cases h
  · cases h

theorem dispatchPress_permitted {data : Object} {domain service : Str} {body : List (Str × Value)}
    (h : s.dispatchPress now later data = some (.servicePost domain service body)) :
    ∃ entity, data.getD entityKey = .str entity ∧
      PermittedPost s later (Str.lit "press") entity (.servicePost domain service body) := by
  unfold Client.dispatchPress at h
  dsimp only at h
  split at h
  · split at h
    · next entity hentity =>
      refine ⟨entity, hentity, ?_⟩
      split at h
      · next hallowed =>
        rw [Bool.and_eq_true] at hallowed
        exact pressEntity_permitted (Or.inr rfl) (isToggleAllowed_eq_true hallowed.1) hallowed.2 h
      · cases h
    · cases h
  · split at h
    · split at h
      · cases h
      · cases h
    · cases h

theorem dispatchLegacyAction_ne_post (action : Str) (data : Object) (domain service : Str)
    (body : List (Str × Value)) :
    dispatchLegacyAction action data ≠ some (.servicePost domain service body) := by
  unfold dispatchLegacyAction publishCommand
  intro h
  split_ifs at h <;> cases h

theorem dispatchDismissal_ne_post (data : Object) (domain service : Str)
    (body : List (Str × Value)) :
    dispatchDismissal data ≠ some (.servicePost domain service body) := by
  unfold dispatchDismissal
  intro h
  split at h
  · split at h
    · cases h
    · cases h
  · cases h

theorem haActionOf_eq_some {name : Str} {action : HaAction} (h : haActionOf name = some action) :
    action.name = name := by
  have hfound := List.find?_some (show List.find? _ _ = some action from h)
  exact of_decide_eq_true hfound

/-- Every route to a post is permitted. -/
theorem dispatchAction_permitted {rounds : Nat} {action : Value} {data : Object}
    {domain service : Str} {body : List (Str × Value)}
    (h : s.dispatchAction rounds now later action data = some (.servicePost domain service body)) :
    ∃ name entity, action = .str name ∧ data.getD entityKey = .str entity ∧
      PermittedPost s later name entity (.servicePost domain service body) := by
  unfold Client.dispatchAction at h
  split at h
  · next name =>
    by_cases hoverride : name = Str.lit "set_setpoint_override"
    · rw [if_pos hoverride] at h
      cases h
    rw [if_neg hoverride] at h
    by_cases htariff : name = Str.lit "electricity_tariff"
    · rw [if_pos htariff] at h
      cases h
    rw [if_neg htariff] at h
    by_cases hess : name = Str.lit "set_ess_mode"
    · rw [if_pos hess] at h
      cases h
    rw [if_neg hess] at h
    by_cases hwater : name = Str.lit "water_mode"
    · rw [if_pos hwater] at h
      cases h
    rw [if_neg hwater] at h
    split at h
    · next rich hrich =>
      obtain ⟨entity, hentity, hpost⟩ := performAction_permitted h
      rw [haActionOf_eq_some hrich] at hpost
      exact ⟨name, entity, rfl, hentity, hpost⟩
    · by_cases htoggle : name = Str.lit "toggle"
      · rw [if_pos htoggle] at h
        obtain ⟨entity, hentity, hpost⟩ := dispatchToggle_permitted h
        exact ⟨name, entity, rfl, hentity, htoggle ▸ hpost⟩
      rw [if_neg htoggle] at h
      by_cases hpress : name = Str.lit "press"
      · rw [if_pos hpress] at h
        obtain ⟨entity, hentity, hpost⟩ := dispatchPress_permitted h
        exact ⟨name, entity, rfl, hentity, hpress ▸ hpost⟩
      rw [if_neg hpress] at h
      by_cases hsettings : name = Str.lit "set_settings"
      · rw [if_pos hsettings] at h
        cases h
      rw [if_neg hsettings] at h
      by_cases hdismiss : name = Str.lit "dismiss_notification"
      · rw [if_pos hdismiss] at h
        exact absurd h (dispatchDismissal_ne_post _ _ _ _)
      rw [if_neg hdismiss] at h
      exact absurd h (dispatchLegacyAction_ne_post _ _ _ _ _)
  · cases h

end Posts

theorem after_append (c : Config) (polls : List Poll) (p : Poll) :
    Client.after c (polls ++ [p]) = (Client.after c polls).replaceOverlay p := by
  unfold Client.after
  rw [List.foldl_append]
  rfl

theorem config_after (c : Config) (polls : List Poll) : (Client.after c polls).config = c := by
  induction polls using List.reverseRecOn with
  | nil => rfl
  | append_singleton polls p ih =>
    rw [after_append]
    exact ih

theorem controlsAvailable_after {c : Config} {polls : List Poll} {now : ℚ}
    (h : (Client.after c polls).controlsAvailable now = true) :
    c.isDirectMode = true ∧ FreshPoll polls now := by
  unfold Client.controlsAvailable at h
  rw [config_after] at h
  simp only [Bool.and_eq_true, Value.isTrue_eq_true] at h
  obtain ⟨⟨hdirect, hconnected⟩, hobserved⟩ := h
  refine ⟨hdirect, ?_⟩
  rcases List.eq_nil_or_concat' polls with rfl | ⟨earlier, p, rfl⟩
  · cases hobserved
  · rw [after_append] at hconnected hobserved
    have hp : p.data.getD connectedKey = .bool true := hconnected
    have hsome : ((Client.after c earlier).replaceOverlay p).observedMonotonic = some p.mono := by
      unfold Client.replaceOverlay
      dsimp only
      rw [if_pos ((Value.isTrue_eq_true _).mpr hp)]
    rw [hsome, Option.any_some, Bool.and_eq_true, decide_eq_true_eq, decide_eq_true_eq] at hobserved
    refine ⟨p, by simp, hp, ?_, ?_⟩
    · linarith
    · linarith

/-! ## Flags stay with the controller -/

/-- A control flag, bare or under its Home Assistant name, with any blanks around it. -/
def NamesFlag (entity flag : Str) : Prop :=
  entity.strip = flag ∨ entity.strip = Str.lit "input_boolean." ++ flag

theorem controlFlagKey_of_names {entity flag : Str} (hflag : flag ∈ controlFlagKeys)
    (hnames : NamesFlag entity flag) : Commands.controlFlagKey (.str entity) = some flag := by
  have hkeys : ∀ flag ∈ controlFlagKeys, flag ∈ Commands.controlFlagKeys ∧ flag ≠ [] ∧
      Commands.removePrefix (Str.lit "input_boolean.") flag = flag ∧
      Commands.removePrefix (Str.lit "input_boolean.") (Str.lit "input_boolean." ++ flag) = flag := by
    decide
  obtain ⟨hmem, hne, hbare, halias⟩ := hkeys flag hflag
  have hkey : Commands.removePrefix (Str.lit "input_boolean.") entity.strip = flag := by
    rcases hnames with h | h
    · rw [h, hbare]
    · rw [h, halias]
  have hnonempty : entity.strip.isEmpty = false := by
    rcases hnames with h | h
    · rw [h]
      exact List.isEmpty_eq_false_iff.mpr hne
    · rw [h]
      rfl
  unfold Commands.controlFlagKey
  dsimp only
  rw [hkey, hnonempty, if_pos (by simpa using hmem)]

theorem dispatchToggle_flag {s : Client} {now later : ℚ} {data : Object} {entity flag : Str}
    (hentity : data.getD entityKey = .str entity) (hflag : flag ∈ controlFlagKeys)
    (hnames : NamesFlag entity flag) :
    s.dispatchToggle now later data =
      publishCommand "toggle" ((entityKey, .str flag) :: entryOf (Str.lit "state") data) := by
  have hne : entity.isEmpty = false := by
    cases entity with
    | nil =>
      exfalso
      have hkeys : ∀ flag ∈ controlFlagKeys, ¬ NamesFlag [] flag := by
        intro flag hflag hnames
        rcases hnames with h | h
        · have hnil : flag = [] := h.symm
          rw [hnil] at hflag
          exact absurd hflag (by decide)
        · cases h
      exact hkeys flag hflag hnames
    | cons c entity => rfl
  unfold Client.dispatchToggle
  rw [hentity]
  dsimp only
  rw [hne, controlFlagKey_of_names hflag hnames]
  rfl

/-! ## Actions of a browser -/

/-- A post that a browser may cause by a message. -/
structure Authorised (c : Config) (polls : List Poll) (later : ℚ) (message : Value)
    (domain service : Str) (body : List (Str × Value)) : Prop where
  direct : c.isDirectMode = true
  fresh : FreshPoll polls later
  permitted : ∃ members action entity, message = .dict members ∧
    Object.getD (Dict.ofList members) (Str.lit "action") = .str action ∧
    Object.getD (Dict.ofList members) entityKey = .str entity ∧ domain = domainOf entity ∧
    Permitted (Client.after c polls) action entity service body

/-- **Posts to Home Assistant are authorised, and none is about a control flag.** -/
theorem service_posts_authorised (c : Config) (polls : List Poll) (rounds : Nat) (now later : ℚ)
    (message : Value) :
    (∀ domain service body,
      (Client.after c polls).handle rounds now later message =
          some (.servicePost domain service body) →
        Authorised c polls later message domain service body) ∧
      ∀ members entity flag effect, message = .dict members →
        Object.getD (Dict.ofList members) (Str.lit "action") = .str (Str.lit "toggle") →
        Object.getD (Dict.ofList members) entityKey = .str entity →
        flag ∈ controlFlagKeys → NamesFlag entity flag →
        (Client.after c polls).handle rounds now later message = some effect →
          ∃ payload, effect = .command (.publish (Str.lit "toggle")
            ((entityKey, .str flag) :: payload)) := by
  refine ⟨fun domain service body h => ?_, ?_⟩
  · unfold Client.handle at h
    split at h
    · next members =>
      dsimp only at h
      split at h
      · obtain ⟨action, entity, haction, hentity, hlive, service', body', heq, hpermitted⟩ :=
          dispatchAction_permitted h
        obtain ⟨rfl, rfl, rfl⟩ := Effect.servicePost.inj heq
        obtain ⟨hdirect, hfresh⟩ := controlsAvailable_after hlive
        exact ⟨hdirect, hfresh, members, action, entity, rfl, haction, hentity, rfl, hpermitted⟩
      · cases h
    · cases h
  · intro members entity flag effect hmessage haction hentity hflag hnames h
    subst hmessage
    unfold Client.handle at h
    dsimp only at h
    rw [haction] at h
    split at h
    · have hroute : (Client.after c polls).dispatchAction rounds now later
          (.str (Str.lit "toggle")) (Dict.ofList members) =
            (Client.after c polls).dispatchToggle now later (Dict.ofList members) := rfl
      rw [hroute, dispatchToggle_flag hentity hflag hnames] at h
      exact ⟨entryOf (Str.lit "state") (Dict.ofList members), (Option.some.inj h).symm⟩
    · cases h

/-- A lamp, a number and a poll that shows it. -/
def lampAndNumber : Config where
  configured := true
  direct := true
  booleanEntities := Dict.empty
  switchEntities := ⟨[(Str.lit "lamp", .str (Str.lit "light.lamp"))], by decide⟩
  applianceEntities := Dict.empty
  sensorEntities := Dict.empty
  filteredEntities := ⟨[(Str.lit "numbers", [.str (Str.lit "number.amps")])], by decide⟩

def shownNumber : Poll where
  mono := 100
  data := ⟨[(connectedKey, .bool true), (filteredKey, .dict [(Str.lit "numbers",
    .list [.dict [(entityIdKey, .str (Str.lit "number.amps")), (Str.lit "min", .float (.fin 6)),
      (Str.lit "max", .float (.fin 32))]])])], by decide⟩

/-- A number within its bounds is posted, and a flag is published. -/
theorem service_posts_authorised_number :
    Authorised lampAndNumber [shownNumber] 130
        (.dict [(Str.lit "action", .str (Str.lit "number_set")),
          (entityKey, .str (Str.lit "number.amps")), (valueKey, .float (.fin 16))])
        (Str.lit "number") (Str.lit "set_value")
        [(entityIdKey, .str (Str.lit "number.amps")), (valueKey, .float (.fin 16))] ∧
      ∃ payload, (Client.after lampAndNumber [shownNumber]).handle 0 120 130
        (.dict [(Str.lit "action", .str (Str.lit "toggle")),
          (entityKey, .str (Str.lit "input_boolean.no_feed"))]) =
            some (.command (.publish (Str.lit "toggle")
              ((entityKey, .str (Str.lit "no_feed")) :: payload))) := by
  refine ⟨(service_posts_authorised lampAndNumber [shownNumber] 0 120 130 _).1 _ _ _
    (by with_unfolding_all rfl), ?_⟩
  obtain ⟨payload, h⟩ := (service_posts_authorised lampAndNumber [shownNumber] 0 120 130
    (.dict [(Str.lit "action", .str (Str.lit "toggle")),
      (entityKey, .str (Str.lit "input_boolean.no_feed"))])).2 _
    (Str.lit "input_boolean.no_feed") (Str.lit "no_feed") _ rfl (by rfl) (by rfl) (by decide)
    (Or.inr (by decide)) (by rfl)
  exact ⟨payload, congrArg some h⟩

end InverterDashboard.HomeAssistant
