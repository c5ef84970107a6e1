import InverterDashboard.Notifications.Banners
import InverterDashboard.Server.CommandChecks

/-
  `on_message`: an MQTT message from its topic to the callback that broadcasts the state.

  Each route of a message tells in its own way whether anything changed: some always broadcast,
  the native route compares the state with a copy, the platform route compares the banner list,
  the alarm route its length. Whatever the route, a message after which `get_state` or
  `get_notifications` returns something else is broadcast (`changes_broadcast`).

  A clock is read once for each message. What `get_state` returns is `shownState`: the expiry of
  the controller, which a read may find, is not part of a message.
-/

namespace InverterDashboard.Server

open Python Cerbo Controller Notifications

/-! ## Sources -/

/-- The desktop shape of a camera event. -/
structure CameraEvent where
  camera : Str
  url : Str
  ts : Str

/-- The `MqttState` object as a whole: telemetry, banners and the last camera event. -/
structure Source where
  mqtt : MqttState
  board : Board
  cameraEvent : Option CameraEvent

/-- The payload of a message as the handlers decode it, each on its own. -/
structure Decodings where
  /-- `json.loads(payload)`. -/
  loaded : Payload
  /-- `json.loads(payload.decode())`. -/
  decoded : Payload
  /-- The same, with `parse_float`. -/
  body : Body
  /-- `payload.decode()`; `none` for bytes that are not UTF-8. -/
  text : Option Str
  /-- `payload.decode(errors="replace")`. -/
  replaced : Str

structure Message where
  topic : Str
  payload : Decodings
  retained : Bool

/-- What the program is configured with, and the Unicode database. -/
structure Site where
  cfg : Config
  unicode : Unicode
  /-- `config.CAMERA_TOPIC and fnmatch(topic, …)`. -/
  isCamera : Str → Bool

/-- What a handler leaves: the source and, unless it raised, whether it called back. -/
structure Handled where
  source : Source
  emitted : Option Bool

/-! ## Handlers -/

namespace Source

/-- An operation on the telemetry, after which the callback is called. -/
def emits (s : Source) (c : Call Unit) : Handled :=
  ⟨{ s with mqtt := c.state }, c.result.map fun _ => true⟩

/-- `_handle_daemon_message`. -/
def handleDaemonMessage (site : Site) (clock : Clock) (m : Message) (s : Source) : Handled :=
  match m.payload.decoded with
  | .malformed => ⟨s, none⟩
  | .empty => s.emits (clearDaemonState site.cfg s.mqtt)
  | .json .none => s.emits (clearDaemonState site.cfg s.mqtt)
  | .json (.dict es) =>
    s.emits (mergeDaemonState site.cfg clock (Dict.ofList es) m.retained s.mqtt)
  | .json _ => ⟨s, some false⟩

/-- The `inverter/setpoint_override` branch of `_dispatch_mqtt_message`. -/
def handleOverride (clock : Clock) (m : Message) (s : Source) : Handled :=
  let observed := fun v =>
    s.emits (observe clock (Dict.empty.set (Str.lit "setpoint_override") v) m.retained s.mqtt)
  match m.payload.loaded with
  | .malformed => ⟨s, none⟩
  | .empty => observed .none
  | .json v => observed v

/-- `payload.decode().strip().strip('"')`. -/
def portalText (text : Str) : Str :=
  let isQuote := fun c : CodePoint => c = CodePoint.ofChar '"'
  ((text.strip.dropWhile isQuote).reverse.dropWhile isQuote).reverse

/-- The `inverter/portal` branch. -/
def handlePortal (m : Message) (s : Source) : Handled :=
  match m.payload.text with
  | none => ⟨s, none⟩
  | some text => ⟨{ s with mqtt := discoverPortal (portalText text) s.mqtt }, some false⟩

/-- The `inverter/notifications` branch. -/
def handleNotification (site : Site) (m : Message) (s : Source) : Handled :=
  match m.payload.decoded with
  | .json data =>
    ⟨{ s with board := s.board.pushNotification site.unicode .program data }, some true⟩
  | _ => ⟨s, none⟩

/-- `mqtt_handle_platform_notification`, with its answer. -/
def handlePlatform (m : Message) (s : Source) : Handled :=
  let board := s.board.handlePlatformNotification .program m.topic m.payload.body
  -- Fields arrive separately: an update must reach browsers even when the banner's id has not
  -- changed.
  ⟨{ s with board := board }, some ((Board.platformLeaf m.topic m.payload.body).isSome &&
    s.board.notifications ≠ board.notifications)⟩

/-- The answer of `handle_alarm` to a report. -/
def alarmAnswer (b : Board) (r : Board.AlarmReport) : Bool :=
  if (b.alarmValues.get? r.topic).getD 0 = r.value then false
  else if r.value = 1 ∨ r.value = 2 then true
  else (b.removeId r.nid).notifications.length ≠ b.notifications.length

/-- `handle_alarm`, with its answer. -/
def handleAlarm (site : Site) (m : Message) (s : Source) : Handled :=
  ⟨{ s with board := s.board.handleAlarm site.unicode .program m.topic m.payload.body },
    some ((Board.messageReport site.unicode m.topic m.payload.body).any (alarmAnswer s.board))⟩

/-- `handle_camera_event`. -/
def handleCameraEvent (site : Site) (m : Message) (s : Source) : Source :=
  let url := fun text => CameraEvent.mk (Str.lit "Camera") text []
  { s with cameraEvent := some (match m.payload.decoded with
    | .json (.dict es) =>
      { camera := (Value.member (Str.lit "agent_name") es).textOr site.unicode (Str.lit "Camera")
        url := (Value.member (Str.lit "video_url") es).textOr site.unicode []
        ts := (Value.member (Str.lit "timestamp") es).textOr site.unicode [] }
    | .json data => url (data.text site.unicode)
    -- Raw text is a direct stream or snapshot URL.
    | _ => url m.payload.replaced) }

/-- `_handle_cerbo_device`, with its answer. -/
def handleDevice (site : Site) (clock : Clock) (m : Message) (s : Source) : Handled :=
  let c := handleCerboDevice site.cfg clock m.topic m.payload.loaded m.retained s.mqtt
  ⟨{ s with mqtt := c.state }, c.result⟩

/-- `_apply_native_message`. -/
def applyNativeMessage (site : Site) (clock : Clock) (m : Message) (s : Source) : Handled :=
  if (Str.lit "/platform/").contains m.topic && (Str.lit "/Notifications/").contains m.topic then
    s.handlePlatform m
  else if (Str.lit "/Alarms/").contains m.topic then
    -- Raw alarms are suppressed once the platform sends notifications.
    if s.board.platformSeen then ⟨s, some false⟩ else s.handleAlarm site m
  else if site.isCamera m.topic then
    let s := s.handleCameraEvent site m
    ⟨s, some s.cameraEvent.isSome⟩
  else if (Str.lit "N/").isPrefixOf m.topic then s.handleDevice site clock m
  else ⟨s, some false⟩

/-- `_dispatch_mqtt_message`. -/
def dispatchMqttMessage (site : Site) (clock : Clock) (m : Message) (s : Source) : Handled :=
  if m.topic = Str.lit "inverter/state" then s.handleDaemonMessage site clock m
  else if m.topic = Str.lit "inverter/setpoint_override" then s.handleOverride clock m
  else if m.topic = Str.lit "inverter/portal" then s.handlePortal m
  else if m.topic = Str.lit "inverter/notifications" then s.handleNotification site m
  else s.applyNativeMessage site clock m

/-- `on_message`. -/
def onMessage (site : Site) (clock : Clock) (m : Message) (s : Source) : Handled :=
  let selected := nativeTopicSelected m.topic m.payload.loaded s.mqtt
  let s := { s with mqtt := selected.1 }
  if selected.2 then s.dispatchMqttMessage site clock m else ⟨s, some false⟩

end Source

/-! ## What a reader sees -/

/-- Objects a reader cannot tell apart: under every key identical or equal values, as Python
    compares them. -/
def SameObject (a b : Object) : Prop :=
  ∀ k, a.get? k = b.get? k ∨
    ∃ v w, a.get? k = some v ∧ b.get? k = some w ∧ Value.eqv v w = true

theorem sameObject_refl (a : Object) : SameObject a a := fun _ => Or.inl rfl

theorem SameObject.set {a b : Object} (h : SameObject a b) (k : Str) (v : Value) :
    SameObject (a.set k v) (b.set k v) := by
  intro x
  rw [Dict.get?_set, Dict.get?_set]
  by_cases hx : x = k
  · rw [if_pos hx, if_pos hx]
    exact Or.inl rfl
  · rw [if_neg hx, if_neg hx]
    exact h x

theorem SameObject.isSome {a b : Object} (h : SameObject a b) (k : Str) :
    (a.get? k).isSome = (b.get? k).isSome := by
  rcases h k with heq | ⟨v, w, hv, hw, -⟩
  · rw [heq]
  · rw [hv, hw]
    rfl

theorem SameObject.isEmpty {a b : Object} (h : SameObject a b) : a.isEmpty = b.isEmpty := by
  cases ha : a.isEmpty with
  | false =>
    obtain ⟨k, v, hv⟩ := Dict.exists_get?_of_isEmpty ha
    have hk := h.isSome k
    rw [hv] at hk
    cases hb : b.isEmpty with
    | false => rfl
    | true =>
      rw [Dict.get?, List.isEmpty_iff.mp hb] at hk
      cases hk
  | true =>
    cases hb : b.isEmpty with
    | true => rfl
    | false =>
      obtain ⟨k, v, hv⟩ := Dict.exists_get?_of_isEmpty hb
      have hk := h.isSome k
      rw [hv, Dict.get?, List.isEmpty_iff.mp ha] at hk
      cases hk

theorem find_of_eqvMembers {es fs : List (Str × Value)} (h : Value.eqvMembers es fs = true)
    {k : Str} {v : Value} (hmem : (k, v) ∈ es) :
    ∃ w, Dict.find k fs = some w ∧ Value.eqv v w = true := by
  induction es with
  | nil => cases hmem
  | cons e es ih =>
    unfold Value.eqvMembers at h
    rw [Bool.and_eq_true] at h
    rcases List.mem_cons.mp hmem with rfl | hmem
    · cases hfind : Dict.find k fs with
      | none =>
        have hhead := h.1
        simp only [hfind] at hhead
        cases hhead
      | some w =>
        have hhead := h.1
        simp only [hfind] at hhead
        exact ⟨w, rfl, hhead⟩
    · exact ih h.2 hmem

/-- Objects that are `==` look the same: each key of one is a key of the other, and there are
    equally many. -/
theorem sameObject_of_eqv {a b : Object} (h : Object.eqv a b = true) : SameObject a b := by
  unfold Object.eqv Value.eqv at h
  simp only [Bool.and_eq_true, decide_eq_true_eq] at h
  obtain ⟨hlength, hmembers⟩ := h
  have hsub : a.keys ⊆ b.keys := by
    intro k hk
    obtain ⟨v, hv⟩ := Option.isSome_iff_exists.mp (Dict.mem_keys.mp hk)
    obtain ⟨w, hw, -⟩ := find_of_eqvMembers hmembers (Dict.mem_entries.mpr hv)
    exact Dict.mem_keys.mpr (Option.isSome_iff_exists.mpr ⟨w, hw⟩)
  have hperm : a.keys.Perm b.keys := by
    refine (a.nodup_keys.subperm hsub).perm_of_length_le ?_
    unfold Dict.keys
    rw [List.length_map, List.length_map, hlength]
  intro k
  cases hk : a.get? k with
  | some v =>
    obtain ⟨w, hw, heqv⟩ := find_of_eqvMembers hmembers (Dict.mem_entries.mpr hk)
    exact Or.inr ⟨v, w, rfl, hw, heqv⟩
  | none =>
    refine Or.inl ?_
    have hnot : k ∉ b.keys := by
      intro hmem
      have hka := Dict.mem_keys.mp (hperm.mem_iff.mpr hmem)
      rw [hk] at hka
      cases hka
    cases hb : b.get? k with
    | none => rfl
    | some w => exact absurd (Dict.mem_keys.mpr (by rw [hb]; rfl)) hnot

/-- What a source returns to its readers: `get_state` and `get_notifications`. -/
structure View where
  state : Object
  notifications : List Banner

def Source.view (s : Source) : View := ⟨shownState s.mqtt, s.board.notifications⟩

def View.Same (a b : View) : Prop := SameObject a.state b.state ∧ a.notifications = b.notifications

/-- What `get_state` reads besides `current_state`. -/
structure Stamps where
  essMode : Option Object
  essTime : Option ℚ
  overrideTime : Option ℚ
  tariffTime : Option ℚ

def MqttState.stamps (s : MqttState) : Stamps where
  essMode := s.controllerEssMode
  essTime := s.essModeObservedAt
  overrideTime := s.setpointOverrideObservedAt
  tariffTime := s.electricityTariffObservedAt

/-- `get_state` keeps two states apart only if they differ in what it reads. -/
theorem sameObject_shownState {s' s : MqttState}
    (hcurrent : SameObject s'.currentState s.currentState) (hstamps : s'.stamps = s.stamps) :
    SameObject (shownState s') (shownState s) := by
  have hmode : s'.controllerEssMode = s.controllerEssMode := congrArg Stamps.essMode hstamps
  have hess : s'.essModeObservedAt = s.essModeObservedAt := congrArg Stamps.essTime hstamps
  have hoverride : s'.setpointOverrideObservedAt = s.setpointOverrideObservedAt :=
    congrArg Stamps.overrideTime hstamps
  have htariff : s'.electricityTariffObservedAt = s.electricityTariffObservedAt :=
    congrArg Stamps.tariffTime hstamps
  unfold shownState
  rw [hmode, hess, hoverride, htariff]
  extract_lets result' time result
  have hresult : SameObject result' result := by
    unfold result' result
    split
    · split
      · exact hcurrent.set _ _
      · exact hcurrent
    · exact hcurrent
  rw [hresult.isEmpty]
  split
  · exact hresult
  · exact ((hresult.set _ _).set _ _).set _ _

/-! ## The native route -/

/-- Steps that touch nothing `get_state` reads. -/
def Unshown (s' s : MqttState) : Prop := s'.currentState = s.currentState ∧ s'.stamps = s.stamps

theorem Unshown.trans {s s' s'' : MqttState} (h' : Unshown s'' s') (h : Unshown s' s) :
    Unshown s'' s :=
  ⟨h'.1.trans h.1, h'.2.trans h.2⟩

theorem Unshown.shownState_eq {s' s : MqttState} (h : Unshown s' s) :
    shownState s' = shownState s := by
  have hmode : s'.controllerEssMode = s.controllerEssMode := congrArg Stamps.essMode h.2
  have hess : s'.essModeObservedAt = s.essModeObservedAt := congrArg Stamps.essTime h.2
  have hoverride : s'.setpointOverrideObservedAt = s.setpointOverrideObservedAt :=
    congrArg Stamps.overrideTime h.2
  have htariff : s'.electricityTariffObservedAt = s.electricityTariffObservedAt :=
    congrArg Stamps.tariffTime h.2
  unfold shownState
  rw [h.1, hmode, hess, hoverride, htariff]

theorem unshown_selected (topic : Str) (payload : Payload) (s : MqttState) :
    Unshown (nativeTopicSelected topic payload s).1 s := by
  obtain ⟨portal, hportal⟩ := nativeTopicSelected_fst topic payload s
  rw [hportal]
  exact ⟨rfl, rfl⟩

theorem unshown_discover (portal : Str) (s : MqttState) : Unshown (discoverPortal portal s) s := by
  unfold discoverPortal
  split
  · exact ⟨rfl, rfl⟩
  · exact ⟨rfl, rfl⟩

theorem unshown_supersede (kind : Kind) (inst path : Str) (s : MqttState) :
    Unshown (supersedeMode kind inst path s) s := by
  unfold supersedeMode
  split
  · exact ⟨rfl, rfl⟩
  · exact ⟨rfl, rfl⟩

/-- Storing or removing a leaf shows nothing before the refresh. -/
theorem unshown_payload {cfg : Config} {clock : Clock} {kind : Kind} {inst path : Str}
    {payload : Payload} {retained : Bool} {s s' : MqttState}
    (h : applyNativePayload cfg clock kind inst path payload retained s = some s') :
    Unshown s' s := by
  have hstore : ∀ payload, storeCerboLeaf cfg clock kind inst path payload retained s = some s' →
      Unshown s' s := by
    intro payload h
    obtain ⟨value, -, rfl⟩ := Option.map_eq_some_iff.mp h
    exact ⟨rfl, rfl⟩
  cases payload with
  | empty =>
    obtain ⟨devices, -, rfl⟩ := Option.map_eq_some_iff.mp h
    exact ⟨rfl, rfl⟩
  | malformed => exact hstore _ h
  | json v => exact hstore _ h

theorem stamps_apply (cfg : Config) (s : MqttState) :
    (applyCerboOverlays cfg s).state.stamps = s.stamps := by
  unfold applyCerboOverlays
  split
  · rfl
  · rfl

/-- The refresh answers `False` only of a state that compared equal to its copy. -/
theorem refresh_silent {cfg : Config} {clock : Clock} {s : MqttState}
    (h : (refreshNativeMqttState cfg clock s).result = some false) :
    SameObject (shownState (refreshNativeMqttState cfg clock s).state) (shownState s) := by
  have hstamps := stamps_apply cfg (noteNativeObservation (Str.lit "mqtt") clock s)
  unfold refreshNativeMqttState Call.andThen at h ⊢
  dsimp only at h ⊢
  split at h
  · split at h
    · cases h
    · next hsilent =>
      rw [if_neg hsilent]
      rw [Bool.or_eq_true, not_or, Bool.not_eq_true, Bool.not_eq_false'] at hsilent
      exact sameObject_shownState (sameObject_of_eqv hsilent.1) hstamps
  · cases h

theorem device_silent {cfg : Config} {clock : Clock} {topic : Str} {payload : Payload}
    {retained : Bool} {s : MqttState}
    (h : (handleCerboDevice cfg clock topic payload retained s).result = some false) :
    SameObject (shownState (handleCerboDevice cfg clock topic payload retained s).state)
      (shownState s) := by
  unfold handleCerboDevice at h ⊢
  split
  · exact sameObject_refl _
  · next kind inst path htopic =>
    rw [htopic] at h
    dsimp only at h ⊢
    have hsupersede := unshown_supersede kind inst path s
    split
    · rw [hsupersede.shownState_eq]
      exact sameObject_refl _
    · next s' hs' =>
      rw [hs'] at h
      have hs : Unshown s' s := (unshown_payload hs').trans hsupersede
      rw [← hs.shownState_eq]
      exact refresh_silent h

/-! ## The banner routes -/

/-- The platform route compares the list with a copy of it. -/
theorem platform_silent {m : Message} {s : Source}
    (h : (s.handlePlatform m).emitted = some false) :
    (s.handlePlatform m).source.board.notifications = s.board.notifications := by
  unfold Source.handlePlatform at h ⊢
  dsimp only at h ⊢
  rw [Option.some.injEq, Bool.and_eq_false_iff] at h
  rcases h with hleaf | hsame
  · unfold Board.handlePlatformNotification
    rw [Option.isSome_eq_false_iff, Option.isNone_iff_eq_none] at hleaf
    rw [hleaf]
  · rw [decide_eq_false_iff_not, not_not] at hsame
    exact hsame.symm

/-- A banner leaves a filtered list only if the list gets shorter. -/
theorem notifications_removeId {b : Board} {nid : Str}
    (h : (b.removeId nid).notifications.length = b.notifications.length) :
    (b.removeId nid).notifications = b.notifications :=
  List.filter_eq_self.mpr (List.length_filter_eq_length_iff.mp h)

theorem setAlarm_silent {u : Unicode} {b : Board} {r : Board.AlarmReport}
    (h : Source.alarmAnswer b r = false) :
    (b.setAlarm u .program r).notifications = b.notifications := by
  unfold Source.alarmAnswer at h
  unfold Board.setAlarm
  split at h
  · next hsame => rw [if_pos hsame]
  · next hnew =>
    rw [if_neg hnew]
    split at h
    · cases h
    · next hcleared =>
      rw [if_neg hcleared]
      exact notifications_removeId (b := b) (by simpa using h)

theorem alarm_silent {site : Site} {m : Message} {s : Source}
    (h : (s.handleAlarm site m).emitted = some false) :
    (s.handleAlarm site m).source.board.notifications = s.board.notifications := by
  unfold Source.handleAlarm at h ⊢
  dsimp only at h ⊢
  unfold Board.handleAlarm
  cases hreport : Board.messageReport site.unicode m.topic m.payload.body with
  | none => rfl
  | some r =>
    rw [hreport] at h
    exact setAlarm_silent (Option.some.inj h)

/-! ## Every route -/

/-- A handler that does not call back shows nothing new. -/
def Silent (s : Source) (r : Handled) : Prop :=
  r.emitted = some false → r.source.view.Same s.view

theorem silent_emits (s : Source) (c : Call Unit) : Silent s (s.emits c) := by
  intro h
  obtain ⟨_, -, htrue⟩ := Option.map_eq_some_iff.mp h
  cases htrue

theorem silent_daemon (site : Site) (clock : Clock) (m : Message) (s : Source) :
    Silent s (s.handleDaemonMessage site clock m) := by
  unfold Source.handleDaemonMessage
  split
  · intro h
    cases h
  · exact silent_emits s _
  · exact silent_emits s _
  · exact silent_emits s _
  · exact fun _ => ⟨sameObject_refl _, rfl⟩

theorem silent_override (clock : Clock) (m : Message) (s : Source) :
    Silent s (s.handleOverride clock m) := by
  unfold Source.handleOverride
  extract_lets observed
  split
  · intro h
    cases h
  · exact silent_emits s _
  · exact silent_emits s _

theorem silent_portal (m : Message) (s : Source) : Silent s (s.handlePortal m) := by
  unfold Source.handlePortal
  split
  · intro h
    cases h
  · next text _ =>
    intro _
    refine ⟨?_, rfl⟩
    show SameObject (shownState (discoverPortal _ s.mqtt)) (shownState s.mqtt)
    rw [(unshown_discover _ s.mqtt).shownState_eq]
    exact sameObject_refl _

theorem silent_notification (site : Site) (m : Message) (s : Source) :
    Silent s (s.handleNotification site m) := by
  unfold Source.handleNotification
  intro h
  split at h
  · cases h
  · cases h

theorem silent_native (site : Site) (clock : Clock) (m : Message) (s : Source) :
    Silent s (s.applyNativeMessage site clock m) := by
  unfold Source.applyNativeMessage
  split
  · exact fun h => ⟨sameObject_refl _, platform_silent h⟩
  · split
    · split
      · exact fun _ => ⟨sameObject_refl _, rfl⟩
      · exact fun h => ⟨sameObject_refl _, alarm_silent h⟩
    · split
      · intro h
        cases h
      · split
        · exact fun h => ⟨device_silent h, rfl⟩
        · exact fun _ => ⟨sameObject_refl _, rfl⟩

theorem silent_dispatch (site : Site) (clock : Clock) (m : Message) (s : Source) :
    Silent s (s.dispatchMqttMessage site clock m) := by
  unfold Source.dispatchMqttMessage
  split
  · exact silent_daemon site clock m s
  · split
    · exact silent_override clock m s
    · split
      · exact silent_portal m s
      · split
        · exact silent_notification site m s
        · exact silent_native site clock m s

theorem silent_onMessage (site : Site) (clock : Clock) (m : Message) (s : Source) :
    Silent s (s.onMessage site clock m) := by
  have hselected := unshown_selected m.topic m.payload.loaded s.mqtt
  -- The choice of the portal is not shown, so the view before it is the view before the message.
  have hview : Source.view { s with mqtt := (nativeTopicSelected m.topic m.payload.loaded s.mqtt).1 }
      = s.view := by
    unfold Source.view
    rw [hselected.shownState_eq]
  unfold Source.onMessage
  extract_lets selected t
  split
  · intro h
    rw [← hview]
    exact silent_dispatch site clock m t h
  · intro _
    rw [hview]
    exact ⟨sameObject_refl _, rfl⟩

/-- No route swallows a visible change: whatever the source and the message, if handling does not
    raise and readers see something else afterwards, the callback was called. -/
theorem changes_broadcast {site : Site} {clock : Clock} {m : Message} {s : Source}
    (hreturns : (s.onMessage site clock m).emitted.isSome = true)
    (hchanged : ¬ (s.onMessage site clock m).source.view.Same s.view) :
    (s.onMessage site clock m).emitted = some true := by
  obtain ⟨emitted, hemitted⟩ := Option.isSome_iff_exists.mp hreturns
  cases emitted with
  | true => exact hemitted
  | false => exact absurd (silent_onMessage site clock m s hemitted) hchanged

/-- A raw alarm of a battery, sent to a new source. -/
def batteryAlarm : Message where
  topic := Str.lit "N/p/battery/512/Alarms/LowVoltage"
  payload :=
    { loaded := .json (.dict [(Str.lit "value", .int 2)])
      decoded := .json (.dict [(Str.lit "value", .int 2)])
      body := .object (some (.value (.int 2)))
      text := some (Str.lit "\x7b\"value\": 2\x7d")
      replaced := Str.lit "\x7b\"value\": 2\x7d" }
  retained := false

def newSource : Source := ⟨MqttState.init (Str.lit "p"), Board.init, none⟩

def plainSite : Site := ⟨Config.default, Unicode.ascii, fun _ => false⟩

theorem changes_broadcast_alarm :
    (newSource.onMessage plainSite ⟨0, 0⟩ batteryAlarm).emitted = some true := by
  refine changes_broadcast (by decide +kernel) fun h => ?_
  have hcount : (newSource.onMessage plainSite ⟨0, 0⟩
      batteryAlarm).source.view.notifications.length = 1 := by decide +kernel
  rw [h.2] at hcount
  cases hcount

end InverterDashboard.Server
