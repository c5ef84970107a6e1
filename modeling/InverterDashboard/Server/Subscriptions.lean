import InverterDashboard.Mqtt.Filters
import InverterDashboard.Server.Routes
import InverterDashboard.Temporal.Trace

/-
  What an MQTT session subscribes to, and what it misses.

  `on_message` could act on more topics than a session asks for. `missed_iff` says which: alarms at
  an unusual place and camera topics that only `fnmatch` accepts. On other topics a broker that
  forwards what the filters select loses nothing, once the portal is known (`session_lossless`).
-/

namespace InverterDashboard.Server

open Python Cerbo Controller Notifications Mqtt Temporal

/-! ## Filters -/

/-- The topics of the program itself. -/
def fixedTopics : List Str :=
  [Str.lit "inverter/state", Str.lit "inverter/portal", Str.lit "inverter/notifications",
    Str.lit "inverter/setpoint_override"]

def discoveryTopics : List Str :=
  [Str.lit "N/+/system/+/Serial", Str.lit "N/+/heartbeat", Str.lit "N/+/keepalive"]

/-- `_subscribe_portal_topics`. -/
def portalTopics (portal : Str) : List Str :=
  let below := fun text : String => Str.lit "N/" ++ portal ++ Str.lit text
  cerboKinds.map (fun kind => below "/" ++ kind.name ++ Str.lit "/+/#") ++
    [below "/platform/+/Notifications/#", below "/+/Alarms/#", below "/+/+/Alarms/#"]

section Sessions

-- `CERBO_PORTAL_ID` and `CAMERA_TOPIC`, empty when they are not configured
variable (site : Site) (configured camera : Str)

/-- `_subscribe_topics`. -/
def subscribeTopics (portalId : Str) : List Str :=
  let portal := if portalId.isEmpty then configured else portalId
  fixedTopics ++ (if camera.isEmpty then [] else [camera]) ++
    if portal.isEmpty then discoveryTopics else portalTopics portal

structure Session where
  source : Source
  connected : Bool
  filters : List Str

namespace Session

/-- A new source. -/
def start : Session := ⟨⟨MqttState.init configured, Board.init, none⟩, false, []⟩

/-- The state of another session is cleared; a clearing that raises ends the session. -/
def clear (w : Session) : Session × Bool :=
  let daemon := clearDaemonState site.cfg w.source.mqtt
  match daemon.result with
  | none => ({ w with source := { w.source with mqtt := daemon.state } }, false)
  | some () =>
    let cerbo := clearCerboState site.cfg daemon.state
    match cerbo.result with
    | none => ({ w with source := { w.source with mqtt := cerbo.state } }, false)
    | some () =>
      let source := { w.source with mqtt := cerbo.state, board := w.source.board.clearNativeState }
      ({ w with source := source }, true)

/-- `_prepare_mqtt_session`. -/
def connect (w : Session) : Session :=
  let cleared := w.clear site
  if cleared.2 then
    let portalId := cleared.1.source.mqtt.portalId
    { cleared.1 with
      connected := true
      filters := subscribeTopics configured camera portalId }
  else { cleared.1 with connected := false, filters := [] }

/-- `_finish_mqtt_session`. -/
def disconnect (w : Session) : Session :=
  { (w.clear site).1 with connected := false, filters := [] }

/-- A message for `on_message`, which subscribes to the topics of a portal that it discovers. -/
def receive (w : Session) (clock : Clock) (m : Message) : Session :=
  let source := (w.source.onMessage site clock m).source
  { w with
    source := source
    filters :=
      if w.source.mqtt.portalId.isEmpty && !source.mqtt.portalId.isEmpty then
        w.filters ++ portalTopics source.mqtt.portalId
      else w.filters }

end Session

inductive SessionOp where
  | connect | disconnect
  | published (clock : Clock) (m : Message)

/-- Which messages reach a session, by its filters. -/
def sessionStep (reaches : List Str → Str → Bool) (w : Session) : SessionOp → Session
  | .connect => w.connect site configured camera
  | .disconnect => w.disconnect site
  | .published clock m =>
    if w.connected && reaches w.filters m.topic then w.receive site clock m else w

/-- A broker forwards a message once. -/
def forwards (filters : List Str) (topic : Str) : Bool := filters.any fun f => selects f topic

def brokerStep : Session → SessionOp → Session := sessionStep site configured camera forwards

/-- Every message reaches a session. -/
def idealStep : Session → SessionOp → Session :=
  sessionStep site configured camera fun _ _ => true

end Sessions

/-! ## What the filters select -/

/-- The parts of a text that begins with a whole part. -/
theorem splitSlash_cons {a : Str} (h : slash ∉ a) (b : Str) :
    (a ++ slash :: b).splitSlash = a :: b.splitSlash :=
  List.splitOn_append_cons_self_of_not_mem h _

section Filters

variable {portal topic : Str}

/-- A filter below a portal. -/
theorem levels_below (hslash : slash ∉ portal) (hname : isTopicName portal = true) (rest : Str) :
    levels (Str.lit "N/" ++ portal ++ slash :: rest) =
      .name (Str.lit "N") :: .name portal :: levels rest := by
  have htext : Str.lit "N/" ++ portal ++ slash :: rest =
      Str.lit "N" ++ slash :: (portal ++ slash :: rest) := by
    simp [Str.lit, slash]
  unfold levels
  rw [htext, splitSlash_cons (by decide), splitSlash_cons hslash, List.map_cons, List.map_cons,
    ofText_name hname, ofText_name (by decide)]

/-- A filter below the portal of a topic. -/
theorem forwards_below {filters : List Str} {rest : Str} {parts : List Str}
    (hname : isTopicName topic = true) (hsplit : topic.splitSlash = Str.lit "N" :: portal :: parts)
    (hmem : Str.lit "N/" ++ portal ++ slash :: rest ∈ filters)
    (hmatches : Matches (levels rest) parts) : forwards filters topic = true := by
  have hportal : portal ∈ topic.splitSlash := by
    rw [hsplit]
    simp
  have hlevels := levels_below (mem_of_mem_splitOn hportal).1 (isTopicName_part hname hportal) rest
  refine List.any_eq_true.mpr ⟨_, hmem, ?_⟩
  rw [selects_iff (by rw [hlevels]; rfl), hlevels, hsplit]
  exact .name _ (.name _ hmatches)

theorem forwards_device {kind : Kind} {inst : Str} {rest : List Str}
    (hname : isTopicName topic = true)
    (hsplit : topic.splitSlash = Str.lit "N" :: portal :: kind.name :: inst :: rest) :
    forwards (portalTopics portal) topic = true := by
  have hmem : Str.lit "N/" ++ portal ++ slash :: (kind.name ++ Str.lit "/+/#") ∈
      portalTopics portal := by
    unfold portalTopics
    refine List.mem_append_left _ (List.mem_map.mpr ⟨kind, Kind.mem_cerboKinds kind, ?_⟩)
    simp [Str.lit, slash]
  have hlevels : levels (kind.name ++ Str.lit "/+/#") = [.name kind.name, .one, .rest] := by
    cases kind <;> decide
  refine forwards_below hname hsplit hmem ?_
  rw [hlevels]
  exact .name _ (.one _ (.rest _))

theorem forwards_platform {inst slot field : Str} (hname : isTopicName topic = true)
    (hsplit : topic.splitSlash = [Str.lit "N", portal, Str.lit "platform", inst,
      Str.lit "Notifications", slot, field]) :
    forwards (portalTopics portal) topic = true := by
  have hmem : Str.lit "N/" ++ portal ++ slash :: Str.lit "platform/+/Notifications/#" ∈
      portalTopics portal := by
    unfold portalTopics
    exact List.mem_append_right _ List.mem_cons_self
  refine forwards_below hname hsplit hmem ?_
  rw [show levels (Str.lit "platform/+/Notifications/#") =
    [.name (Str.lit "platform"), .one, .name (Str.lit "Notifications"), .rest] by decide]
  exact .name _ (.one _ (.name _ (.rest _)))

end Filters

/-! ## What is missed -/

/-- The topic is not one of another portal. -/
def fromPortal (portal topic : Str) : Bool :=
  match topic.splitSlash with
  | n :: p :: rest => n ≠ Str.lit "N" || !rest.isEmpty && p = portal
  | _ => true

/-- An alarm or a camera topic, to `_apply_native_message`. -/
def isStray (site : Site) (portal topic : Str) : Bool :=
  fromPortal portal topic &&
    !((Str.lit "/platform/").contains topic && (Str.lit "/Notifications/").contains topic) &&
    ((Str.lit "/Alarms/").contains topic || site.isCamera topic)

section Missed

variable {site : Site} {portal topic : Str}

theorem selected_snd {s : MqttState} (h : s.portalId ≠ []) (topic : Str) (payload : Payload) :
    (nativeTopicSelected topic payload s).2 = fromPortal s.portalId topic := by
  have hempty : s.portalId.isEmpty = false := by
    rw [List.isEmpty_eq_false_iff]
    exact h
  unfold nativeTopicSelected fromPortal
  cases topic.splitSlash with
  | nil => rfl
  | cons n parts =>
    cases parts with
    | nil => rfl
    | cons p rest =>
      dsimp only
      by_cases hn : n = Str.lit "N"
      · rw [if_neg (not_not.mpr hn), hn]
        cases rest with
        | nil => rfl
        | cons kind rest => simp [hempty]
      · rw [if_pos hn]
        simp [hn]

/-- Once the portal is known, the route of a message does not depend on its payload. -/
theorem onMessage_known {s : Source} (h : s.mqtt.portalId ≠ []) (clock : Clock) (m : Message) :
    s.onMessage site clock m =
      if fromPortal s.mqtt.portalId m.topic then s.dispatchMqttMessage site clock m
      else ⟨s, some false⟩ := by
  unfold Source.onMessage
  dsimp only
  rw [selected_known h, selected_snd h]

theorem forwards_mono {filters filters' : List Str} (hsub : filters ⊆ filters')
    (h : forwards filters topic = true) : forwards filters' topic = true := by
  obtain ⟨f, hf, hselects⟩ := List.any_eq_true.mp h
  exact List.any_eq_true.mpr ⟨f, hsub hf, hselects⟩

theorem forwards_fixed (h : topic ∈ fixedTopics) : forwards fixedTopics topic = true := by
  refine List.any_eq_true.mpr ⟨topic, h, ?_⟩
  have hself : ∀ f ∈ fixedTopics, selects f f = true := by decide
  exact hself topic h

theorem platformTopic_some {leaf : Str × PlatformField}
    (h : Board.platformTopic topic = some leaf) :
    ∃ p inst slot field, topic.splitSlash = [Str.lit "N", p, Str.lit "platform", inst,
      Str.lit "Notifications", slot, field] := by
  unfold Board.platformTopic at h
  split at h
  · next n p platform inst mark slot field hsplit =>
    split at h
    · next hparts =>
      obtain ⟨rfl, rfl⟩ := hparts
      obtain ⟨name, hparse, -⟩ := Option.map_eq_some_iff.mp h
      have hslash : ∀ part ∈ [inst, mark, slot, field], slash ∉ part := by
        intro part hpart
        refine (mem_of_mem_splitOn (s := topic) (?_ : part ∈ topic.splitSlash)).1
        rw [hsplit]
        exact List.mem_cons_of_mem _ (List.mem_cons_of_mem _ (List.mem_cons_of_mem _ hpart))
      have hkey : (Str.joinSlash [inst, mark, slot, field]).splitSlash = [inst, mark, slot, field] :=
        List.splitOn_intercalate slash hslash (List.cons_ne_nil _ _)
      unfold parsePlatformLeafKey at hparse
      rw [hkey] at hparse
      dsimp only at hparse
      split at hparse
      · next hmark =>
        simp only [Bool.and_eq_true, decide_eq_true_eq] at hmark
        exact ⟨p, inst, slot, field, by rw [hsplit, hmark.1.1]⟩
      · cases hparse
    · cases h
  · cases h

theorem dispatch_native {m : Message} (h : m.topic ∉ fixedTopics) (clock : Clock) (s : Source) :
    s.dispatchMqttMessage site clock m = s.applyNativeMessage site clock m := by
  simp only [fixedTopics, List.mem_cons, List.not_mem_nil, or_false, not_or] at h
  obtain ⟨hstate, hdiscover, hnotify, hoverride⟩ := h
  unfold Source.dispatchMqttMessage
  rw [if_neg hstate, if_neg hoverride, if_neg hdiscover, if_neg hnotify]

/-- A message that no filter selects is one that nothing acts on, or a stray one. -/
theorem onMessage_unselected {s : Source} (hknown : s.mqtt.portalId ≠ []) (clock : Clock)
    {m : Message} (hname : isTopicName m.topic = true)
    (hfixed : forwards fixedTopics m.topic = false)
    (hportal : forwards (portalTopics s.mqtt.portalId) m.topic = false)
    (hstray : isStray site s.mqtt.portalId m.topic = false) :
    s.onMessage site clock m = ⟨s, some false⟩ := by
  rw [onMessage_known hknown]
  split
  · next hfrom =>
    have hfixed' : m.topic ∉ fixedTopics := by
      intro hmem
      rw [forwards_fixed hmem] at hfixed
      cases hfixed
    rw [dispatch_native hfixed']
    -- the portal that a topic names is the known one
    have hsame : ∀ {p : Str} {rest : List Str}, m.topic.splitSlash = Str.lit "N" :: p :: rest →
        p = s.mqtt.portalId := by
      intro p rest hsplit
      unfold fromPortal at hfrom
      rw [hsplit] at hfrom
      simp at hfrom
      exact hfrom.2
    unfold Source.applyNativeMessage
    split
    · next hplatform =>
      have hleaf : Board.platformLeaf m.topic m.payload.body = none := by
        unfold Board.platformLeaf
        cases htopic : Board.platformTopic m.topic with
        | none => rfl
        | some leaf =>
          obtain ⟨p, inst, slot, field, hsplit⟩ := platformTopic_some htopic
          rw [hsame hsplit] at hsplit
          rw [forwards_platform hname hsplit] at hportal
          cases hportal
      unfold Source.handlePlatform Board.handlePlatformNotification
      rw [hleaf]
      rfl
    · next hplatform =>
      unfold isStray at hstray
      rw [hfrom, Bool.eq_false_of_not_eq_true hplatform] at hstray
      simp only [Bool.not_false, Bool.and_true, Bool.true_and, Bool.or_eq_false_iff] at hstray
      rw [if_neg (by rw [hstray.1]; exact Bool.false_ne_true),
        if_neg (by rw [hstray.2]; exact Bool.false_ne_true)]
      split
      · unfold Source.handleDevice handleCerboDevice
        cases haddress : nativeTopic s.mqtt.portalId m.topic with
        | none => rfl
        | some address =>
          obtain ⟨kind, inst, path⟩ := address
          obtain ⟨-, rest, hsplit, -⟩ := nativeTopic_some haddress hknown
          rw [forwards_device hname hsplit] at hportal
          cases hportal
      · rfl
  · rfl

theorem subscribeTopics_known (configured camera : Str) (h : portal ≠ []) :
    subscribeTopics configured camera portal =
      fixedTopics ++ (if camera.isEmpty then [] else [camera]) ++ portalTopics portal := by
  have hempty : portal.isEmpty = false := by
    rw [List.isEmpty_eq_false_iff]
    exact h
  simp [subscribeTopics, hempty]

theorem forwards_parts {configured camera : Str} (h : portal ≠ [])
    (hmissed : forwards (subscribeTopics configured camera portal) topic = false) :
    forwards fixedTopics topic = false ∧ forwards (portalTopics portal) topic = false := by
  rw [subscribeTopics_known configured camera h] at hmissed
  simp only [forwards, List.any_append, Bool.or_eq_false_iff] at hmissed
  exact ⟨hmissed.1.1, hmissed.2⟩

/-- The message `{"value": 2}`. -/
def alarmMessage (topic : Str) : Message where
  topic := topic
  payload :=
    { loaded := .json (.dict [(Str.lit "value", .int 2)])
      decoded := .json (.dict [(Str.lit "value", .int 2)])
      body := .object (some (.value (.int 2)))
      text := some (Str.lit "\x7b\"value\": 2\x7d")
      replaced := Str.lit "\x7b\"value\": 2\x7d" }
  retained := false

theorem pushNotification_alarmValues (u : Unicode) (limits : Limits) (b : Board) (data : Value) :
    (b.pushNotification u limits data).alarmValues = b.alarmValues := by
  unfold Board.pushNotification
  split
  · split <;> rfl
  · rfl

/-- A value is remembered under its topic. -/
theorem handleAlarm_value (u : Unicode) (topic : Str) :
    (Board.init.handleAlarm u .program topic (alarmMessage topic).payload.body).alarmValues.get? topic =
      some 2 := by
  have hvalue : alarmValue (.int 2) = some 2 := by decide
  have hnone : (Board.init.alarmValues.get? topic).getD 0 = 0 := rfl
  unfold Board.handleAlarm Board.messageReport
  rw [show (alarmMessage topic).payload.body.alarm.bind alarmValue = some 2 from hvalue,
    Option.map_some]
  unfold Board.setAlarm
  dsimp only
  rw [hnone, if_neg (by decide), if_pos (Or.inr rfl), pushNotification_alarmValues, Dict.get?_set,
    if_pos rfl]

/-- A stray message changes the state of a new source. -/
theorem onMessage_stray (hknown : portal ≠ []) (hstray : isStray site portal topic = true)
    (hfixed : topic ∉ fixedTopics) (clock : Clock) :
    (Source.onMessage site clock (alarmMessage topic)
      ⟨MqttState.init portal, Board.init, none⟩).source ≠ ⟨MqttState.init portal, Board.init, none⟩ := by
  unfold isStray at hstray
  simp only [Bool.and_eq_true, Bool.not_eq_true'] at hstray
  obtain ⟨⟨hfrom, hplatform⟩, hroute⟩ := hstray
  have htopic : (alarmMessage topic).topic = topic := rfl
  rw [onMessage_known (by exact hknown), if_pos (by exact hfrom), dispatch_native hfixed]
  unfold Source.applyNativeMessage
  rw [htopic, hplatform, if_neg Bool.false_ne_true]
  cases halarm : (Str.lit "/Alarms/").contains topic with
  | true =>
    rw [if_pos rfl]
    intro heq
    -- the value is remembered under the topic
    have hvalues := congrArg (fun s => s.board.alarmValues.get? topic) heq
    have hvalue := handleAlarm_value site.unicode topic
    have hnone : (some 2 : Option Nat) = none := hvalue.symm.trans hvalues
    cases hnone
  | false =>
    rw [halarm, Bool.false_or] at hroute
    rw [if_neg Bool.false_ne_true, hroute, if_pos rfl]
    exact fun heq => nomatch congrArg Source.cameraEvent heq

end Missed

/-- Of the topics that a session of a known portal does not subscribe to, a message can change the
    state on exactly the stray ones. On the others it changes nothing, calls nobody back and raises
    nothing. -/
theorem missed_iff (site : Site) (configured camera : Str) {portal topic : Str}
    (hknown : portal ≠ []) (hname : isTopicName topic = true)
    (hmissed : forwards (subscribeTopics configured camera portal) topic = false) :
    ((∃ (s : Source) (clock : Clock) (m : Message), s.mqtt.portalId = portal ∧ m.topic = topic ∧
      (s.onMessage site clock m).source ≠ s) ↔ isStray site portal topic = true) ∧
    (isStray site portal topic = false → ∀ (s : Source) (clock : Clock) (m : Message),
      s.mqtt.portalId = portal → m.topic = topic → s.onMessage site clock m = ⟨s, some false⟩) := by
  obtain ⟨hfixed, hportal⟩ := forwards_parts hknown hmissed
  have hsilent : isStray site portal topic = false → ∀ (s : Source) (clock : Clock) (m : Message),
      s.mqtt.portalId = portal → m.topic = topic → s.onMessage site clock m = ⟨s, some false⟩ := by
    rintro hstray s clock m rfl rfl
    exact onMessage_unselected hknown clock hname hfixed hportal hstray
  refine ⟨⟨?_, fun hstray => ?_⟩, hsilent⟩
  · rintro ⟨s, clock, m, hs, hm, hchanged⟩
    by_contra hstray
    have hsame := hsilent (Bool.eq_false_of_not_eq_true hstray) s clock m hs hm
    exact hchanged (congrArg Handled.source hsame)
  · have hfixed' : topic ∉ fixedTopics := by
      intro hmem
      rw [forwards_fixed hmem] at hfixed
      cases hfixed
    exact ⟨_, ⟨0, 0⟩, alarmMessage topic, rfl, rfl, onMessage_stray hknown hstray hfixed' ⟨0, 0⟩⟩

/-- An alarm below a path, of a service without a subscription of its own, and a value of that
    service. -/
theorem missed_iff_deep :
    (∃ (s : Source) (clock : Clock) (m : Message), s.mqtt.portalId = Str.lit "c0ffee" ∧
      m.topic = Str.lit "N/c0ffee/genset/0/Engine/Alarms/HighTemperature" ∧
      (s.onMessage plainSite clock m).source ≠ s) ∧
    ∀ (s : Source) (clock : Clock) (m : Message), s.mqtt.portalId = Str.lit "c0ffee" →
      m.topic = Str.lit "N/c0ffee/genset/0/StatusCode" →
        s.onMessage plainSite clock m = ⟨s, some false⟩ := by
  have hknown : Str.lit "c0ffee" ≠ [] := by decide
  constructor
  · exact (missed_iff plainSite [] [] hknown (by decide) (by decide +kernel)).1.mpr
      (by decide +kernel)
  · exact (missed_iff plainSite [] [] hknown (by decide) (by decide +kernel)).2 (by decide +kernel)

/-! ## Sessions -/

section Lossless

variable {site : Site} {configured camera : Str} {w : Session}

/-- What a session has subscribed to. -/
structure Subscribed (camera : Str) (w : Session) : Prop where
  fixed : w.connected = true → fixedTopics ++ (if camera.isEmpty then [] else [camera]) ⊆ w.filters
  portal : w.connected = true → w.source.mqtt.portalId ≠ [] →
    portalTopics w.source.mqtt.portalId ⊆ w.filters

theorem Subscribed.offline (h : w.connected = false) : Subscribed camera w := by
  refine ⟨fun hc => ?_, fun hc => ?_⟩
  · rw [h] at hc
    cases hc
  · rw [h] at hc
    cases hc

theorem clear_portal (site : Site) (w : Session) :
    (w.clear site).1.source.mqtt.portalId = w.source.mqtt.portalId := by
  have hdaemon : (clearDaemonState site.cfg w.source.mqtt).state.portalId =
      w.source.mqtt.portalId := portal_apply site.cfg w.source.mqtt.withoutDaemon
  have hcerbo : ∀ s : MqttState, (clearCerboState site.cfg s).state.portalId = s.portalId :=
    fun s => portal_apply site.cfg _
  unfold Session.clear
  dsimp only
  split
  · exact hdaemon
  · split
    · exact (hcerbo _).trans hdaemon
    · exact (hcerbo _).trans hdaemon

/-- A portal that is known stays, whatever happens to the session. -/
theorem sessionStep_portal (reaches : List Str → Str → Bool) (op : SessionOp)
    (h : w.source.mqtt.portalId ≠ []) :
    (sessionStep site configured camera reaches w op).source.mqtt.portalId =
      w.source.mqtt.portalId := by
  cases op with
  | connect =>
    unfold sessionStep Session.connect
    dsimp only
    split <;> exact clear_portal site w
  | disconnect => exact clear_portal site w
  | published clock m =>
    unfold sessionStep
    dsimp only
    split
    · exact onMessage_portal site clock m h
    · rfl

theorem Subscribed.step (h : Subscribed camera w) (op : SessionOp) :
    Subscribed camera (brokerStep site configured camera w op) := by
  cases op with
  | connect =>
    unfold brokerStep sessionStep Session.connect
    dsimp only
    split
    · refine ⟨fun _ => ?_, fun _ hknown => ?_⟩
      · exact List.subset_append_left _ _
      · dsimp only at hknown ⊢
        rw [subscribeTopics_known configured camera hknown]
        exact List.subset_append_right _ _
    · exact .offline rfl
  | disconnect => exact .offline rfl
  | published clock m =>
    unfold brokerStep sessionStep
    dsimp only
    split
    · have hsub : w.filters ⊆ (w.receive site clock m).filters := by
        unfold Session.receive
        dsimp only
        split
        · exact List.subset_append_left _ _
        · exact List.Subset.refl _
      refine ⟨fun hc => List.Subset.trans (h.fixed hc) hsub, fun hc hknown => ?_⟩
      by_cases hbefore : w.source.mqtt.portalId = []
      · -- the portal has just been discovered
        unfold Session.receive at hknown ⊢
        dsimp only at hknown ⊢
        rw [hbefore, if_pos]
        · exact List.subset_append_right _ _
        · simpa using hknown
      · have hsame : (w.receive site clock m).source.mqtt.portalId = w.source.mqtt.portalId :=
          onMessage_portal site clock m hbefore
        rw [hsame]
        exact List.Subset.trans (h.portal hc hbefore) hsub
    · exact h

/-- What does not reach a session would have changed nothing. -/
theorem Subscribed.ideal (h : Subscribed camera w) (hknown : w.source.mqtt.portalId ≠ [])
    {op : SessionOp} (hop : ∀ clock m, op = .published clock m → isTopicName m.topic = true ∧
      (isStray site w.source.mqtt.portalId m.topic = true →
        forwards (subscribeTopics configured camera w.source.mqtt.portalId) m.topic = true)) :
    idealStep site configured camera w op = brokerStep site configured camera w op := by
  cases op with
  | connect => rfl
  | disconnect => rfl
  | published clock m =>
    obtain ⟨hname, hstray⟩ := hop clock m rfl
    unfold idealStep brokerStep sessionStep
    dsimp only
    cases hconnected : w.connected with
    | false => rfl
    | true =>
      cases hforwards : forwards w.filters m.topic with
      | true => rfl
      | false =>
        have hnone : ∀ {filters : List Str}, filters ⊆ w.filters →
            forwards filters m.topic = false := by
          intro filters hsub
          rw [← Bool.not_eq_true]
          intro hsome
          rw [forwards_mono hsub hsome] at hforwards
          cases hforwards
        have hfixed := h.fixed hconnected
        have hportal := h.portal hconnected hknown
        have hall := hnone (List.append_subset.mpr ⟨hfixed, hportal⟩)
        rw [← subscribeTopics_known configured camera hknown] at hall
        have hnot : isStray site w.source.mqtt.portalId m.topic = false := by
          rw [← Bool.not_eq_true]
          intro hsome
          rw [hstray hsome] at hall
          cases hall
        have hsource := onMessage_unselected hknown clock hname
          (hnone fun f hf => hfixed (List.mem_append_left _ hf)) (hnone hportal) hnot
        show w.receive site clock m = w
        unfold Session.receive
        rw [hsource]
        obtain ⟨source, connected, filters⟩ := w
        have hempty : source.mqtt.portalId.isEmpty = false := List.isEmpty_eq_false_iff.mpr hknown
        simp [hempty]

end Lossless

/-- From where the portal is known, a session has the state it would have if every message reached
    it, unless a stray one is published that it does not subscribe to. -/
theorem session_lossless (site : Site) (configured camera : Str) (before after : List SessionOp)
    (hknown : (replay (brokerStep site configured camera) (.start configured) before).source.mqtt.portalId
      ≠ [])
    (hafter : ∀ clock m, SessionOp.published clock m ∈ after → isTopicName m.topic = true ∧
      (isStray site (replay (brokerStep site configured camera) (.start configured)
          before).source.mqtt.portalId m.topic = true →
        forwards (subscribeTopics configured camera (replay (brokerStep site configured camera)
          (.start configured) before).source.mqtt.portalId) m.topic = true)) :
    replay (idealStep site configured camera)
        (replay (brokerStep site configured camera) (.start configured) before) after =
      replay (brokerStep site configured camera) (.start configured) (before ++ after) := by
  have hsubscribed : Subscribed camera
      (replay (brokerStep site configured camera) (.start configured) before) :=
    replay_invariant _ (I := Subscribed camera) (.offline rfl) (fun _ op h => h.step op) before
  rw [replay_append]
  generalize replay (brokerStep site configured camera) (.start configured) before = w at *
  have hinv : ∀ x ∈ trace (brokerStep site configured camera) w after,
      Subscribed camera x.1 ∧ x.1.source.mqtt.portalId = w.source.mqtt.portalId := by
    intro x hx
    refine trace_invariant _ (I := fun s => Subscribed camera s ∧
      s.source.mqtt.portalId = w.source.mqtt.portalId) ⟨hsubscribed, rfl⟩ ?_ hx
    rintro s op ⟨hs, hportal⟩
    exact ⟨hs.step op, (sessionStep_portal _ op (hportal ▸ hknown)).trans hportal⟩
  refine (run_congr fun x hx => ?_).1
  obtain ⟨hs, hportal⟩ := hinv x hx
  have hmem := mem_of_mem_trace _ hx
  refine hs.ideal (hportal ▸ hknown) fun clock m hop => ?_
  rw [hportal]
  exact hafter clock m (hop ▸ hmem)

/-- An alarm of a battery, and a topic of somebody else. -/
theorem session_lossless_alarm :
    replay (idealStep plainSite (Str.lit "c0ffee") []) (.start (Str.lit "c0ffee"))
        [.connect,
          .published ⟨1, 1⟩ (alarmMessage (Str.lit "N/c0ffee/battery/0/Alarms/LowVoltage")),
          .published ⟨2, 2⟩ (alarmMessage (Str.lit "N/c0ffee/genset/0/StatusCode"))] =
      replay (brokerStep plainSite (Str.lit "c0ffee") []) (.start (Str.lit "c0ffee"))
        ([] ++ [.connect,
          .published ⟨1, 1⟩ (alarmMessage (Str.lit "N/c0ffee/battery/0/Alarms/LowVoltage")),
          .published ⟨2, 2⟩ (alarmMessage (Str.lit "N/c0ffee/genset/0/StatusCode"))]) := by
  refine session_lossless plainSite (Str.lit "c0ffee") [] [] _ (by decide) ?_
  intro clock m hm
  simp only [List.mem_cons, List.not_mem_nil, or_false, reduceCtorEq, false_or,
    SessionOp.published.injEq] at hm
  rcases hm with ⟨-, rfl⟩ | ⟨-, rfl⟩
  · exact ⟨by decide, fun _ => by decide +kernel⟩
  · exact ⟨by decide, fun h => absurd h (by decide +kernel)⟩

end InverterDashboard.Server
