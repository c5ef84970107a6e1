import InverterDashboard.Server.Broadcasts
import InverterDashboard.Server.Forgetting
import InverterDashboard.Server.LeafMap

/-
  Which messages change the native store, and how.

  The route of a message depends on its topic alone. Only the topics of `isDeviceTopic` reach the
  store (`onMessage_other`); there a message of the selected portal stores one leaf, removes one
  service or is ignored (`StoreStep`). A portal that is known stays (`onMessage_portal`).
-/

namespace InverterDashboard.Server

open Python Cerbo Controller Notifications

/-- The topics that `_apply_native_message` hands to `_handle_cerbo_device`. -/
def isDeviceTopic (site : Site) (topic : Str) : Bool :=
  !((Str.lit "/platform/").contains topic && (Str.lit "/Notifications/").contains topic) &&
    !(Str.lit "/Alarms/").contains topic && !site.isCamera topic &&
    (Str.lit "N/").isPrefixOf topic

/-! ## The portal -/

theorem settle_portal (cfg : Config) (v : NativeView) : (v.settle cfg).portalId = v.portalId := by
  unfold NativeView.settle
  split <;> rfl

theorem settle_devices (cfg : Config) (v : NativeView) :
    (v.settle cfg).cerboDevices = v.cerboDevices := by
  unfold NativeView.settle
  split <;> rfl

theorem portal_apply (cfg : Config) (s : MqttState) :
    (applyCerboOverlays cfg s).state.portalId = s.portalId :=
  (congrArg NativeView.portalId (nativeView_apply cfg s)).trans (settle_portal cfg s.nativeView)

theorem portal_merge (cfg : Config) (clock : Clock) (incoming : Object) (retained : Bool)
    (s : MqttState) :
    (mergeDaemonState cfg clock incoming retained s).state.portalId = s.portalId := by
  unfold mergeDaemonState
  extract_lets s₁ s₂ s₃
  have h₂ : s₂.portalId = s.portalId := by
    unfold s₂
    split <;> rfl
  have hobserved : (observe clock incoming retained s₃).state.portalId = s.portalId :=
    (congrArg NativeView.portalId (nativeView_observe clock incoming retained s₃)).trans h₂
  exact Call.andThen_state (P := fun t => t.portalId = s.portalId) hobserved fun _ =>
    (portal_apply cfg _).trans hobserved

theorem discoverPortal_known {s : MqttState} (h : s.portalId ≠ []) (portal : Str) :
    discoverPortal portal s = s := by
  unfold discoverPortal
  rw [if_neg]
  rw [Bool.and_eq_true, List.isEmpty_iff]
  exact fun hempty => h hempty.1

theorem selected_known {s : MqttState} (h : s.portalId ≠ []) (topic : Str) (payload : Payload) :
    (nativeTopicSelected topic payload s).1 = s := by
  have hempty : s.portalId.isEmpty = false := by
    rw [List.isEmpty_eq_false_iff]
    exact h
  unfold nativeTopicSelected
  rw [hempty]
  split
  · split
    · rfl
    · split
      · rfl
      · rfl
  · rfl

/-! ## Routes -/

/-- The daemon's messages, and those of the override, leave the store and the portal alone. -/
structure SameStore (s t : MqttState) : Prop where
  devices : t.cerboDevices = s.cerboDevices
  portal : s.portalId ≠ [] → t.portalId = s.portalId

namespace SameStore

theorem refl (s : MqttState) : SameStore s s := ⟨rfl, fun _ => rfl⟩

theorem clearDaemon (cfg : Config) (s : MqttState) : SameStore s (clearDaemonState cfg s).state :=
  ⟨cerboDevices_of_native (native_clearDaemon cfg s), fun _ => portal_apply cfg s.withoutDaemon⟩

theorem merge (cfg : Config) (clock : Clock) (incoming : Object) (retained : Bool) (s : MqttState) :
    SameStore s (mergeDaemonState cfg clock incoming retained s).state :=
  ⟨cerboDevices_of_native (native_merge cfg clock incoming retained s),
    fun _ => portal_merge cfg clock incoming retained s⟩

theorem observe (clock : Clock) (incoming : Object) (retained : Bool) (s : MqttState) :
    SameStore s (Server.observe clock incoming retained s).state :=
  ⟨cerboDevices_of_native (native_observe clock incoming retained s),
    fun _ => congrArg NativeView.portalId (nativeView_observe clock incoming retained s)⟩

theorem discover (portal : Str) (s : MqttState) : SameStore s (discoverPortal portal s) :=
  ⟨cerboDevices_of_native (native_discoverPortal portal s),
    fun h => congrArg MqttState.portalId (discoverPortal_known h portal)⟩

theorem trans {a b c : MqttState} (h : SameStore a b) (h' : SameStore b c) : SameStore a c where
  devices := h'.devices.trans h.devices
  portal := by
    intro hknown
    have hb := h.portal hknown
    exact (h'.portal (hb ▸ hknown)).trans hb

end SameStore

namespace Source

theorem handleDaemonMessage_store (site : Site) (clock : Clock) (m : Message) (s : Source) :
    SameStore s.mqtt (s.handleDaemonMessage site clock m).source.mqtt := by
  unfold handleDaemonMessage
  split
  · exact .refl _
  · exact .clearDaemon site.cfg s.mqtt
  · exact .clearDaemon site.cfg s.mqtt
  · exact .merge site.cfg clock _ m.retained s.mqtt
  · exact .refl _

theorem handleOverride_store (clock : Clock) (m : Message) (s : Source) :
    SameStore s.mqtt (s.handleOverride clock m).source.mqtt := by
  unfold handleOverride
  dsimp only
  split
  · exact .refl _
  · exact .observe clock _ m.retained s.mqtt
  · exact .observe clock _ m.retained s.mqtt

theorem handlePortal_store (m : Message) (s : Source) :
    SameStore s.mqtt (s.handlePortal m).source.mqtt := by
  unfold handlePortal
  split
  · exact .refl _
  · exact .discover _ s.mqtt

theorem handleNotification_store (site : Site) (m : Message) (s : Source) :
    (s.handleNotification site m).source.mqtt = s.mqtt := by
  unfold handleNotification
  split <;> rfl

/-- Another topic than those of devices does not reach the store. -/
theorem applyNativeMessage_other {site : Site} {m : Message}
    (h : isDeviceTopic site m.topic = false) (clock : Clock) (s : Source) :
    (s.applyNativeMessage site clock m).source.mqtt = s.mqtt := by
  unfold applyNativeMessage
  split
  · rfl
  · next hplatform =>
    split
    · split <;> rfl
    · next halarm =>
      split
      · rfl
      · next hcamera =>
        split
        · next hnative =>
          unfold isDeviceTopic at h
          rw [Bool.eq_false_of_not_eq_true hplatform, Bool.eq_false_of_not_eq_true halarm,
            Bool.eq_false_of_not_eq_true hcamera, hnative] at h
          cases h
        · rfl

theorem applyNativeMessage_device {site : Site} {m : Message}
    (h : isDeviceTopic site m.topic = true) (clock : Clock) (s : Source) :
    s.applyNativeMessage site clock m = s.handleDevice site clock m := by
  unfold isDeviceTopic at h
  simp only [Bool.and_eq_true, Bool.not_eq_true'] at h
  obtain ⟨⟨⟨hplatform, halarm⟩, hcamera⟩, hnative⟩ := h
  unfold applyNativeMessage
  rw [hplatform, halarm, hcamera, hnative]
  rfl

theorem dispatch_other {site : Site} {m : Message} (h : isDeviceTopic site m.topic = false)
    (clock : Clock) (s : Source) :
    SameStore s.mqtt (s.dispatchMqttMessage site clock m).source.mqtt := by
  unfold dispatchMqttMessage
  split
  · exact handleDaemonMessage_store site clock m s
  · split
    · exact handleOverride_store clock m s
    · split
      · exact handlePortal_store m s
      · split
        · rw [handleNotification_store]
          exact .refl _
        · rw [applyNativeMessage_other h]
          exact .refl _

end Source

/-- The route of another message than those of devices. -/
theorem onMessage_other {site : Site} {m : Message} (h : isDeviceTopic site m.topic = false)
    (clock : Clock) (s : Source) :
    SameStore s.mqtt (s.onMessage site clock m).source.mqtt := by
  obtain ⟨portal, hportal⟩ := nativeTopicSelected_fst m.topic m.payload.loaded s.mqtt
  have hselected : SameStore s.mqtt (nativeTopicSelected m.topic m.payload.loaded s.mqtt).1 := by
    refine ⟨?_, fun hknown => congrArg MqttState.portalId (selected_known hknown _ _)⟩
    rw [hportal]
  unfold Source.onMessage
  dsimp only
  split
  · exact hselected.trans (Source.dispatch_other h clock
      { s with mqtt := (nativeTopicSelected m.topic m.payload.loaded s.mqtt).1 })
  · exact hselected

/-- The route of a message of a device. -/
theorem onMessage_device {site : Site} {m : Message} (h : isDeviceTopic site m.topic = true)
    (clock : Clock) (s : Source) : (s.onMessage site clock m).source.mqtt =
      (nativeMessage site.cfg clock m.topic m.payload.loaded m.retained s.mqtt).state := by
  have hnative : (Str.lit "N/").isPrefixOf m.topic = true := by
    unfold isDeviceTopic at h
    rw [Bool.and_eq_true] at h
    exact h.2
  have hother : ∀ topic : String, (Str.lit "N/").isPrefixOf (Str.lit topic) = false →
      m.topic ≠ Str.lit topic := by
    intro topic hfalse heq
    rw [heq, hfalse] at hnative
    cases hnative
  have hdispatch : ∀ t : Source,
      t.dispatchMqttMessage site clock m = t.handleDevice site clock m := by
    intro t
    unfold Source.dispatchMqttMessage
    rw [if_neg (hother "inverter/state" (by decide)),
      if_neg (hother "inverter/setpoint_override" (by decide)),
      if_neg (hother "inverter/portal" (by decide)),
      if_neg (hother "inverter/notifications" (by decide)),
      Source.applyNativeMessage_device h]
  unfold Source.onMessage nativeMessage
  dsimp only
  split
  · rw [hdispatch]
    rfl
  · rfl

/-! ## What a message does to the store -/

/-- What a message does to the native store: nothing, or what its payload says about the service it
    addresses. -/
inductive StoreStep (site : Site) (m : Message) (s t : MqttState) : Prop where
  | same (h : t.cerboDevices = s.cerboDevices)
  | stored (kind : Kind) (inst path : Str) (value : Value)
      (hdevice : isDeviceTopic site m.topic = true) (hknown : t.portalId ≠ [])
      (haddress : nativeTopic t.portalId m.topic = some (kind, inst, path))
      (hvalue : leafValue? kind path m.payload.loaded = some value)
      (h : t.cerboDevices = s.cerboDevices.store kind inst path value)
  | removed (kind : Kind) (inst path : Str)
      (hdevice : isDeviceTopic site m.topic = true) (hknown : t.portalId ≠ [])
      (haddress : nativeTopic t.portalId m.topic = some (kind, inst, path))
      (hpayload : m.payload.loaded = .empty)
      (h : s.cerboDevices.remove kind inst = some t.cerboDevices)

/-- A message that is selected and has an address comes from a known portal. -/
theorem known_of_selected {topic : Str} {payload : Payload} {before portalId : Str}
    {address : Kind × Str × Str} (hselected : (selectedPortal topic payload before).2 = true)
    (haddress : nativeTopic portalId topic = some address) :
    (selectedPortal topic payload before).1 ≠ [] := by
  unfold nativeTopic at haddress
  split at haddress
  · next n portal name inst rest hsplit =>
    split at haddress
    · cases haddress
    · next hparts =>
      rw [not_or, not_or, not_not, List.isEmpty_iff] at hparts
      obtain ⟨rfl, hportal, -⟩ := hparts
      unfold selectedPortal nativeTopicSelected at hselected ⊢
      rw [hsplit] at hselected ⊢
      dsimp only at hselected ⊢
      rw [if_neg (not_not.mpr rfl)] at hselected ⊢
      split at hselected
      · next hannounces =>
        rw [if_pos hannounces]
        cases payload with
        | empty => exact of_decide_eq_true hselected ▸ hportal
        | malformed => cases hselected
        | json data => exact of_decide_eq_true hselected ▸ hportal
      · next hquiet =>
        rw [if_neg hquiet]
        exact of_decide_eq_true hselected ▸ hportal
  · cases haddress

theorem applyPayload_cases {cfg : Config} {v w : NativeView} {kind : Kind} {inst path : Str}
    {payload : Payload} (h : v.applyPayload cfg kind inst path payload = some w) :
    w.portalId = v.portalId ∧
      (payload = .empty ∧ v.cerboDevices.remove kind inst = some w.cerboDevices ∨
        ∃ value, leafValue? kind path payload = some value ∧
          w.cerboDevices = v.cerboDevices.store kind inst path value) := by
  unfold NativeView.applyPayload at h
  split at h
  · obtain ⟨m, hm, rfl⟩ := Option.map_eq_some_iff.mp h
    exact ⟨rfl, Or.inl ⟨rfl, hm⟩⟩
  · obtain ⟨value, hvalue, rfl⟩ := Option.map_eq_some_iff.mp h
    exact ⟨rfl, Or.inr ⟨value, hvalue, rfl⟩⟩

/-- The view once the portal of a topic is known. -/
def NativeView.discovered (v : NativeView) (topic : Str) (payload : Payload) : NativeView :=
  { v with portalId := (selectedPortal topic payload v.portalId).1 }

/-- What a message of a device leaves of the view. -/
theorem receive_message (cfg : Config) (v : NativeView) (topic : Str) (payload : Payload) :
    (v.receive cfg (.message topic payload)).portalId = (v.discovered topic payload).portalId ∧
      ((v.receive cfg (.message topic payload)).cerboDevices = v.cerboDevices ∨
        (selectedPortal topic payload v.portalId).2 = true ∧
          ∃ kind inst path w, nativeTopic (v.discovered topic payload).portalId topic =
              some (kind, inst, path) ∧
            (v.discovered topic payload).applyPayload cfg kind inst path payload = some w ∧
            (v.receive cfg (.message topic payload)).cerboDevices = w.cerboDevices) := by
  unfold NativeView.receive NativeView.discovered
  dsimp only
  cases hselected : (selectedPortal topic payload v.portalId).2 with
  | false => exact ⟨rfl, Or.inl rfl⟩
  | true =>
    rw [if_pos rfl]
    cases haddress : nativeTopic (selectedPortal topic payload v.portalId).1 topic with
    | none => exact ⟨rfl, Or.inl rfl⟩
    | some address =>
      obtain ⟨kind, inst, path⟩ := address
      dsimp only
      cases happlied : NativeView.applyPayload cfg
          { v with portalId := (selectedPortal topic payload v.portalId).1 } kind inst path
          payload with
      | none => exact ⟨rfl, Or.inl rfl⟩
      | some w =>
        refine ⟨(settle_portal cfg w).trans (applyPayload_cases happlied).1, Or.inr ⟨rfl, ?_⟩⟩
        exact ⟨kind, inst, path, w, rfl, happlied, settle_devices cfg w⟩

/-- **One message.** Nothing else happens to the store. -/
theorem storeStep (site : Site) (clock : Clock) (m : Message) (s : Source) :
    StoreStep site m s.mqtt (s.onMessage site clock m).source.mqtt := by
  cases hdevice : isDeviceTopic site m.topic with
  | false => exact .same (onMessage_other hdevice clock s).devices
  | true =>
    have hview := nativeView_native site.cfg clock m.topic m.payload.loaded m.retained s.mqtt
    rw [← onMessage_device hdevice clock s] at hview
    obtain ⟨hportal, h⟩ :=
      receive_message site.cfg s.mqtt.nativeView m.topic m.payload.loaded
    rw [← hview] at hportal h
    rcases h with hsame | ⟨hselected, kind, inst, path, w, haddress, happlied, hdevices⟩
    · exact .same hsame
    · have hknown : (s.mqtt.nativeView.discovered m.topic m.payload.loaded).portalId ≠ [] :=
        known_of_selected hselected haddress
      rw [← hportal] at haddress hknown
      rcases (applyPayload_cases happlied).2 with ⟨hempty, hremove⟩ | ⟨value, hvalue, hstore⟩
      · exact .removed kind inst path hdevice hknown haddress hempty
          (hremove.trans (congrArg some hdevices.symm))
      · exact .stored kind inst path value hdevice hknown haddress hvalue (hdevices.trans hstore)

/-- A portal that is known stays. -/
theorem onMessage_portal (site : Site) (clock : Clock) (m : Message) {s : Source}
    (h : s.mqtt.portalId ≠ []) :
    (s.onMessage site clock m).source.mqtt.portalId = s.mqtt.portalId := by
  cases hdevice : isDeviceTopic site m.topic with
  | false => exact (onMessage_other hdevice clock s).portal h
  | true =>
    have hview := nativeView_native site.cfg clock m.topic m.payload.loaded m.retained s.mqtt
    rw [← onMessage_device hdevice clock s] at hview
    have hportal := (receive_message site.cfg s.mqtt.nativeView m.topic m.payload.loaded).1
    rw [← hview] at hportal
    refine hportal.trans ?_
    have hselected := congrArg Prod.fst
      (nativeTopicSelected_eq m.topic m.payload.loaded s.mqtt)
    rw [selected_known h] at hselected
    exact (congrArg MqttState.portalId hselected).symm

/-- An address names the portal. -/
theorem nativeTopic_some {portalId topic : Str} {kind : Kind} {inst path : Str}
    (h : nativeTopic portalId topic = some (kind, inst, path)) (hknown : portalId ≠ []) :
    inst ≠ [] ∧ ∃ rest, topic.splitSlash = Str.lit "N" :: portalId :: kind.name :: inst :: rest ∧
      path = Str.joinSlash rest := by
  unfold nativeTopic at h
  split at h
  · next n portal name i rest hsplit =>
    split at h
    · cases h
    · next hparts =>
      rw [not_or, not_or, not_not, List.isEmpty_iff, List.isEmpty_iff] at hparts
      split at h
      · cases h
      · next hportal =>
        obtain ⟨k, hk, heq⟩ := Option.map_eq_some_iff.mp h
        obtain ⟨rfl, rfl, rfl⟩ := heq
        have hname := Kind.ofName?_eq_some.mp hk
        have hsame : portal = portalId := by
          by_contra hne
          apply hportal
          rw [Bool.and_eq_true, Bool.not_eq_true', List.isEmpty_eq_false_iff, decide_eq_true_eq]
          exact ⟨hknown, hne⟩
        refine ⟨hparts.2.2, rest, ?_, rfl⟩
        rw [hsplit, hparts.1, hsame, hname]
  · cases h

theorem nativeTopic_of_split {portalId topic : Str} {kind : Kind} {inst : Str} {rest : List Str}
    (hsplit : topic.splitSlash = Str.lit "N" :: portalId :: kind.name :: inst :: rest)
    (hknown : portalId ≠ []) (hinst : inst ≠ []) :
    nativeTopic portalId topic = some (kind, inst, Str.joinSlash rest) := by
  have hparts : ¬ (Str.lit "N" ≠ Str.lit "N" ∨ portalId.isEmpty = true ∨ inst.isEmpty = true) := by
    rw [not_or, not_or, List.isEmpty_iff, List.isEmpty_iff]
    exact ⟨not_not.mpr rfl, hknown, hinst⟩
  have hportal : ¬ (!portalId.isEmpty && decide (portalId ≠ portalId)) = true := by simp
  unfold nativeTopic
  rw [hsplit]
  dsimp only
  rw [if_neg hparts, if_neg hportal, Kind.ofName?_eq_some.mpr rfl]
  rfl

/-- A topic of the portal is selected, whether or not its message announced the portal. -/
theorem selected_of_split {topic : Str} {payload : Payload} {before after name inst : Str}
    {rest : List Str} (hsplit : topic.splitSlash = Str.lit "N" :: after :: name :: inst :: rest)
    (hafter : (selectedPortal topic payload before).1 = after) (hknown : after ≠ []) :
    (selectedPortal topic payload before).2 = true := by
  have hinit : (MqttState.init before).portalId = before := rfl
  unfold selectedPortal nativeTopicSelected at hafter ⊢
  rw [hsplit] at hafter ⊢
  dsimp only at hafter ⊢
  rw [if_neg (not_not.mpr rfl)] at hafter ⊢
  split at hafter
  · next hannounces =>
    have hempty : before = [] := by
      rw [Bool.and_eq_true, List.isEmpty_iff] at hannounces
      exact hannounces.1
    rw [if_pos hannounces]
    cases payload with
    | empty => exact absurd (hafter.symm.trans hempty) hknown
    | malformed => exact absurd (hafter.symm.trans hempty) hknown
    | json data => exact decide_eq_true hafter.symm
  · next hquiet =>
    rw [if_neg hquiet]
    exact decide_eq_true hafter.symm

theorem selected_of_address {topic : Str} {payload : Payload} {portalId : Str} {kind : Kind}
    {inst path : Str} (hknown : (selectedPortal topic payload portalId).1 ≠ [])
    (h : nativeTopic (selectedPortal topic payload portalId).1 topic = some (kind, inst, path)) :
    (selectedPortal topic payload portalId).2 = true := by
  obtain ⟨-, rest, hsplit, -⟩ := nativeTopic_some h hknown
  exact selected_of_split hsplit rfl hknown

theorem receive_address {cfg : Config} {v : NativeView} {topic : Str} {payload : Payload}
    {kind : Kind} {inst path : Str} (hselected : (selectedPortal topic payload v.portalId).2 = true)
    (haddress : nativeTopic (v.discovered topic payload).portalId topic = some (kind, inst, path)) :
    (v.receive cfg (.message topic payload)).cerboDevices =
      (((v.discovered topic payload).applyPayload cfg kind inst path payload).map
        NativeView.cerboDevices).getD v.cerboDevices := by
  unfold NativeView.receive
  unfold NativeView.discovered at haddress ⊢
  dsimp only at haddress ⊢
  rw [if_pos hselected, haddress]
  dsimp only
  cases NativeView.applyPayload cfg
      { v with portalId := (selectedPortal topic payload v.portalId).1 } kind inst path payload with
  | none => rfl
  | some w => exact settle_devices cfg w

/-- What a message of a device does to the store, once its address is known. -/
theorem onMessage_address {site : Site} {clock : Clock} {m : Message} {s : Source} {kind : Kind}
    {inst path : Str} (hdevice : isDeviceTopic site m.topic = true)
    (hknown : (s.onMessage site clock m).source.mqtt.portalId ≠ [])
    (haddress : nativeTopic (s.onMessage site clock m).source.mqtt.portalId m.topic =
      some (kind, inst, path)) :
    (∀ value, leafValue? kind path m.payload.loaded = some value →
      (s.onMessage site clock m).source.mqtt.cerboDevices =
        s.mqtt.cerboDevices.store kind inst path value) ∧
      (m.payload.loaded = .empty →
        ((s.onMessage site clock m).source.mqtt.cerboDevices.services kind).get? inst = none) := by
  have hview := nativeView_native site.cfg clock m.topic m.payload.loaded m.retained s.mqtt
  rw [← onMessage_device hdevice clock s] at hview
  have hportal : (s.onMessage site clock m).source.mqtt.portalId =
      (s.mqtt.nativeView.discovered m.topic m.payload.loaded).portalId :=
    (congrArg NativeView.portalId hview).trans
      (receive_message site.cfg s.mqtt.nativeView m.topic m.payload.loaded).1
  rw [hportal] at hknown haddress
  have hdevices := (congrArg NativeView.cerboDevices hview).trans
    (receive_address (selected_of_address hknown haddress) haddress)
  constructor
  · intro value hvalue
    refine hdevices.trans ?_
    cases hpayload : m.payload.loaded with
    | empty =>
      rw [hpayload] at hvalue
      cases hvalue
    | malformed =>
      rw [hpayload] at hvalue
      cases hvalue
    | json data =>
      rw [hpayload] at hvalue
      unfold NativeView.applyPayload
      dsimp only
      rw [hvalue]
      rfl
  · intro hempty
    rw [hempty] at hdevices
    unfold NativeView.applyPayload at hdevices
    dsimp only at hdevices
    cases hremove : s.mqtt.cerboDevices.remove kind inst with
    | none =>
      have hsame : (s.onMessage site clock m).source.mqtt.cerboDevices = s.mqtt.cerboDevices := by
        refine hdevices.trans ?_
        have hview' : (s.mqtt.nativeView.discovered m.topic .empty).cerboDevices.remove kind inst =
            none := hremove
        rw [hview']
        rfl
      rw [hsame]
      exact Devices.remove_eq_none hremove
    | some devices =>
      have hgone : (s.onMessage site clock m).source.mqtt.cerboDevices = devices := by
        refine hdevices.trans ?_
        have hview' : (s.mqtt.nativeView.discovered m.topic .empty).cerboDevices.remove kind inst =
            some devices := hremove
        rw [hview']
        rfl
      rw [hgone, Devices.services_remove hremove, if_pos rfl, Dict.get?_erase, if_pos rfl]

/-! ## Where the stored leaves came from -/

/-- The topic of a leaf. -/
def deviceTopic (portalId : Str) (kind : Kind) (inst path : Str) : Str :=
  Str.joinSlash [Str.lit "N", portalId, kind.name, inst, path]

/-- A topic with a path is given by its parts. -/
theorem joinSlash_of_split {topic portalId name inst : Str} {rest : List Str}
    (hsplit : topic.splitSlash = Str.lit "N" :: portalId :: name :: inst :: rest)
    (hpath : Str.joinSlash rest ≠ []) :
    topic = Str.joinSlash [Str.lit "N", portalId, name, inst, Str.joinSlash rest] := by
  have hjoin : Str.joinSlash topic.splitSlash = topic := List.intercalate_splitOn slash
  have hrest : rest ≠ [] := by
    rintro rfl
    exact hpath rfl
  have hcons : ∀ (a : Str) {parts : List Str}, parts ≠ [] →
      Str.joinSlash (a :: parts) = a ++ [slash] ++ Str.joinSlash parts :=
    fun a parts hparts => List.intercalate_cons_of_ne_nil hparts
  have hlast : Str.joinSlash [Str.joinSlash rest] = Str.joinSlash rest :=
    List.intercalate_singleton
  rw [← hjoin, hsplit]
  simp only [hcons _ (List.cons_ne_nil _ _), hcons _ hrest, hlast]

theorem topic_of_address {portalId topic : Str} {kind : Kind} {inst path : Str}
    (hknown : portalId ≠ []) (h : nativeTopic portalId topic = some (kind, inst, path))
    (hpath : path ≠ []) : topic = deviceTopic portalId kind inst path := by
  obtain ⟨-, rest, hsplit, rfl⟩ := nativeTopic_some h hknown
  exact joinSlash_of_split hsplit hpath

/-- What is known of a leaf in the store. -/
structure Arrived (site : Site) (portalId : Str) (kind : Kind) (inst path : Str) : Prop where
  hasPortal : portalId ≠ []
  hasInst : inst ≠ []
  hasPath : path ≠ []
  known : knownPath kind path = true
  topic : isDeviceTopic site (deviceTopic portalId kind inst path) = true

/-- Every leaf in the store came on its own topic. -/
def Routed (site : Site) (s : MqttState) : Prop :=
  ∀ kind inst path, (s.cerboDevices.leaf kind inst path).isSome = true →
    Arrived site s.portalId kind inst path

theorem routed_init (site : Site) (portal : Str) : Routed site (MqttState.init portal) := by
  intro kind inst path h
  cases h

theorem routed_onMessage {site : Site} {clock : Clock} {m : Message} {s : Source}
    (h : Routed site s.mqtt) : Routed site (s.onMessage site clock m).source.mqtt := by
  intro kind inst path hleaf
  have hold : (s.mqtt.cerboDevices.leaf kind inst path).isSome = true →
      Arrived site (s.onMessage site clock m).source.mqtt.portalId kind inst path := by
    intro hsome
    have harrived := h kind inst path hsome
    rw [onMessage_portal site clock m harrived.hasPortal]
    exact harrived
  cases storeStep site clock m s with
  | same hsame =>
    rw [hsame] at hleaf
    exact hold hleaf
  | stored k i p value hdevice hknown haddress hvalue hstore =>
    rw [hstore, Devices.leaf_store] at hleaf
    split at hleaf
    · next hsame =>
      obtain ⟨rfl, rfl, rfl⟩ := hsame
      obtain ⟨hpath, -, hknownPath⟩ := LeafMap.leafValue?_eq_some hvalue
      refine ⟨hknown, (nativeTopic_some haddress hknown).1, hpath, hknownPath, ?_⟩
      rw [← topic_of_address hknown haddress hpath]
      exact hdevice
    · exact hold hleaf
  | removed k i p hdevice hknown haddress hpayload hremove =>
    rw [Devices.leaf_remove hremove] at hleaf
    split at hleaf
    · cases hleaf
    · exact hold hleaf

end InverterDashboard.Server
