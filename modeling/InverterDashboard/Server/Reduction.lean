import InverterDashboard.Server.LeafMap

/-
  The reducer refines the leaf map (`reduced_run`): after every operation the state stores the
  surviving leaves, and every claimed key holds its overlay value or its default.

  What is stored and what is shown are followed apart. As long as the store can be listed, every
  operation shows it (`displayed_step`): a controller operation either leaves all native keys alone
  or ends by applying the overlays again.
-/

namespace InverterDashboard.Server

open Python Cerbo Controller Temporal

/-! ## What the state shows -/

/-- The parts of the state that overlays rest on. -/
structure Sound (s : MqttState) : Prop where
  claimed : Owned s.cerboClaimedKeys
  daemonKeys : ∀ k ∈ s.daemonKeys, k ∉ reservedKeys
  unclaimed : ∀ k ∈ nativeSectionKeys, k ∉ s.cerboClaimedKeys → s.currentState.get? k = none

/-- Every claimed key holds its overlay value or its default. -/
def Shows (cfg : Config) (s : MqttState) : Prop :=
  ∃ seen o, Seen.Covers seen (devices s.cerboDevices) ∧
    overlay cfg seen (devices s.cerboDevices) = some o ∧
    (∀ k ∈ o.keys, k ∈ s.cerboClaimedKeys) ∧
    ∀ k ∈ s.cerboClaimedKeys, s.currentState.get? k = some ((o.get? k).getD (collectionDefault k))

theorem nativeSectionKeys_owned : Owned nativeSectionKeys := by decide

/-- Keys outside the native side that operations assign. -/
theorem foreign_not_owned : ∀ k ∈ keyList ["telemetry_available", "setpoint_override",
    "grid_backup_observed_at"], k ∉ cerboOwnedKeys := by decide

/-- A change of the shown state that leaves owned keys alone keeps everything. -/
theorem Sound.foreign {s : MqttState} (h : Sound s) {k : Str} (hk : k ∉ cerboOwnedKeys)
    (v : Value) : Sound { s with currentState := s.currentState.set k v } where
  claimed := h.claimed
  daemonKeys := h.daemonKeys
  unclaimed := by
    intro x hx hc
    have hne : x ≠ k := fun e => hk (e ▸ nativeSectionKeys_owned x hx)
    rw [Dict.get?_set_ne _ _ hne]
    exact h.unclaimed x hx hc

theorem ne_telemetry {k : Str} (h : k ∈ cerboOwnedKeys) : k ≠ Str.lit "telemetry_available" :=
  fun e => foreign_not_owned _ (by decide) (e ▸ h)

/-- Every kind of the store can be listed. -/
def Listed (m : Devices) : Prop := ∀ kind, ∃ d, devices m kind = some d

/-- Applying the overlays of a sound state shows them. -/
theorem applyCerboOverlays_shows (cfg : Config) {s : MqttState} (hl : Listed s.cerboDevices)
    (h : Sound s) :
    ∃ o, applyCerboOverlays cfg s = .done (s.show o) ∧ Sound (s.show o) ∧
      Shows cfg (s.show o) := by
  obtain ⟨o, ho⟩ := overlay_isSome cfg s.seen hl
  have howned : Owned (unionKeys s.cerboClaimedKeys o.keys) := by
    intro k hk
    rcases mem_unionKeys.mp hk with hk | hk
    · exact h.claimed k hk
    · exact overlay_owned ho k hk
  refine ⟨o, ?_, ⟨howned, h.daemonKeys, ?_⟩, s.seen, o, covers_seen s, ho, ?_, ?_⟩
  · unfold applyCerboOverlays
    rw [ho]
  · intro k hk hc
    have hk' : k ∉ unionKeys s.cerboClaimedKeys o.keys := hc
    rw [show_currentState s o (ne_telemetry (nativeSectionKeys_owned k hk)), if_neg hk']
    exact h.unclaimed k hk fun hm => hc (mem_unionKeys.mpr (Or.inl hm))
  · exact fun k hk => mem_unionKeys.mpr (Or.inr hk)
  · intro k hk
    have hk' : k ∈ unionKeys s.cerboClaimedKeys o.keys := hk
    rw [show_currentState s o (ne_telemetry (howned k hk)), if_pos hk']

/-! ## States that show their store -/

/-- The state shows the overlay of a store that can be listed. -/
structure Displayed (cfg : Config) (s : MqttState) : Prop where
  listed : Listed s.cerboDevices
  sound : Sound s
  shows : Shows cfg s

/-- Nothing native changes: no device, no claim, no owned key. -/
structure KeepsNative (s s' : MqttState) : Prop where
  devices : s'.cerboDevices = s.cerboDevices
  claimed : s'.cerboClaimedKeys = s.cerboClaimedKeys
  daemonKeys : s'.daemonKeys = s.daemonKeys
  current : ∀ k ∈ cerboOwnedKeys, s'.currentState.get? k = s.currentState.get? k

namespace KeepsNative

theorem refl (s : MqttState) : KeepsNative s s := ⟨rfl, rfl, rfl, fun _ _ => rfl⟩

theorem trans {a b c : MqttState} (hab : KeepsNative a b) (hbc : KeepsNative b c) :
    KeepsNative a c where
  devices := hbc.devices.trans hab.devices
  claimed := hbc.claimed.trans hab.claimed
  daemonKeys := hbc.daemonKeys.trans hab.daemonKeys
  current := fun k hk => (hbc.current k hk).trans (hab.current k hk)

end KeepsNative

namespace Displayed

variable {cfg : Config} {s s' : MqttState}

/-- A step that touches neither the devices nor a native key. -/
theorem agree (h : Displayed cfg s) (hd : s'.cerboDevices = s.cerboDevices)
    (hc : s'.cerboClaimedKeys = s.cerboClaimedKeys)
    (hk : ∀ k ∈ s'.daemonKeys, k ∉ reservedKeys)
    (ha : ∀ k, k ∈ s.cerboClaimedKeys ∨ k ∈ nativeSectionKeys →
      s'.currentState.get? k = s.currentState.get? k) : Displayed cfg s' where
  listed := hd ▸ h.listed
  sound := by
    refine ⟨hc ▸ h.sound.claimed, hk, ?_⟩
    intro k hs hn
    rw [ha k (Or.inr hs)]
    exact h.sound.unclaimed k hs (hc ▸ hn)
  shows := by
    obtain ⟨seen, o, hcover, ho, hkeys, hshow⟩ := h.shows
    refine ⟨seen, o, hd ▸ hcover, hd ▸ ho, hc ▸ hkeys, ?_⟩
    intro k hk
    rw [hc] at hk
    rw [ha k (Or.inl hk)]
    exact hshow k hk

theorem keeps (h : Displayed cfg s) (hk : KeepsNative s s') : Displayed cfg s' := by
  refine h.agree hk.devices hk.claimed (hk.daemonKeys ▸ h.sound.daemonKeys) ?_
  intro k hm
  exact hk.current k (hm.elim (h.sound.claimed k) (nativeSectionKeys_owned k))

/-- Applying the overlays of a store that can be listed. -/
theorem of_overlays (cfg : Config) (s : MqttState) (hl : Listed s.cerboDevices) (h : Sound s) :
    (applyCerboOverlays cfg s).result = some () ∧
      Displayed cfg (applyCerboOverlays cfg s).state := by
  obtain ⟨o, happly, hsound, hshows⟩ := applyCerboOverlays_shows cfg hl h
  rw [happly]
  exact ⟨rfl, hl, hsound, hshows⟩

theorem init (cfg : Config) (portal : Str) : Displayed cfg (MqttState.init portal) where
  listed := Stores.empty.devices_isSome
  sound := ⟨Owned.nil, by simp [MqttState.init], fun _ _ _ => rfl⟩
  shows := ⟨⟨fun _ => false, []⟩, Dict.empty, fun _ _ => rfl, overlay_nil cfg,
    fun _ h => absurd h List.not_mem_nil, fun _ h => absurd h List.not_mem_nil⟩

end Displayed

/-! ## Native operations -/

/-- Claims grow by owned keys. -/
theorem Sound.claim {s : MqttState} (h : Sound s) {ks : List Str} (hks : Owned ks) :
    Sound { s with cerboClaimedKeys := unionKeys s.cerboClaimedKeys ks } where
  claimed := fun k hk => (mem_unionKeys.mp hk).elim (h.claimed k) (hks k)
  daemonKeys := h.daemonKeys
  unclaimed := fun k hs hn => h.unclaimed k hs fun hc => hn (mem_unionKeys.mpr (Or.inl hc))

theorem displayed_refresh {cfg : Config} {s : MqttState} (clock : Clock)
    (hl : Listed s.cerboDevices) (h : Sound s) :
    Displayed cfg (refreshNativeMqttState cfg clock s).state := by
  obtain ⟨hresult, hdisplayed⟩ := Displayed.of_overlays cfg
    (noteNativeObservation (Str.lit "mqtt") clock s) hl ⟨h.claimed, h.daemonKeys, h.unclaimed⟩
  unfold refreshNativeMqttState Call.andThen
  rw [hresult]
  dsimp only
  split
  · exact hdisplayed.agree rfl rfl hdisplayed.sound.daemonKeys fun _ _ => rfl
  · exact hdisplayed

theorem displayed_clearCerbo {cfg : Config} {s : MqttState} (h : Sound s) :
    Displayed cfg (clearCerboState cfg s).state := by
  unfold clearCerboState
  refine (Displayed.of_overlays cfg _ ?_ ?_).2
  · exact Stores.empty.devices_isSome
  · exact ⟨h.claimed, h.daemonKeys, h.unclaimed⟩

theorem displayed_snapshot {cfg : Config} {s : MqttState} (h : Sound s) (clock : Clock)
    {snapshot : Object} (hl : Listed ((snapshotLeaves snapshot).foldl storeLeaf Dict.empty)) :
    (replaceCerboSnapshot cfg clock snapshot s).result = some () ∧
      Displayed cfg (replaceCerboSnapshot cfg clock snapshot s).state := by
  have hclaims : Owned ((snapshotLeaves snapshot).flatMap (Leaf.claims cfg)) := by
    intro k hk
    obtain ⟨x, -, hx⟩ := List.mem_flatMap.mp hk
    exact Leaf.claims_owned cfg x k hx
  have hsound := h.claim hclaims
  obtain ⟨pumps, hpumps⟩ := hl .pump
  unfold replaceCerboSnapshot
  simp only [hpumps]
  exact Displayed.of_overlays cfg _ hl ⟨hsound.claimed, hsound.daemonKeys, hsound.unclaimed⟩

/-- An accepted message leaves a sound state. -/
theorem Sound.applied {cfg : Config} {clock : Clock} {kind : Kind} {inst path : Str}
    {payload : Payload} {retained : Bool} {s s' : MqttState} (h : Sound s)
    (happlied : applyNativePayload cfg clock kind inst path payload retained s = some s') :
    Sound s' := by
  unfold applyNativePayload at happlied
  split at happlied
  · obtain ⟨m, -, rfl⟩ := Option.map_eq_some_iff.mp happlied
    exact ⟨h.claimed, h.daemonKeys, h.unclaimed⟩
  · obtain ⟨v, -, rfl⟩ := Option.map_eq_some_iff.mp happlied
    have hclaim := h.claim (Leaf.claims_owned cfg ⟨kind, inst, path, v⟩)
    exact ⟨hclaim.claimed, hclaim.daemonKeys, hclaim.unclaimed⟩

theorem displayed_selected {cfg : Config} {s : MqttState} (h : Displayed cfg s) (topic : Str)
    (payload : Payload) : Displayed cfg (nativeTopicSelected topic payload s).1 := by
  obtain ⟨portal, hp⟩ := nativeTopicSelected_fst topic payload s
  rw [hp]
  exact h.agree rfl rfl h.sound.daemonKeys fun _ _ => rfl

theorem displayed_supersedeMode {cfg : Config} {s : MqttState} (h : Displayed cfg s)
    (kind : Kind) (inst path : Str) : Displayed cfg (supersedeMode kind inst path s) := by
  unfold supersedeMode
  split
  · exact h.agree rfl rfl h.sound.daemonKeys fun _ _ => rfl
  · exact h

theorem displayed_native {cfg : Config} {s : MqttState} (h : Displayed cfg s) (clock : Clock)
    (topic : Str) (payload : Payload) (retained : Bool)
    (hl : Listed (nativeMessage cfg clock topic payload retained s).state.cerboDevices) :
    Displayed cfg (nativeMessage cfg clock topic payload retained s).state := by
  have hselected := displayed_selected h topic payload
  revert hl
  unfold nativeMessage handleCerboDevice
  dsimp only
  split
  · split
    · exact fun _ => hselected
    · next kind inst path _ =>
      have hsuperseded := displayed_supersedeMode hselected kind inst path
      split
      · exact fun _ => hsuperseded
      · next s' happlied =>
        intro hl
        rw [cerboDevices_of_native (native_refresh cfg clock s')] at hl
        exact displayed_refresh clock hl (hsuperseded.sound.applied happlied)
  · exact fun _ => hselected

/-! ## Controller operations -/

/-- The merge writes no reserved key and no claimed one. -/
theorem mergeDaemonField_get? {claimed : List Str} (hc : Owned claimed) (current : Object)
    (key : Str) (value : Value) {k : Str} (hk : k ∈ claimed ∨ k ∈ nativeSectionKeys) :
    (mergeDaemonField claimed current key value).get? k = current.get? k := by
  unfold mergeDaemonField
  split
  · rfl
  · next hres =>
    split
    · rfl
    · next hown =>
      refine Dict.get?_set_ne _ _ ?_
      rintro rfl
      rcases hk with hk | hk
      · exact hown ⟨hc k hk, hk⟩
      · exact hres (List.mem_append_left _ hk)

theorem mergeDaemonFields_get? {claimed : List Str} (hc : Owned claimed) (incoming current : Object)
    {k : Str} (hk : k ∈ claimed ∨ k ∈ nativeSectionKeys) :
    (mergeDaemonFields claimed incoming current).get? k = current.get? k := by
  unfold mergeDaemonFields
  induction incoming.entries generalizing current with
  | nil => rfl
  | cons e es ih =>
    rw [List.foldl_cons, ih, mergeDaemonField_get? hc current e.1 e.2 hk]

theorem get?_set_foreign (current : Object) (v : Value) {k x : Str} (hk : k ∈ cerboOwnedKeys)
    (hx : x ∉ cerboOwnedKeys) : (current.set x v).get? k = current.get? k :=
  Dict.get?_set_ne _ _ fun e => hx (e ▸ hk)

theorem observeOverride_keeps (now : ℚ) (value : Value) (retained : Bool) (s : MqttState) :
    KeepsNative s (observeOverride now value retained s) := by
  unfold observeOverride
  split
  · exact ⟨rfl, rfl, rfl, fun k hk => get?_set_foreign _ _ hk (by decide)⟩
  · exact ⟨rfl, rfl, rfl, fun k hk => get?_set_foreign _ _ hk (by decide)⟩

/-- An observation assigns keys outside the native side. -/
theorem observe_keeps (clock : Clock) (incoming : Object) (retained : Bool) (s : MqttState) :
    KeepsNative s (observe clock incoming retained s).state := by
  unfold observe
  extract_lets s₁ s₂
  have h₁ : KeepsNative s s₁ := by
    unfold s₁
    split
    · exact observeOverride_keeps _ _ _ _
    · exact KeepsNative.refl s
  have h₂ : KeepsNative s s₂ := by
    unfold s₂
    split
    · exact h₁.trans ⟨rfl, rfl, rfl, fun _ _ => rfl⟩
    · exact h₁
  split
  · exact h₂
  · split
    · exact h₂
    · exact h₂.trans ⟨rfl, rfl, rfl, fun k hk => get?_set_foreign _ _ hk (by decide)⟩

theorem displayed_merge {cfg : Config} {s : MqttState} (h : Displayed cfg s) (clock : Clock)
    (incoming : Object) (retained : Bool) :
    Displayed cfg (mergeDaemonState cfg clock incoming retained s).state := by
  unfold mergeDaemonState
  extract_lets s₁ s₂ s₃
  have hkeys : ∀ k ∈ s₁.daemonKeys, k ∉ reservedKeys := by
    intro k hk
    rcases mem_unionKeys.mp hk with hk | hk
    · exact h.sound.daemonKeys k hk
    · simpa using (List.mem_filter.mp hk).2
  have h₁ : Displayed cfg s₁ := h.agree rfl rfl hkeys fun _ _ => rfl
  have h₂ : Displayed cfg s₂ := by
    unfold s₂
    split
    · exact h₁.agree rfl rfl hkeys fun _ _ => rfl
    · exact h₁
  have h₃ : Displayed cfg s₃ := h₂.agree rfl rfl h₂.sound.daemonKeys fun k hk =>
    mergeDaemonFields_get? h₂.sound.claimed incoming s₂.currentState hk
  have h₄ := h₃.keeps (observe_keeps clock incoming retained s₃)
  exact Call.andThen_state (P := Displayed cfg) h₄ fun _ =>
    (Displayed.of_overlays cfg _ h₄.listed h₄.sound).2

/-- Dropping the controller leaves native sections alone; claimed keys are shown again. -/
theorem displayed_clearDaemon {cfg : Config} {s : MqttState} (h : Displayed cfg s) :
    (clearDaemonState cfg s).result = some () ∧ Displayed cfg (clearDaemonState cfg s).state := by
  refine Displayed.of_overlays cfg _ h.listed ⟨h.sound.claimed, h.sound.daemonKeys, ?_⟩
  intro k hs hn
  have hk : ∀ x ∈ keyList ["setpoint_override", "grid_backup_observed_at"], k ≠ x := by
    intro x hx e
    have hno : ∀ x ∈ keyList ["setpoint_override", "grid_backup_observed_at"],
        x ∉ cerboOwnedKeys := by decide
    exact hno x hx (e ▸ nativeSectionKeys_owned k hs)
  have hcurrent : (s.currentState.setAll s.daemonKeys fun _ => Value.none).get? k = none := by
    rw [Dict.get?_setAll, if_neg]
    · exact h.sound.unclaimed k hs hn
    · exact fun hm => h.sound.daemonKeys k hm (List.mem_append_left _ hs)
  unfold MqttState.withoutDaemon
  dsimp only
  split
  · exact hcurrent
  · rw [Dict.get?_set_ne _ _ (hk _ (by decide)), Dict.get?_set_ne _ _ (hk _ (by decide))]
    exact hcurrent

theorem displayed_controllerAvailable {cfg : Config} {s : MqttState} (h : Displayed cfg s)
    (clock : Clock) : Displayed cfg (controllerAvailable cfg clock s).state := by
  unfold controllerAvailable
  split
  · exact h
  · split
    · have hclear := (displayed_clearDaemon h).2
      exact Call.andThen_state hclear fun _ => hclear
    · exact h

theorem displayed_snapshotController {cfg : Config} {s : MqttState} (h : Displayed cfg s)
    (clock : Clock) (snapshot : Object) :
    Displayed cfg (applySnapshotController cfg clock snapshot s).state := by
  unfold applySnapshotController
  extract_lets s₁ controller
  have h₁ : Displayed cfg s₁ := h.agree rfl rfl h.sound.daemonKeys fun _ _ => rfl
  have hc : Displayed cfg controller.state := by
    unfold controller
    split
    · have hclear := (displayed_clearDaemon h₁).2
      exact Call.andThen_state hclear fun _ => displayed_merge hclear clock _ false
    · exact (displayed_clearDaemon h₁).2
    · exact h₁
  refine Call.andThen_state hc fun _ => ?_
  split
  · exact hc
  · exact hc.keeps ⟨rfl, rfl, rfl, fun k hk => get?_set_foreign _ _ hk (by decide)⟩

/-- **One operation.** A store that can be listed afterwards is shown. -/
theorem displayed_step {cfg : Config} {s : MqttState} (h : Displayed cfg s) (e : Event)
    (hl : Listed (step cfg s e).cerboDevices) : Displayed cfg (step cfg s e) := by
  obtain ⟨clock, op⟩ := e
  cases op with
  | native topic payload retained => exact displayed_native h clock topic payload retained hl
  | snapshot snapshot =>
    refine (displayed_snapshot h.sound clock ?_).2
    rw [← cerboDevices_snapshot cfg clock snapshot s]
    exact hl
  | clearNative => exact displayed_clearCerbo h.sound
  | controller incoming retained => exact displayed_merge h clock incoming retained
  | controllerGone => exact (displayed_clearDaemon h).2
  | override value retained => exact h.keeps (observe_keeps clock _ retained s)
  | gateway snapshot =>
    have hc := displayed_snapshotController h clock snapshot
    unfold step applySnapshot Call.andThen at hl ⊢
    dsimp only at hl ⊢
    cases hresult : (applySnapshotController cfg clock snapshot s).result with
    | none => exact hc
    | some u =>
      rw [hresult] at hl
      refine (displayed_snapshot hc.sound clock ?_).2
      rw [← cerboDevices_snapshot cfg clock snapshot]
      exact hl
  | readController => exact displayed_controllerAvailable h clock
  | portal portal =>
    unfold step discoverPortal
    dsimp only
    split
    · exact h.agree rfl rfl h.sound.daemonKeys fun _ _ => rfl
    · exact h

/-! ## The reducer refines the leaf map -/

/-- The state reduces the leaves `l`: it stores them, and shows their overlay. -/
structure Reduced (cfg : Config) (l : LeafMap) (s : MqttState) : Prop where
  stores : Stores s.cerboDevices l
  sound : Sound s
  shows : Shows cfg s

namespace Reduced

variable {cfg : Config} {l : LeafMap} {s : MqttState}

theorem displayed (h : Reduced cfg l s) : Displayed cfg s :=
  ⟨h.stores.devices_isSome, h.sound, h.shows⟩

theorem of_displayed (hl : Stores s.cerboDevices l) (h : Displayed cfg s) : Reduced cfg l s :=
  ⟨hl, h.sound, h.shows⟩

theorem init (cfg : Config) (portal : Str) : Reduced cfg .empty (MqttState.init portal) :=
  .of_displayed Stores.empty (.init cfg portal)

end Reduced

/-- A message changes the store as it changes the leaf map; a rejected one changes neither. -/
theorem stores_applyNativePayload {cfg : Config} {l : LeafMap} {s : MqttState} (clock : Clock)
    (kind : Kind) {inst : Str} (path : Str) (payload : Payload) (retained : Bool)
    (h : Stores s.cerboDevices l) (hi : CanonicalDecimal inst) :
    (∃ s', applyNativePayload cfg clock kind inst path payload retained s = some s' ∧
        Stores s'.cerboDevices (l.message kind inst path payload)) ∨
      applyNativePayload cfg clock kind inst path payload retained s = none ∧
        Stores s.cerboDevices (l.message kind inst path payload) := by
  cases payload with
  | empty =>
    unfold applyNativePayload removeCerboDevice
    cases hr : s.cerboDevices.remove kind inst with
    | none => exact Or.inr ⟨rfl, h.drop_absent hr⟩
    | some m => exact Or.inl ⟨_, rfl, h.drop hr⟩
  | malformed => exact Or.inr ⟨rfl, h⟩
  | json data =>
    have hstore : applyNativePayload cfg clock kind inst path (.json data) retained s =
        storeCerboLeaf cfg clock kind inst path (.json data) retained s := rfl
    rw [hstore]
    unfold storeCerboLeaf
    cases hv : leafValue? kind path (.json data) with
    | none =>
      rw [l.message_rejected inst hv]
      exact Or.inr ⟨rfl, h⟩
    | some v =>
      rw [l.message_accepted inst hv]
      exact Or.inl ⟨_, rfl, h.put (x := ⟨kind, inst, path, v⟩) hi⟩

theorem cerboDevices_supersedeMode (kind : Kind) (inst path : Str) (s : MqttState) :
    (supersedeMode kind inst path s).cerboDevices = s.cerboDevices := by
  unfold supersedeMode
  split
  · rfl
  · rfl

theorem stores_handleCerboDevice {cfg : Config} {l : LeafMap} {s : MqttState}
    (h : Stores s.cerboDevices l) (clock : Clock) (topic : Str) (payload : Payload)
    (retained : Bool) (hids : ∀ a ∈ nativeTopic s.portalId topic, CanonicalDecimal a.2.1) :
    Stores (handleCerboDevice cfg clock topic payload retained s).state.cerboDevices
      (l.received payload (nativeTopic s.portalId topic)) := by
  unfold handleCerboDevice
  cases ht : nativeTopic s.portalId topic with
  | none => exact h
  | some a =>
    obtain ⟨kind, inst, path⟩ := a
    rw [← cerboDevices_supersedeMode kind inst path] at h
    dsimp only
    rcases stores_applyNativePayload clock kind path payload retained h (hids _ ht) with
      ⟨s', hs, hstores⟩ | ⟨hs, hstores⟩
    · rw [hs, cerboDevices_of_native (native_refresh cfg clock s')]
      exact hstores
    · rw [hs]
      exact hstores

theorem stores_native {cfg : Config} {l : LeafMap} {s : MqttState} (h : Stores s.cerboDevices l)
    (clock : Clock) (topic : Str) (payload : Payload) (retained : Bool)
    (hids : ∀ a ∈ addressed s topic payload, CanonicalDecimal a.2.1) :
    Stores (nativeMessage cfg clock topic payload retained s).state.cerboDevices
      (l.received payload (addressed s topic payload)) := by
  have hselected : Stores (nativeTopicSelected topic payload s).1.cerboDevices l := by
    obtain ⟨portal, hp⟩ := nativeTopicSelected_fst topic payload s
    rw [hp]
    exact h
  unfold addressed at hids ⊢
  unfold nativeMessage
  by_cases hc : (nativeTopicSelected topic payload s).2 = true
  · simp only [hc, if_true] at hids ⊢
    exact stores_handleCerboDevice hselected clock topic payload retained hids
  · simp only [hc] at hids ⊢
    exact hselected

theorem stores_snapshot (cfg : Config) (clock : Clock) {snapshot : Object} (s : MqttState)
    (hids : ∀ x ∈ snapshotLeaves snapshot, CanonicalDecimal x.inst) :
    Stores (replaceCerboSnapshot cfg clock snapshot s).state.cerboDevices
      (.ofSnapshot snapshot) := by
  rw [cerboDevices_snapshot]
  exact Stores.empty.foldl hids

theorem reduced_snapshot {cfg : Config} {l : LeafMap} {s : MqttState} (h : Reduced cfg l s)
    (clock : Clock) {snapshot : Object}
    (hids : ∀ x ∈ snapshotLeaves snapshot, CanonicalDecimal x.inst) :
    (replaceCerboSnapshot cfg clock snapshot s).result = some () ∧
      Reduced cfg (.ofSnapshot snapshot) (replaceCerboSnapshot cfg clock snapshot s).state := by
  have hl : Stores ((snapshotLeaves snapshot).foldl storeLeaf Dict.empty) (.ofSnapshot snapshot) :=
    Stores.empty.foldl hids
  obtain ⟨hresult, hdisplayed⟩ := displayed_snapshot h.sound clock hl.devices_isSome
  exact ⟨hresult, .of_displayed (stores_snapshot cfg clock s hids) hdisplayed⟩

/-- The store after an operation holds the leaves that survive it. -/
theorem stores_step {cfg : Config} {l : LeafMap} {s : MqttState} (h : Stores s.cerboDevices l)
    (e : Event) (hids : CanonicalIds (s, e)) :
    Stores (step cfg s e).cerboDevices (survive cfg l (s, e)) := by
  obtain ⟨clock, op⟩ := e
  have hkeep : ∀ {t : MqttState}, t.native = s.native → Stores t.cerboDevices l := by
    intro t ht
    rw [cerboDevices_of_native ht]
    exact h
  cases op with
  | native topic payload retained => exact stores_native h clock topic payload retained hids
  | snapshot snapshot => exact stores_snapshot cfg clock s hids
  | clearNative =>
    show Stores (clearCerboState cfg s).state.cerboDevices .empty
    unfold clearCerboState
    rw [cerboDevices_of_native (native_applyCerboOverlays cfg _)]
    exact Stores.empty
  | controller incoming retained => exact hkeep (native_merge cfg clock _ _ s)
  | controllerGone => exact hkeep (native_clearDaemon cfg s)
  | override value retained => exact hkeep (native_observe clock _ retained s)
  | gateway snapshot =>
    unfold survive step applySnapshot Call.andThen
    dsimp only
    cases hresult : (applySnapshotController cfg clock snapshot s).result with
    | none => exact hkeep (native_snapshotController cfg clock snapshot s)
    | some u => exact stores_snapshot cfg clock _ hids
  | readController => exact hkeep (native_controllerAvailable cfg clock s)
  | portal portal => exact hkeep (native_discoverPortal portal s)

/-! ## Whole runs -/

/-- **One operation.** The reducer stays a refinement of the surviving leaves. -/
theorem reduced_step {cfg : Config} {l : LeafMap} {s : MqttState} (h : Reduced cfg l s)
    (e : Event) (hids : CanonicalIds (s, e)) : Reduced cfg (survive cfg l (s, e)) (step cfg s e) :=
  have hstores := stores_step h.stores e hids
  .of_displayed hstores (displayed_step h.displayed e hstores.devices_isSome)

theorem reduced_run (cfg : Config) (portal : Str) (es : List Event)
    (hids : ∀ x ∈ trace (step cfg) (MqttState.init portal) es, CanonicalIds x) :
    Reduced cfg (surviving cfg (MqttState.init portal) es)
      (replay (step cfg) (MqttState.init portal) es) := by
  induction es using List.reverseRecOn with
  | nil => exact Reduced.init cfg portal
  | append_singleton es e ih =>
    unfold surviving at ih ⊢
    rw [trace_concat] at hids ⊢
    rw [replay_append, List.foldl_append]
    exact reduced_step (ih fun x hx => hids x (List.mem_append_left _ hx)) e
      (hids _ (by simp))

end InverterDashboard.Server
