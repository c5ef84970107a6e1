import InverterDashboard.Server.Broadcasts
import InverterDashboard.Server.Forgetting

/-
  What a gateway snapshot says of the controller stays out of what it says of the native side.

  `apply_snapshot` merges the controller object before it replaces the native leaves, in one call.
  Two snapshots that agree on every native bucket are applied to one source: where neither
  controller part raises, both leave the same devices, water authority, claimed readings, slots,
  alarm values and banners, and the controller part raises exactly when it reports a measurement
  time no float holds, or resets the controller over stored ids that cannot be ordered
  (`native_undisturbed_iff`).
-/

namespace InverterDashboard.Server

open Python Cerbo Controller Notifications Temporal

/-! ## Snapshots -/

/-- The source a snapshot leaves, and whether `apply_snapshot` completed. -/
structure Applied where
  source : Source
  completed : Bool

/-- `apply_snapshot`, with the notification leaves. -/
def Source.applySnapshot (site : Site) (clock : Clock) (snapshot : Object) (s : Source) :
    Applied :=
  let c := Server.applySnapshot site.cfg clock snapshot s.mqtt
  match c.result with
  | some _ =>
    ⟨{ s with
      mqtt := c.state
      board := s.board.applySnapshot site.unicode .program snapshot }, true⟩
  | none => ⟨{ s with mqtt := c.state }, false⟩

def inverterKey : Str := Str.lit "inverter"

/-- The same native buckets and the same platform leaves. -/
structure AgreeNative (a b : Object) : Prop where
  buckets : ∀ kind : Kind, a.get? kind.name = b.get? kind.name
  platform : a.get? (Str.lit "platform") = b.get? (Str.lit "platform")

/-- The native side of two sources is the same. -/
structure SameNative (a b : Source) : Prop where
  devices : a.mqtt.cerboDevices = b.mqtt.cerboDevices
  waterModes : a.mqtt.waterModeObservations = b.mqtt.waterModeObservations
  claims : a.mqtt.cerboClaimedKeys = b.mqtt.cerboClaimedKeys
  readings : ∀ k ∈ a.mqtt.cerboClaimedKeys,
    a.mqtt.currentState.get? k = b.mqtt.currentState.get? k
  slots : a.board.platformSlots = b.board.platformSlots
  alarms : a.board.alarmValues = b.board.alarmValues
  notifications : a.board.notifications = b.board.notifications

/-- Both snapshots are applied, and leave the same native side. -/
structure Undisturbed (site : Site) (clock : Clock) (s : Source) (a b : Object) : Prop where
  left : (s.applySnapshot site clock a).completed = true
  right : (s.applySnapshot site clock b).completed = true
  same : SameNative (s.applySnapshot site clock a).source (s.applySnapshot site clock b).source

/-- A reported measurement time is no integer beyond the floats. -/
def TimeFits (snapshot : Object) : Prop :=
  ∀ controller backup i, snapshot.get? inverterKey = some (.dict controller) →
    (Dict.ofList controller).get? (Str.lit "grid_backup") = some (.dict backup) →
    Value.member (Str.lit "measurement_time") backup = .int i → (Float64.ofInt? i).isSome = true

/-- The snapshot replaces the controller's state, or clears it. -/
def ResetsController (snapshot : Object) : Prop :=
  snapshot.get? inverterKey = some .none ∨
    ∃ controller, snapshot.get? inverterKey = some (.dict controller)

/-! ## Which controller parts complete -/

theorem andThen_isSome {α β : Type} (c : Call α) (f : α → MqttState → Call β) :
    (c.andThen f).result.isSome = true ↔
      ∃ a, c.result = some a ∧ (f a c.state).result.isSome = true := by
  unfold Call.andThen
  cases c.result with
  | none => simp
  | some a => simp

theorem backupObservedAt_isSome (backup : Value) :
    (backupObservedAt backup).isSome = true ↔ ∀ members i, backup = .dict members →
      Value.member (Str.lit "measurement_time") members = .int i →
      (Float64.ofInt? i).isSome = true := by
  constructor
  · rintro h members i rfl hm
    unfold backupObservedAt at h
    simp only [Value.dict?, Option.map_some, hm] at h
    rwa [Option.isSome_map] at h
  · intro h
    unfold backupObservedAt
    cases backup with
    | dict members =>
      simp only [Value.dict?, Option.map_some]
      cases hm : Value.member (Str.lit "measurement_time") members with
      | int i => simpa using h members i rfl hm
      | _ => rfl
    | _ => rfl

theorem observe_isSome (clock : Clock) (incoming : Object) (retained : Bool) (s : MqttState) :
    (observe clock incoming retained s).result.isSome = true ↔
      ∀ backup, incoming.get? (Str.lit "grid_backup") = some backup →
        (backupObservedAt backup).isSome = true := by
  unfold observe
  extract_lets s₁ s₂
  cases incoming.get? (Str.lit "grid_backup") with
  | none => simp [Call.done]
  | some backup =>
    simp only [Option.some.injEq, forall_eq']
    cases backupObservedAt backup with
    | none => simp
    | some measured => simp [Call.done]

theorem merge_isSome (cfg : Config) (clock : Clock) (incoming : Object) (retained : Bool)
    (s : MqttState) :
    (mergeDaemonState cfg clock incoming retained s).result.isSome = true ↔
      (∀ backup, incoming.get? (Str.lit "grid_backup") = some backup →
        (backupObservedAt backup).isSome = true) ∧ s.cerboDevices.Ids Orderable := by
  unfold mergeDaemonState
  extract_lets s₁ s₂ s₃
  have h₂ : s₂.native = s.native := by
    unfold s₂
    split
    · rfl
    · rfl
  have hdevices : (observe clock incoming retained s₃).state.cerboDevices = s.cerboDevices :=
    cerboDevices_of_native ((native_observe clock incoming retained s₃).trans h₂)
  rw [andThen_isSome]
  simp only [apply_isSome_iff, hdevices]
  rw [← observe_isSome clock incoming retained s₃, Option.isSome_iff_exists]
  constructor
  · rintro ⟨a, ha, hids⟩
    exact ⟨⟨a, ha⟩, hids⟩
  · rintro ⟨⟨a, ha⟩, hids⟩
    exact ⟨a, ha, hids⟩

theorem clearDaemon_isSome (cfg : Config) (s : MqttState) :
    (clearDaemonState cfg s).result.isSome = true ↔ s.cerboDevices.Ids Orderable :=
  apply_isSome_iff cfg s.withoutDaemon

/-- The controller part of a snapshot raises over a measurement time or over stored ids only. -/
theorem snapshotController_isSome (cfg : Config) (clock : Clock) (snapshot : Object)
    (s : MqttState) :
    (applySnapshotController cfg clock snapshot s).result.isSome = true ↔
      TimeFits snapshot ∧ (ResetsController snapshot → s.cerboDevices.Ids Orderable) := by
  unfold applySnapshotController
  extract_lets s₁ controller
  have hfinish : ∀ c : Call Unit, (c.andThen fun _ s =>
      if (s.gatewayCapabilities.getD (Str.lit "setpoint_override")).isTrue then .done s
      else .done { s with
        currentState := s.currentState.set (Str.lit "setpoint_override") .none
        setpointOverrideObservedAt := none }).result.isSome = c.result.isSome := by
    intro c
    rw [Bool.eq_iff_iff, andThen_isSome]
    constructor
    · rintro ⟨a, ha, -⟩
      exact Option.isSome_iff_exists.mpr ⟨a, ha⟩
    · intro h
      obtain ⟨a, ha⟩ := Option.isSome_iff_exists.mp h
      refine ⟨a, ha, ?_⟩
      split
      · rfl
      · rfl
  rw [hfinish]
  have hids : ∀ es, ((clearDaemonState cfg s₁).andThen fun _ s =>
      mergeDaemonState cfg clock (Dict.ofList es) false s).result.isSome = true ↔
      (∀ backup, (Dict.ofList es).get? (Str.lit "grid_backup") = some backup →
        (backupObservedAt backup).isSome = true) ∧ s.cerboDevices.Ids Orderable := by
    intro es
    have hdevices : (clearDaemonState cfg s₁).state.cerboDevices = s.cerboDevices :=
      cerboDevices_of_native (native_clearDaemon cfg s₁)
    rw [andThen_isSome]
    simp only [merge_isSome, hdevices]
    constructor
    · rintro ⟨_, -, h⟩
      exact h
    · intro h
      obtain ⟨a, ha⟩ := Option.isSome_iff_exists.mp ((clearDaemon_isSome cfg s₁).mpr h.2)
      exact ⟨a, ha, h⟩
  unfold controller TimeFits ResetsController inverterKey
  cases hinverter : snapshot.get? (Str.lit "inverter") with
  | none => simp [Call.done]
  | some v =>
    cases v with
    | none => simpa using clearDaemon_isSome cfg s₁
    | dict es =>
      simp only [hids, backupObservedAt_isSome]
      constructor
      · rintro ⟨htime, horder⟩
        refine ⟨?_, fun _ => horder⟩
        rintro controller backup i hes hbackup hmember
        obtain rfl := Value.dict.inj (Option.some.inj hes)
        exact htime _ hbackup backup i rfl hmember
      · rintro ⟨htime, horder⟩
        refine ⟨?_, horder (Or.inr ⟨es, rfl⟩)⟩
        rintro _ hbackup backup i rfl hmember
        exact htime es backup i rfl hbackup hmember
    | _ => simp [Call.done]

/-! ## What both snapshots leave -/

theorem snapshotLeaves_congr {a b : Object} (h : AgreeNative a b) :
    snapshotLeaves a = snapshotLeaves b := by
  unfold snapshotLeaves Object.getD
  simp only [h.buckets]

theorem board_congr {a b : Object} (h : AgreeNative a b) (u : Unicode) (limits : Limits)
    (board : Board) : board.applySnapshot u limits a = board.applySnapshot u limits b := by
  have hbattery : Board.bucketLeaves a (Str.lit "battery") = Board.bucketLeaves b (Str.lit "battery") := by
    unfold Board.bucketLeaves
    rw [show a.get? (Str.lit "battery") = b.get? (Str.lit "battery") from h.buckets .battery]
  have hvebus : Board.bucketLeaves a (Str.lit "vebus") = Board.bucketLeaves b (Str.lit "vebus") := by
    unfold Board.bucketLeaves
    rw [show a.get? (Str.lit "vebus") = b.get? (Str.lit "vebus") from h.buckets .vebus]
  have halarms : Board.alarmLeaves a = Board.alarmLeaves b := by
    unfold Board.alarmLeaves Board.alarmBuckets
    simp only [List.flatMap_cons, List.flatMap_nil, hbattery, hvebus]
  have hpresent : Board.present a = Board.present b := by
    funext topic
    unfold Board.present Board.alarmBuckets
    simp only [List.any_cons, List.any_nil, hbattery, hvebus]
  unfold Board.applySnapshot Board.syncAlarmsFromSnapshot
  rw [h.platform, halarms, hpresent]

/-- The overlays of two states that agree natively show the same under the claimed keys. -/
theorem apply_agrees {cfg : Config} {s t : MqttState} (hview : s.nativeView = t.nativeView)
    (howned : Owned s.cerboClaimedKeys) (hs : (applyCerboOverlays cfg s).result.isSome = true) :
    ∀ k ∈ (applyCerboOverlays cfg s).state.cerboClaimedKeys,
      (applyCerboOverlays cfg s).state.currentState.get? k =
        (applyCerboOverlays cfg t).state.currentState.get? k := by
  have hclaimed : s.cerboClaimedKeys = t.cerboClaimedKeys :=
    congrArg NativeView.cerboClaimedKeys hview
  have hoverlay : overlay cfg s.seen (devices s.cerboDevices) =
      overlay cfg t.seen (devices t.cerboDevices) := congrArg (NativeView.overlay cfg) hview
  unfold applyCerboOverlays at hs ⊢
  rw [← hoverlay]
  cases ho : overlay cfg s.seen (devices s.cerboDevices) with
  | none =>
    rw [ho] at hs
    cases hs
  | some o =>
    intro k hk
    have hk' : k ∈ unionKeys s.cerboClaimedKeys o.keys := hk
    have hne : k ≠ Str.lit "telemetry_available" := by
      apply ne_telemetry
      rcases mem_unionKeys.mp hk' with hmem | hmem
      · exact howned k hmem
      · exact overlay_owned ho k hmem
    show (s.show o).currentState.get? k = (t.show o).currentState.get? k
    rw [show_currentState s o hne, show_currentState t o hne, ← hclaimed]
    rw [if_pos hk', if_pos hk']

/-- The state whose overlays a snapshot applies, once the pumps are listed. -/
def replacedState (cfg : Config) (clock : Clock) (leaves : List Leaf) (pumps : Listing)
    (s : MqttState) : MqttState :=
  noteNativeObservation (Str.lit "igw") clock
    { s with
      cerboDevices := leaves.foldl storeLeaf Dict.empty
      cerboClaimedKeys := unionKeys s.cerboClaimedKeys (leaves.flatMap (Leaf.claims cfg))
      waterModeObservations := modeObservations pumps clock.mono }

theorem replace_eq (cfg : Config) (clock : Clock) {snapshot : Object} {pumps : Listing}
    (h : devices ((snapshotLeaves snapshot).foldl storeLeaf Dict.empty) .pump = some pumps)
    (s : MqttState) : replaceCerboSnapshot cfg clock snapshot s =
      applyCerboOverlays cfg (replacedState cfg clock (snapshotLeaves snapshot) pumps s) := by
  unfold replaceCerboSnapshot
  dsimp only
  rw [h]
  rfl

/-- Telemetry whose native side is the same. -/
structure SameTelemetry (s t : MqttState) : Prop where
  devices : s.cerboDevices = t.cerboDevices
  waterModes : s.waterModeObservations = t.waterModeObservations
  claims : s.cerboClaimedKeys = t.cerboClaimedKeys
  readings : ∀ k ∈ s.cerboClaimedKeys, s.currentState.get? k = t.currentState.get? k

/-- Replacing the leaves of two states that agree natively leaves the same. -/
theorem replaced_same {cfg : Config} (clock : Clock) {a b : Object} (hagree : AgreeNative a b)
    {s t : MqttState} (hview : s.nativeView = t.nativeView) (howned : Owned s.cerboClaimedKeys)
    (hs : (replaceCerboSnapshot cfg clock a s).result.isSome = true) :
    SameTelemetry (replaceCerboSnapshot cfg clock a s).state
      (replaceCerboSnapshot cfg clock b t).state := by
  have hleaves := snapshotLeaves_congr hagree
  have hviews : (replaceCerboSnapshot cfg clock a s).state.nativeView =
      (replaceCerboSnapshot cfg clock b t).state.nativeView := by
    rw [nativeView_snapshot, nativeView_snapshot, hview, hleaves]
  obtain ⟨pumps, hpumps⟩ : ∃ pumps,
      devices ((snapshotLeaves a).foldl storeLeaf Dict.empty) .pump = some pumps := by
    have hids := (snapshot_isSome_iff cfg clock a s).mp hs
    exact Option.isSome_iff_exists.mp ((devices_isSome_iff _ .pump).mpr (hids .pump))
  have hpumps' : devices ((snapshotLeaves b).foldl storeLeaf Dict.empty) .pump = some pumps :=
    hleaves ▸ hpumps
  refine ⟨congrArg NativeView.cerboDevices hviews, ?_,
    congrArg NativeView.cerboClaimedKeys hviews, ?_⟩
  · have hmodes : ∀ leaves u, (applyCerboOverlays cfg
        (replacedState cfg clock leaves pumps u)).state.waterModeObservations =
          modeObservations pumps clock.mono := by
      intro leaves u
      exact congrArg NativePart.waterModeObservations (native_applyCerboOverlays cfg _)
    rw [replace_eq cfg clock hpumps, replace_eq cfg clock hpumps', hmodes, hmodes]
  · rw [replace_eq cfg clock hpumps] at hs
    rw [replace_eq cfg clock hpumps, replace_eq cfg clock hpumps']
    refine apply_agrees ?_ ?_ hs
    · rw [← hleaves]
      exact congrArg (fun v : NativeView => { v with
        cerboDevices := (snapshotLeaves a).foldl storeLeaf Dict.empty
        cerboClaimedKeys := unionKeys v.cerboClaimedKeys
          ((snapshotLeaves a).flatMap (Leaf.claims cfg)) }) hview
    · intro k hk
      rcases mem_unionKeys.mp hk with hmem | hmem
      · exact howned k hmem
      · obtain ⟨l, -, hl⟩ := List.mem_flatMap.mp hmem
        exact l.claims_owned cfg k hl

/-! ## The native side after a snapshot -/

theorem applySnapshot_completed (site : Site) (clock : Clock) (snapshot : Object) (s : Source) :
    (s.applySnapshot site clock snapshot).completed =
      (Server.applySnapshot site.cfg clock snapshot s.mqtt).result.isSome := by
  unfold Source.applySnapshot
  dsimp only
  split
  · next h => rw [h]; rfl
  · next h => rw [h]; rfl

/-- A snapshot is applied exactly when its controller part does not raise and its own ids can be
    ordered. -/
theorem applySnapshot_completes (site : Site) (clock : Clock) (snapshot : Object) (s : Source) :
    (s.applySnapshot site clock snapshot).completed = true ↔
      (TimeFits snapshot ∧ (ResetsController snapshot → s.mqtt.cerboDevices.Ids Orderable)) ∧
        ((snapshotLeaves snapshot).foldl storeLeaf Dict.empty).Ids Orderable := by
  rw [applySnapshot_completed]
  unfold Server.applySnapshot
  rw [andThen_isSome, ← snapshotController_isSome site.cfg clock snapshot s.mqtt]
  simp only [snapshot_isSome_iff]
  constructor
  · rintro ⟨a, ha, hids⟩
    exact ⟨Option.isSome_iff_exists.mpr ⟨a, ha⟩, hids⟩
  · rintro ⟨h, hids⟩
    obtain ⟨a, ha⟩ := Option.isSome_iff_exists.mp h
    exact ⟨a, ha, hids⟩

/-- What a snapshot leaves where it is applied: the leaves replaced after the controller part. -/
theorem applySnapshot_source {site : Site} {clock : Clock} {snapshot : Object} {s : Source}
    (h : (s.applySnapshot site clock snapshot).completed = true) :
    ∃ t, t = (applySnapshotController site.cfg clock snapshot s.mqtt).state ∧
      (replaceCerboSnapshot site.cfg clock snapshot t).result.isSome = true ∧
      (s.applySnapshot site clock snapshot).source =
        { s with
          mqtt := (replaceCerboSnapshot site.cfg clock snapshot t).state
          board := s.board.applySnapshot site.unicode .program snapshot } := by
  have hresult := h
  rw [applySnapshot_completed] at hresult
  refine ⟨_, rfl, ?_⟩
  have happlied : Server.applySnapshot site.cfg clock snapshot s.mqtt =
      replaceCerboSnapshot site.cfg clock snapshot
        (applySnapshotController site.cfg clock snapshot s.mqtt).state := by
    unfold Server.applySnapshot at hresult ⊢
    obtain ⟨a, ha, -⟩ := (andThen_isSome _ _).mp hresult
    unfold Call.andThen
    rw [ha]
  rw [happlied] at hresult
  obtain ⟨a, ha⟩ := Option.isSome_iff_exists.mp hresult
  refine ⟨hresult, ?_⟩
  unfold Source.applySnapshot
  rw [happlied]
  dsimp only
  rw [ha]

/-- Where both snapshots are applied, the native side they leave is the same. -/
theorem sameNative_of_completed {site : Site} {clock : Clock} {s : Source} {a b : Object}
    (hagree : AgreeNative a b) (hsettled : Settled site.cfg s.mqtt)
    (howned : Owned s.mqtt.cerboClaimedKeys)
    (ha : (s.applySnapshot site clock a).completed = true)
    (hb : (s.applySnapshot site clock b).completed = true) :
    SameNative (s.applySnapshot site clock a).source (s.applySnapshot site clock b).source := by
  obtain ⟨t, ht, hta, hsa⟩ := applySnapshot_source ha
  obtain ⟨t', ht', -, hsb⟩ := applySnapshot_source hb
  have hview : t.nativeView = s.mqtt.nativeView :=
    ht ▸ nativeView_snapshotController hsettled clock a
  have hview' : t'.nativeView = s.mqtt.nativeView :=
    ht' ▸ nativeView_snapshotController hsettled clock b
  have hclaimed : t.cerboClaimedKeys = s.mqtt.cerboClaimedKeys :=
    congrArg NativeView.cerboClaimedKeys hview
  have htelemetry := replaced_same clock hagree (hview.trans hview'.symm) (hclaimed ▸ howned) hta
  have hboard := board_congr hagree site.unicode .program s.board
  rw [hsa, hsb]
  exact ⟨htelemetry.devices, htelemetry.waterModes, htelemetry.claims, htelemetry.readings,
    congrArg Board.platformSlots hboard, congrArg Board.alarmValues hboard,
    congrArg Board.notifications hboard⟩

theorem settled_run (cfg : Config) (portal : Str) (es : List Event) :
    Settled cfg (replay (step cfg) (MqttState.init portal) es) :=
  replay_invariant (step cfg) (settled_init cfg portal) (fun _ e h => settled_step h e) es

theorem claims_owned (cfg : Config) (portal : Str) (es : List Event) :
    Owned (replay (step cfg) (MqttState.init portal) es).cerboClaimedKeys :=
  (claims_replay cfg (MqttState.init portal) es).owned Owned.nil

/-- Two polled snapshots that agree natively, whatever they say of the controller, are both applied
    and leave the same native side exactly when neither reports a measurement time beyond the
    floats, and neither resets the controller over stored ids that cannot be ordered. -/
theorem native_undisturbed_iff (site : Site) (portal : Str) (es : List Event) (board : Board)
    (camera : Option CameraEvent) (clock : Clock) {a b : Object} (hagree : AgreeNative a b)
    (hcanonical : ∀ l ∈ snapshotLeaves a, CanonicalDecimal l.inst) :
    Undisturbed site clock ⟨replay (step site.cfg) (MqttState.init portal) es, board, camera⟩ a b ↔
      ∀ x ∈ [a, b], TimeFits x ∧ (ResetsController x →
        (replay (step site.cfg) (MqttState.init portal) es).cerboDevices.Ids Orderable) := by
  have hids : ((snapshotLeaves a).foldl storeLeaf Dict.empty).Ids Orderable := by
    refine ids_foldl (ids_empty _) fun l hl _ => ?_
    obtain ⟨n, hn, -⟩ := hcanonical l hl
    rw [hn]
    rfl
  have hids' : ((snapshotLeaves b).foldl storeLeaf Dict.empty).Ids Orderable :=
    snapshotLeaves_congr hagree ▸ hids
  simp only [List.forall_mem_cons, List.not_mem_nil, false_imp_iff, implies_true, and_true]
  constructor
  · intro h
    exact ⟨((applySnapshot_completes site clock a _).mp h.left).1,
      ((applySnapshot_completes site clock b _).mp h.right).1⟩
  · rintro ⟨ha, hb⟩
    have hleft := (applySnapshot_completes site clock a
      ⟨replay (step site.cfg) (MqttState.init portal) es, board, camera⟩).mpr ⟨ha, hids⟩
    have hright := (applySnapshot_completes site clock b
      ⟨replay (step site.cfg) (MqttState.init portal) es, board, camera⟩).mpr ⟨hb, hids'⟩
    exact ⟨hleft, hright, sameNative_of_completed hagree (settled_run site.cfg portal es)
      (claims_owned site.cfg portal es) hleft hright⟩

/-- A snapshot of a battery, with a measurement time of the grid backup. -/
def backupSnapshot (measured : Value) : Object := Dict.ofList
  [(inverterKey, .dict [(Str.lit "grid_backup", .dict [(Str.lit "measurement_time", measured)])]),
   (Str.lit "battery", .dict [(Str.lit "512/Soc", .int 55)])]

theorem backupSnapshot_agree (v w : Value) : AgreeNative (backupSnapshot v) (backupSnapshot w) where
  buckets kind := by cases kind <;> rfl
  platform := rfl

theorem canonical_battery {snapshot : Object}
    (h : ∀ l ∈ snapshotLeaves snapshot, l.inst = Str.lit "512") :
    ∀ l ∈ snapshotLeaves snapshot, CanonicalDecimal l.inst := by
  intro l hl
  rw [h l hl]
  exact ⟨512, by decide, by decide⟩

theorem timeFits_backup {measured : Value}
    (h : ∀ i, measured = .int i → (Float64.ofInt? i).isSome = true) :
    TimeFits (backupSnapshot measured) := by
  intro controller backup i hcontroller hbackup hmember
  obtain rfl : _ = controller := Value.dict.inj (Option.some.inj hcontroller)
  obtain rfl : _ = backup := Value.dict.inj (Option.some.inj hbackup)
  exact h i hmember

theorem native_undisturbed_backup : Undisturbed plainSite ⟨0, 0⟩
    ⟨MqttState.init (Str.lit "p"), Board.init, none⟩ (backupSnapshot (.int 5))
    (backupSnapshot .none) := by
  refine (native_undisturbed_iff plainSite (Str.lit "p") [] Board.init none ⟨0, 0⟩
    (backupSnapshot_agree _ _) (canonical_battery (by decide +kernel))).mpr ?_
  have hfive : TimeFits (backupSnapshot (.int 5)) := by
    apply timeFits_backup
    rintro _ ⟨⟩
    decide +kernel
  have hnone : TimeFits (backupSnapshot .none) := by
    apply timeFits_backup
    rintro _ ⟨⟩
  intro x hx
  refine ⟨?_, fun _ => ids_empty _⟩
  rcases List.mem_cons.mp hx with rfl | hx
  · exact hfive
  · obtain rfl := List.mem_singleton.mp hx
    exact hnone

/-- An integer beyond the floats stops the native side of its snapshot. -/
theorem measurement_stops_native :
    AgreeNative (backupSnapshot (.int (10 ^ 400))) (backupSnapshot .none) ∧
      (∀ l ∈ snapshotLeaves (backupSnapshot (.int (10 ^ 400))), CanonicalDecimal l.inst) ∧
      ¬ Undisturbed plainSite ⟨0, 0⟩ ⟨MqttState.init (Str.lit "p"), Board.init, none⟩
        (backupSnapshot (.int (10 ^ 400))) (backupSnapshot .none) := by
  refine ⟨backupSnapshot_agree _ _, canonical_battery (by decide +kernel), fun h => ?_⟩
  have hstopped : (Source.applySnapshot plainSite ⟨0, 0⟩ (backupSnapshot (.int (10 ^ 400)))
      ⟨MqttState.init (Str.lit "p"), Board.init, none⟩).completed = false := by decide +kernel
  rw [h.left] at hstopped
  cases hstopped

end InverterDashboard.Server
