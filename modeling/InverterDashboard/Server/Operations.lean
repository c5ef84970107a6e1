import InverterDashboard.Server.MqttState
import InverterDashboard.Temporal.Trace

/-
  Everything that is done to one `MqttState` while its source lives, as one step function.

  A history is a list of timed operations; the state after it is their replay. What is true of
  every history is proved by one lemma for each operation.
-/

namespace InverterDashboard.Server

open Python Cerbo Controller Temporal

inductive MqttOp where
  /-- A native topic, through `on_message`. -/
  | native (topic : Str) (payload : Payload) (retained : Bool)
  /-- `replace_cerbo_snapshot`. -/
  | snapshot (snapshot : Object)
  /-- `clear_cerbo_state`. -/
  | clearNative
  /-- An `inverter/state` object: `_merge_daemon_state`. -/
  | controller (incoming : Object) (retained : Bool)
  /-- An empty `inverter/state`: `clear_daemon_state`. -/
  | controllerGone
  /-- An `inverter/setpoint_override` message, or an acknowledgement read from the gateway. -/
  | override (value : Value) (retained : Bool)
  /-- A polled gateway snapshot: `apply_snapshot`. -/
  | gateway (snapshot : Object)
  /-- A read of `controller_available`, which drops an expired controller. -/
  | readController
  /-- An `inverter/portal` message. -/
  | portal (portal : Str)

structure Event where
  clock : Clock
  op : MqttOp

/-- The state an operation leaves, whether or not it raised. -/
def step (cfg : Config) (s : MqttState) (e : Event) : MqttState :=
  match e.op with
  | .native topic payload retained => (nativeMessage cfg e.clock topic payload retained s).state
  | .snapshot snapshot => (replaceCerboSnapshot cfg e.clock snapshot s).state
  | .clearNative => (clearCerboState cfg s).state
  | .controller incoming retained => (mergeDaemonState cfg e.clock incoming retained s).state
  | .controllerGone => (clearDaemonState cfg s).state
  | .override value retained =>
    (observe e.clock (Dict.empty.set (Str.lit "setpoint_override") value) retained s).state
  | .gateway snapshot => (applySnapshot cfg e.clock snapshot s).state
  | .readController => (controllerAvailable cfg e.clock s).state
  | .portal portal => discoverPortal portal s

/-! ## Controller operations leave the native part alone -/

/-- What only native operations change. -/
structure NativePart where
  cerboDevices : Devices
  waterModeObservations : Dict Str ℚ

def MqttState.native (s : MqttState) : NativePart :=
  ⟨s.cerboDevices, s.waterModeObservations⟩

theorem cerboDevices_of_native {s s' : MqttState} (h : s'.native = s.native) :
    s'.cerboDevices = s.cerboDevices := congrArg NativePart.cerboDevices h

theorem native_applyCerboOverlays (cfg : Config) (s : MqttState) :
    (applyCerboOverlays cfg s).state.native = s.native := by
  unfold applyCerboOverlays
  split
  · rfl
  · rfl

theorem native_refresh (cfg : Config) (clock : Clock) (s : MqttState) :
    (refreshNativeMqttState cfg clock s).state.native = s.native := by
  have happly := native_applyCerboOverlays cfg (noteNativeObservation (Str.lit "mqtt") clock s)
  refine Call.andThen_state (P := fun x => x.native = s.native) happly fun _ => ?_
  dsimp only
  split
  · exact happly
  · exact happly

theorem native_observe (clock : Clock) (incoming : Object) (retained : Bool) (s : MqttState) :
    (observe clock incoming retained s).state.native = s.native := by
  have hover : ∀ v, (observeOverride clock.wall v retained s).native = s.native := by
    intro v
    unfold observeOverride
    split
    · rfl
    · rfl
  unfold observe
  extract_lets s₁ s₂
  have h₁ : s₁.native = s.native := by
    unfold s₁
    split
    · exact hover _
    · rfl
  have h₂ : s₂.native = s.native := by
    unfold s₂
    split
    · exact h₁
    · exact h₁
  split
  · exact h₂
  · split
    · exact h₂
    · exact h₂

theorem native_merge (cfg : Config) (clock : Clock) (incoming : Object) (retained : Bool)
    (s : MqttState) : (mergeDaemonState cfg clock incoming retained s).state.native = s.native := by
  unfold mergeDaemonState
  extract_lets s₁ s₂ s₃
  have h₃ : s₃.native = s.native := by
    show s₂.native = s.native
    unfold s₂
    split
    · rfl
    · rfl
  have h₄ : (observe clock incoming retained s₃).state.native = s.native :=
    (native_observe clock incoming retained s₃).trans h₃
  exact Call.andThen_state (P := fun x => x.native = s.native) h₄ fun _ =>
    (native_applyCerboOverlays cfg _).trans h₄

theorem native_clearDaemon (cfg : Config) (s : MqttState) :
    (clearDaemonState cfg s).state.native = s.native :=
  native_applyCerboOverlays cfg s.withoutDaemon

theorem native_controllerAvailable (cfg : Config) (clock : Clock) (s : MqttState) :
    (controllerAvailable cfg clock s).state.native = s.native := by
  unfold controllerAvailable
  split
  · rfl
  · split
    · exact Call.andThen_state (P := fun x => x.native = s.native) (native_clearDaemon cfg s)
        fun _ => native_clearDaemon cfg s
    · rfl

theorem native_snapshotController (cfg : Config) (clock : Clock) (snapshot : Object)
    (s : MqttState) :
    (applySnapshotController cfg clock snapshot s).state.native = s.native := by
  unfold applySnapshotController
  extract_lets s₁ controller
  have hc : controller.state.native = s.native := by
    unfold controller
    split
    · have hclear : (clearDaemonState cfg s₁).state.native = s.native := native_clearDaemon cfg s₁
      exact Call.andThen_state (P := fun x => x.native = s.native) hclear fun _ =>
        (native_merge cfg clock _ false _).trans hclear
    · exact native_clearDaemon cfg s₁
    · rfl
  refine Call.andThen_state (P := fun x => x.native = s.native) hc fun _ => ?_
  split
  · exact hc
  · exact hc

theorem native_discoverPortal (portal : Str) (s : MqttState) :
    (discoverPortal portal s).native = s.native := by
  unfold discoverPortal
  split
  · rfl
  · rfl

/-- A snapshot replaces the store, whether or not its refresh raises. -/
theorem cerboDevices_snapshot (cfg : Config) (clock : Clock) (snapshot : Object) (s : MqttState) :
    (replaceCerboSnapshot cfg clock snapshot s).state.cerboDevices =
      (snapshotLeaves snapshot).foldl storeLeaf Dict.empty := by
  unfold replaceCerboSnapshot
  dsimp only
  split
  · rfl
  · exact cerboDevices_of_native (native_applyCerboOverlays cfg _)

/-! ## Claims only grow -/

/-- Claims are never given back, and only owned keys are claimed. -/
structure ClaimsGrow (s s' : MqttState) : Prop where
  mono : ∀ k ∈ s.cerboClaimedKeys, k ∈ s'.cerboClaimedKeys
  owned : Owned s.cerboClaimedKeys → Owned s'.cerboClaimedKeys

namespace ClaimsGrow

theorem same {s s' : MqttState} (h : s'.cerboClaimedKeys = s.cerboClaimedKeys) :
    ClaimsGrow s s' := ⟨fun _ hk => h ▸ hk, fun ho => h ▸ ho⟩

theorem trans {a b c : MqttState} (hab : ClaimsGrow a b) (hbc : ClaimsGrow b c) :
    ClaimsGrow a c :=
  ⟨fun k hk => hbc.mono k (hab.mono k hk), fun h => hbc.owned (hab.owned h)⟩

theorem union {s s' : MqttState} {ks : List Str} (hks : Owned ks)
    (h : s'.cerboClaimedKeys = unionKeys s.cerboClaimedKeys ks) : ClaimsGrow s s' where
  mono := fun k hk => h ▸ mem_unionKeys.mpr (Or.inl hk)
  owned := by
    intro ho k hk
    rw [h] at hk
    rcases mem_unionKeys.mp hk with hk | hk
    · exact ho k hk
    · exact hks k hk

end ClaimsGrow

theorem Leaf.claims_owned (cfg : Config) (x : Leaf) : Owned (x.claims cfg) := by
  unfold Leaf.claims
  exact .ite (invalidLeafKeys_owned _ _ _ _) .nil

/-! ## Native operations leave foreign parts alone -/

/-- What only controller operations change. -/
structure ControllerPart where
  daemonKeys : List Str
  daemonReceivedAt : Option ℚ
  controllerCommandReceivedAt : Option ℚ
  controllerEssMode : Option Object
  essModeObservedAt : Option ℚ
  setpointOverrideObservedAt : Option ℚ
  overrideObservationSequence : Nat
  electricityTariffObservedAt : Option ℚ

def MqttState.controller (s : MqttState) : ControllerPart :=
  ⟨s.daemonKeys, s.daemonReceivedAt, s.controllerCommandReceivedAt, s.controllerEssMode,
    s.essModeObservedAt, s.setpointOverrideObservedAt, s.overrideObservationSequence,
    s.electricityTariffObservedAt⟩

/-- The step keeps the controller part, and every shown key that is neither owned nor derived. -/
structure KeepsForeign (s s' : MqttState) : Prop where
  claims : ClaimsGrow s s'
  controller : s'.controller = s.controller
  current : Owned s.cerboClaimedKeys → ∀ k, k ∉ cerboOwnedKeys →
    k ≠ Str.lit "telemetry_available" → s'.currentState.get? k = s.currentState.get? k

namespace KeepsForeign

theorem of_eq {s s' : MqttState} (hc : s'.cerboClaimedKeys = s.cerboClaimedKeys)
    (hp : s'.controller = s.controller) (hs : s'.currentState = s.currentState) :
    KeepsForeign s s' := ⟨.same hc, hp, fun _ _ _ _ => by rw [hs]⟩

theorem refl (s : MqttState) : KeepsForeign s s := of_eq rfl rfl rfl

theorem trans {a b c : MqttState} (hab : KeepsForeign a b) (hbc : KeepsForeign b c) :
    KeepsForeign a c where
  claims := hab.claims.trans hbc.claims
  controller := hbc.controller.trans hab.controller
  current := fun ho k hk ht =>
    (hbc.current (hab.claims.owned ho) k hk ht).trans (hab.current ho k hk ht)

end KeepsForeign

/-- Where an overlay writes, and where it does not. -/
theorem show_currentState (s : MqttState) (o : Object) {k : Str}
    (ht : k ≠ Str.lit "telemetry_available") :
    (s.show o).currentState.get? k =
      if k ∈ unionKeys s.cerboClaimedKeys o.keys then
        some ((o.get? k).getD (collectionDefault k))
      else s.currentState.get? k := by
  unfold MqttState.show
  extract_lets claimed current
  have hcurrent : current.get? k = if k ∈ claimed then
      some ((o.get? k).getD (collectionDefault k)) else s.currentState.get? k := by
    unfold current
    rw [Dict.get?_setAll]
    congr
  show (if claimed.isEmpty && current.isEmpty then current else _).get? k = _
  split
  · exact hcurrent
  · rw [Dict.get?_set_ne _ _ ht, hcurrent]

theorem foreign_applyCerboOverlays (cfg : Config) (s : MqttState) :
    KeepsForeign s (applyCerboOverlays cfg s).state := by
  unfold applyCerboOverlays
  split
  · next o ho =>
    refine ⟨.union (overlay_owned ho) rfl, rfl, ?_⟩
    intro hs k hk ht
    show (s.show o).currentState.get? k = _
    rw [show_currentState s o ht, if_neg]
    intro hm
    rcases mem_unionKeys.mp hm with hm | hm
    · exact hk (hs k hm)
    · exact hk (overlay_owned ho k hm)
  · exact .refl s

theorem KeepsForeign.overlays {s s' : MqttState} (h : KeepsForeign s s') (cfg : Config) :
    KeepsForeign s (applyCerboOverlays cfg s').state :=
  h.trans (foreign_applyCerboOverlays cfg s')

theorem foreign_clearCerbo (cfg : Config) (s : MqttState) :
    KeepsForeign s (clearCerboState cfg s).state := by
  unfold clearCerboState
  refine KeepsForeign.overlays ?_ cfg
  exact .of_eq rfl rfl rfl

theorem foreign_snapshot (cfg : Config) (clock : Clock) (snapshot : Object) (s : MqttState) :
    KeepsForeign s (replaceCerboSnapshot cfg clock snapshot s).state := by
  have hclaims : Owned ((snapshotLeaves snapshot).flatMap (Leaf.claims cfg)) := by
    intro k hk
    obtain ⟨x, -, hx⟩ := List.mem_flatMap.mp hk
    exact Leaf.claims_owned cfg x k hx
  unfold replaceCerboSnapshot
  extract_lets leaves s₁
  have h₁ : KeepsForeign s s₁ := ⟨.union hclaims rfl, rfl, fun _ _ _ _ => rfl⟩
  split
  · exact h₁
  · refine KeepsForeign.overlays (h₁.trans ?_) cfg
    exact .of_eq rfl rfl rfl

/-- Discovery touches the portal only. -/
theorem nativeTopicSelected_fst (topic : Str) (payload : Payload) (s : MqttState) :
    ∃ portal, (nativeTopicSelected topic payload s).1 = { s with portalId := portal } := by
  have hdiscover : ∀ portal, ∃ p, discoverPortal portal s = { s with portalId := p } := by
    intro portal
    unfold discoverPortal
    split
    · exact ⟨portal, rfl⟩
    · exact ⟨s.portalId, rfl⟩
  have hsame : ∃ p, s = { s with portalId := p } := ⟨s.portalId, rfl⟩
  unfold nativeTopicSelected
  split
  · split
    · exact hsame
    · split
      · exact hsame
      · extract_lets announces
        split
        · split
          · exact hsame
          · exact hsame
          · dsimp only
            split
            · split
              · exact hsame
              · exact hdiscover _
            · split
              · exact hdiscover _
              · exact hsame
        · exact hsame
  · exact hsame

theorem foreign_applyNativePayload {cfg : Config} {clock : Clock} {kind : Kind}
    {inst path : Str} {payload : Payload} {retained : Bool} {s s' : MqttState}
    (h : applyNativePayload cfg clock kind inst path payload retained s = some s') :
    KeepsForeign s s' := by
  unfold applyNativePayload at h
  split at h
  · obtain ⟨m, -, rfl⟩ := Option.map_eq_some_iff.mp h
    exact .of_eq rfl rfl rfl
  · obtain ⟨v, -, rfl⟩ := Option.map_eq_some_iff.mp h
    exact ⟨.union (Leaf.claims_owned cfg _) rfl, rfl, fun _ _ _ _ => rfl⟩

theorem foreign_refresh (cfg : Config) (clock : Clock) (s : MqttState) :
    KeepsForeign s (refreshNativeMqttState cfg clock s).state := by
  have happly : KeepsForeign s (applyCerboOverlays cfg
      (noteNativeObservation (Str.lit "mqtt") clock s)).state := by
    refine KeepsForeign.overlays ?_ cfg
    exact .of_eq rfl rfl rfl
  refine Call.andThen_state (P := KeepsForeign s) happly fun _ => ?_
  dsimp only
  split
  · exact happly.trans (.of_eq rfl rfl rfl)
  · exact happly

theorem foreign_native (cfg : Config) (clock : Clock) (topic : Str) (payload : Payload)
    (retained : Bool) (s : MqttState) :
    KeepsForeign s (nativeMessage cfg clock topic payload retained s).state := by
  have hsel : KeepsForeign s (nativeTopicSelected topic payload s).1 := by
    obtain ⟨portal, hp⟩ := nativeTopicSelected_fst topic payload s
    rw [hp]
    exact .of_eq rfl rfl rfl
  unfold nativeMessage
  dsimp only
  split
  · unfold handleCerboDevice
    split
    · exact hsel
    · next kind inst path _ =>
      have hsup : KeepsForeign s
          (supersedeMode kind inst path (nativeTopicSelected topic payload s).1) := by
        unfold supersedeMode
        split
        · exact hsel.trans (.of_eq rfl rfl rfl)
        · exact hsel
      dsimp only
      split
      · exact hsup
      · next hs =>
        exact (hsup.trans (foreign_applyNativePayload hs)).trans (foreign_refresh cfg clock _)
  · exact hsel

theorem foreign_discoverPortal (portal : Str) (s : MqttState) :
    KeepsForeign s (discoverPortal portal s) := by
  unfold discoverPortal
  split
  · exact .of_eq rfl rfl rfl
  · exact .refl s

/-! ## Claims under controller operations -/

theorem claims_observe (clock : Clock) (incoming : Object) (retained : Bool) (s : MqttState) :
    ClaimsGrow s (observe clock incoming retained s).state := by
  have hover : ∀ v, ClaimsGrow s (observeOverride clock.wall v retained s) := by
    intro v
    unfold observeOverride
    split
    · exact .same rfl
    · exact .same rfl
  unfold observe
  extract_lets s₁ s₂
  have h₁ : ClaimsGrow s s₁ := by
    unfold s₁
    split
    · exact hover _
    · exact .same rfl
  have h₂ : ClaimsGrow s s₂ := by
    unfold s₂
    split
    · exact h₁.trans (.same rfl)
    · exact h₁
  split
  · exact h₂
  · split
    · exact h₂
    · exact h₂.trans (.same rfl)

theorem claims_merge (cfg : Config) (clock : Clock) (incoming : Object) (retained : Bool)
    (s : MqttState) : ClaimsGrow s (mergeDaemonState cfg clock incoming retained s).state := by
  unfold mergeDaemonState
  extract_lets s₁ s₂ s₃
  have h₃ : ClaimsGrow s s₃ := by
    refine .same ?_
    show s₂.cerboClaimedKeys = s.cerboClaimedKeys
    unfold s₂
    split
    · rfl
    · rfl
  have h₄ := h₃.trans (claims_observe clock incoming retained s₃)
  exact Call.andThen_state (P := ClaimsGrow s) h₄ fun _ =>
    h₄.trans (foreign_applyCerboOverlays cfg _).claims

theorem claims_clearDaemon (cfg : Config) (s : MqttState) :
    ClaimsGrow s (clearDaemonState cfg s).state := by
  have hdrop : ClaimsGrow s s.withoutDaemon := .same rfl
  exact hdrop.trans (foreign_applyCerboOverlays cfg s.withoutDaemon).claims

theorem claims_snapshotController (cfg : Config) (clock : Clock) (snapshot : Object)
    (s : MqttState) : ClaimsGrow s (applySnapshotController cfg clock snapshot s).state := by
  unfold applySnapshotController
  extract_lets s₁ controller
  have h₁ : ClaimsGrow s s₁ := .same rfl
  have hclear := h₁.trans (claims_clearDaemon cfg s₁)
  have hc : ClaimsGrow s controller.state := by
    unfold controller
    split
    · exact Call.andThen_state (P := ClaimsGrow s) hclear fun _ =>
        hclear.trans (claims_merge cfg clock _ false _)
    · exact hclear
    · exact h₁
  refine Call.andThen_state (P := ClaimsGrow s) hc fun _ => ?_
  split
  · exact hc
  · exact hc.trans (.same rfl)

theorem claims_step (cfg : Config) (s : MqttState) (e : Event) : ClaimsGrow s (step cfg s e) := by
  obtain ⟨clock, op⟩ := e
  cases op with
  | native topic payload retained => exact (foreign_native cfg clock topic payload retained s).claims
  | snapshot snapshot => exact (foreign_snapshot cfg clock snapshot s).claims
  | clearNative => exact (foreign_clearCerbo cfg s).claims
  | controller incoming retained => exact claims_merge cfg clock incoming retained s
  | controllerGone => exact claims_clearDaemon cfg s
  | override value retained => exact claims_observe clock _ retained s
  | gateway snapshot =>
    have hc := claims_snapshotController cfg clock snapshot s
    exact Call.andThen_state (P := ClaimsGrow s) hc fun _ =>
      hc.trans (foreign_snapshot cfg clock snapshot _).claims
  | readController =>
    show ClaimsGrow s (controllerAvailable cfg clock s).state
    unfold controllerAvailable
    split
    · exact .same rfl
    · split
      · exact Call.andThen_state (P := ClaimsGrow s) (claims_clearDaemon cfg s) fun _ =>
          claims_clearDaemon cfg s
      · exact .same rfl
  | portal portal => exact (foreign_discoverPortal portal s).claims

theorem claims_replay (cfg : Config) (s : MqttState) (es : List Event) :
    ClaimsGrow s (replay (step cfg) s es) :=
  replay_invariant (step cfg) (I := ClaimsGrow s) (.same rfl)
    (fun s' e h => h.trans (claims_step cfg s' e)) es

end InverterDashboard.Server
