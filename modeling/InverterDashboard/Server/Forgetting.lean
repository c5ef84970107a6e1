import InverterDashboard.Server.Availability

/-
  What the controller said is forgotten. Two runs with the same native inputs, and any controller
  messages between them, read the same once the controller is cleared.

  The native side alone decides the portal, the devices and the claims (`NativeView`): the state
  refines a machine that never sees the controller, and controller operations stutter. Whatever
  else is shown can be traced to a controller key (`Attributed`), and a clear empties those.
-/

namespace InverterDashboard.Server

open Python Cerbo Controller Temporal

/-! ## The native machine -/

/-- What the native side decides alone. -/
structure NativeView where
  portalId : Str
  cerboDevices : Devices
  cerboClaimedKeys : List Str

def MqttState.nativeView (s : MqttState) : NativeView :=
  ⟨s.portalId, s.cerboDevices, s.cerboClaimedKeys⟩

namespace NativeView

def seen (v : NativeView) : Seen := ⟨fun kind => v.cerboDevices.has kind, v.cerboClaimedKeys⟩

def overlay (cfg : Config) (v : NativeView) : Option Object :=
  Cerbo.overlay cfg v.seen (devices v.cerboDevices)

/-- The claims once the overlays are shown. -/
def settle (cfg : Config) (v : NativeView) : NativeView :=
  match v.overlay cfg with
  | some o => { v with cerboClaimedKeys := unionKeys v.cerboClaimedKeys o.keys }
  | none => v

/-- A message that is stored, removes a service or is ignored. -/
def applyPayload (cfg : Config) (v : NativeView) (kind : Kind) (inst path : Str)
    (payload : Payload) : Option NativeView :=
  match payload with
  | .empty => (v.cerboDevices.remove kind inst).map fun m => { v with cerboDevices := m }
  | payload => (leafValue? kind path payload).map fun value =>
      { v with
        cerboDevices := v.cerboDevices.store kind inst path value
        cerboClaimedKeys := unionKeys v.cerboClaimedKeys
          (Leaf.claims cfg ⟨kind, inst, path, value⟩) }

end NativeView

/-- A native operation, without its time. -/
inductive NativeInput where
  | message (topic : Str) (payload : Payload)
  | leaves (leaves : List Leaf)
  | clear
  | portal (portal : Str)

/-- The native input of an operation. A gateway poll gives its leaves when its controller part does
    not raise. -/
def nativeInput (cfg : Config) (x : MqttState × Event) : Option NativeInput :=
  match x.2.op with
  | .native topic payload _ => some (.message topic payload)
  | .snapshot snapshot => some (.leaves (snapshotLeaves snapshot))
  | .clearNative => some .clear
  | .gateway snapshot =>
    if (applySnapshotController cfg x.2.clock snapshot x.1).result.isSome then
      some (.leaves (snapshotLeaves snapshot))
    else none
  | .portal portal => some (.portal portal)
  | _ => none

/-- The portal after one is announced. -/
def discoveredPortal (portal portalId : Str) : Str :=
  if portalId.isEmpty && portalValid portal then portal else portalId

/-- The portal after a topic, and whether the topic is from it. -/
def selectedPortal (topic : Str) (payload : Payload) (portalId : Str) : Str × Bool :=
  let selected := nativeTopicSelected topic payload (MqttState.init portalId)
  (selected.1.portalId, selected.2)

namespace NativeView

def receive (cfg : Config) (v : NativeView) : NativeInput → NativeView
  | .message topic payload =>
    let selected := selectedPortal topic payload v.portalId
    let v := { v with portalId := selected.1 }
    if selected.2 then
      match nativeTopic v.portalId topic with
      | none => v
      | some (kind, inst, path) =>
        match v.applyPayload cfg kind inst path payload with
        | none => v
        | some v => v.settle cfg
    else v
  | .leaves leaves => settle cfg
      { v with
        cerboDevices := leaves.foldl storeLeaf Dict.empty
        cerboClaimedKeys := unionKeys v.cerboClaimedKeys (leaves.flatMap (Leaf.claims cfg)) }
  | .clear => settle cfg { v with cerboDevices := Dict.empty }
  | .portal portal =>
    { v with portalId := discoveredPortal portal v.portalId }

theorem settle_some {cfg : Config} {v : NativeView} {o : Object} (h : v.overlay cfg = some o) :
    v.settle cfg = { v with cerboClaimedKeys := unionKeys v.cerboClaimedKeys o.keys } := by
  unfold settle
  rw [h]

theorem settle_none {cfg : Config} {v : NativeView} (h : v.overlay cfg = none) :
    v.settle cfg = v := by
  unfold settle
  rw [h]

theorem unionKeys_absorb {a b : List Str} (h : ∀ k ∈ b, k ∈ a) : unionKeys a b = a := by
  have hfilter : b.filter (· ∉ a) = [] := by
    rw [List.filter_eq_nil_iff]
    intro k hk
    simpa using h k hk
  unfold unionKeys
  rw [hfilter, List.append_nil]

/-- Claims that the shown overlays add do not change the overlays. -/
theorem overlay_settle {cfg : Config} {v : NativeView} {o : Object} (h : v.overlay cfg = some o) :
    (v.settle cfg).overlay cfg = some o := by
  rw [settle_some h]
  refine overlay_settled h ⟨rfl, fun k hk => mem_unionKeys.mpr (Or.inl hk), ?_⟩
  exact fun k _ hk => mem_unionKeys.mp hk

/-- Showing the overlays again claims nothing new. -/
theorem settle_settle (cfg : Config) (v : NativeView) :
    (v.settle cfg).settle cfg = v.settle cfg := by
  cases ho : v.overlay cfg with
  | none => rw [settle_none ho, settle_none ho]
  | some o =>
    have hkeys : unionKeys (unionKeys v.cerboClaimedKeys o.keys) o.keys =
        unionKeys v.cerboClaimedKeys o.keys :=
      unionKeys_absorb fun k hk => mem_unionKeys.mpr (Or.inr hk)
    rw [settle_some (overlay_settle ho), settle_some ho]
    dsimp only
    rw [hkeys]

end NativeView

/-! ## The state refines it -/

theorem nativeView_apply (cfg : Config) (s : MqttState) :
    (applyCerboOverlays cfg s).state.nativeView = s.nativeView.settle cfg := by
  cases ho : overlay cfg s.seen (devices s.cerboDevices) with
  | none =>
    have hview : s.nativeView.overlay cfg = none := ho
    unfold applyCerboOverlays
    rw [ho, NativeView.settle_none hview]
  | some o =>
    have hview : s.nativeView.overlay cfg = some o := ho
    unfold applyCerboOverlays
    rw [ho, NativeView.settle_some hview]
    rfl

theorem nativeView_refresh (cfg : Config) (clock : Clock) (s : MqttState) :
    (refreshNativeMqttState cfg clock s).state.nativeView = s.nativeView.settle cfg := by
  have happly : (applyCerboOverlays cfg
      (noteNativeObservation (Str.lit "mqtt") clock s)).state.nativeView =
        s.nativeView.settle cfg := nativeView_apply cfg _
  refine Call.andThen_state (P := fun t => t.nativeView = s.nativeView.settle cfg) happly
    fun _ => ?_
  dsimp only
  split
  · exact happly
  · exact happly

theorem nativeView_snapshot (cfg : Config) (clock : Clock) (snapshot : Object) (s : MqttState) :
    (replaceCerboSnapshot cfg clock snapshot s).state.nativeView =
      s.nativeView.receive cfg (.leaves (snapshotLeaves snapshot)) := by
  unfold replaceCerboSnapshot NativeView.receive
  dsimp only
  split
  · next hpumps =>
    -- Pumps that do not sort have no overlay either.
    symm
    apply NativeView.settle_none
    cases ho : NativeView.overlay cfg _ with
    | none => rfl
    | some o =>
      have hlisted := devices_of_overlay ho .pump
      rw [Option.isSome_iff_ne_none] at hlisted
      exact absurd hpumps hlisted
  · exact nativeView_apply cfg _

theorem discoverPortal_eq (portal : Str) (s : MqttState) :
    discoverPortal portal s = { s with portalId := discoveredPortal portal s.portalId } := by
  unfold discoverPortal discoveredPortal
  split
  · rfl
  · rfl

/-- The selection reads the portal and nothing else of the state. -/
theorem nativeTopicSelected_eq (topic : Str) (payload : Payload) (s : MqttState) :
    nativeTopicSelected topic payload s =
      ({ s with portalId := (selectedPortal topic payload s.portalId).1 },
        (selectedPortal topic payload s.portalId).2) := by
  have hinit : (MqttState.init s.portalId).portalId = s.portalId := rfl
  unfold selectedPortal nativeTopicSelected
  simp only [discoverPortal_eq, hinit]
  cases topic.splitSlash with
  | nil => rfl
  | cons n parts =>
    cases parts with
    | nil => rfl
    | cons portal rest =>
      by_cases hn : n ≠ Str.lit "N"
      · simp only [if_pos hn]
        rfl
      · simp only [if_neg hn]
        cases rest with
        | nil => rfl
        | cons kind rest =>
          dsimp only
          by_cases hannounced : (s.portalId.isEmpty && (!rest.isEmpty && !rest.tail.isEmpty ||
              decide (kind ∈ [Str.lit "heartbeat", Str.lit "keepalive"]))) = true
          · simp only [if_pos hannounced]
            cases payload with
            | empty => rfl
            | malformed => rfl
            | json data =>
              dsimp only
              cases Value.member (Str.lit "value") (data.dict?.getD []) with
              | str text =>
                dsimp only
                split
                · rfl
                · rfl
              | _ =>
                dsimp only
                split
                · rfl
                · rfl
          · simp only [if_neg hannounced]
            rfl

theorem nativeView_applyNativePayload (cfg : Config) (clock : Clock) (kind : Kind) (inst path : Str)
    (payload : Payload) (retained : Bool) (s : MqttState) :
    (applyNativePayload cfg clock kind inst path payload retained s).map MqttState.nativeView =
      s.nativeView.applyPayload cfg kind inst path payload := by
  unfold applyNativePayload NativeView.applyPayload
  cases payload with
  | empty =>
    unfold removeCerboDevice
    rw [Option.map_map]
    rfl
  | malformed =>
    unfold storeCerboLeaf
    rw [Option.map_map]
    rfl
  | json data =>
    unfold storeCerboLeaf
    rw [Option.map_map]
    rfl

theorem nativeView_native (cfg : Config) (clock : Clock) (topic : Str) (payload : Payload)
    (retained : Bool) (s : MqttState) :
    (nativeMessage cfg clock topic payload retained s).state.nativeView =
      s.nativeView.receive cfg (.message topic payload) := by
  unfold nativeMessage handleCerboDevice NativeView.receive
  rw [nativeTopicSelected_eq]
  dsimp only
  show _ = if (selectedPortal topic payload s.portalId).2 = true then _ else _
  split
  · cases htopic : nativeTopic (selectedPortal topic payload s.portalId).1 topic with
    | none =>
      have hview : nativeTopic (selectedPortal topic payload s.nativeView.portalId).1 topic =
          none := htopic
      rw [hview]
      rfl
    | some addr =>
      obtain ⟨kind, inst, path⟩ := addr
      have hview : nativeTopic (selectedPortal topic payload s.nativeView.portalId).1 topic =
          some (kind, inst, path) := htopic
      rw [hview]
      dsimp only
      have hsuperseded : (supersedeMode kind inst path
          { s with portalId := (selectedPortal topic payload s.portalId).1 }).nativeView =
          { s.nativeView with
            portalId := (selectedPortal topic payload s.nativeView.portalId).1 } := by
        unfold supersedeMode
        split
        · rfl
        · rfl
      have happlied := nativeView_applyNativePayload cfg clock kind inst path payload retained
        (supersedeMode kind inst path
          { s with portalId := (selectedPortal topic payload s.portalId).1 })
      rw [hsuperseded] at happlied
      rw [← happlied]
      cases applyNativePayload cfg clock kind inst path payload retained (supersedeMode kind inst
          path { s with portalId := (selectedPortal topic payload s.portalId).1 }) with
      | none => exact hsuperseded
      | some t => exact nativeView_refresh cfg clock t
  · rfl

/-! ## Controller operations stutter -/

/-- The overlays of the state are shown: showing them again claims nothing. -/
def Settled (cfg : Config) (s : MqttState) : Prop := s.nativeView.settle cfg = s.nativeView

theorem Settled.apply {cfg : Config} {s t : MqttState} (h : Settled cfg s)
    (hview : t.nativeView = s.nativeView) :
    (applyCerboOverlays cfg t).state.nativeView = s.nativeView := by
  rw [nativeView_apply, hview]
  exact h

theorem nativeView_observe (clock : Clock) (incoming : Object) (retained : Bool) (s : MqttState) :
    (observe clock incoming retained s).state.nativeView = s.nativeView := by
  have hover : ∀ v, (observeOverride clock.wall v retained s).nativeView = s.nativeView := by
    intro v
    unfold observeOverride
    split
    · rfl
    · rfl
  unfold observe
  extract_lets s₁ s₂
  have h₁ : s₁.nativeView = s.nativeView := by
    unfold s₁
    split
    · exact hover _
    · rfl
  have h₂ : s₂.nativeView = s.nativeView := by
    unfold s₂
    split
    · exact h₁
    · exact h₁
  split
  · exact h₂
  · split
    · exact h₂
    · exact h₂

theorem nativeView_merge {cfg : Config} {s : MqttState} (h : Settled cfg s) (clock : Clock)
    (incoming : Object) (retained : Bool) :
    (mergeDaemonState cfg clock incoming retained s).state.nativeView = s.nativeView := by
  unfold mergeDaemonState
  extract_lets s₁ s₂ s₃
  have h₂ : s₂.nativeView = s.nativeView := by
    unfold s₂
    split
    · rfl
    · rfl
  have hobserved : (observe clock incoming retained s₃).state.nativeView = s.nativeView :=
    (nativeView_observe clock incoming retained s₃).trans h₂
  exact Call.andThen_state (P := fun t => t.nativeView = s.nativeView) hobserved fun _ =>
    h.apply hobserved

theorem nativeView_clearDaemon {cfg : Config} {s : MqttState} (h : Settled cfg s) :
    (clearDaemonState cfg s).state.nativeView = s.nativeView := h.apply (t := s.withoutDaemon) rfl

theorem nativeView_controllerAvailable {cfg : Config} {s : MqttState} (h : Settled cfg s)
    (clock : Clock) : (controllerAvailable cfg clock s).state.nativeView = s.nativeView := by
  unfold controllerAvailable
  split
  · rfl
  · split
    · have hclear := nativeView_clearDaemon h
      exact Call.andThen_state (P := fun t => t.nativeView = s.nativeView) hclear fun _ => hclear
    · rfl

theorem nativeView_snapshotController {cfg : Config} {s : MqttState} (h : Settled cfg s)
    (clock : Clock) (snapshot : Object) :
    (applySnapshotController cfg clock snapshot s).state.nativeView = s.nativeView := by
  unfold applySnapshotController
  extract_lets s₁ controller
  have h₁ : Settled cfg s₁ := h
  have hcontroller : controller.state.nativeView = s.nativeView := by
    unfold controller
    split
    · have hclear : (clearDaemonState cfg s₁).state.nativeView = s.nativeView :=
        nativeView_clearDaemon h₁
      refine Call.andThen_state (P := fun t => t.nativeView = s.nativeView) hclear fun _ => ?_
      have hcleared : Settled cfg (clearDaemonState cfg s₁).state := by
        unfold Settled
        rw [hclear]
        exact h
      exact (nativeView_merge hcleared clock _ false).trans hclear
    · exact nativeView_clearDaemon h₁
    · rfl
  refine Call.andThen_state (P := fun t => t.nativeView = s.nativeView) hcontroller fun _ => ?_
  split
  · exact hcontroller
  · exact hcontroller

/-! ## Runs -/

/-- An operation with a native input does to the view what the input says. -/
theorem nativeView_step_take {cfg : Config} {s : MqttState} {e : Event} {i : NativeInput}
    (h : Settled cfg s) (hi : nativeInput cfg (s, e) = some i) :
    (step cfg s e).nativeView = s.nativeView.receive cfg i := by
  obtain ⟨clock, op⟩ := e
  cases op with
  | native topic payload retained =>
    obtain rfl := Option.some.inj hi
    exact nativeView_native cfg clock topic payload retained s
  | snapshot snapshot =>
    obtain rfl := Option.some.inj hi
    exact nativeView_snapshot cfg clock snapshot s
  | clearNative =>
    obtain rfl := Option.some.inj hi
    exact nativeView_apply cfg _
  | gateway snapshot =>
    unfold nativeInput at hi
    dsimp only at hi
    split at hi
    · next hsome =>
      obtain rfl := Option.some.inj hi
      obtain ⟨u, hu⟩ := Option.isSome_iff_exists.mp hsome
      show (applySnapshot cfg clock snapshot s).state.nativeView = _
      unfold applySnapshot Call.andThen
      rw [hu, ← nativeView_snapshotController h clock snapshot]
      exact nativeView_snapshot cfg clock snapshot _
    · cases hi
  | portal portal =>
    obtain rfl := Option.some.inj hi
    show (discoverPortal portal s).nativeView = _
    rw [discoverPortal_eq]
    rfl
  | controller incoming retained => cases hi
  | controllerGone => cases hi
  | override value retained => cases hi
  | readController => cases hi

/-- Any other operation leaves the view alone. -/
theorem nativeView_step_stutter {cfg : Config} {s : MqttState} {e : Event} (h : Settled cfg s)
    (hi : nativeInput cfg (s, e) = none) : (step cfg s e).nativeView = s.nativeView := by
  obtain ⟨clock, op⟩ := e
  cases op with
  | gateway snapshot =>
    unfold nativeInput at hi
    dsimp only at hi
    split at hi
    · cases hi
    · next hnone =>
      rw [Option.not_isSome_iff_eq_none] at hnone
      show (applySnapshot cfg clock snapshot s).state.nativeView = _
      unfold applySnapshot Call.andThen
      rw [hnone]
      exact nativeView_snapshotController h clock snapshot
  | controller incoming retained => exact nativeView_merge h clock incoming retained
  | controllerGone => exact nativeView_clearDaemon h
  | override value retained => exact nativeView_observe clock _ retained s
  | readController => exact nativeView_controllerAvailable h clock
  | native topic payload retained => cases hi
  | snapshot snapshot => cases hi
  | clearNative => cases hi
  | portal portal => cases hi

/-- The portal has no part in the claims. -/
theorem settled_portal {cfg : Config} {v : NativeView} (h : v.settle cfg = v) (portal : Str) :
    { v with portalId := portal }.settle cfg = { v with portalId := portal } := by
  cases ho : v.overlay cfg with
  | none =>
    have hportal : NativeView.overlay cfg { v with portalId := portal } = none := ho
    exact NativeView.settle_none hportal
  | some o =>
    have hportal : NativeView.overlay cfg { v with portalId := portal } = some o := ho
    rw [NativeView.settle_some ho] at h
    rw [NativeView.settle_some hportal]
    have hclaimed : unionKeys v.cerboClaimedKeys o.keys = v.cerboClaimedKeys :=
      congrArg NativeView.cerboClaimedKeys h
    dsimp only
    rw [hclaimed]

theorem settled_receive {cfg : Config} {v : NativeView} (h : v.settle cfg = v) (i : NativeInput) :
    (v.receive cfg i).settle cfg = v.receive cfg i := by
  cases i with
  | message topic payload =>
    unfold NativeView.receive
    dsimp only
    split
    · split
      · exact settled_portal h _
      · split
        · exact settled_portal h _
        · exact NativeView.settle_settle cfg _
    · exact settled_portal h _
  | leaves leaves => exact NativeView.settle_settle cfg _
  | clear => exact NativeView.settle_settle cfg { v with cerboDevices := Dict.empty }
  | portal portal => exact settled_portal h _

theorem settled_step {cfg : Config} {s : MqttState} (h : Settled cfg s) (e : Event) :
    Settled cfg (step cfg s e) := by
  unfold Settled
  cases hi : nativeInput cfg (s, e) with
  | none =>
    rw [nativeView_step_stutter h hi]
    exact h
  | some i =>
    rw [nativeView_step_take h hi]
    exact settled_receive h i

theorem settled_init (cfg : Config) (portal : Str) : Settled cfg (MqttState.init portal) := by
  have ho : (MqttState.init portal).nativeView.overlay cfg = some Dict.empty := overlay_nil cfg
  unfold Settled
  rw [NativeView.settle_some ho]
  rfl

/-- The native inputs of a run. -/
def nativeInputs (cfg : Config) (portal : Str) (es : List Event) : List NativeInput :=
  (trace (step cfg) (MqttState.init portal) es).filterMap (nativeInput cfg)

/-- **The native machine.** What a run holds natively is decided by its native inputs. -/
theorem nativeView_run (cfg : Config) (portal : Str) (es : List Event) :
    (replay (step cfg) (MqttState.init portal) es).nativeView =
      (nativeInputs cfg portal es).foldl (NativeView.receive cfg) ⟨portal, Dict.empty, []⟩ :=
  view_replay (step cfg) (I := Settled cfg) (fun _ e h => settled_step h e)
    (fun _ _ _ h hi => nativeView_step_take h hi) (fun _ _ h hi => nativeView_step_stutter h hi)
    (settled_init cfg portal) es

/-! ## Where a shown value comes from -/

/-- The keys an observation assigns beside the controller's own, and the map. -/
def serverKeys : List Str := keyList
  ["telemetry_available", "setpoint_override", "grid_backup_observed_at"]

/-- Nothing is shown that is neither claimed, nor said by the controller, nor of the server. -/
def Attributed (s : MqttState) : Prop :=
  ∀ k, s.currentState.getD k ≠ .none →
    k ∈ s.cerboClaimedKeys ∨ k ∈ s.daemonKeys ∨ k ∈ serverKeys

/-- What `s'` shows and `s` does not can be attributed. -/
structure Attributes (s s' : MqttState) : Prop where
  claimed : ∀ k ∈ s.cerboClaimedKeys, k ∈ s'.cerboClaimedKeys
  daemonKeys : ∀ k ∈ s.daemonKeys, k ∈ s'.daemonKeys
  current : ∀ k, s'.currentState.getD k ≠ .none → s.currentState.getD k ≠ .none ∨
    k ∈ s'.cerboClaimedKeys ∨ k ∈ s'.daemonKeys ∨ k ∈ serverKeys

namespace Attributes

theorem of_eq {s s' : MqttState} (hc : s'.cerboClaimedKeys = s.cerboClaimedKeys)
    (hd : s'.daemonKeys = s.daemonKeys) (h : s'.currentState = s.currentState) :
    Attributes s s' :=
  ⟨fun _ hk => hc ▸ hk, fun _ hk => hd ▸ hk, fun _ hk => Or.inl (h ▸ hk)⟩

theorem refl (s : MqttState) : Attributes s s := of_eq rfl rfl rfl

theorem trans {a b c : MqttState} (hab : Attributes a b) (hbc : Attributes b c) :
    Attributes a c where
  claimed := fun k hk => hbc.claimed k (hab.claimed k hk)
  daemonKeys := fun k hk => hbc.daemonKeys k (hab.daemonKeys k hk)
  current := by
    intro k hk
    rcases hbc.current k hk with hb | hown
    · rcases hab.current k hb with ha | hc | hd | hs
      · exact Or.inl ha
      · exact Or.inr (Or.inl (hbc.claimed k hc))
      · exact Or.inr (Or.inr (Or.inl (hbc.daemonKeys k hd)))
      · exact Or.inr (Or.inr (Or.inr hs))
    · exact Or.inr hown

theorem attributed {s s' : MqttState} (h : Attributes s s') (hs : Attributed s) :
    Attributed s' := by
  intro k hk
  rcases h.current k hk with hbefore | hown
  · rcases hs k hbefore with hc | hd | hkey
    · exact Or.inl (h.claimed k hc)
    · exact Or.inr (Or.inl (h.daemonKeys k hd))
    · exact Or.inr (Or.inr hkey)
  · exact hown

/-- A server key may be assigned. -/
theorem set (s : MqttState) {k : Str} (hk : k ∈ serverKeys) (v : Value) :
    Attributes s { s with currentState := s.currentState.set k v } where
  claimed := fun _ h => h
  daemonKeys := fun _ h => h
  current := by
    intro x hx
    by_cases hxk : x = k
    · exact Or.inr (Or.inr (Or.inr (hxk ▸ hk)))
    · unfold Object.getD at hx
      dsimp only at hx
      rw [Dict.get?_set_ne _ _ hxk] at hx
      exact Or.inl hx

theorem apply (cfg : Config) (s : MqttState) : Attributes s (applyCerboOverlays cfg s).state := by
  unfold applyCerboOverlays
  split
  · next o ho =>
    refine ⟨fun k hk => mem_unionKeys.mpr (Or.inl hk), fun _ hk => hk, fun k hk => ?_⟩
    by_cases ht : k = Str.lit "telemetry_available"
    · exact Or.inr (Or.inr (Or.inr (ht ▸ List.mem_cons_self)))
    · change (s.show o).currentState.getD k ≠ .none at hk
      unfold Object.getD at hk ⊢
      rw [show_currentState s o ht] at hk
      split at hk
      · next hclaimed => exact Or.inr (Or.inl hclaimed)
      · exact Or.inl hk
  · exact refl s

theorem overlays {s t : MqttState} (h : Attributes s t) (cfg : Config) :
    Attributes s (applyCerboOverlays cfg t).state := h.trans (apply cfg t)

end Attributes

theorem attributes_observe (clock : Clock) (incoming : Object) (retained : Bool) (s : MqttState) :
    Attributes s (observe clock incoming retained s).state := by
  have hover : ∀ v, Attributes s (observeOverride clock.wall v retained s) := by
    intro v
    unfold observeOverride
    split
    · exact (Attributes.set s (by decide) _).trans (.of_eq rfl rfl rfl)
    · exact (Attributes.set s (by decide) _).trans (.of_eq rfl rfl rfl)
  unfold observe
  extract_lets s₁ s₂
  have h₁ : Attributes s s₁ := by
    unfold s₁
    split
    · exact hover _
    · exact Attributes.refl s
  have h₂ : Attributes s s₂ := by
    unfold s₂
    split
    · exact h₁.trans (.of_eq rfl rfl rfl)
    · exact h₁
  split
  · exact h₂
  · split
    · exact h₂
    · exact h₂.trans (Attributes.set s₂ (by decide) _)

/-- A merged field was sent under a key that is not reserved, or was there before. -/
theorem mergeDaemonFields_source (claimed : List Str) (incoming current : Object) {k : Str}
    (h : (mergeDaemonFields claimed incoming current).getD k ≠ .none) :
    current.getD k ≠ .none ∨ k ∈ incoming.keys ∧ k ∉ reservedKeys := by
  unfold mergeDaemonFields Dict.keys at *
  generalize incoming.entries = es at h ⊢
  induction es generalizing current with
  | nil => exact Or.inl h
  | cons e es ih =>
    rw [List.foldl_cons] at h
    rcases ih _ h with hcurrent | ⟨hmem, hfree⟩
    · unfold mergeDaemonField at hcurrent
      split at hcurrent
      · exact Or.inl hcurrent
      · next hfree =>
        split at hcurrent
        · exact Or.inl hcurrent
        · by_cases hk : k = e.1
          · exact Or.inr ⟨hk ▸ List.mem_cons_self, hk ▸ hfree⟩
          · unfold Object.getD at hcurrent
            rw [Dict.get?_set_ne _ _ hk] at hcurrent
            exact Or.inl hcurrent
    · exact Or.inr ⟨List.mem_cons_of_mem _ hmem, hfree⟩

theorem attributes_merge (cfg : Config) (clock : Clock) (incoming : Object) (retained : Bool)
    (s : MqttState) : Attributes s (mergeDaemonState cfg clock incoming retained s).state := by
  unfold mergeDaemonState
  extract_lets s₁ s₂ s₃
  have h₁ : Attributes s s₁ :=
    ⟨fun _ hk => hk, fun _ hk => mem_unionKeys.mpr (Or.inl hk), fun _ hk => Or.inl hk⟩
  have hkeys : s₂.daemonKeys = s₁.daemonKeys := by
    unfold s₂
    split
    · rfl
    · rfl
  have h₂ : Attributes s s₂ := by
    unfold s₂
    split
    · exact h₁.trans (.of_eq rfl rfl rfl)
    · exact h₁
  have h₃ : Attributes s₂ s₃ := by
    refine ⟨fun _ hk => hk, fun _ hk => hk, fun k hk => ?_⟩
    rcases mergeDaemonFields_source _ incoming s₂.currentState hk with hbefore | ⟨hsent, hfree⟩
    · exact Or.inl hbefore
    · refine Or.inr (Or.inr (Or.inl ?_))
      show k ∈ s₂.daemonKeys
      rw [hkeys]
      exact mem_unionKeys.mpr (Or.inr (List.mem_filter.mpr ⟨hsent, by simpa using hfree⟩))
  have hobserved := (h₂.trans h₃).trans (attributes_observe clock incoming retained s₃)
  exact Call.andThen_state (P := Attributes s) hobserved fun _ =>
    hobserved.overlays cfg

/-- What is left of a shown value when the controller is dropped. -/
theorem withoutDaemon_getD {s : MqttState} {k : Str}
    (h : s.withoutDaemon.currentState.getD k ≠ .none) :
    s.currentState.getD k ≠ .none ∧ k ∉ s.daemonKeys ∧
      k ∉ keyList ["setpoint_override", "grid_backup_observed_at"] := by
  have hset : Object.getD (s.currentState.setAll s.daemonKeys fun _ => Value.none) k ≠ .none ∧
      k ∉ keyList ["setpoint_override", "grid_backup_observed_at"] := by
    unfold MqttState.withoutDaemon at h
    dsimp only at h
    split at h
    · next hempty =>
      have hnone : Object.getD (s.currentState.setAll s.daemonKeys fun _ => Value.none) k =
          .none := by
        unfold Object.getD Dict.get?
        rw [List.isEmpty_iff.mp hempty]
        rfl
      exact absurd hnone h
    · unfold Object.getD at h ⊢
      by_cases hbackup : k = Str.lit "grid_backup_observed_at"
      · rw [hbackup, Dict.get?_set, if_pos rfl] at h
        exact absurd rfl h
      · rw [Dict.get?_set_ne _ _ hbackup] at h
        by_cases hoverride : k = Str.lit "setpoint_override"
        · rw [hoverride, Dict.get?_set, if_pos rfl] at h
          exact absurd rfl h
        · rw [Dict.get?_set_ne _ _ hoverride] at h
          refine ⟨h, ?_⟩
          simp [keyList, hbackup, hoverride]
  obtain ⟨hkept, hserver⟩ := hset
  unfold Object.getD at hkept ⊢
  rw [Dict.get?_setAll] at hkept
  split at hkept
  · exact absurd rfl hkept
  · next hdaemon => exact ⟨hkept, hdaemon, hserver⟩

theorem attributes_clearDaemon (cfg : Config) (s : MqttState) :
    Attributes s (clearDaemonState cfg s).state := by
  have hwithout : Attributes s s.withoutDaemon :=
    ⟨fun _ hk => hk, fun _ hk => hk, fun _ hk => Or.inl (withoutDaemon_getD hk).1⟩
  exact hwithout.overlays cfg

theorem attributes_controllerAvailable (cfg : Config) (clock : Clock) (s : MqttState) :
    Attributes s (controllerAvailable cfg clock s).state := by
  unfold controllerAvailable
  split
  · exact Attributes.refl s
  · split
    · have hclear := attributes_clearDaemon cfg s
      exact Call.andThen_state (P := Attributes s) hclear fun _ => hclear
    · exact Attributes.refl s

theorem attributes_snapshotController (cfg : Config) (clock : Clock) (snapshot : Object)
    (s : MqttState) : Attributes s (applySnapshotController cfg clock snapshot s).state := by
  unfold applySnapshotController
  extract_lets s₁ controller
  have h₁ : Attributes s s₁ := .of_eq rfl rfl rfl
  have hcontroller : Attributes s controller.state := by
    unfold controller
    split
    · have hclear := h₁.trans (attributes_clearDaemon cfg s₁)
      exact Call.andThen_state (P := Attributes s) hclear fun _ =>
        hclear.trans (attributes_merge cfg clock _ false _)
    · exact h₁.trans (attributes_clearDaemon cfg s₁)
    · exact h₁
  refine Call.andThen_state (P := Attributes s) hcontroller fun _ => ?_
  split
  · exact hcontroller
  · exact (hcontroller.trans (Attributes.set _ (by decide) _)).trans (.of_eq rfl rfl rfl)

theorem attributes_refresh (cfg : Config) (clock : Clock) (s : MqttState) :
    Attributes s (refreshNativeMqttState cfg clock s).state := by
  have happly : Attributes s (applyCerboOverlays cfg
      (noteNativeObservation (Str.lit "mqtt") clock s)).state := by
    apply Attributes.overlays
    exact .of_eq rfl rfl rfl
  refine Call.andThen_state (P := Attributes s) happly fun _ => ?_
  dsimp only
  split
  · exact happly.trans (.of_eq rfl rfl rfl)
  · exact happly

theorem attributes_snapshot (cfg : Config) (clock : Clock) (snapshot : Object) (s : MqttState) :
    Attributes s (replaceCerboSnapshot cfg clock snapshot s).state := by
  unfold replaceCerboSnapshot
  extract_lets leaves s₁
  have h₁ : Attributes s s₁ :=
    ⟨fun _ hk => mem_unionKeys.mpr (Or.inl hk), fun _ hk => hk, fun _ hk => Or.inl hk⟩
  split
  · exact h₁
  · refine Attributes.overlays (h₁.trans ?_) cfg
    exact .of_eq rfl rfl rfl

theorem attributes_native (cfg : Config) (clock : Clock) (topic : Str) (payload : Payload)
    (retained : Bool) (s : MqttState) :
    Attributes s (nativeMessage cfg clock topic payload retained s).state := by
  have hselected : Attributes s (nativeTopicSelected topic payload s).1 := by
    rw [nativeTopicSelected_eq]
    exact .of_eq rfl rfl rfl
  unfold nativeMessage handleCerboDevice
  dsimp only
  split
  · split
    · exact hselected
    · next kind inst path _ =>
      have hsuperseded : Attributes s (supersedeMode kind inst path
          (nativeTopicSelected topic payload s).1) := by
        unfold supersedeMode
        split
        · exact hselected.trans (.of_eq rfl rfl rfl)
        · exact hselected
      split
      · exact hsuperseded
      · next t happlied =>
        have ht : Attributes s t := by
          unfold applyNativePayload at happlied
          split at happlied
          · obtain ⟨m, -, rfl⟩ := Option.map_eq_some_iff.mp happlied
            exact hsuperseded.trans (.of_eq rfl rfl rfl)
          · obtain ⟨v, -, rfl⟩ := Option.map_eq_some_iff.mp happlied
            exact hsuperseded.trans
              ⟨fun _ hk => mem_unionKeys.mpr (Or.inl hk), fun _ hk => hk, fun _ hk => Or.inl hk⟩
        exact ht.trans (attributes_refresh cfg clock t)
  · exact hselected

theorem attributes_step (cfg : Config) (s : MqttState) (e : Event) :
    Attributes s (step cfg s e) := by
  obtain ⟨clock, op⟩ := e
  cases op with
  | native topic payload retained => exact attributes_native cfg clock topic payload retained s
  | snapshot snapshot => exact attributes_snapshot cfg clock snapshot s
  | clearNative =>
    show Attributes s (clearCerboState cfg s).state
    unfold clearCerboState
    apply Attributes.overlays
    exact .of_eq rfl rfl rfl
  | controller incoming retained => exact attributes_merge cfg clock incoming retained s
  | controllerGone => exact attributes_clearDaemon cfg s
  | override value retained => exact attributes_observe clock _ retained s
  | gateway snapshot =>
    have hcontroller := attributes_snapshotController cfg clock snapshot s
    exact Call.andThen_state (P := Attributes s) hcontroller fun _ =>
      hcontroller.trans (attributes_snapshot cfg clock snapshot _)
  | readController => exact attributes_controllerAvailable cfg clock s
  | portal portal =>
    show Attributes s (discoverPortal portal s)
    rw [discoverPortal_eq]
    exact .of_eq rfl rfl rfl

theorem attributed_run (cfg : Config) (portal : Str) (es : List Event) :
    Attributed (replay (step cfg) (MqttState.init portal) es) :=
  replay_invariant (step cfg) (fun _ hk => absurd rfl hk)
    (fun s e h => (attributes_step cfg s e).attributed h) es

/-! ## After a clear -/

/-- The map a state shows; an absent one says that nothing is available. -/
def shownFlags (state : Object) : Value :=
  (state.get? telemetryKey).getD (telemetryAvailable Dict.empty)

/-- Two reads show the same: an absent key is `None`, an absent map flags nothing. -/
structure SameRead (a b : Object) : Prop where
  values : ∀ k, k ≠ telemetryKey → a.getD k = b.getD k
  flags : shownFlags a = shownFlags b

theorem shownFlags_show (s : MqttState) (o : Object) :
    shownFlags (s.show o).currentState = telemetryAvailable (s.show o).currentState := by
  unfold MqttState.show
  extract_lets claimed current
  show shownFlags (if claimed.isEmpty && current.isEmpty then current else _) =
    telemetryAvailable (if claimed.isEmpty && current.isEmpty then current else _)
  split
  · next hempty =>
    rw [Bool.and_eq_true] at hempty
    have hnil : current.entries = [] := List.isEmpty_iff.mp hempty.2
    have hget : ∀ k, current.get? k = none := by
      intro k
      unfold Dict.get?
      rw [hnil]
      rfl
    unfold shownFlags
    rw [hget]
    apply telemetryAvailable_congr
    intro k _
    unfold Object.getD
    rw [hget]
    rfl
  · unfold shownFlags telemetryKey
    rw [Dict.get?_set, if_pos rfl]
    apply telemetryAvailable_congr
    intro k hk
    unfold Object.getD
    rw [Dict.get?_set_ne _ _ (ne_telemetry hk)]

/-- A clear leaves what the native side shows, and nothing else. -/
theorem clearDaemon_shows {cfg : Config} {s : MqttState} (h : Attributed s) {o : Object}
    (ho : s.nativeView.overlay cfg = some o) :
    (clearDaemonState cfg s).state = s.withoutDaemon.show o ∧
      ∀ k, k ≠ telemetryKey → (s.withoutDaemon.show o).currentState.getD k =
        if k ∈ unionKeys s.cerboClaimedKeys o.keys then (o.get? k).getD (collectionDefault k)
        else .none := by
  have hoverlay : overlay cfg s.withoutDaemon.seen (devices s.withoutDaemon.cerboDevices) =
      some o := ho
  refine ⟨?_, fun k hk => ?_⟩
  · unfold clearDaemonState applyCerboOverlays
    rw [hoverlay]
    rfl
  · unfold Object.getD
    rw [show_currentState _ _ hk]
    have hclaims : s.withoutDaemon.cerboClaimedKeys = s.cerboClaimedKeys := rfl
    rw [hclaims]
    split
    · rfl
    · next hunclaimed =>
      by_contra hshown
      obtain ⟨hbefore, hdaemon, hserver⟩ := withoutDaemon_getD hshown
      rcases h k hbefore with hclaimed | hsaid | hkey
      · exact hunclaimed (mem_unionKeys.mpr (Or.inl hclaimed))
      · exact hdaemon hsaid
      · exact (List.mem_cons.mp hkey).elim hk hserver

/-- What a clear leaves of the controller's own observations. -/
theorem clearDaemon_controller (cfg : Config) (s : MqttState) :
    (clearDaemonState cfg s).state.daemonReceivedAt = none ∧
      (clearDaemonState cfg s).state.controllerEssMode = none ∧
      (clearDaemonState cfg s).state.essModeObservedAt = none ∧
      (clearDaemonState cfg s).state.setpointOverrideObservedAt = none ∧
      (clearDaemonState cfg s).state.electricityTariffObservedAt = none := by
  unfold clearDaemonState applyCerboOverlays
  split
  · exact ⟨rfl, rfl, rfl, rfl, rfl⟩
  · exact ⟨rfl, rfl, rfl, rfl, rfl⟩

/-- The times a read adds. -/
def observedKeys : List Str := keyList
  ["ess_mode_observed_at", "setpoint_override_observed_at", "electricity_tariff_observed_at"]

theorem shownState_cleared {s : MqttState} (hmode : s.controllerEssMode = none)
    (hess : s.essModeObservedAt = none) (hoverride : s.setpointOverrideObservedAt = none)
    (htariff : s.electricityTariffObservedAt = none) (k : Str) :
    (shownState s).getD k = if k ∈ observedKeys then .none else s.currentState.getD k := by
  unfold shownState
  rw [hmode, hess, hoverride, htariff]
  dsimp only
  split
  · next hempty =>
    have hnone : s.currentState.getD k = .none := by
      have hnil : s.currentState.entries = [] := List.isEmpty_iff.mp hempty
      unfold Object.getD Dict.get?
      rw [hnil]
      rfl
    rw [hnone]
    split
    · rfl
    · rfl
  · unfold Object.getD observedKeys
    rw [Dict.get?_set, Dict.get?_set, Dict.get?_set]
    by_cases h₁ : k = Str.lit "electricity_tariff_observed_at"
    · rw [if_pos h₁, if_pos (h₁ ▸ by decide)]
      rfl
    · by_cases h₂ : k = Str.lit "setpoint_override_observed_at"
      · rw [if_neg h₁, if_pos h₂, if_pos (h₂ ▸ by decide)]
        rfl
      · by_cases h₃ : k = Str.lit "ess_mode_observed_at"
        · rw [if_neg h₁, if_neg h₂, if_pos h₃, if_pos (h₃ ▸ by decide)]
          rfl
        · rw [if_neg h₁, if_neg h₂, if_neg h₃, if_neg]
          simp [keyList, h₁, h₂, h₃]

/-- No check of the controller's commands says yes, at any time. -/
def NoAuthority (cfg : Config) (s : MqttState) : Prop :=
  ∀ clock, (controllerAvailable cfg clock s).result = some false ∧
    (controllerCommandsAvailable cfg clock s).result = some false ∧
    ∀ remote connected, (canSelectEssMode cfg clock remote connected s).result = some false ∧
      ∀ name, (canControllerCommand cfg clock name remote connected s).result = some false

theorem noAuthority_of {s : MqttState} (cfg : Config) (h : s.daemonReceivedAt = none) :
    NoAuthority cfg s := by
  intro clock
  have havailable : controllerAvailable cfg clock s = ⟨s, some false⟩ := by
    unfold controllerAvailable
    rw [h]
  unfold controllerCommandsAvailable canSelectEssMode canControllerCommand
  rw [havailable]
  exact ⟨rfl, rfl, fun _ _ => ⟨rfl, fun _ => rfl⟩⟩

/-- **What the controller said is forgotten.** Of two runs with the same native inputs and any
    controller operations, the reads after a clear show the same, and no command authority is left,
    when the instance ids stored at the clear can be ordered. -/
theorem clear_forgets (cfg : Config) (portal : Str) (es es' : List Event) (clock clock' : Clock)
    (hinputs : nativeInputs cfg portal es = nativeInputs cfg portal es')
    (hids : (replay (step cfg) (MqttState.init portal) es).cerboDevices.Ids Orderable) :
    ∃ a b,
      (getState cfg clock (clearDaemonState cfg
        (replay (step cfg) (MqttState.init portal) es)).state).result = some a ∧
      (getState cfg clock' (clearDaemonState cfg
        (replay (step cfg) (MqttState.init portal) es')).state).result = some b ∧
      SameRead a b ∧
      NoAuthority cfg (clearDaemonState cfg (replay (step cfg) (MqttState.init portal) es)).state ∧
      NoAuthority cfg
        (clearDaemonState cfg (replay (step cfg) (MqttState.init portal) es')).state := by
  have hview := nativeView_run cfg portal es
  rw [hinputs, ← nativeView_run cfg portal es'] at hview
  have hattributed := attributed_run cfg portal es
  have hattributed' := attributed_run cfg portal es'
  generalize replay (step cfg) (MqttState.init portal) es = s at *
  generalize replay (step cfg) (MqttState.init portal) es' = s' at *
  obtain ⟨o, ho⟩ := overlay_isSome cfg s.seen ((listed_iff _).mpr hids)
  have ho' : s'.nativeView.overlay cfg = some o := by
    rw [← hview]
    exact ho
  obtain ⟨hclear, hshown⟩ := clearDaemon_shows hattributed ho
  obtain ⟨hclear', hshown'⟩ := clearDaemon_shows hattributed' ho'
  obtain ⟨hreceived, hmode, hess, hoverride, htariff⟩ := clearDaemon_controller cfg s
  obtain ⟨hreceived', hmode', hess', hoverride', htariff'⟩ := clearDaemon_controller cfg s'
  have hclaims : s.cerboClaimedKeys = s'.cerboClaimedKeys :=
    congrArg NativeView.cerboClaimedKeys hview
  have hcurrent : ∀ k, k ≠ telemetryKey → (clearDaemonState cfg s).state.currentState.getD k =
      (clearDaemonState cfg s').state.currentState.getD k := by
    intro k hk
    rw [hclear, hclear', hshown k hk, hshown' k hk, hclaims]
  have hlive : ∀ {t : MqttState} {now : Clock}, t.daemonReceivedAt = none → ¬ Expired now t := by
    rintro t now ht ⟨received, hmem, -⟩
    rw [ht] at hmem
    cases hmem
  refine ⟨_, _, getState_live cfg (hlive hreceived), getState_live cfg (hlive hreceived'), ⟨?_, ?_⟩,
    noAuthority_of cfg hreceived, noAuthority_of cfg hreceived'⟩
  · intro k hk
    rw [shownState_cleared hmode hess hoverride htariff,
      shownState_cleared hmode' hess' hoverride' htariff', hcurrent k hk]
  · unfold shownFlags
    rw [shownState_telemetry, shownState_telemetry]
    show shownFlags _ = shownFlags _
    rw [hclear, hclear', shownFlags_show, shownFlags_show]
    apply telemetryAvailable_congr
    intro k hk
    rw [← hclear, ← hclear']
    exact hcurrent k (ne_telemetry hk)

/-- A meter's power. -/
def meterPower : Event :=
  ⟨⟨1, 1⟩, .native (Str.lit "N/site/grid/30/Ac/Power")
    (.json (.dict [(Str.lit "value", .int 100)])) false⟩

/-- The controller's own power of the grid, and a backup report. -/
def controllerPower : Event :=
  ⟨⟨0, 0⟩, .controller ((Dict.empty.set (Str.lit "gt") (.int 5)).set (Str.lit "grid_backup")
    (.dict [(Str.lit "measurement_time", .int 7)])) false⟩

theorem clear_forgets_controllerPower :
    ∃ a b,
      (getState .default ⟨2, 2⟩ (clearDaemonState .default (replay (step .default)
        (MqttState.init (Str.lit "site")) [controllerPower, meterPower])).state).result = some a ∧
      (getState .default ⟨2, 2⟩ (clearDaemonState .default (replay (step .default)
        (MqttState.init (Str.lit "site")) [meterPower])).state).result = some b ∧
      SameRead a b ∧
      NoAuthority .default (clearDaemonState .default (replay (step .default)
        (MqttState.init (Str.lit "site")) [controllerPower, meterPower])).state ∧
      NoAuthority .default (clearDaemonState .default (replay (step .default)
        (MqttState.init (Str.lit "site")) [meterPower])).state := by
  refine clear_forgets .default (Str.lit "site") [controllerPower, meterPower] [meterPower]
    ⟨2, 2⟩ ⟨2, 2⟩ ?_ ?_
  · simp only [nativeInputs, trace, List.filterMap_cons, nativeInput, controllerPower, meterPower]
  · have hsome : (applyCerboOverlays .default (replay (step .default)
        (MqttState.init (Str.lit "site")) [controllerPower, meterPower])).result.isSome = true := by
      decide +kernel
    exact (apply_isSome_iff .default _).mp hsome

/-- A tank whose instance id cannot be ordered. -/
def unorderedTank : Event :=
  ⟨⟨2, 2⟩, .native (Str.lit "N/site/tank/²/Level")
    (.json (.dict [(Str.lit "value", .int 40)])) false⟩

/-- A clear that raises leaves what the controller once named empty. -/
theorem raised_clear_remembers : ¬ ∀ (cfg : Config) (portal : Str) (es es' : List Event)
    (clock clock' : Clock) (a b : Object),
      nativeInputs cfg portal es = nativeInputs cfg portal es' →
      (getState cfg clock (clearDaemonState cfg
        (replay (step cfg) (MqttState.init portal) es)).state).result = some a →
      (getState cfg clock' (clearDaemonState cfg
        (replay (step cfg) (MqttState.init portal) es')).state).result = some b →
      SameRead a b := by
  intro h
  have hsilent : ((getState .default ⟨3, 3⟩ (clearDaemonState .default (replay (step .default)
      (MqttState.init (Str.lit "site")) [meterPower, unorderedTank])).state).result.map fun state =>
        (state.getD (Str.lit "gt")).isNone) = some false := by decide +kernel
  have hnamed : ((getState .default ⟨3, 3⟩ (clearDaemonState .default (replay (step .default)
      (MqttState.init (Str.lit "site")) [controllerPower, meterPower,
        unorderedTank])).state).result.map fun state =>
        (state.getD (Str.lit "gt")).isNone) = some true := by decide +kernel
  obtain ⟨a, ha, hknown⟩ := Option.map_eq_some_iff.mp hsilent
  obtain ⟨b, hb, hunknown⟩ := Option.map_eq_some_iff.mp hnamed
  have hinputs : nativeInputs .default (Str.lit "site") [meterPower, unorderedTank] =
      nativeInputs .default (Str.lit "site") [controllerPower, meterPower, unorderedTank] := by
    simp only [nativeInputs, trace, List.filterMap_cons, nativeInput, controllerPower, meterPower,
      unorderedTank]
  have hsame := h .default (Str.lit "site") [meterPower, unorderedTank]
    [controllerPower, meterPower, unorderedTank] ⟨3, 3⟩ ⟨3, 3⟩ a b hinputs ha hb
  rw [hsame.values _ (by decide), hunknown] at hknown
  cases hknown

end InverterDashboard.Server
