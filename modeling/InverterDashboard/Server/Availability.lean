import InverterDashboard.Server.EssAuthority
import InverterDashboard.Server.Totality

/-
  The availability map of the shown state.

  One place computes the map (`_apply_cerbo_overlays`), and several others change the values it is
  about. All of them end by applying the overlays, so that map and values agree unless one of them
  raises on its way (`availability_agrees`).
-/

namespace InverterDashboard.Server

open Python Cerbo Controller Temporal

/-! ## Flags and values -/

def telemetryKey : Str := Str.lit "telemetry_available"

/-- A shown availability map says of every owned value whether it is known. -/
def Agrees (state : Object) : Prop :=
  ∀ v, state.get? telemetryKey = some v → ∃ flags, v = .dict flags ∧
    ∀ k ∈ cerboOwnedKeys, Dict.find k collectionDefaults = none →
      (Value.member k flags = .bool true ↔ state.getD k ≠ .none)

/-- The map that is stored, if any, is the one of the values that are stored. -/
def Flagged (current : Object) : Prop :=
  ∀ v, current.get? telemetryKey = some v → v = telemetryAvailable current

theorem find_map_self {f : Str → Value} {ks : List Str} {k : Str} (hk : k ∈ ks) :
    Dict.find k (ks.map fun x => (x, f x)) = some (f k) := by
  induction ks with
  | nil => cases hk
  | cons x ks ih =>
    rw [List.map_cons]
    unfold Dict.find
    by_cases hx : k = x
    · rw [if_pos hx, hx]
    · rw [if_neg hx]
      exact ih ((List.mem_cons.mp hk).resolve_left hx)

/-- The map reads owned values only. -/
theorem telemetryAvailable_congr {a b : Object} (h : ∀ k ∈ cerboOwnedKeys, a.getD k = b.getD k) :
    telemetryAvailable a = telemetryAvailable b := by
  unfold telemetryAvailable
  congr 1
  apply List.map_congr_left
  intro k hk
  rw [h k (List.mem_filter.mp hk).1]

theorem Flagged.agrees {current : Object} (h : Flagged current) : Agrees current := by
  intro v hv
  have hmap := h v hv
  refine ⟨_, hmap, fun k hk hdefault => ?_⟩
  have hmem : k ∈ cerboOwnedKeys.filter fun k => (Dict.find k collectionDefaults).isNone :=
    List.mem_filter.mpr ⟨hk, by rw [hdefault]; rfl⟩
  unfold Value.member
  rw [find_map_self (f := fun k => .bool !(current.getD k).isNone) hmem]
  cases hvalue : current.getD k with
  | none => simp [Value.isNone]
  | _ => simp [Value.isNone]

/-- What keeps the owned values and the map keeps them together. -/
theorem Flagged.congr {a b : Object} (h : Flagged a)
    (hab : ∀ k, k ∈ cerboOwnedKeys ∨ k = telemetryKey → b.get? k = a.get? k) : Flagged b := by
  intro v hv
  rw [hab telemetryKey (Or.inr rfl)] at hv
  rw [h v hv]
  apply telemetryAvailable_congr
  intro k hk
  unfold Object.getD
  rw [hab k (Or.inl hk)]

theorem Flagged.set {current : Object} (h : Flagged current) {k : Str} (hk : k ∉ cerboOwnedKeys)
    (ht : k ≠ telemetryKey) (v : Value) : Flagged (current.set k v) := by
  apply h.congr
  intro x hx
  rw [Dict.get?_set_ne]
  rintro rfl
  exact hx.elim hk ht

/-! ## Overlays -/

/-- Overlays that are applied leave the map they compute. -/
theorem flagged_show (s : MqttState) (o : Object) : Flagged (s.show o).currentState := by
  unfold MqttState.show
  extract_lets claimed current
  show Flagged (if claimed.isEmpty && current.isEmpty then current else _)
  split
  · next hempty =>
    intro v hv
    rw [Bool.and_eq_true] at hempty
    have hnil : current.entries = [] := List.isEmpty_iff.mp hempty.2
    unfold Dict.get? at hv
    rw [hnil] at hv
    cases hv
  · intro v hv
    unfold telemetryKey at hv
    rw [Dict.get?_set, if_pos rfl] at hv
    rw [← Option.some.inj hv]
    apply telemetryAvailable_congr
    intro k hk
    unfold Object.getD
    rw [Dict.get?_set_ne _ _ (ne_telemetry hk)]

theorem flagged_apply {cfg : Config} {s : MqttState} (h : s.cerboDevices.Ids Orderable) :
    Flagged (applyCerboOverlays cfg s).state.currentState := by
  have hsome := (apply_isSome_iff cfg s).mpr h
  unfold applyCerboOverlays at hsome ⊢
  split
  · exact flagged_show s _
  · next hnone =>
    rw [hnone] at hsome
    cases hsome

/-- Overlays that raise change nothing. -/
theorem flagged_apply_of {cfg : Config} {s : MqttState} (h : Flagged s.currentState) :
    Flagged (applyCerboOverlays cfg s).state.currentState := by
  unfold applyCerboOverlays
  split
  · exact flagged_show s _
  · exact h

/-! ## Operations -/

/-- A `grid_backup` report whose time `isfinite` can read. -/
def BackupReadable (incoming : Object) : Prop :=
  ∀ backup, incoming.get? (Str.lit "grid_backup") = some backup → backupObservedAt backup ≠ none

/-- The controller has not been heard for more than two minutes. -/
def Expired (clock : Clock) (s : MqttState) : Prop := ∃ t ∈ s.daemonReceivedAt, 120 < clock.mono - t

/-- Where a controller operation changes values, nothing raises before the map follows. -/
def Follows (x : MqttState × Event) : Prop :=
  match x.2.op with
  | .controller incoming _ => x.1.cerboDevices.Ids Orderable ∧ BackupReadable incoming
  | .controllerGone => x.1.cerboDevices.Ids Orderable
  | .readController => Expired x.2.clock x.1 → x.1.cerboDevices.Ids Orderable
  | .gateway snapshot =>
    match snapshot.get? (Str.lit "inverter") with
    | some (.dict es) => x.1.cerboDevices.Ids Orderable ∧ BackupReadable (Dict.ofList es)
    | some .none => x.1.cerboDevices.Ids Orderable
    | _ => True
  | _ => True

theorem flagged_refresh {cfg : Config} (clock : Clock) {s : MqttState}
    (h : Flagged s.currentState) :
    Flagged (refreshNativeMqttState cfg clock s).state.currentState := by
  have happly : Flagged (applyCerboOverlays cfg
      (noteNativeObservation (Str.lit "mqtt") clock s)).state.currentState := flagged_apply_of h
  refine Call.andThen_state (P := fun s => Flagged s.currentState) happly fun _ => ?_
  dsimp only
  split
  · exact happly
  · exact happly

theorem flagged_snapshot {cfg : Config} (clock : Clock) (snapshot : Object) {s : MqttState}
    (h : Flagged s.currentState) :
    Flagged (replaceCerboSnapshot cfg clock snapshot s).state.currentState := by
  unfold replaceCerboSnapshot
  dsimp only
  split
  · exact h
  · apply flagged_apply_of
    exact h

theorem currentState_applyNativePayload {cfg : Config} {clock : Clock} {kind : Kind}
    {inst path : Str} {payload : Payload} {retained : Bool} {s s' : MqttState}
    (h : applyNativePayload cfg clock kind inst path payload retained s = some s') :
    s'.currentState = s.currentState := by
  unfold applyNativePayload at h
  split at h
  · obtain ⟨m, -, rfl⟩ := Option.map_eq_some_iff.mp h
    rfl
  · obtain ⟨v, -, rfl⟩ := Option.map_eq_some_iff.mp h
    rfl

theorem flagged_native {cfg : Config} (clock : Clock) (topic : Str) (payload : Payload)
    (retained : Bool) {s : MqttState} (h : Flagged s.currentState) :
    Flagged (nativeMessage cfg clock topic payload retained s).state.currentState := by
  have hselected : Flagged (nativeTopicSelected topic payload s).1.currentState := by
    obtain ⟨portal, hportal⟩ := nativeTopicSelected_fst topic payload s
    rw [hportal]
    exact h
  unfold nativeMessage handleCerboDevice
  dsimp only
  split
  · split
    · exact hselected
    · next kind inst path _ =>
      have hsuperseded : Flagged (supersedeMode kind inst path
          (nativeTopicSelected topic payload s).1).currentState := by
        unfold supersedeMode
        split
        · exact hselected
        · exact hselected
      split
      · exact hsuperseded
      · next happlied =>
        apply flagged_refresh
        rw [currentState_applyNativePayload happlied]
        exact hsuperseded
  · exact hselected

theorem flagged_clearDaemon {cfg : Config} {s : MqttState} (h : s.cerboDevices.Ids Orderable) :
    Flagged (clearDaemonState cfg s).state.currentState :=
  flagged_apply (s := s.withoutDaemon) h

theorem flagged_controllerAvailable {cfg : Config} (clock : Clock) {s : MqttState}
    (h : Flagged s.currentState) (hids : Expired clock s → s.cerboDevices.Ids Orderable) :
    Flagged (controllerAvailable cfg clock s).state.currentState := by
  unfold controllerAvailable
  split
  · exact h
  · next t ht =>
    split
    · next hexpired =>
      have hclear : Flagged (clearDaemonState cfg s).state.currentState :=
        flagged_clearDaemon (hids ⟨t, ht, hexpired⟩)
      exact Call.andThen_state (P := fun s => Flagged s.currentState) hclear fun _ => hclear
    · exact h

theorem observe_isSome_iff (clock : Clock) (incoming : Object) (retained : Bool) (s : MqttState) :
    (observe clock incoming retained s).result.isSome = true ↔ BackupReadable incoming := by
  unfold observe BackupReadable
  dsimp only
  cases hbackup : incoming.get? (Str.lit "grid_backup") with
  | none => simp [Call.done]
  | some backup =>
    cases hmeasured : backupObservedAt backup with
    | none => simp [hmeasured]
    | some measured => simp [Call.done, hmeasured]

/-- A merge that gets to its end applies the overlays there. -/
theorem flagged_merge {cfg : Config} (clock : Clock) {incoming : Object} (retained : Bool)
    {s : MqttState} (hids : s.cerboDevices.Ids Orderable) (hbackup : BackupReadable incoming) :
    Flagged (mergeDaemonState cfg clock incoming retained s).state.currentState := by
  unfold mergeDaemonState
  extract_lets s₁ s₂ s₃
  have hdevices : s₃.cerboDevices = s.cerboDevices := by
    show s₂.cerboDevices = s.cerboDevices
    unfold s₂
    split
    · rfl
    · rfl
  have hobserved := (observe_isSome_iff clock incoming retained s₃).mpr hbackup
  have hkept := (observe_keeps clock incoming retained s₃).devices
  obtain ⟨u, hu⟩ := Option.isSome_iff_exists.mp hobserved
  unfold Call.andThen
  rw [hu]
  apply flagged_apply
  rw [hkept, hdevices]
  exact hids

theorem flagged_observe {clock : Clock} {incoming : Object} {retained : Bool} {s : MqttState}
    (h : Flagged s.currentState) :
    Flagged (observe clock incoming retained s).state.currentState := by
  have hover : ∀ v, Flagged (observeOverride clock.wall v retained s).currentState := by
    intro v
    unfold observeOverride
    split
    · exact h.set (by decide) (by decide) _
    · exact h.set (by decide) (by decide) _
  unfold observe
  extract_lets s₁ s₂
  have h₁ : Flagged s₁.currentState := by
    unfold s₁
    split
    · exact hover _
    · exact h
  have h₂ : Flagged s₂.currentState := by
    unfold s₂
    split
    · exact h₁
    · exact h₁
  split
  · exact h₂
  · split
    · exact h₂
    · exact h₂.set (by decide) (by decide) _

theorem flagged_snapshotController (cfg : Config) {clock : Clock} {snapshot : Object}
    {s : MqttState} (h : Flagged s.currentState) (hfollows : Follows (s, ⟨clock, .gateway snapshot⟩)) :
    Flagged (applySnapshotController cfg clock snapshot s).state.currentState := by
  unfold Follows at hfollows
  dsimp only at hfollows
  unfold applySnapshotController
  extract_lets s₁ controller
  have hcontroller : Flagged controller.state.currentState := by
    unfold controller
    split
    · next es hinverter =>
      rw [hinverter] at hfollows
      have hclear : Flagged (clearDaemonState cfg s₁).state.currentState :=
        flagged_clearDaemon hfollows.1
      refine Call.andThen_state (P := fun s => Flagged s.currentState) hclear fun _ => ?_
      apply flagged_merge clock false
      · rw [cerboDevices_of_native (native_clearDaemon cfg s₁)]
        exact hfollows.1
      · exact hfollows.2
    · next hinverter =>
      rw [hinverter] at hfollows
      exact flagged_clearDaemon hfollows
    · exact h
  refine Call.andThen_state (P := fun s => Flagged s.currentState) hcontroller fun _ => ?_
  split
  · exact hcontroller
  · exact hcontroller.set (by decide) (by decide) _

/-! ## Runs -/

theorem flagged_step {cfg : Config} {s : MqttState} (h : Flagged s.currentState) (e : Event)
    (hfollows : Follows (s, e)) : Flagged (step cfg s e).currentState := by
  obtain ⟨clock, op⟩ := e
  cases op with
  | native topic payload retained => exact flagged_native clock topic payload retained h
  | snapshot snapshot => exact flagged_snapshot clock snapshot h
  | clearNative => exact flagged_apply_of h
  | controller incoming retained => exact flagged_merge clock retained hfollows.1 hfollows.2
  | controllerGone => exact flagged_clearDaemon hfollows
  | override value retained => exact flagged_observe h
  | gateway snapshot =>
    have hcontroller := flagged_snapshotController cfg h hfollows
    exact Call.andThen_state (P := fun s => Flagged s.currentState) hcontroller fun _ =>
      flagged_snapshot clock snapshot hcontroller
  | readController => exact flagged_controllerAvailable clock h hfollows
  | portal portal =>
    show Flagged (discoverPortal portal s).currentState
    unfold discoverPortal
    split
    · exact h
    · exact h

theorem flagged_run {cfg : Config} {portal : Str} {es : List Event}
    (h : ∀ x ∈ trace (step cfg) (MqttState.init portal) es, Follows x) :
    Flagged (replay (step cfg) (MqttState.init portal) es).currentState := by
  induction es using List.reverseRecOn with
  | nil =>
    intro v hv
    cases hv
  | append_singleton es e ih =>
    rw [trace_concat] at h
    rw [replay_append]
    exact flagged_step (ih fun x hx => h x (List.mem_append_left _ hx)) e (h _ (by simp))

/-! ## What is shown -/

/-- The controller's selection stands in for the native mode. -/
def ModeSupported (s : MqttState) : Prop :=
  ∃ mode, s.controllerEssMode = some mode ∧
    (mode.getD (Str.lit "selection_supported")).isTrue = true

/-- The controller's selection is shown beside the flag of an unknown native mode. -/
structure ModeHidden (clock : Clock) (s : MqttState) : Prop where
  live : ¬ Expired clock s
  supported : ModeSupported s
  unknown : s.currentState.getD essModeKey = .none
  mapped : s.currentState.has telemetryKey = true

theorem owned_derived {k : Str} (hk : k ∈ cerboOwnedKeys) (hne : k ≠ essModeKey) :
    k ∉ derivedKeys := by
  have hall : ∀ k ∈ derivedKeys, k ∈ cerboOwnedKeys → k = essModeKey := by decide
  exact fun h => hne (hall k h hk)

theorem shownState_essMode {s : MqttState} (h : ¬ ModeSupported s) {k : Str}
    (hk : k ∈ cerboOwnedKeys) : (shownState s).getD k = s.currentState.getD k := by
  have hne : ∀ x ∈ keyList ["ess_mode_observed_at", "setpoint_override_observed_at",
      "electricity_tariff_observed_at"], x ∉ cerboOwnedKeys := by decide
  have hkeep : ∀ x ∈ keyList ["ess_mode_observed_at", "setpoint_override_observed_at",
      "electricity_tariff_observed_at"], k ≠ x := fun x hx e => hne x hx (e ▸ hk)
  have hget : (shownState s).get? k = s.currentState.get? k := by
    unfold shownState
    extract_lets result time
    have hresult : result = s.currentState := by
      unfold result
      split
      · next mode hmode =>
        rw [if_neg]
        exact fun hsupported => h ⟨mode, hmode, hsupported⟩
      · rfl
    rw [hresult]
    split
    · rfl
    · rw [Dict.get?_set_ne _ _ (hkeep _ (by decide)), Dict.get?_set_ne _ _ (hkeep _ (by decide)),
        Dict.get?_set_ne _ _ (hkeep _ (by decide))]
  unfold Object.getD
  rw [hget]

theorem shownState_supported {s : MqttState} (h : ModeSupported s) :
    (shownState s).getD essModeKey ≠ .none := by
  obtain ⟨mode, hmode, hsupported⟩ := h
  have hget : (shownState s).get? essModeKey = some (.dict mode.entries) := by
    unfold shownState essModeKey
    extract_lets result time
    have hresult : result = s.currentState.set (Str.lit "ess_mode") (.dict mode.entries) := by
      unfold result
      rw [hmode]
      exact if_pos hsupported
    rw [hresult]
    split
    · rw [Dict.get?_set, if_pos rfl]
    · rw [Dict.get?_set_ne _ _ (by decide), Dict.get?_set_ne _ _ (by decide),
        Dict.get?_set_ne _ _ (by decide), Dict.get?_set, if_pos rfl]
  unfold Object.getD
  rw [hget]
  intro hnone
  cases hnone

theorem shownState_telemetry (s : MqttState) :
    (shownState s).get? telemetryKey = s.currentState.get? telemetryKey :=
  shownState_get? s (by decide)

/-- A shown state agrees unless the controller's mode stands beside an unknown native one. -/
theorem agrees_shownState_iff {s : MqttState} (h : Flagged s.currentState) :
    Agrees (shownState s) ↔ ¬ (ModeSupported s ∧ s.currentState.getD essModeKey = .none ∧
      s.currentState.has telemetryKey = true) := by
  constructor
  · rintro hagrees ⟨hsupported, hunknown, hmapped⟩
    obtain ⟨v, hv⟩ := Option.isSome_iff_exists.mp hmapped
    obtain ⟨flags, rfl, hflags⟩ := hagrees v ((shownState_telemetry s).trans hv)
    obtain ⟨flags', hflags', hstored⟩ := h.agrees _ hv
    injection hflags' with hflags'
    subst hflags'
    have hshown := (hflags essModeKey (by decide) (by decide)).mpr (shownState_supported hsupported)
    exact (hstored essModeKey (by decide) (by decide)).mp hshown hunknown
  · intro hno v hv
    rw [shownState_telemetry] at hv
    obtain ⟨flags, hflags, hstored⟩ := h.agrees v hv
    refine ⟨flags, hflags, fun k hk hdefault => ?_⟩
    rw [hstored k hk hdefault]
    by_cases hsupported : ModeSupported s
    · by_cases hess : k = essModeKey
      · subst hess
        have hknown : s.currentState.getD essModeKey ≠ .none := fun hunknown =>
          hno ⟨hsupported, hunknown, Option.isSome_iff_exists.mpr ⟨v, hv⟩⟩
        exact ⟨fun _ => shownState_supported hsupported, fun _ => hknown⟩
      · rw [shownState_getD s (owned_derived hk hess)]
    · rw [shownState_essMode hsupported hk]

theorem getState_eq_some {cfg : Config} {clock : Clock} {s : MqttState} {state : Object}
    (h : (getState cfg clock s).result = some state) :
    ∃ available, (controllerAvailable cfg clock s).result = some available ∧
      state = shownState (controllerAvailable cfg clock s).state := by
  unfold getState Call.andThen at h
  split at h
  · next available hresult => exact ⟨available, hresult, (Option.some.inj h).symm⟩
  · cases h

/-- A read of a live controller, or of none, changes nothing. -/
theorem controllerAvailable_live {cfg : Config} {clock : Clock} {s : MqttState}
    (h : ¬ Expired clock s) : (controllerAvailable cfg clock s).state = s := by
  unfold controllerAvailable
  split
  · rfl
  · next t ht =>
    rw [if_neg]
    exact fun hlate => h ⟨t, ht, hlate⟩

/-- A read of a live controller, or of none, shows the state as it is. -/
theorem getState_live (cfg : Config) {clock : Clock} {s : MqttState} (h : ¬ Expired clock s) :
    (getState cfg clock s).result = some (shownState s) := by
  have havailable : ∃ available, controllerAvailable cfg clock s = ⟨s, some available⟩ := by
    unfold controllerAvailable
    split
    · exact ⟨false, rfl⟩
    · next t ht =>
      rw [if_neg fun hlate => h ⟨t, ht, hlate⟩]
      exact ⟨true, rfl⟩
  obtain ⟨available, havailable⟩ := havailable
  unfold getState Call.andThen
  rw [havailable]
  rfl

/-- A read that drops the controller applies the overlays. -/
theorem controllerAvailable_expired {cfg : Config} {clock : Clock} {s : MqttState}
    {available : Bool} (h : Expired clock s)
    (hresult : (controllerAvailable cfg clock s).result = some available) :
    s.cerboDevices.Ids Orderable ∧
      (controllerAvailable cfg clock s).state = (clearDaemonState cfg s).state := by
  obtain ⟨t, ht, hlate⟩ := h
  unfold controllerAvailable at hresult ⊢
  rw [ht] at hresult ⊢
  dsimp only at hresult ⊢
  rw [if_pos hlate] at hresult ⊢
  unfold Call.andThen at hresult ⊢
  split at hresult
  · next u hu =>
    have hsome : (clearDaemonState cfg s).result.isSome = true := by rw [hu]; rfl
    exact ⟨(apply_isSome_iff cfg s.withoutDaemon).mp hsome, rfl⟩
  · cases hresult

theorem controllerEssMode_clearDaemon (cfg : Config) (s : MqttState) :
    (clearDaemonState cfg s).state.controllerEssMode = none := by
  unfold clearDaemonState applyCerboOverlays
  split
  · rfl
  · rfl

theorem agrees_getState_iff {cfg : Config} {clock : Clock} {s : MqttState} {state : Object}
    (h : Flagged s.currentState) (hget : (getState cfg clock s).result = some state) :
    Agrees state ↔ ¬ ModeHidden clock s := by
  obtain ⟨available, hresult, rfl⟩ := getState_eq_some hget
  by_cases hexpired : Expired clock s
  · obtain ⟨hids, hstate⟩ := controllerAvailable_expired hexpired hresult
    rw [hstate, agrees_shownState_iff (flagged_clearDaemon hids)]
    constructor
    · exact fun _ hhidden => hhidden.live hexpired
    · rintro - ⟨⟨mode, hmode, -⟩, -⟩
      rw [controllerEssMode_clearDaemon] at hmode
      cases hmode
  · rw [controllerAvailable_live hexpired, agrees_shownState_iff h]
    constructor
    · exact fun hno hhidden => hno ⟨hhidden.supported, hhidden.unknown, hhidden.mapped⟩
    · exact fun hno hboth => hno ⟨hexpired, hboth.1, hboth.2.1, hboth.2.2⟩

/-- **Flags and values.** In a run in which nothing raises between a controller's values and their
    flags, a shown map agrees with the values beside it exactly when the controller's mode does not
    stand in for an unknown native one. -/
theorem availability_agrees_iff (cfg : Config) (portal : Str) (es : List Event) (clock : Clock)
    {state : Object} (h : ∀ x ∈ trace (step cfg) (MqttState.init portal) es, Follows x)
    (hget : (getState cfg clock (replay (step cfg) (MqttState.init portal) es)).result =
      some state) :
    Agrees state ↔ ¬ ModeHidden clock (replay (step cfg) (MqttState.init portal) es) :=
  agrees_getState_iff (flagged_run h) hget

theorem orderable_zero : ∀ inst ∈ [Str.lit "0"], Orderable inst := by
  intro inst hinst
  rw [List.mem_singleton.mp hinst]
  exact fun _ => by decide +kernel

/-- The power of a phase, an unknown power of the next one, and a controller that reports both. -/
def mixedReport : List Event :=
  [⟨⟨0, 0⟩, .native (Str.lit "N/site/system/0/Ac/Grid/L1/Power")
      (.json (.dict [(Str.lit "value", .int 100)])) false⟩,
   ⟨⟨1, 1⟩, .native (Str.lit "N/site/system/0/Ac/Grid/L2/Power")
      (.json (.dict [(Str.lit "value", .none)])) false⟩,
   ⟨⟨2, 2⟩, .controller ((Dict.empty.set (Str.lit "g1") (.int 7)).set (Str.lit "g2") (.int 5)) false⟩]

theorem availability_agrees_mixedReport : ∃ state,
    (getState .default ⟨3, 3⟩ (replay (step .default) (MqttState.init (Str.lit "site"))
      mixedReport)).result = some state ∧ Agrees state := by
  have hsome : (getState .default ⟨3, 3⟩ (replay (step .default) (MqttState.init (Str.lit "site"))
      mixedReport)).result.isSome = true := by decide +kernel
  obtain ⟨state, hstate⟩ := Option.isSome_iff_exists.mp hsome
  let first := step .default (MqttState.init (Str.lit "site")) mixedReport[0]
  have hfirst : first.cerboDevices.Ids Orderable := by
    have hids : acceptedIds .default (MqttState.init (Str.lit "site"), mixedReport[0]) =
        [Str.lit "0"] := by decide +kernel
    exact (refreshed_of_orderable (ids_empty _) mixedReport[0] (hids ▸ orderable_zero)).2
  have hsecond : (step .default first mixedReport[1]).cerboDevices.Ids Orderable := by
    have hids : acceptedIds .default (first, mixedReport[1]) = [Str.lit "0"] := by decide +kernel
    exact (refreshed_of_orderable hfirst mixedReport[1] (hids ▸ orderable_zero)).2
  refine ⟨state, hstate, (availability_agrees_iff .default (Str.lit "site") mixedReport ⟨3, 3⟩ ?_
    hstate).mpr ?_⟩
  · intro x hx
    rcases List.mem_cons.mp hx with rfl | hx
    · trivial
    rcases List.mem_cons.mp hx with rfl | hx
    · trivial
    rw [List.mem_singleton.mp hx]
    refine ⟨hsecond, fun backup hbackup => ?_⟩
    have hnone : ((Dict.empty.set (Str.lit "g1") (Value.int 7)).set (Str.lit "g2")
        (Value.int 5)).get? (Str.lit "grid_backup") = none := by decide +kernel
    rw [hnone] at hbackup
    cases hbackup
  · rintro ⟨-, ⟨mode, hmode, -⟩, -, -⟩
    have hnone : (replay (step .default) (MqttState.init (Str.lit "site"))
        mixedReport).controllerEssMode.isNone = true := by decide +kernel
    rw [hmode] at hnone
    cases hnone

/-- An unknown native mode, and the controller's selection. -/
def selectionBesideNull : List Event :=
  [⟨⟨0, 0⟩, .native (Str.lit "N/site/settings/0/Settings/CGwacs/Hub4Mode")
      (.json (.dict [(Str.lit "value", .none)])) false⟩,
   ⟨⟨1, 1⟩, .controller (Dict.empty.set (Str.lit "ess_mode")
      (.dict [(Str.lit "selection_supported", .bool true)])) false⟩]

/-- The flag of a key in a shown state, and whether its value is known. -/
def flagAndValue (state : Object) (k : Str) : Bool × Bool :=
  ((Value.member k (((state.getD telemetryKey).dict?).getD [])).isTrue, !(state.getD k).isNone)

/-- The selection is shown and flagged as unavailable. -/
theorem selection_beside_null_disagrees : ¬ ∀ (cfg : Config) (portal : Str) (es : List Event)
    (clock : Clock) (state : Object),
      (getState cfg clock (replay (step cfg) (MqttState.init portal) es)).result = some state →
        Agrees state := by
  intro h
  have hread : ((getState .default ⟨2, 2⟩ (replay (step .default) (MqttState.init (Str.lit "site"))
      selectionBesideNull)).result.map fun state =>
        ((state.has telemetryKey, flagAndValue state essModeKey))) = some (true, false, true) := by
    decide +kernel
  obtain ⟨state, hstate, hflags⟩ := Option.map_eq_some_iff.mp hread
  have hagrees := h _ _ _ _ state hstate
  simp only [flagAndValue, Prod.mk.injEq] at hflags
  obtain ⟨hhas, hflag, hvalue⟩ := hflags
  obtain ⟨v, hv⟩ := Option.isSome_iff_exists.mp hhas
  obtain ⟨flags, rfl, hall⟩ := hagrees v hv
  have hshown : state.getD essModeKey ≠ .none := by
    intro hnone
    rw [hnone] at hvalue
    cases hvalue
  have htrue := (hall essModeKey (by decide) (by decide)).mpr hshown
  have hmap : state.getD telemetryKey = .dict flags := by
    unfold Object.getD
    rw [hv]
    rfl
  rw [hmap] at hflag
  rw [show ((Value.dict flags).dict?).getD [] = flags from rfl, htrue] at hflag
  cases hflag

end InverterDashboard.Server
