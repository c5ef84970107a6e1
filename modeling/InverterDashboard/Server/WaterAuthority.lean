import Mathlib.Tactic.Linarith
import InverterDashboard.Server.LeafMap

/-
  Authority for a water write. A pump's mode may be written while an accepted observation of
  its mode is at most 30 seconds old; every other report on the mode, a disconnection, a removal
  and a clear end that authority.

  The authority lives in a side table next to the device store (`MqttState.water`). Controller
  operations touch neither. The invariant `Backed` says of every entry whose mode is still
  usable that a valid observation, at least as recent as the entry, was the last word on it.
-/

namespace InverterDashboard.Server

open Python Cerbo Controller Temporal

/-! ## Observations and what ends them -/

/-- The cached mode of a pump. -/
def modePath : Str := Str.lit "Mode"

/-- A message that reports a usable mode: accepted, not retained, 0, 1 or 2. -/
def validMode (path : Str) (payload : Payload) (retained : Bool) (value : Value) : Prop :=
  path = modePath ∧ retained = false ∧ leafValue? .pump modePath payload = some value ∧
    isMode value = true

/-- The leaves of a snapshot that is applied. -/
def appliedSnapshot (cfg : Config) (x : MqttState × Event) : Option LeafMap :=
  match x.2.op with
  | .snapshot snapshot => some (.ofSnapshot snapshot)
  | .gateway snapshot =>
    if (applySnapshotController cfg x.2.clock snapshot x.1).result.isSome then
      some (.ofSnapshot snapshot)
    else none
  | _ => none

/-- The native message on a pump's leaf. -/
def pumpMessage (x : MqttState × Event) : Option (Str × Str × Payload × Bool) :=
  match x.2.op with
  | .native topic payload retained =>
    match addressed x.1 topic payload with
    | some (.pump, inst, path) => some (inst, path, payload, retained)
    | _ => none
  | _ => none

/-- The step is an accepted observation of the pump's mode. -/
def ObservesMode (cfg : Config) (inst : Str) (value : Value) (x : MqttState × Event) : Prop :=
  (∃ path payload retained, pumpMessage x = some (inst, path, payload, retained) ∧
    validMode path payload retained value) ∨
  ∃ l, appliedSnapshot cfg x = some l ∧ l .pump inst modePath = some value ∧ isMode value = true

/-- A message that takes the authority away: a removal, a value other than 1 on `Connected`, or
    a report on the mode that is not a valid observation. -/
def endsAuthority (path : Str) (payload : Payload) (retained : Bool) : Prop :=
  payload = .empty ∨
  (∃ value, path = Str.lit "Connected" ∧ leafValue? .pump path payload = some value ∧
    isConnected value = false) ∨
  path = modePath ∧ ¬ ∃ value, validMode path payload retained value

/-- The step ends the authority over a pump: a session clear, such a message, or a snapshot
    that leaves the pump out, disconnected or without a usable mode. -/
def EndsMode (cfg : Config) (inst : Str) (x : MqttState × Event) : Prop :=
  x.2.op = .clearNative ∨
  (∃ path payload retained, pumpMessage x = some (inst, path, payload, retained) ∧
    endsAuthority path payload retained) ∨
  ∃ l, appliedSnapshot cfg x = some l ∧
    ((¬ ∃ value, l .pump inst modePath = some value ∧ isMode value = true) ∨
      ∃ value, l .pump inst (Str.lit "Connected") = some value ∧ isConnected value = false)

/-! ## What a native message does to the store and the side table -/

/-- The side table after `supersedeMode`. -/
def superseded (kind : Kind) (inst path : Str) (observations : Dict Str ℚ) : Dict Str ℚ :=
  if kind = .pump ∧ path = modePath then observations.erase inst else observations

/-- Everything a native message can do to the devices `m` and the side table `w`. -/
inductive NativeEffect (clock : Clock) (payload : Payload) (retained : Bool) (m : Devices)
    (w : Dict Str ℚ) (s' : MqttState) : Option (Kind × Str × Str) → Prop where
  /-- The message is not for this source. -/
  | elsewhere : s'.cerboDevices = m → s'.waterModeObservations = w →
      NativeEffect clock payload retained m w s' none
  /-- The message is not a valid leaf. -/
  | rejected (kind : Kind) (inst path : Str) : payload ≠ .empty →
      leafValue? kind path payload = none → s'.cerboDevices = m →
      s'.waterModeObservations = superseded kind inst path w →
      NativeEffect clock payload retained m w s' (some (kind, inst, path))
  /-- The message removes a service that is not there. -/
  | absent (kind : Kind) (inst path : Str) : payload = .empty → m.remove kind inst = none →
      s'.cerboDevices = m → s'.waterModeObservations = superseded kind inst path w →
      NativeEffect clock payload retained m w s' (some (kind, inst, path))
  | removed (kind : Kind) (inst path : Str) : payload = .empty →
      m.remove kind inst = some s'.cerboDevices →
      s'.waterModeObservations = (if kind = .pump then (superseded kind inst path w).erase inst
        else superseded kind inst path w) →
      NativeEffect clock payload retained m w s' (some (kind, inst, path))
  | stored (kind : Kind) (inst path : Str) (value : Value) : payload ≠ .empty →
      leafValue? kind path payload = some value →
      s'.cerboDevices = m.store kind inst path value →
      s'.waterModeObservations = observeWaterMode clock kind inst path value retained
        (superseded kind inst path w) →
      NativeEffect clock payload retained m w s' (some (kind, inst, path))

theorem supersedeMode_native (kind : Kind) (inst path : Str) (s : MqttState) :
    (supersedeMode kind inst path s).cerboDevices = s.cerboDevices ∧
      (supersedeMode kind inst path s).waterModeObservations =
        superseded kind inst path s.waterModeObservations := by
  unfold supersedeMode superseded modePath
  split
  · exact ⟨rfl, rfl⟩
  · exact ⟨rfl, rfl⟩

theorem native_fields {s s' : MqttState} (h : s'.native = s.native) :
    s'.cerboDevices = s.cerboDevices ∧ s'.waterModeObservations = s.waterModeObservations :=
  ⟨congrArg NativePart.cerboDevices h, congrArg NativePart.waterModeObservations h⟩

/-- The effect of `_handle_cerbo_device`. -/
theorem handleCerboDevice_effect (cfg : Config) (clock : Clock) (topic : Str) (payload : Payload)
    (retained : Bool) (s : MqttState) :
    NativeEffect clock payload retained s.cerboDevices s.waterModeObservations
      (handleCerboDevice cfg clock topic payload retained s).state
      (nativeTopic s.portalId topic) := by
  unfold handleCerboDevice
  cases ht : nativeTopic s.portalId topic with
  | none => exact .elsewhere rfl rfl
  | some a =>
    obtain ⟨kind, inst, path⟩ := a
    obtain ⟨hdev, hobs⟩ := supersedeMode_native kind inst path s
    dsimp only
    cases hp : applyNativePayload cfg clock kind inst path payload retained
        (supersedeMode kind inst path s) with
    | none =>
      cases payload with
      | empty =>
        refine .absent kind inst path rfl ?_ hdev hobs
        have hr := Option.map_eq_none_iff.mp hp
        rwa [hdev] at hr
      | malformed => exact .rejected kind inst path (by simp) rfl hdev hobs
      | json data =>
        exact .rejected kind inst path (by simp) (Option.map_eq_none_iff.mp hp) hdev hobs
    | some s₂ =>
      obtain ⟨hd₂, ho₂⟩ := native_fields (native_refresh cfg clock s₂)
      have hstore : payload ≠ .empty → storeCerboLeaf cfg clock kind inst path payload retained
          (supersedeMode kind inst path s) = some s₂ → NativeEffect clock payload retained
            s.cerboDevices s.waterModeObservations (refreshNativeMqttState cfg clock s₂).state
            (some (kind, inst, path)) := by
        intro hne hs
        obtain ⟨v, hv, rfl⟩ := Option.map_eq_some_iff.mp hs
        refine .stored kind inst path v hne hv (hd₂.trans ?_) (ho₂.trans ?_)
        · rw [hdev]
        · rw [hobs]
      cases payload with
      | empty =>
        obtain ⟨m, hm, rfl⟩ := Option.map_eq_some_iff.mp hp
        rw [hdev] at hm
        refine .removed kind inst path rfl (hm.trans (congrArg some hd₂.symm)) (ho₂.trans ?_)
        rw [hobs]
      | malformed => exact hstore (by simp) hp
      | json data => exact hstore (by simp) hp

theorem native_effect (cfg : Config) (clock : Clock) (topic : Str) (payload : Payload)
    (retained : Bool) (s : MqttState) :
    NativeEffect clock payload retained s.cerboDevices s.waterModeObservations
      (nativeMessage cfg clock topic payload retained s).state (addressed s topic payload) := by
  obtain ⟨portal, hp⟩ := nativeTopicSelected_fst topic payload s
  unfold nativeMessage addressed
  dsimp only
  split
  · have h := handleCerboDevice_effect cfg clock topic payload retained
      (nativeTopicSelected topic payload s).1
    rw [hp] at h ⊢
    exact h
  · rw [hp]
    exact .elsewhere rfl rfl

/-! ## The side table is backed by observations -/

/-- The last word on a pump's mode is a valid observation of `value`, no older than `t`. -/
def Backed (cfg : Config) (inst : Str) (value : Value) (t : ℚ) (l : List (MqttState × Event)) :
    Prop :=
  Since (fun x => ¬ EndsMode cfg inst x)
    (fun x => ObservesMode cfg inst value x ∧ t ≤ x.2.clock.mono) l

/-- Every usable entry of the side table is backed. -/
def Covered (cfg : Config) (l : List (MqttState × Event)) (s : MqttState) : Prop :=
  ∀ inst t value, s.waterModeObservations.get? inst = some t →
    s.cerboDevices.leaf .pump inst modePath = some value → isMode value = true →
    Backed cfg inst value t l

/-- No entry is from the future. -/
def NotAfter (now : ℚ) (s : MqttState) : Prop :=
  ∀ inst t, s.waterModeObservations.get? inst = some t → t ≤ now

theorem superseded_get? {kind : Kind} {inst path i : Str} {observations : Dict Str ℚ} {t : ℚ}
    (h : (superseded kind inst path observations).get? i = some t) :
    observations.get? i = some t ∧ ¬ (kind = .pump ∧ inst = i ∧ path = modePath) := by
  unfold superseded at h
  split at h
  · next hk =>
    rw [Dict.get?_erase] at h
    split at h
    · cases h
    · next hi => exact ⟨h, fun hc => hi hc.2.1.symm⟩
  · next hk => exact ⟨h, fun hc => hk ⟨hc.1, hc.2.2⟩⟩

/-- An entry after a stored leaf is either the one this leaf makes, or an older one the leaf
    does not concern. -/
theorem observeWaterMode_get? {clock : Clock} {kind : Kind} {inst path i : Str} {value : Value}
    {retained : Bool} {observations : Dict Str ℚ} {t : ℚ}
    (h : (observeWaterMode clock kind inst path value retained observations).get? i = some t) :
    (kind = .pump ∧ inst = i ∧ path = modePath ∧ retained = false ∧ isMode value = true ∧
        t = clock.mono) ∨
      observations.get? i = some t ∧ ¬ (kind = .pump ∧ inst = i ∧
        (path = modePath ∨ path = Str.lit "Connected" ∧ isConnected value = false)) := by
  have hconnected : Str.lit "Connected" ≠ modePath := by decide
  have herase : (observations.erase inst).get? i = some t →
      observations.get? i = some t ∧ inst ≠ i := by
    intro he
    rw [Dict.get?_erase] at he
    split at he
    · cases he
    · next hi => exact ⟨he, fun e => hi e.symm⟩
  unfold observeWaterMode at h
  split at h
  · next hk => exact Or.inr ⟨h, fun hc => hk hc.1⟩
  · split at h
    · next hp =>
      split at h
      · next hv =>
        refine Or.inr ⟨h, fun hc => ?_⟩
        rcases hc.2.2 with hm | ⟨-, hv'⟩
        · exact hconnected (hp ▸ hm)
        · rw [hv] at hv'
          cases hv'
      · exact Or.inr ⟨(herase h).1, fun hc => (herase h).2 hc.2.1⟩
    · split at h
      · next hk _ hp =>
        split at h
        · next hv =>
          rw [Dict.get?_set] at h
          split at h
          · next hi =>
            rw [Bool.and_eq_true] at hv
            exact Or.inl ⟨not_not.mp hk, hi.symm, hp, by simpa using hv.1, hv.2,
              (Option.some.inj h).symm⟩
          · exact Or.inr ⟨(herase h).1, fun hc => (herase h).2 hc.2.1⟩
        · exact Or.inr ⟨(herase h).1, fun hc => (herase h).2 hc.2.1⟩
      · next hc hm =>
        refine Or.inr ⟨h, fun hx => ?_⟩
        rcases hx.2.2 with hp | ⟨hp, -⟩
        · exact hm hp
        · exact hc hp

/-- A message on other leaves keeps an entry backed. -/
theorem Backed.later {cfg : Config} {inst : Str} {value : Value} {t : ℚ}
    {l : List (MqttState × Event)} (h : Backed cfg inst value t l) {x : MqttState × Event}
    (hclear : x.2.op ≠ .clearNative) (hsnap : appliedSnapshot cfg x = none)
    (hmsg : ∀ path payload retained, pumpMessage x = some (inst, path, payload, retained) →
      ¬ endsAuthority path payload retained) : Backed cfg inst value t (l ++ [x]) := by
  refine Since.later h ?_
  rintro (hc | ⟨path, payload, retained, hm, he⟩ | ⟨m, hm, -⟩)
  · exact hclear hc
  · exact hmsg path payload retained hm he
  · rw [hsnap] at hm
    cases hm

/-- The pump message of a native step. -/
theorem pumpMessage_native (s : MqttState) (clock : Clock) (topic : Str) (payload : Payload)
    (retained : Bool) {inst path : Str} {p : Payload} {r : Bool}
    (h : pumpMessage (s, ⟨clock, .native topic payload retained⟩) = some (inst, path, p, r)) :
    addressed s topic payload = some (.pump, inst, path) ∧ p = payload ∧ r = retained := by
  unfold pumpMessage at h
  dsimp only at h
  split at h
  · next i q ha =>
    simp only [Option.some.injEq, Prod.mk.injEq] at h
    obtain ⟨rfl, rfl, rfl, rfl⟩ := h
    exact ⟨ha, rfl, rfl⟩
  · cases h

/-- **One native message** keeps every usable entry backed. -/
theorem covered_native {cfg : Config} {l : List (MqttState × Event)} {s : MqttState}
    (h : Covered cfg l s) (clock : Clock) (topic : Str) (payload : Payload) (retained : Bool) :
    Covered cfg (l ++ [(s, ⟨clock, .native topic payload retained⟩)])
      (nativeMessage cfg clock topic payload retained s).state := by
  intro i t value hobs hleaf hmode
  have hmsg : ∀ {p q r}, pumpMessage (s, ⟨clock, .native topic payload retained⟩) =
      some (i, p, q, r) → addressed s topic payload = some (.pump, i, p) ∧ q = payload ∧
        r = retained := fun hm => pumpMessage_native s clock topic payload retained hm
  have heffect := native_effect cfg clock topic payload retained s
  generalize (nativeMessage cfg clock topic payload retained s).state = s' at hobs hleaf heffect
  generalize ha : addressed s topic payload = a at heffect
  cases heffect with
  | elsewhere hdev hs =>
    rw [hs] at hobs
    rw [hdev] at hleaf
    refine (h i t value hobs hleaf hmode).later (by simp) rfl ?_
    intro p q r hm
    rw [(hmsg hm).1] at ha
    cases ha
  | rejected kind inst path hne hv hdev hs =>
    rw [hs] at hobs
    rw [hdev] at hleaf
    obtain ⟨hobs, hnot⟩ := superseded_get? hobs
    refine (h i t value hobs hleaf hmode).later (by simp) rfl ?_
    intro p q r hm
    obtain ⟨haddr, rfl, rfl⟩ := hmsg hm
    obtain ⟨rfl, rfl, rfl⟩ : kind = .pump ∧ inst = i ∧ path = p := by
      simpa [ha] using haddr
    rintro (he | ⟨v, -, hv', -⟩ | ⟨hp, -⟩)
    · exact hne he
    · rw [hv] at hv'
      cases hv'
    · exact hnot ⟨rfl, rfl, hp⟩
  | absent kind inst path _ hr hdev hs =>
    rw [hs] at hobs
    rw [hdev] at hleaf
    obtain ⟨hobs, -⟩ := superseded_get? hobs
    refine (h i t value hobs hleaf hmode).later (by simp) rfl ?_
    intro p q r hm
    obtain ⟨haddr, rfl, rfl⟩ := hmsg hm
    obtain ⟨rfl, rfl, rfl⟩ : kind = .pump ∧ inst = i ∧ path = p := by
      simpa [ha] using haddr
    -- The service is not stored, so it has no cached mode.
    unfold Devices.leaf at hleaf
    rw [Devices.remove_eq_none hr] at hleaf
    cases hleaf
  | removed kind inst path _ hr hs =>
    rw [Devices.leaf_remove hr] at hleaf
    split at hleaf
    · cases hleaf
    · next hother =>
      have hw : (superseded kind inst path s.waterModeObservations).get? i = some t := by
        rw [hs] at hobs
        split at hobs
        · rw [Dict.get?_erase] at hobs
          split at hobs
          · cases hobs
          · exact hobs
        · exact hobs
      refine (h i t value (superseded_get? hw).1 hleaf hmode).later (by simp) rfl ?_
      intro p q r hm
      obtain ⟨haddr, rfl, rfl⟩ := hmsg hm
      obtain ⟨rfl, rfl, rfl⟩ : kind = .pump ∧ inst = i ∧ path = p := by
        simpa [ha] using haddr
      exact absurd ⟨rfl, rfl⟩ hother
  | stored kind inst path v hne hv hdev hs =>
    rw [hs] at hobs
    rw [hdev, Devices.leaf_store] at hleaf
    rcases observeWaterMode_get? hobs with ⟨rfl, rfl, rfl, hr, hv', rfl⟩ | ⟨hw, hother⟩
    · rw [if_pos ⟨rfl, rfl, rfl⟩] at hleaf
      obtain rfl := Option.some.inj hleaf
      refine Since.now ⟨Or.inl ⟨modePath, payload, retained, ?_, rfl, hr, hv, hv'⟩, le_refl _⟩
      unfold pumpMessage
      simp only [ha]
    · rw [if_neg fun hc => hother ⟨hc.1.symm, hc.2.1.symm, Or.inl hc.2.2.symm⟩] at hleaf
      refine (h i t value (superseded_get? hw).1 hleaf hmode).later (by simp) rfl ?_
      intro p q r hm
      obtain ⟨haddr, rfl, rfl⟩ := hmsg hm
      obtain ⟨rfl, rfl, rfl⟩ : kind = .pump ∧ inst = i ∧ path = p := by
        simpa [ha] using haddr
      rintro (he | ⟨v', hp, hv', hc⟩ | ⟨hp, -⟩)
      · exact hne he
      · rw [hv] at hv'
        obtain rfl := Option.some.inj hv'
        exact hother ⟨rfl, rfl, Or.inr ⟨hp, hc⟩⟩
      · exact hother ⟨rfl, rfl, Or.inl hp⟩

/-! ## Snapshots and clears -/

theorem NotAfter.mono {a b : ℚ} {s : MqttState} (h : NotAfter a s) (hab : a ≤ b) :
    NotAfter b s := fun inst t ht => le_trans (h inst t ht) hab

/-- The devices after a snapshot, and the only entries its side table can have. -/
theorem snapshot_native (cfg : Config) (clock : Clock) (snapshot : Object) (s : MqttState) :
    let s' := (replaceCerboSnapshot cfg clock snapshot s).state
    (∀ kind inst path, s'.cerboDevices.leaf kind inst path =
      LeafMap.ofSnapshot snapshot kind inst path) ∧
    ∀ inst t, s'.waterModeObservations.get? inst = some t →
      t = clock.mono ∨ s.waterModeObservations.get? inst = some t := by
  have hleaf := leaf_foldl_storeLeaf Stores.empty.leaf (snapshotLeaves snapshot)
  unfold replaceCerboSnapshot
  dsimp only
  split
  · exact ⟨hleaf, fun inst t ht => Or.inr ht⟩
  · next pumps _ =>
    generalize hs : noteNativeObservation (Str.lit "igw") clock _ = s₀
    obtain ⟨hdev, hobs⟩ := native_fields (native_applyCerboOverlays cfg s₀)
    refine ⟨?_, ?_⟩
    · intro kind inst path
      rw [hdev, ← hs]
      exact hleaf kind inst path
    · intro inst t ht
      rw [hobs, ← hs] at ht
      obtain ⟨d, -, hd⟩ := List.mem_map.mp (Dict.mem_of_get?_ofList ht)
      exact Or.inl (Prod.mk.inj hd).2.symm

theorem notAfter_snapshot {cfg : Config} {clock : Clock} {snapshot : Object} {s : MqttState}
    (h : NotAfter clock.mono s) :
    NotAfter clock.mono (replaceCerboSnapshot cfg clock snapshot s).state := by
  intro inst t ht
  rcases (snapshot_native cfg clock snapshot s).2 inst t ht with rfl | hs
  · exact le_refl _
  · exact h inst t hs

/-- An applied snapshot backs every entry it leaves behind. -/
theorem covered_snapshot {cfg : Config} {l : List (MqttState × Event)} {s : MqttState}
    {x : MqttState × Event} {snapshot : Object} (h : NotAfter x.2.clock.mono s)
    (hx : appliedSnapshot cfg x = some (.ofSnapshot snapshot)) :
    Covered cfg (l ++ [x]) (replaceCerboSnapshot cfg x.2.clock snapshot s).state := by
  intro inst t value hobs hleaf hmode
  rw [(snapshot_native cfg x.2.clock snapshot s).1] at hleaf
  exact Since.now ⟨Or.inr ⟨_, hx, hleaf, hmode⟩, notAfter_snapshot h inst t hobs⟩

/-- An operation that leaves the devices and the side table alone, and is no report. -/
theorem Covered.keep {cfg : Config} {l : List (MqttState × Event)} {s s' : MqttState}
    (h : Covered cfg l s) (hs : s'.native = s.native) {x : MqttState × Event}
    (hclear : x.2.op ≠ .clearNative) (hsnap : appliedSnapshot cfg x = none)
    (hmsg : pumpMessage x = none) : Covered cfg (l ++ [x]) s' := by
  obtain ⟨hdev, hobs⟩ := native_fields hs
  intro inst t value ht hleaf hmode
  rw [hobs] at ht
  rw [hdev] at hleaf
  refine (h inst t value ht hleaf hmode).later hclear hsnap ?_
  intro p q r hm
  rw [hmsg] at hm
  cases hm

theorem NotAfter.keep {now : ℚ} {s s' : MqttState} (h : NotAfter now s)
    (hs : s'.native = s.native) : NotAfter now s' := by
  intro inst t ht
  rw [(native_fields hs).2] at ht
  exact h inst t ht

theorem notAfter_native {cfg : Config} {clock : Clock} {s : MqttState} (h : NotAfter clock.mono s)
    (topic : Str) (payload : Payload) (retained : Bool) :
    NotAfter clock.mono (nativeMessage cfg clock topic payload retained s).state := by
  intro i t hobs
  have heffect := native_effect cfg clock topic payload retained s
  generalize (nativeMessage cfg clock topic payload retained s).state = s' at hobs heffect
  generalize addressed s topic payload = a at heffect
  have hsup : ∀ {kind inst path},
      (superseded kind inst path s.waterModeObservations).get? i = some t → t ≤ clock.mono :=
    fun hw => h i t (superseded_get? hw).1
  cases heffect with
  | elsewhere hdev hs =>
    rw [hs] at hobs
    exact h i t hobs
  | rejected kind inst path hne hv hdev hs =>
    rw [hs] at hobs
    exact hsup hobs
  | absent kind inst path _ hr hdev hs =>
    rw [hs] at hobs
    exact hsup hobs
  | removed kind inst path _ hr hs =>
    rw [hs] at hobs
    split at hobs
    · rw [Dict.get?_erase] at hobs
      split at hobs
      · cases hobs
      · exact hsup hobs
    · exact hsup hobs
  | stored kind inst path v hne hv hdev hs =>
    rw [hs] at hobs
    rcases observeWaterMode_get? hobs with ⟨-, -, -, -, -, rfl⟩ | ⟨hw, -⟩
    · exact le_refl _
    · exact hsup hw

/-! ## Whole runs -/

/-- **One operation** keeps every usable entry backed and no entry from the future. -/
theorem covered_step {cfg : Config} {l : List (MqttState × Event)} {s : MqttState} (e : Event)
    (h : Covered cfg l s) (hnow : NotAfter e.clock.mono s) :
    Covered cfg (l ++ [(s, e)]) (step cfg s e) ∧ NotAfter e.clock.mono (step cfg s e) := by
  obtain ⟨clock, op⟩ := e
  cases op with
  | native topic payload retained =>
    exact ⟨covered_native h clock topic payload retained,
      notAfter_native hnow topic payload retained⟩
  | snapshot snapshot => exact ⟨covered_snapshot hnow rfl, notAfter_snapshot hnow⟩
  | clearNative =>
    obtain ⟨-, hobs⟩ := native_fields (native_applyCerboOverlays cfg { s with
      cerboDevices := Dict.empty
      waterModeObservations := Dict.empty
      nativeInvalidated := unionKeys s.nativeInvalidated s.nativeObservations.keys })
    have hnone : ∀ inst t, (clearCerboState cfg s).state.waterModeObservations.get? inst ≠ some t := by
      intro inst t ht
      unfold clearCerboState at ht
      rw [hobs] at ht
      cases ht
    exact ⟨fun inst t _ ht => absurd ht (hnone inst t), fun inst t ht => absurd ht (hnone inst t)⟩
  | controller incoming retained =>
    have hs := native_merge cfg clock incoming retained s
    exact ⟨h.keep hs (by simp) rfl rfl, hnow.keep hs⟩
  | controllerGone =>
    have hs := native_clearDaemon cfg s
    exact ⟨h.keep hs (by simp) rfl rfl, hnow.keep hs⟩
  | override value retained =>
    have hs := native_observe clock (Dict.empty.set (Str.lit "setpoint_override") value) retained s
    exact ⟨h.keep hs (by simp) rfl rfl, hnow.keep hs⟩
  | gateway snapshot =>
    have hs := native_snapshotController cfg clock snapshot s
    have hnow' := NotAfter.keep hnow hs
    unfold step applySnapshot Call.andThen
    dsimp only
    cases hr : (applySnapshotController cfg clock snapshot s).result with
    | none =>
      refine ⟨h.keep hs (by simp) ?_ rfl, hnow'⟩
      unfold appliedSnapshot
      simp [hr]
    | some u =>
      refine ⟨covered_snapshot (x := (s, ⟨clock, .gateway snapshot⟩)) hnow' ?_,
        notAfter_snapshot hnow'⟩
      unfold appliedSnapshot
      simp [hr]
  | readController =>
    have hs := native_controllerAvailable cfg clock s
    exact ⟨h.keep hs (by simp) rfl rfl, hnow.keep hs⟩
  | portal portal =>
    have hs := native_discoverPortal portal s
    exact ⟨h.keep hs (by simp) rfl rfl, hnow.keep hs⟩

theorem covered_run (cfg : Config) (portal : Str) {es : List Event}
    (hclock : Nondecreasing (fun e => e.clock.mono) es) :
    Covered cfg (trace (step cfg) (MqttState.init portal) es)
        (replay (step cfg) (MqttState.init portal) es) ∧
      ∀ now, (∀ e ∈ es, e.clock.mono ≤ now) →
        NotAfter now (replay (step cfg) (MqttState.init portal) es) := by
  induction es using List.reverseRecOn with
  | nil =>
    refine ⟨?_, ?_⟩
    · intro inst t value ht
      cases ht
    · intro now _ inst t ht
      cases ht
  | append_singleton es e ih =>
    obtain ⟨hes, hlast⟩ := hclock.of_concat
    obtain ⟨hcovered, hnow⟩ := ih hes
    obtain ⟨hc, hn⟩ := covered_step e hcovered (hnow _ hlast)
    rw [trace_concat, replay_append]
    exact ⟨hc, fun now h => hn.mono (h e (by simp))⟩

/-! ## Authority -/

/-- A listed service shows the leaves that are stored for it. -/
theorem listed_leaf {m : Devices} {kind : Kind} {pumps : Listing} {inst : Str} {leaves : Leaves}
    (h : devices m kind = some pumps) (hm : (inst, leaves) ∈ pumps) (path : Str) :
    leaves.get path = m.leaf kind inst path := by
  obtain ⟨rows, hrows, rfl⟩ := Option.map_eq_some_iff.mp h
  obtain ⟨r, hr, hre⟩ := List.mem_map.mp (List.mem_filter.mp hm).1
  have hmem : r.2 ∈ rows.map Prod.snd :=
    List.mem_map_of_mem ((List.mem_insertionSort byKey).mp hr)
  rw [(keyed_mapM hrows).1, hre] at hmem
  obtain ⟨⟨i, d⟩, hd, heq⟩ := List.mem_map.mp hmem
  obtain ⟨rfl, rfl⟩ := Prod.mk.inj heq
  unfold Devices.leaf
  rw [Dict.mem_entries.mp hd]
  rfl

/-- **A fresh mode was observed.** If a listed, connected pump has a usable mode and its side
    table entry is fresh, then within the last 30 seconds a valid observation reported exactly
    the cached mode, and nothing after it ended the authority. -/
theorem water_mode_authorized (cfg : Config) (portal : Str) (es : List Event) (now : Clock)
    (inst : Str) (pumps : Listing) (leaves : Leaves)
    (hclock : Nondecreasing (fun e => e.clock.mono) es)
    (hnow : ∀ e ∈ es, e.clock.mono ≤ now.mono)
    (hfresh : waterModeFresh now inst (replay (step cfg) (MqttState.init portal) es) = true)
    (hpumps : devices (replay (step cfg) (MqttState.init portal) es).cerboDevices .pump =
      some pumps)
    (hlisted : (inst, leaves) ∈ pumps) (hmode : isMode (leaves.value modePath) = true) :
    Since (fun x => ¬ EndsMode cfg inst x)
      (fun x => ObservesMode cfg inst (leaves.value modePath) x ∧
        now.mono - 30 ≤ x.2.clock.mono ∧ x.2.clock.mono ≤ now.mono)
      (trace (step cfg) (MqttState.init portal) es) := by
  obtain ⟨hcovered, -⟩ := covered_run cfg portal hclock
  generalize replay (step cfg) (MqttState.init portal) es = s at hfresh hpumps hcovered
  have hleaf := listed_leaf hpumps hlisted modePath
  unfold waterModeFresh at hfresh
  split at hfresh
  · next t ht =>
    have hcached : s.cerboDevices.leaf .pump inst modePath = some (leaves.value modePath) := by
      unfold Leaves.value at hmode ⊢
      rw [← hleaf]
      cases hg : leaves.get modePath with
      | none =>
        rw [hg] at hmode
        cases hmode
      | some v => rfl
    have h30 : now.mono - t ≤ 30 := by
      simp only [Bool.and_eq_true, decide_eq_true_eq, Bool.decide_and] at hfresh
      exact hfresh.2
    refine (hcovered inst t _ ht hcached hmode).mono (fun _ _ hp => hp) ?_
    rintro x hx ⟨hobserves, htime⟩
    exact ⟨hobserves, by linarith, hnow _ (mem_of_mem_trace (step cfg) hx)⟩
  · cases hfresh

theorem leafValue?_of_valid {k : Kind} {path : Str} {es : List (Str × Value)} {v : Value}
    (hp : path ≠ []) (hf : Dict.find (Str.lit "value") es = some v)
    (hv : validPathValue path v = true) (hk : knownPath k path = true) :
    leafValue? k path (.json (.dict es)) = some v := by
  unfold leafValue?
  simp [hp, hf, hv, hk]

/-- A pump reports its mode. -/
def pumpModeReport : List Event :=
  [⟨⟨100, 5⟩, .native (Str.lit "N/c0619ab/pump/1/Mode")
    (.json (.dict [(Str.lit "value", .int 1)])) false⟩]

theorem water_mode_authorized_report :
    Since (fun x => ¬ EndsMode .default (Str.lit "1") x)
      (fun x => ObservesMode .default (Str.lit "1") (.int 1) x ∧
        (20 : ℚ) - 30 ≤ x.2.clock.mono ∧ x.2.clock.mono ≤ 20)
      (trace (step .default) (MqttState.init (Str.lit "c0619ab")) pumpModeReport) := by
  have hone : number (.int 1) = some 1 := by decide +kernel
  have hvalid : validPathValue modePath (.int 1) = true := by
    unfold validPathValue
    simp [hone]
  have hv : leafValue? .pump modePath (.json (.dict [(Str.lit "value", .int 1)])) =
      some (.int 1) := leafValue?_of_valid (by decide) rfl hvalid (by decide)
  have hrun : replay (step .default) (MqttState.init (Str.lit "c0619ab")) pumpModeReport =
      (nativeMessage .default ⟨100, 5⟩ (Str.lit "N/c0619ab/pump/1/Mode")
        (.json (.dict [(Str.lit "value", .int 1)])) false (MqttState.init (Str.lit "c0619ab"))).state :=
    rfl
  have hdev : (replay (step .default) (MqttState.init (Str.lit "c0619ab"))
      pumpModeReport).cerboDevices =
        Devices.store Dict.empty .pump (Str.lit "1") modePath (.int 1) := by
    have heffect := native_effect .default ⟨100, 5⟩ (Str.lit "N/c0619ab/pump/1/Mode")
      (.json (.dict [(Str.lit "value", .int 1)])) false (MqttState.init (Str.lit "c0619ab"))
    rw [hrun]
    rw [show addressed (MqttState.init (Str.lit "c0619ab")) (Str.lit "N/c0619ab/pump/1/Mode")
      (.json (.dict [(Str.lit "value", .int 1)])) = some (.pump, Str.lit "1", modePath) by rfl]
      at heffect
    cases heffect with
    | rejected _ _ _ _ hno => rw [hv] at hno; cases hno
    | absent _ _ _ he => cases he
    | removed _ _ _ he => cases he
    | stored _ _ _ v _ hv' hdev =>
      rw [hv] at hv'
      obtain rfl := Option.some.inj hv'
      rw [hdev]
      rfl
  have hpumps : devices (replay (step .default) (MqttState.init (Str.lit "c0619ab"))
      pumpModeReport).cerboDevices .pump = some [(Str.lit "1",
        Leaves.ofDict (Dict.empty.set modePath (.int 1)))] := by
    rw [hdev]
    rfl
  refine water_mode_authorized .default (Str.lit "c0619ab") pumpModeReport ⟨0, 20⟩
    (Str.lit "1") _ (Leaves.ofDict (Dict.empty.set modePath (.int 1))) ?_ ?_ ?_ hpumps ?_ ?_
  · exact List.pairwise_singleton _ _
  · decide +kernel
  · decide +kernel
  · exact List.mem_cons_self
  · decide +kernel

end InverterDashboard.Server
