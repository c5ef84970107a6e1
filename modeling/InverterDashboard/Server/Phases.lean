import InverterDashboard.Python.Printing
import InverterDashboard.Server.Availability

/-
  The grid phases: the power of a phase and the flag that says whether it is known.

  The projection writes both or neither. An explicit null claims the power alone, so that the flag
  stays with the controller until the phase has a native reading. A phase can then be shown as
  available without a power; `phases_agree_iff` says which operations let that happen, whatever a
  reader takes the controller's flag to say.
-/

namespace InverterDashboard.Server

open Python Cerbo Controller Temporal

/-! ## One phase of the projection -/

/-- `g{i}`. -/
def gridKey (i : Str) : Str := Str.lit "g" ++ i

/-- `grid_l{i}_available`. -/
def gridFlag (i : Str) : Str := phasePath "grid_l" i "_available"

/-- The AC input feeds the grid fallback: it is connected and it is the grid. -/
def usesInput (system vebus : Leaves) : Bool :=
  vebus.number (Str.lit "Ac/ActiveIn/Connected") ≠ some 0 ∧
    vebus.number (Str.lit "Ac/ActiveIn/ActiveInput") ≠ some 240 ∧
      (system.number (Str.lit "Ac/ActiveIn/Source") = some 1 ∨
        system.number (Str.lit "Ac/ActiveIn/Source") = some 3)

/-- What a phase reads of the leaves: no reading, an unknown power, or a power. -/
def phaseValue (system vebus grid : Leaves) (useInput : Bool) (i : Str) : Option (Option ℚ) :=
  if system.has (phasePath "Ac/Grid/L" i "/Power") then
    some (system.number (phasePath "Ac/Grid/L" i "/Power"))
  else
    (firstNumber [grid.value (phasePath "Ac/L" i "/Power"),
      if useInput then vebus.value (phasePath "Ac/ActiveIn/L" i "/P") else .none,
      if useInput then vebus.value (phasePath "Ac/ActiveIn/L" i "/Power") else .none]).map some

/-- The reading of a phase from the listed devices. -/
def phaseReading (listing : Kind → Option Listing) (i : Str) : Option (Option ℚ) := do
  let systems ← listing .system
  let vebuses ← listing .vebus
  let meters ← listing .grid
  phaseValue (zeroOrFirst systems) (first vebuses) (first meters)
    (usesInput (zeroOrFirst systems) (first vebuses)) i

/-- Power and flag of a phase show its reading, or are both left out. -/
structure PhaseShown (reading : Option (Option ℚ)) (out : Object) (i : Str) : Prop where
  key : out.get? (gridKey i) = reading.map ofNumber
  flag : out.get? (gridFlag i) = reading.map fun q => .bool q.isSome

theorem PhaseShown.writes {reading : Option (Option ℚ)} {ks : List Str} {a b : Object} {i : Str}
    (h : PhaseShown reading a i) (hw : Writes ks a b) (hkey : gridKey i ∉ ks)
    (hflag : gridFlag i ∉ ks) : PhaseShown reading b i where
  key := (hw _ hkey).trans h.key
  flag := (hw _ hflag).trans h.flag

/-- A phase assigns its own keys. -/
theorem applyAcPhase_own (out : Object) (system vebus grid : Leaves) (useInput : Bool) (i : Str) :
    Writes [gridFlag i, gridKey i, Str.lit "t" ++ i] out
      (applyAcPhase out system vebus grid useInput i) := by
  unfold applyAcPhase
  extract_lets path value out₁ consumption
  have h₁ : Writes [gridFlag i, gridKey i, Str.lit "t" ++ i] out out₁ := by
    unfold out₁
    split
    · exact ((Writes.refl _ _).set (by simp [gridFlag]) _).set (by simp [gridKey]) _
    · exact Writes.refl _ _
  exact h₁.put (by simp) _

theorem applyAcPhase_shown {out : Object} (system vebus grid : Leaves) (useInput : Bool) {i : Str}
    (hi : i ∈ phases) (hkey : out.get? (gridKey i) = none) (hflag : out.get? (gridFlag i) = none) :
    PhaseShown (phaseValue system vebus grid useInput i)
      (applyAcPhase out system vebus grid useInput i) i := by
  have hne : ∀ i ∈ phases, gridKey i ≠ gridFlag i ∧ gridKey i ≠ Str.lit "t" ++ i ∧
      gridFlag i ≠ Str.lit "t" ++ i := by decide
  obtain ⟨hkeyFlag, hkeyLoad, hflagLoad⟩ := hne i hi
  have hset : ∀ q : Option ℚ, PhaseShown (some q)
      ((out.set (gridFlag i) (.bool q.isSome)).set (gridKey i) (ofNumber q)) i := by
    intro q
    constructor
    · exact (Dict.get?_set _ _ _ _).trans (if_pos rfl)
    · rw [Dict.get?_set_ne _ _ hkeyFlag.symm]
      exact (Dict.get?_set _ _ _ _).trans (if_pos rfl)
  unfold applyAcPhase
  extract_lets path value out₁ consumption
  have h₁ : PhaseShown (phaseValue system vebus grid useInput i) out₁ i := by
    unfold phaseValue out₁
    by_cases hpath : system.has path = true
    · have hvalue : value = system.number path := if_pos hpath
      rw [if_pos hpath, hvalue, hpath]
      exact hset _
    · have hvalue : value = firstNumber _ := if_neg hpath
      rw [if_neg hpath, ← hvalue]
      rw [Bool.not_eq_true] at hpath
      rw [hpath]
      cases value with
      | none => exact ⟨hkey, hflag⟩
      | some q => exact hset (some q)
  refine h₁.writes ((Writes.refl [Str.lit "t" ++ i] out₁).put (by simp) _) ?_ ?_
  · simpa using hkeyLoad
  · simpa using hflagLoad

/-- The phases one after the other: each writes its own keys, once. -/
theorem foldl_phases_shown (system vebus grid : Leaves) (useInput : Bool) {i : Str}
    (hi : i ∈ phases) {js : List Str} (hjs : ∀ j ∈ js, j ∈ phases) (hnodup : js.Nodup)
    {out : Object} (hbefore : i ∉ js → PhaseShown (phaseValue system vebus grid useInput i) out i)
    (hnone : i ∈ js → out.get? (gridKey i) = none ∧ out.get? (gridFlag i) = none) :
    PhaseShown (phaseValue system vebus grid useInput i)
      (js.foldl (fun out j => applyAcPhase out system vebus grid useInput j) out) i := by
  have hne : ∀ i ∈ phases, ∀ j ∈ phases, i ≠ j →
      gridKey i ∉ [gridFlag j, gridKey j, Str.lit "t" ++ j] ∧
        gridFlag i ∉ [gridFlag j, gridKey j, Str.lit "t" ++ j] := by decide
  induction js generalizing out with
  | nil => exact hbefore List.not_mem_nil
  | cons j js ih =>
    rw [List.foldl_cons]
    have hj := hjs j List.mem_cons_self
    have hrest : ∀ x ∈ js, x ∈ phases := fun x hx => hjs x (List.mem_cons_of_mem _ hx)
    by_cases hij : i = j
    · subst hij
      obtain ⟨hkey, hflag⟩ := hnone List.mem_cons_self
      refine ih hrest hnodup.of_cons (fun _ => ?_) ?_
      · exact applyAcPhase_shown system vebus grid useInput hi hkey hflag
      · exact fun hmem => absurd hmem (List.nodup_cons.mp hnodup).1
    · obtain ⟨hkey, hflag⟩ := hne i hi j hj hij
      have hown := applyAcPhase_own out system vebus grid useInput j
      refine ih hrest hnodup.of_cons (fun hmem => ?_) fun hmem => ?_
      · have hmem' : i ∉ j :: js := fun h => hmem ((List.mem_cons.mp h).resolve_left hij)
        exact (hbefore hmem').writes hown hkey hflag
      · rw [hown _ hkey, hown _ hflag]
        exact hnone (List.mem_cons_of_mem _ hmem)

theorem applyAc_shown (system vebus : Leaves) (meters : Listing) {i : Str} (hi : i ∈ phases) :
    PhaseShown (phaseValue system vebus (first meters) (usesInput system vebus) i)
      (applyAc Dict.empty system vebus meters) i := by
  have hphases : PhaseShown (phaseValue system vebus (first meters) (usesInput system vebus) i)
      (phases.foldl (fun out j => applyAcPhase out system vebus (first meters)
        (usesInput system vebus) j) Dict.empty) i :=
    foldl_phases_shown system vebus (first meters) _ hi (fun j hj => hj) (by decide)
      (fun h => absurd hi h) fun _ => ⟨rfl, rfl⟩
  have hne : ∀ i ∈ phases, gridKey i ∉ keyList ["gt", "grid_available", "tt"] ∧
      gridFlag i ∉ keyList ["gt", "grid_available", "tt"] := by decide
  obtain ⟨hkey, hflag⟩ := hne i hi
  have hrefl := fun out => Writes.refl (keyList ["gt", "grid_available", "tt"]) out
  unfold applyAc
  refine hphases.writes (Writes.put ?_ (by decide) _) hkey hflag
  split
  · exact Writes.set (Writes.set (hrefl _) (by decide) _) (by decide) _
  · split
    · exact Writes.set (hrefl _) (by decide) _
    · split
      · exact Writes.set (hrefl _) (by decide) _
      · exact hrefl _

/-- The overlay shows the reading of a phase. -/
theorem overlay_phase {cfg : Config} {seen : Seen} {listing : Kind → Option Listing} {o : Object}
    (h : overlay cfg seen listing = some o) {i : Str} (hi : i ∈ phases) :
    PhaseShown (phaseReading listing i) o i := by
  have hlate : ∀ i ∈ phases, gridKey i ∉ lateKeys ∧ gridFlag i ∉ lateKeys := by decide
  obtain ⟨systems, vebuses, meters, hsystems, hvebuses, hmeters, hwrites⟩ := overlay_late h
  have hshown := applyAc_shown (zeroOrFirst systems) (first vebuses) meters hi
  unfold phaseReading
  rw [hsystems, hvebuses, hmeters]
  exact hshown.writes hwrites (hlate i hi).1 (hlate i hi).2

/-! ## Phases that agree -/

/-- What a reader takes the flag of a phase to say. Booleans and `None` leave no choice; other values
    count as `==` compares them, as their truth, or as the payload model coerces them. -/
structure FlagReading where
  holds : Value → Bool
  ofBool : ∀ b, holds (.bool b) = b
  ofNone : holds .none = false

namespace FlagReading

attribute [simp] ofBool ofNone

/-- `flag == True`. -/
def equal : FlagReading where
  holds flag := flag.eqv (.bool true)
  ofBool := by decide
  ofNone := rfl

/-- `bool(flag)`. -/
def truth : FlagReading where
  holds flag := flag.truthy
  ofBool _ := rfl
  ofNone := rfl

end FlagReading

section Reading

variable {r : FlagReading}

/-- Of the phases whose power is claimed, the flag is true exactly when the power is known. -/
def PhasesAgree (r : FlagReading) (claimed : List Str) (state : Object) : Prop :=
  ∀ i ∈ phases, gridKey i ∈ claimed →
    (r.holds (state.getD (gridFlag i)) = true ↔ state.getD (gridKey i) ≠ .none)

/-- A phase is claimed without its flag, and the flag that is left says it is available. -/
def Misflagged (r : FlagReading) (claimed : List Str) (current : Object) (i : Str) : Prop :=
  gridKey i ∈ claimed ∧ gridFlag i ∉ claimed ∧ r.holds (current.getD (gridFlag i)) = true

/-- The stored leaves give the phase a reading. -/
def PhaseRead (m : Devices) (i : Str) : Prop := (phaseReading (devices m) i).isSome = true

theorem phase_owned : ∀ i ∈ phases, gridKey i ∈ cerboOwnedKeys ∧ gridFlag i ∈ cerboOwnedKeys ∧
    gridFlag i ∉ reservedKeys ∧ gridKey i ∉ derivedKeys ∧ gridFlag i ∉ derivedKeys := by decide

theorem phase_default {i : Str} (hi : i ∈ phases) :
    collectionDefault (gridKey i) = .none ∧ collectionDefault (gridFlag i) = .none := by
  have hall : ∀ i ∈ phases, (Dict.find (gridKey i) collectionDefaults).isNone = true ∧
      (Dict.find (gridFlag i) collectionDefaults).isNone = true := by decide
  obtain ⟨hkey, hflag⟩ := hall i hi
  unfold collectionDefault Value.member
  rw [Option.isNone_iff_eq_none.mp hkey, Option.isNone_iff_eq_none.mp hflag]
  exact ⟨rfl, rfl⟩

theorem PhaseShown.mem_keys {reading : Option (Option ℚ)} {o : Object} {i : Str}
    (h : PhaseShown reading o i) :
    (gridKey i ∈ o.keys ↔ reading.isSome = true) ∧
      (gridFlag i ∈ o.keys ↔ reading.isSome = true) := by
  rw [Dict.mem_keys, Dict.mem_keys, h.key, h.flag, Option.isSome_map, Option.isSome_map]
  exact ⟨Iff.rfl, Iff.rfl⟩

/-- In a state that shows its store, a claimed phase agrees unless it is misflagged. -/
theorem phase_agrees_iff {cfg : Config} {s : MqttState} (h : Displayed cfg s) {i : Str}
    (hi : i ∈ phases) (hclaimed : gridKey i ∈ s.cerboClaimedKeys) :
    (r.holds (s.currentState.getD (gridFlag i)) = true ↔
      s.currentState.getD (gridKey i) ≠ .none) ↔ ¬ Misflagged r s.cerboClaimedKeys s.currentState i := by
  obtain ⟨seen, o, -, ho, hkeys, hshow⟩ := h.shows
  obtain ⟨hkeyDefault, hflagDefault⟩ := phase_default hi
  have hphase := overlay_phase ho hi
  have hkey : s.currentState.getD (gridKey i) = (o.get? (gridKey i)).getD .none := by
    unfold Object.getD
    rw [hshow _ hclaimed, hkeyDefault]
    rfl
  rw [hkey, hphase.key]
  by_cases hflagClaimed : gridFlag i ∈ s.cerboClaimedKeys
  · have hflag : s.currentState.getD (gridFlag i) = (o.get? (gridFlag i)).getD .none := by
      unfold Object.getD
      rw [hshow _ hflagClaimed, hflagDefault]
      rfl
    rw [hflag, hphase.flag]
    refine iff_of_true ?_ fun hmis => hmis.2.1 hflagClaimed
    rcases phaseReading (devices s.cerboDevices) i with _ | _ | q
    · simp
    · simp [ofNumber]
    · simp [ofNumber]
  · have hnone : phaseReading (devices s.cerboDevices) i = none := by
      rw [← Option.not_isSome_iff_eq_none, ← hphase.mem_keys.2]
      exact fun hmem => hflagClaimed (hkeys _ hmem)
    rw [hnone]
    constructor
    · exact fun hiff hmis => hiff.mp hmis.2.2 rfl
    · intro hno
      exact ⟨fun htrue => absurd ⟨hclaimed, hflagClaimed, htrue⟩ hno, fun hne => absurd rfl hne⟩

/-! ## What an operation does to a phase -/

def NoneMisflagged (r : FlagReading) (s : MqttState) : Prop :=
  ∀ i ∈ phases, ¬ Misflagged r s.cerboClaimedKeys s.currentState i

theorem NoneMisflagged.congr {s s' : MqttState} (h : NoneMisflagged r s)
    (hc : s'.cerboClaimedKeys = s.cerboClaimedKeys)
    (hk : ∀ i ∈ phases, s'.currentState.getD (gridFlag i) = s.currentState.getD (gridFlag i)) :
    NoneMisflagged r s' := by
  intro i hi
  unfold Misflagged
  rw [hc, hk i hi]
  exact h i hi

/-- The overlays leave misflagged what was misflagged and has no reading. -/
theorem misflagged_apply {cfg : Config} {t : MqttState} (h : t.cerboDevices.Ids Orderable)
    {i : Str} (hi : i ∈ phases) :
    Misflagged r (applyCerboOverlays cfg t).state.cerboClaimedKeys
        (applyCerboOverlays cfg t).state.currentState i ↔
      Misflagged r t.cerboClaimedKeys t.currentState i ∧ ¬ PhaseRead t.cerboDevices i := by
  obtain ⟨o, ho⟩ := overlay_isSome cfg t.seen ((listed_iff _).mpr h)
  have happly : applyCerboOverlays cfg t = .done (t.show o) := by
    unfold applyCerboOverlays
    rw [ho]
  obtain ⟨hkey, hflag⟩ := (overlay_phase ho hi).mem_keys
  have hcurrent : gridFlag i ∉ unionKeys t.cerboClaimedKeys o.keys →
      (t.show o).currentState.getD (gridFlag i) = t.currentState.getD (gridFlag i) := by
    intro hno
    unfold Object.getD
    rw [show_currentState t o (ne_telemetry (phase_owned i hi).2.1), if_neg hno]
  rw [happly]
  show Misflagged r (unionKeys t.cerboClaimedKeys o.keys) (t.show o).currentState i ↔ _
  constructor
  · rintro ⟨hk, hf, htrue⟩
    rw [hcurrent hf] at htrue
    rw [mem_unionKeys, hkey] at hk
    rw [mem_unionKeys, hflag] at hf
    exact ⟨⟨hk.resolve_right fun h => hf (Or.inr h), fun h => hf (Or.inl h), htrue⟩,
      fun h => hf (Or.inr h)⟩
  · rintro ⟨⟨hk, hf, htrue⟩, hno⟩
    have hf' : gridFlag i ∉ unionKeys t.cerboClaimedKeys o.keys := by
      rw [mem_unionKeys, hflag]
      exact fun h => h.elim hf hno
    exact ⟨mem_unionKeys.mpr (Or.inl hk), hf', (hcurrent hf').symm ▸ htrue⟩

/-- An operation that claims `nulls` and then shows the devices `m`. -/
def PhasesCovered (r : FlagReading) (s : MqttState) (nulls : List Str) (m : Devices) : Prop :=
  ∀ i ∈ phases, Misflagged r (unionKeys s.cerboClaimedKeys nulls) s.currentState i → PhaseRead m i

theorem noneMisflagged_apply_iff {cfg : Config} {t : MqttState}
    (h : t.cerboDevices.Ids Orderable) :
    NoneMisflagged r (applyCerboOverlays cfg t).state ↔
      ∀ i ∈ phases, Misflagged r t.cerboClaimedKeys t.currentState i →
        PhaseRead t.cerboDevices i := by
  unfold NoneMisflagged
  constructor
  · intro hall i hi hmis
    by_contra hno
    exact hall i hi ((misflagged_apply h hi).mpr ⟨hmis, hno⟩)
  · intro hall i hi hmis
    obtain ⟨hbefore, hno⟩ := (misflagged_apply h hi).mp hmis
    exact hno (hall i hi hbefore)

/-- Overlays misflag nothing by themselves. -/
theorem NoneMisflagged.apply {t : MqttState} (h : NoneMisflagged r t) (cfg : Config) :
    NoneMisflagged r (applyCerboOverlays cfg t).state := by
  by_cases hids : t.cerboDevices.Ids Orderable
  · exact (noneMisflagged_apply_iff hids).mpr fun i hi hmis => absurd hmis (h i hi)
  · have hnone : (applyCerboOverlays cfg t).result.isSome ≠ true :=
      fun hsome => hids ((apply_isSome_iff cfg t).mp hsome)
    unfold applyCerboOverlays at hnone ⊢
    split
    · next o ho =>
      rw [ho] at hnone
      exact absurd rfl hnone
    · exact h

/-- A phase whose flag is not claimed has no reading. -/
theorem not_read {cfg : Config} {s : MqttState} (h : Displayed cfg s) {i : Str} (hi : i ∈ phases)
    (hflag : gridFlag i ∉ s.cerboClaimedKeys) : ¬ PhaseRead s.cerboDevices i := by
  obtain ⟨seen, o, -, ho, hkeys, -⟩ := h.shows
  exact fun hread => hflag (hkeys _ ((overlay_phase ho hi).mem_keys.2.mpr hread))

/-- Showing a state again claims nothing of a phase. -/
theorem mem_claims_apply {cfg : Config} {s t : MqttState} (h : Displayed cfg s)
    (hd : t.cerboDevices = s.cerboDevices) (hc : t.cerboClaimedKeys = s.cerboClaimedKeys)
    {i : Str} (hi : i ∈ phases) {k : Str} (hk : k = gridKey i ∨ k = gridFlag i) :
    k ∈ (applyCerboOverlays cfg t).state.cerboClaimedKeys ↔ k ∈ s.cerboClaimedKeys := by
  obtain ⟨seen, o, -, ho, hkeys, -⟩ := h.shows
  obtain ⟨o', ho'⟩ := overlay_isSome cfg t.seen (hd ▸ h.listed)
  have happly : applyCerboOverlays cfg t = .done (t.show o') := by
    unfold applyCerboOverlays
    rw [ho']
  have hsame : k ∈ o'.keys → k ∈ o.keys := by
    intro hmem
    rw [hd] at ho'
    have hnew := (overlay_phase ho' hi).mem_keys
    have hold := (overlay_phase ho hi).mem_keys
    rcases hk with rfl | rfl
    · exact hold.1.mpr (hnew.1.mp hmem)
    · exact hold.2.mpr (hnew.2.mp hmem)
  rw [happly]
  show k ∈ unionKeys t.cerboClaimedKeys o'.keys ↔ _
  rw [mem_unionKeys, hc]
  exact ⟨fun h => h.elim id fun hmem => hkeys k (hsame hmem), Or.inl⟩

/-! ## Native operations -/

theorem noneMisflagged_refresh_iff {cfg : Config} (clock : Clock) {t : MqttState}
    (h : t.cerboDevices.Ids Orderable) :
    NoneMisflagged r (refreshNativeMqttState cfg clock t).state ↔
      ∀ i ∈ phases, Misflagged r t.cerboClaimedKeys t.currentState i →
        PhaseRead t.cerboDevices i := by
  have hnoted : NoneMisflagged r (applyCerboOverlays cfg
      (noteNativeObservation (Str.lit "mqtt") clock t)).state ↔ _ := noneMisflagged_apply_iff h
  have hsome := (apply_isSome_iff cfg (noteNativeObservation (Str.lit "mqtt") clock t)).mpr h
  obtain ⟨u, hu⟩ := Option.isSome_iff_exists.mp hsome
  refine Iff.trans ?_ hnoted
  unfold refreshNativeMqttState Call.andThen
  rw [hu]
  dsimp only
  split
  · exact Iff.rfl
  · exact Iff.rfl

/-- What the payload of a native message does, whether it is stored, removes or is ignored. -/
theorem applyNativePayload_cases (cfg : Config) (clock : Clock) (kind : Kind) (inst path : Str)
    (payload : Payload) (retained : Bool) (t : MqttState) :
    (leafValue? kind path payload = none ∧
      ∀ s', applyNativePayload cfg clock kind inst path payload retained t = some s' →
        s'.cerboClaimedKeys = t.cerboClaimedKeys ∧ s'.currentState = t.currentState) ∨
    ∃ value s', leafValue? kind path payload = some value ∧
      applyNativePayload cfg clock kind inst path payload retained t = some s' ∧
      s'.currentState = t.currentState ∧
      s'.cerboDevices = t.cerboDevices.store kind inst path value ∧
      s'.cerboClaimedKeys = unionKeys t.cerboClaimedKeys
        (Leaf.claims cfg ⟨kind, inst, path, value⟩) := by
  unfold applyNativePayload
  split
  · refine Or.inl ⟨rfl, fun s' hs' => ?_⟩
    obtain ⟨m, -, rfl⟩ := Option.map_eq_some_iff.mp hs'
    exact ⟨rfl, rfl⟩
  · unfold storeCerboLeaf
    cases leafValue? kind path payload with
    | none => exact Or.inl ⟨rfl, fun s' hs' => nomatch hs'⟩
    | some value => exact Or.inr ⟨value, _, rfl, rfl, rfl, rfl, rfl⟩

/-- The stored leaf of a native message leaves no phase misflagged. -/
def LeafCovered (r : FlagReading) (cfg : Config) (s : MqttState) (topic : Str)
    (payload : Payload) : Prop :=
  ∀ kind inst path value, addressed s topic payload = some (kind, inst, path) →
    leafValue? kind path payload = some value →
      PhasesCovered r s (Leaf.claims cfg ⟨kind, inst, path, value⟩)
        (s.cerboDevices.store kind inst path value)

theorem noneMisflagged_native_iff {cfg : Config} (clock : Clock) (topic : Str) (payload : Payload)
    (retained : Bool) {s : MqttState} (h : NoneMisflagged r s)
    (hids : (nativeMessage cfg clock topic payload retained s).state.cerboDevices.Ids Orderable) :
    NoneMisflagged r (nativeMessage cfg clock topic payload retained s).state ↔
      LeafCovered r cfg s topic payload := by
  obtain ⟨portal, hportal⟩ := nativeTopicSelected_fst topic payload s
  revert hids
  unfold LeafCovered addressed nativeMessage handleCerboDevice
  dsimp only
  rw [hportal]
  split
  · dsimp only
    cases htopic : nativeTopic portal topic with
    | none =>
      intro _
      exact iff_of_true h fun _ _ _ _ h => nomatch h
    | some addr =>
      obtain ⟨kind, inst, path⟩ := addr
      dsimp only
      have hsup : ∃ observations, supersedeMode kind inst path { s with portalId := portal } =
          { s with portalId := portal, waterModeObservations := observations } := by
        unfold supersedeMode
        split
        · exact ⟨_, rfl⟩
        · exact ⟨_, rfl⟩
      obtain ⟨observations, hsup⟩ := hsup
      rw [hsup]
      rcases applyNativePayload_cases cfg clock kind inst path payload retained
        { s with portalId := portal, waterModeObservations := observations } with
        ⟨hnone, hsame⟩ | ⟨value, s', hvalue, happly, hcurrent, hdevices, hclaims⟩
      · intro hids
        refine iff_of_true ?_ ?_
        · revert hids
          split
          · exact fun _ => h
          · next s' happly =>
            intro hids
            obtain ⟨hc, hcur⟩ := hsame s' happly
            have hs' : NoneMisflagged r s' := h.congr hc fun i _ => by rw [hcur]
            rw [cerboDevices_of_native (native_refresh cfg clock s')] at hids
            exact (noneMisflagged_refresh_iff clock hids).mpr fun i hi hmis =>
              absurd hmis (hs' i hi)
        · intro kind' inst' path' value haddr hv
          obtain ⟨rfl, rfl, rfl⟩ : kind = kind' ∧ inst = inst' ∧ path = path' := by
            simpa using haddr
          rw [hnone] at hv
          cases hv
      · rw [happly]
        dsimp only
        intro hids
        rw [cerboDevices_of_native (native_refresh cfg clock s')] at hids
        rw [noneMisflagged_refresh_iff clock hids, hcurrent, hdevices, hclaims]
        constructor
        · intro hall kind' inst' path' value' haddr hv
          obtain ⟨rfl, rfl, rfl⟩ : kind = kind' ∧ inst = inst' ∧ path = path' := by
            simpa using haddr
          rw [hvalue] at hv
          obtain rfl := Option.some.inj hv
          exact hall
        · exact fun hall => hall kind inst path value rfl hvalue
  · intro _
    exact iff_of_true h fun _ _ _ _ h => nomatch h

/-- The leaves of a snapshot leave no phase misflagged. -/
def SnapshotCovered (r : FlagReading) (cfg : Config) (s : MqttState) (snapshot : Object) : Prop :=
  PhasesCovered r s ((snapshotLeaves snapshot).flatMap (Leaf.claims cfg))
    ((snapshotLeaves snapshot).foldl storeLeaf Dict.empty)

theorem noneMisflagged_snapshot_iff {cfg : Config} (clock : Clock) (snapshot : Object)
    (s : MqttState) (h : ((snapshotLeaves snapshot).foldl storeLeaf Dict.empty).Ids Orderable) :
    NoneMisflagged r (replaceCerboSnapshot cfg clock snapshot s).state ↔
      SnapshotCovered r cfg s snapshot := by
  obtain ⟨pumps, hpumps⟩ := (listed_iff _).mpr h .pump
  unfold replaceCerboSnapshot
  simp only [hpumps]
  exact noneMisflagged_apply_iff h

/-! ## Controller operations -/

/-- A controller object flags no phase that is claimed without its flag. -/
def Honest (r : FlagReading) (s : MqttState) (incoming : Object) : Prop :=
  ∀ i ∈ phases, ¬ Misflagged r s.cerboClaimedKeys incoming i

theorem flag_ne_booleans : ∀ i ∈ phases, gridFlag i ≠ Str.lit "booleans" := by decide

theorem noneMisflagged_merge_iff {cfg : Config} (clock : Clock) (incoming : Object)
    (retained : Bool) {s : MqttState} (hd : Displayed cfg s) (h : NoneMisflagged r s) :
    NoneMisflagged r (mergeDaemonState cfg clock incoming retained s).state ↔
      Honest r s incoming := by
  unfold mergeDaemonState
  extract_lets s₁ s₂ s₃
  obtain ⟨hdevices₂, hclaims₂, hcurrent₂⟩ : s₂.cerboDevices = s.cerboDevices ∧
      s₂.cerboClaimedKeys = s.cerboClaimedKeys ∧ s₂.currentState = s.currentState := by
    unfold s₂
    split
    · exact ⟨rfl, rfl, rfl⟩
    · exact ⟨rfl, rfl, rfl⟩
  -- A flag that is not claimed is the one sent, or else the one shown before.
  have hmerged : ∀ i ∈ phases, Misflagged r s₃.cerboClaimedKeys s₃.currentState i ↔
      Misflagged r s.cerboClaimedKeys incoming i := by
    intro i hi
    show Misflagged r s₂.cerboClaimedKeys
      (mergeDaemonFields s₂.cerboClaimedKeys incoming s₂.currentState) i ↔ _
    rw [hclaims₂, hcurrent₂]
    refine and_congr_right fun hkey => and_congr_right fun hflag => ?_
    have hget := mergeDaemonFields_unclaimed s.cerboClaimedKeys incoming s.currentState
      (phase_owned i hi).2.2.1 (fun hboth => hflag hboth.2) (flag_ne_booleans i hi)
    unfold Object.getD
    rw [hget]
    cases hsent : incoming.get? (gridFlag i) with
    | some v => rfl
    | none =>
      refine iff_of_false (fun htrue => h i hi ⟨hkey, hflag, htrue⟩) ?_
      show ¬ r.holds .none = true
      simp
  have hkeeps := observe_keeps clock incoming retained s₃
  have hobserved : ∀ i ∈ phases,
      Misflagged r (observe clock incoming retained s₃).state.cerboClaimedKeys
        (observe clock incoming retained s₃).state.currentState i ↔
      Misflagged r s.cerboClaimedKeys incoming i := by
    intro i hi
    refine Iff.trans ?_ (hmerged i hi)
    unfold Misflagged Object.getD
    rw [hkeeps.claimed, hkeeps.current _ (phase_owned i hi).2.1]
  unfold Call.andThen
  cases (observe clock incoming retained s₃).result with
  | none => exact forall₂_congr fun i hi => not_congr (hobserved i hi)
  | some u =>
    have hstore : (observe clock incoming retained s₃).state.cerboDevices = s.cerboDevices :=
      hkeeps.devices.trans hdevices₂
    refine (noneMisflagged_apply_iff (hstore ▸ (listed_iff _).mp hd.listed)).trans ?_
    refine forall₂_congr fun i hi => ?_
    rw [hobserved i hi, hstore]
    constructor
    · exact fun hread hmis => not_read hd hi hmis.2.1 (hread hmis)
    · exact fun hno hmis => absurd hmis hno

theorem noneMisflagged_clearDaemon {s : MqttState} (h : NoneMisflagged r s) (cfg : Config) :
    NoneMisflagged r (clearDaemonState cfg s).state := by
  have hwithout : NoneMisflagged r s.withoutDaemon := by
    intro i hi hmis
    obtain ⟨hkey, hflag, htrue⟩ := hmis
    have hne : ∀ i ∈ phases, gridFlag i ≠ Str.lit "setpoint_override" ∧
        gridFlag i ≠ Str.lit "grid_backup_observed_at" := by decide
    have hset : r.holds (Object.getD (s.currentState.setAll s.daemonKeys fun _ => Value.none)
        (gridFlag i)) = true := by
      unfold MqttState.withoutDaemon at htrue
      dsimp only at htrue
      split at htrue
      · exact htrue
      · unfold Object.getD at htrue ⊢
        rwa [Dict.get?_set_ne _ _ (hne i hi).2, Dict.get?_set_ne _ _ (hne i hi).1] at htrue
    unfold Object.getD at hset
    rw [Dict.get?_setAll] at hset
    split at hset
    · exact absurd hset (by simp)
    · exact h i hi ⟨hkey, hflag, hset⟩
  exact hwithout.apply cfg

theorem noneMisflagged_controllerAvailable {s : MqttState} (h : NoneMisflagged r s) (cfg : Config)
    (clock : Clock) : NoneMisflagged r (controllerAvailable cfg clock s).state := by
  unfold controllerAvailable
  split
  · exact h
  · split
    · have hclear := noneMisflagged_clearDaemon h cfg
      exact Call.andThen_state hclear fun _ => hclear
    · exact h

/-- A polled controller object is merged after a clear, which keeps the claims of the phases. -/
theorem noneMisflagged_snapshotController_iff {cfg : Config} (clock : Clock) (snapshot : Object)
    {s : MqttState} (hd : Displayed cfg s) (h : NoneMisflagged r s) :
    NoneMisflagged r (applySnapshotController cfg clock snapshot s).state ↔
      ∀ es, snapshot.get? (Str.lit "inverter") = some (.dict es) → Honest r s (Dict.ofList es) := by
  unfold applySnapshotController
  extract_lets s₁ controller
  have hd₁ : Displayed cfg s₁ := hd.agree rfl rfl hd.sound.daemonKeys fun _ _ => rfl
  have h₁ : NoneMisflagged r s₁ := h
  have hcontroller : NoneMisflagged r controller.state ↔
      ∀ es, snapshot.get? (Str.lit "inverter") = some (.dict es) → Honest r s (Dict.ofList es) := by
    unfold controller
    split
    · next es hes =>
      obtain ⟨hresult, hcleared⟩ := displayed_clearDaemon hd₁
      have hmerge := noneMisflagged_merge_iff clock (Dict.ofList es) false hcleared
        (noneMisflagged_clearDaemon h₁ cfg)
      unfold Call.andThen
      rw [hresult]
      refine hmerge.trans ?_
      have hhonest : Honest r (clearDaemonState cfg s₁).state (Dict.ofList es) ↔
          Honest r s (Dict.ofList es) := by
        refine forall₂_congr fun i hi => not_congr ?_
        have hclaims := fun k => mem_claims_apply (t := s₁.withoutDaemon) hd rfl rfl hi (k := k)
        unfold Misflagged clearDaemonState
        rw [hclaims _ (Or.inl rfl), hclaims _ (Or.inr rfl)]
      rw [hhonest]
      constructor
      · intro hall es' hes'
        rw [hes] at hes'
        injection Option.some.inj hes' with hes'
        exact hes' ▸ hall
      · exact fun hall => hall es hes
    · next hes =>
      refine iff_of_true (noneMisflagged_clearDaemon h₁ cfg) ?_
      intro es hes'
      rw [hes] at hes'
      cases hes'
    · next hno _ =>
      exact iff_of_true h₁ fun es hes => absurd hes (hno es)
  refine Iff.trans ?_ hcontroller
  have hne : ∀ i ∈ phases, gridFlag i ≠ Str.lit "setpoint_override" := by decide
  unfold Call.andThen
  cases controller.result with
  | none => exact Iff.rfl
  | some u =>
    dsimp only
    split
    · exact Iff.rfl
    · refine forall₂_congr fun i hi => not_congr ?_
      unfold Misflagged Object.getD
      show _ ∧ _ ∧ r.holds (((controller.state.currentState.set _ _).get? _).getD _) = _ ↔ _
      rw [Dict.get?_set_ne _ _ (hne i hi)]
      exact Iff.rfl

/-! ## Runs -/

/-- What an operation must meet to leave no claimed phase misflagged. -/
def Prepared (r : FlagReading) (cfg : Config) (x : MqttState × Event) : Prop :=
  match x.2.op with
  | .native topic payload _ => LeafCovered r cfg x.1 topic payload
  | .snapshot snapshot => SnapshotCovered r cfg x.1 snapshot
  | .controller incoming _ => Honest r x.1 incoming
  | .gateway snapshot =>
    -- A controller object that raises ends the poll before its native leaves.
    if (applySnapshotController cfg x.2.clock snapshot x.1).result.isSome then
      SnapshotCovered r cfg (applySnapshotController cfg x.2.clock snapshot x.1).state snapshot
    else
      ∀ es, snapshot.get? (Str.lit "inverter") = some (.dict es) → Honest r x.1 (Dict.ofList es)
  | _ => True

theorem noneMisflagged_step_iff {cfg : Config} {s : MqttState} (hd : Displayed cfg s)
    (h : NoneMisflagged r s) (e : Event) (hids : (step cfg s e).cerboDevices.Ids Orderable) :
    NoneMisflagged r (step cfg s e) ↔ Prepared r cfg (s, e) := by
  obtain ⟨clock, op⟩ := e
  have hkeep : ∀ {t : MqttState}, KeepsNative s t → NoneMisflagged r t := by
    intro t ht
    refine h.congr ht.claimed fun i hi => ?_
    unfold Object.getD
    rw [ht.current _ (phase_owned i hi).2.1]
  cases op with
  | native topic payload retained =>
    exact noneMisflagged_native_iff clock topic payload retained h hids
  | snapshot snapshot =>
    have hids' : (replaceCerboSnapshot cfg clock snapshot s).state.cerboDevices.Ids Orderable :=
      hids
    rw [cerboDevices_snapshot] at hids'
    exact noneMisflagged_snapshot_iff clock snapshot s hids'
  | clearNative =>
    refine iff_of_true ?_ trivial
    show NoneMisflagged r (clearCerboState cfg s).state
    unfold clearCerboState
    apply NoneMisflagged.apply
    exact h
  | controller incoming retained => exact noneMisflagged_merge_iff clock incoming retained hd h
  | controllerGone => exact iff_of_true (noneMisflagged_clearDaemon h cfg) trivial
  | override value retained =>
    exact iff_of_true (hkeep (observe_keeps clock _ retained s)) trivial
  | gateway snapshot =>
    have hcontroller := noneMisflagged_snapshotController_iff clock snapshot hd h
    unfold Prepared
    dsimp only
    split
    · next hsome =>
      obtain ⟨u, hu⟩ := Option.isSome_iff_exists.mp hsome
      have hstep : step cfg s ⟨clock, .gateway snapshot⟩ = (replaceCerboSnapshot cfg clock snapshot
          (applySnapshotController cfg clock snapshot s).state).state := by
        show (applySnapshot cfg clock snapshot s).state = _
        unfold applySnapshot Call.andThen
        rw [hu]
      rw [hstep, cerboDevices_snapshot] at hids
      rw [hstep]
      exact noneMisflagged_snapshot_iff clock snapshot _ hids
    · next hnone =>
      have hstep : step cfg s ⟨clock, .gateway snapshot⟩ =
          (applySnapshotController cfg clock snapshot s).state := by
        rw [Option.not_isSome_iff_eq_none] at hnone
        show (applySnapshot cfg clock snapshot s).state = _
        unfold applySnapshot Call.andThen
        rw [hnone]
      rw [hstep]
      exact hcontroller
  | readController => exact iff_of_true (noneMisflagged_controllerAvailable h cfg clock) trivial
  | portal portal =>
    refine iff_of_true ?_ trivial
    show NoneMisflagged r (discoverPortal portal s)
    unfold discoverPortal
    split
    · exact h
    · exact h

/-- A run whose ids can be ordered shows its store after every operation. -/
theorem displayed_run {cfg : Config} (es : List Event) {s : MqttState} (hd : Displayed cfg s)
    (hids : ∀ x ∈ trace (step cfg) s es, ∀ inst ∈ acceptedIds cfg x, Orderable inst) :
    ∀ x ∈ trace (step cfg) s es, Displayed cfg (step cfg x.1 x.2) := by
  induction es generalizing s with
  | nil => simp [trace]
  | cons e es ih =>
    have hnext := (refreshed_of_orderable ((listed_iff _).mp hd.listed) e
      (hids (s, e) List.mem_cons_self)).2
    have hshown := displayed_step hd e ((listed_iff _).mpr hnext)
    intro x hx
    rcases List.mem_cons.mp hx with rfl | hx
    · exact hshown
    · exact ih hshown (fun y hy => hids y (List.mem_cons_of_mem _ hy)) x hx

/-- In such a run no phase is misflagged exactly when every operation is prepared. -/
theorem noneMisflagged_run_iff {cfg : Config} (es : List Event) {s : MqttState}
    (hd : Displayed cfg s) (h : NoneMisflagged r s)
    (hids : ∀ x ∈ trace (step cfg) s es, ∀ inst ∈ acceptedIds cfg x, Orderable inst) :
    (∀ x ∈ trace (step cfg) s es, NoneMisflagged r (step cfg x.1 x.2)) ↔
      ∀ x ∈ trace (step cfg) s es, Prepared r cfg x := by
  induction es generalizing s with
  | nil => simp [trace]
  | cons e es ih =>
    have hshown := displayed_run (e :: es) hd hids (s, e) List.mem_cons_self
    have hiff := noneMisflagged_step_iff hd h e ((listed_iff _).mp hshown.listed)
    have hrest : ∀ x ∈ trace (step cfg) (step cfg s e) es,
        ∀ inst ∈ acceptedIds cfg x, Orderable inst := fun x hx => hids x (List.mem_cons_of_mem _ hx)
    constructor
    · intro hall x hx
      have hnow := hall (s, e) List.mem_cons_self
      rcases List.mem_cons.mp hx with rfl | hx
      · exact hiff.mp hnow
      · exact (ih hshown hnow hrest).mp (fun y hy => hall y (List.mem_cons_of_mem _ hy)) x hx
    · intro hall x hx
      have hnow := hiff.mpr (hall (s, e) List.mem_cons_self)
      rcases List.mem_cons.mp hx with rfl | hx
      · exact hnow
      · exact (ih hshown hnow hrest).mpr (fun y hy => hall y (List.mem_cons_of_mem _ hy)) x hx

/-- Every read of the state agrees on the phases whose power is claimed. -/
def ReadsAgree (r : FlagReading) (cfg : Config) (s : MqttState) : Prop :=
  ∀ clock state, (getState cfg clock s).result = some state →
    PhasesAgree r s.cerboClaimedKeys state

theorem phasesAgree_shownState_iff {cfg : Config} {s : MqttState} (hd : Displayed cfg s) :
    PhasesAgree r s.cerboClaimedKeys (shownState s) ↔ NoneMisflagged r s := by
  have hphase : ∀ i ∈ phases, gridKey i ∈ s.cerboClaimedKeys →
      ((r.holds ((shownState s).getD (gridFlag i)) = true ↔
        (shownState s).getD (gridKey i) ≠ .none) ↔ ¬ Misflagged r s.cerboClaimedKeys s.currentState i) := by
    intro i hi hclaimed
    obtain ⟨-, -, -, hkey, hflag⟩ := phase_owned i hi
    rw [shownState_getD s hkey, shownState_getD s hflag]
    exact phase_agrees_iff hd hi hclaimed
  constructor
  · exact fun hall i hi hmis => (hphase i hi hmis.1).mp (hall i hi hmis.1) hmis
  · exact fun hno i hi hclaimed => (hphase i hi hclaimed).mpr (hno i hi)

theorem readsAgree_iff {cfg : Config} {s : MqttState} (hd : Displayed cfg s) :
    ReadsAgree r cfg s ↔ NoneMisflagged r s := by
  constructor
  · intro hall
    -- A read at the controller's own receipt time finds it live.
    have hlive : ¬ Expired ⟨0, s.daemonReceivedAt.getD 0⟩ s := by
      rintro ⟨t, ht, hlate⟩
      rw [Option.mem_def.mp ht, Option.getD_some, sub_self] at hlate
      exact absurd hlate (by decide)
    exact (phasesAgree_shownState_iff hd).mp (hall _ _ (getState_live cfg hlive))
  · intro h clock state hread
    obtain ⟨available, -, rfl⟩ := getState_eq_some hread
    have hgrow := claims_step cfg s ⟨clock, .readController⟩
    have hagree := (phasesAgree_shownState_iff (displayed_controllerAvailable hd clock)).mpr
      (noneMisflagged_controllerAvailable h cfg clock)
    exact fun i hi hclaimed => hagree i hi (hgrow.mono _ hclaimed)

/-- **The grid phases.** In a run whose instance ids can be ordered, every read after every
    operation flags a claimed phase exactly when its power is known, if and only if every
    operation is prepared. Both read the flag in the same way, whichever that is. -/
theorem phases_agree_iff (r : FlagReading) (cfg : Config) (portal : Str) (es : List Event)
    (hids : ∀ x ∈ trace (step cfg) (MqttState.init portal) es,
      ∀ inst ∈ acceptedIds cfg x, Orderable inst) :
    (∀ x ∈ trace (step cfg) (MqttState.init portal) es, ReadsAgree r cfg (step cfg x.1 x.2)) ↔
      ∀ x ∈ trace (step cfg) (MqttState.init portal) es, Prepared r cfg x := by
  have hd := Displayed.init cfg portal
  have hnone : NoneMisflagged r (MqttState.init portal) := fun i _ hmis =>
    absurd hmis.1 List.not_mem_nil
  have hshown := displayed_run es hd hids
  rw [← noneMisflagged_run_iff es hd hnone hids]
  constructor
  · exact fun hall x hx => (readsAgree_iff (hshown x hx)).mp (hall x hx)
  · exact fun hall x hx => (readsAgree_iff (hshown x hx)).mpr (hall x hx)

end Reading

/-- A native power of the first phase, then a controller that calls the phase unavailable. -/
def measuredPhase : List Event :=
  [⟨⟨0, 0⟩, .native (Str.lit "N/site/system/0/Ac/Grid/L1/Power")
      (.json (.dict [(Str.lit "value", .int 100)])) false⟩,
   ⟨⟨1, 1⟩, .controller ((Dict.empty.set (Str.lit "g1") (.int 5)).set
      (Str.lit "grid_l1_available") (.bool false)) false⟩]

theorem phases_agree_measuredPhase :
    ReadsAgree .truth .default
      (replay (step .default) (MqttState.init (Str.lit "site")) measuredPhase) := by
  have hall : ∀ x ∈ trace (step .default) (MqttState.init (Str.lit "site")) measuredPhase,
      ReadsAgree .truth .default (step .default x.1 x.2) := by
    refine (phases_agree_iff .truth .default (Str.lit "site") measuredPhase ?_).mpr ?_
    · intro x hx
      rcases List.mem_cons.mp hx with rfl | hx
      · have hid : acceptedIds .default (MqttState.init (Str.lit "site"), measuredPhase[0]) =
            [Str.lit "0"] := by decide +kernel
        intro inst hinst
        have hinst' : inst ∈ [Str.lit "0"] := hid ▸ hinst
        exact orderable_zero inst hinst'
      · rw [List.mem_singleton.mp hx]
        exact fun inst hinst => absurd hinst List.not_mem_nil
    · intro x hx
      rcases List.mem_cons.mp hx with rfl | hx
      · exact fun kind inst path value _ _ i _ hmis => nomatch hmis.2.2
      · rw [List.mem_singleton.mp hx]
        have hclaimed : ∀ i ∈ phases, gridKey i ∈ (step .default (MqttState.init (Str.lit "site"))
            measuredPhase[0]).cerboClaimedKeys → gridFlag i ∈ (step .default
              (MqttState.init (Str.lit "site")) measuredPhase[0]).cerboClaimedKeys := by
          decide +kernel
        exact fun i hi hmis => hmis.2.1 (hclaimed i hi hmis.1)
  exact replay_last _ (List.cons_ne_nil _ _) hall

/-- An unknown power of the first phase, then a controller that calls the phase available. -/
def unknownPhase : List Event :=
  [⟨⟨0, 0⟩, .native (Str.lit "N/site/vebus/276/Ac/ActiveIn/L1/P")
      (.json (.dict [(Str.lit "value", .none)])) false⟩,
   ⟨⟨1, 1⟩, .controller (Dict.empty.set (Str.lit "grid_l1_available") (.bool true)) false⟩]

/-- The phase is shown as available without a power. -/
theorem unknown_phase_shown_available : ¬ ∀ (cfg : Config) (portal : Str) (es : List Event),
    ReadsAgree .equal cfg (replay (step cfg) (MqttState.init portal) es) := by
  intro h
  have hread : ((getState .default ⟨2, 2⟩ (replay (step .default) (MqttState.init (Str.lit "site"))
      unknownPhase)).result.map fun state =>
        ((state.getD (Str.lit "grid_l1_available")).isTrue, (state.getD (Str.lit "g1")).isNone)) =
          some (true, true) := by decide +kernel
  obtain ⟨state, hstate, hshown⟩ := Option.map_eq_some_iff.mp hread
  obtain ⟨hflag, hpower⟩ := Prod.mk.inj hshown
  have hagree := h .default (Str.lit "site") unknownPhase _ state hstate (Str.lit "1")
    (by decide) (by decide +kernel)
  have htrue : state.getD (gridFlag (Str.lit "1")) = .bool true := (Value.isTrue_eq_true _).mp hflag
  refine hagree.mp ?_ ((Value.isNone_eq_true _).mp hpower)
  rw [htrue]
  exact FlagReading.equal.ofBool true

end InverterDashboard.Server
