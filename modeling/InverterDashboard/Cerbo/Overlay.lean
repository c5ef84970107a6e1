import Mathlib.Tactic.FinCases
import InverterDashboard.Cerbo.Projection

/-
  The overlay depends on the listings only (`overlay_shown`): what was stored or claimed before
  decides whether an empty collection is written out, and an empty collection shows the same as
  an absent one. With canonical ids it never raises (`overlay_isSome`).

  The frame lemmas (`applyAc_writes` and its siblings) say which keys a stage assigns.
-/

namespace InverterDashboard.Cerbo

open Python

/-! ## What a stage writes -/

/-- `out'` differs from `out` in keys of `ks` only. -/
def Writes (ks : List Str) (out out' : Object) : Prop :=
  ∀ k, k ∉ ks → out'.get? k = out.get? k

namespace Writes

theorem refl (ks : List Str) (out : Object) : Writes ks out out := fun _ _ => rfl

theorem trans {ks : List Str} {a b c : Object} (hab : Writes ks a b) (hbc : Writes ks b c) :
    Writes ks a c := fun k hk => (hbc k hk).trans (hab k hk)

theorem set {ks : List Str} {a b : Object} (h : Writes ks a b) {k : Str} (hk : k ∈ ks)
    (v : Value) : Writes ks a (b.set k v) := by
  intro x hx
  have hne : x ≠ k := fun e => hx (e ▸ hk)
  rw [Dict.get?_set_ne b v hne, h x hx]

theorem put {ks : List Str} {a b : Object} (h : Writes ks a b) {k : Str} (hk : k ∈ ks)
    (q : Option ℚ) : Writes ks a (putNumber b k q) := by
  unfold putNumber
  split
  · exact h.set hk _
  · exact h

theorem foldl {α : Type} {ks : List Str} {a b : Object} (h : Writes ks a b) {l : List α}
    {f : Object → α → Object} (hf : ∀ x ∈ l, ∀ out, Writes ks out (f out x)) :
    Writes ks a (l.foldl f b) := by
  induction l generalizing b with
  | nil => exact h
  | cons x l ih =>
    exact ih (h.trans (hf x List.mem_cons_self b)) fun y hy => hf y (List.mem_cons_of_mem _ hy)

end Writes

/-- The keys `_apply_ac` assigns. -/
def acKeys : List Str :=
  (phases.flatMap fun i => [phasePath "grid_l" i "_available", Str.lit "g" ++ i,
    Str.lit "t" ++ i]) ++ keyList ["gt", "grid_available", "tt"]

theorem applyAcPhase_writes (out : Object) (system vebus grid : Leaves) (useInput : Bool)
    {i : Str} (hi : i ∈ phases) :
    Writes acKeys out (applyAcPhase out system vebus grid useInput i) := by
  have hkeys : ∀ k ∈ [phasePath "grid_l" i "_available", Str.lit "g" ++ i, Str.lit "t" ++ i],
      k ∈ acKeys := by
    intro k hk
    exact List.mem_append_left _ (List.mem_flatMap.mpr ⟨i, hi, hk⟩)
  unfold applyAcPhase
  extract_lets path value out₁ consumption
  have h₁ : Writes acKeys out out₁ := by
    unfold out₁
    split
    · exact Writes.set (Writes.set (Writes.refl _ _) (hkeys _ (by simp)) _) (hkeys _ (by simp)) _
    · exact Writes.refl _ _
  exact h₁.put (hkeys _ (by simp)) _

theorem applyAc_writes (out : Object) (system vebus : Leaves) (meters : Listing) :
    Writes acKeys out (applyAc out system vebus meters) := by
  have hphases := fun useInput => (Writes.refl acKeys out).foldl fun i hi out =>
    applyAcPhase_writes out system vebus (first meters) useInput hi
  unfold applyAc
  refine Writes.put ?_ (by decide) _
  split
  · exact Writes.set (Writes.set (hphases _) (by decide) _) (by decide) _
  · split
    · exact Writes.set (hphases _) (by decide) _
    · split
      · exact Writes.set (hphases _) (by decide) _
      · exact hphases _

/-- The keys `_apply_batteries` assigns. -/
def batteryKeys : List Str := keyList
  ["batteries", "battery_soc", "battery_voltage", "battery_current", "battery_power", "bv", "bc",
   "bp"]

theorem applyBankShunt_writes (out : Object) (system : Leaves) (batteries : List Object) :
    Writes batteryKeys out (applyBankShunt out system batteries) := by
  unfold applyBankShunt
  extract_lets shunts shunt entry out₁ out₂
  have h₁ : Writes batteryKeys out out₁ := by
    unfold out₁
    split
    · exact Writes.set (Writes.set (Writes.refl _ _) (by decide) _) (by decide) _
    · exact Writes.refl _ _
  have h₂ : Writes batteryKeys out out₂ := by
    unfold out₂
    split
    · exact Writes.set h₁ (by decide) _
    · exact h₁
  split
  · exact Writes.set h₂ (by decide) _
  · exact h₂

theorem applyBatteries_writes (out : Object) (system : Leaves) (devices : Listing) :
    Writes batteryKeys out (applyBatteries out system devices) := by
  unfold applyBatteries
  extract_lets batteries out₁ selected out₂ out₃
  have h₁ : Writes batteryKeys out out₁ := by
    unfold out₁
    split
    · exact Writes.refl _ _
    · exact Writes.set (Writes.refl _ _) (by decide) _
  have h₂ : Writes batteryKeys out out₂ := by
    refine h₁.foldl ?_
    intro p hp b
    refine Writes.put (Writes.refl _ _) ?_ _
    fin_cases hp <;> decide
  have h₃ : Writes batteryKeys out out₃ := h₂.trans (applyBankShunt_writes _ _ _)
  refine h₃.foldl ?_
  intro p hp b
  split
  · refine Writes.set (Writes.refl _ _) ?_ _
    fin_cases hp <;> decide
  · exact Writes.refl _ _

/-- The keys `_apply_solar` assigns. -/
def solarKeys : List Str := keyList
  ["mppt_chargers", "mppt_data", "mppt_individual", "mppt_total", "pv_total", "pv_inverters",
   "pv_inverter_individual", "pv_inverter_powers", "pv_inverter_total", "solar_total"]

theorem applySolar_writes (out : Object) (system : Leaves) (chargers inverters : Listing) :
    Writes solarKeys out (applySolar out system chargers inverters) := by
  unfold applySolar
  extract_lets entries out₁ mppt out₂ out₃ inverterEntries out₄ out₅ published acPv out₆
  have h₁ : Writes solarKeys out out₁ := by
    unfold out₁
    split
    · exact Writes.refl _ _
    · exact Writes.set (Writes.set (Writes.refl _ _) (by decide) _) (by decide) _
  have h₂ : Writes solarKeys out out₂ := by
    unfold out₂
    split
    · exact h₁
    · exact Writes.set h₁ (by decide) _
  have h₃ : Writes solarKeys out out₃ := (h₂.put (by decide) _).put (by decide) _
  have h₄ : Writes solarKeys out out₄ := by
    unfold out₄
    split
    · exact h₃
    · exact Writes.set h₃ (by decide) _
  have h₅ : Writes solarKeys out out₅ := by
    unfold out₅
    split
    · exact h₄
    · exact Writes.set (Writes.set h₄ (by decide) _) (by decide) _
  exact (h₅.put (by decide) _).put (by decide) _

/-- The keys `_apply_loads` assigns. -/
def loadKeys : List Str := keyList ["loads", "load_names"]

theorem applyLoads_writes (out : Object) (devices : Listing) :
    Writes loadKeys out (applyLoads out devices) := by
  unfold applyLoads
  extract_lets loads
  split
  · exact Writes.refl _ _
  · exact Writes.set (Writes.set (Writes.refl _ _) (by decide) _) (by decide) _

/-! ## Shown values -/

/-- What a tile shows: an absent key, `None` and the collection default are one value. -/
def shown (key : Str) (value : Option Value) : Value :=
  match value with
  | none => collectionDefault key
  | some .none => collectionDefault key
  | some value => value

@[simp] theorem shown_none (key : Str) : shown key none = collectionDefault key := rfl

@[simp] theorem shown_default (key : Str) : shown key (some (collectionDefault key)) =
    collectionDefault key := by
  unfold shown
  split
  · rfl
  · rfl
  · next v h => exact (Option.some.inj h).symm

theorem shown_getD (key : Str) (value : Option Value) :
    shown key (some (value.getD (collectionDefault key))) = shown key value := by
  cases value with
  | none => exact shown_default key
  | some v => rfl

/-- Both objects show the same under every key. -/
def SameShown (a b : Object) : Prop := ∀ k, shown k (a.get? k) = shown k (b.get? k)

namespace SameShown

theorem refl (a : Object) : SameShown a a := fun _ => rfl

theorem set {a b : Object} (h : SameShown a b) (k : Str) (v : Value) :
    SameShown (a.set k v) (b.set k v) := by
  intro x
  rw [Dict.get?_set, Dict.get?_set]
  split
  · rfl
  · exact h x

theorem put {a b : Object} (h : SameShown a b) (k : Str) (q : Option ℚ) :
    SameShown (putNumber a k q) (putNumber b k q) := by
  unfold putNumber
  split
  · exact h.set k _
  · exact h

/-- Writing a default on one side only is not visible, when the key is not there yet. -/
theorem setDefault {a b : Object} (h : SameShown a b) {k : Str} {v : Value} (c d : Bool)
    (hv : c ≠ d → v = collectionDefault k) (ha : a.get? k = none) (hb : b.get? k = none) :
    SameShown (if c then a.set k v else a) (if d then b.set k v else b) := by
  intro x
  by_cases hx : x = k
  · subst hx
    cases c <;> cases d
    · exact h x
    · simp [ha, hv]
    · simp [hb, hv]
    · simp
  · have hone : ∀ (c : Bool) (o : Object), (if c then o.set k v else o).get? x = o.get? x := by
      intro c o
      cases c
      · rfl
      · exact Dict.get?_set_ne o v hx
    rw [hone, hone]
    exact h x

end SameShown

/-- A kind never stored lists no service. -/
def Seen.Covers (seen : Seen) (listing : Kind → Option Listing) : Prop :=
  ∀ kind, seen.known kind = false → listing kind = some []

theorem applyPump_shown {a b : Object} (h : SameShown a b) (leaves : Leaves) (key : Str)
    (modeKeys : List Str) :
    SameShown (applyPump a leaves key modeKeys) (applyPump b leaves key modeKeys) := by
  have hmodes : ∀ {a b : Object}, SameShown a b → ∀ v,
      SameShown (modeKeys.foldl (fun out k => out.set k v) a)
        (modeKeys.foldl (fun out k => out.set k v) b) := by
    intro a b hab v
    induction modeKeys generalizing a b with
    | nil => exact hab
    | cons k ks ih => exact ih (hab.set k v)
  unfold applyPump
  extract_lets leaf out₁ out₂
  have h₁ : SameShown out₁ out₂ := by
    unfold out₁ out₂
    split
    · exact h.set _ _
    · exact h
  split
  · split
    · exact hmodes h₁ _
    · exact h₁
  · exact h₁

theorem applyEss_shown {a b : Object} (h : SameShown a b) (settings : Listing) :
    SameShown (applyEss a settings) (applyEss b settings) := by
  unfold applyEss
  extract_lets leaves key batteryLife
  split
  · split
    · exact h.set _ _
    · split
      · exact h.set _ _
      · exact h.set _ _
  · exact h

theorem applyInverter_shown {a b : Object} (h : SameShown a b) (vebus : Leaves) :
    SameShown (applyInverter a vebus) (applyInverter b vebus) := by
  unfold applyInverter
  extract_lets out₁ out₂
  split
  · exact (h.put _ _).set _ _
  · exact h.put _ _

/-- The keys `_apply_ev` assigns from readings. -/
def evKeys : List Str := keyList
  ["car_soc", "ev_power", "car_charging_power", "ev_charging_power", "ev_charging_kw"]

theorem applyEvReadings_writes (cfg : Config) (out : Object) (vehicle charger : Leaves) :
    Writes evKeys out (applyEvReadings cfg out vehicle charger) := by
  unfold applyEvReadings
  extract_lets soc out₁ power out₂ chargerPower
  have h₁ : Writes evKeys out out₁ := by
    unfold out₁
    split
    · exact Writes.set (Writes.refl _ _) (by decide) _
    · exact Writes.refl _ _
  have h₂ : Writes evKeys out out₂ := by
    unfold out₂
    split
    · exact Writes.set (Writes.set h₁ (by decide) _) (by decide) _
    · exact h₁
  split
  · exact Writes.set (Writes.set h₂ (by decide) _) (by decide) _
  · exact h₂

/-- The services of a kind that was never stored show no vehicle. -/
theorem selectedEv_nil (configured : Option Int) : selectedEv [] configured = .absent := by
  cases configured <;> rfl

/-- Whether a vehicle shows as present does not depend on what was seen. -/
theorem putPresent_shown {a b : Object} (h : SameShown a b) {kind : Kind} {key : Str}
    {seen seen' : Seen} {devices : Listing} (configured : Option Int)
    (hdefault : collectionDefault key = .bool false)
    (hs : seen.known kind = false → devices = []) (hs' : seen'.known kind = false → devices = [])
    (ha : a.get? key = none) (hb : b.get? key = none) :
    SameShown
      (putPresent a (seen.known kind || key ∈ seen.claimed) key (selectedEv devices configured))
      (putPresent b (seen'.known kind || key ∈ seen'.claimed) key
        (selectedEv devices configured)) := by
  refine h.setDefault _ _ ?_ ha hb
  intro hne
  have hnil : devices = [] := by
    cases hk : seen.known kind with
    | false => exact hs hk
    | true =>
      cases hk' : seen'.known kind with
      | false => exact hs' hk'
      | true => simp [hk, hk'] at hne
  rw [hnil, selectedEv_nil, hdefault]
  rfl

theorem putPresent_get?_ne (out : Object) (seen : Bool) {key k : Str} (selected : Leaves)
    (h : k ≠ key) : (putPresent out seen key selected).get? k = out.get? k := by
  unfold putPresent
  split
  · exact Dict.get?_set_ne _ _ h
  · rfl

theorem putNumber_get?_ne (out : Object) {key k : Str} (q : Option ℚ) (h : k ≠ key) :
    (putNumber out key q).get? k = out.get? k := by
  unfold putNumber
  split
  · exact Dict.get?_set_ne _ _ h
  · rfl

/-- The keys whose presence depends on what was seen. -/
def presenceKeys : List Str := keyList ["ev_present", "evcharger_present", "discovered_water_ev"]

theorem applyEv_shown (cfg : Config) {out : Object} {seen seen' : Seen} {evs chargers : Listing}
    (hev : ∀ s ∈ [seen, seen'], s.known .ev = false → evs = [])
    (hcharger : ∀ s ∈ [seen, seen'], s.known .evcharger = false → chargers = [])
    (hout : ∀ k ∈ presenceKeys, out.get? k = none) :
    SameShown (applyEv cfg out seen evs chargers) (applyEv cfg out seen' evs chargers) := by
  unfold applyEv
  extract_lets vehicle charger readings evPresent chargerPresent out₁ out₂
  have hread : ∀ k ∈ presenceKeys, readings.get? k = none := by
    intro k hk
    rw [← hout k hk]
    refine applyEvReadings_writes cfg out vehicle charger k ?_
    fin_cases hk <;> decide
  have h₁ : SameShown out₁ out₂ :=
    putPresent_shown (SameShown.refl _) cfg.evInstance rfl (hev seen (by simp))
      (hev seen' (by simp)) (hread _ (by decide)) (hread _ (by decide))
  have hnone : ∀ b, (putPresent readings b evPresent vehicle).get? chargerPresent = none := by
    intro b
    rw [putPresent_get?_ne _ _ _ (by decide)]
    exact hread _ (by decide)
  exact putPresent_shown h₁ cfg.evchargerInstance rfl (hcharger seen (by simp))
    (hcharger seen' (by simp)) (hnone _) (hnone _)

theorem applyEv_discovered (cfg : Config) {out : Object} (seen : Seen) (evs chargers : Listing)
    (hout : ∀ k ∈ presenceKeys, out.get? k = none) :
    (applyEv cfg out seen evs chargers).get? (Str.lit "discovered_water_ev") = none := by
  unfold applyEv
  rw [putPresent_get?_ne _ _ _ (by decide), putPresent_get?_ne _ _ _ (by decide),
    applyEvReadings_writes _ _ _ _ _ (by decide)]
  exact hout _ (by decide)

theorem applyEvWater_shown (cfg : Config) {out o : Object} {seen seen' : Seen}
    {tanks pumps evs chargers : Listing}
    (hev : ∀ s ∈ [seen, seen'], s.known .ev = false → evs = [])
    (hcharger : ∀ s ∈ [seen, seen'], s.known .evcharger = false → chargers = [])
    (hout : ∀ k ∈ presenceKeys, out.get? k = none)
    (h : applyEvWater cfg out seen tanks pumps evs chargers = some o) :
    ∃ o', applyEvWater cfg out seen' tanks pumps evs chargers = some o' ∧ SameShown o o' := by
  unfold applyEvWater at h ⊢
  extract_lets tank water evOut key at h
  extract_lets evOut'
  have hwater : ∀ k ∈ presenceKeys, water.get? k = none := by
    intro k hk
    rw [← hout k hk]
    refine putNumber_get?_ne out _ ?_
    fin_cases hk <;> decide
  have hshown : SameShown evOut evOut' := applyEv_shown cfg hev hcharger hwater
  obtain ⟨inventory, hinv, hrest⟩ := Option.bind_eq_some_iff.mp h
  obtain rfl := Option.some.inj hrest
  rw [hinv]
  refine ⟨_, rfl, ?_⟩
  refine applyPump_shown (applyPump_shown ?_ _ _ _) _ _ _
  refine hshown.setDefault _ _ ?_ (applyEv_discovered cfg seen evs chargers hwater)
    (applyEv_discovered cfg seen' evs chargers hwater)
  intro hne
  cases inventory with
  | nil => rfl
  | cons v vs => simp at hne

/-- No stage before the water writes a presence key. -/
theorem overlay_base (system vebus : Leaves) (meters batteries solar inverters acloads : Listing) :
    ∀ k ∈ presenceKeys, (applyLoads (applySolar (applyBatteries
      (applyAc Dict.empty system vebus meters) system batteries) system solar inverters)
      acloads).get? k = none := by
  intro k hk
  rw [applyLoads_writes _ _ k (by fin_cases hk <;> decide),
    applySolar_writes _ _ _ _ k (by fin_cases hk <;> decide),
    applyBatteries_writes _ _ _ k (by fin_cases hk <;> decide),
    applyAc_writes _ _ _ _ k (by fin_cases hk <;> decide)]
  rfl

/-- **What was seen before is not visible.** Over the same listings, the overlay shows the same
    whatever kinds were stored earlier and whatever keys are claimed. -/
theorem overlay_shown (cfg : Config) {seen seen' : Seen} {listing : Kind → Option Listing}
    {o : Object} (hs : seen.Covers listing) (hs' : seen'.Covers listing)
    (h : overlay cfg seen listing = some o) :
    ∃ o', overlay cfg seen' listing = some o' ∧ SameShown o o' := by
  unfold overlay at h ⊢
  obtain ⟨systems, hsystems, h⟩ := Option.bind_eq_some_iff.mp h
  obtain ⟨vebuses, hvebuses, h⟩ := Option.bind_eq_some_iff.mp h
  obtain ⟨meters, hmeters, h⟩ := Option.bind_eq_some_iff.mp h
  obtain ⟨batteries, hbatteries, h⟩ := Option.bind_eq_some_iff.mp h
  obtain ⟨solar, hsolar, h⟩ := Option.bind_eq_some_iff.mp h
  obtain ⟨inverters, hinverters, h⟩ := Option.bind_eq_some_iff.mp h
  obtain ⟨acloads, hacloads, h⟩ := Option.bind_eq_some_iff.mp h
  obtain ⟨tanks, htanks, h⟩ := Option.bind_eq_some_iff.mp h
  obtain ⟨evs, hevs, h⟩ := Option.bind_eq_some_iff.mp h
  obtain ⟨evchargers, hevchargers, h⟩ := Option.bind_eq_some_iff.mp h
  obtain ⟨pumps, hpumps, h⟩ := Option.bind_eq_some_iff.mp h
  obtain ⟨out, hout, h⟩ := Option.bind_eq_some_iff.mp h
  obtain ⟨settings, hsettings, h⟩ := Option.bind_eq_some_iff.mp h
  obtain rfl := Option.some.inj h
  have hcover : ∀ {kind l}, listing kind = some l → ∀ s ∈ [seen, seen'],
      s.known kind = false → l = [] := by
    intro kind l hl s hmem hk
    have hnil : listing kind = some [] := by
      rcases List.mem_cons.mp hmem with rfl | hmem
      · exact hs kind hk
      · obtain rfl := List.mem_singleton.mp hmem
        exact hs' kind hk
    exact Option.some.inj (hl.symm.trans hnil)
  have hnone := overlay_base (zeroOrFirst systems) (first vebuses) meters batteries solar inverters
    acloads
  obtain ⟨out', hout', hshown⟩ :=
    applyEvWater_shown cfg (hcover hevs) (hcover hevchargers) hnone hout
  refine ⟨_, ?_, applyInverter_shown (applyEss_shown hshown settings) (first vebuses)⟩
  simp only [hsystems, hvebuses, hmeters, hbatteries, hsolar, hinverters, hacloads, htanks, hevs,
    hevchargers, hpumps, hsettings, hout', bind, Option.bind_some, pure]

/-- Without any service and any claim the overlay is empty. -/
theorem overlay_nil (cfg : Config) :
    overlay cfg ⟨fun _ => false, []⟩ (fun _ => some []) = some Dict.empty := by
  obtain ⟨tank, pump, valve, ev, evcharger⟩ := cfg
  cases ev <;> cases evcharger <;> rfl

/-! ## The overlay assigns owned keys -/

namespace Writes

theorem mono {ks ks' : List Str} {a b : Object} (h : Writes ks a b) (hk : ∀ k ∈ ks, k ∈ ks') :
    Writes ks' a b := fun k hk' => h k fun hm => hk' (hk k hm)

theorem present {ks : List Str} {a b : Object} (h : Writes ks a b) (seen : Bool) {key : Str}
    (hk : key ∈ ks) (selected : Leaves) : Writes ks a (putPresent b seen key selected) := by
  unfold putPresent
  split
  · exact h.set hk _
  · exact h

theorem pump {ks : List Str} {a b : Object} (h : Writes ks a b) (leaves : Leaves) {key : Str}
    {modeKeys : List Str} (hk : key ∈ ks) (hm : ∀ k ∈ modeKeys, k ∈ ks) :
    Writes ks a (applyPump b leaves key modeKeys) := by
  unfold applyPump
  extract_lets leaf out₁
  have h₁ : Writes ks a out₁ := by
    unfold out₁
    split
    · exact h.set hk _
    · exact h
  split
  · split
    · exact h₁.foldl fun k hk out => (Writes.refl ks out).set (hm k hk) _
    · exact h₁
  · exact h₁

end Writes

/-- The keys `_apply_ev_water` assigns. -/
def evWaterKeys : List Str := evKeys ++ keyList
  ["water_level", "ev_present", "evcharger_present", "discovered_water_ev", "water_valve",
   "water_valve_mode", "pump_switch", "pump_mode", "water_pump_mode"]

theorem applyEvWater_writes {cfg : Config} {out o : Object} {seen : Seen}
    {tanks pumps evs chargers : Listing}
    (h : applyEvWater cfg out seen tanks pumps evs chargers = some o) :
    Writes evWaterKeys out o := by
  unfold applyEvWater at h
  extract_lets tank water evOut key at h
  obtain ⟨inventory, -, hrest⟩ := Option.bind_eq_some_iff.mp h
  obtain rfl := Option.some.inj hrest
  have hwater : Writes evWaterKeys out water := (Writes.refl _ _).put (by decide) _
  have hread : Writes evWaterKeys out (applyEvReadings cfg water
      (selectedEv evs cfg.evInstance) (selectedEv chargers cfg.evchargerInstance)) :=
    hwater.trans ((applyEvReadings_writes cfg water _ _).mono (by decide))
  have hev : Writes evWaterKeys out evOut :=
    (hread.present _ (by decide) _).present _ (by decide) _
  refine Writes.pump (Writes.pump ?_ _ (by decide) (by decide)) _ (by decide) (by decide)
  split
  · exact hev.set (by decide) _
  · exact hev

/-- The key `_apply_ess` assigns. -/
def essKeys : List Str := keyList ["ess_mode"]

theorem applyEss_writes (out : Object) (settings : Listing) :
    Writes essKeys out (applyEss out settings) := by
  have hset := fun v => (Writes.refl essKeys out).set
    (k := Str.lit "ess_mode") (by decide) v
  unfold applyEss
  extract_lets leaves key batteryLife
  split
  · split
    · exact hset _
    · split
      · exact hset _
      · exact hset _
  · exact Writes.refl _ _

/-- The keys of the inverter. -/
def inverterKeys : List Str := keyList ["setpoint", "inverter_state"]

theorem applyInverter_writes (out : Object) (vebus : Leaves) :
    Writes inverterKeys out (applyInverter out vebus) := by
  have hput := fun q => (Writes.refl inverterKeys out).put
    (k := Str.lit "setpoint") (by decide) q
  unfold applyInverter
  extract_lets out₁
  split
  · exact Writes.set (hput _) (by decide) _
  · exact hput _

/-- The keys that the stages after `_apply_ac` assign. -/
def lateKeys : List Str :=
  batteryKeys ++ solarKeys ++ loadKeys ++ evWaterKeys ++ essKeys ++ inverterKeys

/-- The overlay of a listing is its AC part, with late keys on top. -/
theorem overlay_late {cfg : Config} {seen : Seen} {listing : Kind → Option Listing} {o : Object}
    (h : overlay cfg seen listing = some o) :
    ∃ systems vebuses meters, listing .system = some systems ∧ listing .vebus = some vebuses ∧
      listing .grid = some meters ∧
      Writes lateKeys (applyAc Dict.empty (zeroOrFirst systems) (first vebuses) meters) o := by
  unfold overlay at h
  obtain ⟨systems, hsystems, h⟩ := Option.bind_eq_some_iff.mp h
  obtain ⟨vebuses, hvebuses, h⟩ := Option.bind_eq_some_iff.mp h
  obtain ⟨meters, hmeters, h⟩ := Option.bind_eq_some_iff.mp h
  obtain ⟨batteries, -, h⟩ := Option.bind_eq_some_iff.mp h
  obtain ⟨solar, -, h⟩ := Option.bind_eq_some_iff.mp h
  obtain ⟨inverters, -, h⟩ := Option.bind_eq_some_iff.mp h
  obtain ⟨acloads, -, h⟩ := Option.bind_eq_some_iff.mp h
  obtain ⟨tanks, -, h⟩ := Option.bind_eq_some_iff.mp h
  obtain ⟨evs, -, h⟩ := Option.bind_eq_some_iff.mp h
  obtain ⟨evchargers, -, h⟩ := Option.bind_eq_some_iff.mp h
  obtain ⟨pumps, -, h⟩ := Option.bind_eq_some_iff.mp h
  obtain ⟨out, hout, h⟩ := Option.bind_eq_some_iff.mp h
  obtain ⟨settings, -, h⟩ := Option.bind_eq_some_iff.mp h
  obtain rfl := Option.some.inj h
  refine ⟨systems, vebuses, meters, hsystems, hvebuses, hmeters, ?_⟩
  have hbattery : Writes lateKeys (applyAc Dict.empty (zeroOrFirst systems) (first vebuses) meters)
      _ := (applyBatteries_writes _ (zeroOrFirst systems) batteries).mono (by decide)
  have hsolar := hbattery.trans ((applySolar_writes _ (zeroOrFirst systems) solar
    inverters).mono (by decide))
  have hloads := hsolar.trans ((applyLoads_writes _ acloads).mono (by decide))
  have hevWater := hloads.trans ((applyEvWater_writes hout).mono (by decide))
  exact (hevWater.trans ((applyEss_writes _ _).mono (by decide))).trans
    ((applyInverter_writes _ _).mono (by decide))

/-- Every key of the overlay is one the native side owns. -/
theorem overlay_owned {cfg : Config} {seen : Seen} {listing : Kind → Option Listing} {o : Object}
    (h : overlay cfg seen listing = some o) : Owned o.keys := by
  obtain ⟨systems, vebuses, meters, -, -, -, hlate⟩ := overlay_late h
  have hac : Writes cerboOwnedKeys Dict.empty _ :=
    (applyAc_writes Dict.empty (zeroOrFirst systems) (first vebuses) meters).mono (by decide)
  have hwrites := hac.trans (hlate.mono (by decide))
  intro k hk
  by_contra hno
  have := Dict.mem_keys.mp hk
  rw [hwrites k hno] at this
  cases this

/-! ## Showing an overlay again -/

theorem putPresent_has (out : Object) (seen : Bool) (key : Str) (selected : Leaves)
    (h : out.get? key = none) :
    ((putPresent out seen key selected).get? key).isSome = seen := by
  unfold putPresent
  cases seen with
  | false => rw [if_neg Bool.false_ne_true, h]; rfl
  | true => rw [if_pos rfl, Dict.get?_set, if_pos rfl]; rfl

/-- A presence key is written exactly when its kind was stored or the key is claimed. -/
theorem applyEv_has (cfg : Config) {out : Object} (seen : Seen) (evs chargers : Listing)
    (hout : ∀ k ∈ presenceKeys, out.get? k = none) :
    ((applyEv cfg out seen evs chargers).get? (Str.lit "ev_present")).isSome =
        (seen.known .ev || Str.lit "ev_present" ∈ seen.claimed) ∧
      ((applyEv cfg out seen evs chargers).get? (Str.lit "evcharger_present")).isSome =
        (seen.known .evcharger || Str.lit "evcharger_present" ∈ seen.claimed) := by
  unfold applyEv
  extract_lets vehicle charger readings evPresent chargerPresent out₁
  have hread : ∀ k ∈ presenceKeys, readings.get? k = none := by
    intro k hk
    rw [← hout k hk]
    refine applyEvReadings_writes cfg out vehicle charger k ?_
    fin_cases hk <;> decide
  constructor
  · rw [putPresent_get?_ne _ _ _ (by decide)]
    exact putPresent_has _ _ _ _ (hread _ (by decide))
  · apply putPresent_has
    unfold out₁
    rw [putPresent_get?_ne _ _ _ (by decide)]
    exact hread _ (by decide)

/-- The claims of `seen`, and beyond them presence keys of `o` at most. -/
structure Seen.Extends (seen' seen : Seen) (o : Object) : Prop where
  known : seen'.known = seen.known
  mono : ∀ k ∈ seen.claimed, k ∈ seen'.claimed
  bound : ∀ k ∈ presenceKeys, k ∈ seen'.claimed → k ∈ seen.claimed ∨ k ∈ o.keys

theorem Seen.Extends.flag {seen seen' : Seen} {o : Object} (h : seen'.Extends seen o) {key : Str}
    (hkey : key ∈ presenceKeys) {base : Bool} (ho : key ∈ o.keys → (base || key ∈ seen.claimed) = true) :
    (base || key ∈ seen'.claimed) = (base || key ∈ seen.claimed) := by
  apply Bool.eq_iff_iff.mpr
  simp only [Bool.or_eq_true, decide_eq_true_eq] at ho ⊢
  constructor
  · intro hnew
    rcases hnew with hbase | hclaimed
    · exact Or.inl hbase
    · exact (h.bound key hkey hclaimed).elim Or.inr ho
  · exact fun hold => hold.imp id (h.mono key)

theorem applyEv_congr (cfg : Config) (out : Object) {seen seen' : Seen} (evs chargers : Listing)
    (hev : (seen'.known .ev || Str.lit "ev_present" ∈ seen'.claimed) =
      (seen.known .ev || Str.lit "ev_present" ∈ seen.claimed))
    (hcharger : (seen'.known .evcharger || Str.lit "evcharger_present" ∈ seen'.claimed) =
      (seen.known .evcharger || Str.lit "evcharger_present" ∈ seen.claimed)) :
    applyEv cfg out seen' evs chargers = applyEv cfg out seen evs chargers := by
  unfold applyEv
  simp only [hev, hcharger]

/-- The keys of the pumps. -/
def pumpKeys : List Str := keyList
  ["water_valve", "water_valve_mode", "pump_switch", "pump_mode", "water_pump_mode"]

theorem applyPumps_writes (cfg : Config) (out : Object) (pumps : Listing) :
    Writes pumpKeys out (applyPumps cfg out pumps) :=
  Writes.pump (Writes.pump (Writes.refl _ _) _ (by decide) (by decide)) _ (by decide) (by decide)

theorem applyEvWater_settled {cfg : Config} {out o : Object} {seen seen' : Seen}
    {tanks pumps evs chargers : Listing} (hout : ∀ k ∈ presenceKeys, out.get? k = none)
    (h : applyEvWater cfg out seen tanks pumps evs chargers = some o)
    (hext : seen'.Extends seen o) :
    applyEvWater cfg out seen' tanks pumps evs chargers = some o := by
  unfold applyEvWater at h ⊢
  extract_lets tank water evOut key at h
  extract_lets evOut'
  obtain ⟨inventory, hinv, hrest⟩ := Option.bind_eq_some_iff.mp h
  obtain rfl := Option.some.inj hrest
  have hwater : ∀ k ∈ presenceKeys, water.get? k = none := by
    intro k hk
    rw [← hout k hk]
    refine putNumber_get?_ne out _ ?_
    fin_cases hk <;> decide
  obtain ⟨hev, hcharger⟩ := applyEv_has cfg seen evs chargers hwater
  have hlate : ∀ k ∈ presenceKeys, (applyPumps cfg
      (if !inventory.isEmpty || key ∈ seen.claimed then evOut.set key (.list inventory)
        else evOut) pumps).get? k =
      (if !inventory.isEmpty || key ∈ seen.claimed then evOut.set key (.list inventory)
        else evOut).get? k := by
    intro k hk
    refine applyPumps_writes cfg _ pumps k ?_
    fin_cases hk <;> decide
  have hfront : ∀ k ∈ presenceKeys, k ≠ key → (applyPumps cfg
      (if !inventory.isEmpty || key ∈ seen.claimed then evOut.set key (.list inventory)
        else evOut) pumps).get? k = evOut.get? k := by
    intro k hk hne
    rw [hlate k hk]
    split
    · exact Dict.get?_set_ne _ _ hne
    · rfl
  have hsame : evOut' = evOut := by
    apply applyEv_congr
    · rw [hext.known]
      apply hext.flag (by decide)
      intro hmem
      rw [← hev]
      rw [Dict.mem_keys, hfront _ (by decide) (by decide)] at hmem
      exact hmem
    · rw [hext.known]
      apply hext.flag (by decide)
      intro hmem
      rw [← hcharger]
      rw [Dict.mem_keys, hfront _ (by decide) (by decide)] at hmem
      exact hmem
  have hflag : (!inventory.isEmpty || key ∈ seen'.claimed) =
      (!inventory.isEmpty || key ∈ seen.claimed) := by
    apply hext.flag (by decide)
    intro hmem
    rw [Dict.mem_keys, hlate _ (by decide)] at hmem
    by_contra hno
    rw [if_neg hno, applyEv_discovered cfg seen evs chargers hwater] at hmem
    cases hmem
  rw [hinv, hsame]
  simp only [bind, Option.bind_some, pure, hflag]

/-- **Showing an overlay again changes nothing.** Claims that grow by keys of the overlay leave the
    overlay as it is. -/
theorem overlay_settled {cfg : Config} {seen seen' : Seen} {listing : Kind → Option Listing}
    {o : Object} (h : overlay cfg seen listing = some o) (hext : seen'.Extends seen o) :
    overlay cfg seen' listing = some o := by
  unfold overlay at h ⊢
  obtain ⟨systems, hsystems, h⟩ := Option.bind_eq_some_iff.mp h
  obtain ⟨vebuses, hvebuses, h⟩ := Option.bind_eq_some_iff.mp h
  obtain ⟨meters, hmeters, h⟩ := Option.bind_eq_some_iff.mp h
  obtain ⟨batteries, hbatteries, h⟩ := Option.bind_eq_some_iff.mp h
  obtain ⟨solar, hsolar, h⟩ := Option.bind_eq_some_iff.mp h
  obtain ⟨inverters, hinverters, h⟩ := Option.bind_eq_some_iff.mp h
  obtain ⟨acloads, hacloads, h⟩ := Option.bind_eq_some_iff.mp h
  obtain ⟨tanks, htanks, h⟩ := Option.bind_eq_some_iff.mp h
  obtain ⟨evs, hevs, h⟩ := Option.bind_eq_some_iff.mp h
  obtain ⟨evchargers, hevchargers, h⟩ := Option.bind_eq_some_iff.mp h
  obtain ⟨pumps, hpumps, h⟩ := Option.bind_eq_some_iff.mp h
  obtain ⟨out, hout, h⟩ := Option.bind_eq_some_iff.mp h
  obtain ⟨settings, hsettings, h⟩ := Option.bind_eq_some_iff.mp h
  obtain rfl := Option.some.inj h
  have hlate : ∀ k ∈ presenceKeys,
      (applyInverter (applyEss out settings) (first vebuses)).get? k = out.get? k := by
    intro k hk
    rw [applyInverter_writes _ _ k (by fin_cases hk <;> decide),
      applyEss_writes _ _ k (by fin_cases hk <;> decide)]
  have hext' : seen'.Extends seen out := by
    refine ⟨hext.known, hext.mono, fun k hk hclaimed => (hext.bound k hk hclaimed).imp id ?_⟩
    intro hmem
    rw [Dict.mem_keys, hlate k hk] at hmem
    exact Dict.mem_keys.mpr hmem
  have hnone := overlay_base (zeroOrFirst systems) (first vebuses) meters batteries solar inverters
    acloads
  have hout' := applyEvWater_settled hnone hout hext'
  simp only [hsystems, hvebuses, hmeters, hbatteries, hsolar, hinverters, hacloads, htanks, hevs,
    hevchargers, hpumps, hsettings, hout', bind, Option.bind_some, pure]

/-! ## The overlay is total -/

/-- Every listed id has a sort key. -/
theorem sortKey_of_mem_devices {m : Devices} {kind : Kind} {l : Listing}
    (h : devices m kind = some l) : ∀ d ∈ l, ∃ key, sortKey d.1 = some key := by
  intro d hd
  obtain ⟨rows, hrows, rfl⟩ := Option.map_eq_some_iff.mp h
  obtain ⟨r, hr, rfl⟩ := List.mem_map.mp (List.mem_filter.mp hd).1
  exact ⟨r.1, (keyed_mapM hrows).2 r ((List.mem_insertionSort byKey).mp hr)⟩

theorem waterEvInventory_isSome {listings : List (Kind × Listing)}
    (h : ∀ l ∈ listings, ∀ d ∈ l.2, ∃ key, sortKey d.1 = some key) :
    ∃ vs, waterEvInventory listings = some vs := by
  unfold waterEvInventory
  have hrows : ∀ d ∈ listings.flatMap fun l => l.2.map fun d => (l.1, d),
      ∃ key, sortKey d.2.1 = some key := by
    intro d hd
    obtain ⟨l, hl, hd⟩ := List.mem_flatMap.mp hd
    obtain ⟨e, he, rfl⟩ := List.mem_map.mp hd
    exact h l hl e he
  generalize (listings.flatMap fun l => l.2.map fun d => (l.1, d)) = rows at hrows
  induction rows with
  | nil => exact ⟨[], rfl⟩
  | cons d rows ih =>
    obtain ⟨key, hkey⟩ := hrows d List.mem_cons_self
    obtain ⟨vs, hvs⟩ := ih fun x hx => hrows x (List.mem_cons_of_mem _ hx)
    rw [List.mapM_cons, hvs]
    unfold waterEvDevice
    rw [hkey]
    exact ⟨_, rfl⟩

theorem overlay_isSome (cfg : Config) (seen : Seen) {m : Devices}
    (h : ∀ kind, ∃ l, devices m kind = some l) : ∃ o, overlay cfg seen (devices m) = some o := by
  choose l hl using h
  obtain ⟨inventory, hinv⟩ : ∃ vs, waterEvInventory
      [(.tank, l .tank), (.pump, l .pump), (.ev, l .ev), (.evcharger, l .evcharger)] = some vs := by
    refine waterEvInventory_isSome ?_
    intro x hx d hd
    fin_cases hx <;> exact sortKey_of_mem_devices (hl _) d hd
  unfold overlay applyEvWater
  simp only [hl, hinv, bind, Option.bind_some, pure]
  exact ⟨_, rfl⟩

end InverterDashboard.Cerbo
