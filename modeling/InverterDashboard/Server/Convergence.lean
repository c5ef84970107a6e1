import InverterDashboard.Server.Reduction

/-
  What native tiles show depends on the surviving leaves alone: not on the order in which they
  arrived, the transport that carried them, or the controller messages in between.
-/

namespace InverterDashboard.Server

open Python Cerbo Controller Temporal

/-- What a reducer shows under a native key is what its overlay shows there. -/
theorem Reduced.shown_overlay {cfg : Config} {l : LeafMap} {s : MqttState} (h : Reduced cfg l s) :
    ∃ seen o, Seen.Covers seen (devices s.cerboDevices) ∧
      overlay cfg seen (devices s.cerboDevices) = some o ∧
      (∀ k ∈ nativeSectionKeys, shown k (s.currentState.get? k) = shown k (o.get? k)) ∧
      ∀ k ∈ s.cerboClaimedKeys, shown k (s.currentState.get? k) = shown k (o.get? k) := by
  obtain ⟨seen, o, hcover, ho, hkeys, hshow⟩ := h.shows
  have hclaimed : ∀ k ∈ s.cerboClaimedKeys,
      shown k (s.currentState.get? k) = shown k (o.get? k) := by
    intro k hk
    rw [hshow k hk, shown_getD]
  refine ⟨seen, o, hcover, ho, ?_, hclaimed⟩
  intro k hk
  by_cases hc : k ∈ s.cerboClaimedKeys
  · exact hclaimed k hc
  · have hnone : o.get? k = none := by
      by_contra hsome
      exact hc (hkeys k (Dict.mem_keys.mpr (Option.isSome_iff_ne_none.mpr hsome)))
    rw [h.sound.unclaimed k hk hc, hnone]

/-- A fresh reducer shows the overlay of its first snapshot under every owned key. -/
theorem fresh_shown (cfg : Config) (portal : Str) (clock : Clock) {snapshot : Object}
    (hids : ∀ x ∈ snapshotLeaves snapshot, CanonicalDecimal x.inst) :
    let s := (replaceCerboSnapshot cfg clock snapshot (MqttState.init portal)).state
    ∃ seen o, Seen.Covers seen (devices s.cerboDevices) ∧
      overlay cfg seen (devices s.cerboDevices) = some o ∧
      ∀ k ∈ cerboOwnedKeys, shown k (s.currentState.get? k) = shown k (o.get? k) := by
  have hl : Stores ((snapshotLeaves snapshot).foldl storeLeaf Dict.empty) (.ofSnapshot snapshot) :=
    Stores.empty.foldl hids
  obtain ⟨pumps, hpumps⟩ := hl.devices_isSome .pump
  unfold replaceCerboSnapshot
  simp only [hpumps]
  generalize hs : noteNativeObservation (Str.lit "igw") clock _ = s₀
  have hdev : s₀.cerboDevices = (snapshotLeaves snapshot).foldl storeLeaf Dict.empty := by
    rw [← hs]
    rfl
  have hcur : s₀.currentState = Dict.empty := by
    rw [← hs]
    rfl
  obtain ⟨o, ho⟩ := overlay_isSome cfg s₀.seen (m := s₀.cerboDevices)
    (by rw [hdev]; exact hl.devices_isSome)
  have happly : applyCerboOverlays cfg s₀ = .done (s₀.show o) := by
    unfold applyCerboOverlays
    rw [ho]
  rw [happly]
  refine ⟨s₀.seen, o, covers_seen s₀, ho, ?_⟩
  intro k hk
  by_cases hc : k ∈ unionKeys s₀.cerboClaimedKeys o.keys
  · rw [show (Call.done (s₀.show o)).state = s₀.show o from rfl,
      show_currentState s₀ o (ne_telemetry hk), if_pos hc, shown_getD]
  · have hnone : o.get? k = none := by
      by_contra hsome
      exact hc (mem_unionKeys.mpr (Or.inr (Dict.mem_keys.mpr
        (Option.isSome_iff_ne_none.mpr hsome))))
    rw [show (Call.done (s₀.show o)).state = s₀.show o from rfl,
      show_currentState s₀ o (ne_telemetry hk), if_neg hc, hcur, hnone]
    rfl

/-- **Convergence.** After any run, a native tile shows what a fresh reducer shows after one
    snapshot of the leaves that survive the run; such a snapshot exists. -/
theorem native_tiles_converge (cfg : Config) (portal : Str) (before after : List Event)
    (hids : ∀ x ∈ trace (step cfg) (MqttState.init portal) (before ++ after), CanonicalIds x) :
    let l := surviving cfg (MqttState.init portal) (before ++ after)
    (∃ snapshot, Lists snapshot l) ∧
      ∀ snapshot clock, Lists snapshot l → ∀ k ∈ cerboOwnedKeys,
        (k ∈ nativeSectionKeys ∨
          k ∈ (replay (step cfg) (MqttState.init portal) before).cerboClaimedKeys) →
        shown k ((replay (step cfg) (MqttState.init portal) (before ++ after)).currentState.get? k) =
          shown k ((replaceCerboSnapshot cfg clock snapshot
            (MqttState.init portal)).state.currentState.get? k) := by
  intro l
  have hred := reduced_run cfg portal (before ++ after) hids
  have hacc := accepted_surviving cfg (MqttState.init portal) (before ++ after) hids
  refine ⟨⟨_, lists_snapshotOf hred.stores⟩, ?_⟩
  intro snapshot clock hlists k hk hnative
  have hcanon := canonical_of_lists hacc hlists
  obtain ⟨-, hfresh⟩ := reduced_snapshot (Reduced.init cfg portal) clock hcanon
  rw [ofSnapshot_of_lists hacc hlists] at hfresh
  have hdev := hred.stores.devices_congr hfresh.stores
  obtain ⟨seen, o, hcover, ho, hsection, hclaimed⟩ := hred.shown_overlay
  obtain ⟨seen', o', hcover', ho', hshow'⟩ :=
    fresh_shown cfg portal clock hcanon
  rw [← hdev] at hcover' ho'
  obtain ⟨o₂, ho₂, hsame⟩ := overlay_shown cfg hcover hcover' ho
  obtain rfl : o₂ = o' := Option.some.inj (ho₂.symm.trans ho')
  rw [hshow' k hk, ← hsame k]
  rcases hnative with hs | hc
  · exact hsection k hs
  · refine hclaimed k ?_
    rw [replay_append]
    exact (claims_replay cfg _ after).mono k hc

/-- A tank level, then a controller that mirrors another one. -/
def tankThenMirror : List Event :=
  [⟨⟨0, 0⟩, .native (Str.lit "N/c0619ab/tank/21/Level")
      (.json (.dict [(Str.lit "value", .int 40)])) true⟩,
   ⟨⟨1, 1⟩, .controller (Dict.ofList [(Str.lit "water_level", .int 3)]) false⟩]

theorem native_tiles_converge_tank : ∃ snapshot, ∀ clock,
    shown (Str.lit "water_level") ((replay (step .default) (MqttState.init (Str.lit "c0619ab"))
        tankThenMirror).currentState.get? (Str.lit "water_level")) =
      shown (Str.lit "water_level") ((replaceCerboSnapshot .default clock snapshot
        (MqttState.init (Str.lit "c0619ab"))).state.currentState.get? (Str.lit "water_level")) := by
  have h21 : CanonicalDecimal (Str.lit "21") := ⟨21, by decide, by decide⟩
  have haddr : addressed (MqttState.init (Str.lit "c0619ab")) (Str.lit "N/c0619ab/tank/21/Level")
      (.json (.dict [(Str.lit "value", .int 40)])) = some (.tank, Str.lit "21", Str.lit "Level") := by
    rfl
  have hids : ∀ x ∈ trace (step .default) (MqttState.init (Str.lit "c0619ab"))
      ([] ++ tankThenMirror), CanonicalIds x := by
    intro x hx
    rcases List.mem_cons.mp hx with rfl | hx
    · intro a ha
      rw [haddr] at ha
      obtain rfl := Option.some.inj ha
      exact h21
    · obtain rfl := List.mem_singleton.mp hx
      trivial
  obtain ⟨⟨snapshot, hlists⟩, h⟩ :=
    native_tiles_converge .default (Str.lit "c0619ab") [] tankThenMirror hids
  exact ⟨snapshot, fun clock => h snapshot clock hlists _ (by decide) (Or.inl (by decide))⟩

end InverterDashboard.Server
