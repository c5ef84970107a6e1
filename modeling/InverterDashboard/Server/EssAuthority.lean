import Mathlib.Tactic.Linarith
import InverterDashboard.Server.CommandChecks

/-
  Authority for an ESS selection. `_can_select_ess_mode` relies on two controller fields: an
  `ess_mode` object with `selection_supported` true, and `dry_run` false. The first is kept with
  its own receipt time and dies with a retained report; the second is an ordinary merged field,
  without provenance.

  So the check can rest on a `dry_run` that was retained or is long past. It cannot in a run
  where live `ess_mode` reports carry `dry_run` with them and no retained message slips one in
  beside a live `ess_mode` (`DryRunPaired`).
-/

namespace InverterDashboard.Server

open Python Cerbo Controller Temporal

def essModeKey : Str := Str.lit "ess_mode"
def dryRunKey : Str := Str.lit "dry_run"

/-! ## Reports -/

/-- The controller object a step brings, and whether it was retained. A gateway's snapshot
    counts as live. -/
def controllerMessage (x : MqttState × Event) : Option (Object × Bool) :=
  match x.2.op with
  | .controller incoming retained => some (incoming, retained)
  | .gateway snapshot =>
    match snapshot.get? (Str.lit "inverter") with
    | some (.dict es) => some (Dict.ofList es, false)
    | _ => none
  | _ => none

/-- The step ends the controller session: an empty state, an expired one, or a new snapshot. -/
def ClearsController (x : MqttState × Event) : Prop :=
  match x.2.op with
  | .controllerGone => True
  | .gateway snapshot =>
    snapshot.get? (Str.lit "inverter") = some .none ∨
      ∃ es, snapshot.get? (Str.lit "inverter") = some (.dict es)
  | .readController => ∃ t, x.1.daemonReceivedAt = some t ∧ 120 < x.2.clock.mono - t
  | _ => False

/-- The message says that the ESS mode may be selected. -/
def supportsSelection (incoming : Object) : Prop :=
  ∃ es, incoming.get? essModeKey = some (.dict es) ∧
    Object.getD (Dict.ofList es) (Str.lit "selection_supported") = .bool true

/-- A live report that the ESS mode may be selected. -/
def ReportsEss (x : MqttState × Event) : Prop :=
  ∃ incoming, controllerMessage x = some (incoming, false) ∧ supportsSelection incoming

/-- A live report that dry run is off. -/
def ReportsDryRun (x : MqttState × Event) : Prop :=
  ∃ incoming, controllerMessage x = some (incoming, false) ∧
    incoming.get? dryRunKey = some (.bool false)

/-- The last word on a field `key` is gone: a clear, or a message that brings the field in any
    way other than the live report `good`. -/
def Forgets (key : Str) (good : Object → Prop) (x : MqttState × Event) : Prop :=
  ClearsController x ∨
    ∃ incoming retained, controllerMessage x = some (incoming, retained) ∧
      (incoming.get? key).isSome ∧ ¬ (retained = false ∧ good incoming)

def ForgetsEss : MqttState × Event → Prop := Forgets essModeKey supportsSelection

def ForgetsDryRun : MqttState × Event → Prop :=
  Forgets dryRunKey fun incoming => incoming.get? dryRunKey = some (.bool false)

/-- Both facts the check relies on were reported live in the last 30 seconds, and neither has
    been cleared or reported otherwise since. -/
def ReportedLive (now : ℚ) (l : List (MqttState × Event)) : Prop :=
  Since (fun x => ¬ ForgetsEss x)
    (fun x => ReportsEss x ∧ now - 30 ≤ x.2.clock.wall ∧ x.2.clock.wall ≤ now) l ∧
  Since (fun x => ¬ ForgetsDryRun x)
    (fun x => ReportsDryRun x ∧ now - 30 ≤ x.2.clock.wall ∧ x.2.clock.wall ≤ now) l

/-! ## What a step does to the two fields -/

def MqttState.dryRun (s : MqttState) : Option Value := s.currentState.get? dryRunKey

/-- Both fields stay. -/
structure KeepsEss (s s' : MqttState) : Prop where
  mode : s'.controllerEssMode = s.controllerEssMode
  observedAt : s'.essModeObservedAt = s.essModeObservedAt
  dryRun : s'.dryRun = s.dryRun
  daemonKeys : dryRunKey ∈ s.daemonKeys → dryRunKey ∈ s'.daemonKeys

/-- A `dry_run` that is shown came from the controller. -/
def Tracked (s : MqttState) : Prop := s.dryRun ≠ none → dryRunKey ∈ s.daemonKeys

/-- Both fields are gone. -/
structure LosesEss (s' : MqttState) : Prop where
  observedAt : s'.essModeObservedAt = none
  dryRun : s'.dryRun ≠ some (.bool false)
  tracked : Tracked s'

/-- The fields of the message are stored, the others stay. -/
structure MergesEss (now : ℚ) (incoming : Object) (retained : Bool) (s s' : MqttState) :
    Prop where
  mode : (s'.controllerEssMode, s'.essModeObservedAt) = match incoming.get? essModeKey with
    | some mode => ((mode.dict?).map Dict.ofList,
        if (mode.dict?).isSome && !retained then some now else none)
    | none => (s.controllerEssMode, s.essModeObservedAt)
  dryRun : s'.dryRun = match incoming.get? dryRunKey with
    | some v => some v
    | none => s.dryRun
  daemonKeys : dryRunKey ∈ s.daemonKeys ∨ (incoming.get? dryRunKey).isSome →
    dryRunKey ∈ s'.daemonKeys

namespace KeepsEss

theorem of_eq {s s' : MqttState} (hp : s'.controller = s.controller)
    (hd : s'.currentState.get? dryRunKey = s.currentState.get? dryRunKey) : KeepsEss s s' where
  mode := congrArg ControllerPart.controllerEssMode hp
  observedAt := congrArg ControllerPart.essModeObservedAt hp
  dryRun := hd
  daemonKeys := by
    intro h
    rw [show s'.daemonKeys = s.daemonKeys from congrArg ControllerPart.daemonKeys hp]
    exact h

theorem trans {a b c : MqttState} (hab : KeepsEss a b) (hbc : KeepsEss b c) : KeepsEss a c where
  mode := hbc.mode.trans hab.mode
  observedAt := hbc.observedAt.trans hab.observedAt
  dryRun := hbc.dryRun.trans hab.dryRun
  daemonKeys := fun h => hbc.daemonKeys (hab.daemonKeys h)

/-- Native operations never touch the fields. -/
theorem foreign {s s' : MqttState} (h : KeepsForeign s s') (ho : Owned s.cerboClaimedKeys) :
    KeepsEss s s' :=
  .of_eq h.controller (h.current ho dryRunKey (by decide) (by decide))

theorem tracked {s s' : MqttState} (h : KeepsEss s s') (ht : Tracked s) : Tracked s' := by
  intro hd
  rw [h.dryRun] at hd
  exact h.daemonKeys (ht hd)

end KeepsEss

theorem LosesEss.keeps {s s' : MqttState} (h : LosesEss s) (hs : KeepsEss s s') : LosesEss s' where
  observedAt := hs.observedAt.trans h.observedAt
  dryRun := by
    rw [hs.dryRun]
    exact h.dryRun
  tracked := hs.tracked h.tracked

theorem MergesEss.keeps {now : ℚ} {incoming : Object} {retained : Bool} {s s' s'' : MqttState}
    (h : MergesEss now incoming retained s s') (hs : KeepsEss s' s'') :
    MergesEss now incoming retained s s'' where
  mode := by
    rw [hs.mode, hs.observedAt]
    exact h.mode
  dryRun := hs.dryRun.trans h.dryRun
  daemonKeys := fun hd => hs.daemonKeys (h.daemonKeys hd)

theorem MergesEss.tracked {now : ℚ} {incoming : Object} {retained : Bool} {s s' : MqttState}
    (h : MergesEss now incoming retained s s') (ht : Tracked s) : Tracked s' := by
  intro hd
  apply h.daemonKeys
  rw [h.dryRun] at hd
  cases hi : incoming.get? dryRunKey with
  | some v => exact Or.inr rfl
  | none =>
    rw [hi] at hd
    exact Or.inl (ht hd)

/-! ## One operation after the other -/

theorem keepsEss_overlays (cfg : Config) {s : MqttState} (ho : Owned s.cerboClaimedKeys) :
    KeepsEss s (applyCerboOverlays cfg s).state :=
  .foreign (foreign_applyCerboOverlays cfg s) ho

/-- A merged field that is neither reserved nor claimed holds the last value it was sent. -/
theorem mergeDaemonFields_unclaimed (claimed : List Str) (incoming current : Object) {k : Str}
    (hr : k ∉ reservedKeys) (ho : ¬ (k ∈ cerboOwnedKeys ∧ k ∈ claimed))
    (hb : k ≠ Str.lit "booleans") :
    (mergeDaemonFields claimed incoming current).get? k = match incoming.get? k with
      | some v => some v
      | none => current.get? k := by
  have hfield : ∀ (current : Object) key value,
      (mergeDaemonField claimed current key value).get? k =
        if k = key then some value else current.get? k := by
    intro current key value
    unfold mergeDaemonField
    split
    · next hres => rw [if_neg fun e : k = key => hr (e ▸ hres)]
    · split
      · next hown => rw [if_neg fun e : k = key => ho (e ▸ hown)]
      · rw [Dict.get?_set]
        split
        · next e => rw [if_neg (e ▸ hb)]
        · rfl
  obtain ⟨es, hn⟩ := incoming
  unfold mergeDaemonFields Dict.get?
  dsimp only
  induction es generalizing current with
  | nil => rfl
  | cons e es ih =>
    obtain ⟨key, value⟩ := e
    rw [List.map_cons, List.nodup_cons] at hn
    rw [List.foldl_cons]
    refine (ih (mergeDaemonField claimed current key value) hn.2).trans ?_
    rw [Dict.find]
    split
    · next v hv =>
      -- The key was not sent before: an object has each key once.
      have hne : k ≠ key := by
        rintro rfl
        exact hn.1 ((Dict.isSome_find k es).mp (by rw [hv]; rfl))
      rw [if_neg hne, hv]
    · next hv =>
      have := hfield current key value
      unfold Dict.get? at this
      rw [this]
      split
      · rfl
      · rw [hv]

theorem mergeDaemonFields_plain (claimed : List Str) (incoming current : Object) {k : Str}
    (hr : k ∉ reservedKeys) (ho : k ∉ cerboOwnedKeys) (hb : k ≠ Str.lit "booleans") :
    (mergeDaemonFields claimed incoming current).get? k = match incoming.get? k with
      | some v => some v
      | none => current.get? k :=
  mergeDaemonFields_unclaimed claimed incoming current hr (fun h => ho h.1) hb

theorem keepsEss_observe (clock : Clock) (incoming : Object) (retained : Bool) (s : MqttState) :
    KeepsEss s (observe clock incoming retained s).state := by
  have hset : ∀ (o : Object) k v, dryRunKey ≠ k → (o.set k v).get? dryRunKey = o.get? dryRunKey :=
    fun o k v h => Dict.get?_set_ne o v h
  have hover : ∀ v, KeepsEss s (observeOverride clock.wall v retained s) := by
    intro v
    unfold observeOverride
    split
    · exact ⟨rfl, rfl, hset _ _ _ (by decide), id⟩
    · exact ⟨rfl, rfl, hset _ _ _ (by decide), id⟩
  unfold observe
  extract_lets s₁ s₂
  have h₁ : KeepsEss s s₁ := by
    unfold s₁
    split
    · exact hover _
    · exact ⟨rfl, rfl, rfl, id⟩
  have h₂ : KeepsEss s s₂ := by
    unfold s₂
    split
    · exact h₁.trans ⟨rfl, rfl, rfl, id⟩
    · exact h₁
  split
  · exact h₂
  · split
    · exact h₂
    · exact h₂.trans ⟨rfl, rfl, hset _ _ _ (by decide), id⟩

theorem mergesEss_merge (cfg : Config) (clock : Clock) (incoming : Object) (retained : Bool)
    {s : MqttState} (ho : Owned s.cerboClaimedKeys) :
    MergesEss clock.wall incoming retained s
      (mergeDaemonState cfg clock incoming retained s).state := by
  unfold mergeDaemonState
  extract_lets s₁ s₂ s₃
  have h₂ : s₂.currentState = s.currentState ∧ s₂.cerboClaimedKeys = s.cerboClaimedKeys ∧
      s₂.daemonKeys = s₁.daemonKeys := by
    unfold s₂
    split
    · exact ⟨rfl, rfl, rfl⟩
    · exact ⟨rfl, rfl, rfl⟩
  have h₃ : MergesEss clock.wall incoming retained s s₃ := by
    refine ⟨?_, ?_, ?_⟩
    · show (s₂.controllerEssMode, s₂.essModeObservedAt) = _
      unfold s₂ essModeKey
      cases incoming.get? (Str.lit "ess_mode") with
      | some mode => rfl
      | none => rfl
    · show (mergeDaemonFields s₂.cerboClaimedKeys incoming s₂.currentState).get? dryRunKey = _
      rw [mergeDaemonFields_plain _ _ _ (by decide) (by decide) (by decide), h₂.1]
      rfl
    · intro hd
      show dryRunKey ∈ s₂.daemonKeys
      rw [h₂.2.2]
      refine mem_unionKeys.mpr (hd.imp_right fun hi => ?_)
      exact List.mem_filter.mpr ⟨Dict.mem_keys.mpr hi, by decide⟩
  have h₄ := h₃.keeps (keepsEss_observe clock incoming retained s₃)
  have howned : Owned (observe clock incoming retained s₃).state.cerboClaimedKeys := by
    refine (claims_observe clock incoming retained s₃).owned ?_
    show Owned s₂.cerboClaimedKeys
    rw [h₂.2.1]
    exact ho
  exact Call.andThen_state (P := MergesEss clock.wall incoming retained s) h₄ fun _ =>
    h₄.keeps (keepsEss_overlays cfg howned)

theorem losesEss_clearDaemon (cfg : Config) {s : MqttState} (ho : Owned s.cerboClaimedKeys)
    (ht : Tracked s) : LosesEss (clearDaemonState cfg s).state := by
  have hall : (s.currentState.setAll s.daemonKeys fun _ => Value.none).get? dryRunKey =
      if dryRunKey ∈ s.daemonKeys then some .none else s.dryRun := by
    rw [Dict.get?_setAll]
    congr
  have hdry : s.withoutDaemon.dryRun =
      if dryRunKey ∈ s.daemonKeys then some .none else s.dryRun := by
    unfold MqttState.dryRun MqttState.withoutDaemon
    dsimp only
    split
    · exact hall
    · rw [Dict.get?_set_ne _ _ (by decide), Dict.get?_set_ne _ _ (by decide)]
      exact hall
  refine LosesEss.keeps (s := s.withoutDaemon) ⟨rfl, ?_, ?_⟩ (keepsEss_overlays cfg ho)
  · rw [hdry]
    split
    · simp
    · next hk =>
      intro hd
      exact hk (ht (by rw [hd]; simp))
  · intro hd
    rw [hdry] at hd
    split at hd
    · next hk => exact hk
    · exact ht hd

theorem controllerAvailable_ess (cfg : Config) (clock : Clock) {s : MqttState}
    (ho : Owned s.cerboClaimedKeys) (ht : Tracked s) :
    (controllerAvailable cfg clock s).state = s ∧
        (¬ ∃ t, s.daemonReceivedAt = some t ∧ 120 < clock.mono - t) ∨
      LosesEss (controllerAvailable cfg clock s).state := by
  unfold controllerAvailable
  split
  · next hnone => exact Or.inl ⟨rfl, fun ⟨t, h, _⟩ => by rw [hnone] at h; cases h⟩
  · next t hsome =>
    split
    · have hlost := losesEss_clearDaemon cfg ho ht
      exact Or.inr (Call.andThen_state (P := LosesEss) hlost fun _ => hlost)
    · next hexp =>
      refine Or.inl ⟨rfl, fun ⟨t', h, hlt⟩ => hexp ?_⟩
      rw [hsome] at h
      obtain rfl := Option.some.inj h
      exact hlt

/-- Everything a step can do to the two fields. -/
inductive EssEffect (x : MqttState × Event) (s' : MqttState) : Prop where
  | keeps : controllerMessage x = none → ¬ ClearsController x → KeepsEss x.1 s' → EssEffect x s'
  | loses : LosesEss s' → EssEffect x s'
  | merges (incoming : Object) (retained : Bool) : controllerMessage x = some (incoming, retained) →
      ¬ ClearsController x → MergesEss x.2.clock.wall incoming retained x.1 s' → EssEffect x s'
  /-- A snapshot's object is merged into a session that was just cleared. -/
  | replaces (incoming : Object) (s₀ : MqttState) : controllerMessage x = some (incoming, false) →
      LosesEss s₀ → MergesEss x.2.clock.wall incoming false s₀ s' → EssEffect x s'

theorem EssEffect.andKeeps {x : MqttState × Event} {s' s'' : MqttState} (h : EssEffect x s')
    (hs : KeepsEss s' s'') : EssEffect x s'' := by
  cases h with
  | keeps hm hc hk => exact .keeps hm hc (hk.trans hs)
  | loses hl => exact .loses (hl.keeps hs)
  | merges incoming retained hm hc hk => exact .merges incoming retained hm hc (hk.keeps hs)
  | replaces incoming s₀ hm hl hk => exact .replaces incoming s₀ hm hl (hk.keeps hs)

theorem EssEffect.tracked {x : MqttState × Event} {s' : MqttState} (h : EssEffect x s')
    (ht : Tracked x.1) : Tracked s' := by
  cases h with
  | keeps hm hc hk => exact hk.tracked ht
  | loses hl => exact hl.tracked
  | merges incoming retained hm hc hk => exact hk.tracked ht
  | replaces incoming s₀ hm hl hk => exact hk.tracked hl.tracked

/-- The effect of the controller part of a snapshot. -/
theorem ess_snapshotController (cfg : Config) (clock : Clock) (snapshot : Object) {s : MqttState}
    (ho : Owned s.cerboClaimedKeys) (ht : Tracked s) :
    EssEffect (s, ⟨clock, .gateway snapshot⟩)
      (applySnapshotController cfg clock snapshot s).state := by
  unfold applySnapshotController
  extract_lets s₁ controller
  have hlost : LosesEss (clearDaemonState cfg s₁).state := losesEss_clearDaemon cfg (s := s₁) ho ht
  have hc : EssEffect (s, ⟨clock, .gateway snapshot⟩) controller.state := by
    unfold controller
    split
    · next es hes =>
      have hmsg : controllerMessage (s, ⟨clock, .gateway snapshot⟩) =
          some (Dict.ofList es, false) := by
        unfold controllerMessage
        dsimp only
        rw [hes]
      refine Call.andThen_state (P := EssEffect (s, ⟨clock, .gateway snapshot⟩)) (.loses hlost)
        fun _ => ?_
      have howned : Owned (clearDaemonState cfg s₁).state.cerboClaimedKeys :=
        (claims_clearDaemon cfg s₁).owned ho
      exact .replaces _ _ hmsg hlost (mergesEss_merge cfg clock _ false howned)
    · exact .loses hlost
    · next hdict hnull =>
      refine .keeps ?_ ?_ ⟨rfl, rfl, rfl, id⟩
      · unfold controllerMessage
        dsimp only
        split
        · next es hes => exact absurd hes (hdict es)
        · rfl
      · rintro (hn | ⟨es, hes⟩)
        · exact hnull hn
        · exact hdict es hes
  refine Call.andThen_state (P := EssEffect (s, ⟨clock, .gateway snapshot⟩)) hc fun _ => ?_
  split
  · exact hc
  · exact hc.andKeeps ⟨rfl, rfl, Dict.get?_set_ne _ _ (by decide), id⟩

theorem ess_step (cfg : Config) {s : MqttState} (e : Event) (ho : Owned s.cerboClaimedKeys)
    (ht : Tracked s) : EssEffect (s, e) (step cfg s e) := by
  obtain ⟨clock, op⟩ := e
  have hnative : ∀ {s'}, controllerMessage (s, ⟨clock, op⟩) = none →
      ¬ ClearsController (s, ⟨clock, op⟩) → KeepsForeign s s' → EssEffect (s, ⟨clock, op⟩) s' :=
    fun hm hc hs => .keeps hm hc (.foreign hs ho)
  cases op with
  | native topic payload retained =>
    exact hnative rfl id (foreign_native cfg clock topic payload retained s)
  | snapshot snapshot => exact hnative rfl id (foreign_snapshot cfg clock snapshot s)
  | clearNative => exact hnative rfl id (foreign_clearCerbo cfg s)
  | controller incoming retained =>
    exact .merges incoming retained rfl id (mergesEss_merge cfg clock incoming retained ho)
  | controllerGone => exact .loses (losesEss_clearDaemon cfg ho ht)
  | override value retained => exact .keeps rfl id (keepsEss_observe clock _ retained s)
  | gateway snapshot =>
    have hc := ess_snapshotController cfg clock snapshot ho ht
    refine Call.andThen_state (P := EssEffect (s, ⟨clock, .gateway snapshot⟩)) hc fun _ => ?_
    refine hc.andKeeps (.foreign (foreign_snapshot cfg clock snapshot _) ?_)
    exact (claims_snapshotController cfg clock snapshot s).owned ho
  | readController =>
    rcases controllerAvailable_ess cfg clock ho ht with ⟨hs, hexp⟩ | hlost
    · refine .keeps rfl hexp ?_
      show KeepsEss s (controllerAvailable cfg clock s).state
      rw [hs]
      exact ⟨rfl, rfl, rfl, id⟩
    · exact .loses hlost
  | portal portal => exact hnative rfl id (foreign_discoverPortal portal s)

/-! ## Where the check is right -/

/-- An ESS authority is held that has not run out by `now`. -/
def HoldsEss (now : ℚ) (s : MqttState) : Prop :=
  ∃ t mode, s.essModeObservedAt = some t ∧ now ≤ t + 30 ∧ s.controllerEssMode = some mode ∧
    mode.getD (Str.lit "selection_supported") = .bool true

/-- The message leaves no doubt about `dry_run`: a live `ess_mode` that grants the selection
    brings `dry_run` with it, unless none is stored as false, and a retained `dry_run` false
    brings an `ess_mode`, unless no live one is held. -/
def DryRunPaired (x : MqttState × Event) : Prop :=
  match x.2.op with
  | .controller incoming retained =>
    (retained = false → supportsSelection incoming → incoming.get? dryRunKey = none →
      x.1.dryRun ≠ some (.bool false)) ∧
    (retained = true → incoming.get? dryRunKey = some (.bool false) →
      incoming.get? essModeKey = none → ¬ HoldsEss x.2.clock.wall x.1)
  | _ => True

/-- Every stored authority is backed by live reports: the mode's own, and while it is fresh also
    one of `dry_run` that is no older. -/
def EssBacked (l : List (MqttState × Event)) (s : MqttState) : Prop :=
  ∀ t mode, s.essModeObservedAt = some t → s.controllerEssMode = some mode →
    mode.getD (Str.lit "selection_supported") = .bool true →
    Since (fun x => ¬ ForgetsEss x) (fun x => ReportsEss x ∧ x.2.clock.wall = t) l ∧
    (s.dryRun = some (.bool false) →
      Since (fun x => ¬ ForgetsDryRun x) (fun x => ReportsDryRun x ∧ t ≤ x.2.clock.wall) l ∨
        ∃ x ∈ l, t + 30 < x.2.clock.wall)

theorem not_forgets {key : Str} {good : Object → Prop} {x : MqttState × Event}
    (hc : ¬ ClearsController x) (hm : ∀ incoming retained,
      controllerMessage x = some (incoming, retained) → incoming.get? key = none) :
    ¬ Forgets key good x := by
  rintro (h | ⟨incoming, retained, h, hk, -⟩)
  · exact hc h
  · rw [hm incoming retained h] at hk
    cases hk

/-- A message that leaves an authority behind after bringing an `ess_mode` reports it live, and
    `dry_run` with it if that is false. -/
theorem backed_report {l : List (MqttState × Event)} {x : MqttState × Event} {s₀ s' : MqttState}
    {incoming : Object} {retained : Bool} {mode : Value} {t : ℚ} {m : Object}
    (hmsg : controllerMessage x = some (incoming, retained))
    (hmerge : MergesEss x.2.clock.wall incoming retained s₀ s')
    (hmode : incoming.get? essModeKey = some mode) (ht : s'.essModeObservedAt = some t)
    (hm : s'.controllerEssMode = some m)
    (hsup : m.getD (Str.lit "selection_supported") = .bool true)
    (hstored : retained = false → supportsSelection incoming → incoming.get? dryRunKey = none →
      s₀.dryRun ≠ some (.bool false)) :
    Since (fun x => ¬ ForgetsEss x) (fun x => ReportsEss x ∧ x.2.clock.wall = t) (l ++ [x]) ∧
    (s'.dryRun = some (.bool false) →
      Since (fun x => ¬ ForgetsDryRun x) (fun x => ReportsDryRun x ∧ t ≤ x.2.clock.wall)
        (l ++ [x])) := by
  have hpair := hmerge.mode
  rw [hmode, hm, ht] at hpair
  obtain ⟨hd, hobs⟩ := Prod.mk.inj hpair
  obtain ⟨es, hes, rfl⟩ := Option.map_eq_some_iff.mp hd.symm
  obtain rfl : mode = .dict es := by
    cases mode with
    | dict fs =>
      obtain rfl := Option.some.inj hes
      rfl
    | _ => cases hes
  -- A retained `ess_mode` leaves no receipt time.
  obtain rfl : retained = false := by
    cases retained with
    | false => rfl
    | true => cases hobs
  obtain rfl : t = x.2.clock.wall := Option.some.inj hobs
  have hs : supportsSelection incoming := ⟨es, hmode, hsup⟩
  refine ⟨Since.now ⟨⟨incoming, hmsg, hs⟩, rfl⟩, ?_⟩
  intro hdry
  rw [hmerge.dryRun] at hdry
  cases hi : incoming.get? dryRunKey with
  | none =>
    rw [hi] at hdry
    exact absurd hdry (hstored rfl hs hi)
  | some v =>
    rw [hi] at hdry
    exact Since.now ⟨⟨incoming, hmsg, hi.trans hdry⟩, le_refl _⟩

/-- **One operation** keeps every authority backed, if the messages are paired. -/
theorem essBacked_step {l : List (MqttState × Event)} {x : MqttState × Event} {s' : MqttState}
    (h : EssBacked l x.1) (hpaired : DryRunPaired x)
    (hlast : ∀ y ∈ l, y.2.clock.wall ≤ x.2.clock.wall) (heffect : EssEffect x s') :
    EssBacked (l ++ [x]) s' := by
  intro t m ht hm hsup
  cases heffect with
  | keeps hmsg hc hk =>
    rw [hk.observedAt] at ht
    rw [hk.mode] at hm
    obtain ⟨hess, hdry⟩ := h t m ht hm hsup
    have hno : ∀ key good, ¬ Forgets key good x := fun key good =>
      not_forgets hc fun incoming retained hi => by rw [hmsg] at hi; cases hi
    refine ⟨hess.later (hno _ _), fun hd => ?_⟩
    rw [hk.dryRun] at hd
    rcases hdry hd with hs | ⟨y, hy, hlt⟩
    · exact Or.inl (hs.later (hno _ _))
    · exact Or.inr ⟨y, List.mem_append_left _ hy, hlt⟩
  | loses hl =>
    rw [hl.observedAt] at ht
    cases ht
  | replaces incoming s₀ hmsg hl hk =>
    cases hi : incoming.get? essModeKey with
    | none =>
      have hpair := hk.mode
      rw [hi, ht, hl.observedAt] at hpair
      cases (Prod.mk.inj hpair).2
    | some mode =>
      obtain ⟨hess, hdry⟩ := backed_report (l := l) hmsg hk hi ht hm hsup fun _ _ _ => hl.dryRun
      exact ⟨hess, fun hd => Or.inl (hdry hd)⟩
  | merges incoming retained hmsg hc hk =>
    have hpair : (retained = false → supportsSelection incoming →
        incoming.get? dryRunKey = none → x.1.dryRun ≠ some (.bool false)) ∧
        (retained = true → incoming.get? dryRunKey = some (.bool false) →
          incoming.get? essModeKey = none → ¬ HoldsEss x.2.clock.wall x.1) := by
      obtain ⟨s, clock, op⟩ := x
      cases op with
      | controller i r =>
        obtain ⟨rfl, rfl⟩ := Prod.mk.inj (Option.some.inj hmsg)
        exact hpaired
      | gateway snapshot =>
        -- A snapshot with a controller object clears the session first.
        refine absurd ?_ hc
        unfold controllerMessage at hmsg
        dsimp only at hmsg
        split at hmsg
        · next es hes => exact Or.inr ⟨es, hes⟩
        · cases hmsg
      | _ => cases hmsg
    cases hi : incoming.get? essModeKey with
    | some mode =>
      obtain ⟨hess, hdry⟩ := backed_report (l := l) hmsg hk hi ht hm hsup hpair.1
      exact ⟨hess, fun hd => Or.inl (hdry hd)⟩
    | none =>
      have hmode := hk.mode
      rw [hi, ht, hm] at hmode
      obtain ⟨hm', ht'⟩ := Prod.mk.inj hmode
      obtain ⟨hess, hdry⟩ := h t m ht'.symm hm'.symm hsup
      have hno : ∀ good, ¬ Forgets essModeKey good x := fun good =>
        not_forgets hc fun j r hj => by
          rw [hmsg] at hj
          obtain ⟨rfl, rfl⟩ := Prod.mk.inj (Option.some.inj hj)
          exact hi
      refine ⟨hess.later (hno _), fun hd => ?_⟩
      rw [hk.dryRun] at hd
      cases hv : incoming.get? dryRunKey with
      | none =>
        rw [hv] at hd
        have hkeep : ∀ good, ¬ Forgets dryRunKey good x := fun good =>
          not_forgets hc fun j r hj => by
            rw [hmsg] at hj
            obtain ⟨rfl, rfl⟩ := Prod.mk.inj (Option.some.inj hj)
            exact hv
        rcases hdry hd with hs | ⟨y, hy, hlt⟩
        · exact Or.inl (hs.later (hkeep _))
        · exact Or.inr ⟨y, List.mem_append_left _ hy, hlt⟩
      | some v =>
        rw [hv] at hd
        cases retained with
        | false =>
          refine Or.inl (Since.now ⟨⟨incoming, hmsg, hv.trans hd⟩, ?_⟩)
          obtain ⟨before, y, after, hl, ⟨-, hy⟩, -⟩ := hess
          rw [← hy]
          exact hlast y (by rw [hl]; simp)
        | true =>
          refine Or.inr ⟨x, by simp, ?_⟩
          by_contra hle
          exact hpair.2 rfl (hv.trans hd) hi ⟨t, m, ht'.symm, not_lt.mp hle, hm'.symm, hsup⟩

/-! ## Whole runs -/

theorem essBacked_run (cfg : Config) (portal : Str) {es : List Event}
    (hclock : Nondecreasing (fun e => e.clock.wall) es)
    (hpaired : ∀ x ∈ trace (step cfg) (MqttState.init portal) es, DryRunPaired x) :
    EssBacked (trace (step cfg) (MqttState.init portal) es)
        (replay (step cfg) (MqttState.init portal) es) ∧
      Tracked (replay (step cfg) (MqttState.init portal) es) := by
  induction es using List.reverseRecOn with
  | nil =>
    refine ⟨?_, ?_⟩
    · intro t mode ht
      cases ht
    · intro hd
      exact absurd rfl hd
  | append_singleton es e ih =>
    obtain ⟨hes, hlast⟩ := hclock.of_concat
    rw [trace_concat] at hpaired ⊢
    rw [replay_append, replay_singleton]
    obtain ⟨hbacked, htracked⟩ := ih hes fun x hx => hpaired x (List.mem_append_left _ hx)
    have howned := (claims_replay cfg (MqttState.init portal) es).owned Owned.nil
    have heffect := ess_step cfg e howned htracked
    refine ⟨essBacked_step hbacked (hpaired _ (by simp)) ?_ heffect, heffect.tracked htracked⟩
    intro y hy
    exact hlast _ (mem_of_mem_trace (step cfg) hy)

/-- **An ESS selection is authorized by live reports.** In a run whose messages are paired, if
    `_can_select_ess_mode` says yes, then live controller messages of the last 30 seconds
    reported both the supported `ess_mode` and `dry_run` false, and neither report was cleared
    or overtaken since. -/
theorem ess_selection_reported (cfg : Config) (portal : Str) (es : List Event) (now : Clock)
    (remote connected : Bool) (hclock : Nondecreasing (fun e => e.clock.wall) es)
    (hnow : ∀ e ∈ es, e.clock.wall ≤ now.wall)
    (hpaired : ∀ x ∈ trace (step cfg) (MqttState.init portal) es, DryRunPaired x)
    (hcan : (canSelectEssMode cfg now remote connected
      (replay (step cfg) (MqttState.init portal) es)).result = some true) :
    ReportedLive now.wall (trace (step cfg) (MqttState.init portal) es) := by
  obtain ⟨hbacked, -⟩ := essBacked_run cfg portal hclock hpaired
  generalize replay (step cfg) (MqttState.init portal) es = s at hcan hbacked
  obtain ⟨-, hready⟩ := canSelectEssMode_some_true hcan
  obtain ⟨⟨mode, hm, hsup⟩, ⟨t, ht, -, h30⟩, hdry⟩ := telemetryReady_eq_true.mp hready
  have hdry' : s.dryRun = some (.bool false) := by
    unfold Object.getD at hdry
    unfold MqttState.dryRun dryRunKey
    cases hg : s.currentState.get? (Str.lit "dry_run") with
    | none =>
      rw [hg] at hdry
      cases hdry
    | some v =>
      rw [hg] at hdry
      exact congrArg some hdry
  have htime : ∀ x ∈ trace (step cfg) (MqttState.init portal) es, x.2.clock.wall ≤ now.wall :=
    fun x hx => hnow _ (mem_of_mem_trace (step cfg) hx)
  obtain ⟨hess, hd⟩ := hbacked t mode ht hm hsup
  refine ⟨hess.mono (fun _ _ hp => hp) ?_, ?_⟩
  · rintro x hx ⟨hr, rfl⟩
    exact ⟨hr, by linarith, htime x hx⟩
  · rcases hd hdry' with hs | ⟨x, hx, hlt⟩
    · refine hs.mono (fun _ _ hp => hp) ?_
      rintro x hx ⟨hr, hle⟩
      exact ⟨hr, by linarith, htime x hx⟩
    · have := htime x hx
      linarith

/-- The ESS status object of a controller that supports the selection. -/
def essSupported : Value := .dict [(Str.lit "selection_supported", .bool true)]

/-- One live message with both fields. -/
def pairedReport : List Event :=
  [⟨⟨100, 5⟩, .controller (Dict.ofList [(essModeKey, essSupported), (dryRunKey, .bool false)])
    false⟩]

theorem ess_selection_reported_paired :
    ReportedLive 102 (trace (step .default) (MqttState.init (Str.lit "c0619ab")) pairedReport) := by
  refine ess_selection_reported .default (Str.lit "c0619ab") pairedReport ⟨102, 7⟩ false true
    (List.pairwise_singleton _ _) ?_ ?_ ?_
  · decide +kernel
  · intro x hx
    obtain rfl := List.mem_singleton.mp hx
    refine ⟨fun _ _ hd => ?_, fun hr => by cases hr⟩
    exact absurd hd (by decide)
  · decide +kernel

/-- A retained `dry_run` first, then a live tick with the ESS status only. -/
def retainedDryRun : List Event :=
  [⟨⟨100, 5⟩, .controller (Dict.ofList [(dryRunKey, .bool false)]) true⟩,
   ⟨⟨101, 6⟩, .controller (Dict.ofList [(essModeKey, essSupported)]) false⟩]

/-- The check says yes although `dry_run` was never reported live. -/
theorem retained_dry_run_authorizes :
    (∀ e ∈ retainedDryRun, e.clock.wall ≤ 102) ∧
    Nondecreasing (fun e => e.clock.wall) retainedDryRun ∧
    (canSelectEssMode .default ⟨102, 7⟩ false true
      (replay (step .default) (MqttState.init (Str.lit "c0619ab")) retainedDryRun)).result =
        some true ∧
    ¬ ReportedLive 102
      (trace (step .default) (MqttState.init (Str.lit "c0619ab")) retainedDryRun) := by
  refine ⟨by decide +kernel, ?_, by decide +kernel, ?_⟩
  · refine List.pairwise_pair.mpr ?_
    decide +kernel
  · rintro ⟨-, before, x, after, hl, ⟨⟨incoming, hmsg, hdry⟩, -⟩, -⟩
    have hx : x.2 ∈ retainedDryRun := by
      apply mem_of_mem_trace (step .default) (s := MqttState.init (Str.lit "c0619ab"))
      rw [hl]
      simp
    obtain ⟨s, e⟩ := x
    simp only [retainedDryRun, List.mem_cons, List.not_mem_nil, or_false] at hx
    rcases hx with rfl | rfl
    · simp [controllerMessage] at hmsg
    · simp only [controllerMessage, Option.some.injEq, Prod.mk.injEq, and_true] at hmsg
      subst hmsg
      have hnone : (Dict.ofList [(essModeKey, essSupported)]).get? dryRunKey = none := rfl
      rw [hnone] at hdry
      cases hdry

end InverterDashboard.Server
