import InverterDashboard.Server.EssAuthority

/-
  The provenance of the setpoint override status: a receipt time is only held while the shown
  status is the latest override observation of the source and that observation was live and
  valid. Each such observation raises a counter, so a status shown after the counter rose was
  observed after it (`override_observed_after`).
-/

namespace InverterDashboard.Server

open Python Cerbo Controller Temporal

def overrideKey : Str := Str.lit "setpoint_override"

/-! ## Observations -/

/-- The override value a step observes, and whether it was retained. -/
def overrideMessage (x : MqttState × Event) : Option (Value × Bool) :=
  match x.2.op with
  | .override value retained => some (value, retained)
  | _ => (controllerMessage x).bind fun m => (m.1.get? overrideKey).map fun value => (value, m.2)

/-- A live, valid observation of a status. -/
def ReportsOverride (status : OverrideStatus) (x : MqttState × Event) : Prop :=
  ∃ value, overrideMessage x = some (value, false) ∧ overrideStatus value = some status

/-- A snapshot of a gateway without override support. -/
def LacksOverride (x : MqttState × Event) : Prop :=
  ∃ snapshot, x.2.op = .gateway snapshot ∧
    ((snapshotCapabilities snapshot).getD (Str.lit "setpoint_override")).isTrue = false

/-- Nothing before this step is the latest override observation any more: another observation,
    a clear, or a gateway without support. -/
def EndsOverride (x : MqttState × Event) : Prop :=
  (overrideMessage x).isSome ∨ ClearsController x ∨ LacksOverride x

/-! ## What a step does to the status -/

/-- What an acknowledgement reads. -/
structure OverrideView where
  observedAt : Option ℚ
  shown : Option Value
  sequence : Nat

def MqttState.overrideView (s : MqttState) : OverrideView :=
  ⟨s.setpointOverrideObservedAt, s.currentState.get? overrideKey, s.overrideObservationSequence⟩

/-- The view after an observation. -/
def OverrideView.observe (now : ℚ) (value : Value) (retained : Bool) (v : OverrideView) :
    OverrideView :=
  match overrideStatus value with
  | some status => ⟨if retained then none else some now, some status.toValue,
      if retained then v.sequence else v.sequence + 1⟩
  | none => ⟨none, some .none, v.sequence⟩

/-- The view after a message that may bring an observation. -/
def OverrideView.receive (now : ℚ) (incoming : Object) (retained : Bool) (v : OverrideView) :
    OverrideView :=
  match incoming.get? overrideKey with
  | some value => v.observe now value retained
  | none => v

theorem view_foreign {s s' : MqttState} (h : KeepsForeign s s') (ho : Owned s.cerboClaimedKeys) :
    s'.overrideView = s.overrideView := by
  unfold MqttState.overrideView
  rw [h.current ho overrideKey (by decide) (by decide),
    show s'.setpointOverrideObservedAt = s.setpointOverrideObservedAt from
      congrArg ControllerPart.setpointOverrideObservedAt h.controller,
    show s'.overrideObservationSequence = s.overrideObservationSequence from
      congrArg ControllerPart.overrideObservationSequence h.controller]

theorem view_overlays (cfg : Config) {s : MqttState} (ho : Owned s.cerboClaimedKeys) :
    (applyCerboOverlays cfg s).state.overrideView = s.overrideView :=
  view_foreign (foreign_applyCerboOverlays cfg s) ho

theorem view_observe (clock : Clock) (incoming : Object) (retained : Bool) (s : MqttState) :
    (observe clock incoming retained s).state.overrideView =
      s.overrideView.receive clock.wall incoming retained := by
  have hover : ∀ value, (observeOverride clock.wall value retained s).overrideView =
      s.overrideView.observe clock.wall value retained := by
    intro value
    unfold observeOverride OverrideView.observe MqttState.overrideView
    cases overrideStatus value with
    | some status => simp only [Dict.get?_set, overrideKey, if_pos]
    | none => simp only [Dict.get?_set, overrideKey, if_pos]
  unfold observe
  extract_lets s₁ s₂
  have h₁ : s₁.overrideView = s.overrideView.receive clock.wall incoming retained := by
    unfold s₁ OverrideView.receive overrideKey
    cases incoming.get? (Str.lit "setpoint_override") with
    | some value => exact hover value
    | none => rfl
  have h₂ : s₂.overrideView = s.overrideView.receive clock.wall incoming retained := by
    unfold s₂
    split
    · exact h₁
    · exact h₁
  split
  · exact h₂
  · split
    · exact h₂
    · next measured _ =>
      have hset : (s₂.currentState.set (Str.lit "grid_backup_observed_at") measured).get?
          overrideKey = s₂.currentState.get? overrideKey := Dict.get?_set_ne _ _ (by decide)
      rw [← h₂]
      unfold MqttState.overrideView
      rw [← hset]
      rfl

theorem view_merge (cfg : Config) (clock : Clock) (incoming : Object) (retained : Bool)
    {s : MqttState} (ho : Owned s.cerboClaimedKeys) :
    (mergeDaemonState cfg clock incoming retained s).state.overrideView =
      s.overrideView.receive clock.wall incoming retained := by
  unfold mergeDaemonState
  extract_lets s₁ s₂ s₃
  have h₂ : s₂.overrideView = s.overrideView ∧ s₂.cerboClaimedKeys = s.cerboClaimedKeys := by
    unfold s₂
    split
    · exact ⟨rfl, rfl⟩
    · exact ⟨rfl, rfl⟩
  have h₃ : s₃.overrideView.receive clock.wall incoming retained =
      s.overrideView.receive clock.wall incoming retained := by
    have hshown : s₃.currentState.get? overrideKey = match incoming.get? overrideKey with
        | some v => some v
        | none => s₂.currentState.get? overrideKey :=
      mergeDaemonFields_plain _ _ _ (by decide) (by decide) (by decide)
    unfold OverrideView.receive
    split
    · next value hv =>
      -- The observation replaces the merged value.
      have hseq : s₃.overrideView.sequence = s.overrideView.sequence := by
        show s₂.overrideView.sequence = _
        rw [h₂.1]
      unfold OverrideView.observe
      rw [hseq]
    · next hv =>
      rw [hv] at hshown
      rw [← h₂.1]
      unfold MqttState.overrideView
      rw [hshown]
  have h₄ : (observe clock incoming retained s₃).state.overrideView =
      s.overrideView.receive clock.wall incoming retained :=
    (view_observe clock incoming retained s₃).trans h₃
  have howned : Owned (observe clock incoming retained s₃).state.cerboClaimedKeys := by
    refine (claims_observe clock incoming retained s₃).owned ?_
    show Owned s₂.cerboClaimedKeys
    rw [h₂.2]
    exact ho
  exact Call.andThen_state
    (P := fun x => x.overrideView = s.overrideView.receive clock.wall incoming retained) h₄
    fun _ => (view_overlays cfg howned).trans h₄

theorem view_clearDaemon (cfg : Config) {s : MqttState} (ho : Owned s.cerboClaimedKeys) :
    (clearDaemonState cfg s).state.overrideView.observedAt = none ∧
      (clearDaemonState cfg s).state.overrideView.sequence = s.overrideView.sequence := by
  have h : (clearDaemonState cfg s).state.overrideView = s.withoutDaemon.overrideView :=
    view_overlays cfg (s := s.withoutDaemon) ho
  rw [h]
  exact ⟨rfl, rfl⟩

/-- Everything a step can do to the status. -/
inductive OverrideEffect (x : MqttState × Event) (s' : MqttState) : Prop where
  | keeps : ¬ EndsOverride x → s'.overrideView = x.1.overrideView → OverrideEffect x s'
  | loses : s'.setpointOverrideObservedAt = none →
      s'.overrideObservationSequence = x.1.overrideObservationSequence ∨
        s'.overrideObservationSequence = x.1.overrideObservationSequence + 1 → OverrideEffect x s'
  | reports (status : OverrideStatus) : ReportsOverride status x →
      s'.overrideView = ⟨some x.2.clock.wall, some status.toValue,
        x.1.overrideObservationSequence + 1⟩ → OverrideEffect x s'

/-- The effect of an observation on a state whose counter is that of `x.1`. -/
theorem effect_observe {x : MqttState × Event} {s' : MqttState} {value : Value} {retained : Bool}
    {v : OverrideView} (hmsg : overrideMessage x = some (value, retained))
    (hseq : v.sequence = x.1.overrideObservationSequence)
    (hs : s'.overrideView = v.observe x.2.clock.wall value retained) : OverrideEffect x s' := by
  unfold OverrideView.observe at hs
  split at hs
  · next status hstatus =>
    cases retained with
    | true =>
      refine .loses (congrArg OverrideView.observedAt hs) (Or.inl ?_)
      exact (congrArg OverrideView.sequence hs).trans hseq
    | false =>
      refine .reports status ⟨value, hmsg, hstatus⟩ (hs.trans ?_)
      rw [hseq]
      rfl
  · refine .loses (congrArg OverrideView.observedAt hs) (Or.inl ?_)
    exact (congrArg OverrideView.sequence hs).trans hseq

theorem OverrideEffect.andKeeps {x : MqttState × Event} {s' s'' : MqttState}
    (h : OverrideEffect x s') (hs : s''.overrideView = s'.overrideView) : OverrideEffect x s'' := by
  cases h with
  | keeps hx hv => exact .keeps hx (hs.trans hv)
  | loses ht hseq =>
    refine .loses ((congrArg OverrideView.observedAt hs).trans ht) ?_
    rw [show s''.overrideObservationSequence = s'.overrideObservationSequence from
      congrArg OverrideView.sequence hs]
    exact hseq
  | reports status hx hv => exact .reports status hx (hs.trans hv)

/-- Dropping the status after a step loses it. -/
theorem OverrideEffect.andLoses {x : MqttState × Event} {s' s'' : MqttState}
    (h : OverrideEffect x s') (ht : s''.setpointOverrideObservedAt = none)
    (hseq : s''.overrideObservationSequence = s'.overrideObservationSequence) :
    OverrideEffect x s'' := by
  refine .loses ht ?_
  rw [hseq]
  cases h with
  | keeps hx hv => exact Or.inl (congrArg OverrideView.sequence hv)
  | loses ht hs => exact hs
  | reports status hx hv => exact Or.inr (congrArg OverrideView.sequence hv)

/-- The effect of a controller message merged into a state whose counter is that of `x.1`. -/
theorem effect_receive {x : MqttState × Event} {s₀ s' : MqttState} {incoming : Object}
    {retained : Bool} (hop : overrideMessage x = (incoming.get? overrideKey).map fun v => (v, retained))
    (hs : s'.overrideView = s₀.overrideView.receive x.2.clock.wall incoming retained)
    (hseq : s₀.overrideObservationSequence = x.1.overrideObservationSequence)
    (hnone : incoming.get? overrideKey = none →
      s₀.setpointOverrideObservedAt = none ∨ ¬ EndsOverride x ∧ s₀ = x.1) : OverrideEffect x s' := by
  unfold OverrideView.receive at hs
  split at hs
  · next value hv =>
    rw [hv] at hop
    exact effect_observe hop hseq hs
  · next hv =>
    rcases hnone hv with ht | ⟨hx, rfl⟩
    · exact .loses ((congrArg OverrideView.observedAt hs).trans ht)
        (Or.inl ((congrArg OverrideView.sequence hs).trans hseq))
    · exact .keeps hx hs

theorem not_endsOverride {x : MqttState × Event} (hmsg : overrideMessage x = none)
    (hclear : ¬ ClearsController x) (hcap : ¬ LacksOverride x) : ¬ EndsOverride x := by
  rintro (h | h | h)
  · rw [hmsg] at h
    cases h
  · exact hclear h
  · exact hcap h

theorem not_lacksOverride {s : MqttState} {clock : Clock} {op : MqttOp}
    (h : ∀ snapshot, op ≠ .gateway snapshot) : ¬ LacksOverride (s, ⟨clock, op⟩) :=
  fun ⟨snapshot, hop, _⟩ => h snapshot hop

/-- The effect of a snapshot. -/
theorem override_snapshot (cfg : Config) (clock : Clock) (snapshot : Object) {s : MqttState}
    (ho : Owned s.cerboClaimedKeys) :
    OverrideEffect (s, ⟨clock, .gateway snapshot⟩)
      (applySnapshotController cfg clock snapshot s).state := by
  unfold applySnapshotController
  extract_lets s₁ controller
  have hview₁ : s₁.overrideView = s.overrideView := rfl
  obtain ⟨hlost, hkept⟩ := view_clearDaemon cfg (s := s₁) ho
  have hcleared : OverrideEffect (s, ⟨clock, .gateway snapshot⟩) (clearDaemonState cfg s₁).state :=
    .loses hlost (Or.inl hkept)
  have hc : OverrideEffect (s, ⟨clock, .gateway snapshot⟩) controller.state ∨
      controller = .done s₁ ∧ overrideMessage (s, ⟨clock, .gateway snapshot⟩) = none ∧
        ¬ ClearsController (s, ⟨clock, .gateway snapshot⟩) := by
    unfold controller
    split
    · next es hes =>
      refine Or.inl (Call.andThen_state (P := OverrideEffect (s, ⟨clock, .gateway snapshot⟩))
        hcleared fun _ => ?_)
      have hmsg : overrideMessage (s, ⟨clock, .gateway snapshot⟩) =
          (Dict.get? (Dict.ofList es) overrideKey).map fun v => (v, false) := by
        unfold overrideMessage controllerMessage
        dsimp only
        rw [hes]
        rfl
      have howned : Owned (clearDaemonState cfg s₁).state.cerboClaimedKeys :=
        (claims_clearDaemon cfg s₁).owned ho
      exact effect_receive hmsg (view_merge cfg clock _ false howned) hkept fun _ => Or.inl hlost
    · exact Or.inl hcleared
    · next hdict hnull =>
      refine Or.inr ⟨rfl, ?_, ?_⟩
      · unfold overrideMessage controllerMessage
        dsimp only
        split
        · next es hes => exact absurd hes (hdict es)
        · rfl
      · rintro (hn | ⟨es, hes⟩)
        · exact hnull hn
        · exact hdict es hes
  rcases hc with hc | ⟨hdone, hmsg, hclear⟩
  · refine Call.andThen_state (P := OverrideEffect (s, ⟨clock, .gateway snapshot⟩)) hc fun _ => ?_
    split
    · exact hc
    · exact hc.andLoses rfl rfl
  · rw [hdone]
    show OverrideEffect _ (if ((snapshotCapabilities snapshot).getD
      (Str.lit "setpoint_override")).isTrue then Call.done s₁ else _).state
    split
    · next hcap =>
      refine .keeps (not_endsOverride hmsg hclear ?_) hview₁
      rintro ⟨snapshot', hop, hlacks⟩
      obtain rfl := MqttOp.gateway.inj hop
      rw [hcap] at hlacks
      cases hlacks
    · exact .loses rfl (Or.inl rfl)

theorem override_step (cfg : Config) {s : MqttState} (e : Event) (ho : Owned s.cerboClaimedKeys) :
    OverrideEffect (s, e) (step cfg s e) := by
  obtain ⟨clock, op⟩ := e
  have hforeign : ∀ {s'}, overrideMessage (s, ⟨clock, op⟩) = none →
      ¬ ClearsController (s, ⟨clock, op⟩) → (∀ snapshot, op ≠ .gateway snapshot) →
      KeepsForeign s s' → OverrideEffect (s, ⟨clock, op⟩) s' := fun hm hc hg hs =>
    .keeps (not_endsOverride hm hc (not_lacksOverride hg)) (view_foreign hs ho)
  cases op with
  | native topic payload retained =>
    exact hforeign rfl id (by simp) (foreign_native cfg clock topic payload retained s)
  | snapshot snapshot => exact hforeign rfl id (by simp) (foreign_snapshot cfg clock snapshot s)
  | clearNative => exact hforeign rfl id (by simp) (foreign_clearCerbo cfg s)
  | controller incoming retained =>
    have hmsg : overrideMessage (s, ⟨clock, .controller incoming retained⟩) =
        (incoming.get? overrideKey).map fun v => (v, retained) := rfl
    refine effect_receive hmsg (view_merge cfg clock incoming retained ho) rfl fun hnone =>
      Or.inr ⟨?_, rfl⟩
    refine not_endsOverride ?_ id (not_lacksOverride (by simp))
    show (incoming.get? overrideKey).map _ = none
    rw [hnone]
    rfl
  | controllerGone =>
    obtain ⟨hlost, hkept⟩ := view_clearDaemon cfg ho
    exact .loses hlost (Or.inl hkept)
  | override value retained =>
    refine effect_observe (v := s.overrideView) rfl rfl ?_
    have hget : (Dict.empty.set (Str.lit "setpoint_override") value).get? overrideKey =
        some value := by
      rw [Dict.get?_set]
      exact if_pos rfl
    refine (view_observe clock _ retained s).trans ?_
    unfold OverrideView.receive
    rw [hget]
  | gateway snapshot =>
    have hc := override_snapshot cfg clock snapshot ho
    refine Call.andThen_state (P := OverrideEffect (s, ⟨clock, .gateway snapshot⟩)) hc fun _ => ?_
    refine hc.andKeeps (view_foreign (foreign_snapshot cfg clock snapshot _) ?_)
    exact (claims_snapshotController cfg clock snapshot s).owned ho
  | readController =>
    show OverrideEffect _ (controllerAvailable cfg clock s).state
    unfold controllerAvailable
    split
    · next hnone =>
      refine .keeps (not_endsOverride rfl ?_ (not_lacksOverride (by simp))) rfl
      rintro ⟨t, ht, -⟩
      change s.daemonReceivedAt = some t at ht
      rw [hnone] at ht
      cases ht
    · next t ht =>
      split
      · obtain ⟨hlost, hkept⟩ := view_clearDaemon cfg ho
        have hcleared : OverrideEffect (s, ⟨clock, .readController⟩)
            (clearDaemonState cfg s).state := .loses hlost (Or.inl hkept)
        exact Call.andThen_state (P := OverrideEffect (s, ⟨clock, .readController⟩)) hcleared
          fun _ => hcleared
      · next hexp =>
        refine .keeps (not_endsOverride rfl ?_ (not_lacksOverride (by simp))) rfl
        rintro ⟨t', ht', hlt⟩
        change s.daemonReceivedAt = some t' at ht'
        rw [ht] at ht'
        obtain rfl := Option.some.inj ht'
        exact hexp hlt
  | portal portal => exact hforeign rfl id (by simp) (foreign_discoverPortal portal s)

/-! ## Whole runs -/

/-- A held receipt time is that of the latest observation, a live one of the shown status, and
    no observation came after it. -/
def OverrideBacked (cfg : Config) (l : List (MqttState × Event)) (s : MqttState) : Prop :=
  ∀ t, s.setpointOverrideObservedAt = some t → ∃ status : OverrideStatus,
    s.currentState.get? overrideKey = some status.toValue ∧
    overrideStatus status.toValue = some status ∧
    Since (fun x => ¬ EndsOverride x) (fun x => ReportsOverride status x ∧ x.2.clock.wall = t ∧
      (step cfg x.1 x.2).overrideObservationSequence = s.overrideObservationSequence) l

theorem overrideBacked_step {cfg : Config} {l : List (MqttState × Event)}
    {x : MqttState × Event} (h : OverrideBacked cfg l x.1)
    (heffect : OverrideEffect x (step cfg x.1 x.2)) :
    OverrideBacked cfg (l ++ [x]) (step cfg x.1 x.2) := by
  intro t ht
  cases heffect with
  | keeps hx hv =>
    have hseq : (step cfg x.1 x.2).overrideObservationSequence =
        x.1.overrideObservationSequence := congrArg OverrideView.sequence hv
    have hshown : (step cfg x.1 x.2).currentState.get? overrideKey =
        x.1.currentState.get? overrideKey := congrArg OverrideView.shown hv
    have ht' : x.1.setpointOverrideObservedAt = some t :=
      (congrArg OverrideView.observedAt hv).symm.trans ht
    obtain ⟨status, hs, hvalid, hsince⟩ := h t ht'
    refine ⟨status, hshown.trans hs, hvalid, ?_⟩
    rw [hseq]
    exact hsince.later hx
  | loses hnone hseq =>
    rw [hnone] at ht
    cases ht
  | reports status hx hv =>
    have ht' : some x.2.clock.wall = some t := (congrArg OverrideView.observedAt hv).symm.trans ht
    obtain ⟨value, hmsg, hstatus⟩ := hx
    refine ⟨status, congrArg OverrideView.shown hv, overrideStatus_toValue hstatus, ?_⟩
    exact Since.now ⟨⟨value, hmsg, hstatus⟩, Option.some.inj ht', rfl⟩

theorem overrideBacked_run (cfg : Config) (portal : Str) (es : List Event) :
    OverrideBacked cfg (trace (step cfg) (MqttState.init portal) es)
      (replay (step cfg) (MqttState.init portal) es) := by
  induction es using List.reverseRecOn with
  | nil =>
    intro t ht
    cases ht
  | append_singleton es e ih =>
    rw [trace_concat, replay_append]
    have howned := (claims_replay cfg (MqttState.init portal) es).owned Owned.nil
    exact overrideBacked_step ih (override_step cfg e howned)

theorem sequence_step (cfg : Config) {s : MqttState} (e : Event) (ho : Owned s.cerboClaimedKeys) :
    s.overrideObservationSequence ≤ (step cfg s e).overrideObservationSequence := by
  cases override_step cfg e ho with
  | keeps hx hv => exact le_of_eq (congrArg OverrideView.sequence hv).symm
  | loses ht hseq =>
    rcases hseq with h | h
    · exact le_of_eq h.symm
    · change (step cfg s e).overrideObservationSequence = s.overrideObservationSequence + 1 at h
      omega
  | reports status hx hv =>
    have h : (step cfg s e).overrideObservationSequence = s.overrideObservationSequence + 1 :=
      congrArg OverrideView.sequence hv
    omega

/-- **A status shown after the counter rose** was observed live after that point of the run, and
    is the latest observation. -/
theorem override_observed_after (cfg : Config) (portal : Str) (es fs : List Event) {t : ℚ}
    (ht : (replay (step cfg) (MqttState.init portal) (es ++ fs)).setpointOverrideObservedAt =
      some t)
    (hseq : (replay (step cfg) (MqttState.init portal) es).overrideObservationSequence <
      (replay (step cfg) (MqttState.init portal) (es ++ fs)).overrideObservationSequence) :
    ∃ status : OverrideStatus,
      (replay (step cfg) (MqttState.init portal) (es ++ fs)).currentState.get? overrideKey =
        some status.toValue ∧
      overrideStatus status.toValue = some status ∧
      Since (fun x => ¬ EndsOverride x) (fun x => ReportsOverride status x ∧ x.2.clock.wall = t)
        (trace (step cfg) (replay (step cfg) (MqttState.init portal) es) fs) := by
  obtain ⟨status, hs, hvalid, hsince⟩ := overrideBacked_run cfg portal (es ++ fs) t ht
  refine ⟨status, hs, hvalid, ?_⟩
  rw [trace_append] at hsince
  rcases hsince.append with hlate | ⟨hearly, -⟩
  · exact hlate.mono (fun _ _ hp => hp) fun _ _ hq => ⟨hq.1, hq.2.1⟩
  · -- An observation before the point cannot have raised the counter past it.
    exfalso
    obtain ⟨before, x, after, hl, ⟨-, -, hx⟩, -⟩ := hearly
    have hmem : x ∈ trace (step cfg) (MqttState.init portal) es := by
      rw [hl]
      simp
    have hle := measure_le_of_mem_trace (step cfg) (I := fun s => Owned s.cerboClaimedKeys)
      (f := MqttState.overrideObservationSequence) (fun s e ho => (claims_step cfg s e).owned ho)
      (fun s e ho => sequence_step cfg e ho) Owned.nil hmem
    omega

end InverterDashboard.Server
