import Mathlib.Tactic.Linarith
import InverterDashboard.Commands.Dispatch
import InverterDashboard.Server.OverrideStatus

/-
  The acknowledgement of a setpoint override. The task returns only at a moment at which the
  latest override observation of its source arrived after the write was started, was live and
  valid, is at most 30 seconds old, and carries the command's own request and value.

  The dispatch leaves a record with the log of the source (`Started`); what the log has gained
  since is what arrived after it.
-/

namespace InverterDashboard.Commands

open Python Cerbo Controller Server Temporal Async

/-! ## Equal statuses -/

theorem overrideStatus_valid {value : Value} {s : OverrideStatus}
    (h : overrideStatus value = some s) : int32OrNull s.value = true ∧
      textOrNull s.lastError = true ∧ textOrNull s.requestId = true := by
  unfold overrideStatus at h
  obtain ⟨es, -, h⟩ := Option.bind_eq_some_iff.mp h
  obtain ⟨v, -, h⟩ := Option.bind_eq_some_iff.mp h
  obtain ⟨e, -, h⟩ := Option.bind_eq_some_iff.mp h
  obtain ⟨r, -, h⟩ := Option.bind_eq_some_iff.mp h
  split at h
  · next hc =>
    obtain rfl := Option.some.inj h
    simpa [and_assoc] using hc
  · cases h

/-- On 32-bit integers and null, `==` is equality. -/
theorem eq_of_eqv_int32 {a b : Value} (ha : int32OrNull a = true) (hb : int32OrNull b = true)
    (h : a.eqv b = true) : a = b := by
  cases a with
  | none =>
    cases b with
    | none => rfl
    | int j => simp [Value.eqv] at h
    | _ => simp [int32OrNull] at hb
  | int i =>
    cases b with
    | none => simp [Value.eqv, Value.rat?] at h
    | int j =>
      have hij : (j : ℚ) = (i : ℚ) := by simpa [Value.eqv, Value.rat?] using h
      rw [Int.cast_inj.mp hij]
    | _ => simp [int32OrNull] at hb
  | _ => simp [int32OrNull] at ha

/-- A request id is only equal to itself. -/
theorem eq_of_eqv_requestId {a b : Value} (ha : textOrNull a = true)
    (hb : requestIdValid b = true) (h : a.eqv b = true) : a = b := by
  cases b with
  | str t =>
    cases a with
    | none => simp [Value.eqv] at h
    | str s =>
      have hst : s = t := by simpa [Value.eqv] using h
      rw [hst]
    | _ => simp [textOrNull] at ha
  | _ => simp [requestIdValid] at hb

/-- The status that confirms a command. -/
def expectedStatus (body : OverrideBody) : OverrideStatus :=
  ⟨body.value, .none, body.requestId⟩

/-- A confirming comparison has seen the expected status after the counter rose. -/
theorem compareAck_confirmed {body : OverrideBody} {dispatched sequence : Nat} {state : Object}
    (h : compareAck body dispatched sequence state = .confirmed) :
    dispatched < sequence ∧
      overrideStatus (state.getD (Str.lit "setpoint_override")) = some (expectedStatus body) := by
  unfold compareAck at h
  split at h
  · next status hs =>
    obtain ⟨hvalue, -, hid⟩ := overrideStatus_valid hs
    split at h
    · next hseen =>
      split at h
      · cases h
      · next hmatch =>
        simp only [Bool.and_eq_true, decide_eq_true_eq] at hseen
        simp only [Bool.or_eq_true, Bool.not_eq_true', not_or, Bool.not_eq_false,
          Value.isNone_eq_true] at hmatch
        refine ⟨hseen.1, hs.trans (congrArg some ?_)⟩
        obtain ⟨v, e, r⟩ := status
        have hv : v = body.value := eq_of_eqv_int32 hvalue body.valid.1 hmatch.2
        have he : e = .none := hmatch.1
        have hr : r = body.requestId := eq_of_eqv_requestId hid body.valid.2 hseen.2
        rw [hv, he, hr]
        rfl
    · cases h
  · cases h

/-! ## The moment of confirmation -/

section Confirmation

variable {settings : Settings} {i : Nat} {l : Label} {body : OverrideBody} {polls : Nat}

/-- At this point, the latest override observation of the current source was received after the
    write of job `i` had started, live and valid, in the last 30 seconds, and it carries the
    command's request and value and no error. -/
def Confirmed (settings : Settings) (i : Nat) (l : Label) (body : OverrideBody)
    (h : List (Started Clock World Write)) (c : Clock) (w : World) : Prop :=
  ∃ x ∈ h, x.job = i ∧ l.write = some x.output ∧ Selected settings l.ticket w.mqttState w ∧
    ∃ j after, l.ticket.owner = some j ∧
      (w.sources j).events = (x.state.sources j).events ++ after ∧
      Since (fun y => ¬ EndsOverride y)
        (fun y => ReportsOverride (expectedStatus body) y ∧ c.wall - 30 ≤ y.2.clock.wall ∧
          y.2.clock.wall ≤ c.wall)
        (trace (step settings.cfg) (x.state.state settings j) after)

/-- What a passed check of an override says of the captured state. -/
theorem allowed_override {c : Clock} {w : World} (hwork : l.work = .setpointOverride body polls)
    (h : l.Allowed settings c w) : Selected settings l.ticket w.mqttState w ∧
      ∃ j, l.ticket.owner = some j ∧
        controllerAvailable settings.cfg c (w.state settings j) =
          ⟨w.state settings j, some true⟩ ∧
        fresh c.wall (w.state settings j).setpointOverrideObservedAt = true := by
  obtain ⟨hsel, j, hj, hauth⟩ := h
  unfold Label.source at hsel
  unfold Label.AuthorityOver at hauth
  rw [hwork] at hsel hauth
  obtain ⟨-, havail, hsup⟩ := canControllerCommand_some_true hauth
  unfold commandSupported at hsup
  rw [Bool.and_eq_true] at hsup
  exact ⟨hsel, j, hj, havail, hsup.2⟩

/-- **A confirming read.** Right after a passed check, a read that confirms is a moment of
    confirmation. -/
theorem readAck_ensures {c : Clock} {w : World} (hwork : l.work = .setpointOverride body polls)
    (hallowed : l.Allowed settings c w) {h : List (Started Clock World Write)}
    {x : Started Clock World Write} (hx : x ∈ h) (hjob : x.job = i)
    (hwrite : l.write = some x.output) (hlater : Extends x.state w) {j : Nat}
    (hj : l.ticket.owner = some j) :
    Ensures Extends
      (readAck settings l body (x.state.state settings j).overrideObservationSequence) c w
      fun w' verdict => Extends w w' ∧ (verdict = .confirmed → Confirmed settings i l body h c w') := by
  obtain ⟨hsel, j', hj', havail, hfresh⟩ := allowed_override hwork hallowed
  obtain rfl : j' = j := Option.some.inj (hj'.symm.trans hj)
  have hget := getState_available havail
  have hsame : (w.observe j' ⟨c, .readController⟩).state settings j' = w.state settings j' := by
    apply state_read (.readState settings.cfg)
    show (getState settings.cfg c (w.state settings j')).state = _
    rw [hget]
  unfold readAck
  rw [hj]
  refine .andThen .trans (askOwner_ensures fun k state hk hr => ?_)
  obtain rfl : j' = k := Option.some.inj (hj.symm.trans hk)
  change (getState settings.cfg c (w.state settings j')).result = some state at hr
  rw [hget] at hr
  obtain rfl := Option.some.inj hr
  refine .read .refl ⟨.observe _ _ _, fun hconf => ?_⟩
  rw [hsame] at hconf
  obtain ⟨hseq, hstatus⟩ := compareAck_confirmed hconf
  rw [shownState_getD _ (by decide)] at hstatus
  obtain ⟨t, ht, hle, h30⟩ := fresh_eq_true.mp hfresh
  have hext : Extends x.state (w.observe j' ⟨c, .readController⟩) :=
    hlater.trans (.observe _ _ _)
  obtain ⟨after, hafter⟩ := hext.events j'
  have hstate : w.state settings j' = replay (step settings.cfg)
      (MqttState.init (x.state.sources j').portal) ((x.state.sources j').events ++ after) := by
    rw [← hsame, hafter]
    unfold World.state SourceLog.state
    rw [hext.portal j']
  rw [hstate] at ht hseq hstatus
  obtain ⟨status, hshown, hvalid, hsince⟩ := override_observed_after settings.cfg _ _ after ht hseq
  obtain rfl : status = expectedStatus body := by
    unfold Object.getD at hstatus
    change overrideStatus ((Dict.get? _ overrideKey).getD .none) = _ at hstatus
    rw [hshown] at hstatus
    exact Option.some.inj (hvalid.symm.trans hstatus)
  refine ⟨x, hx, hjob, hwrite, hsel.observe _ _, j', after, hj, hafter.symm, ?_⟩
  refine hsince.mono (fun _ _ hp => hp) fun y _ hy => ⟨hy.1, ?_, ?_⟩
  · rw [hy.2]
    linarith
  · rw [hy.2]
    exact hle

/-! ## The task -/

/-- A round through the gateway ends right after a passed check. -/
theorem wp_fetchAck (hl : l.WellFormed settings) {hs : List (Started Clock World Write)}
    {c : Clock} {w : World} :
    wp Extends i (l.MayStart settings) (fetchAck settings l)
      (Returns fun h c w' _ => hs <+: h ∧ Extends w w' ∧ l.Allowed settings c w') hs c w := by
  unfold fetchAck
  refine wp_andThen (wp_withGatewayClient fun h₁ c₁ w₁ hh₁ hw₁ => ?_)
  refine wp_fetchSnapshot fun h₂ c₂ w₂ snapshot hh₂ hw₂ h₃ c₃ w₃ hh₃ hw₃ => ?_
  have hw₃' := hw₁.trans (hw₂.trans hw₃)
  refine wp_ofSync ((current_ensures hl).related.mono ?_)
  rintro w₄ - ⟨hw₄, -⟩
  refine wp_ofSync (.expect .refl fun controller _ => ?_)
  have hobserve : Ensures Extends (observeAck l controller) c₃ w₄ fun w' _ => Extends w₄ w' := by
    unfold observeAck
    split
    · exact ⟨.observe _ _ _, fun _ _ => .observe _ _ _⟩
    · exact .fail .refl
  refine wp_ofSync (hobserve.mono ?_)
  intro w₅ _ hw₅
  refine wp_andThen (wp_awaitDone fun h₆ c₆ w₆ hh₆ hw₆ => ?_)
  refine wp_ofSync ((current_ensures hl).related.mono ?_)
  rintro w₇ - ⟨hw₇, hallowed⟩
  refine returns_some ⟨?_, ?_, hallowed⟩
  · exact hh₁.trans (hh₂.trans (hh₃.trans hh₆))
  · exact hw₃'.trans (hw₄.trans (hw₅.trans (hw₆.trans hw₇)))

/-- **Waiting for the acknowledgement** ends at a moment of confirmation. -/
theorem wp_waitOverrideAck (hl : l.WellFormed settings)
    (hwork : l.work = .setpointOverride body polls) {x : Started Clock World Write}
    (hjob : x.job = i) (hwrite : l.write = some x.output) {j : Nat}
    (hj : l.ticket.owner = some j) (n : Nat) {hs : List (Started Clock World Write)} {c : Clock}
    {w : World} (hx : x ∈ hs) (hlater : Extends x.state w) :
    wp Extends i (l.MayStart settings)
      (waitOverrideAck settings l body (x.state.state settings j).overrideObservationSequence n)
      (Returns fun h c w _ => Confirmed settings i l body h c w) hs c w := by
  induction n generalizing hs c w with
  | zero =>
    unfold waitOverrideAck
    exact returns_none
  | succ n ih =>
    unfold waitOverrideAck
    refine wp_ofSync ((current_ensures hl).related.mono ?_)
    rintro w₁ - ⟨hw₁, hallowed⟩
    refine wp_andThen ?_
    -- Either way, the read follows a passed check in the same segment.
    have hround : ∀ verdicts : Ack → Code Unit, verdicts .confirmed = .done (some ()) →
        verdicts .refused = .done none →
        verdicts .absent = (awaitDone.andThen fun _ => waitOverrideAck settings l body
          (x.state.state settings j).overrideObservationSequence n) →
        ∀ h' c' w', hs <+: h' → Extends w₁ w' → l.Allowed settings c' w' →
          wp Extends i (l.MayStart settings)
            (.ofSync (readAck settings l body
              (x.state.state settings j).overrideObservationSequence) verdicts)
            (Returns fun h c w _ => Confirmed settings i l body h c w) h' c' w' := by
      intro verdicts hconfirmed hrefused habsent h' c' w' hh' hw' hallowed'
      have hx' : x ∈ h' := hh'.subset hx
      have hlater' : Extends x.state w' := hlater.trans (hw₁.trans hw')
      refine wp_ofSync ((readAck_ensures hwork hallowed' hx' hjob hwrite hlater' hj).mono ?_)
      rintro w'' verdict ⟨hw'', hconf⟩
      cases verdict with
      | confirmed =>
        rw [hconfirmed]
        exact returns_some (hconf rfl)
      | refused =>
        rw [hrefused]
        exact returns_none
      | absent =>
        rw [habsent]
        refine wp_andThen (wp_awaitDone fun h₃ c₃ w₃ hh₃ hw₃ => ?_)
        exact ih (hh₃.subset hx') (hlater'.trans (hw''.trans hw₃))
    split
    · refine wp_mono (wp_fetchAck hl) ?_
      rintro h' c' w' r hr a rfl
      obtain ⟨hh', hw', hallowed'⟩ := hr a rfl
      exact hround _ rfl rfl rfl h' c' w' hh' hw' hallowed'
    · exact returns_some
        (hround _ rfl rfl rfl hs c w₁ (List.prefix_refl _) (.refl _) hallowed)

/-- **The override task** returns only at a moment of confirmation. -/
theorem wp_sendOverride (hl : l.WellFormed settings)
    (hwork : l.work = .setpointOverride body polls) {hs : List (Started Clock World Write)}
    {c : Clock} {w : World} :
    wp Extends i (l.MayStart settings) (sendOverride settings l body polls)
      (Returns fun h c w _ => Confirmed settings i l body h c w) hs c w := by
  have hwrite : l.write = if l.ticket.remote then
      some (.post ControllerCommand.setpointOverride.name (overrideValue body))
      else some (.publish (Str.lit "inverter/cmd/" ++ ControllerCommand.setpointOverride.name)
        (some (overrideValue body))) := by
    unfold Label.write
    rw [hwork]
    rfl
  have hdispatch : ∀ h' c' w', wp Extends i (l.MayStart settings)
      ((dispatch settings l .setpointOverride (overrideValue body)).andThen fun sequence =>
        waitOverrideAck settings l body sequence polls)
      (Returns fun h c w _ => Confirmed settings i l body h c w) h' c' w' := by
    intro h' c' w'
    refine wp_andThen (wp_dispatch hl hwrite ?_)
    intro h₁ c₁ w₁ w₂ h₂ c₂ j out hallowed hout hj hh hw
    have hx : (⟨i, c₁, w₁, out⟩ : Started Clock World Write) ∈ h₂ := hh.subset (by simp)
    exact wp_waitOverrideAck (x := ⟨i, c₁, w₁, out⟩) hl hwork rfl hout hj polls hx hw
  unfold sendOverride
  refine wp_ofSync ((current_ensures hl).mono fun w₁ _ _ => ?_)
  refine wp_andThen ?_
  split
  · exact wp_andThen (wp_preflight fun h' c' w' _ _ _ => returns_some (hdispatch h' c' w'))
  · exact returns_some (hdispatch _ _ _)

end Confirmation

end InverterDashboard.Commands
