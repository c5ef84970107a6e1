import InverterDashboard.Commands.Override

/-
  What the command paths guarantee on every run: the order in which commands are accepted,
  tasks are resumed, sources are replaced and messages arrive is arbitrary.
-/

namespace InverterDashboard.Commands

open Python Cerbo Controller Server Temporal Async

section Guarantees

variable {settings : Settings}

/-! ## Accepting a command -/

/-- What accepting leaves behind: a task of an allowed, well-formed command. -/
def Accepted (settings : Settings) (w : World) (r : Label × (Reply → Code Unit)) : Prop :=
  r.1.WellFormed settings ∧ Selected settings r.1.ticket (r.1.source w) w ∧
    r.2 = r.1.task settings

theorem runEssSelection_ensures {l : Label} {c : Clock} {w : World}
    (hl : l.WellFormed settings) (hsel : Selected settings l.ticket (l.source w) w) :
    Ensures Extends (runEssSelection settings l) c w (Accepted settings) :=
  .andThen .trans (.require .refl fun _ => .read .refl ⟨hl, hsel, rfl⟩)

theorem acceptWork_ensures {client : Option Nat} {work : Ticket → World → Work} {c : Clock}
    {w : World} (hwork : ∀ t w, (Label.mk t (work t w)).WellFormed settings) :
    Ensures Extends (acceptWork settings client work) c w (Accepted settings) := by
  refine .andThen .trans (.read .refl ?_)
  refine .andThen .trans (.read .refl ?_)
  refine .andThen .trans ((current_ensures (hwork _ _)).mono fun w' _ hallowed => ?_)
  exact runEssSelection_ensures (hwork _ _) hallowed.selected

theorem acceptWaterMode_ensures {client : Option Nat} {which mode : Value} {c : Clock}
    {w : World} :
    Ensures Extends (acceptWaterMode settings client which mode) c w (Accepted settings) := by
  refine .andThen .trans (.expect .refl fun request _ => ?_)
  refine .andThen .trans (.read .refl ?_)
  refine .andThen .trans (.expect .refl fun live hlive => ?_)
  refine .andThen .trans (.require .refl fun _ => ?_)
  refine .andThen .trans (.expect .refl fun inst hinst => ?_)
  refine .andThen .trans (.require .refl fun _ => ?_)
  refine .andThen .trans (.read .refl ?_)
  obtain ⟨happ, hgateway, hmqtt⟩ := waterContext_eq_some hlive
  exact runEssSelection_ensures ⟨rfl, hinst⟩ ⟨happ.symm, rfl, hgateway, hmqtt⟩

theorem begins_ensures (command : Command) (c : Clock) (w : World) :
    Ensures Extends (begins settings command) c w (Accepted settings) := by
  obtain ⟨client, request⟩ := command
  cases request with
  | publish action payload => exact acceptWork_ensures fun _ _ => trivial
  | selectEssMode data =>
    exact .andThen .trans (.expect .refl fun body _ => acceptWork_ensures fun _ _ => trivial)
  | setWaterMode which mode => exact acceptWaterMode_ensures
  | sendController name data polls =>
    refine .andThen .trans (.expect .refl fun work hwork => acceptWork_ensures fun _ _ => ?_)
    cases name with
    | setpointOverride =>
      obtain ⟨body, -, rfl⟩ := Option.map_eq_some_iff.mp hwork
      trivial
    | electricityTariff =>
      obtain ⟨body, -, rfl⟩ := Option.map_eq_some_iff.mp hwork
      trivial
  | nativeNotification name => exact acceptWork_ensures fun _ _ => trivial

/-! ## Tasks and returns -/

/-- Where a task ends that did not raise: an override at a moment of confirmation. -/
def Finished (settings : Settings) (i : Nat) (l : Label) (h : List (Started Clock World Write))
    (c : Clock) (w : World) (r : Option Unit) : Prop :=
  r = some () → ∀ body polls, l.work = .setpointOverride body polls →
    Confirmed settings i l body h c w

theorem Safe.finished {l : Label} {i : Nat} {p : Code Unit}
    {hs : List (Started Clock World Write)} {c : Clock} {w : World}
    (h : Safe settings l i p hs c w) (hwork : ∀ body polls, l.work ≠ .setpointOverride body polls) :
    wp Extends i (l.MayStart settings) p (Finished settings i l) hs c w :=
  wp_mono h fun _ _ _ _ _ _ body polls hb => absurd hb (hwork body polls)

/-- **Every task** starts only what it may, and ends where it should. -/
theorem wp_send {l : Label} {i : Nat} {hs : List (Started Clock World Write)} {c : Clock}
    {w : World} (hl : l.WellFormed settings) :
    wp Extends i (l.MayStart settings) (l.send settings) (Finished settings i l) hs c w := by
  unfold Label.send
  cases hwork : l.work with
  | publish action payload => exact (safe_sendPublish hl hwork).finished (by simp [hwork])
  | selectEssMode body => exact (safe_sendEssMode hl hwork).finished (by simp [hwork])
  | waterMode which inst mode portal =>
    exact (safe_sendWaterMode hl hwork).finished (by simp [hwork])
  | electricityTariff body => exact (safe_sendTariff hl hwork).finished (by simp [hwork])
  | notification name portal => exact (safe_sendNotification hl hwork).finished (by simp [hwork])
  | setpointOverride body polls =>
    refine wp_mono (wp_sendOverride hl hwork) ?_
    rintro h c w r hr rfl body' polls' hwork'
    obtain ⟨rfl, rfl⟩ := Work.setpointOverride.inj (hwork.symm.trans hwork')
    exact hr () rfl

theorem returns_ensures (l : Label) (r : Option Unit) (c : Clock) (w : World) :
    Extends w (returns settings l r c w).1 ∧
      ((returns settings l r c w).2 = some () →
        l.ticket.generation = w.sourceGeneration ∧ r = some ()) := by
  have h : Ensures Extends (returns settings l r) c w fun _ _ =>
      l.ticket.generation = w.sourceGeneration ∧ r = some () := by
    refine .andThen .trans (.require .refl fun hgen => ?_)
    refine .andThen .trans (.expect .refl fun u hu => ?_)
    have hboth : l.ticket.generation = w.sourceGeneration ∧ r = some () :=
      ⟨of_decide_eq_true hgen, hu⟩
    split
    · next name portal hwork =>
      have hl : l.WellFormed settings := by
        unfold Label.WellFormed
        rw [hwork]
        trivial
      exact (current_ensures hl).mono fun _ _ _ => hboth
    · exact .read .refl hboth
  exact ⟨h.1, fun hs => h.2 () hs⟩

/-- The command paths satisfy what the scheduler asks for. -/
theorem verified (settings : Settings) : Verified (scheduler settings) Extends
    (fun l w => Selected settings l.ticket (l.source w) w) (Label.MayStart settings)
    (Finished settings) where
  refl := .refl
  trans := .trans
  act := .act
  begins := fun command c w => (begins_ensures command c w).1
  accepted := fun command c w l task h => ((begins_ensures command c w).2 _ h).2.1
  task := by
    intro command c w l task h i reply hs c' w' _
    obtain ⟨hl, -, htask⟩ := (begins_ensures command c w).2 _ h
    obtain rfl : task = l.task settings := htask
    cases reply with
    | failed =>
      intro hr
      cases hr
    | ok => exact wp_send hl
    | snapshot o => exact wp_send hl
  returns := fun l r c w => (returns_ensures l r c w).1

/-! ## Runs -/

/-- The system after a run that starts in the world `w`. -/
def run (settings : Settings) (w : World) (es : List (Clock × Action Reply WorldOp Command)) :
    System Clock World Write Reply Label :=
  replay (System.step (scheduler settings)) (System.initial w) es

/-- **Writes are guarded and returns are honest.** On every run, a physical write is started
    only by a job whose captured selection is current and whose authority holds at that point.
    A command returns only if its task ended normally and the source generation was the captured
    one when it did, and at every earlier point at which it was waiting. -/
theorem writes_guarded (settings : Settings) (w : World)
    (es : List (Clock × Action Reply WorldOp Command)) :
    (∀ x ∈ (run settings w es).started, ∃ job,
      (run settings w es).jobs[x.job]? = some job ∧
      Selected settings job.label.ticket (job.label.source job.accepted.state) job.accepted.state ∧
      job.label.Allowed settings x.clock x.state ∧ job.label.write = some x.output) ∧
    ∀ (i : Nat) job m, (run settings w es).jobs[i]? = some job → job.caller = .ended (some ()) m →
      (∃ m', job.task = .ended (some ()) m') ∧
      m.state.sourceGeneration = job.label.ticket.generation ∧
      ∀ es₁ es₂ job₁, es = es₁ ++ es₂ → (run settings w es₁).jobs[i]? = some job₁ →
        job₁.caller = .joining →
        (run settings w es₁).state.sourceGeneration = job.label.ticket.generation := by
  have v := verified settings
  refine ⟨?_, ?_⟩
  · intro x hx
    obtain ⟨job, hj, hacc, hallowed, hwrite⟩ := started_verified v w es hx
    exact ⟨job, hj, hacc, hallowed, hwrite⟩
  · intro i job m hj hm
    obtain ⟨-, r, m', htask, -, hret, -, -⟩ := returned_verified v w es hj hm
    obtain ⟨hgen, rfl⟩ := (returns_ensures job.label r m.clock m.state).2 hret
    refine ⟨⟨m', htask⟩, hgen.symm, ?_⟩
    rintro es₁ es₂ job₁ rfl hj₁ hwait
    have hgood := good_run v w es₁
    have hrun : run settings w (es₁ ++ es₂) =
        replay (System.step (scheduler settings)) (run settings w es₁) es₂ :=
      replay_append _ _ _ _
    rw [hrun] at hj
    -- The generation only rises, from the capture over this point to the return.
    have hlater := ended_later v hgood es₂ hj₁ hwait hj hm
    obtain ⟨job₂, hj₂, hlabel⟩ := (moves_replay v hgood es₂).jobs i job₁ hj₁
    obtain rfl : job₂ = job := Option.some.inj (hj₂.symm.trans hj)
    have hjob₁ := hgood.jobs i job₁ hj₁
    have hcaptured : job₁.label.ticket.generation = job₁.accepted.state.sourceGeneration :=
      hjob₁.accepted.generation
    have hbefore : job₁.accepted.state.sourceGeneration ≤
        (run settings w es₁).state.sourceGeneration := hjob₁.after.2.generation
    have hafter : (run settings w es₁).state.sourceGeneration ≤ m.state.sourceGeneration :=
      hlater.2.generation
    rw [hlabel] at hgen ⊢
    omega

/-- **A returned override was confirmed.** On every run, if a setpoint override returns
    normally, then there was a moment after its write was started and before it returned at
    which the latest override observation of the current source had arrived after that start,
    live and valid, was at most 30 seconds old, and carried exactly the request and the value of
    the command and no error. -/
theorem override_return_confirmed (settings : Settings) (w : World)
    (es : List (Clock × Action Reply WorldOp Command)) (i : Nat)
    (job : Job Clock World Write Reply Label) (body : OverrideBody) (polls : Nat)
    (m : Moment Clock World Write) (hj : (run settings w es).jobs[i]? = some job)
    (hwork : job.label.work = .setpointOverride body polls)
    (hm : job.caller = .ended (some ()) m) :
    ∃ m', job.task = .ended (some ()) m' ∧ m'.started <+: m.started ∧ Extends m'.state m.state ∧
      Confirmed settings i job.label body m'.started m'.clock m'.state := by
  obtain ⟨-, r, m', htask, hQ, hret, -, hlater⟩ := returned_verified (verified settings) w es hj hm
  obtain ⟨-, rfl⟩ := (returns_ensures job.label r m.clock m.state).2 hret
  exact ⟨m', htask, hlater.1, hlater.2, hQ rfl body polls hwork⟩

/-- A direct MQTT source and no gateway. -/
def directSettings : Settings := ⟨.default, false, true, []⟩

/-- The source 0 is selected, with the client 7. -/
def directWorld : World where
  activeSource := .mqtt
  sourceGeneration := 1
  mqttState := some 0
  appMqttState := some 0
  dataSource := .mqtt
  gatewayConnected := false
  mqttConnected := true
  mqttClient := some 7
  sources := fun _ => ⟨Str.lit "c0619ab", []⟩

def overrideReport (value requestId : Value) : Value :=
  .dict [(Str.lit "value", value), (Str.lit "last_error", .none), (Str.lit "request_id", requestId)]

/-- An override is sent, acknowledged and returns. -/
def acknowledgedRun : List (Clock × Action Reply WorldOp Command) :=
  [(⟨100, 10⟩, .world (.source 0 (.controller
      (Dict.ofList [(overrideKey, overrideReport .none .none)]) false))),
   (⟨101, 11⟩, .accept ⟨some 7, .sendController .setpointOverride (Dict.ofList
      [(Str.lit "value", .int 50), (Str.lit "request_id", .str (Str.lit "r1"))]) 3⟩),
   (⟨101, 11⟩, .resume 0 .ok),
   (⟨102, 12⟩, .resume 0 .ok),
   (⟨103, 13⟩, .world (.source 0 (.override
      (overrideReport (.int 50) (.str (Str.lit "r1"))) false))),
   (⟨103, 13⟩, .resume 0 .ok),
   (⟨103, 13⟩, .join 0)]

def returnedOverride (job : Job Clock World Write Reply Label) : Bool :=
  match job.label.work, job.caller with
  | .setpointOverride _ _, .ended (some ()) _ => true
  | _, _ => false

theorem override_return_confirmed_run :
    ∃ job body, ∃ m' : Moment Clock World Write,
      (run directSettings directWorld acknowledgedRun).jobs[0]? = some job ∧
      Confirmed directSettings 0 job.label body m'.started m'.clock m'.state := by
  have hany : ((run directSettings directWorld acknowledgedRun).jobs[0]?).any returnedOverride =
      true := by decide +kernel
  obtain ⟨job, hj, hjob⟩ := (Option.any_eq_true _ _).mp hany
  unfold returnedOverride at hjob
  split at hjob
  · next body polls m hwork hm =>
    obtain ⟨m', -, -, -, hconfirmed⟩ := override_return_confirmed directSettings directWorld
      acknowledgedRun 0 job body polls m hj hwork hm
    exact ⟨job, body, m', hj, hconfirmed⟩
  · cases hjob

end Guarantees

end InverterDashboard.Commands
