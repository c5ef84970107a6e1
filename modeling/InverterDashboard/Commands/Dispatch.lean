import InverterDashboard.Commands.Programs

/-
  Every physical write is checked in the segment that starts it: the selection a command
  captured is then still the current one, and the command's own authority holds.

  `current_ensures` says what a passed check establishes. Each `send_…` lemma follows one
  command path and uses it at the last check before the write.
-/

namespace InverterDashboard.Commands

open Python Cerbo Controller Server Temporal Async

/-! ## Selection and authority -/

section Authority

variable (settings : Settings)

/-- The captured selection is the current one. -/
structure Selected (t : Ticket) (owner : Option Nat) (w : World) : Prop where
  owner : t.owner = owner
  generation : t.generation = w.sourceGeneration
  remote : t.remote = w.preferGateway settings
  client : t.remote = false → t.client.isSome = true ∧ t.client = w.mqttClient

/-- The `MqttState` a command acts on: a water command takes the application's. -/
def Label.source (l : Label) (w : World) : Option Nat :=
  match l.work with
  | .waterMode _ _ _ _ => w.appMqttState
  | _ => w.mqttState

/-- The authority of a command over the `MqttState` number `i`. -/
def Label.AuthorityOver (l : Label) (clock : Clock) (w : World) (i : Nat) : Prop :=
  let s := w.state settings i
  let remote := l.ticket.remote
  match l.work with
  | .publish _ _ => w.transportConnected remote = true ∧
    (controllerCommandsAvailable settings.cfg clock s).result = some true
  | .selectEssMode _ => w.transportConnected remote = true ∧
    (canSelectEssMode settings.cfg clock remote (w.connected remote) s).result = some true
  | .waterMode _ inst _ portal =>
    waterContext settings w = some ⟨l.ticket.client, i, portal⟩ ∧
      waterDeviceAvailable clock (intStr inst) s = some true
  | .setpointOverride _ _ => (canControllerCommand settings.cfg clock .setpointOverride remote
      (w.transportConnected remote) s).result = some true
  | .electricityTariff body => (canControllerCommand settings.cfg clock .electricityTariff remote
      (w.transportConnected remote) s).result = some true ∧
    (tariffRevision (shownState s)).eqv body.revision = true
  | .notification _ portal => w.transportConnected remote = true ∧
    portal = notificationPortal settings (some i) w ∧
    (remote = false → validNotificationPortal portal = true)

/-- The selection is current and the authority holds. -/
structure Label.Allowed (l : Label) (clock : Clock) (w : World) : Prop where
  selected : Selected settings l.ticket (l.source w) w
  authority : ∃ i, l.ticket.owner = some i ∧ l.AuthorityOver settings clock w i

/-- What a label of a water command is made of. -/
def Label.WellFormed (l : Label) : Prop :=
  match l.work with
  | .waterMode which inst _ portal =>
    l.ticket.remote = portal.isNone ∧ waterInstance settings which = some inst
  | _ => True

end Authority

/-- The one physical write of a command. -/
def Label.write (l : Label) : Option Write :=
  let remote := l.ticket.remote
  match l.work with
  | .publish action payload =>
    if remote then (gatewayCommandBody action payload).map (.post action)
    else some (.publish (Str.lit "inverter/cmd/" ++ action)
      (if payload.isEmpty then none else some (.dict payload)))
  | .selectEssMode body =>
    if remote then some (.post (Str.lit "set_ess_mode") (EssBody.toValue body))
    else some (.publish (Str.lit "inverter/cmd/set_ess_mode") (some (EssBody.toValue body)))
  | .waterMode _ inst mode portal =>
    match portal with
    | none => some (.post (Str.lit "water_mode")
        (.dict [(Str.lit "instance", .int inst), (Str.lit "mode", .int mode)]))
    | some portal => some (.publish
        (Str.lit "W/" ++ portal ++ Str.lit "/pump/" ++ intStr inst ++ Str.lit "/Mode")
        (some (.dict [(Str.lit "value", .int mode)])))
  | .setpointOverride body _ =>
    if remote then some (.post (Str.lit "setpoint_override") (overrideValue body))
    else some (.publish (Str.lit "inverter/cmd/" ++ Str.lit "setpoint_override")
      (some (overrideValue body)))
  | .electricityTariff body =>
    if remote then some (.post (Str.lit "electricity_tariff") (tariffValue body))
    else some (.publish (Str.lit "inverter/cmd/" ++ Str.lit "electricity_tariff")
      (some (tariffValue body)))
  | .notification name portal =>
    if remote then some (.post name.name (.dict []))
    else match name with
      | .acknowledgeAllNotifications => some (.publish
          (Str.lit "W/" ++ portal ++ Str.lit "/platform/0/Notifications/AcknowledgeAll")
          (some (.dict [(Str.lit "value", .int 1)])))
      | .silenceAlarm => none

/-! ## What a passed check establishes -/

section Ensures

variable {settings : Settings} {clock : Clock} {w : World}

theorem askOwner_ensures {α : Type} {t : Ticket} {check : LiveCheck settings.cfg α}
    {Q : World → α → Prop} (h : ∀ i a, t.owner = some i →
      (check.call clock (w.state settings i)).result = some a →
        Q (w.observe i ⟨clock, .readController⟩) a) :
    Ensures Extends (askOwner settings t check) clock w Q := by
  unfold askOwner
  split
  · next i hi => exact ⟨.observe _ _ _, fun a ha => h i a hi ha⟩
  · exact .fail .refl

/-- A check that found nothing expired has left the state alone. -/
theorem state_read {α : Type} (check : LiveCheck settings.cfg α) {i : Nat}
    (h : (check.call clock (w.state settings i)).state = w.state settings i) :
    (w.observe i ⟨clock, .readController⟩).state settings i = w.state settings i := by
  rw [World.state_observe, ← check.state_eq]
  exact h

theorem controllerCommandsAvailable_some_true {cfg : Config} {s : MqttState}
    (h : (controllerCommandsAvailable cfg clock s).result = some true) :
    (controllerCommandsAvailable cfg clock s).state = s := by
  unfold controllerCommandsAvailable at h ⊢
  obtain ⟨heq, -⟩ := check_some_true (fun _ => by simp) h
  rw [heq]

theorem currentSource_eq_true {t : Ticket} (h : currentSource settings t w = true) :
    t.owner = w.mqttState ∧ t.generation = w.sourceGeneration ∧
      t.remote = w.preferGateway settings := by
  unfold currentSource at h
  simpa [and_assoc] using h

theorem clientMatches_eq_true {t : Ticket} (h : clientMatches t w = true)
    (hr : t.remote = false) : t.client.isSome = true ∧ t.client = w.mqttClient := by
  unfold clientMatches World.currentMqttClient at h
  simpa [hr] using h

theorem selected_of {t : Ticket} (hs : currentSource settings t w = true)
    (hc : clientMatches t w = true) : Selected settings t w.mqttState w := by
  obtain ⟨howner, hgen, hremote⟩ := currentSource_eq_true hs
  exact ⟨howner, hgen, hremote, clientMatches_eq_true hc⟩

theorem controllerTransport_ensures (t : Ticket) :
    Ensures Extends (controllerTransport settings t) clock w fun w' _ =>
      Selected settings t w'.mqttState w' ∧ w'.transportConnected t.remote = true ∧
        ∃ i, t.owner = some i ∧
          (controllerCommandsAvailable settings.cfg clock (w'.state settings i)).result =
            some true := by
  refine .andThen .trans (.require .refl fun hs => ?_)
  refine .andThen .trans (askOwner_ensures fun i available hi hr => ?_)
  refine .require .refl fun h => ?_
  simp only [Bool.and_eq_true] at h
  obtain ⟨⟨rfl, ht⟩, hc⟩ := h
  refine ⟨selected_of hs hc, ht, i, hi, ?_⟩
  rw [state_read (.commandsAvailable settings.cfg) (controllerCommandsAvailable_some_true hr)]
  exact hr

theorem essSelection_ensures (t : Ticket) :
    Ensures Extends (essSelection settings t) clock w fun w' _ =>
      Selected settings t w'.mqttState w' ∧ w'.transportConnected t.remote = true ∧
        ∃ i, t.owner = some i ∧ (canSelectEssMode settings.cfg clock t.remote
          (w'.connected t.remote) (w'.state settings i)).result = some true := by
  refine .andThen .trans (.require .refl fun hs => ?_)
  rw [Bool.and_eq_true] at hs
  refine .andThen .trans (.read .refl ?_)
  refine .andThen .trans (askOwner_ensures fun i can hi hr => ?_)
  refine .require .refl fun h => ?_
  rw [Bool.and_eq_true] at h
  obtain ⟨rfl, hc⟩ := h
  refine ⟨selected_of hs.1 hc, hs.2, i, hi, ?_⟩
  rw [state_read (.selectEssMode settings.cfg t.remote (w.connected t.remote))
    (canSelectEssMode_some_true hr).1]
  exact hr

theorem controllerSupport_ensures (t : Ticket) (name : ControllerCommand) :
    Ensures Extends (controllerSupport settings t name) clock w fun w' _ =>
      Selected settings t w'.mqttState w' ∧ ∃ i, t.owner = some i ∧
        (canControllerCommand settings.cfg clock name t.remote (w'.transportConnected t.remote)
          (w'.state settings i)).result = some true := by
  refine .andThen .trans (.require .refl fun hs => ?_)
  refine .andThen .trans (.read .refl ?_)
  refine .andThen .trans (askOwner_ensures fun i can hi hr => ?_)
  refine .require .refl fun h => ?_
  rw [Bool.and_eq_true] at h
  obtain ⟨rfl, hc⟩ := h
  refine ⟨selected_of hs hc, i, hi, ?_⟩
  rw [state_read (.controllerCommand settings.cfg name t.remote (w.transportConnected t.remote))
    (canControllerCommand_some_true hr).1]
  exact hr

theorem Selected.observe {t : Ticket} (h : Selected settings t w.mqttState w) (i : Nat)
    (e : Event) : Selected settings t (w.observe i e).mqttState (w.observe i e) :=
  ⟨h.owner, h.generation, h.remote, h.client⟩

theorem tariffSupport_ensures (t : Ticket) (revision : Value) :
    Ensures Extends (tariffSupport settings t revision) clock w fun w' _ =>
      Selected settings t w'.mqttState w' ∧ ∃ i, t.owner = some i ∧
        (canControllerCommand settings.cfg clock .electricityTariff t.remote
          (w'.transportConnected t.remote) (w'.state settings i)).result = some true ∧
        (tariffRevision (shownState (w'.state settings i))).eqv revision = true := by
  refine .andThen .trans ((controllerSupport_ensures t .electricityTariff).mono ?_)
  rintro w₁ - ⟨hsel, j, hj, hcan⟩
  refine .andThen .trans (askOwner_ensures fun i state hi hr => ?_)
  obtain rfl : j = i := Option.some.inj (hj.symm.trans hi)
  have hget := getState_available (canControllerCommand_some_true hcan).2.1
  have hsame : (w₁.observe j ⟨clock, .readController⟩).state settings j = w₁.state settings j := by
    apply state_read (.readState settings.cfg)
    show (getState settings.cfg clock (w₁.state settings j)).state = _
    rw [hget]
  change (getState settings.cfg clock (w₁.state settings j)).result = some state at hr
  rw [hget] at hr
  obtain rfl := Option.some.inj hr
  refine .require .refl fun h => ⟨hsel.observe j _, j, hj, ?_, ?_⟩
  · rw [hsame]
    exact hcan
  · rw [hsame]
    exact h

/-- What a water context says of the selection. -/
theorem waterContext_eq_some {live : WaterContext} (h : waterContext settings w = some live) :
    w.appMqttState = some live.owner ∧ live.portal.isNone = w.preferGateway settings ∧
      (live.portal.isNone = false → live.client.isSome = true ∧ live.client = w.mqttClient) := by
  unfold waterContext at h
  split at h
  · cases h
  · next i hi =>
    dsimp only at h
    split at h
    · next hgateway =>
      split at h
      · cases h
      · split at h
        · cases h
        · obtain rfl := Option.some.inj h
          exact ⟨hi, hgateway.symm, fun hn => by cases hn⟩
    · next hgateway =>
      split at h
      · cases h
      · split at h
        · cases h
        · next hclient =>
          split at h
          · obtain rfl := Option.some.inj h
            refine ⟨hi, (Bool.eq_false_iff.mpr hgateway).symm, fun _ => ⟨?_, rfl⟩⟩
            rw [Bool.or_eq_true, not_or] at hclient
            cases hm : w.mqttClient with
            | none =>
              rw [hm] at hclient
              exact absurd rfl hclient.2
            | some m => rfl
          · cases h

theorem waterDispatch_ensures (t : Ticket) (which : WaterDevice) (portal : Option Str)
    (hremote : t.remote = portal.isNone) :
    Ensures Extends (waterDispatch settings t which portal) clock w fun w' _ =>
      Selected settings t w'.appMqttState w' ∧ ∃ i, t.owner = some i ∧
        waterContext settings w' = some ⟨t.client, i, portal⟩ ∧
        waterAvailable settings which i clock w' = true := by
  refine .require .refl fun h => ?_
  split at h
  · next live hlive =>
    unfold sameWaterContext at h
    simp only [Bool.and_eq_true, decide_eq_true_eq] at h
    obtain ⟨⟨hgen, ⟨howner, rfl⟩, hclient⟩, havail⟩ := h
    obtain ⟨happ, hgateway, hmqtt⟩ := waterContext_eq_some hlive
    refine ⟨⟨howner.trans happ.symm, hgen, hremote.trans hgateway, fun hr => ?_⟩, live.owner,
      howner, ?_, havail⟩
    · rw [hclient]
      exact hmqtt (hremote.symm.trans hr)
    · rw [hlive, hclient]
  · cases h

theorem nativeNotification_ensures (t : Ticket) (portal : Str) :
    Ensures Extends (nativeNotification settings t portal) clock w fun w' _ =>
      Selected settings t w'.mqttState w' ∧ ∃ i, t.owner = some i ∧
        w'.transportConnected t.remote = true ∧
        portal = notificationPortal settings (some i) w' ∧
        (t.remote = false → validNotificationPortal portal = true) := by
  refine .require .refl fun h => ?_
  simp only [Bool.and_eq_true, Bool.or_eq_true, decide_eq_true_eq] at h
  obtain ⟨⟨⟨⟨howner, hs⟩, ht⟩, hportal⟩, hmqtt⟩ := h
  obtain ⟨ho, hgen, hremote⟩ := currentSource_eq_true hs
  obtain ⟨i, hi⟩ := Option.isSome_iff_exists.mp howner
  have hlan : t.remote = false →
      w.currentMqttClient t.client = true ∧ validNotificationPortal portal = true := by
    intro hr
    rw [hr] at hmqtt
    simpa using hmqtt
  refine ⟨⟨ho, hgen, hremote, fun hr => ?_⟩, i, hi, ht, hi ▸ hportal, fun hr => (hlan hr).2⟩
  apply clientMatches_eq_true ?_ hr
  unfold clientMatches
  rw [(hlan hr).1, Bool.or_true]

/-- **A check that passes** finds the captured selection current and the authority in force. -/
theorem current_ensures {l : Label} (hl : l.WellFormed settings) :
    Ensures Extends (l.current settings) clock w fun w' _ => l.Allowed settings clock w' := by
  obtain ⟨t, work⟩ := l
  cases work with
  | publish action payload =>
    refine (controllerTransport_ensures t).mono ?_
    rintro w' - ⟨hsel, ht, i, hi, hr⟩
    exact ⟨hsel, i, hi, ht, hr⟩
  | selectEssMode body =>
    refine (essSelection_ensures t).mono ?_
    rintro w' - ⟨hsel, ht, i, hi, hr⟩
    exact ⟨hsel, i, hi, ht, hr⟩
  | waterMode which inst mode portal =>
    obtain ⟨hremote, hinst⟩ := hl
    refine (waterDispatch_ensures t which portal hremote).mono ?_
    rintro w' - ⟨hsel, i, hi, hlive, havail⟩
    unfold waterAvailable at havail
    rw [hinst] at havail
    exact ⟨hsel, i, hi, hlive, of_decide_eq_true havail⟩
  | setpointOverride body polls =>
    refine (controllerSupport_ensures t .setpointOverride).mono ?_
    rintro w' - ⟨hsel, i, hi, hr⟩
    exact ⟨hsel, i, hi, hr⟩
  | electricityTariff body =>
    refine (tariffSupport_ensures t body.revision).mono ?_
    rintro w' - ⟨hsel, i, hi, hr, hrev⟩
    exact ⟨hsel, i, hi, hr, hrev⟩
  | notification name portal =>
    refine (nativeNotification_ensures t portal).mono ?_
    rintro w' - ⟨hsel, i, hi, ht, hportal, hvalid⟩
    exact ⟨hsel, i, hi, ht, hportal, hvalid⟩

end Ensures

/-! ## Requests to the gateway and to the broker -/

section Transport

variable {α : Type} {i : Nat} {P : Clock → World → Write → Prop}
  {hs : List (Started Clock World Write)} {c : Clock} {w : World}

theorem wp_awaitDone {Q : List (Started Clock World Write) → Clock → World → Unit → Prop}
    (h : ∀ h' c' w', hs <+: h' → Extends w w' → Q h' c' w' ()) :
    wp Extends i P awaitDone (Returns Q) hs c w := by
  intro r h' c' w' hh hw
  cases r with
  | failed => exact returns_none
  | ok => exact returns_some (h h' c' w' hh hw)
  | snapshot o => exact returns_some (h h' c' w' hh hw)

theorem wp_fetchSnapshot {Q : List (Started Clock World Write) → Clock → World → Object → Prop}
    (h : ∀ h' c' w' snapshot, hs <+: h' → Extends w w' → Q h' c' w' snapshot) :
    wp Extends i P fetchSnapshot (Returns Q) hs c w := by
  intro r h' c' w' hh hw
  cases r with
  | snapshot o => exact returns_some (h h' c' w' o hh hw)
  | ok => exact returns_none
  | failed => exact returns_none

/-- A result that still holds after the client is closed holds of the whole request. -/
theorem wp_withGatewayClient {body : Code α}
    {Q : List (Started Clock World Write) → Clock → World → α → Prop}
    (h : ∀ h' c' w', hs <+: h' → Extends w w' →
      wp Extends i P body (Returns fun h _ w a =>
        ∀ h' c' w', h <+: h' → Extends w w' → Q h' c' w' a) h' c' w') :
    wp Extends i P (withGatewayClient body) (Returns Q) hs c w := by
  refine wp_andThen (wp_awaitDone fun h' c' w' hh hw => ?_)
  refine wp_andFinally (wp_mono (h h' c' w' hh hw) ?_) fun _ _ _ => wp_awaitDone fun _ _ _ _ _ => trivial
  intro h _ w r hr a ha
  exact wp_awaitDone fun h' c' w' hh hw => hr a ha h' c' w' hh hw

theorem wp_postCommand {name : Str} {body : Value} {generation : Nat} {before : Sync Clock World α}
    {Q : List (Started Clock World Write) → Clock → World → α → Prop}
    (h : ∀ h' c' w', hs <+: h' → Extends w w' → Ensures Extends before c' w' fun w₁ a =>
      P c' w₁ (.post name body) ∧ ∀ h₂ c₂ w₂,
        (h' ++ [⟨i, c', w₁, .post name body⟩]) <+: h₂ → Extends w₁ w₂ → Q h₂ c₂ w₂ a) :
    wp Extends i P (postCommand name body generation before) (Returns Q) hs c w := by
  refine wp_withGatewayClient fun h' c' w' hh hw => ?_
  refine wp_ofSync (.require .refl fun _ => ?_)
  refine wp_ofSync ((h h' c' w' hh hw).mono ?_)
  rintro w₁ a ⟨hP, hQ⟩
  refine ⟨hP, wp_andThen (wp_awaitDone fun h₂ c₂ w₂ hh₂ hw₂ => returns_some ?_)⟩
  intro h₃ c₃ w₃ hh₃ hw₃
  exact hQ h₃ c₃ w₃ (hh₂.trans hh₃) (hw₂.trans hw₃)

theorem wp_publish {topic : Str} {message : Option Value}
    {Q : List (Started Clock World Write) → Clock → World → Unit → Prop}
    (hP : P c w (.publish topic message))
    (hQ : ∀ h₂ c₂ w₂, (hs ++ [⟨i, c, w, .publish topic message⟩]) <+: h₂ → Extends w w₂ →
      Q h₂ c₂ w₂ ()) : wp Extends i P (publish topic message) (Returns Q) hs c w :=
  ⟨hP, wp_awaitDone hQ⟩

end Transport

/-! ## The command paths -/

section Paths

variable {settings : Settings} {i : Nat} {l : Label}
  {hs : List (Started Clock World Write)} {c : Clock} {w : World}

/-- A command starts its own write, and only while it may. -/
def Label.MayStart (settings : Settings) (l : Label) (clock : Clock) (w : World) (out : Write) :
    Prop :=
  l.Allowed settings clock w ∧ l.write = some out

/-- The task starts nothing it may not. -/
def Safe (settings : Settings) (l : Label) (i : Nat) (p : Code Unit)
    (hs : List (Started Clock World Write)) (c : Clock) (w : World) : Prop :=
  wp Extends i (l.MayStart settings) p (Returns fun _ _ _ _ => True) hs c w

/-- A post that is checked right before it is sent. -/
theorem safe_postCommand (hl : l.WellFormed settings) {name : Str} {body : Value}
    (hw : l.write = some (.post name body)) :
    Safe settings l i (postCommand name body l.ticket.generation (l.current settings)) hs c w :=
  wp_postCommand fun _ _ _ _ _ => (current_ensures hl).mono fun _ _ hallowed =>
    ⟨⟨hallowed, hw⟩, fun _ _ _ _ _ => trivial⟩

theorem safe_sendPublish (hl : l.WellFormed settings) {action : Str}
    {payload : List (Str × Value)} (hwork : l.work = .publish action payload) :
    Safe settings l i (sendPublish settings l action payload) hs c w := by
  unfold Safe sendPublish
  refine wp_ofSync ((current_ensures hl).mono fun w₁ _ hallowed => ?_)
  have hwrite : l.write = if l.ticket.remote then (gatewayCommandBody action payload).map
      (Write.post action) else some (.publish (Str.lit "inverter/cmd/" ++ action)
        (if payload.isEmpty then none else some (.dict payload))) := by
    unfold Label.write
    rw [hwork]
  split
  · next hr =>
    rw [if_pos hr] at hwrite
    refine wp_ofSync (.expect .refl fun body hbody => ?_)
    rw [hbody] at hwrite
    exact safe_postCommand hl hwrite
  · next hr =>
    rw [if_neg hr] at hwrite
    exact wp_publish ⟨hallowed, hwrite⟩ fun _ _ _ _ _ => trivial

theorem safe_sendEssMode (hl : l.WellFormed settings) {body : EssBody}
    (hwork : l.work = .selectEssMode body) :
    Safe settings l i (sendEssMode settings l body) hs c w := by
  unfold Safe sendEssMode
  refine wp_ofSync ((current_ensures hl).mono fun w₁ _ hallowed => ?_)
  have hwrite : l.write = if l.ticket.remote then
      some (.post (Str.lit "set_ess_mode") (EssBody.toValue body))
      else some (.publish (Str.lit "inverter/cmd/set_ess_mode") (some (EssBody.toValue body))) := by
    unfold Label.write
    rw [hwork]
  split
  · next hr =>
    rw [if_pos hr] at hwrite
    refine wp_andThen (wp_withGatewayClient fun _ _ _ _ _ => ?_)
    refine wp_andThen (wp_fetchSnapshot fun _ _ _ snapshot _ _ => ?_)
    refine wp_ofSync (.require .refl fun _ => returns_some fun _ _ _ _ _ => ?_)
    refine wp_ofSync ((current_ensures hl).mono fun _ _ _ => ?_)
    exact safe_postCommand hl hwrite
  · next hr =>
    rw [if_neg hr] at hwrite
    exact wp_publish ⟨hallowed, hwrite⟩ fun _ _ _ _ _ => trivial

theorem safe_sendWaterMode (hl : l.WellFormed settings) {which : WaterDevice} {inst mode : Int}
    {portal : Option Str} (hwork : l.work = .waterMode which inst mode portal) :
    Safe settings l i (sendWaterMode settings l inst mode portal) hs c w := by
  unfold Safe sendWaterMode
  refine wp_ofSync ((current_ensures hl).mono fun w₁ _ hallowed => ?_)
  cases portal with
  | none =>
    refine wp_andThen (wp_withGatewayClient fun _ _ _ _ _ => ?_)
    refine wp_fetchSnapshot fun _ _ _ snapshot _ _ _ _ _ _ _ => ?_
    refine wp_ofSync ((current_ensures hl).mono fun _ _ _ => ?_)
    refine wp_ofSync (.require .refl fun _ => ?_)
    refine safe_postCommand hl ?_
    unfold Label.write
    rw [hwork]
  | some portal =>
    refine wp_publish ⟨hallowed, ?_⟩ fun _ _ _ _ _ => trivial
    unfold Label.write
    rw [hwork]

theorem safe_sendNotification (hl : l.WellFormed settings) {name : NotificationCommand}
    {portal : Str} (hwork : l.work = .notification name portal) :
    Safe settings l i (sendNotification settings l name portal) hs c w := by
  unfold Safe sendNotification
  refine wp_ofSync ((current_ensures hl).mono fun w₁ _ hallowed => ?_)
  have hlast : ∀ (p : Code Unit), Safe settings l i p hs c w₁ →
      wp Extends i (l.MayStart settings) (p.andThen fun _ =>
        .ofSync (l.current settings) fun _ => .done (some ()))
        (Returns fun _ _ _ _ => True) hs c w₁ := by
    intro p hp
    refine wp_andThen (wp_mono hp fun _ _ _ _ _ _ _ => ?_)
    exact wp_ofSync ((current_ensures hl).mono fun _ _ _ => returns_some trivial)
  apply hlast
  split
  · next hr =>
    refine safe_postCommand hl ?_
    unfold Label.write
    rw [hwork]
    exact if_pos hr
  · next hr =>
    cases name with
    | acknowledgeAllNotifications =>
      refine wp_publish ⟨hallowed, ?_⟩ fun _ _ _ _ _ => trivial
      unfold Label.write
      rw [hwork]
      exact if_neg hr
    | silenceAlarm =>
      show Returns (fun _ _ _ _ => True) hs c w₁ none
      exact returns_none

/-- The sequence a dispatch notes, and the check before it. -/
theorem beforeDispatch_ensures (hl : l.WellFormed settings) :
    Ensures Extends (beforeDispatch settings l) c w fun w' sequence =>
      l.Allowed settings c w' ∧ ∃ j, l.ticket.owner = some j ∧
        sequence = (w'.state settings j).overrideObservationSequence := by
  refine .andThen .trans ((current_ensures hl).mono fun w' _ hallowed => ?_)
  obtain ⟨j, hj, -⟩ := hallowed.authority
  rw [hj]
  exact .read .refl ⟨hallowed, j, rfl, rfl⟩

/-- **The dispatch** of an override or a tariff: the write starts in the same segment as the
    check, with the sequence read there. -/
theorem wp_dispatch (hl : l.WellFormed settings) {name : ControllerCommand} {body : Value}
    {Q : List (Started Clock World Write) → Clock → World → Nat → Prop}
    (hwrite : l.write = if l.ticket.remote then some (.post name.name body)
      else some (.publish (Str.lit "inverter/cmd/" ++ name.name) (some body)))
    (hQ : ∀ h' c' w' w₂ h₂ c₂ j out, l.Allowed settings c' w' → l.write = some out →
      l.ticket.owner = some j → (h' ++ [⟨i, c', w', out⟩]) <+: h₂ → Extends w' w₂ →
      Q h₂ c₂ w₂ (w'.state settings j).overrideObservationSequence) :
    wp Extends i (l.MayStart settings) (dispatch settings l name body) (Returns Q) hs c w := by
  unfold dispatch
  split
  · next hr =>
    rw [if_pos hr] at hwrite
    refine wp_ofSync ((current_ensures hl).mono fun _ _ _ => ?_)
    refine wp_postCommand fun h' c' w' _ _ => (beforeDispatch_ensures hl).mono ?_
    rintro w₁ _ ⟨hallowed, j, hj, rfl⟩
    exact ⟨⟨hallowed, hwrite⟩, fun h₂ c₂ w₂ hh hw =>
      hQ h' c' w₁ w₂ h₂ c₂ j _ hallowed hwrite hj hh hw⟩
  · next hr =>
    rw [if_neg hr] at hwrite
    refine wp_ofSync ((beforeDispatch_ensures hl).mono ?_)
    rintro w₁ _ ⟨hallowed, j, hj, rfl⟩
    refine wp_andThen (wp_publish ⟨hallowed, hwrite⟩ fun h₂ c₂ w₂ hh hw => returns_some ?_)
    exact hQ hs c w₁ w₂ h₂ c₂ j _ hallowed hwrite hj hh hw

/-- The read before the dispatch starts nothing. -/
theorem wp_preflight {name : ControllerCommand}
    {Q : List (Started Clock World Write) → Clock → World → Object → Prop}
    (hQ : ∀ h' c' w' controller, hs <+: h' → Extends w w' → Q h' c' w' controller) :
    wp Extends i (l.MayStart settings) (preflight name) (Returns Q) hs c w := by
  refine wp_andThen (wp_withGatewayClient fun h' c' w' hh hw => ?_)
  refine wp_fetchSnapshot fun h₂ c₂ w₂ snapshot hh₂ hw₂ h₃ c₃ w₃ hh₃ hw₃ => ?_
  intro controller _
  exact hQ h₃ c₃ w₃ controller (hh.trans (hh₂.trans hh₃)) (hw.trans (hw₂.trans hw₃))

theorem safe_sendTariff (hl : l.WellFormed settings) {body : TariffBody}
    (hwork : l.work = .electricityTariff body) :
    Safe settings l i (sendTariff settings l body) hs c w := by
  have hwrite : l.write = if l.ticket.remote then
      some (.post ControllerCommand.electricityTariff.name (tariffValue body))
      else some (.publish (Str.lit "inverter/cmd/" ++ ControllerCommand.electricityTariff.name)
        (some (tariffValue body))) := by
    unfold Label.write
    rw [hwork]
    rfl
  have hdispatch : ∀ h' c' w', wp Extends i (l.MayStart settings)
      ((dispatch settings l .electricityTariff (tariffValue body)).andThen fun _ =>
        .done (some ())) (Returns fun _ _ _ _ => True) h' c' w' := fun _ _ _ =>
    wp_andThen (wp_dispatch hl hwrite fun _ _ _ _ _ _ _ _ _ _ _ _ _ => returns_some trivial)
  unfold Safe sendTariff
  refine wp_ofSync ((current_ensures hl).mono fun w₁ _ _ => ?_)
  refine wp_andThen ?_
  split
  · refine wp_andThen (wp_preflight fun h' c' w' controller _ _ => ?_)
    exact wp_ofSync (.require .refl fun _ => returns_some (hdispatch _ _ _))
  · exact returns_some (hdispatch _ _ _)

end Paths

end InverterDashboard.Commands
