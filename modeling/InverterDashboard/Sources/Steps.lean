import InverterDashboard.Sources.Tasks

/-
  What a task can do when it is resumed.

  `resume_cases`: it moves, which leaves the shared state alone but for flags, counters and the
  MQTT client; or it begins a switch; or it finishes the one it is in. A task whose source has been
  retired only moves, and changes nothing but itself.
-/

namespace InverterDashboard.Sources

/-! ## Turns -/

/-- The part of the state that only a new source, a switch or a shutdown changes. -/
def App.core (a : App) :
    Option Nat × List Nat × Option Source × Nat × Option Source × Bool × Nat :=
  (a.mqttState, a.mqttTasks, a.dataSource, a.sourceGeneration, a.activeSource, a.dualPath,
    a.essGeneration)

def Role.closure? : Role → Option Closure
  | .mqtt c | .gateway c => some c
  | _ => none

def Point.isSwitching : Point → Bool
  | .switching _ _ => true
  | _ => false

/-- The task has a client, or may come to have one without a new source. -/
def Task.mayConnect (t : Task) : Bool :=
  match t.role, t.point with
  | .mqtt _, .notifying exit | .mqtt _, .joining exit => exit = .next
  | _, .ended | _, .switching _ _ => false
  | .mqtt _, _ | .gateway _, _ => true
  | _, _ => false

/-- What a move of a task is. -/
structure Quietly (a : App) (t : Task) (a' : App) (t' : Task) : Prop where
  core : a'.core = a.core
  role : t'.role = t.role
  cancelled : t'.cancelled = t.cancelled
  point : t'.point.isSwitching = false
  connects : t'.mayConnect = true → t.mayConnect = true
  late : ∀ c, t.role.closure? = some c → a.current c = false → a' = a

/-- What a turn of a task can lead to. -/
def Turn.Sound (a : App) (t : Task) : Turn → Prop
  | .moves a' t' => Quietly a t a' t'
  | .reconnects => ∃ c, t.role = .mqtt c ∧ a.current c = true ∧ t.mayConnect = true
  | .switches a' _ => a'.core = a.core ∧ ∀ c, t.role.closure? = some c → a.current c = true

theorem Quietly.awaiting (a : App) {t : Task} {point : Point} (h : point.isSwitching = false)
    (hconnects : (t.awaiting point).mayConnect = true → t.mayConnect = true) :
    Quietly a t a (t.awaiting point) :=
  ⟨rfl, rfl, rfl, h, hconnects, fun _ _ _ => rfl⟩

theorem Quietly.ended (a : App) (t : Task) : Quietly a t a (t.awaiting .ended) := by
  refine .awaiting a rfl fun h => ?_
  obtain ⟨role, client, keepalive, cancelled, point⟩ := t
  cases role <;> simp [Task.awaiting, Task.mayConnect] at h

section Mqtt

variable {c : Closure} {a : App} {t : Task} {exit : Exit}

/-- A session that is not left for good is one of a task that goes on. -/
theorem afterSession_sound (h : exit = .next → t.mayConnect = true) :
    Quietly a t a (afterSession c a t exit) := by
  cases exit with
  | next =>
    refine .awaiting a (by split <;> rfl) fun _ => h rfl
  | _ => exact .ended a t

theorem joinKeepalive_sound (hrole : t.role = .mqtt c) (h : exit = .next → t.mayConnect = true) :
    Quietly a t a (joinKeepalive c a t exit) := by
  unfold joinKeepalive
  split
  · refine .awaiting a rfl fun hconnect => h ?_
    simpa [Task.awaiting, Task.mayConnect, hrole] using hconnect
  · exact afterSession_sound h

theorem finishSession_sound (hrole : t.role = .mqtt c) (h : exit = .next → t.mayConnect = true) :
    (finishSession c a t exit).Sound a t := by
  unfold finishSession
  split
  · next hcurrent =>
    refine ⟨rfl, rfl, rfl, rfl, fun hconnect => h ?_, fun d hd hlate => ?_⟩
    · simpa [Task.awaiting, Task.mayConnect, hrole] using hconnect
    · rw [hrole] at hd
      obtain rfl := Option.some.inj hd
      simp [hcurrent.1] at hlate
  · exact joinKeepalive_sound hrole h

/-- The counter of the reconnects is none of the core. -/
theorem Turn.Sound.counted {r : Turn} {n : Nat} (hrole : t.role = .mqtt c) (hcurrent : a.current c = true)
    (h : r.Sound { a with mqttReconnects := n } t) : r.Sound a t := by
  have hlate : ∀ d, t.role.closure? = some d → a.current d = true := by
    intro d hd
    rw [hrole] at hd
    obtain rfl := Option.some.inj hd
    exact hcurrent
  cases r with
  | moves a' t' =>
    refine ⟨h.core, h.role, h.cancelled, h.point, h.connects, fun d hd hnot => ?_⟩
    rw [hlate d hd] at hnot
    cases hnot
  | reconnects => exact h
  | switches a' target => exact ⟨h.1, hlate⟩

theorem handleFailure_sound {env : Env} (hrole : t.role = .mqtt c) (h : t.mayConnect = true) :
    (handleFailure c env a t).Sound a t := by
  have hleave : (.leave : Exit) = .next → t.mayConnect = true := fun _ => h
  unfold handleFailure
  split
  · next hcurrent =>
    refine Turn.Sound.counted (n := a.mqttReconnects + 1) hrole hcurrent ?_
    dsimp only
    split
    · split
      · exact finishSession_sound hrole hleave
      · refine ⟨rfl, fun d hd => ?_⟩
        rw [hrole] at hd
        obtain rfl := Option.some.inj hd
        exact hcurrent
    · exact finishSession_sound hrole fun _ => h
  · exact finishSession_sound hrole hleave

theorem mqttSession_sound (h : t.mayConnect = true) : Quietly a t a (mqttSession c a t) := by
  unfold mqttSession
  split
  · exact ⟨rfl, rfl, rfl, rfl, fun _ => h, fun _ _ _ => rfl⟩
  · exact .ended a t

/-- Within the client, up to where it disconnects. -/
theorem Quietly.inside {point : Point} (hpoint : point.isSwitching = false)
    (h : t.mayConnect = true) : Quietly a t a (t.awaiting point) :=
  .awaiting a hpoint fun _ => h

/-- A change under the current source. -/
theorem Quietly.changed {a' : App} {t' : Task} (hrole : t.role.closure? = some c)
    (hcurrent : a.current c = true) (hcore : a'.core = a.core) (h : Quietly a' t a' t') :
    Quietly a t a' t' := by
  refine ⟨hcore, h.role, h.cancelled, h.point, h.connects, fun d hd hlate => ?_⟩
  rw [hrole] at hd
  obtain rfl := Option.some.inj hd
  rw [hcurrent] at hlate
  cases hlate

theorem mqttTurn_sound (env : Env) (hrole : t.role = .mqtt c) (reply : Reply) :
    (mqttTurn c env a t reply).Sound a t := by
  obtain ⟨role, client, keepalive, cancelled, point⟩ := t
  obtain rfl : role = .mqtt c := hrole
  cases point with
  | created =>
    cases reply
    · exact mqttSession_sound rfl
    · exact .ended a _
    · exact .ended a _
  | connecting =>
    cases reply
    · unfold mqttTurn
      dsimp only
      split
      · next hcurrent => exact .changed rfl hcurrent.1 rfl (.inside rfl rfl)
      · exact .inside rfl rfl
    · exact handleFailure_sound rfl rfl
    · exact finishSession_sound rfl nofun
  | subscribing =>
    cases reply
    · unfold mqttTurn
      dsimp only
      split
      · exact ⟨rfl, rfl, rfl, rfl, fun _ => rfl, fun _ _ _ => rfl⟩
      · exact .inside rfl rfl
    · exact .inside rfl rfl
    · exact .inside rfl rfl
  | listening =>
    cases reply
    · unfold mqttTurn
      dsimp only
      split <;> exact .inside rfl rfl
    · exact .inside rfl rfl
    · exact .inside rfl rfl
  | handling => cases reply <;> exact .inside rfl rfl
  | disconnecting pending =>
    cases reply
    · cases pending
      · exact finishSession_sound rfl nofun
      · exact finishSession_sound rfl fun _ => rfl
      · exact handleFailure_sound rfl rfl
      · exact finishSession_sound rfl nofun
    · exact handleFailure_sound rfl rfl
    · exact finishSession_sound rfl nofun
  | notifying exit =>
    cases reply
    · exact joinKeepalive_sound rfl fun h => by rw [h]; rfl
    · exact joinKeepalive_sound rfl nofun
    · exact joinKeepalive_sound rfl nofun
  | joining exit =>
    cases reply
    · exact afterSession_sound fun h => by rw [h]; rfl
    · exact .ended a _
    · exact .ended a _
  | retrying =>
    cases reply
    · unfold mqttTurn
      dsimp only
      split
      · next hcurrent => exact ⟨c, rfl, hcurrent, rfl⟩
      · exact .ended a _
    · exact .ended a _
    · exact .ended a _
  | switching target children =>
    cases reply
    · exact .ended a _
    · exact .ended a _
    · exact finishSession_sound rfl nofun
  | _ => cases reply <;> exact .ended a _

end Mqtt

section Gateway

variable {c : Closure} {a : App} {t : Task}

theorem gatewayNext_sound (h : t.mayConnect = true) :
    Quietly a t a (gatewayNext c a t) := by
  refine .inside ?_ h
  split <;> rfl

theorem gatewayFailure_sound (hrole : t.role = .gateway c) (h : t.mayConnect = true) :
    (gatewayFailure c a t).Sound a t := by
  unfold gatewayFailure
  split
  · next hcurrent =>
    refine .changed (congrArg Role.closure? hrole) hcurrent rfl (.inside ?_ h)
    split <;> rfl
  · exact .inside rfl h

theorem gatewayTurn_sound (hrole : t.role = .gateway c) (reply : Reply) :
    (gatewayTurn c a t reply).Sound a t := by
  obtain ⟨role, client, keepalive, cancelled, point⟩ := t
  obtain rfl : role = .gateway c := hrole
  cases point with
  | created =>
    cases reply
    · exact .inside rfl rfl
    · exact .ended a _
    · exact .ended a _
  | opening =>
    cases reply
    · exact gatewayNext_sound rfl
    · exact .ended a _
    · exact .ended a _
  | fetching =>
    cases reply with
    | returned applied =>
      unfold gatewayTurn
      dsimp only
      split
      · next hcurrent =>
        split
        · exact .changed rfl hcurrent rfl (.inside rfl rfl)
        · have hfailure : (gatewayFailure c { a with gatewayConnected := true, mqttConnected := false }
              ⟨.gateway c, client, keepalive, cancelled, .fetching⟩).Sound
                { a with gatewayConnected := true, mqttConnected := false }
                ⟨.gateway c, client, keepalive, cancelled, .fetching⟩ :=
            gatewayFailure_sound rfl rfl
          unfold gatewayFailure at hfailure ⊢
          split at hfailure
          · next hstill =>
            rw [if_pos hstill]
            refine .changed rfl hcurrent rfl ?_
            exact ⟨rfl, rfl, rfl, hfailure.point, hfailure.connects, fun _ _ _ => rfl⟩
          · next hstill => exact absurd hcurrent hstill
      · exact .inside rfl rfl
    | raised => exact gatewayFailure_sound rfl rfl
    | cancelled => exact .inside rfl rfl
  | emitting =>
    cases reply
    · unfold gatewayTurn
      dsimp only
      split
      · next hcurrent => exact .changed rfl hcurrent rfl (.inside rfl rfl)
      · exact .inside rfl rfl
    · exact gatewayFailure_sound rfl rfl
    · exact .inside rfl rfl
  | reporting => cases reply <;> exact .inside rfl rfl
  | delaying =>
    cases reply
    · exact gatewayNext_sound rfl
    · exact .inside rfl rfl
    · exact .inside rfl rfl
  | _ => cases reply <;> exact .ended a _

end Gateway

/-- A turn that leaves the shared state to a switch. -/
def Turn.Watching (a : App) (t : Task) : Turn → Prop
  | .moves a' t' => a' = a ∧ ∃ point, t' = t.awaiting point ∧ point.isSwitching = false
  | .reconnects => False
  | .switches a' _ => a' = a

theorem Turn.Watching.sound {a : App} {t : Task} {r : Turn} (hr : r.Watching a t)
    (hrole : t.role.isSource = false) : r.Sound a t := by
  have hclosure : t.role.closure? = none := by
    cases h : t.role <;> rw [h] at hrole <;> first | rfl | cases hrole
  have hconnect : ∀ point, Task.mayConnect (t.awaiting point) = false := by
    intro point
    unfold Task.mayConnect Task.awaiting
    cases h : t.role <;> rw [h] at hrole <;> first | (cases point <;> rfl) | cases hrole
  cases r with
  | moves a' t' =>
    obtain ⟨rfl, point, rfl, hpoint⟩ := hr
    exact .awaiting a' hpoint fun h => absurd h (by rw [hconnect]; exact Bool.false_ne_true)
  | reconnects => exact hr.elim
  | switches a' target =>
    obtain rfl := hr
    exact ⟨rfl, fun c hc => by rw [hclosure] at hc; cases hc⟩

theorem turn_sound (env : Env) (a : App) (t : Task) (reply : Reply) :
    (turn env a t reply).Sound a t := by
  unfold turn
  cases hrole : t.role with
  | mqtt c => exact mqttTurn_sound env hrole reply
  | gateway c => exact gatewayTurn_sound hrole reply
  | watchdog =>
    refine Turn.Watching.sound ?_ (by rw [hrole]; rfl)
    dsimp only
    unfold watchdogTurn
    split
    · exact ⟨rfl, _, rfl, rfl⟩
    · split
      · exact rfl
      · exact ⟨rfl, _, rfl, rfl⟩
    · exact ⟨rfl, _, rfl, rfl⟩
  | recovery =>
    have hnext : ∃ point, recoveryNext a t = t.awaiting point ∧ point.isSwitching = false :=
      ⟨_, rfl, by split <;> rfl⟩
    refine Turn.Watching.sound ?_ (by rw [hrole]; rfl)
    dsimp only
    unfold recoveryTurn
    split
    · exact ⟨rfl, hnext⟩
    · refine ⟨rfl, ?_⟩
      split
      · exact ⟨_, rfl, rfl⟩
      · exact hnext
    · split
      · exact rfl
      · exact ⟨rfl, hnext⟩
    · exact ⟨rfl, _, rfl, rfl⟩

/-- A cancelled watchdog or recovery loop ends, and so does one that is cancelled in a switch. -/
theorem turn_watching {env : Env} {a : App} {t : Task} {reply : Reply}
    (hrole : t.role.isSource = false)
    (h : reply = .cancelled ∨ t.point.isSwitching = true ∨ t.point = .ended) :
    turn env a t reply = .moves a (t.awaiting .ended) := by
  obtain ⟨role, client, keepalive, cancelled, point⟩ := t
  cases role with
  | mqtt c => cases hrole
  | gateway c => cases hrole
  | _ =>
    rcases h with rfl | h | h
    · cases point <;> rfl
    · cases point with
      | switching target children => rfl
      | _ => cases h
    · obtain rfl : point = .ended := h
      rfl

/-! ## Steps -/

/-- A task has moved. -/
structure Local (w : World) (i : Nat) (t : Task) (w' : World) (t' : Task) : Prop where
  tasks : w'.tasks = w.tasks.set i t'
  core : w'.app.core = w.app.core
  sources : w'.sources = w.sources
  down : w'.down = w.down
  role : t'.role = t.role
  cancelled : t'.cancelled = false
  point : t'.point.isSwitching = false
  connects : t'.mayConnect = true → t.mayConnect = true
  watching : t.role.isSource = false → t'.point ≠ .ended →
    t.cancelled = false ∧ t.point.isSwitching = false ∧ t.point ≠ .ended
  late : ∀ c, t.role.closure? = some c → w.app.current c = false →
    w'.app = w.app ∧ w'.fresh = w.fresh

/-- What resuming a task does: it moves, it begins a switch, or it finishes the one it is in. -/
inductive Resumed (w : World) (i : Nat) (t : Task) (env : Env) (w' : World) : Prop where
  | moved (t' : Task) (h : Local w i t w' t')
  | began (a : App) (target : Source) (hcore : a.core = w.app.core)
    (hcurrent : ∀ c, t.role.closure? = some c → w.app.current c = true)
    (hwatching : t.role.isSource = false → t.cancelled = false)
    (hpoint : t.point.isSwitching = false) (hended : t.point ≠ .ended)
    (h : w' = World.beginSwitch { w with app := a, tasks := w.tasks.set i t.woken } i target env)
  | finished (target : Source) (children : List Nat) (hpoint : t.point = .switching target children)
    (hchildren : w.allEnded children = true)
    (h : w' = World.finishSwitch { w with tasks := w.tasks.set i t.woken } i target env)

theorem legal_point {w : World} {t : Task} {reply : Reply} (h : legal w t reply = true) :
    t.point ≠ .ended := by
  intro hended
  cases reply <;> simp [legal, hended] at h

/-- A cancelled watchdog or recovery loop finds its cancellation. -/
theorem legal_watching {w : World} {t : Task} {reply : Reply} (h : legal w t reply = true)
    (hrole : t.role.isSource = false) (hcancelled : t.cancelled = true) : reply = .cancelled := by
  cases reply with
  | cancelled => rfl
  | _ => cases hpoint : t.point <;> simp [legal, hpoint, hrole, hcancelled] at h

theorem finishSession_ne (c : Closure) (a : App) (t : Task) (exit : Exit) (a' : App)
    (target : Source) : finishSession c a t exit ≠ .switches a' target := by
  unfold finishSession
  split <;> exact nofun

/-- A task in a switch does not begin another one. -/
theorem turn_switching {env : Env} {a a' : App} {t : Task} {reply : Reply} {target : Source}
    (h : turn env a t reply = .switches a' target) : t.point.isSwitching = false := by
  rw [← Bool.not_eq_true]
  intro hpoint
  obtain ⟨role, client, keepalive, cancelled, point⟩ := t
  cases point with
  | switching target' children =>
    cases role with
    | mqtt c =>
      cases reply with
      | cancelled => exact finishSession_ne _ _ _ _ _ _ h
      | _ => cases h
    | _ => cases h
  | _ => cases hpoint

theorem resume_eq (w : World) (i : Nat) (t : Task) (reply : Reply) (env : Env) :
    (∃ target children value, t.point = .switching target children ∧ reply = .returned value ∧
      resume w i t reply env =
        World.finishSwitch { w with tasks := w.tasks.set i t.woken } i target env) ∨
    resume w i t reply env = follow { w with tasks := w.tasks.set i t.woken } i t.woken env
      (turn env w.app t.woken reply) := by
  unfold resume
  dsimp only
  cases hpoint : t.point with
  | switching target children =>
    cases reply with
    | returned value => exact Or.inl ⟨target, children, value, rfl, rfl, rfl⟩
    | _ => exact Or.inr rfl
  | _ => exact Or.inr rfl

/-- A turn that keeps to its task. -/
theorem Local.of_quietly {w : World} {i : Nat} {t t' : Task} {a : App} (env : Env)
    (h : Quietly w.app t.woken a t') (hwatching : t.role.isSource = false → t'.point ≠ .ended →
      t.cancelled = false ∧ t.point.isSwitching = false ∧ t.point ≠ .ended) :
    Local w i t (follow { w with tasks := w.tasks.set i t.woken } i t.woken env (.moves a t')) t' :=
  ⟨List.set_set .., h.core, rfl, rfl, h.role, h.cancelled, h.point, h.connects, hwatching,
    fun c hc hnot => ⟨h.late c hc hnot, rfl⟩⟩

/-- The MQTT loop makes its next client under the current source. -/
theorem Local.of_reconnects {w : World} {i : Nat} {t : Task} {c : Closure} (env : Env)
    (hrole : t.role = .mqtt c) (hcurrent : w.app.current c = true) (h : t.mayConnect = true) :
    ∃ t', Local w i t (follow { w with tasks := w.tasks.set i t.woken } i t.woken env .reconnects) t' := by
  have hlate : ∀ {w' : World} d, t.role.closure? = some d → w.app.current d = false →
      w'.app = w.app ∧ w'.fresh = w.fresh := by
    intro w' d hd hnot
    rw [hrole] at hd
    obtain rfl := Option.some.inj hd
    rw [hcurrent] at hnot
    cases hnot
  have hwatching : ∀ {P : Prop}, t.role.isSource = false → P := by
    intro P hsource
    rw [hrole] at hsource
    cases hsource
  have hwoken : t.woken.role = .mqtt c := hrole
  unfold follow
  rw [hwoken]
  cases env.clientMade with
  | true =>
    have hsession := mqttSession_sound (c := c) (a := { w.app with mqttClient := some w.fresh })
      (t := t.woken) h
    exact ⟨_, List.set_set .., rfl, rfl, rfl, hsession.role, hsession.cancelled, hsession.point,
      fun _ => h, fun hsource => hwatching hsource, hlate⟩
  | false =>
    exact ⟨_, List.set_set .., rfl, rfl, rfl, rfl, rfl, rfl, fun _ => h,
      fun hsource => hwatching hsource, hlate⟩

theorem step_resume {w : World} {i : Nat} {t : Task} {reply : Reply} {env : Env}
    (ht : w.tasks[i]? = some t) (hlegal : legal w t reply = true) :
    step w (.resume i reply env) = resume w i t reply env := by
  unfold step
  dsimp only
  rw [ht]
  exact if_pos hlegal

theorem step_shutdown {w : World} (hdown : w.down = none) : step w .shutdown = w.shutdown := by
  unfold step
  rw [hdown]
  rfl

theorem resume_cases {w : World} {i : Nat} {t : Task} {reply : Reply} (env : Env)
    (hlegal : legal w t reply = true) : Resumed w i t env (resume w i t reply env) := by
  have hended := legal_point hlegal
  rcases resume_eq w i t reply env with ⟨target, children, value, hpoint, rfl, heq⟩ | heq
  · refine .finished target children hpoint ?_ heq
    simp only [legal, hpoint, Bool.and_eq_true] at hlegal
    exact hlegal.2
  · rw [heq]
    have hsound := turn_sound env w.app t.woken reply
    have hquiet : t.role.isSource = false → (t.cancelled = true ∨ t.point.isSwitching = true) →
        turn env w.app t.woken reply = .moves w.app (t.woken.awaiting .ended) := by
      rintro hrole (h | h)
      · exact turn_watching hrole (Or.inl (legal_watching hlegal hrole h))
      · exact turn_watching hrole (Or.inr (Or.inl h))
    cases hturn : turn env w.app t.woken reply with
    | moves a t' =>
      rw [hturn] at hsound hquiet
      refine .moved t' (.of_quietly env hsound fun hsource hlive => ?_)
      have hnot : ¬ (t.cancelled = true ∨ t.point.isSwitching = true) := by
        intro h
        rw [(Turn.moves.inj (hquiet hsource h)).2] at hlive
        exact hlive rfl
      rw [not_or, Bool.not_eq_true, Bool.not_eq_true] at hnot
      exact ⟨hnot.1, hnot.2, hended⟩
    | reconnects =>
      rw [hturn] at hsound
      obtain ⟨c, hrole, hcurrent, hconnect⟩ := hsound
      obtain ⟨t', ht'⟩ := Local.of_reconnects (t := t) (i := i) env hrole hcurrent hconnect
      exact .moved t' ht'
    | switches a target =>
      rw [hturn] at hsound hquiet
      refine .began a target hsound.1 hsound.2 (fun hsource => ?_)
        (turn_switching (t := t.woken) hturn) hended rfl
      rw [← Bool.not_eq_true]
      exact fun h => nomatch hquiet hsource (Or.inl h)

end InverterDashboard.Sources
