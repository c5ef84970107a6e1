import InverterDashboard.Temporal.Trace
import InverterDashboard.Worker.Events

/-
  Push events in the notification worker: when a notification is shown, and how often.

  `deliver` awaits storage four times, so the deliveries of several push events, and the messages of
  several tabs, interleave between its transactions. The browser may stop the worker at any time and
  start it again: the stores stay, the deliveries are gone.

  Proved:
  - `shown_once`: a key is shown at most once more often than a call was rejected or its record was
    pruned, and a record is pruned only when its 30 days are over or the table is full;
  - `shown_since`: what is shown was enabled when its delivery read the settings first, and no
    request to disable was applied since, not even one that was followed by an enable.
-/

namespace InverterDashboard.Worker

open Python Cerbo Temporal

/-! ## Deliveries -/

/-- What a delivery awaits. -/
inductive Stage where
  | arrived
  | enabled (config : Settings)
  | claimed (config : Settings)
  /-- `showNotification` was called. -/
  | shown
  | rejected
  | ended

structure Task where
  event : Event
  stage : Stage

/-- The two stores and the deliveries, of which the ended ones keep their place. -/
structure Browser where
  saved : Option Settings
  events : List Claim
  tasks : List Task

namespace Browser

def empty : Browser := ⟨none, [], []⟩

/-- `current` of `settings`. -/
def current (b : Browser) : Settings := b.saved.getD .default

/-- What `deliver` awaits next, and the records of `events`. A transaction that fails ends it. -/
def proceed (b : Browser) (t : Task) (ok : Bool) (clock : Nat → Int) : Stage × List Claim :=
  match t.stage, ok with
  | .arrived, true => (if b.current.enabled then .enabled b.current else .ended, b.events)
  | .enabled config, true =>
    let (claimed, events) := claimEvent t.event.key clock b.events
    (if claimed then .claimed config else .ended, events)
  | .claimed config, true =>
    (if b.current.enabled ∧ b.current.generation = config.generation then .shown else .ended,
      b.events)
  | .shown, false => (.rejected, b.events)
  | .rejected, true => (.ended, releaseClaim t.event.key b.events)
  | _, _ => (.ended, b.events)

/-- The `i`-th delivery resumes. -/
def turn (b : Browser) (i : Nat) (ok : Bool) (clock : Nat → Int) : Browser :=
  match b.tasks[i]? with
  | none => b
  | some t => { b with
      events := (b.proceed t ok clock).2
      tasks := b.tasks.set i { t with stage := (b.proceed t ok clock).1 } }

end Browser

inductive Op where
  /-- A push event with this body. -/
  | push (value : Value) (now : Int)
  /-- `changeSettings`, and whether its transaction commits. -/
  | change (request : Request) (commits : Bool)
  /-- A delivery resumes with what it awaited, a transaction that has committed or failed or the
      outcome of `showNotification`. -/
  | turn (i : Nat) (ok : Bool) (clock : Nat → Int)
  /-- The worker is stopped. -/
  | stop

/-- The request is applied. -/
def applied (b : Browser) : Op → Option (Request × Settings)
  | .change request true => (changeSettings request b.current).map fun next => (request, next)
  | _ => none

def step (b : Browser) (op : Op) : Browser :=
  match op with
  | .push value now =>
    { b with tasks := b.tasks ++ ((normalizedEvent now value).map fun event => ⟨event, .arrived⟩).toList }
  | .change _ _ => { b with saved := ((applied b op).map Prod.snd).or b.saved }
  | .turn i ok clock => b.turn i ok clock
  | .stop => { b with tasks := b.tasks.map fun t => { t with stage := .ended } }

/-! ## Definitions -/

/-- What becomes of the delivery that resumes. -/
def outcome (x : Browser × Op) : Option (Task × Stage) :=
  match x.2 with
  | .turn i ok clock => x.1.tasks[i]?.map fun t => (t, (x.1.proceed t ok clock).1)
  | _ => none

/-- A notification is shown for the key. -/
def shows (key : Str) (x : Browser × Op) : Bool :=
  match outcome x with
  | some (t, .shown) => t.event.key = key
  | _ => false

/-- `showNotification` rejects. -/
def rejects (key : Str) (x : Browser × Op) : Bool :=
  match outcome x with
  | some (t, .rejected) => t.event.key = key
  | _ => false

/-- The key, the clock and the records of a claim. -/
def claiming (x : Browser × Op) : Option (Str × (Nat → Int)) :=
  match x.2 with
  | .turn i true clock =>
    match x.1.tasks[i]? with
    | some ⟨event, .enabled _⟩ => some (event.key, clock)
    | _ => none
  | _ => none

/-- The records that are pruned, with the clock of the transaction. -/
def pruned (x : Browser × Op) : List Claim :=
  match claiming x with
  | some (key, clock) => prunedClaims (fun j => clock (j + 1)) (putClaim key (clock 0) x.1.events)
  | none => []

/-- The deliveries of a key that hold its claim. -/
def Stage.holds : Stage → Bool
  | .claimed _ | .rejected => true
  | _ => false

def holders (key : Str) (b : Browser) : Nat :=
  b.tasks.countP fun t => t.event.key = key ∧ t.stage.holds = true

/-! ## Balance -/

theorem countP_set {α : Type} {l : List α} {i : Nat} {a : α} (h : l[i]? = some a) (b : α)
    (p : α → Bool) : (l.set i b).countP p + (p a).toNat = l.countP p + (p b).toNat := by
  induction l generalizing i with
  | nil => simp at h
  | cons c l ih =>
    cases i with
    | zero =>
      obtain rfl : c = a := by simpa using h
      rw [List.set_cons_zero, List.countP_cons, List.countP_cons]
      cases p b <;> cases p c <;> simp
    | succ i =>
      have := ih (i := i) (by simpa using h)
      rw [List.set_cons_succ, List.countP_cons, List.countP_cons]
      omega

/-- One delivery's part in `holders`. -/
def Task.weight (key : Str) (t : Task) : Nat :=
  (decide (t.event.key = key ∧ t.stage.holds = true)).toNat

theorem holders_turn {b : Browser} {i : Nat} {t : Task} (h : b.tasks[i]? = some t) (key : Str)
    (ok : Bool) (clock : Nat → Int) :
    holders key (b.turn i ok clock) + t.weight key =
      holders key b + Task.weight key { t with stage := (b.proceed t ok clock).1 } := by
  unfold holders Browser.turn
  rw [h]
  exact countP_set h _ _

theorem events_turn {b : Browser} {i : Nat} {t : Task} (h : b.tasks[i]? = some t) (ok : Bool)
    (clock : Nat → Int) : (b.turn i ok clock).events = (b.proceed t ok clock).2 := by
  unfold Browser.turn
  rw [h]

theorem outcome_turn {b : Browser} {i : Nat} {t : Task} (h : b.tasks[i]? = some t) (ok : Bool)
    (clock : Nat → Int) :
    outcome (b, .turn i ok clock) = some (t, (b.proceed t ok clock).1) := by
  unfold outcome
  simp [h]

/-- What a delivery takes up of the claims of a key, it was given. -/
theorem turn_balance {b : Browser} (hn : (keysOf b.events).Nodup) {i : Nat} {t : Task}
    (h : b.tasks[i]? = some t) (key : Str) (ok : Bool) (clock : Nat → Int) :
    Task.weight key { t with stage := (b.proceed t ok clock).1 } +
        (shows key (b, .turn i ok clock)).toNat + records key b.events ≤
      t.weight key + (rejects key (b, .turn i ok clock)).toNat +
        records key (pruned (b, .turn i ok clock)) + records key (b.proceed t ok clock).2 := by
  have hone := records_le_one hn key
  have hclaim := records_claimEvent hn key t.event.key clock
  have hrelease := records_releaseClaim key t.event.key b.events
  unfold shows rejects
  rw [outcome_turn h]
  obtain ⟨event, stage⟩ := t
  cases stage with
  | arrived =>
    cases ok
    · simp [Browser.proceed, Task.weight, Stage.holds]
    · by_cases hon : b.current.enabled <;> simp [Browser.proceed, Task.weight, Stage.holds, hon]
  | enabled config =>
    cases ok
    · simp [Browser.proceed, Task.weight, Stage.holds]
    · have hpruned : pruned (b, .turn i true clock) =
          prunedClaims (fun j => clock (j + 1)) (putClaim event.key (clock 0) b.events) := by
        unfold pruned claiming
        simp [h]
      rw [hpruned]
      by_cases hnew : (claimEvent event.key clock b.events).1 = true <;>
        rcases eq_or_ne event.key key with rfl | hkey
      · simp [Browser.proceed, Task.weight, Stage.holds, hnew] at hclaim ⊢
        omega
      · simp [Browser.proceed, Task.weight, Stage.holds, hnew, hkey] at hclaim ⊢
        omega
      · simp [Browser.proceed, Task.weight, Stage.holds, hnew] at hclaim ⊢
        omega
      · simp [Browser.proceed, Task.weight, Stage.holds, hnew, hkey] at hclaim ⊢
        omega
  | claimed config =>
    cases ok
    · simp [Browser.proceed, Task.weight, Stage.holds]
    · by_cases hkeep : b.current.enabled = true ∧ b.current.generation = config.generation <;>
        by_cases hkey : event.key = key <;>
        simp [Browser.proceed, Task.weight, Stage.holds, hkeep, hkey]
  | shown => cases ok <;> simp [Browser.proceed, Task.weight, Stage.holds]
  | rejected =>
    cases ok
    · simp [Browser.proceed, Task.weight, Stage.holds]
    · by_cases hkey : event.key = key <;>
        simp [Browser.proceed, Task.weight, Stage.holds, hkey] at hrelease ⊢ <;> omega
  | ended => cases ok <;> simp [Browser.proceed, Task.weight, Stage.holds]

theorem step_balance {b : Browser} (hn : (keysOf b.events).Nodup) (key : Str) (op : Op) :
    holders key (step b op) + (shows key (b, op)).toNat + records key b.events ≤
      holders key b + (rejects key (b, op)).toNat + records key (pruned (b, op)) +
        records key (step b op).events := by
  cases op with
  | push value now =>
    have hnew : ∀ e : Option Event,
        (e.map fun event => (⟨event, .arrived⟩ : Task)).toList.countP
          (fun t => decide (t.event.key = key ∧ t.stage.holds = true)) = 0 := by
      rintro (_ | e) <;> simp [Stage.holds]
    have hsame : holders key (step b (.push value now)) = holders key b := by
      unfold holders step
      rw [List.countP_append, hnew]
      rfl
    rw [hsame]
    exact Nat.le_refl _
  | change request commits => exact Nat.le_refl _
  | turn i ok clock =>
    cases h : b.tasks[i]? with
    | none =>
      have hstep : step b (.turn i ok clock) = b := by simp [step, Browser.turn, h]
      have hshows : shows key (b, .turn i ok clock) = false := by simp [shows, outcome, h]
      rw [hstep, hshows, Bool.toNat_false]
      omega
    | some t =>
      have hturn := turn_balance hn h key ok clock
      have hholders := holders_turn h key ok clock
      have hevents := events_turn h ok clock
      show holders key (b.turn i ok clock) + _ + _ ≤ _ + _ + _ + records key (b.turn i ok clock).events
      rw [hevents]
      omega
  | stop =>
    have hnone : holders key (step b .stop) = 0 := by
      unfold holders step
      simp [List.countP_map, Stage.holds, Function.comp_def]
    rw [hnone]
    show 0 + 0 + records key b.events ≤ holders key b + 0 + 0 + records key b.events
    omega

/-- The records after a step: the same ones, those that a claim leaves, or all but those of a key. -/
theorem events_step (b : Browser) (op : Op) :
    (step b op).events = b.events ∨
      (∃ key clock, claiming (b, op) = some (key, clock) ∧
        (step b op).events = (claimEvent key clock b.events).2) ∨
      ∃ key, (step b op).events = releaseClaim key b.events := by
  cases op with
  | turn i ok clock =>
    cases h : b.tasks[i]? with
    | none => exact Or.inl (by simp [step, Browser.turn, h])
    | some t =>
      have hevents : (step b (.turn i ok clock)).events = (b.proceed t ok clock).2 :=
        events_turn h ok clock
      rw [hevents]
      obtain ⟨event, stage⟩ := t
      cases stage with
      | enabled config =>
        cases ok
        · exact Or.inl rfl
        · exact Or.inr (Or.inl ⟨event.key, clock, by simp [claiming, h], rfl⟩)
      | rejected =>
        cases ok
        · exact Or.inl rfl
        · exact Or.inr (Or.inr ⟨event.key, rfl⟩)
      | _ => cases ok <;> exact Or.inl rfl
  | _ => exact Or.inl rfl

/-! ## Runs -/

/-- A key has one record at most, and there are not too many. -/
structure Tidy (b : Browser) : Prop where
  keys : (keysOf b.events).Nodup
  size : b.events.length ≤ maxEvents

theorem tidy_step {b : Browser} (h : Tidy b) (op : Op) : Tidy (step b op) := by
  rcases events_step b op with heq | ⟨key, clock, -, heq⟩ | ⟨key, heq⟩
  · exact ⟨heq ▸ h.keys, heq ▸ h.size⟩
  · have hput := nodup_putClaim h.keys key (clock 0)
    constructor <;> rw [heq]
    · exact nodup_filter hput _
    · exact length_pruneEvents _ (nodup_of_keys hput)
  · constructor <;> rw [heq]
    · exact nodup_filter h.keys _
    · exact (List.length_filter_le _ _).trans h.size

theorem tidy_empty : Tidy .empty := ⟨List.nodup_nil, Nat.zero_le _⟩

theorem tidy_run (ops : List Op) : Tidy (replay step .empty ops) :=
  replay_invariant step tidy_empty (fun _ op h => tidy_step h op) ops

/-- What was shown of a key and what is held of it was rejected, pruned or is on record. -/
theorem run_balance (key : Str) (ops : List Op) :
    holders key (replay step .empty ops) + (trace step .empty ops).countP (shows key) ≤
      (trace step .empty ops).countP (rejects key) +
        records key ((trace step .empty ops).flatMap pruned) +
        records key (replay step .empty ops).events := by
  refine replay_induction step (s := Browser.empty) (I := fun es b => holders key b +
    (trace step .empty es).countP (shows key) ≤ (trace step .empty es).countP (rejects key) +
      records key ((trace step .empty es).flatMap pruned) + records key b.events)
    (Nat.zero_le _) (fun es op ih => ?_) ops
  have hstep := step_balance (tidy_run es).keys key op
  have hrecords : ∀ l m : List Claim, records key (l ++ m) = records key l + records key m :=
    fun l m => List.countP_append
  have hbool : ∀ p : Bool, (if p = true then 1 else 0) = p.toNat := by decide
  rw [trace_concat, List.countP_append, List.countP_append, List.flatMap_append, hrecords,
    List.countP_singleton, List.countP_singleton, List.flatMap_singleton, hbool, hbool]
  omega

/-- The claim that put a record in. -/
def ClaimedBy (c : Claim) (x : Browser × Op) : Prop :=
  ∃ clock, claiming x = some (c.key, clock) ∧ c.expires = clock 0 + retentionMs

theorem mem_putClaim {key : Str} {now : Int} {claims : List Claim} {c : Claim}
    (h : c ∈ putClaim key now claims) :
    c ∈ claims ∨ (key ∉ keysOf claims ∧ c = ⟨key, now + retentionMs⟩) := by
  unfold putClaim at h
  split at h
  · exact Or.inl h
  · next hnew =>
    rcases List.mem_append.mp h with h | h
    · exact Or.inl h
    · exact Or.inr ⟨hnew, List.mem_singleton.mp h⟩

theorem claimedBy_run (ops : List Op) :
    ∀ c ∈ (replay step .empty ops).events, ∃ x ∈ trace step .empty ops, ClaimedBy c x := by
  refine replay_induction step (s := Browser.empty)
    (I := fun es b => ∀ c ∈ b.events, ∃ x ∈ trace step .empty es, ClaimedBy c x)
    (fun c h => nomatch h) (fun es op ih c hc => ?_) ops
  have hold : c ∈ (replay step .empty es).events →
      ∃ x ∈ trace step .empty (es ++ [op]), ClaimedBy c x := by
    intro h
    obtain ⟨x, hx, hclaimed⟩ := ih c h
    rw [trace_concat]
    exact ⟨x, List.mem_append_left _ hx, hclaimed⟩
  rcases events_step (replay step .empty es) op with heq | ⟨key, clock, hclaiming, heq⟩ | ⟨key, heq⟩
  · exact hold (heq ▸ hc)
  · rw [heq] at hc
    rcases mem_putClaim (List.mem_of_mem_filter hc) with h | ⟨-, rfl⟩
    · exact hold h
    · rw [trace_concat]
      exact ⟨_, List.mem_append_right _ (List.mem_singleton_self _), clock, hclaiming, rfl⟩
  · rw [heq] at hc
    exact hold (List.mem_of_mem_filter hc)

/-- Why a record is pruned. -/
def Due (x : Browser × Op) (c : Claim) : Prop :=
  ∃ key clock, claiming x = some (key, clock) ∧
    ((∃ j, c.expires ≤ clock (j + 1)) ∨
      (x.1.events.length = maxEvents ∧ key ∉ keysOf x.1.events ∧ ∀ d ∈ x.1.events, c.before d))

/-- The first of a sorted list comes before all. -/
theorem before_of_mem_take {claims : List Claim} {c : Claim}
    (h : c ∈ (claims.insertionSort Claim.before).take 1) : ∀ d ∈ claims, c.before d := by
  intro d hd
  have hsorted := List.pairwise_insertionSort Claim.before claims
  have hd := (List.perm_insertionSort Claim.before claims).mem_iff.mpr hd
  cases hl : claims.insertionSort Claim.before with
  | nil =>
    rw [hl] at h
    cases h
  | cons e l =>
    rw [hl] at h hsorted hd
    obtain rfl : c = e := by simpa using h
    rcases List.mem_cons.mp hd with rfl | hd
    · exact Or.inr ⟨rfl, (leText_total _ _).elim id id⟩
    · exact (List.pairwise_cons.mp hsorted).1 d hd

theorem due_of_pruned {x : Browser × Op} (hx : Tidy x.1) {c : Claim} (h : c ∈ pruned x) :
    Due x c := by
  unfold pruned at h
  split at h
  · next key clock hclaiming =>
    refine ⟨key, clock, hclaiming, ?_⟩
    rcases mem_prunedClaims _ h with hexpired | hfirst
    · exact Or.inl hexpired
    · have hsize := hx.size
      by_cases hknown : key ∈ keysOf x.1.events
      · have hput : putClaim key (clock 0) x.1.events = x.1.events := if_pos hknown
        rw [hput, Nat.sub_eq_zero_of_le hsize] at hfirst
        simp at hfirst
      · have hput : putClaim key (clock 0) x.1.events =
            x.1.events ++ [⟨key, clock 0 + retentionMs⟩] := if_neg hknown
        rw [hput, List.length_append, List.length_singleton] at hfirst
        rcases Nat.lt_or_ge x.1.events.length maxEvents with hroom | hfull
        · rw [Nat.sub_eq_zero_of_le hroom] at hfirst
          simp at hfirst
        · have hone : x.1.events.length + 1 - maxEvents = 1 := by omega
          rw [hone] at hfirst
          refine Or.inr ⟨by omega, hknown, fun d hd => ?_⟩
          exact before_of_mem_take hfirst d (List.mem_append_left _ hd)
  · cases h

/-- What holds of every run. -/
structure ShownOnce (ops : List Op) : Prop where
  /-- A key is shown once, and once more for each rejected call and each pruned record. -/
  count : ∀ key, (trace step .empty ops).countP (shows key) ≤
    (trace step .empty ops).countP (rejects key) +
      records key ((trace step .empty ops).flatMap pruned) + 1
  /-- A record stays 30 days from its claim. -/
  kept : ∀ c ∈ (replay step .empty ops).events, ∃ x ∈ trace step .empty ops, ClaimedBy c x
  /-- It is pruned when they are over, or as the first to expire of a full table. -/
  due : ∀ x ∈ trace step .empty ops, ∀ c ∈ pruned x, Due x c
  size : (replay step .empty ops).events.length ≤ maxEvents

/-- **A notification is shown once.** -/
theorem shown_once (ops : List Op) : ShownOnce ops where
  count key := by
    have hbalance := run_balance key ops
    have hone := records_le_one (tidy_run ops).keys key
    omega
  kept := claimedBy_run ops
  due _ hx _ hc :=
    due_of_pruned (trace_invariant step tidy_empty (fun _ op h => tidy_step h op) hx) hc
  size := (tidy_run ops).size

/-! ## Generations -/

/-- A begin or a disable is applied. -/
def retires (x : Browser × Op) : Bool := (applied x.1 x.2).any fun a => a.1.retires

/-- The generation counts the begins and the disables; while there is none of them, what is enabled
    stays enabled. -/
theorem current_step (b : Browser) (op : Op) :
    (step b op).current.generation = b.current.generation + (retires (b, op)).toNat ∧
      (retires (b, op) = false → b.current.enabled = true → (step b op).current.enabled = true) := by
  cases op with
  | turn i ok clock =>
    have hsaved : (step b (.turn i ok clock)).current = b.current := by
      simp only [step, Browser.turn]
      split <;> rfl
    rw [hsaved]
    exact ⟨by simp [retires, applied], fun _ h => h⟩
  | change request commits =>
    cases h : applied b (.change request commits) with
    | none =>
      have hsaved : (step b (.change request commits)).current = b.current := by
        simp [step, h, Browser.current]
      rw [hsaved]
      exact ⟨by simp [retires, h], fun _ h => h⟩
    | some a =>
      obtain ⟨request', next⟩ := a
      have hsaved : (step b (.change request commits)).current = next := by
        simp [step, h, Browser.current]
      obtain ⟨hchange, rfl⟩ : changeSettings request b.current = some next ∧ request = request' := by
        cases commits
        · simp [applied] at h
        · simpa [applied, Option.map_eq_some_iff] using h
      rw [hsaved]
      rcases changeSettings_some hchange with ⟨hretires, rfl⟩ | ⟨hkeeps, rfl, -⟩
      · exact ⟨by simp [retires, h, hretires], fun hnot => by simp [retires, h, hretires] at hnot⟩
      · exact ⟨by simp [retires, h, hkeeps], fun _ _ => rfl⟩
  | _ => exact ⟨by simp [retires, applied]; rfl, fun _ h => h⟩

theorem generation_run (b : Browser) (ops : List Op) :
    (replay step b ops).current.generation =
      b.current.generation + (trace step b ops).countP retires := by
  refine replay_induction step (s := b) (I := fun es c => c.current.generation =
    b.current.generation + (trace step b es).countP retires) (by simp [trace])
    (fun es op ih => ?_) ops
  have hbool : (if retires (replay step b es, op) = true then 1 else 0) =
      (retires (replay step b es, op)).toNat := by
    cases retires (replay step b es, op) <;> rfl
  rw [(current_step _ op).1, ih, trace_concat, List.countP_append, List.countP_singleton, hbool]
  push_cast
  ring

theorem generation_nonneg (ops : List Op) : 0 ≤ (replay step .empty ops).current.generation := by
  rw [generation_run]
  exact Int.add_nonneg (le_refl _) (Int.natCast_nonneg _)

/-! ### What a delivery has read -/

/-- The settings that the first transaction returned. -/
def Stage.config? : Stage → Option Settings
  | .enabled config | .claimed config => some config
  | _ => none

/-- A delivery reads the settings first, and they are enabled. -/
def FirstRead (i : Nat) (x : Browser × Op) : Prop :=
  ∃ clock t, x.2 = .turn i true clock ∧ x.1.tasks[i]? = some t ∧ t.stage = .arrived ∧
    x.1.current.enabled = true

/-- A resumed delivery that has read the settings has just done so, or had before. -/
theorem config_proceed {b : Browser} {t : Task} {ok : Bool} {clock : Nat → Int} {config : Settings}
    (h : (b.proceed t ok clock).1.config? = some config) :
    (t.stage = .arrived ∧ ok = true ∧ b.current.enabled = true ∧ config = b.current) ∨
      t.stage.config? = some config := by
  obtain ⟨event, stage⟩ := t
  cases stage with
  | arrived =>
    cases ok
    · simp [Browser.proceed, Stage.config?] at h
    · by_cases hon : b.current.enabled = true
      · simp [Browser.proceed, Stage.config?, hon] at h
        exact Or.inl ⟨rfl, rfl, hon, h.symm⟩
      · simp [Browser.proceed, Stage.config?, hon] at h
  | enabled config' =>
    cases ok
    · simp [Browser.proceed, Stage.config?] at h
    · by_cases hnew : (claimEvent event.key clock b.events).1 = true
      · exact Or.inr (by simpa [Browser.proceed, Stage.config?, hnew] using h)
      · simp [Browser.proceed, Stage.config?, hnew] at h
  | claimed config' =>
    cases ok
    · simp [Browser.proceed, Stage.config?] at h
    · by_cases hkeep : b.current.enabled = true ∧ b.current.generation = config'.generation <;>
        simp [Browser.proceed, Stage.config?, hkeep] at h
  | _ => cases ok <;> simp [Browser.proceed, Stage.config?] at h

/-- A delivery that has read the settings has just done so, or had before. -/
theorem config_step {b : Browser} {op : Op} {i : Nat} {t : Task} {config : Settings}
    (ht : (step b op).tasks[i]? = some t) (hconfig : t.stage.config? = some config) :
    (FirstRead i (b, op) ∧ config = b.current) ∨
      ∃ t', b.tasks[i]? = some t' ∧ t'.stage.config? = some config := by
  cases op with
  | push value now =>
    have hmem : ∀ e : Option Event, t ∉ (e.map fun event => (⟨event, .arrived⟩ : Task)).toList := by
      rintro (_ | e) hmem
      · simp at hmem
      · obtain rfl : t = ⟨e, .arrived⟩ := by simpa using hmem
        simp [Stage.config?] at hconfig
    simp only [step, List.getElem?_append] at ht
    split at ht
    · exact Or.inr ⟨t, ht, hconfig⟩
    · exact absurd (List.mem_of_getElem? ht) (hmem _)
  | change request commits => exact Or.inr ⟨t, ht, hconfig⟩
  | turn j ok clock =>
    cases hj : b.tasks[j]? with
    | none =>
      have hsame : step b (.turn j ok clock) = b := by simp [step, Browser.turn, hj]
      exact Or.inr ⟨t, hsame ▸ ht, hconfig⟩
    | some u =>
      have htasks : (step b (.turn j ok clock)).tasks =
          b.tasks.set j { u with stage := (b.proceed u ok clock).1 } := by
        simp [step, Browser.turn, hj]
      rw [htasks] at ht
      rcases eq_or_ne j i with rfl | hne
      · rw [List.getElem?_set_self (List.getElem?_eq_some_iff.mp hj).1] at ht
        obtain rfl := Option.some.inj ht
        rcases config_proceed hconfig with ⟨harrived, rfl, hon, rfl⟩ | hold
        · exact Or.inl ⟨⟨clock, u, rfl, hj, harrived, hon⟩, rfl⟩
        · exact Or.inr ⟨u, hj, hold⟩
      · rw [List.getElem?_set_ne hne] at ht
        exact Or.inr ⟨t, ht, hconfig⟩
  | stop =>
    simp only [step, List.getElem?_map, Option.map_eq_some_iff] at ht
    obtain ⟨u, -, rfl⟩ := ht
    simp [Stage.config?] at hconfig

/-- What the settings that a delivery read say of the requests since. -/
structure Fresh (es : List Op) (b : Browser) (i : Nat) (config : Settings) : Prop where
  le : config.generation ≤ b.current.generation
  enabled : config.generation = b.current.generation → b.current.enabled = true
  since : config.generation = b.current.generation ↔
    Since (fun x => retires x = false) (FirstRead i) (trace step .empty es)

theorem fresh_run (ops : List Op) : ∀ i t config, (replay step .empty ops).tasks[i]? = some t →
    t.stage.config? = some config → Fresh ops (replay step .empty ops) i config := by
  refine replay_induction step (s := Browser.empty) (I := fun es b => ∀ i t config,
    b.tasks[i]? = some t → t.stage.config? = some config → Fresh es b i config)
    (fun i t config h => by simp [Browser.empty] at h) (fun es op ih i t config ht hconfig => ?_) ops
  obtain ⟨hgeneration, hkeeps⟩ := current_step (replay step .empty es) op
  rcases config_step ht hconfig with ⟨hread, rfl⟩ | ⟨t', ht', hconfig'⟩
  · have hquiet : retires (replay step .empty es, op) = false := by
      obtain ⟨clock, u, rfl, -⟩ := hread
      rfl
    obtain ⟨clock, u, -, -, -, hon⟩ := id hread
    rw [hquiet, Bool.toNat_false, Int.natCast_zero, add_zero] at hgeneration
    refine ⟨hgeneration.ge, fun _ => hkeeps hquiet hon, ?_⟩
    rw [trace_concat]
    exact ⟨fun _ => .now hread, fun _ => hgeneration.symm⟩
  · obtain ⟨hle, henabled, hsince⟩ := ih i t' config ht' hconfig'
    have hlater : ¬ FirstRead i (replay step .empty es, op) := by
      rintro ⟨clock, u, -, hu, harrived, -⟩
      rw [show (replay step .empty es, op).1.tasks[i]? = some t' from ht'] at hu
      obtain rfl := Option.some.inj hu
      rw [harrived] at hconfig'
      cases hconfig'
    cases hretires : retires (replay step .empty es, op) with
    | true =>
      rw [hretires, Bool.toNat_true] at hgeneration
      refine ⟨by omega, by omega, ?_⟩
      rw [trace_concat, since_concat, hretires]
      constructor
      · intro heq
        omega
      · rintro (h | ⟨h, -⟩)
        · exact absurd h hlater
        · cases h
    | false =>
      rw [hretires, Bool.toNat_false, Int.natCast_zero, add_zero] at hgeneration
      rw [← hgeneration] at hle henabled hsince
      refine ⟨hle, fun heq => hkeeps hretires (henabled heq), ?_⟩
      rw [trace_concat, since_concat, hretires, hsince]
      constructor
      · exact fun h => Or.inr ⟨rfl, h⟩
      · rintro (h | ⟨-, h⟩)
        · exact absurd h hlater
        · exact h

theorem proceed_shown (b : Browser) (t : Task) (ok : Bool) (clock : Nat → Int) :
    (b.proceed t ok clock).1 = .shown ↔ ok = true ∧ ∃ config, t.stage = .claimed config ∧
      b.current.enabled = true ∧ b.current.generation = config.generation := by
  obtain ⟨event, stage⟩ := t
  cases stage with
  | arrived => cases ok <;> by_cases hon : b.current.enabled = true <;> simp [Browser.proceed, hon]
  | enabled config =>
    cases ok
    · simp [Browser.proceed]
    · by_cases hnew : (claimEvent event.key clock b.events).1 = true <;> simp [Browser.proceed, hnew]
  | claimed config => cases ok <;> simp [Browser.proceed]
  | _ => cases ok <;> simp [Browser.proceed]

theorem shows_iff (b : Browser) (op : Op) (key : Str) :
    shows key (b, op) = true ↔ ∃ i ok clock t, op = .turn i ok clock ∧ b.tasks[i]? = some t ∧
      t.event.key = key ∧ (b.proceed t ok clock).1 = .shown := by
  constructor
  · intro h
    unfold shows at h
    split at h
    · next t hout =>
      cases op with
      | turn i ok clock =>
        obtain ⟨u, hu, heq⟩ := Option.map_eq_some_iff.mp hout
        obtain ⟨rfl, hshown⟩ := Prod.mk.inj heq
        exact ⟨i, ok, clock, u, rfl, hu, of_decide_eq_true h, hshown⟩
      | _ => cases hout
    · cases h
  · rintro ⟨i, ok, clock, t, rfl, ht, rfl, hshown⟩
    unfold shows
    rw [outcome_turn ht, hshown]
    simp

/-! ## Main results -/

/-- **A claimed notification is shown exactly when nothing was disabled since it was admitted.** -/
theorem shown_since (ops : List Op) (op : Op) (key : Str) :
    shows key (replay step .empty ops, op) = true ↔
      ∃ i clock t config, op = .turn i true clock ∧
        (replay step .empty ops).tasks[i]? = some t ∧ t.event.key = key ∧
        t.stage = .claimed config ∧
        Since (fun x => retires x = false) (FirstRead i) (trace step .empty ops) := by
  rw [shows_iff]
  constructor
  · rintro ⟨i, ok, clock, t, rfl, ht, hkey, hshown⟩
    obtain ⟨rfl, config, hclaimed, -, hgeneration⟩ := (proceed_shown _ _ _ _).mp hshown
    have hfresh := fresh_run ops i t config ht (by rw [hclaimed]; rfl)
    exact ⟨i, clock, t, config, rfl, ht, hkey, hclaimed, hfresh.since.mp hgeneration.symm⟩
  · rintro ⟨i, clock, t, config, rfl, ht, hkey, hclaimed, hsince⟩
    have hfresh := fresh_run ops i t config ht (by rw [hclaimed]; rfl)
    have hgeneration := hfresh.since.mpr hsince
    refine ⟨i, true, clock, t, rfl, ht, hkey, (proceed_shown _ _ _ _).mpr ⟨rfl, config, hclaimed, ?_⟩⟩
    exact ⟨hfresh.enabled hgeneration, hgeneration.symm⟩

/-- What a begin answers. -/
theorem begin_applied {b : Browser} {generation : Value} {request : Request} {next : Settings}
    (h : applied b (.change (.begin generation) true) = some (request, next)) :
    next.enabled = false ∧ next.generation = b.current.generation + 1 ∧
      next.generation ≤ maxSafeInteger ∧
      (step b (.change (.begin generation) true)).current = next := by
  have hstep : (step b (.change (.begin generation) true)).current = next := by
    simp [step, h, Browser.current]
  obtain ⟨hchange, rfl⟩ : changeSettings (.begin generation) b.current = some next ∧
      .begin generation = request := by
    simpa [applied, Option.map_eq_some_iff] using h
  unfold changeSettings at hchange
  split at hchange
  · cases hchange
  · have hretires : (Request.begin generation).retires = true := rfl
    rw [if_pos hretires] at hchange
    split at hchange
    · cases hchange
    · obtain rfl := Option.some.inj hchange
      exact ⟨rfl, rfl, by dsimp only; omega, hstep⟩

/-- **An enable is applied exactly when nothing else began or disabled since its begin.** -/
theorem enabled_iff (before mid : List Op) (generation : Value) {request : Request}
    {next : Settings} (h : applied (replay step .empty before)
      (.change (.begin generation) true) = some (request, next)) :
    (applied (replay step .empty (before ++ .change (.begin generation) true :: mid))
        (.change (.set true (.int next.generation)) true)).isSome = true ↔
      ∀ x ∈ trace step (replay step .empty (before ++ [.change (.begin generation) true])) mid,
        retires x = false := by
  obtain ⟨-, hnext, hmax, hstep⟩ := begin_applied h
  have hpos := generation_nonneg before
  have hsafe : safeInteger? (.int next.generation) = some next.generation :=
    safeInteger?_int (by omega)
  have hrun : replay step .empty (before ++ .change (.begin generation) true :: mid) =
      replay step (replay step .empty (before ++ [.change (.begin generation) true])) mid := by
    rw [← replay_append, List.append_assoc]
    rfl
  have hstart : (replay step .empty (before ++ [.change (.begin generation) true])).current =
      next := by
    rw [replay_append]
    exact hstep
  have hcount := generation_run (replay step .empty (before ++ [.change (.begin generation) true])) mid
  rw [hstart] at hcount
  have hiff : ∀ current : Settings, (changeSettings (.set true (.int next.generation)) current).isSome
      = true ↔ next.generation = current.generation := by
    intro current
    unfold changeSettings
    simp only [Request.needsCurrent, Request.generation, Request.retires, hsafe, Bool.true_and,
      Bool.not_true, Bool.false_eq_true, if_false, ne_eq, Option.some.injEq, decide_not,
      Bool.not_eq_true', decide_eq_false_iff_not]
    split <;> simp_all
  have happlied : ∀ b : Browser, (applied b (.change (.set true (.int next.generation)) true)).isSome =
      (changeSettings (.set true (.int next.generation)) b.current).isSome := by
    intro b
    simp [applied]
  rw [happlied, hiff, hrun, hcount]
  constructor
  · intro heq x hx
    have hzero : (trace step (replay step .empty (before ++ [.change (.begin generation) true]))
        mid).countP retires = 0 := by omega
    exact Bool.not_eq_true _ ▸ List.countP_eq_zero.mp hzero x hx
  · intro hnone
    have hzero : (trace step (replay step .empty (before ++ [.change (.begin generation) true]))
        mid).countP retires = 0 :=
      List.countP_eq_zero.mpr fun x hx => by rw [hnone x hx]; exact Bool.false_ne_true
    omega

/-- Another tab disables between a begin and its enable. -/
theorem enabled_iff_overtaken :
    (applied (replay step .empty [.change (.begin (.int 0)) true, .change (.set false .none) true])
      (.change (.set true (.int 1)) true)).isSome = false := by
  have hbegin : applied (replay step .empty []) (.change (.begin (.int 0)) true) =
      some (.begin (.int 0), ⟨false, 1⟩) := by
    simp only [replay_nil, applied, changeSettings, Request.needsCurrent, Request.generation,
      safeInteger?_int (i := 0) (by decide)]
    rfl
  have hiff := enabled_iff [] [.change (.set false .none) true] (.int 0) hbegin
  rw [← Bool.not_eq_true]
  intro happlied
  have hquiet := hiff.mp happlied _ List.mem_cons_self
  revert hquiet
  decide +kernel

end InverterDashboard.Worker
