import Mathlib.Data.Rat.Floor
import InverterDashboard.Push.Leases
import InverterDashboard.Push.Startup

/-
  The service over its restarts: what a run leaves in the tables, a later start accepts.

  The checks of a start reject times that are not between 1 and 2^53 - 1 milliseconds. The writers
  do not look at this: a notification dated in the first millisecond of 1970 has a positive time
  that truncates to 0 (`first_millisecond_disables`). A run in which no event is built from such a
  time starts again at every point, even within a step (`starts_again`).
-/

namespace InverterDashboard.Push

open Python Cerbo Bounded Temporal

variable (onCurve : List UInt8 → Bool)

/-! ## Restarts -/

/-- A step of the service, or the end of the process and its next start. -/
inductive LifeOp where
  | step (op : ServiceOp)
  | restart (epoch : Str) (now : ℚ)

/-- `__init__` and `start`; `none` is `storage_unavailable`. -/
def boot (t : PushStore) (epoch : Str) (now : ℚ) : Option PushService :=
  if opens onCurve t then some (.started t epoch now) else none

/-- A service that could not be started stays unavailable: its tables do not change. -/
def lifeStep (s : Option PushService) : LifeOp → Option PushService
  | .step op => s.map fun s => serviceStep onCurve s op
  | .restart epoch now => s.bind fun s => boot onCurve s.store epoch now

/-! ## Well-dated steps -/

/-- The events that a step builds have times that a start accepts: a test that is due, an urgent
    notification in its window after priming, a transition from a fresh baseline. -/
def WellDated (s : PushService) : ServiceOp → Prop
  | .test endpoint _ now =>
    ∀ r ∈ s.store.subscriptions, r.id = PushStore.identifierOf endpoint → r.lastTestAt ≤ now - 60 →
      isPersistedMs (nowMs now) = true
  | .native notifications now prime _ =>
    s.processor.primes prime = false → ∀ n ∈ notifications.take nativeLimit, ∀ sourceMs,
      timestampMs n.ts = some sourceMs → n.urgent = true →
      inWindow s.processor.startedAt now sourceMs = true →
      isPersistedMs sourceMs = true ∧ isPersistedMs (nowMs now) = true
  | .sample kind identifier value now prime _ =>
    prime = false → ∀ v ∈ value, ∀ baseline ∈ s.processor.samples.get? (sampleKey kind identifier),
      baselineFresh now baseline.2 = true → (sampleMessage kind identifier baseline.1 v).isSome →
      isPersistedMs (nowMs now) = true
  | _ => True

/-- Every step of a run is well dated. -/
def Dated (start : Option PushService) (ops : List LifeOp) : Prop :=
  ∀ s op, (some s, LifeOp.step op) ∈ trace (lifeStep onCurve) start ops → WellDated s op

/-! ## The events of a step -/

/-- What a notification that is an event is. -/
theorem nativeEvent_some {p : EventProcessor} {n : Notification} {now : ℚ} {prime : Bool}
    {event : EventPayload} (h : (nativeEvent p n now prime).2 = some (some event)) :
    prime = false ∧ ∃ sourceMs, timestampMs n.ts = some sourceMs ∧
      n.payload sourceMs now = some event ∧ n.urgent = true ∧
      inWindow p.startedAt now sourceMs = true ∧ hydrates p n = false := by
  unfold nativeEvent at h
  split at h
  · split at h
    · cases h
    · cases h
  · next sourceMs hms =>
    split at h
    · cases h
    · next e he =>
      dsimp only at h
      split at h
      · cases h
      · next hprime =>
        rw [Bool.or_eq_true, not_or, Bool.not_eq_true, Bool.not_eq_true] at hprime
        split at h
        · cases h
        · next hurgent =>
          split at h
          · cases h
          · next hwindow =>
            obtain rfl := Option.some.inj (Option.some.inj h)
            exact ⟨hprime.1, sourceMs, hms, he, by simpa using hurgent, by simpa using hwindow,
              hprime.2⟩

/-- Where an event of a call comes from, and what the processor was when it came. -/
theorem mem_nativeEvents {now : ℚ} {prime : Bool} {ns : List Notification} {p : EventProcessor}
    {event : EventPayload} (h : event ∈ (nativeEvents now prime ns p).2.getD []) :
    prime = false ∧ ∃ first n last, ns = first ++ n :: last ∧ ∃ sourceMs,
      timestampMs n.ts = some sourceMs ∧ n.payload sourceMs now = some event ∧ n.urgent = true ∧
      inWindow p.startedAt now sourceMs = true ∧
      hydrates (nativeEvents now prime first p).1 n = false := by
  induction ns generalizing p with
  | nil => cases h
  | cons n ns ih =>
    unfold nativeEvents at h
    have hstarted := (nativeEvent_epoch p n now prime).2.1
    cases hone : nativeEvent p n now prime with
    | mk q out =>
      rw [hone] at h hstarted
      cases out with
      | none => cases h
      | some one =>
        dsimp only at h hstarted
        cases hrest : (nativeEvents now prime ns q).2 with
        | none =>
          rw [hrest] at h
          cases h
        | some events =>
          rw [hrest] at h
          rcases List.mem_append.mp h with h | h
          · obtain rfl := Option.mem_toList.mp h
            obtain ⟨hprime, hevent⟩ := nativeEvent_some (congrArg Prod.snd hone)
            exact ⟨hprime, [], n, ns, rfl, hevent⟩
          · obtain ⟨hprime, first, m, last, rfl, hevent⟩ := ih (p := q) (by rw [hrest]; exact h)
            refine ⟨hprime, n :: first, m, last, rfl, ?_⟩
            rw [hstarted] at hevent
            unfold nativeEvents
            rw [hone]
            exact hevent

theorem native_events (p : EventProcessor) (ns : List Notification) (now : ℚ) (prime : Bool) :
    (native p ns now prime).2 =
      (nativeEvents now (p.primes prime) (ns.take nativeLimit) (nativeStart p ns)).2 := by
  unfold native nativeStart
  dsimp only
  split
  · next h => rw [h]
  · next h => rw [h]

/-- The kinds with a message have one source. -/
theorem kind_of_sampleMessage {kind identifier : Str} {before value : SampleValue}
    (h : (sampleMessage kind identifier before value).isSome) :
    Str.lit "victron" ∈ sourcesOf kind := by
  unfold sampleMessage at h
  split at h
  · next hkind => rw [hkind]; decide
  · split at h
    · cases h
    · split at h
      · next hkind => rw [hkind]; decide
      · split at h
        · next hkind => rw [hkind]; decide
        · cases h

/-- What a sample that is an event is. -/
theorem sample_some {p : EventProcessor} {kind identifier : Str} {value : Option SampleValue}
    {now : ℚ} {prime : Bool} {event : EventPayload}
    (h : (sample p kind identifier value now prime).2 = some (some event)) :
    prime = false ∧ ∃ v ∈ value, ∃ baseline ∈ p.samples.get? (sampleKey kind identifier),
      baselineFresh now baseline.2 = true ∧ ∃ text ∈ sampleMessage kind identifier baseline.1 v,
        eventPayload kind (Str.lit "victron") identifier (nowMs now) now text.1 text.2 =
          some event := by
  unfold sample at h
  cases value with
  | none => cases h
  | some v =>
    dsimp only at h
    cases hbefore : p.samples.get? (sampleKey kind identifier) with
    | none =>
      rw [hbefore] at h
      cases h
    | some baseline =>
      rw [hbefore] at h
      dsimp only at h
      split at h
      · cases h
      · next hfresh =>
        rw [Bool.or_eq_true, not_or, Bool.not_eq_true, Bool.not_eq_true', Bool.not_eq_false] at hfresh
        cases htext : sampleMessage kind identifier baseline.1 v with
        | none =>
          rw [htext] at h
          cases h
        | some text =>
          rw [htext] at h
          obtain ⟨e, he, hsome⟩ := Option.map_eq_some_iff.mp h
          obtain rfl := Option.some.inj hsome
          exact ⟨hfresh.1, v, rfl, baseline, rfl, hfresh.2, text, htext, he⟩

theorem sourceName_known (n : Notification) : n.sourceName ∈ sourcesOf (Str.lit "native") := by
  have hvictron : Str.lit "victron" ∈ sourcesOf (Str.lit "native") := by decide
  have hsystem : Str.lit "system" ∈ sourcesOf (Str.lit "native") := by decide
  unfold Notification.sourceName
  split
  · split
    · next h => rw [h]; exact hvictron
    · exact hsystem
  · exact hsystem

/-- The events of a well-dated step are well formed. -/
theorem WellDated.wellFormed {s : PushService} {op : ServiceOp} (h : WellDated s op)
    {event : EventPayload} (hevent : event ∈ detectedEvents s op) : event.WellFormed := by
  cases op with
  | native notifications now prime clock =>
    unfold detectedEvents at hevent
    dsimp only at hevent
    rw [native_events] at hevent
    obtain ⟨hprime, first, n, last, hsplit, sourceMs, hms, hpayload, hurgent, hwindow, -⟩ :=
      mem_nativeEvents hevent
    obtain ⟨hsource, hnow⟩ := h hprime n (hsplit ▸ by simp) sourceMs hms hurgent hwindow
    exact wellFormed_of_eventPayload hpayload (sourceName_known n) hsource hnow
  | sample kind identifier value now prime clock =>
    unfold detectedEvents at hevent
    dsimp only at hevent
    rw [Option.mem_toList] at hevent
    obtain ⟨hprime, v, hv, baseline, hbaseline, hfresh, text, htext, hpayload⟩ :=
      sample_some (Option.join_eq_some_iff.mp hevent)
    have hsome := Option.isSome_iff_exists.mpr ⟨text, htext⟩
    have hnow := h hprime v hv baseline hbaseline hfresh hsome
    exact wellFormed_of_eventPayload hpayload (kind_of_sampleMessage hsome) hnow hnow
  | _ => cases hevent

/-- A test is queued only when its subscription is due for one. -/
theorem due_of_testCalls {s : PushService} {identifier uuid : Str} {now : ℚ} {eventId : Str}
    {payload : EventPayload} {targets : List Str} {time : ℚ} {epoch : Str}
    (h : .enqueue eventId payload targets time epoch ∈ s.testCalls identifier uuid now) :
    ∃ r ∈ s.store.subscriptions, r.id = identifier ∧ r.lastTestAt ≤ now - 60 := by
  unfold PushService.testCalls at h
  dsimp only at h
  rcases List.mem_cons.mp h with h | h
  · cases h
  · split at h
    · cases h
    · rcases List.mem_cons.mp h with h | h
      · cases h
      · split at h
        · next hdue =>
          obtain ⟨r, hr, hid⟩ := List.any_eq_true.mp hdue
          rw [Bool.and_eq_true, decide_eq_true_eq, decide_eq_true_eq] at hid
          exact ⟨r, hr, hid⟩
        · cases h

/-! ## The calls of a step -/

/-- The calls of a step other than that of a resumed worker are admissible in any tables. -/
theorem admissible_of_mem {s : PushService} {op : ServiceOp} (hdated : WellDated s op)
    (hresume : ∀ w checked retried again, op ≠ .resume w checked retried again) {c : StoreOp}
    (hc : c ∈ storeCalls onCurve s op) (t : PushStore) : Admissible onCurve t c := by
  cases mem_storeCalls onCurve hc with
  | register value selected now subscription preferences hop hsubscription hpreferences =>
    exact validateSubscription_idem onCurve hsubscription
  | test endpoint uuid identifier now event hop hevent =>
    subst hop
    refine ⟨rfl, ?_⟩
    unfold storeCalls at hc
    dsimp only at hc
    split at hc
    · cases hget : s.store.get (PushStore.identifierOf endpoint) with
      | none =>
        rw [hget] at hc
        cases hc
      | some subscription =>
        rw [hget] at hc
        obtain ⟨r, hr, hid, hdue⟩ := due_of_testCalls hc
        have hnow := hdated r hr (hid.trans (get_id hget)) hdue
        exact wellFormed_of_eventPayload hevent (by decide) hnow hnow
    · cases hc
  | event event targets now hevent => exact ⟨rfl, hdated.wellFormed hevent⟩
  | finish w checked retried again d retryAt hop => exact absurd hop (hresume w checked retried again)
  | _ => trivial

theorem admissible_finish {s : PushService} (hkeys : (s.store.deliveries.map Delivery.row).Nodup)
    {d : Delivery} {retryAt : Option ℚ} {again : ℚ} {x : PushStore × StoreOp}
    (hx : x ∈ trace storeStep s.store (s.finishCalls d retryAt again)) :
    Admissible onCurve x.1 x.2 := by
  unfold PushService.finishCalls at hx
  split at hx
  · next howns =>
    obtain rfl := List.mem_singleton.mp hx
    cases retryAt with
    | none => trivial
    | some time =>
      -- The row is owned: it is at the attempt of the claim.
      obtain ⟨-, -, e, he, herow, -, hattempts, -⟩ := (owns_iff hkeys).mp howns
      intro f hf hrow
      obtain rfl := List.inj_on_of_nodup_map hkeys he hf (herow.trans hrow.symm)
      exact hattempts
  · cases hx

theorem admissible_settle {s : PushService} (hkeys : (s.store.deliveries.map Delivery.row).Nodup)
    {d : Delivery} {outcome : Outcome} {checked retried again : ℚ} {x : PushStore × StoreOp}
    (hx : x ∈ trace storeStep s.store (s.settleCalls d outcome checked retried again)) :
    Admissible onCurve x.1 x.2 := by
  unfold PushService.settleCalls at hx
  dsimp only at hx
  cases outcome with
  | status code =>
    dsimp only at hx
    split at hx
    · cases hx
    · split at hx
      · rcases List.mem_cons.mp hx with rfl | hx
        · trivial
        · have hfinish := PushService.mem_finishCalls (mem_of_mem_trace storeStep hx)
          rw [hfinish]
          trivial
      · split at hx
        · exact admissible_finish onCurve hkeys hx
        · exact admissible_finish onCurve hkeys hx
  | invalid => exact admissible_finish onCurve hkeys hx
  | failed => exact admissible_finish onCurve hkeys hx
  | cancelled => exact admissible_finish onCurve hkeys hx

theorem admissible_resume {s : PushService} (hkeys : (s.store.deliveries.map Delivery.row).Nodup)
    {w : Nat} {checked retried again : ℚ} {x : PushStore × StoreOp}
    (hx : x ∈ trace storeStep s.store (s.resumeCalls w checked retried again)) :
    Admissible onCurve x.1 x.2 := by
  unfold PushService.resumeCalls at hx
  split at hx
  · split at hx
    · split at hx
      · cases hx
      · exact admissible_settle onCurve hkeys hx
    · cases hx
  · cases hx

/-- Every call of a well-dated step is admissible where it is made. -/
theorem admissible_step {s : PushService} {op : ServiceOp} (hs : Sound onCurve s.store)
    (hdated : WellDated s op) :
    ∀ x ∈ trace storeStep s.store (storeCalls onCurve s op), Admissible onCurve x.1 x.2 := by
  intro x hx
  by_cases hresume : ∃ w checked retried again, op = .resume w checked retried again
  · obtain ⟨w, checked, retried, again, rfl⟩ := hresume
    exact admissible_resume onCurve hs.keys hx
  · refine admissible_of_mem onCurve hdated ?_ (mem_of_mem_trace storeStep hx) x.1
    exact fun w checked retried again h => hresume ⟨w, checked, retried, again, h⟩

variable {onCurve} in
theorem Sound.calls {t : PushStore} (h : Sound onCurve t) {calls : List StoreOp}
    (hcalls : ∀ x ∈ trace storeStep t calls, Admissible onCurve x.1 x.2) :
    Sound onCurve (replay storeStep t calls) := by
  induction calls generalizing t with
  | nil => exact h
  | cons c calls ih =>
    exact ih (h.step (hcalls _ List.mem_cons_self)) fun x hx => hcalls x (List.mem_cons_of_mem _ hx)

/-- A well-dated step keeps the tables sound after each of its calls. -/
theorem sound_step {s : PushService} {op : ServiceOp} (hs : Sound onCurve s.store)
    (hdated : WellDated s op) (n : Nat) :
    Sound onCurve (replay storeStep s.store ((storeCalls onCurve s op).take n)) := by
  have hcalls := admissible_step onCurve hs hdated
  rw [← List.take_append_drop n (storeCalls onCurve s op), trace_append] at hcalls
  exact hs.calls fun x hx => hcalls x (List.mem_append_left _ hx)

/-! ## Runs -/

variable {onCurve} in
theorem Sound.boot {t : PushStore} (h : Sound onCurve t) (epoch : Str) (now : ℚ) :
    boot onCurve t epoch now = some (.started t epoch now) := if_pos h.opens

theorem sound_started {t : PushStore} (h : Sound onCurve t) (epoch : Str) (now : ℚ) :
    Sound onCurve (PushService.started t epoch now).store :=
  h.of_sublist List.filter_sublist rfl h.events

/-- **Starts.** A service that begins with an empty store, in a run whose steps are all well dated,
    can be restarted at every point, and within a step after any of its calls. -/
theorem starts_again (epoch : Str) (now : ℚ) (ops : List LifeOp)
    (hdated : Dated onCurve (boot onCurve .empty epoch now) ops) :
    ∃ s, replay (lifeStep onCurve) (boot onCurve .empty epoch now) ops = some s ∧
      opens onCurve s.store = true ∧
      ∀ op n, WellDated s op →
        opens onCurve (replay storeStep s.store ((storeCalls onCurve s op).take n)) = true := by
  have hrun : ∃ s, replay (lifeStep onCurve) (boot onCurve .empty epoch now) ops = some s ∧
      Sound onCurve s.store := by
    induction ops using List.reverseRecOn with
    | nil =>
      have hempty : Sound onCurve .empty := sound_empty
      exact ⟨_, hempty.boot epoch now, sound_started onCurve hempty epoch now⟩
    | append_singleton ops op ih =>
      unfold Dated at hdated ih
      rw [trace_concat] at hdated
      obtain ⟨s, hs, hsound⟩ := ih fun s op hx => hdated s op (List.mem_append_left _ hx)
      rw [replay_append, replay_singleton, hs]
      cases op with
      | step op =>
        refine ⟨_, rfl, ?_⟩
        have hwell : WellDated s op := hdated s op (by rw [hs]; simp)
        rw [serviceStep_store]
        exact hsound.calls (admissible_step onCurve hsound hwell)
      | restart epoch now =>
        exact ⟨_, hsound.boot epoch now, sound_started onCurve hsound epoch now⟩
  obtain ⟨s, hs, hsound⟩ := hrun
  exact ⟨s, hs, hsound.opens, fun op n hwell => (sound_step onCurve hsound hwell n).opens⟩

/-! ## Clocks that are set -/

theorem trunc_bounds {q : ℚ} {a b : Int} (ha : 0 ≤ a) (hlow : (a : ℚ) ≤ q) (hhigh : q ≤ b) :
    a ≤ trunc q ∧ trunc q ≤ b := by
  have hq : (0 : ℚ) ≤ q := le_trans (by exact_mod_cast ha) hlow
  have htrunc : trunc q = ⌊q⌋ := by
    rw [Rat.floor_def']
    exact Int.tdiv_eq_ediv_of_nonneg (Rat.num_nonneg.mpr hq)
  rw [htrunc]
  exact ⟨Int.le_floor.mpr hlow, by exact_mod_cast (Int.floor_le q).trans hhigh⟩

/-- Five minutes after the epoch and before the year 287000, every step is well dated. -/
theorem wellDated_of_clock {s : PushService} {op : ServiceOp}
    (h : ∀ time ∈ op.readings, 301 ≤ time ∧ time ≤ 9000000000000) : WellDated s op := by
  have hnow : ∀ now : ℚ, 301 ≤ now → now ≤ 9000000000000 → isPersistedMs (nowMs now) = true := by
    intro now hlow hhigh
    obtain ⟨ms, hround, hfirst, hlast⟩ := Float64.ofRat_between (q := now * 1000) (a := 1)
      (b := 9000000000000000) (by decide) (by push_cast; linarith) (by push_cast; linarith)
    have hmul : Float64.mul (.fin now) (.fin 1000) = .fin ms := hround
    have hms := trunc_bounds (a := 1) (b := 9000000000000000) (q := ms) (by decide)
      (by exact_mod_cast hfirst) (by exact_mod_cast hlast)
    unfold isPersistedMs nowMs
    rw [hmul]
    dsimp only
    rw [Bool.and_eq_true, decide_eq_true_eq, decide_eq_true_eq]
    omega
  cases op with
  | test endpoint uuid now =>
    intro r _ _ _
    obtain ⟨hlow, hhigh⟩ := h now List.mem_cons_self
    exact hnow now hlow hhigh
  | native notifications now prime clock =>
    intro _ n _ sourceMs _ _ hwindow
    obtain ⟨hlow, hhigh⟩ := h now List.mem_cons_self
    refine ⟨?_, hnow now hlow hhigh⟩
    -- In the window the source time is within minutes of the clock.
    unfold inWindow maxAgeSeconds futureSkewSeconds at hwindow
    simp only [Bool.not_eq_true', Bool.or_eq_false_iff, decide_eq_false_iff_not, not_lt] at hwindow
    obtain ⟨⟨-, hage⟩, hskew⟩ := hwindow
    have hfirst : (0 : ℚ) < sourceMs := by linarith
    have hlast : (sourceMs : ℚ) ≤ (9007199254740991 : Int) := by push_cast; linarith
    unfold isPersistedMs
    rw [Bool.and_eq_true, decide_eq_true_eq, decide_eq_true_eq]
    exact ⟨by exact_mod_cast hfirst, by exact_mod_cast hlast⟩
  | sample kind identifier value now prime clock =>
    intro _ v _ baseline _ _ _
    obtain ⟨hlow, hhigh⟩ := h now List.mem_cons_self
    exact hnow now hlow hhigh
  | _ => trivial

/-- A start, or a step with a clock that is set. -/
def LifeOp.OnClock : LifeOp → Prop
  | .step op => ∀ time ∈ op.readings, 301 ≤ time ∧ time ≤ 9000000000000
  | .restart _ _ => True

instance : DecidablePred LifeOp.OnClock
  | .step op =>
    inferInstanceAs (Decidable (∀ time ∈ op.readings, 301 ≤ time ∧ time ≤ 9000000000000))
  | .restart _ _ => isTrue trivial

theorem dated_of_onClock {start : Option PushService} {ops : List LifeOp}
    (h : ∀ op ∈ ops, op.OnClock) : Dated onCurve start ops :=
  fun _ _ hx => wellDated_of_clock (h _ (mem_of_mem_trace (lifeStep onCurve) hx))

/-- A process that is restarted with a row in its outbox. -/
def restartedTwice : List LifeOp :=
  unregisteredInTime.map .step ++ [.restart (Str.lit "third") 2000,
    .step (.register browser.value Preferences.default.value 2001),
    .step (.test browser.endpoint (Str.lit "u") 2002), .restart (Str.lit "fourth") 2003]

theorem starts_again_restartedTwice :
    ∃ s, replay (lifeStep fun _ => true) (boot (fun _ => true) .empty (Str.lit "start") 999)
        restartedTwice = some s ∧ opens (fun _ => true) s.store = true ∧
      ∀ op n, WellDated s op → opens (fun _ => true)
        (replay storeStep s.store ((storeCalls (fun _ => true) s op).take n)) = true :=
  starts_again _ _ _ _ (dated_of_onClock _ (by decide +kernel))

/-! ## The first millisecond -/

/-- A clock that was not set after power-up: an alarm of the first millisecond is queued for a
    registered browser. -/
def firstMillisecond : List LifeOp :=
  [.step (.connect (Str.lit "mqtt") 0 false (Str.lit "first") 10),
   .step (.register browser.value Preferences.default.value 11),
   .step (.native [⟨Str.lit "n", Str.lit "Grid lost", [], .none, .str (Str.lit "alarm"),
     .str (Str.lit "1970-01-01T00:00:00.000500+00:00")⟩] 12 false (fun _ => 12))]

/-- The next start finds the time 0 and refuses the tables. -/
theorem first_millisecond_disables :
    ((replay (lifeStep fun _ => true) (boot (fun _ => true) .empty (Str.lit "start") 9)
      firstMillisecond).map fun s => opens (fun _ => true) s.store) = some false := by
  decide +kernel

end InverterDashboard.Push
