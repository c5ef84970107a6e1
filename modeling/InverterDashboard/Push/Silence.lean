import InverterDashboard.Push.Lifetime

/-
  Silence: which native notifications are never reported again.

  Three mechanisms keep a connection quiet. A call that primes records the dated entries it
  processes in the durable table of identities; it keeps the title of the undated ones as a
  baseline in memory; and windows of time bound what is left. The baseline of an identifier is
  what a history of glances leaves of it (`baseline_iff`). Entries past the first hundred of a
  call are not looked at, so they can be reported later (`late_entry_is_reported`).
-/

namespace InverterDashboard.Push

open Python Cerbo Bounded Temporal

/-! ## Glances -/

/-- What the processor looks at: the start of an epoch, the identifiers that a call lists, and the
    entries that it processes. -/
inductive Glance where
  | reset
  | call (listed : List Str)
  | entry (n : Notification) (prime : Bool)

/-- The baselines after a glance. -/
def look (d : Dict Str (Str × Str)) : Glance → Dict Str (Str × Str)
  | .reset => Dict.empty
  | .call listed => keepPresent d listed
  | .entry n prime =>
    match timestampMs n.ts with
    | none => if prime && !n.identifier.isEmpty then d.set n.identifier (n.title, n.body) else d
    | some _ => d.erase n.identifier

/-- An undated entry of a call that primes, under this identifier and title. -/
def Sets (id title : Str) : Glance → Prop
  | .entry n prime => prime = true ∧ timestampMs n.ts = none ∧ n.identifier = id ∧ id ≠ [] ∧
      n.title = title
  | _ => False

/-- The identifier stays listed, and no other entry of it is dated or primes. -/
def Keeps (id : Str) : Glance → Prop
  | .reset => False
  | .call listed => id ∈ listed
  | .entry n prime => n.identifier = id → timestampMs n.ts = none ∧ (prime = false ∨ id = [])

/-- The latest undated priming entry of an identifier in this epoch had this title, and since then
    the identifier was listed in every call and no entry of it was dated. -/
def Baseline (id title : Str) (glances : List Glance) : Prop := Since (Keeps id) (Sets id title) glances

theorem get?_keepPresent (d : Dict Str (Str × Str)) (present : List Str) (id : Str) :
    (keepPresent d present).get? id = if id ∈ present then d.get? id else none := by
  unfold keepPresent Dict.get?
  dsimp only
  induction d.entries with
  | nil => simp [Dict.find]
  | cons e es ih =>
    obtain ⟨key, value⟩ := e
    rw [List.filter_cons]
    by_cases hkey : key ∈ present
    · rw [if_pos (by simpa using hkey)]
      unfold Dict.find
      by_cases hid : id = key
      · subst hid
        rw [if_pos rfl, if_pos rfl, if_pos hkey]
      · rw [if_neg hid, if_neg hid]
        exact ih
    · rw [if_neg (by simpa using hkey), ih]
      split
      · next hid =>
        have hne : id ≠ key := fun h => hkey (h ▸ hid)
        conv_rhs => unfold Dict.find
        rw [if_neg hne]
      · rfl

/-- One more glance. -/
theorem look_iff (d : Dict Str (Str × Str)) (g : Glance) (id title : Str) :
    ((look d g).get? id).map Prod.fst = some title ↔
      Sets id title g ∨ Keeps id g ∧ (d.get? id).map Prod.fst = some title := by
  cases g with
  | reset => simp [look, Sets, Keeps]
  | call listed =>
    unfold look Sets Keeps
    dsimp only
    rw [get?_keepPresent]
    split
    · next hid => simp [hid]
    · next hid => simp [hid]
  | entry n prime =>
    unfold look Sets Keeps
    dsimp only
    cases htime : timestampMs n.ts with
    | some ms =>
      dsimp only
      rw [Dict.get?_erase]
      by_cases hid : id = n.identifier
      · simp [hid]
      · simp [hid, Ne.symm hid]
    | none =>
      dsimp only
      by_cases hprime : (prime && !n.identifier.isEmpty) = true
      · rw [if_pos hprime, Dict.get?_set]
        rw [Bool.and_eq_true, Bool.not_eq_true', List.isEmpty_eq_false_iff] at hprime
        obtain ⟨rfl, hne⟩ := hprime
        by_cases hid : id = n.identifier
        · subst hid
          simp [hne]
        · simp [hid, Ne.symm hid]
      · rw [if_neg hprime]
        have hquiet : n.identifier = id → prime = false ∨ id = [] := by
          rintro rfl
          cases prime with
          | false => exact Or.inl rfl
          | true => exact Or.inr (by simpa using hprime)
        constructor
        · exact fun h => Or.inr ⟨fun hid => ⟨rfl, hquiet hid⟩, h⟩
        · rintro (⟨hp, -, hid, hne, -⟩ | ⟨-, h⟩)
          · rcases hquiet hid with hfalse | hempty
            · rw [hfalse] at hp
              cases hp
            · exact absurd hempty hne
          · exact h

/-- The baselines after a history of glances. -/
theorem baseline_iff (glances : List Glance) (id title : Str) :
    ((glances.foldl look Dict.empty).get? id).map Prod.fst = some title ↔
      Baseline id title glances := by
  induction glances using List.reverseRecOn with
  | nil => simp [Baseline, not_since_nil]
  | append_singleton glances g ih =>
    unfold Baseline at ih ⊢
    rw [List.foldl_append, since_concat, ← ih]
    exact look_iff _ g id title

/-! ## The glances of a run -/

/-- Building the event of this entry raises. -/
def Notification.raises (n : Notification) (now : ℚ) : Bool :=
  (timestampMs n.ts).any fun sourceMs => (n.payload sourceMs now).isNone

/-- The entries of a call that are processed: the first hundred, up to one that raises. -/
def processed (notifications : List Notification) (now : ℚ) : List Notification :=
  (notifications.take nativeLimit).takeWhile fun n => !n.raises now

/-- What a call of `native` looks at. -/
def callGlances (p : EventProcessor) (notifications : List Notification) (now : ℚ) (prime : Bool) :
    List Glance :=
  .call ((notifications.take nativeLimit).map Notification.identifier) ::
    (processed notifications now).map fun n => .entry n (p.primes prime)

def glances (s : PushService) : ServiceOp → List Glance
  | .connect source owner force _ now =>
    if s.connects source owner force then
      .reset :: if source = PushService.mqttSource then callGlances s.processor [] now true else []
    else []
  | .disconnect party _ _ => if s.disconnects party then [.reset] else []
  | .native notifications now prime _ =>
    if s.available then callGlances s.processor notifications now prime else []
  | _ => []

def lifeGlances : Option PushService × LifeOp → List Glance
  | (some s, .step op) => glances s op
  | (none, .step _) => []
  | (_, .restart _ _) => [.reset]

variable (onCurve : List UInt8 → Bool)

/-- All that was looked at in a run. -/
def history (start : Option PushService) (ops : List LifeOp) : List Glance :=
  (trace (lifeStep onCurve) start ops).flatMap lifeGlances

theorem nativeEvent_raises {n : Notification} {now : ℚ} (h : n.raises now = true)
    (p : EventProcessor) (prime : Bool) : nativeEvent p n now prime = (p, none) := by
  unfold Notification.raises at h
  unfold nativeEvent
  cases htime : timestampMs n.ts with
  | none =>
    rw [htime] at h
    cases h
  | some sourceMs =>
    rw [htime] at h
    have hnone : n.payload sourceMs now = none := Option.isNone_iff_eq_none.mp h
    dsimp only
    rw [hnone]

theorem nativeEvent_look {n : Notification} {now : ℚ} (h : n.raises now = false)
    (p : EventProcessor) (prime : Bool) : (nativeEvent p n now prime).2 ≠ none ∧
      (nativeEvent p n now prime).1.unknownPrimed = look p.unknownPrimed (.entry n prime) := by
  unfold Notification.raises at h
  unfold nativeEvent look
  dsimp only
  cases htime : timestampMs n.ts with
  | none =>
    dsimp only
    split
    · exact ⟨by simp, rfl⟩
    · exact ⟨by simp, rfl⟩
  | some sourceMs =>
    rw [htime] at h
    cases hpayload : n.payload sourceMs now with
    | none =>
      rw [Option.any, hpayload] at h
      cases h
    | some event =>
      dsimp only
      rw [hpayload]
      dsimp only
      split
      · exact ⟨by simp, rfl⟩
      · split
        · exact ⟨by simp, rfl⟩
        · split
          · exact ⟨by simp, rfl⟩
          · exact ⟨by simp, rfl⟩

theorem nativeEvents_look (now : ℚ) (prime : Bool) (ns : List Notification) (p : EventProcessor) :
    (nativeEvents now prime ns p).1.unknownPrimed =
      ((ns.takeWhile fun n => !n.raises now).map fun n => Glance.entry n prime).foldl look
        p.unknownPrimed := by
  induction ns generalizing p with
  | nil => rfl
  | cons n ns ih =>
    unfold nativeEvents
    rw [List.takeWhile_cons]
    cases hraises : n.raises now with
    | true =>
      rw [nativeEvent_raises hraises]
      rfl
    | false =>
      have hone := nativeEvent_look hraises p prime
      cases hevent : nativeEvent p n now prime with
      | mk q out =>
        rw [hevent] at hone
        cases out with
        | none => exact absurd rfl hone.1
        | some event =>
          have hlook : q.unknownPrimed = look p.unknownPrimed (.entry n prime) := hone.2
          dsimp only
          rw [ih q, hlook]
          rfl

theorem native_look (p : EventProcessor) (ns : List Notification) (now : ℚ) (prime : Bool) :
    (native p ns now prime).1.unknownPrimed =
      (callGlances p ns now prime).foldl look p.unknownPrimed := by
  have hkeeps := native_keeps (fun q => q.unknownPrimed) (fun _ => rfl) p ns now prime
  exact hkeeps.trans (nativeEvents_look now (p.primes prime) _ (nativeStart p ns))

/-! ### Only connections and calls of `native` look -/

namespace PushService

/-- The baselines. -/
def baselines (s : PushService) : Dict Str (Str × Str) := s.processor.unknownPrimed

theorem queueAll_baselines (events : List EventPayload) (clock : Nat → ℚ) (s : PushService) :
    (queueAll events clock s).2.baselines = s.baselines := by
  induction events generalizing clock s with
  | nil => rfl
  | cons event events ih =>
    unfold queueAll
    cases hqueue : s.queue event (clock 0) with
    | error e => rfl
    | ok o =>
      obtain ⟨reserved, s'⟩ := o
      dsimp only
      rw [ih]
      unfold queue at hqueue
      split at hqueue
      · split at hqueue
        · obtain ⟨-, rfl⟩ := Prod.mk.inj (Except.ok.inj hqueue)
          rfl
        · cases hqueue
      · obtain ⟨-, rfl⟩ := Prod.mk.inj (Except.ok.inj hqueue)
        rfl

theorem queueDetected_baselines (s : PushService)
    (detected : EventProcessor × Option (List EventPayload)) (clock : Nat → ℚ) :
    (s.queueDetected detected clock).2.baselines = detected.1.unknownPrimed := by
  unfold queueDetected
  dsimp only
  cases detected.2 with
  | none => rfl
  | some events => exact queueAll_baselines events clock _

end PushService

theorem sample_baselines (p : EventProcessor) (kind identifier : Str) (value : Option SampleValue)
    (now : ℚ) (prime : Bool) :
    (sample p kind identifier value now prime).1.unknownPrimed = p.unknownPrimed := by
  unfold sample
  dsimp only
  split
  · rfl
  · split
    · rfl
    · split
      · rfl
      · split <;> rfl

theorem quiet_baselines (s : PushService) {op : ServiceOp} (h : op.looks = false) :
    (serviceStep onCurve s op).baselines = s.baselines :=
  congrArg (fun o => o.1.unknownPrimed) (serviceStep_outlook onCurve s h)

/-- The baselines after a step. -/
theorem serviceStep_look (s : PushService) (op : ServiceOp) :
    (serviceStep onCurve s op).baselines = (glances s op).foldl look s.baselines := by
  cases op with
  | connect source owner force epoch now =>
    show (s.connect source owner force epoch now).baselines = _
    unfold PushService.connect glances
    dsimp only
    split
    · split
      · exact native_look _ [] now true
      · rfl
    · rfl
  | disconnect party epoch now =>
    show (s.disconnect party epoch now).baselines = _
    unfold PushService.disconnect glances
    dsimp only
    split <;> rfl
  | register value selected now => exact quiet_baselines onCurve s rfl
  | delete endpoint => exact quiet_baselines onCurve s rfl
  | test endpoint uuid now => exact quiet_baselines onCurve s rfl
  | native notifications now prime clock =>
    show (s.observeNative notifications now prime clock).2.baselines = _
    unfold PushService.observeNative glances
    dsimp only
    split
    · rw [PushService.queueDetected_baselines]
      exact native_look s.processor notifications now prime
    · rfl
  | sample kind identifier value now prime clock =>
    show (s.observeSample kind identifier value now prime clock).2.baselines = s.baselines
    unfold PushService.observeSample
    split
    · dsimp only
      rw [PushService.queueDetected_baselines]
      exact sample_baselines s.processor kind identifier value now prime
    · rfl
  | fail => rfl
  | work worker now tie => exact quiet_baselines onCurve s rfl
  | begin task now => exact quiet_baselines onCurve s rfl
  | finishSend task outcome now => exact quiet_baselines onCurve s rfl
  | resume worker checked retried again => exact quiet_baselines onCurve s rfl

/-- The baselines in a run are what its history left of them. -/
theorem baselines_replay {store : PushStore} {epoch : Str} {now : ℚ} {ops : List LifeOp}
    {s : PushService}
    (h : replay (lifeStep onCurve) (boot onCurve store epoch now) ops = some s) :
    s.baselines = (history onCurve (boot onCurve store epoch now) ops).foldl look Dict.empty := by
  have hboot : ∀ {t : PushStore} {e : Str} {time : ℚ} {r : PushService},
      boot onCurve t e time = some r → r.baselines = Dict.empty := by
    intro t e time r hr
    unfold boot at hr
    split at hr
    · rw [← Option.some.inj hr]
      rfl
    · cases hr
  induction ops using List.reverseRecOn generalizing s with
  | nil => exact hboot h
  | append_singleton ops op ih =>
    unfold history at ih ⊢
    rw [trace_concat, List.flatMap_append, List.flatMap_singleton, List.foldl_append]
    rw [replay_append, replay_singleton] at h
    cases hold : replay (lifeStep onCurve) (boot onCurve store epoch now) ops with
    | none =>
      rw [hold] at h
      cases op with
      | step op => cases h
      | restart e time => cases h
    | some r =>
      rw [hold] at h
      cases op with
      | step op =>
        rw [← ih hold, ← Option.some.inj h]
        exact serviceStep_look onCurve r op
      | restart e time => exact hboot h

/-! ## Identities that are kept -/

/-- None of these calls evicts an identity that is in the table or that it reserves. -/
def KeepsKey (key : Str) (t : PushStore) (calls : List StoreOp) : Prop :=
  ∀ y ∈ trace storeStep t calls,
    (key ∈ y.1.eventIds ∨ y.2.identity? = some key ∧ answer y.1 y.2 = some true) →
      key ∈ (storeStep y.1 y.2).eventIds

/-- An identity is not pruned in a run. -/
def KeepsIdentity (key : Str) (start : Option PushService) (ops : List LifeOp) : Prop :=
  ∀ s op, (some s, LifeOp.step op) ∈ trace (lifeStep onCurve) start ops →
    KeepsKey key s.store (storeCalls onCurve s op)

theorem keepsKey_append {key : Str} {t : PushStore} {calls more : List StoreOp}
    (h : KeepsKey key t (calls ++ more)) :
    KeepsKey key t calls ∧ KeepsKey key (replay storeStep t calls) more := by
  unfold KeepsKey at h ⊢
  rw [trace_append] at h
  exact ⟨fun y hy => h y (List.mem_append_left _ hy), fun y hy => h y (List.mem_append_right _ hy)⟩

theorem known_calls {key : Str} {t : PushStore} {calls : List StoreOp} (h : KeepsKey key t calls)
    (hknown : key ∈ t.eventIds) : key ∈ (replay storeStep t calls).eventIds := by
  induction calls generalizing t with
  | nil => exact hknown
  | cons c calls ih =>
    exact ih (fun y hy => h y (List.mem_cons_of_mem _ hy)) (h _ List.mem_cons_self (Or.inl hknown))

theorem remembered_calls {key : Str} {t : PushStore} {calls : List StoreOp} {now : ℚ}
    (h : KeepsKey key t calls) (hmem : .remember key now ∈ calls) :
    key ∈ (replay storeStep t calls).eventIds := by
  induction calls generalizing t with
  | nil => cases hmem
  | cons c calls ih =>
    have hrest : KeepsKey key (storeStep t c) calls := fun y hy => h y (List.mem_cons_of_mem _ hy)
    rcases List.mem_cons.mp hmem with rfl | hmem
    · have hkept : key ∈ (storeStep t (.remember key now)).eventIds := by
        refine h (t, .remember key now) List.mem_cons_self ?_
        by_cases hknown : key ∈ t.eventIds
        · exact Or.inl hknown
        · exact Or.inr ⟨rfl, congrArg some (decide_eq_true hknown)⟩
      have hend := known_calls hrest hkept
      exact hend
    · exact ih hrest hmem

/-- A primed entry is recorded. -/
theorem remember_of_primed {now : ℚ} {ns : List Notification} {p : EventProcessor}
    {n : Notification} {sourceMs : Int} (hn : n ∈ ns.takeWhile fun n => !n.raises now)
    (hms : timestampMs n.ts = some sourceMs) :
    ∃ key, eventKey (Str.lit "native") n.sourceName n.identifier sourceMs = some key ∧
      .remember key now ∈ nativeCalls now true ns p := by
  induction ns generalizing p with
  | nil => cases hn
  | cons m ns ih =>
    rw [List.takeWhile_cons] at hn
    split at hn
    · next hraises =>
      rw [Bool.not_eq_true'] at hraises
      unfold nativeCalls
      rcases List.mem_cons.mp hn with rfl | hn
      · cases hpayload : n.payload sourceMs now with
        | none =>
          unfold Notification.raises at hraises
          rw [hms, Option.any, hpayload] at hraises
          cases hraises
        | some event =>
          refine ⟨event.eventKey, (eventPayload_fields hpayload).1, List.mem_append_left _ ?_⟩
          unfold remembered
          rw [hms]
          dsimp only [Option.bind]
          rw [hpayload]
          exact List.mem_singleton_self _
      · obtain ⟨hok, -⟩ := nativeEvent_look hraises p true
        cases hone : nativeEvent p m now true with
        | mk q out =>
          rw [hone] at hok
          cases out with
          | none => exact absurd rfl hok
          | some event =>
            obtain ⟨key, hkey, hmem⟩ := ih (p := q) hn
            exact ⟨key, hkey, List.mem_append_right _ hmem⟩
    · cases hn

namespace PushService

theorem mem_queueAll {events : List EventPayload} {clock : Nat → ℚ} {s : PushService}
    {e : EventPayload} (h : e ∈ (queueAll events clock s).1) : e ∈ events := by
  induction events generalizing clock s with
  | nil => exact h
  | cons event events ih =>
    unfold queueAll at h
    split at h
    · cases h
    · rcases List.mem_append.mp h with h | h
      · split at h
        · exact List.mem_singleton.mp h ▸ List.mem_cons_self
        · cases h
      · exact List.mem_cons_of_mem _ (ih h)

/-- What `queue` says when it returns: the tables made this one call, and a reservation is new. -/
theorem queue_ok {s s' : PushService} {event : EventPayload} {now : ℚ} {reserved : Bool}
    (h : s.queue event now = .ok (reserved, s')) :
    s'.store = replay storeStep s.store (s.queueCall event now) ∧
      (reserved = true → event.eventKey ∉ s.store.eventIds ∧
        (KeepsKey event.eventKey s.store (s.queueCall event now) →
          event.eventKey ∈ s'.store.eventIds)) := by
  have hstore := queue_store s event now
  rw [h] at hstore
  refine ⟨hstore.symm, ?_⟩
  rintro rfl
  unfold queue at h
  unfold queueCall
  split at h
  · next hopen =>
    rw [if_pos hopen]
    split at h
    · next b t hok =>
      obtain ⟨rfl, rfl⟩ := Prod.mk.inj (Except.ok.inj h)
      rcases (enqueue_ok hok).2 with ⟨hfalse, -⟩ | ⟨-, hnew, -⟩
      · cases hfalse
      · refine ⟨hnew, fun hkeeps => ?_⟩
        have hanswer : answer s.store (.enqueue event.eventKey event (s.targets event) now
            s.processor.epoch) = some true := by
          unfold answer
          dsimp only
          rw [hok]
          rfl
        have hkept := hkeeps _ List.mem_cons_self (Or.inr ⟨rfl, hanswer⟩)
        unfold storeStep at hkept
        dsimp only at hkept
        rw [hok] at hkept
        exact hkept
    · cases h
  · cases h

/-- A reserved event was not known before the call, nor reserved earlier in it. -/
theorem queueAll_new {events : List EventPayload} {clock : Nat → ℚ} {s : PushService}
    {earlier later : List EventPayload} {e : EventPayload}
    (hsplit : (queueAll events clock s).1 = earlier ++ e :: later)
    (hkeeps : KeepsKey e.eventKey s.store (queueCalls events clock s)) :
    e.eventKey ∉ s.store.eventIds ∧ ∀ d ∈ earlier, d.eventKey ≠ e.eventKey := by
  induction events generalizing clock s earlier with
  | nil => simp [queueAll] at hsplit
  | cons event events ih =>
    unfold queueAll at hsplit
    unfold queueCalls at hkeeps
    cases hqueue : s.queue event (clock 0) with
    | error err =>
      rw [hqueue] at hsplit
      simp at hsplit
    | ok o =>
      obtain ⟨reserved, s'⟩ := o
      rw [hqueue] at hsplit hkeeps
      dsimp only at hsplit hkeeps
      obtain ⟨hfirst, hrest⟩ := keepsKey_append hkeeps
      obtain ⟨hstore, hreserved⟩ := queue_ok hqueue
      rw [← hstore] at hrest
      have hlater : ∀ {l : List EventPayload},
          (queueAll events (fun i => clock (i + 1)) s').1 = l ++ e :: later →
          e.eventKey ∉ s'.store.eventIds ∧ e.eventKey ∉ s.store.eventIds ∧
            ∀ d ∈ l, d.eventKey ≠ e.eventKey := by
        intro l hl
        obtain ⟨hnew, hdistinct⟩ := ih hl hrest
        refine ⟨hnew, fun hknown => hnew ?_, hdistinct⟩
        rw [hstore]
        exact known_calls hfirst hknown
      cases reserved with
      | false => exact (hlater hsplit).2
      | true =>
        obtain ⟨hnew, hkept⟩ := hreserved rfl
        cases earlier with
        | nil =>
          obtain ⟨rfl, -⟩ := List.cons.inj hsplit
          exact ⟨hnew, fun d hd => by cases hd⟩
        | cons d earlier =>
          obtain ⟨rfl, htail⟩ := List.cons.inj hsplit
          obtain ⟨hnot, hbefore, hdistinct⟩ := hlater htail
          refine ⟨hbefore, fun c hc => ?_⟩
          rcases List.mem_cons.mp hc with rfl | hc
          · intro hsame
            exact hnot (hsame ▸ hkept (hsame ▸ hfirst))
          · exact hdistinct c hc

/-- A reserved event is known after the call. -/
theorem queueAll_known {events : List EventPayload} {clock : Nat → ℚ} {s : PushService}
    {e : EventPayload} (hmem : e ∈ (queueAll events clock s).1)
    (hkeeps : KeepsKey e.eventKey s.store (queueCalls events clock s)) :
    e.eventKey ∈ (replay storeStep s.store (queueCalls events clock s)).eventIds := by
  induction events generalizing clock s with
  | nil => cases hmem
  | cons event events ih =>
    unfold queueAll at hmem
    unfold queueCalls at hkeeps ⊢
    cases hqueue : s.queue event (clock 0) with
    | error err =>
      rw [hqueue] at hmem
      cases hmem
    | ok o =>
      obtain ⟨reserved, s'⟩ := o
      rw [hqueue] at hmem hkeeps
      dsimp only at hmem hkeeps ⊢
      obtain ⟨hfirst, hrest⟩ := keepsKey_append hkeeps
      obtain ⟨hstore, hreserved⟩ := queue_ok hqueue
      rw [← hstore] at hrest
      rw [replay_append, ← hstore]
      rcases List.mem_append.mp hmem with hmem | hmem
      · split at hmem
        · next hyes =>
          obtain rfl := List.mem_singleton.mp hmem
          exact known_calls hrest ((hreserved hyes).2 hfirst)
        · cases hmem
      · exact ih hmem hrest

end PushService

/-! ## What a reported notification is -/

/-- The events that a step enqueues for native notifications. -/
def reported : Option PushService × LifeOp → List EventPayload
  | (some s, .step (.native notifications now prime clock)) =>
    (s.observeNative notifications now prime clock).1
  | _ => []

/-- A step is a call that primes, and processes an entry with this source, identifier and time. -/
def PrimedWith (source id : Str) (sourceMs : Int) : Option PushService × LifeOp → Prop
  | (some s, .step (.native notifications now prime _)) =>
    s.available = true ∧ s.processor.primes prime = true ∧
      ∃ n ∈ processed notifications now,
        n.sourceName = source ∧ n.identifier = id ∧ timestampMs n.ts = some sourceMs
  | _ => False

/-- What holds of an event that the call `notifications` enqueues at `now` after the run `before`,
    for its entry `n`, which comes after `first`; `earlier` are the events enqueued before it in
    the call. Its identity is the key of its source, identifier and source time. -/
structure Reported (start : Option PushService) (before : List LifeOp) (s : PushService)
    (call : ServiceOp) (now : ℚ) (listed : List Str) (first : List Notification) (n : Notification)
    (sourceMs : Int) (earlier : List EventPayload) (event : EventPayload) : Prop where
  notBefore : s.processor.startedAt - 30 ≤ (sourceMs : ℚ) / 1000
  notAhead : (sourceMs : ℚ) / 1000 ≤ now + 30
  notOld : now - (sourceMs : ℚ) / 1000 ≤ 300
  urgent : n.level ∈ [Str.lit "warning", Str.lit "alarm", Str.lit "error"].map Value.str
  /-- No call that primed processed an entry of this identity. -/
  unprimed : KeepsIdentity onCurve event.eventKey start (before ++ [.step call]) →
    ∀ x ∈ trace (lifeStep onCurve) start before, ¬ PrimedWith n.sourceName n.identifier sourceMs x
  /-- No event of this identity was enqueued before. -/
  once : KeepsIdentity onCurve event.eventKey start (before ++ [.step call]) →
    (∀ x ∈ trace (lifeStep onCurve) start before, ∀ e ∈ reported x, e.eventKey ≠ event.eventKey) ∧
      ∀ e ∈ earlier, e.eventKey ≠ event.eventKey
  /-- It has no baseline under its title. -/
  unhydrated : ¬ Baseline n.identifier n.title
    (history onCurve start before ++ .call listed :: first.map fun m => .entry m false)

/-- Every native event that a run enqueues is reported rightly. -/
def SilenceHolds (start : Option PushService) (ops : List LifeOp) : Prop :=
  ∀ before notifications now prime clock after s,
    ops = before ++ .step (.native notifications now prime clock) :: after →
    replay (lifeStep onCurve) start before = some s →
    ∀ earlier event later,
      (s.observeNative notifications now prime clock).1 = earlier ++ event :: later →
      ∃ first n rest sourceMs, processed notifications now = first ++ n :: rest ∧
        timestampMs n.ts = some sourceMs ∧ n.payload sourceMs now = some event ∧
        Reported onCurve start before s (.native notifications now prime clock) now
          ((notifications.take nativeLimit).map Notification.identifier) first n sourceMs earlier event

/-! ## All runs -/

/-- A known identity stays known, over restarts too. -/
theorem known_life {key : Str} {start : Option PushService} {ops : List LifeOp} {s : PushService}
    (hkeeps : KeepsIdentity onCurve key start ops)
    (hend : replay (lifeStep onCurve) start ops = some s) {x : Option PushService × LifeOp}
    (hx : x ∈ trace (lifeStep onCurve) start ops)
    (hknown : ∀ r, lifeStep onCurve x.1 x.2 = some r → key ∈ r.store.eventIds) :
    key ∈ s.store.eventIds := by
  induction ops using List.reverseRecOn generalizing s with
  | nil => cases hx
  | append_singleton ops op ih =>
    unfold KeepsIdentity at hkeeps ih
    rw [trace_concat] at hx hkeeps
    rw [replay_append, replay_singleton] at hend
    rcases List.mem_append.mp hx with hx | hx
    · cases hold : replay (lifeStep onCurve) start ops with
      | none =>
        rw [hold] at hend
        cases op with
        | step op => cases hend
        | restart e time => cases hend
      | some r =>
        rw [hold] at hend hkeeps
        have hr := ih (fun s op h => hkeeps s op (List.mem_append_left _ h)) hold hx
        cases op with
        | step op =>
          rw [← Option.some.inj hend, serviceStep_store]
          exact known_calls (hkeeps r op (List.mem_append_right _ List.mem_cons_self)) hr
        | restart e time =>
          unfold lifeStep boot at hend
          dsimp only [Option.bind] at hend
          split at hend
          · rw [← Option.some.inj hend]
            exact hr
          · cases hend
    · rw [List.mem_singleton.mp hx] at hknown
      exact hknown s hend

/-- The calls of an observed list: those of the processor, then those that queue its events. -/
theorem native_calls {s : PushService} (h : s.available = true) (ns : List Notification) (now : ℚ)
    (prime : Bool) (clock : Nat → ℚ) : storeCalls onCurve s (.native ns now prime clock) =
      nativeCalls now (s.processor.primes prime) (ns.take nativeLimit) (nativeStart s.processor ns) ++
        s.detectedCalls (native s.processor ns now prime) clock :=
  if_pos h

/-- After a call that primes, the identities of its dated entries are known. -/
theorem primedWith_known {key source id : Str} {sourceMs : Int} {x : Option PushService × LifeOp}
    (hprimed : PrimedWith source id sourceMs x)
    (hkey : eventKey (Str.lit "native") source id sourceMs = some key)
    (hkeeps : ∀ s op, x = (some s, LifeOp.step op) → KeepsKey key s.store (storeCalls onCurve s op)) :
    ∀ r, lifeStep onCurve x.1 x.2 = some r → key ∈ r.store.eventIds := by
  obtain ⟨_ | s, op | ⟨e, time⟩⟩ := x
  · exact False.elim hprimed
  · exact False.elim hprimed
  · cases op with
    | native ns now prime clock =>
      obtain ⟨havailable, hprime, n, hn, rfl, rfl, hms⟩ := hprimed
      intro r hr
      have hk := hkeeps s (.native ns now prime clock) rfl
      rw [← Option.some.inj hr, serviceStep_store, native_calls onCurve havailable]
      rw [native_calls onCurve havailable] at hk
      obtain ⟨k, hkk, hmem⟩ := remember_of_primed (p := nativeStart s.processor ns) hn hms
      obtain rfl : k = key := Option.some.inj (hkk.symm.trans hkey)
      rw [hprime] at hk ⊢
      exact remembered_calls hk (List.mem_append_left _ hmem)
    | _ => exact False.elim hprimed
  · exact False.elim hprimed

/-- An event that a call enqueues was detected in it and is new, and then it is known. -/
theorem observed_native {s : PushService} {ns : List Notification} {now : ℚ} {prime : Bool}
    {clock : Nat → ℚ} {earlier later : List EventPayload} {event : EventPayload}
    (hsplit : (s.observeNative ns now prime clock).1 = earlier ++ event :: later) :
    s.available = true ∧ event ∈ (native s.processor ns now prime).2.getD [] ∧
      (KeepsKey event.eventKey s.store (storeCalls onCurve s (.native ns now prime clock)) →
        event.eventKey ∉ s.store.eventIds ∧ (∀ d ∈ earlier, d.eventKey ≠ event.eventKey) ∧
        event.eventKey ∈
          (serviceStep onCurve s (.native ns now prime clock)).store.eventIds) := by
  unfold PushService.observeNative at hsplit
  split at hsplit
  · next havailable =>
    have hnative : replay storeStep s.store (nativeCalls now (s.processor.primes prime)
        (ns.take nativeLimit) (nativeStart s.processor ns)) =
        (native s.processor ns now prime).1.store := (native_store s.processor ns now prime).symm
    unfold PushService.queueDetected at hsplit
    dsimp only at hsplit
    cases hevents : (native s.processor ns now prime).2 with
    | none =>
      rw [hevents] at hsplit
      simp at hsplit
    | some events =>
      rw [hevents] at hsplit
      dsimp only at hsplit
      have hmem := hsplit ▸ List.mem_append_right earlier List.mem_cons_self
      refine ⟨havailable, PushService.mem_queueAll hmem, fun hkeeps => ?_⟩
      rw [serviceStep_store, native_calls onCurve havailable, replay_append, hnative]
      rw [native_calls onCurve havailable] at hkeeps
      obtain ⟨hfirst, hqueue⟩ := keepsKey_append hkeeps
      rw [hnative] at hqueue
      unfold PushService.detectedCalls at hqueue ⊢
      rw [hevents] at hqueue ⊢
      obtain ⟨hnew, hdistinct⟩ := PushService.queueAll_new hsplit hqueue
      refine ⟨fun hknown => hnew ?_, hdistinct, PushService.queueAll_known hmem hqueue⟩
      have hstill := known_calls hfirst hknown
      rw [hnative] at hstill
      exact hstill
  · simp at hsplit

theorem reported_known {x : Option PushService × LifeOp} {event : EventPayload}
    (hreported : event ∈ reported x)
    (hkeeps : ∀ s op, x = (some s, LifeOp.step op) →
      KeepsKey event.eventKey s.store (storeCalls onCurve s op)) :
    ∀ r, lifeStep onCurve x.1 x.2 = some r → event.eventKey ∈ r.store.eventIds := by
  obtain ⟨_ | s, op | ⟨e, time⟩⟩ := x
  · cases hreported
  · cases hreported
  · cases op with
    | native ns now prime clock =>
      intro r hr
      obtain ⟨earlier, later, hsplit⟩ := List.append_of_mem hreported
      rw [← Option.some.inj hr]
      exact ((observed_native onCurve hsplit).2.2 (hkeeps s _ rfl)).2.2
    | _ => cases hreported
  · cases hreported

/-- A call that returns processes all of its first hundred entries. -/
theorem processed_of_returns {ns : List Notification} {now : ℚ} {prime : Bool} {p : EventProcessor}
    (h : (nativeEvents now prime ns p).2 ≠ none) :
    (ns.takeWhile fun n => !n.raises now) = ns := by
  induction ns generalizing p with
  | nil => rfl
  | cons n ns ih =>
    unfold nativeEvents at h
    rw [List.takeWhile_cons]
    cases hraises : n.raises now with
    | true =>
      rw [nativeEvent_raises hraises] at h
      exact absurd rfl h
    | false =>
      rw [Bool.not_false, if_pos rfl]
      cases hone : nativeEvent p n now prime with
      | mk q out =>
        rw [hone] at h
        cases out with
        | none => exact absurd rfl h
        | some event =>
          rw [ih (p := q)]
          intro hnone
          dsimp only at h
          rw [hnone] at h
          exact h rfl

theorem level_of_urgent {n : Notification} (h : n.urgent = true) :
    n.level ∈ [Str.lit "warning", Str.lit "alarm", Str.lit "error"].map Value.str := by
  unfold Notification.urgent at h
  split at h
  · next s hs =>
    rw [hs]
    simpa [or_assoc] using h
  · cases h

variable {onCurve} in
theorem KeepsIdentity.split {key : Str} {start : Option PushService} {before : List LifeOp}
    {op : ServiceOp} {s : PushService}
    (h : KeepsIdentity onCurve key start (before ++ [.step op]))
    (hs : replay (lifeStep onCurve) start before = some s) :
    KeepsIdentity onCurve key start before ∧ KeepsKey key s.store (storeCalls onCurve s op) := by
  unfold KeepsIdentity at h ⊢
  rw [trace_concat, hs] at h
  exact ⟨fun r op hr => h r op (List.mem_append_left _ hr),
    h s op (List.mem_append_right _ List.mem_cons_self)⟩

/-- **Silence.** In every run with restarts, from any tables, what is reported is fresh, urgent and
    in its window, was not primed nor reported before unless its identity was pruned, and has no
    baseline under its title. -/
theorem silence_holds (store : PushStore) (epoch : Str) (time : ℚ) (ops : List LifeOp) :
    SilenceHolds onCurve (boot onCurve store epoch time) ops := by
  rintro before ns now prime clock after s - hs earlier event later hsplit
  obtain ⟨havailable, hdetected, hnew⟩ := observed_native onCurve hsplit
  rw [native_events] at hdetected
  obtain ⟨hprime, first, n, rest, hlist, sourceMs, hms, hpayload, hurgent, hwindow, hhydrates⟩ :=
    mem_nativeEvents hdetected
  have hkey : eventKey (Str.lit "native") n.sourceName n.identifier sourceMs =
      some event.eventKey := (eventPayload_fields hpayload).1
  have hall : processed ns now = ns.take nativeLimit := by
    have hreturns : (nativeEvents now (s.processor.primes prime) (ns.take nativeLimit)
        (nativeStart s.processor ns)).2 ≠ none := by
      intro hnone
      rw [hnone] at hdetected
      cases hdetected
    exact processed_of_returns hreturns
  refine ⟨first, n, rest, sourceMs, hall.trans hlist, hms, hpayload, ?_⟩
  unfold inWindow maxAgeSeconds futureSkewSeconds at hwindow
  simp only [Bool.not_eq_true', Bool.or_eq_false_iff, decide_eq_false_iff_not, not_lt] at hwindow
  obtain ⟨⟨hbefore, hold⟩, hahead⟩ := hwindow
  refine ⟨hbefore, by linarith, hold, level_of_urgent hurgent, ?_, ?_, ?_⟩
  · intro hkeeps x hx hprimed
    obtain ⟨hrun, hstep⟩ := hkeeps.split hs
    refine (hnew hstep).1 (known_life onCurve hrun hs hx ?_)
    exact primedWith_known onCurve hprimed hkey fun r op heq => hrun r op (heq ▸ hx)
  · intro hkeeps
    obtain ⟨hrun, hstep⟩ := hkeeps.split hs
    refine ⟨fun x hx e he hsame => ?_, (hnew hstep).2.1⟩
    rw [← hsame] at hrun hnew hstep
    refine (hnew hstep).1 (known_life onCurve hrun hs hx ?_)
    exact reported_known onCurve he fun r op heq => hrun r op (heq ▸ hx)
  · -- The processor at this entry has looked at all that came before it.
    have hfirst : (first.takeWhile fun m => !m.raises now) = first := by
      rw [List.takeWhile_eq_self_iff]
      intro m hm
      have hmem : m ∈ processed ns now := by
        rw [hall, hlist]
        exact List.mem_append_left _ hm
      have hquiet := List.mem_takeWhile_imp (p := fun m : Notification => !m.raises now) hmem
      exact hquiet
    have hlook := nativeEvents_look now (s.processor.primes prime) first (nativeStart s.processor ns)
    have hstart : (nativeStart s.processor ns).unknownPrimed =
        look s.baselines (.call ((ns.take nativeLimit).map Notification.identifier)) := rfl
    rw [hfirst, hprime, hstart, baselines_replay onCurve hs] at hlook
    intro hbaseline
    rw [← baseline_iff, List.foldl_append, List.foldl_cons, ← hlook] at hbaseline
    unfold hydrates at hhydrates
    rw [hprime] at hhydrates
    obtain ⟨occurrence, hget, htitle⟩ := Option.map_eq_some_iff.mp hbaseline
    rw [hget, Option.any, htitle] at hhydrates
    exact absurd rfl (of_decide_eq_false hhydrates)

/-! ## An entry past the limit -/

/-- An entry without an identifier and a time. -/
def blank : Notification := ⟨[], [], [], .none, .none, .none⟩

def gridLost : Notification where
  id := Str.lit "n"
  title := Str.lit "Grid lost"
  body := []
  source := .none
  level := .str (Str.lit "alarm")
  ts := .str (Str.lit "1970-01-01T00:16:41+00:00")

/-- The call that primes lists an alarm behind a hundred other entries. -/
def crowded : List LifeOp :=
  [.step (.connect (Str.lit "igw") 0 false (Str.lit "first") 1000),
   .step (.native (List.replicate nativeLimit blank ++ [gridLost]) 1001 true fun _ => 1001)]

/-- The alarm was present with its time while the call primed, no identity was recorded, and the
    next call reports it. -/
theorem late_entry_is_reported :
    timestampMs gridLost.ts = some 1001000 ∧ (gridLost.payload 1001000 1002).isSome ∧
    (replay (lifeStep fun _ => true) (boot (fun _ => true) .empty (Str.lit "start") 999)
      crowded).map (fun s => (s.store.events,
        (s.observeNative [gridLost] 1002 false fun _ => 1002).1.map some)) =
      some ([], [gridLost.payload 1001000 1002]) := by
  decide +kernel

end InverterDashboard.Push
