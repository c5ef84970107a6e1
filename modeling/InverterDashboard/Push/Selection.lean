import InverterDashboard.Push.Control
import InverterDashboard.Push.Observer

/-
  The baselines of the selected samples.

  A role has its own kind and its own kind of identifier, so that no two roles share a baseline
  (`Typed.key_ne`), and a sample is observed without regard to the others. What an observation
  leaves of the baselines is said by one lemma for each of its parts: the notifications leave all
  of them alone, the selection drops those of samples that are gone, the loop changes each at its
  own sample.
-/

namespace InverterDashboard.Push

open Python Cerbo Server Notifications

/-! ## Roles -/

/-- The kind of the samples of a role. -/
def Role.kind : Role → Str
  | .pump => Str.lit "water"
  | .valve => Str.lit "water"
  | .ev => Str.lit "ev"
  | .lowBattery => Str.lit "lowBattery"

/-- How the keys of a role begin. -/
def Role.mark : Role → Str
  | .pump => Str.lit "water:pump:"
  | .valve => Str.lit "water:valve:"
  | .ev => Str.lit "ev:"
  | .lowBattery => Str.lit "lowBattery:"

/-- The key of the baseline. -/
def Sample.key (s : Sample) : Str := sampleKey s.kind s.identifier

/-- A sample that is one of its role. -/
structure Typed (e : Role × Sample) : Prop where
  kind : e.2.kind = e.1.kind
  mark : e.1.mark <+: e.2.key

/-- One sample for each of some roles. -/
structure Selected (samples : Samples) : Prop where
  typed : ∀ e ∈ samples, Typed e
  roles : (samples.map Prod.fst).Nodup

theorem mark_not_prefix : ∀ r r' : Role, r ≠ r' → ¬ r.mark <+: r'.mark := by
  intro r r'
  cases r <;> cases r' <;> decide

/-- Two roles never share a baseline. -/
theorem Typed.key_ne {e e' : Role × Sample} (h : Typed e) (h' : Typed e') (hrole : e.1 ≠ e'.1) :
    e.2.key ≠ e'.2.key := by
  intro hkey
  have hmark : e'.1.mark <+: e.2.key := hkey ▸ h'.mark
  rcases List.prefix_or_prefix_of_prefix h.mark hmark with hpre | hpre
  · exact mark_not_prefix e.1 e'.1 hrole hpre
  · exact mark_not_prefix e'.1 e.1 (Ne.symm hrole) hpre

/-- In a role, the identifier decides. -/
theorem Typed.key_eq_iff {e e' : Role × Sample} (h : Typed e) (h' : Typed e')
    (hrole : e.1 = e'.1) : e.2.key = e'.2.key ↔ e.2.identifier = e'.2.identifier := by
  have hkind : e.2.kind = e'.2.kind := by rw [h.kind, h'.kind, hrole]
  unfold Sample.key sampleKey
  rw [hkind]
  exact List.append_right_inj _

theorem Selected.eq_of_key {samples : Samples} (h : Selected samples) {e e' : Role × Sample}
    (he : e ∈ samples) (he' : e' ∈ samples) (hkey : e.2.key = e'.2.key) : e = e' := by
  have hrole : e.1 = e'.1 := by
    by_contra hne
    exact (h.typed e he).key_ne (h.typed e' he') hne hkey
  exact List.inj_on_of_nodup_map h.roles he he' hrole

/-- The sample of a role is found. -/
theorem Selected.mem_iff {samples : Samples} (h : Selected samples) {role : Role} {s : Sample} :
    (role, s) ∈ samples ↔ Dict.find role samples = some s :=
  Dict.mem_iff_find h.roles

theorem Selected.keys_nodup {samples : Samples} (h : Selected samples) :
    (samples.map fun e => e.2.key).Nodup :=
  h.roles.of_map.map_on fun _ he _ he' hkey => h.eq_of_key he he' hkey

/-! ## What is selected -/

theorem pumpSample_typed (role : Role) (label : String) (inst : Int) (pumps : Listing)
    (hkind : role.kind = Str.lit "water")
    (hmark : role.mark = Str.lit "water:" ++ (Str.lit label ++ Str.lit ":")) :
    Typed (role, pumpSample label inst pumps) where
  kind := hkind.symm
  mark := by
    refine ⟨intStr inst, ?_⟩
    show role.mark ++ intStr inst =
      Str.lit "water" ++ Str.lit ":" ++ (Str.lit label ++ Str.lit ":" ++ intStr inst)
    rw [hmark]
    have hwater : Str.lit "water:" = Str.lit "water" ++ Str.lit ":" := by decide
    rw [hwater]
    simp only [List.append_assoc]

/-- A sample whose identifier is the name of its service behind a word. -/
theorem typed_of_word {role : Role} {s : Sample} (word : String) {inst : Str}
    (hkind : s.kind = role.kind) (hidentifier : s.identifier = Str.lit word ++ inst)
    (hmark : role.mark = role.kind ++ Str.lit ":") : Typed (role, s) where
  kind := hkind
  mark := by
    refine ⟨Str.lit word ++ inst, ?_⟩
    show role.mark ++ (Str.lit word ++ inst) = s.kind ++ Str.lit ":" ++ s.identifier
    rw [hkind, hidentifier, hmark]

theorem evSample_typed {configured : Option Int} {chargers : Listing} {s : Sample}
    (h : evSample configured chargers = some s) : Typed (.ev, s) := by
  obtain ⟨charger, -, rfl⟩ := Option.map_eq_some_iff.mp h
  exact typed_of_word "evcharger:" rfl rfl (by decide)

theorem socSample_typed {listing : Kind → Option Listing} {s : Sample}
    (h : socSample listing = some (some s)) : Typed (.lowBattery, s) := by
  obtain ⟨systems, -, h⟩ := Option.bind_eq_some_iff.mp h
  dsimp only at h
  split at h
  · obtain rfl := Option.some.inj (Option.some.inj h)
    exact typed_of_word "system:" rfl rfl (by decide)
  · obtain ⟨batteries, -, h⟩ := Option.bind_eq_some_iff.mp h
    obtain ⟨battery, -, rfl⟩ := Option.map_eq_some_iff.mp (Option.some.inj h)
    exact typed_of_word "battery:" rfl rfl (by decide)

/-- The listings that a selection is made from. -/
theorem selectedSamples_eq {cfg : Config} {s : MqttState} {samples : Samples}
    (h : selectedSamples cfg s = some samples) :
    ∃ pumps chargers soc, devices s.cerboDevices .pump = some pumps ∧
      devices s.cerboDevices .evcharger = some chargers ∧
      socSample (devices s.cerboDevices) = some soc ∧
      samples = [(.pump, pumpSample "pump" cfg.waterPumpInstance pumps),
          (.valve, pumpSample "valve" cfg.waterValveInstance pumps)] ++
        ((evSample cfg.evchargerInstance chargers).map fun s => (Role.ev, s)).toList ++
        (soc.map fun s => (Role.lowBattery, s)).toList := by
  obtain ⟨pumps, hpumps, h⟩ := Option.bind_eq_some_iff.mp h
  obtain ⟨chargers, hchargers, h⟩ := Option.bind_eq_some_iff.mp h
  obtain ⟨soc, hsoc, h⟩ := Option.bind_eq_some_iff.mp h
  exact ⟨pumps, chargers, soc, hpumps, hchargers, hsoc, (Option.some.inj h).symm⟩

theorem selected_of_samples {cfg : Config} {s : MqttState} {samples : Samples}
    (h : selectedSamples cfg s = some samples) : Selected samples := by
  obtain ⟨pumps, chargers, soc, -, -, hsoc, rfl⟩ := selectedSamples_eq h
  have hpump : Typed (.pump, pumpSample "pump" cfg.waterPumpInstance pumps) :=
    pumpSample_typed .pump "pump" _ pumps rfl (by decide)
  have hvalve : Typed (.valve, pumpSample "valve" cfg.waterValveInstance pumps) :=
    pumpSample_typed .valve "valve" _ pumps rfl (by decide)
  constructor
  · intro e he
    simp only [List.mem_append, List.mem_cons, List.not_mem_nil, or_false, Option.mem_toList,
      Option.map_eq_some_iff] at he
    rcases he with ((rfl | rfl) | ⟨s, hs, rfl⟩) | ⟨s, hs, rfl⟩
    · exact hpump
    · exact hvalve
    · exact evSample_typed hs
    · exact socSample_typed (hs ▸ hsoc)
  · have hnone : [Role.pump, .valve].Nodup := by decide
    have hev : [Role.pump, .valve, .ev].Nodup := by decide
    have hbattery : [Role.pump, .valve, .lowBattery].Nodup := by decide
    have hboth : [Role.pump, .valve, .ev, .lowBattery].Nodup := by decide
    cases evSample cfg.evchargerInstance chargers with
    | none =>
      cases soc with
      | none => exact hnone
      | some _ => exact hbattery
    | some _ =>
      cases soc with
      | none => exact hev
      | some _ => exact hboth

/-! ## Baselines -/

/-- What `sample` leaves of the baselines. -/
theorem sample_get (p : EventProcessor) (s : Sample) (value : Option SampleValue) (now : ℚ)
    (prime : Bool) (key : Str) :
    (sample p s.kind s.identifier value now prime).1.samples.get? key =
      if key = s.key then value.map fun v => (v, now) else p.samples.get? key := by
  unfold sample
  dsimp only
  cases value with
  | none => exact Dict.get?_erase _ _ _
  | some v =>
    have hset := Dict.get?_set p.samples s.key key (v, now)
    dsimp only
    split
    · exact hset
    · split
      · exact hset
      · split <;> exact hset

/-- A notification leaves the baselines and the start of the epoch alone. -/
theorem nativeEvent_baselines (p : EventProcessor) (n : Notification) (now : ℚ) (prime : Bool) :
    (nativeEvent p n now prime).1.samples = p.samples := by
  unfold nativeEvent
  split
  · split <;> rfl
  · split
    · rfl
    · dsimp only
      split
      · rfl
      · split
        · rfl
        · split <;> rfl

theorem nativeEvents_baselines (now : ℚ) (prime : Bool) (ns : List Notification)
    (p : EventProcessor) : (nativeEvents now prime ns p).1.samples = p.samples ∧
      (nativeEvents now prime ns p).1.startedAt = p.startedAt := by
  induction ns generalizing p with
  | nil => exact ⟨rfl, rfl⟩
  | cons n ns ih =>
    have hsamples := nativeEvent_baselines p n now prime
    have hstarted := (nativeEvent_epoch p n now prime).2.1
    unfold nativeEvents
    cases hevent : nativeEvent p n now prime with
    | mk q out =>
      rw [hevent] at hsamples hstarted
      cases out with
      | none => exact ⟨hsamples, hstarted⟩
      | some event => exact ⟨(ih q).1.trans hsamples, (ih q).2.trans hstarted⟩

theorem native_baselines (p : EventProcessor) (ns : List Notification) (now : ℚ) (prime : Bool) :
    (native p ns now prime).1.samples = p.samples ∧
      (native p ns now prime).1.startedAt = p.startedAt := by
  have hevents := nativeEvents_baselines now (p.primes prime) (ns.take nativeLimit)
    (nativeStart p ns)
  have hsamples := native_keeps (fun q => q.samples) (fun _ => rfl) p ns now prime
  have hstarted := native_keeps (fun q => q.startedAt) (fun _ => rfl) p ns now prime
  exact ⟨hsamples.trans hevents.1, hstarted.trans hevents.2⟩

theorem sample_startedAt (p : EventProcessor) (kind identifier : Str) (value : Option SampleValue)
    (now : ℚ) (prime : Bool) :
    (sample p kind identifier value now prime).1.startedAt = p.startedAt := by
  unfold sample
  dsimp only
  split
  · rfl
  · split
    · rfl
    · split
      · rfl
      · split <;> rfl

namespace PushService

theorem queue_eq {s : PushService} {event : EventPayload} {now : ℚ} {o : Bool × PushService}
    (h : s.queue event now = .ok o) : ∃ t, o.2 = s.withStore t := by
  unfold queue at h
  split at h
  · split at h
    · obtain rfl := Except.ok.inj h
      exact ⟨_, rfl⟩
    · cases h
  · obtain rfl := Except.ok.inj h
    exact ⟨s.store, rfl⟩

/-- Queueing changes the store; one that raises disables the service. -/
theorem queueAll_eq (events : List EventPayload) (clock : Nat → ℚ) (s : PushService) :
    ∃ t, (queueAll events clock s).2 = s.withStore t ∨
      (queueAll events clock s).2 = (s.withStore t).fail := by
  induction events generalizing clock s with
  | nil => exact ⟨s.store, Or.inl rfl⟩
  | cons event events ih =>
    unfold queueAll
    cases hqueue : s.queue event (clock 0) with
    | error e => exact ⟨s.store, Or.inr rfl⟩
    | ok o =>
      obtain ⟨t, ht⟩ := queue_eq hqueue
      obtain ⟨t', h⟩ := ih (fun i => clock (i + 1)) o.2
      rw [ht] at h
      refine ⟨t', ?_⟩
      dsimp only
      rw [ht]
      exact h

theorem queueDetected_eq (s : PushService)
    (detected : EventProcessor × Option (List EventPayload)) (clock : Nat → ℚ) :
    ∃ t, (s.queueDetected detected clock).2 = { s with processor := detected.1 }.withStore t ∨
      (s.queueDetected detected clock).2 =
        ({ s with processor := detected.1 }.withStore t).fail := by
  unfold queueDetected
  dsimp only
  cases detected.2 with
  | none => exact ⟨detected.1.store, Or.inr rfl⟩
  | some events => exact queueAll_eq events clock _

end PushService

/-- What observations do beside the baselines and the tables: nothing, unless one raises and ends
    them all. -/
structure Steady (s s' : PushService) : Prop where
  startedAt : s'.processor.startedAt = s.processor.startedAt
  epoch : s'.processor.epoch = s.processor.epoch
  alive : s'.available = true → s.available = true ∧ s'.connection = s.connection

theorem Steady.refl (s : PushService) : Steady s s := ⟨rfl, rfl, fun h => ⟨h, rfl⟩⟩

theorem Steady.trans {a b c : PushService} (h : Steady a b) (h' : Steady b c) :
    Steady a c where
  startedAt := h'.startedAt.trans h.startedAt
  epoch := h'.epoch.trans h.epoch
  alive := fun hc =>
    have hb := h'.alive hc
    have ha := h.alive hb.1
    ⟨ha.1, hb.2.trans ha.2⟩

namespace PushService

theorem queueDetected_steady (s : PushService)
    (detected : EventProcessor × Option (List EventPayload)) (clock : Nat → ℚ)
    (hstarted : detected.1.startedAt = s.processor.startedAt)
    (hepoch : detected.1.epoch = s.processor.epoch) :
    Steady s (s.queueDetected detected clock).2 ∧
      (s.queueDetected detected clock).2.processor.samples = detected.1.samples := by
  obtain ⟨t, h | h⟩ := queueDetected_eq s detected clock
  · rw [h]
    exact ⟨⟨hstarted, hepoch, fun h => ⟨h, rfl⟩⟩, rfl⟩
  · rw [h]
    exact ⟨⟨hstarted, hepoch, fun h => by cases h⟩, rfl⟩

/-- Notifications leave the baselines alone. -/
theorem observeNative_steady (s : PushService) (ns : List Notification) (now : ℚ)
    (prime : Bool) (clock : Nat → ℚ) :
    Steady s (s.observeNative ns now prime clock).2 ∧
      (s.observeNative ns now prime clock).2.processor.samples = s.processor.samples := by
  unfold observeNative
  split
  · have hnative := native_baselines s.processor ns now prime
    obtain ⟨hsteady, hsamples⟩ := s.queueDetected_steady
      (native s.processor ns now prime) clock hnative.2 (native_epoch _ _ _ _)
    exact ⟨hsteady, hsamples.trans hnative.1⟩
  · exact ⟨Steady.refl s, rfl⟩

/-- A sample changes its own baseline. -/
theorem observeSample_steady (s : PushService) (x : Sample) (value : Option SampleValue)
    (now : ℚ) (prime : Bool) (clock : ℚ) (key : Str) :
    Steady s (s.observeSample x.kind x.identifier value now prime clock).2 ∧
      (s.observeSample x.kind x.identifier value now prime clock).2.processor.samples.get? key =
        if s.available then
          (if key = x.key then value.map fun v => (v, now) else s.processor.samples.get? key)
        else s.processor.samples.get? key := by
  unfold observeSample
  split
  · obtain ⟨hsteady, hsamples⟩ := s.queueDetected_steady
      ((sample s.processor x.kind x.identifier value now prime).1,
        (sample s.processor x.kind x.identifier value now prime).2.map Option.toList)
      (fun _ => clock) (sample_startedAt _ _ _ _ _ _) (sample_epoch _ _ _ _ _ _)
    refine ⟨hsteady, ?_⟩
    rw [hsamples]
    exact sample_get s.processor x value now prime key
  · exact ⟨Steady.refl s, rfl⟩

end PushService

/-! ## The selection -/

/-- The role lost its sample, or changed it. -/
def Dropped (samples : Samples) (previous : Role × Sample) : Prop :=
  ∀ current, Dict.find previous.1 samples = some current →
    current.identifier ≠ previous.2.identifier

theorem dropUnselected_cons (samples selected : Samples) (previous : Role × Sample)
    (p : EventProcessor) :
    Dropped samples previous ∧ dropUnselected samples (previous :: selected) p =
        dropUnselected samples selected (forget p previous.2) ∨
      ¬ Dropped samples previous ∧ dropUnselected samples (previous :: selected) p =
        dropUnselected samples selected p := by
  unfold dropUnselected
  rw [List.foldl_cons]
  cases hfind : Dict.find previous.1 samples with
  | none =>
    refine Or.inl ⟨?_, rfl⟩
    intro current hcurrent
    rw [hfind] at hcurrent
    cases hcurrent
  | some current =>
    dsimp only
    by_cases hid : current.identifier = previous.2.identifier
    · refine Or.inr ⟨fun h => h current hfind hid, ?_⟩
      rw [if_pos hid]
    · refine Or.inl ⟨?_, by rw [if_neg hid]⟩
      intro other hother
      rw [hfind] at hother
      obtain rfl := Option.some.inj hother
      exact hid

/-- The selection changes baselines only. -/
theorem dropUnselected_eq (samples selected : Samples) (p : EventProcessor) :
    dropUnselected samples selected p =
      { p with samples := (dropUnselected samples selected p).samples } := by
  induction selected generalizing p with
  | nil => rfl
  | cons previous selected ih =>
    rcases dropUnselected_cons samples selected previous p with ⟨-, heq⟩ | ⟨-, heq⟩
    · rw [heq]
      exact ih (forget p previous.2)
    · rw [heq]
      exact ih p

/-- A baseline is dropped with its sample and not otherwise. -/
theorem dropUnselected_get (samples selected : Samples) (p : EventProcessor) (key : Str) :
    (dropUnselected samples selected p).samples.get? key = p.samples.get? key ∧
        (∀ e ∈ selected, e.2.key = key → ¬ Dropped samples e) ∨
      (dropUnselected samples selected p).samples.get? key = none ∧
        ∃ e ∈ selected, e.2.key = key ∧ Dropped samples e := by
  induction selected generalizing p with
  | nil => exact Or.inl ⟨rfl, fun e he => absurd he List.not_mem_nil⟩
  | cons previous selected ih =>
    rcases dropUnselected_cons samples selected previous p with ⟨hdrop, heq⟩ | ⟨hkeep, heq⟩
    · rw [heq]
      have hforget := sample_get p previous.2 none 0 false key
      rcases ih (forget p previous.2) with ⟨hget, hall⟩ | ⟨hget, e, he, hgone⟩
      · by_cases hkey : previous.2.key = key
        · rw [if_pos hkey.symm] at hforget
          exact Or.inr ⟨hget.trans hforget, previous, List.mem_cons_self, hkey, hdrop⟩
        · rw [if_neg (Ne.symm hkey)] at hforget
          refine Or.inl ⟨hget.trans hforget, ?_⟩
          exact List.forall_mem_cons.mpr ⟨fun h => absurd h hkey, hall⟩
      · exact Or.inr ⟨hget, e, List.mem_cons_of_mem _ he, hgone⟩
    · rw [heq]
      rcases ih p with ⟨hget, hall⟩ | ⟨hget, e, he, hgone⟩
      · exact Or.inl ⟨hget, List.forall_mem_cons.mpr ⟨fun _ => hkeep, hall⟩⟩
      · exact Or.inr ⟨hget, e, List.mem_cons_of_mem _ he, hgone⟩

/-- The baselines of the samples that are selected now stay. -/
theorem dropUnselected_get_of_mem {samples selected : Samples} (h : Selected samples)
    (hbefore : ∀ e ∈ selected, Typed e) (p : EventProcessor) {e : Role × Sample}
    (he : e ∈ samples) :
    (dropUnselected samples selected p).samples.get? e.2.key = p.samples.get? e.2.key := by
  rcases dropUnselected_get samples selected p e.2.key with ⟨hget, -⟩ | ⟨-, d, hd, hkey, hgone⟩
  · exact hget
  · have hrole : d.1 = e.1 := by
      by_contra hne
      exact (hbefore d hd).key_ne (h.typed e he) hne hkey
    have hid := ((hbefore d hd).key_eq_iff (h.typed e he) hrole).mp hkey
    have hfind : Dict.find d.1 samples = some e.2 := hrole ▸ h.mem_iff.mp he
    exact absurd hid.symm (hgone e.2 hfind)

/-! ## The loop -/

/-- An observation of a sample that changes no other baseline. -/
structure Local (observe : Role × Sample → PushService → List EventPayload × PushService) :
    Prop where
  steady : ∀ e s, Steady s (observe e s).2
  other : ∀ e s key, key ≠ e.2.key →
    (observe e s).2.processor.samples.get? key = s.processor.samples.get? key

section Loop

variable {observe : Role × Sample → PushService → List EventPayload × PushService}

theorem observeSamples_steady (h : Local observe) (samples : Samples) (s : PushService) :
    Steady s (observeSamples observe samples s).2 := by
  induction samples generalizing s with
  | nil => exact Steady.refl s
  | cons e samples ih => exact (h.steady e s).trans (ih (observe e s).2)

theorem observeSamples_get_other (h : Local observe) {samples : Samples} {key : Str}
    (hkey : ∀ e ∈ samples, key ≠ e.2.key) (s : PushService) :
    (observeSamples observe samples s).2.processor.samples.get? key =
      s.processor.samples.get? key := by
  induction samples generalizing s with
  | nil => rfl
  | cons e samples ih =>
    obtain ⟨he, hrest⟩ := List.forall_mem_cons.mp hkey
    exact (ih hrest (observe e s).2).trans (h.other e s key he)

/-- A sample meets its own baseline as it was before the loop, and leaves it as it is after. -/
theorem observeSamples_turn (h : Local observe) {samples : Samples}
    (hkeys : (samples.map fun e => e.2.key).Nodup) (s : PushService) {e : Role × Sample}
    (he : e ∈ samples) :
    ∃ t, Steady s t ∧
      t.processor.samples.get? e.2.key = s.processor.samples.get? e.2.key ∧
      Steady (observe e t).2 (observeSamples observe samples s).2 ∧
      (observeSamples observe samples s).2.processor.samples.get? e.2.key =
        (observe e t).2.processor.samples.get? e.2.key := by
  induction samples generalizing s with
  | nil => exact absurd he List.not_mem_nil
  | cons d samples ih =>
    rw [List.map_cons, List.nodup_cons] at hkeys
    have hother : ∀ e' ∈ samples, d.2.key ≠ e'.2.key :=
      fun e' he' hkey => hkeys.1 (List.mem_map.mpr ⟨e', he', hkey.symm⟩)
    rcases List.mem_cons.mp he with rfl | he
    · exact ⟨s, Steady.refl s, rfl, observeSamples_steady h samples _,
        observeSamples_get_other h hother _⟩
    · obtain ⟨t, hst, hget, hrest⟩ := ih hkeys.2 (observe d s).2 he
      exact ⟨t, (h.steady d s).trans hst,
        hget.trans (h.other d s e.2.key (Ne.symm (hother e he))), hrest⟩

/-- An event comes from a sample that met its baseline as it was before the loop. -/
theorem observeSamples_events (h : Local observe) {samples : Samples}
    (hkeys : (samples.map fun e => e.2.key).Nodup) {s : PushService} {event : EventPayload}
    (hevent : event ∈ (observeSamples observe samples s).1) :
    ∃ e ∈ samples, ∃ t, Steady s t ∧
      t.processor.samples.get? e.2.key = s.processor.samples.get? e.2.key ∧
      event ∈ (observe e t).1 := by
  induction samples generalizing s with
  | nil => exact absurd hevent List.not_mem_nil
  | cons d samples ih =>
    rw [List.map_cons, List.nodup_cons] at hkeys
    rcases List.mem_append.mp hevent with hevent | hevent
    · exact ⟨d, List.mem_cons_self, s, Steady.refl s, rfl, hevent⟩
    · obtain ⟨e, he, t, hst, hget, hmem⟩ := ih hkeys.2 hevent
      have hkey : e.2.key ≠ d.2.key :=
        fun hkey => hkeys.1 (List.mem_map.mpr ⟨e, he, hkey⟩)
      exact ⟨e, List.mem_cons_of_mem _ he, t, (h.steady d s).trans hst,
        hget.trans (h.other d s e.2.key hkey), hmem⟩

/-- The service survives the loop when each sample, met as before the loop, leaves it alive. -/
theorem observeSamples_available (h : Local observe) {samples : Samples}
    (hkeys : (samples.map fun e => e.2.key).Nodup) {s : PushService} (hs : s.available = true)
    (hstep : ∀ e ∈ samples, ∀ t, Steady s t → t.available = true →
      t.processor.samples.get? e.2.key = s.processor.samples.get? e.2.key →
      (observe e t).2.available = true) :
    (observeSamples observe samples s).2.available = true := by
  induction samples generalizing s with
  | nil => exact hs
  | cons d samples ih =>
    rw [List.map_cons, List.nodup_cons] at hkeys
    obtain ⟨hd, hrest⟩ := List.forall_mem_cons.mp hstep
    refine ih hkeys.2 (hd s (Steady.refl s) hs rfl) ?_
    intro e he t hst ht hget
    have hkey : e.2.key ≠ d.2.key := fun hkey => hkeys.1 (List.mem_map.mpr ⟨e, he, hkey⟩)
    exact hrest e he t ((h.steady d s).trans hst) ht
      (hget.trans (h.other d s e.2.key hkey))

end Loop

/-! ## The two loops of the observer -/

theorem snapshotSample_local (reading : Reading) (prime : Bool) :
    Local (snapshotSample reading prime) where
  steady e s := (s.observeSample_steady e.2 e.2.value reading.now prime _ []).1
  other e s key hkey := by
    refine (s.observeSample_steady e.2 e.2.value reading.now prime _ key).2.trans ?_
    rw [if_neg hkey, ite_self]

theorem mqttSample_local (leaf : LeafName) (reading : Reading) (clear priming : Bool) :
    Local (mqttSample leaf reading clear priming) where
  steady e s := by
    unfold mqttSample
    dsimp only
    split
    · exact (s.observeSample_steady e.2 none reading.now false _ []).1
    · split
      · exact (s.observeSample_steady e.2 _ reading.now priming _ []).1
      · exact Steady.refl s
  other e s key hkey := by
    unfold mqttSample
    dsimp only
    split
    · refine (s.observeSample_steady e.2 none reading.now false _ key).2.trans ?_
      rw [if_neg hkey, ite_self]
    · split
      · refine (s.observeSample_steady e.2 _ reading.now priming _ key).2.trans ?_
        rw [if_neg hkey, ite_self]
      · rfl

/-! ## The parts of an observation -/

namespace Watch

/-- Notifications are observed without regard to the samples. -/
structure NotedBy (m : Message) (reading : Reading) (w : Watch) : Prop where
  watch : (w.noted m reading).2 = { w with service := (w.noted m reading).2.service }
  steady : Steady w.service (w.noted m reading).2.service
  samples : (w.noted m reading).2.service.processor.samples = w.service.processor.samples

theorem notedBy (m : Message) (reading : Reading) (w : Watch) : NotedBy m reading w := by
  have hsteady := w.service.observeNative_steady (nativeNotifications w.source.board)
    reading.now (m.retained || w.priming reading) reading.native
  by_cases htopic : isNotificationTopic m.topic = true
  · have hnoted : w.noted m reading = ((w.service.observeNative
        (nativeNotifications w.source.board) reading.now (m.retained || w.priming reading)
        reading.native).1, { w with service := (w.service.observeNative
        (nativeNotifications w.source.board) reading.now (m.retained || w.priming reading)
        reading.native).2 }) := if_pos htopic
    constructor
    · rw [hnoted]
    · rw [hnoted]
      exact hsteady.1
    · rw [hnoted]
      exact hsteady.2
  · have hnoted : w.noted m reading = ([], w) := if_neg htopic
    constructor
    · rw [hnoted]
    · rw [hnoted]
      exact Steady.refl w.service
    · rw [hnoted]

theorem select_steady (samples : Samples) (w : Watch) :
    Steady w.service (w.select samples).service := by
  have hdrop := dropUnselected_eq samples (w.observer.current w.service.processor.epoch)
    w.service.processor
  constructor
  · show (dropUnselected _ _ _).startedAt = _
    rw [hdrop]
  · show (dropUnselected _ _ _).epoch = _
    rw [hdrop]
  · exact fun h => ⟨h, rfl⟩

end Watch

end InverterDashboard.Push
