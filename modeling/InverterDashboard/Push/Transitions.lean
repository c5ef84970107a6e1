import InverterDashboard.Push.Contents
import InverterDashboard.Push.Sampling
import InverterDashboard.Push.Silence

/-
  Which two packets a reported transition comes from.

  A baseline is kept under the identifier of a sample, a packet is judged by its leaf. In a run
  every baseline comes from a packet on the leaf of a sample that is selected (`baselines_run`), and
  no packet on that leaf or about its device came after it. The two agree as long as the sample of
  an identifier keeps its leaf, which a pump does not: with its first `State` it is no longer read
  from `Status` (`FirstState`).

  Proved (`transition_observed_iff`): an event of a sample comes from two packets on the same leaf,
  at most thirty seconds apart and with nothing about the device in between, exactly when it does
  not come with the first `State` of a pump.
-/

namespace InverterDashboard.Push

open Python Cerbo Server Notifications Temporal

/-! ## Packets -/

/-- The leaf of a packet, once the reducer has seen it. -/
def Watch.leafOf (site : Site) (w : Watch) (p : Packet) : Option LeafName :=
  observedLeaf (w.receive site p).source.mqtt.portalId p.message.topic

/-- A nonretained packet with a number, on exactly this leaf of the portal. -/
structure Measures (site : Site) (leaf : LeafName) (q : ℚ) (w : Watch) (p : Packet) : Prop where
  known : (w.receive site p).source.mqtt.portalId ≠ []
  leaf : w.leafOf site p = some leaf
  live : p.message.retained = false
  number : packetNumber p.message.payload.loaded = some q

/-- A step at which this number was measured. -/
def Measured (site : Site) (leaf : LeafName) (q t : ℚ) (x : Watch × SessionOp) : Prop :=
  ∃ p, x.2 = .packet p ∧ Measures site leaf q x.1 p ∧ p.reading.now = t

/-- The reducer takes a packet for the removal of its service. -/
def Removes (site : Site) (m : Message) : Prop :=
  isDeviceTopic site m.topic = true ∧ m.payload.loaded = .empty

/-- A packet on the leaf, retained or not, with a number or not; or one that removes its service,
    or is about its connection. -/
def Concerns (site : Site) (leaf : LeafName) (w : Watch) (p : Packet) : Prop :=
  ∃ seen, w.leafOf site p = some seen ∧ seen.kind = leaf.kind ∧ seen.inst = leaf.inst ∧
    (seen.path = leaf.path ∨ seen.path = [] ∨ seen.path = connectedPath ∨ Removes site p.message)

/-- A step after which an earlier measurement on the leaf counts no more. -/
def Disturbs (site : Site) (leaf : LeafName) (x : Watch × SessionOp) : Prop :=
  match x.2 with
  | .packet p => Concerns site leaf x.1 p
  | .service op _ => retires x.1.service op = true

/-- The steps of a run, the last measurement on a leaf among them. -/
def LastMeasured (site : Site) (leaf : LeafName) (q t : ℚ) : List (Watch × SessionOp) → Prop :=
  Since (fun x => ¬ Disturbs site leaf x) (Measured site leaf q t)

/-- A value of a sample is on the other side of what the role reports. -/
def Role.crosses : Role → ℚ → ℚ → Prop
  | .pump, before, q => before = 0 ∧ q = 1 ∨ before = 1 ∧ q = 0
  | .valve, before, q => before = 0 ∧ q = 1 ∨ before = 1 ∧ q = 0
  | .ev, before, q => ¬ (10 < before ↔ 10 < q)
  | .lowBattery, before, q => 20 < before ∧ 0 ≤ q ∧ q ≤ 20

/-! ## Events -/

/-- A message is about two different numbers. -/
theorem message_differs {kind identifier : Str} {before value : SampleValue} {text : Str × Str}
    (h : sampleMessage kind identifier before value = some text) : value.rat ≠ before.rat := by
  intro hsame
  unfold sampleMessage at h
  split at h
  · split at h
    · next hcross =>
      rw [hsame] at hcross
      exact absurd hcross.1 (not_lt.mpr hcross.2)
    · cases h
  · cases h

theorem crosses_of_message {role : Role} {identifier : Str} {a b : ℚ} {before value : SampleValue}
    {text : Str × Str} (ha : role.value a = some before) (hb : role.value b = some value)
    (h : sampleMessage role.kind identifier before value = some text) : role.crosses a b := by
  have hswitch : ∀ {x : ℚ} {v : SampleValue}, switched x = some v →
      (x = 0 ∧ v.rat = 0) ∨ (x = 1 ∧ v.rat = 1) := by
    intro x v hx
    unfold switched at hx
    split at hx
    · next hcase =>
      obtain rfl := Option.some.inj hx
      rcases hcase with rfl | rfl
      · exact Or.inl ⟨rfl, by decide⟩
      · exact Or.inr ⟨rfl, by decide⟩
    · cases hx
  have hne := message_differs h
  have hwater : switched a = some before → switched b = some value →
      a = 0 ∧ b = 1 ∨ a = 1 ∧ b = 0 := by
    intro ha hb
    rcases hswitch ha with ⟨hx, hbefore⟩ | ⟨hx, hbefore⟩
    · rcases hswitch hb with ⟨hy, hvalue⟩ | ⟨hy, hvalue⟩
      · exact absurd (hvalue.trans hbefore.symm) hne
      · exact Or.inl ⟨hx, hy⟩
    · rcases hswitch hb with ⟨hy, hvalue⟩ | ⟨hy, hvalue⟩
      · exact Or.inr ⟨hx, hy⟩
      · exact absurd (hvalue.trans hbefore.symm) hne
  cases role with
  | pump => exact hwater ha hb
  | valve => exact hwater ha hb
  | ev =>
    intro hsame
    obtain rfl := Option.some.inj ha
    obtain rfl := Option.some.inj hb
    apply hne
    unfold charging
    rw [decide_eq_decide.mpr hsame]
  | lowBattery =>
    have hlevel : ∀ {x : ℚ} {v : SampleValue}, percent x = some v → 0 ≤ x ∧ v.rat = x := by
      intro x v hx
      unfold percent at hx
      split at hx
      · next hrange =>
        obtain rfl := Option.some.inj hx
        exact ⟨hrange.1, rfl⟩
      · cases hx
    unfold sampleMessage at h
    have hkind : Role.lowBattery.kind = Str.lit "lowBattery" := rfl
    rw [if_pos hkind] at h
    split at h
    · next hcross =>
      rw [(hlevel ha).2, (hlevel hb).2] at hcross
      exact ⟨hcross.1, (hlevel hb).1, hcross.2⟩
    · cases h

theorem native_kinds {s : PushService} {ns : List Notification} {now : ℚ} {prime : Bool}
    {clock : Nat → ℚ} {event : EventPayload} (h : event ∈ (s.observeNative ns now prime clock).1) :
    event.kind = Str.lit "native" := by
  unfold PushService.observeNative at h
  split at h
  · unfold PushService.queueDetected at h
    dsimp only at h
    split at h
    · cases h
    · next events hevents =>
      have hmem := PushService.mem_queueAll h
      rw [native_events] at hevents
      have hdetected : event ∈ (nativeEvents now (s.processor.primes prime) (ns.take nativeLimit)
          (nativeStart s.processor ns)).2.getD [] := by
        rw [hevents]
        exact hmem
      obtain ⟨-, first, n, last, -, sourceMs, -, hpayload, -⟩ := mem_nativeEvents hdetected
      exact (eventPayload_fields hpayload).2.1
  · cases h

/-- What an event of a sample says of its baseline. -/
structure Crossing (x : Sample) (value : SampleValue) (now : ℚ) (prime : Bool)
    (p : EventProcessor) (event : EventPayload) (before : SampleValue) (since : ℚ) : Prop where
  baseline : p.samples.get? x.key = some (before, since)
  live : prime = false
  fresh : baselineFresh now since = true
  message : (sampleMessage x.kind x.identifier before value).isSome = true
  kind : event.kind = x.kind

theorem observeSample_event {s : PushService} {x : Sample} {value : Option SampleValue} {now : ℚ}
    {prime : Bool} {clock : ℚ} {event : EventPayload}
    (h : event ∈ (s.observeSample x.kind x.identifier value now prime clock).1) :
    ∃ v before since, value = some v ∧ Crossing x v now prime s.processor event before since := by
  unfold PushService.observeSample at h
  split at h
  · unfold PushService.queueDetected at h
    dsimp only at h
    split at h
    · cases h
    · next events hevents =>
      have hmem := PushService.mem_queueAll h
      obtain ⟨found, hfound, rfl⟩ := Option.map_eq_some_iff.mp hevents
      obtain rfl := Option.mem_toList.mp hmem
      unfold sample at hfound
      cases value with
      | none => cases hfound
      | some v =>
        dsimp only at hfound
        split at hfound
        · cases hfound
        · next before since hbefore =>
          split at hfound
          · cases hfound
          · next hlive =>
            rw [Bool.or_eq_true, not_or, Bool.not_eq_true, Bool.not_eq_true,
              Bool.not_eq_false'] at hlive
            split at hfound
            · cases hfound
            · next title body hmessage =>
              obtain ⟨p, hp, heq⟩ := Option.map_eq_some_iff.mp hfound
              obtain rfl := Option.some.inj heq
              exact ⟨v, before, since, rfl, hbefore, hlive.1, hlive.2, by rw [hmessage]; rfl,
                (eventPayload_fields hp).2.1⟩
  · cases h

/-- What `_mqtt_sample` does to one sample: it drops the baseline, takes the packet for its
    measurement, or passes it over. -/
inductive SampleTurn (leaf : LeafName) (clear : Bool) (x : Sample) (value : Option SampleValue) :
    Prop where
  | dropped (h : x.value = none ∨ leaf.kind = x.leaf.kind ∧ leaf.inst = x.leaf.inst ∧
      (leaf.path = [] ∨ leaf.path = connectedPath)) (hvalue : value = none)
  | measured (h : leaf = x.leaf) (hvalue : value = if clear then none else x.value)

theorem mqttSample_turn (leaf : LeafName) (reading : Reading) (clear priming : Bool)
    (e : Role × Sample) (s : PushService) :
    (∃ value prime, SampleTurn leaf clear e.2 value ∧ (value.isSome = true → prime = priming) ∧
        mqttSample leaf reading clear priming e s =
          s.observeSample e.2.kind e.2.identifier value reading.now prime (reading.sample e.1)) ∨
      leaf ≠ e.2.leaf ∧ e.2.value.isSome = true ∧
        ¬ (leaf.kind = e.2.leaf.kind ∧ leaf.inst = e.2.leaf.inst ∧
          (leaf.path = [] ∨ leaf.path = connectedPath)) ∧
        mqttSample leaf reading clear priming e s = ([], s) := by
  unfold mqttSample
  dsimp only
  split
  · next h =>
    refine Or.inl ⟨none, false, .dropped ?_ rfl, (fun hsome => by cases hsome), rfl⟩
    simpa [and_assoc] using h
  · next h =>
    split
    · next hleaf => exact Or.inl ⟨_, priming, .measured hleaf rfl, fun _ => rfl, rfl⟩
    · next hleaf =>
      rw [Bool.or_eq_true, not_or, Bool.not_eq_true, Option.isNone_eq_false_iff] at h
      refine Or.inr ⟨hleaf, h.1, ?_, rfl⟩
      simpa [and_assoc] using h.2

/-! ## One packet -/

/-- What a packet does to the observer and the baselines. -/
inductive PacketStep (site : Site) (w : Watch) (p : Packet) (out : List EventPayload × Watch) :
    Prop where
  /-- Nobody observes the source. -/
  | idle (h : ¬ (w.service.available = true ∧
      w.service.connection = some (PushService.mqttSource, w.owner)))
      (hout : out = ([], w.receive site p))
  /-- The topic names no leaf. -/
  | unseen (s : PushService) (hleaf : w.leafOf site p = none) (hsteady : Steady w.service s)
      (hsamples : s.processor.samples = w.service.processor.samples)
      (hnative : ∀ event ∈ out.1, event.kind = Str.lit "native")
      (hout : out.2 = { w.receive site p with service := s })
  | failed (s : PushService) (hdead : s.available = false)
      (hnative : ∀ event ∈ out.1, event.kind = Str.lit "native")
      (hout : out.2 = { w.receive site p with service := s })
  | seen (s : PushService) (leaf : LeafName) (samples : Samples) (noted : List EventPayload)
      (hours : w.service.available = true ∧
        w.service.connection = some (PushService.mqttSource, w.owner))
      (hleaf : w.leafOf site p = some leaf)
      (hselected : selectedSamples site.cfg (w.receive site p).source.mqtt = some samples)
      (hsteady : Steady w.service s)
      (hsamples : s.processor.samples = w.service.processor.samples)
      (hnative : ∀ event ∈ noted, event.kind = Str.lit "native")
      (hout : out = (noted ++ (observeSamples (mqttSample leaf p.reading
          (p.message.retained || (packetNumber p.message.payload.loaded).isNone)
          (w.priming p.reading)) samples
          ({ w.receive site p with service := s }.select samples).service).1,
        { w.receive site p with
          observer := ⟨samples, s.processor.epoch⟩
          service := (observeSamples (mqttSample leaf p.reading
            (p.message.retained || (packetNumber p.message.payload.loaded).isNone)
            (w.priming p.reading)) samples
            ({ w.receive site p with service := s }.select samples).service).2 }))

theorem noted_native {m : Message} {reading : Reading} {w : Watch} :
    ∀ event ∈ (w.noted m reading).1, event.kind = Str.lit "native" := by
  intro event h
  unfold Watch.noted at h
  split at h
  · exact native_kinds h
  · cases h

theorem sampled_step {site : Site} {w : Watch} {p : Packet} {s : PushService}
    {noted : List EventPayload}
    (hours : w.service.available = true ∧
      w.service.connection = some (PushService.mqttSource, w.owner))
    (hsteady : Steady w.service s) (hsamples : s.processor.samples = w.service.processor.samples)
    (hnative : ∀ event ∈ noted, event.kind = Str.lit "native") :
    PacketStep site w p
      (noted ++ ({ w.receive site p with service := s }.sampled site p.message p.reading).1,
        ({ w.receive site p with service := s }.sampled site p.message p.reading).2) := by
  have hprime : { w.receive site p with service := s }.priming p.reading = w.priming p.reading := by
    unfold Watch.priming
    dsimp only
    rw [hsteady.startedAt]
  unfold Watch.sampled
  rw [hprime]
  cases hleaf : observedLeaf (w.receive site p).source.mqtt.portalId p.message.topic with
  | none =>
    dsimp only
    rw [List.append_nil]
    exact .unseen s hleaf hsteady hsamples hnative rfl
  | some leaf =>
    dsimp only
    unfold Watch.observeSelected
    cases hlive : s.available with
    | false =>
      dsimp only
      rw [Bool.not_false, if_pos rfl, List.append_nil]
      exact .failed s hlive hnative rfl
    | true =>
      dsimp only
      rw [Bool.not_true, if_neg Bool.false_ne_true]
      cases hselected : selectedSamples site.cfg (w.receive site p).source.mqtt with
      | none =>
        dsimp only
        rw [List.append_nil]
        exact .failed s.fail rfl hnative rfl
      | some samples =>
        exact .seen s leaf samples noted hours hleaf hselected hsteady hsamples hnative rfl

/-- **One packet.** -/
theorem packetStep (site : Site) (w : Watch) (p : Packet) :
    PacketStep site w p (w.packet site p) := by
  unfold Watch.packet Watch.mqtt
  split
  · next hours =>
    rw [Bool.and_eq_true, decide_eq_true_eq] at hours
    have hnoted := (w.receive site p).notedBy p.message p.reading
    dsimp only
    rw [hnoted.watch]
    exact sampled_step hours hnoted.steady hnoted.samples noted_native
  · next hours =>
    refine .idle (fun h => hours ?_) rfl
    rw [Bool.and_eq_true, decide_eq_true_eq]
    exact h

/-! ## Where the baselines come from -/

/-- The sample of a baseline, and the measurement it was. -/
structure Origin (site : Site) (l : List (Watch × SessionOp)) (w : Watch) (key : Str)
    (v : SampleValue) (t : ℚ) : Prop where
  connection : w.service.connection = some (PushService.mqttSource, w.owner)
  epoch : w.observer.epoch = w.service.processor.epoch
  selected : selectedSamples site.cfg w.source.mqtt = some w.observer.selected
  sample : ∃ e ∈ w.observer.selected, e.2.key = key ∧ e.2.value.isSome = true ∧
    ∃ q, e.1.value q = some v ∧ LastMeasured site e.2.leaf q t l

/-- Every baseline has an origin. -/
structure Grounds (site : Site) (l : List (Watch × SessionOp)) (w : Watch) : Prop where
  routed : Routed site w.source.mqtt
  typed : ∀ e ∈ w.observer.selected, Typed e
  origin : w.service.available = true → ∀ key v t,
    w.service.processor.samples.get? key = some (v, t) → Origin site l w key v t

theorem selectedSamples_congr {cfg : Config} {s t : MqttState}
    (h : s.cerboDevices = t.cerboDevices) : selectedSamples cfg s = selectedSamples cfg t := by
  unfold selectedSamples
  rw [h]

theorem Typed.same_of_key {e e' : Role × Sample} (h : Typed e) (h' : Typed e')
    (hkey : e.2.key = e'.2.key) : e.1 = e'.1 ∧ e.2.identifier = e'.2.identifier := by
  have hrole : e.1 = e'.1 := by
    by_contra hne
    exact h.key_ne h' hne hkey
  exact ⟨hrole, (h.key_eq_iff h' hrole).mp hkey⟩

section Packet

variable {site : Site} {l : List (Watch × SessionOp)} {w : Watch} {p : Packet} {leaf : LeafName}
  {samples : Samples} {e : Role × Sample}

theorem undisturbed_of_unseen (h : w.leafOf site p = none) (wanted : LeafName) :
    ¬ Disturbs site wanted (w, .packet p) := by
  rintro ⟨seen, hseen, -⟩
  rw [h] at hseen
  cases hseen

/-- A packet that is passed over does not concern a sample with a value. -/
theorem undisturbed_of_passed (hrouted : Routed site (w.receive site p).source.mqtt)
    (hleaf : w.leafOf site p = some leaf)
    (hselected : selectedSamples site.cfg (w.receive site p).source.mqtt = some samples)
    (he : e ∈ samples) (hne : leaf ≠ e.2.leaf) (hvalue : e.2.value.isSome = true)
    (hconnection : ¬ (leaf.kind = e.2.leaf.kind ∧ leaf.inst = e.2.leaf.inst ∧
      (leaf.path = [] ∨ leaf.path = connectedPath))) :
    ¬ Disturbs site e.2.leaf (w, .packet p) := by
  rintro ⟨seen, hseen, hkind, hinst, hcase⟩
  rw [hleaf] at hseen
  obtain rfl := Option.some.inj hseen
  rcases hcase with hpath | hpath | hpath | hremoves
  · apply hne
    calc leaf = ⟨leaf.kind, leaf.inst, leaf.path⟩ := rfl
      _ = ⟨e.2.leaf.kind, e.2.leaf.inst, e.2.leaf.path⟩ := by rw [hkind, hinst, hpath]
  · exact hconnection ⟨hkind, hinst, Or.inl hpath⟩
  · exact hconnection ⟨hkind, hinst, Or.inr hpath⟩
  · have hnone := value_of_removal hrouted (drawn_of_mem hselected he) hleaf hkind hinst
      hremoves.1 hremoves.2
    rw [hnone] at hvalue
    cases hvalue

/-- The sample that a baseline came from, and the one that is selected under its key now, are read
    from the same leaf, unless this packet brings the first `State` of a pump. -/
theorem origin_leaf {key : Str} {v : SampleValue} {t : ℚ} (horigin : Origin site l w key v t)
    (htyped : ∀ e ∈ w.observer.selected, Typed e)
    (hselected : selectedSamples site.cfg (w.receive site p).source.mqtt = some samples)
    (he : e ∈ samples) (hkey : e.2.key = key) (hvalue : e.2.value.isSome = true) :
    ∃ q, e.1.value q = some v ∧
      (LastMeasured site e.2.leaf q t l ∨ (e.1 = .pump ∨ e.1 = .valve) ∧
        e.2.leaf = e.1.pumpLeaf site.cfg statePath ∧
        w.source.mqtt.cerboDevices.leaf .pump (intStr (e.1.instance site.cfg)) statePath = none ∧
        w.leafOf site p = some e.2.leaf) := by
  obtain ⟨d, hd, hdkey, hdvalue, q, hq, hlast⟩ := horigin.sample
  obtain ⟨hrole, hid⟩ := (htyped d hd).same_of_key ((selected_of_samples hselected).typed e he)
    (hdkey.trans hkey.symm)
  obtain ⟨v₁, hv₁⟩ := Option.isSome_iff_exists.mp hdvalue
  obtain ⟨v₂, hv₂⟩ := Option.isSome_iff_exists.mp hvalue
  refine ⟨q, hrole ▸ hq, ?_⟩
  rcases leaf_kept (drawn_of_mem horigin.selected hd) hv₁ (drawn_of_mem hselected he) hv₂ hrole hid
    with hsame | hfirst
  · exact Or.inl (hsame ▸ hlast)
  · exact Or.inr hfirst

/-- The selection keeps the baselines of what is selected, and no baseline of anything else. -/
theorem selection_get {s : PushService} (hgrounds : Grounds site l w)
    (hlive : w.service.available = true)
    (hselected : selectedSamples site.cfg (w.receive site p).source.mqtt = some samples)
    (hsteady : Steady w.service s) (hsamples : s.processor.samples = w.service.processor.samples)
    (key : Str) :
    (∃ e ∈ samples, e.2.key = key) ∧
        ({ w.receive site p with service := s }.select samples).service.processor.samples.get? key =
          w.service.processor.samples.get? key ∨
      (∀ e ∈ samples, key ≠ e.2.key) ∧
        ({ w.receive site p with service := s }.select samples).service.processor.samples.get? key =
          none := by
  have hall := selected_of_samples hselected
  have hbefore : ∀ d ∈ w.observer.current s.processor.epoch, Typed d := by
    unfold Observer.current
    split
    · exact hgrounds.typed
    · exact fun d hd => absurd hd List.not_mem_nil
  by_cases hkey : ∃ e ∈ samples, e.2.key = key
  · obtain ⟨e, he, rfl⟩ := hkey
    refine Or.inl ⟨⟨e, he, rfl⟩, ?_⟩
    rw [← hsamples]
    exact dropUnselected_get_of_mem hall hbefore s.processor he
  · have hother : ∀ e ∈ samples, key ≠ e.2.key := fun e he h => hkey ⟨e, he, h.symm⟩
    refine Or.inr ⟨hother, ?_⟩
    rcases dropUnselected_get samples (w.observer.current s.processor.epoch) s.processor key with
      ⟨hget, hkept⟩ | ⟨hget, -⟩
    · refine hget.trans ?_
      rw [hsamples, Option.eq_none_iff_forall_ne_some]
      rintro ⟨v, t⟩ hsome
      have horigin := hgrounds.origin hlive key v t hsome
      obtain ⟨d, hd, hdkey, -⟩ := horigin.sample
      have hcurrent : w.observer.current s.processor.epoch = w.observer.selected :=
        if_pos (horigin.epoch.trans hsteady.epoch.symm)
      apply hkept d (hcurrent ▸ hd) hdkey
      intro current hfound hid
      have hmem : (d.1, current) ∈ samples := hall.mem_iff.mpr hfound
      apply hother _ hmem
      rw [← hdkey]
      exact ((hgrounds.typed d hd).key_eq_iff (hall.typed _ hmem) rfl).mpr hid.symm
    · exact hget

/-- A baseline after the loop is this packet's measurement, or was there before and the packet
    does not concern it. -/
theorem baseline_after {s : PushService} (hgrounds : Grounds site l w)
    (hrouted : Routed site (w.receive site p).source.mqtt) (hlive : w.service.available = true)
    (hleaf : w.leafOf site p = some leaf)
    (hselected : selectedSamples site.cfg (w.receive site p).source.mqtt = some samples)
    (hsteady : Steady w.service s) (hsamples : s.processor.samples = w.service.processor.samples)
    {priming : Bool} {final : PushService} (hfinal : final = (observeSamples (mqttSample leaf
      p.reading (p.message.retained || (packetNumber p.message.payload.loaded).isNone) priming)
      samples ({ w.receive site p with service := s }.select samples).service).2)
    (hup : final.available = true) {key : Str} {v : SampleValue} {t : ℚ}
    (hget : final.processor.samples.get? key = some (v, t)) :
    ∃ e ∈ samples, e.2.key = key ∧ e.2.value.isSome = true ∧
      ∃ q, e.1.value q = some v ∧ LastMeasured site e.2.leaf q t (l ++ [(w, .packet p)]) := by
  subst hfinal
  have hlocal := mqttSample_local leaf p.reading
    (p.message.retained || (packetNumber p.message.payload.loaded).isNone) priming
  rcases selection_get hgrounds hlive hselected hsteady hsamples key with
    ⟨⟨e, he, rfl⟩, hkept⟩ | ⟨hother, hgone⟩
  · obtain ⟨u, -, hmet, hrest, hleft⟩ := observeSamples_turn hlocal
      (selected_of_samples hselected).keys_nodup _ he
    have hone := hrest.alive hup
    have hu := ((hlocal.steady e u).alive hone.1).1
    rw [hleft] at hget
    rcases mqttSample_turn leaf p.reading
        (p.message.retained || (packetNumber p.message.payload.loaded).isNone) priming e u with
      ⟨value, prime, hturn, -, heq⟩ | ⟨hne, hvalue, hconnection, heq⟩
    · -- The sample took the packet, so that its baseline is this measurement.
      rw [heq, (u.observeSample_steady e.2 value p.reading.now prime _ e.2.key).2, if_pos hu,
        if_pos rfl] at hget
      obtain ⟨v', rfl, hpair⟩ := Option.map_eq_some_iff.mp hget
      obtain ⟨rfl, rfl⟩ := Prod.mk.inj hpair
      cases hturn with
      | dropped h hvalue => cases hvalue
      | measured h hvalue =>
        split at hvalue
        · cases hvalue
        · next hclear =>
          rw [Bool.not_eq_true, Bool.or_eq_false_iff, Option.isNone_eq_false_iff] at hclear
          obtain ⟨q, hq⟩ := Option.isSome_iff_exists.mp hclear.2
          have hread := sample_of_packet hrouted (drawn_of_mem hselected he) hvalue.symm
            (h ▸ hleaf) hq
          obtain ⟨kind, q', hgrounded⟩ :=
            grounded (drawn_of_mem hselected he) hrouted hvalue.symm
          exact ⟨e, he, rfl, hvalue ▸ rfl, q, hread,
            .now ⟨p, rfl, ⟨hgrounded.arrived.hasPortal, h ▸ hleaf, hclear.1, hq⟩, rfl⟩⟩
    · -- The sample passed the packet over.
      rw [heq, hmet, hkept] at hget
      have horigin := hgrounds.origin hlive e.2.key v t hget
      obtain ⟨q, hq, hlast | ⟨-, -, -, hfirst⟩⟩ :=
        origin_leaf horigin hgrounds.typed hselected he rfl hvalue
      · exact ⟨e, he, rfl, hvalue, q, hq, hlast.later
          (undisturbed_of_passed hrouted hleaf hselected he hne hvalue hconnection)⟩
      · rw [hleaf] at hfirst
        exact absurd (Option.some.inj hfirst) hne
  · rw [observeSamples_get_other hlocal hother, hgone] at hget
    cases hget

/-- A packet keeps the origins. -/
theorem grounds_packet (h : Grounds site l w) (p : Packet) :
    Grounds site (l ++ [(w, .packet p)]) (w.packet site p).2 := by
  have hrouted : Routed site (w.receive site p).source.mqtt := routed_onMessage h.routed
  cases packetStep site w p with
  | idle hours hout =>
    rw [hout]
    refine ⟨hrouted, h.typed, ?_⟩
    intro hlive key v t hget
    exact absurd ⟨hlive, (h.origin hlive key v t hget).connection⟩ hours
  | unseen s hleaf hsteady hsamples hnative hout =>
    rw [hout]
    refine ⟨hrouted, h.typed, ?_⟩
    intro hlive key v t hget
    obtain ⟨hbefore, hconnection⟩ := hsteady.alive hlive
    have horigin := h.origin hbefore key v t (hsamples ▸ hget)
    obtain ⟨e, he, hkey, hvalue, q, hq, hlast⟩ := horigin.sample
    refine ⟨hconnection.trans horigin.connection, horigin.epoch.trans hsteady.epoch.symm, ?_,
      e, he, hkey, hvalue, q, hq, hlast.later (undisturbed_of_unseen hleaf _)⟩
    exact (selectedSamples_congr (devices_of_unobserved hleaf)).trans horigin.selected
  | failed s hdead hnative hout =>
    rw [hout]
    refine ⟨hrouted, h.typed, ?_⟩
    intro hlive
    rw [hdead] at hlive
    cases hlive
  | seen s leaf samples noted hours hleaf hselected hsteady hsamples hnative hout =>
    rw [hout]
    refine ⟨hrouted, (selected_of_samples hselected).typed, ?_⟩
    intro hlive key v t hget
    have hlocal := mqttSample_local leaf p.reading
      (p.message.retained || (packetNumber p.message.payload.loaded).isNone) (w.priming p.reading)
    have hloop := observeSamples_steady hlocal samples
      ({ w.receive site p with service := s }.select samples).service
    have hselect := ({ w.receive site p with service := s }).select_steady samples
    have hall := (hsteady.trans hselect).trans hloop
    refine ⟨(hall.alive hlive).2.trans hours.2, (hselect.trans hloop).epoch.symm, hselected, ?_⟩
    exact baseline_after h hrouted hours.1 hleaf hselected hsteady hsamples rfl hlive hget

end Packet

/-! ## The service's own steps -/

variable (onCurve : List UInt8 → Bool)

theorem retired_samples {s : PushService} {op : ServiceOp} (h : retires s op = true) :
    (serviceStep onCurve s op).processor.samples = Dict.empty := by
  cases op with
  | connect source owner force epoch now =>
    have hconnects : s.connects source owner force = true := h
    show (s.connect source owner force epoch now).processor.samples = _
    unfold PushService.connect
    rw [if_pos hconnects]
    dsimp only
    split
    · exact (native_baselines _ [] now true).1
    · rfl
  | disconnect party epoch now =>
    have hdisconnects : s.disconnects party = true := h
    show (s.disconnect party epoch now).processor.samples = _
    unfold PushService.disconnect
    rw [if_pos hdisconnects]
    rfl
  | register _ _ _ => cases h
  | delete _ => cases h
  | test _ _ _ => cases h
  | native _ _ _ _ => cases h
  | sample _ _ _ _ _ _ => cases h
  | fail => cases h
  | work _ _ _ => cases h
  | begin _ _ => cases h
  | finishSend _ _ _ => cases h
  | resume _ _ _ _ => cases h

/-- A step of its own that does not retire the epoch leaves the baselines and the connection. -/
theorem ownStep_outlook {s : PushService} {op : ServiceOp} (hown : op.isOwn = true)
    (h : ¬ retires s op = true) : (serviceStep onCurve s op).outlook = s.outlook := by
  cases op with
  | connect source owner force epoch now =>
    have hkept : ¬ s.connects source owner force = true := h
    show (s.connect source owner force epoch now).outlook = _
    unfold PushService.connect
    rw [if_neg hkept]
  | disconnect party epoch now =>
    have hkept : ¬ s.disconnects party = true := h
    show (s.disconnect party epoch now).outlook = _
    unfold PushService.disconnect
    rw [if_neg hkept]
  | native _ _ _ _ => cases hown
  | sample _ _ _ _ _ _ => cases hown
  | fail => cases hown
  | register _ _ _ => exact serviceStep_outlook onCurve s rfl
  | delete _ => exact serviceStep_outlook onCurve s rfl
  | test _ _ _ => exact serviceStep_outlook onCurve s rfl
  | work _ _ _ => exact serviceStep_outlook onCurve s rfl
  | begin _ _ => exact serviceStep_outlook onCurve s rfl
  | finishSend _ _ _ => exact serviceStep_outlook onCurve s rfl
  | resume _ _ _ _ => exact serviceStep_outlook onCurve s rfl

theorem grounds_service {site : Site} {l : List (Watch × SessionOp)} {w : Watch}
    (h : Grounds site l w) (op : ServiceOp) (hown : op.isOwn = true) :
    Grounds site (l ++ [(w, .service op hown)])
      { w with service := serviceStep onCurve w.service op } := by
  refine ⟨h.routed, h.typed, ?_⟩
  intro hlive key v t hget
  rw [serviceStep_available onCurve w.service hown] at hlive
  by_cases hretires : retires w.service op = true
  · rw [retired_samples onCurve hretires] at hget
    cases hget
  · have houtlook := ownStep_outlook onCurve hown hretires
    have hprocessor := congrArg Prod.fst houtlook
    have horigin := h.origin hlive key v t
      ((congrArg (fun p => p.samples.get? key) hprocessor).symm.trans hget)
    obtain ⟨e, he, hkey, hvalue, q, hq, hlast⟩ := horigin.sample
    exact ⟨(congrArg Prod.snd houtlook).trans horigin.connection,
      horigin.epoch.trans (congrArg EventProcessor.epoch hprocessor).symm, horigin.selected,
      e, he, hkey, hvalue, q, hq, hlast.later hretires⟩

/-! ## Runs -/

section Run

variable (site : Site) (portal : Str) (board : Board) (camera : Option CameraEvent) (owner : Nat)
  (store : PushStore) (epoch : Str) (now : ℚ)

/-- A new source, a service that has just started, and a new observer. -/
def Watch.fresh : Watch :=
  Watch.started ⟨MqttState.init portal, board, camera⟩ owner store epoch now

theorem baselines_run (es : List SessionOp) :
    Grounds site
      (trace (sessionStep onCurve site) (Watch.fresh portal board camera owner store epoch now) es)
      (replay (sessionStep onCurve site)
        (Watch.fresh portal board camera owner store epoch now) es) := by
  refine replay_induction (sessionStep onCurve site)
    (s := Watch.fresh portal board camera owner store epoch now)
    (I := fun es w => Grounds site (trace (sessionStep onCurve site)
      (Watch.fresh portal board camera owner store epoch now) es) w) ?_ ?_ es
  · refine ⟨routed_init site portal, fun e he => absurd he List.not_mem_nil, ?_⟩
    intro _ key v t hget
    cases hget
  · intro es op hgrounds
    rw [trace_concat]
    cases op with
    | packet p => exact grounds_packet hgrounds p
    | service op hown => exact grounds_service onCurve hgrounds op hown

end Run

/-- The first `State` of a pump after a baseline of its `Status`: it is a fresh measurement with
    another value than the baseline. -/
structure FirstState (site : Site) (w : Watch) (p : Packet) (role : Role) : Prop where
  water : role = .pump ∨ role = .valve
  topic : observedLeaf w.source.mqtt.portalId p.message.topic =
    some (role.pumpLeaf site.cfg statePath)
  first : w.source.mqtt.cerboDevices.leaf .pump (intStr (role.instance site.cfg)) statePath = none
  live : p.message.retained = false
  settled : w.priming p.reading = false
  differs : ∃ q v before since, packetNumber p.message.payload.loaded = some q ∧
    role.value q = some v ∧
    w.service.processor.samples.get? (sampleKey (Str.lit "water")
      (Str.lit role.label ++ Str.lit ":" ++ intStr (role.instance site.cfg))) =
        some (before, since) ∧
    baselineFresh p.reading.now since = true ∧ v ≠ before

/-- The two packets that a transition comes from. -/
structure Transits (site : Site) (l : List (Watch × SessionOp)) (w : Watch) (p : Packet)
    (event : EventPayload) (role : Role) (x : Sample) (before since q : ℚ) : Prop where
  kind : event.kind = role.kind
  selected : ∃ samples, selectedSamples site.cfg (w.receive site p).source.mqtt = some samples ∧
    (role, x) ∈ samples
  measured : Measures site x.leaf q w p
  settled : 10 ≤ p.reading.now - w.service.processor.startedAt
  earlier : LastMeasured site x.leaf before since l
  fresh : 0 ≤ p.reading.now - since ∧ p.reading.now - since ≤ 30
  crosses : role.crosses before q

theorem firstState_of_event {site : Site} {l : List (Watch × SessionOp)} {w : Watch} {p : Packet}
    (h : Grounds site l w) {samples : Samples}
    (hselected : selectedSamples site.cfg (w.receive site p).source.mqtt = some samples)
    {e : Role × Sample} (he : e ∈ samples) (hwater : e.1 = .pump ∨ e.1 = .valve)
    (hstate : e.2.leaf = e.1.pumpLeaf site.cfg statePath)
    (hfirst : w.source.mqtt.cerboDevices.leaf .pump (intStr (e.1.instance site.cfg)) statePath =
      none)
    {q : ℚ} (hmeasured : Measures site e.2.leaf q w p) {v before : SampleValue}
    (hread : e.1.value q = some v) (hne : v.rat ≠ before.rat) {since : ℚ}
    (hbaseline : w.service.processor.samples.get? e.2.key = some (before, since))
    (horigin : Origin site l w e.2.key before since)
    (hfresh : baselineFresh p.reading.now since = true) (hsettled : w.priming p.reading = false) :
    FirstState site w p e.1 := by
  have hportal : (w.receive site p).source.mqtt.portalId = w.source.mqtt.portalId := by
    obtain ⟨d, hd, -, hvalue, -⟩ := horigin.sample
    obtain ⟨v₁, hv₁⟩ := Option.isSome_iff_exists.mp hvalue
    obtain ⟨kind, q₁, hgrounded⟩ := grounded (drawn_of_mem horigin.selected hd) h.routed hv₁
    exact onMessage_portal site p.clock p.message hgrounded.arrived.hasPortal
  refine ⟨hwater, ?_, hfirst, hmeasured.live, hsettled, q, v, before, since, hmeasured.number,
    hread, ?_, hfresh, fun hsame => hne (congrArg SampleValue.rat hsame)⟩
  · rw [← hportal, ← hstate]
    exact hmeasured.leaf
  · rw [← pump_key (drawn_of_mem hselected he) hwater]
    exact hbaseline

/-- What is known of an event of a sample: its two packets, or that its leaf is new. -/
theorem transits_or_first {site : Site} {l : List (Watch × SessionOp)} {w : Watch} {p : Packet}
    (h : Grounds site l w) {event : EventPayload} (hevent : event ∈ (w.packet site p).1)
    (hkind : event.kind ≠ Str.lit "native") :
    (∃ leaf kind, w.leafOf site p = some leaf ∧ leaf.kind = kind.name ∧
        Arrived site (w.receive site p).source.mqtt.portalId kind leaf.inst leaf.path) ∧
      ((∃ role x before since q, Transits site l w p event role x before since q) ∨
        ∃ role, FirstState site w p role) := by
  have hrouted : Routed site (w.receive site p).source.mqtt := routed_onMessage h.routed
  cases packetStep site w p with
  | idle hours hout =>
    rw [hout] at hevent
    cases hevent
  | unseen s hleaf hsteady hsamples hnative hout => exact absurd (hnative event hevent) hkind
  | failed s hdead hnative hout => exact absurd (hnative event hevent) hkind
  | seen s leaf samples noted hours hleaf hselected hsteady hsamples hnative hout =>
    rw [hout] at hevent
    rcases List.mem_append.mp hevent with hevent | hevent
    · exact absurd (hnative event hevent) hkind
    have hlocal := mqttSample_local leaf p.reading
      (p.message.retained || (packetNumber p.message.payload.loaded).isNone) (w.priming p.reading)
    have hall := selected_of_samples hselected
    obtain ⟨e, he, u, -, hmet, hevent⟩ := observeSamples_events hlocal hall.keys_nodup hevent
    rcases mqttSample_turn leaf p.reading
        (p.message.retained || (packetNumber p.message.payload.loaded).isNone)
        (w.priming p.reading) e u with
      ⟨value, prime, hturn, hprime, heq⟩ | ⟨-, -, -, heq⟩
    swap
    · rw [heq] at hevent
      cases hevent
    rw [heq] at hevent
    obtain ⟨v, before, since, rfl, hcrossing⟩ := observeSample_event hevent
    cases hturn with
    | dropped _ hvalue => cases hvalue
    | measured hsame hvalue =>
      split at hvalue
      · cases hvalue
      next hclear =>
      rw [Bool.not_eq_true, Bool.or_eq_false_iff, Option.isNone_eq_false_iff] at hclear
      obtain ⟨q, hq⟩ := Option.isSome_iff_exists.mp hclear.2
      subst hsame
      have hread := sample_of_packet hrouted (drawn_of_mem hselected he) hvalue.symm hleaf hq
      obtain ⟨kind, q', hgrounded⟩ := grounded (drawn_of_mem hselected he) hrouted hvalue.symm
      have hmeasured : Measures site e.2.leaf q w p :=
        ⟨hgrounded.arrived.hasPortal, hleaf, hclear.1, hq⟩
      have hsettled : w.priming p.reading = false := (hprime rfl).symm.trans hcrossing.live
      refine ⟨⟨e.2.leaf, kind, hleaf, hgrounded.stores.named, hgrounded.arrived⟩, ?_⟩
      -- The baseline that the sample met is the one there was before the packet.
      have hbaseline : w.service.processor.samples.get? e.2.key = some (before, since) := by
        rcases selection_get h hours.1 hselected hsteady hsamples e.2.key with ⟨-, hget⟩ | ⟨hno, -⟩
        · exact (hmet.trans hget).symm.trans hcrossing.baseline
        · exact absurd rfl (hno e he)
      have horigin := h.origin hours.1 e.2.key before since hbaseline
      obtain ⟨text, htext⟩ := Option.isSome_iff_exists.mp hcrossing.message
      rw [(hall.typed e he).kind] at htext
      obtain ⟨q₀, hq₀, hlast | ⟨hwater, hstate, hfirst, -⟩⟩ :=
        origin_leaf horigin h.typed hselected he rfl (hvalue ▸ rfl)
      · refine Or.inl ⟨e.1, e.2, q₀, since, q, hcrossing.kind.trans (hall.typed e he).kind,
          ⟨samples, hselected, he⟩, hmeasured, ?_, hlast, ?_, crosses_of_message hq₀ hread htext⟩
        · exact not_lt.mp (of_decide_eq_false hsettled)
        · exact of_decide_eq_true hcrossing.fresh
      · exact Or.inr ⟨e.1, firstState_of_event h hselected he hwater hstate hfirst hmeasured hread
          (message_differs htext) hbaseline horigin hcrossing.fresh hsettled⟩

/-! ## A leaf that was measured is stored -/

/-- What was measured last is still in the store. -/
def Retains (site : Site) (l : List (Watch × SessionOp)) (w : Watch) : Prop :=
  ∀ leaf q t, LastMeasured site leaf q t l → w.source.mqtt.portalId ≠ [] ∧
    ∀ kind, leaf.kind = kind.name →
      Arrived site w.source.mqtt.portalId kind leaf.inst leaf.path →
      (w.source.mqtt.cerboDevices.leaf kind leaf.inst leaf.path).isSome = true

theorem packet_source (site : Site) (w : Watch) (p : Packet) :
    (w.packet site p).2.source = (w.receive site p).source := by
  cases packetStep site w p with
  | idle hours hout => rw [hout]
  | unseen s hleaf hsteady hsamples hnative hout => rw [hout]
  | failed s hdead hnative hout => rw [hout]
  | seen s leaf samples noted hours hleaf hselected hsteady hsamples hnative hout => rw [hout]

section Stored

variable {site : Site} {l : List (Watch × SessionOp)} {w : Watch}

/-- A measurement is stored. -/
theorem stored_of_measures {p : Packet} {leaf : LeafName} {q : ℚ} {kind : Kind}
    (h : Measures site leaf q w p) (hkind : leaf.kind = kind.name)
    (harrived : Arrived site (w.receive site p).source.mqtt.portalId kind leaf.inst leaf.path) :
    ((w.receive site p).source.mqtt.cerboDevices.leaf kind leaf.inst leaf.path).isSome = true := by
  have haddress := address_of_observedLeaf h.known h.leaf hkind harrived.hasInst
  have hdevice : isDeviceTopic site p.message.topic = true := by
    rw [topic_of_address h.known haddress harrived.hasPath]
    exact harrived.topic
  obtain ⟨value, hloaded, -⟩ := leafValue?_of_number harrived.hasPath harrived.known h.number
  have hknown : (w.source.onMessage site p.clock p.message).source.mqtt.portalId ≠ [] := h.known
  have hstored := (onMessage_address hdevice hknown haddress).1 value hloaded
  show ((w.source.onMessage site p.clock p.message).source.mqtt.cerboDevices.leaf kind leaf.inst
    leaf.path).isSome = true
  rw [hstored, Devices.leaf_store, if_pos ⟨rfl, rfl, rfl⟩]
  rfl

/-- A packet that does not concern a leaf leaves it in the store. -/
theorem stored_of_undisturbed {p : Packet} {leaf : LeafName} {kind : Kind}
    (h : ¬ Disturbs site leaf (w, .packet p)) (hkind : leaf.kind = kind.name)
    (hbefore : (w.source.mqtt.cerboDevices.leaf kind leaf.inst leaf.path).isSome = true) :
    ((w.receive site p).source.mqtt.cerboDevices.leaf kind leaf.inst leaf.path).isSome = true := by
  show ((w.source.onMessage site p.clock p.message).source.mqtt.cerboDevices.leaf kind leaf.inst
    leaf.path).isSome = true
  cases Server.storeStep site p.clock p.message w.source with
  | same hsame =>
    rw [hsame]
    exact hbefore
  | stored k i path value hdevice hknown haddress hvalue hstore =>
    rw [hstore, Devices.leaf_store]
    split
    · rfl
    · exact hbefore
  | removed k i path hdevice hknown haddress hpayload hremove =>
    rw [Devices.leaf_remove hremove]
    split
    · next hsame =>
      refine absurd ⟨⟨k.name, i, path⟩, observedLeaf_of_address hknown haddress, ?_, hsame.2.symm,
        Or.inr (Or.inr (Or.inr ⟨hdevice, hpayload⟩))⟩ h
      rw [hkind, hsame.1]
    · exact hbefore

theorem retains_packet (h : Retains site l w) (p : Packet) :
    Retains site (l ++ [(w, .packet p)]) (w.packet site p).2 := by
  intro leaf q t hlast
  rw [packet_source]
  rcases since_concat.mp hlast with ⟨p', hp', hmeasures, -⟩ | ⟨hquiet, hearlier⟩
  · obtain rfl : p = p' := SessionOp.packet.inj hp'
    exact ⟨hmeasures.known, fun kind hkind harrived => stored_of_measures hmeasures hkind harrived⟩
  · obtain ⟨hknown, hstored⟩ := h leaf q t hearlier
    have hportal : (w.receive site p).source.mqtt.portalId = w.source.mqtt.portalId :=
      onMessage_portal site p.clock p.message hknown
    rw [hportal]
    exact ⟨hknown, fun kind hkind harrived =>
      stored_of_undisturbed hquiet hkind (hstored kind hkind harrived)⟩

theorem retains_service (h : Retains site l w) (op : ServiceOp) (hown : op.isOwn = true) :
    Retains site (l ++ [(w, .service op hown)])
      { w with service := serviceStep onCurve w.service op } := by
  intro leaf q t hlast
  rcases since_concat.mp hlast with ⟨p', hp', -⟩ | ⟨-, hearlier⟩
  · cases hp'
  · exact h leaf q t hearlier

end Stored

section Run

variable (site : Site) (portal : Str) (board : Board) (camera : Option CameraEvent) (owner : Nat)
  (store : PushStore) (epoch : Str) (now : ℚ)

theorem retains_run (es : List SessionOp) :
    Retains site
      (trace (sessionStep onCurve site) (Watch.fresh portal board camera owner store epoch now) es)
      (replay (sessionStep onCurve site)
        (Watch.fresh portal board camera owner store epoch now) es) := by
  refine replay_induction (sessionStep onCurve site)
    (s := Watch.fresh portal board camera owner store epoch now)
    (I := fun es w => Retains site (trace (sessionStep onCurve site)
      (Watch.fresh portal board camera owner store epoch now) es) w) ?_ ?_ es
  · exact fun leaf q t hlast => absurd hlast not_since_nil
  · intro es op hretains
    rw [trace_concat]
    cases op with
    | packet p => exact retains_packet hretains p
    | service op hown => exact retains_service onCurve hretains op hown

/-- **Transitions.** An event of a sample, in any run, comes from two packets on the leaf of the
    sample, at most thirty seconds apart and with nothing on the leaf or about the device in
    between, exactly when it does not come with the first `State` of a pump. -/
theorem transition_observed_iff (es : List SessionOp) (p : Packet) (event : EventPayload)
    (hevent : event ∈ ((replay (sessionStep onCurve site)
      (Watch.fresh portal board camera owner store epoch now) es).packet site p).1)
    (hkind : event.kind ≠ Str.lit "native") :
    (∃ role x before since q, Transits site
        (trace (sessionStep onCurve site)
          (Watch.fresh portal board camera owner store epoch now) es)
        (replay (sessionStep onCurve site)
          (Watch.fresh portal board camera owner store epoch now) es)
        p event role x before since q) ↔
      ∀ role, ¬ FirstState site (replay (sessionStep onCurve site)
        (Watch.fresh portal board camera owner store epoch now) es) p role := by
  have hgrounds := baselines_run onCurve site portal board camera owner store epoch now es
  obtain ⟨⟨leaf, kind, hleaf, hname, harrived⟩, hcases⟩ := transits_or_first hgrounds hevent hkind
  constructor
  · rintro ⟨role, x, before, since, q, htransits⟩ role' hfirst
    obtain ⟨hknown, hstored⟩ := retains_run onCurve site portal board camera owner store epoch now
      es x.leaf before since htransits.earlier
    have hportal := onMessage_portal site p.clock p.message hknown
    -- The leaf of the packet is the `State` that is not stored yet.
    obtain rfl : leaf = x.leaf := Option.some.inj (hleaf.symm.trans htransits.measured.leaf)
    have hstate : x.leaf = role'.pumpLeaf site.cfg statePath := by
      have htopic := hfirst.topic
      rw [← hportal] at htopic
      exact Option.some.inj (hleaf.symm.trans htopic)
    have hpump : kind = Kind.pump :=
      Kind.name_injective (hname.symm.trans (congrArg LeafName.kind hstate))
    have hsome := hstored kind hname (hportal ▸ harrived)
    rw [hpump, hstate] at hsome
    exact absurd hfirst.first (Option.isSome_iff_ne_none.mp hsome)
  · intro hkept
    rcases hcases with htransits | ⟨role, hfirst⟩
    · exact htransits
    · exact absurd hfirst (hkept role)

end Run

/-- A packet with a number. -/
def measurement (topic : String) (value : Int) (now : ℚ) : Packet where
  clock := ⟨now, 0⟩
  message :=
    let data := Payload.json (.dict [(Str.lit "value", .int value)])
    let text := Str.lit "\x7b\"value\": " ++ intStr value ++ Str.lit "\x7d"
    { topic := Str.lit topic
      payload :=
        { loaded := data, decoded := data, body := .object none, text := some text, replaced := text }
      retained := false }
  reading := ⟨now, fun _ => now, fun _ => now⟩

/-- A session that starts and receives one measurement. -/
def measuring (topic : String) : List SessionOp :=
  [.service (.connect PushService.mqttSource 0 true (Str.lit "b") 1799999970) rfl,
    .packet (measurement topic 0 1799999995)]

/-- The watch after it. -/
def measuredOnce (topic : String) : Watch :=
  replay (sessionStep (fun _ => false) plainSite)
    (Watch.fresh (Str.lit "p") Board.init none 0 PushStore.empty (Str.lit "a") 1799999960)
    (measuring topic)

/-- A charger that starts within five seconds. -/
theorem transition_observed_charging :
    ∃ event ∈ ((measuredOnce "N/p/evcharger/0/Ac/Power").packet plainSite
        (measurement "N/p/evcharger/0/Ac/Power" 20 1800000000)).1,
      ∃ role x before since q, Transits plainSite
        (trace (sessionStep (fun _ => false) plainSite)
          (Watch.fresh (Str.lit "p") Board.init none 0 PushStore.empty (Str.lit "a") 1799999960)
          (measuring "N/p/evcharger/0/Ac/Power"))
        (measuredOnce "N/p/evcharger/0/Ac/Power")
        (measurement "N/p/evcharger/0/Ac/Power" 20 1800000000) event role x before since q := by
  have hkinds : (((measuredOnce "N/p/evcharger/0/Ac/Power").packet plainSite
      (measurement "N/p/evcharger/0/Ac/Power" 20 1800000000)).1.map EventPayload.kind) =
        [Str.lit "ev"] := by
    decide +kernel
  obtain ⟨event, hevent, hkind⟩ := List.mem_map.mp (hkinds ▸ List.mem_singleton_self (Str.lit "ev"))
  have hother : Str.lit "ev" ≠ Str.lit "native" := by decide
  refine ⟨event, hevent, (transition_observed_iff (fun _ => false) plainSite (Str.lit "p")
    Board.init none 0 PushStore.empty (Str.lit "a") 1799999960
    (measuring "N/p/evcharger/0/Ac/Power") _ event hevent (hkind ▸ hother)).mpr ?_⟩
  intro role hfirst
  -- The topic is not one of a pump.
  have hpath : (observedLeaf (replay (sessionStep (fun _ => false) plainSite)
      (Watch.fresh (Str.lit "p") Board.init none 0 PushStore.empty (Str.lit "a") 1799999960)
      (measuring "N/p/evcharger/0/Ac/Power")).source.mqtt.portalId
      (measurement "N/p/evcharger/0/Ac/Power" 20 1800000000).message.topic).map LeafName.path ≠
        some statePath := by
    decide +kernel
  rw [hfirst.topic] at hpath
  exact hpath rfl

end InverterDashboard.Push
