import InverterDashboard.Push.Fitting
import InverterDashboard.Push.Selection

/-
  Which contents disable Web Push.

  The observer takes an exception in an observation for a fault of the storage and disables the
  service. Contents raise in two places: a text with a lone surrogate has no bytes, so that no
  payload can be built from it (`payload_fits` is about the other texts), and services whose ids
  cannot be ordered cannot be listed (`selectedSamples_isSome_iff`).

  Proved (`stays_available`): a run that observes neither leaves the service available, with either
  transport, any source and any steps of the service in between.
-/

namespace InverterDashboard.Push

open Python Json Cerbo Server Notifications Temporal

/-! ## Payloads -/

theorem natAbs_trunc_lt {q : ℚ} {m : Nat} (h : |q| < m) : (trunc q).natAbs < m := by
  rw [Rat.abs_def, Rat.divInt_eq_div, div_lt_iff₀ (by exact_mod_cast q.pos)] at h
  have hnum : q.num.natAbs < m * q.den := by exact_mod_cast h
  unfold trunc
  rw [Int.natAbs_tdiv, Int.natAbs_natCast]
  exact (Nat.div_lt_iff_lt_mul q.pos).mpr hnum

theorem natAbs_trunc_finite {q : ℚ} (h : |q| < 2 ^ 1024) : (trunc q).natAbs < 2 ^ 1024 := by
  apply natAbs_trunc_lt
  rw [Nat.cast_pow, Nat.cast_ofNat]
  exact h

/-- The time of a notification is the whole part of a float. -/
theorem natAbs_timestampMs {v : Value} {ms : Int} (h : timestampMs v = some ms) :
    ms.natAbs < 2 ^ 1024 := by
  unfold timestampMs at h
  split at h
  · split at h
    · cases h
    · split at h
      · split at h
        · next hmul =>
          split at h
          · cases h
          · obtain rfl := Option.some.inj h
            exact natAbs_trunc_finite (Float64.abs_lt_of_mul hmul)
        · cases h
      · cases h
  · cases h

/-- The clock shows a time of which a float holds the milliseconds. -/
def Readable (now : ℚ) : Prop := |now * 1000| < 2 ^ 1024

theorem Readable.natAbs {now : ℚ} (h : Readable now) : (nowMs now).natAbs < 2 ^ 1024 := by
  unfold nowMs
  split
  · next hmul => exact natAbs_trunc_finite (Float64.abs_lt_of_mul hmul)
  · exact natAbs_trunc_finite h

theorem payload_fits {kind source identifier title body : Str} {sourceMs : Int} {now : ℚ}
    (hpair : (kind, source) ∈ eventSources) (hid : Scalar identifier)
    (hsourceMs : sourceMs.natAbs < 2 ^ 1024) (hnow : Readable now)
    (htitle : Scalar (title.take 120)) (hbody : Scalar (body.take 1000)) :
    ∃ p, eventPayload kind source identifier sourceMs now title body = some p ∧ p.Fits := by
  obtain ⟨-, -, -, hkind, hsource⟩ := mem_sourcesOf hpair
  obtain ⟨key, hkey, hlength, hscalar⟩ := eventKey_isSome hkind hsource hid sourceMs
  obtain ⟨p, hp⟩ := eventPayload_isSome hpair hkey hlength hscalar hsourceMs hnow.natAbs htitle
    hbody
  obtain ⟨_, -, hfit⟩ := Option.bind_eq_some_iff.mp hp
  exact ⟨p, hp, fitBody_size hfit⟩

/-! ## Notifications -/

/-- The parts of a notification that reach a payload have bytes. -/
structure Encodable (n : Notification) : Prop where
  identifier : Scalar n.identifier
  title : Scalar (n.title.take 120)
  body : Scalar (n.body.take 1000)

/-- A notification without a usable time makes no payload; another one can be encoded. -/
def Notification.Harmless (n : Notification) : Prop :=
  (timestampMs n.ts).isSome = true → Encodable n

theorem sourceName_mem (n : Notification) : (Str.lit "native", n.sourceName) ∈ eventSources := by
  have hvictron : (Str.lit "native", Str.lit "victron") ∈ eventSources := by decide
  have hsystem : (Str.lit "native", Str.lit "system") ∈ eventSources := by decide
  unfold Notification.sourceName
  split
  · split
    · next h => exact h ▸ hvictron
    · exact hsystem
  · exact hsystem

theorem nativeEvent_fits {n : Notification} (h : n.Harmless) (p : EventProcessor) {now : ℚ}
    (hnow : Readable now) (prime : Bool) :
    ∃ event, (nativeEvent p n now prime).2 = some event ∧ ∀ e ∈ event, e.Fits := by
  have hquiet : ∀ e ∈ (none : Option EventPayload), e.Fits := fun e he => by cases he
  unfold nativeEvent
  cases htime : timestampMs n.ts with
  | none =>
    dsimp only
    split
    · exact ⟨none, rfl, hquiet⟩
    · exact ⟨none, rfl, hquiet⟩
  | some sourceMs =>
    have hencodable := h (htime ▸ rfl)
    obtain ⟨event, hevent, hfits⟩ := payload_fits (sourceName_mem n) hencodable.identifier
      (natAbs_timestampMs htime) hnow hencodable.title hencodable.body
    have hpayload : n.payload sourceMs now = some event := hevent
    dsimp only
    rw [hpayload]
    dsimp only
    split
    · exact ⟨none, rfl, hquiet⟩
    · split
      · exact ⟨none, rfl, hquiet⟩
      · split
        · exact ⟨none, rfl, hquiet⟩
        · refine ⟨some event, rfl, ?_⟩
          rintro e ⟨⟩
          exact hfits

theorem nativeEvents_fits {now : ℚ} (hnow : Readable now) (prime : Bool)
    {ns : List Notification} (h : ∀ n ∈ ns, n.Harmless) (p : EventProcessor) :
    ∃ events, (nativeEvents now prime ns p).2 = some events ∧ ∀ e ∈ events, e.Fits := by
  induction ns generalizing p with
  | nil => exact ⟨[], rfl, fun e he => absurd he List.not_mem_nil⟩
  | cons n ns ih =>
    obtain ⟨hn, hns⟩ := List.forall_mem_cons.mp h
    obtain ⟨event, hevent, hfits⟩ := nativeEvent_fits hn p hnow prime
    unfold nativeEvents
    cases hone : nativeEvent p n now prime with
    | mk q out =>
      rw [hone] at hevent
      dsimp only at hevent
      subst hevent
      obtain ⟨events, hevents, hall⟩ := ih hns q
      dsimp only
      rw [hevents]
      refine ⟨event.toList ++ events, rfl, ?_⟩
      intro e he
      rcases List.mem_append.mp he with he | he
      · exact hfits e (Option.mem_toList.mp he)
      · exact hall e he

theorem native_fits {now : ℚ} (hnow : Readable now) (prime : Bool) {ns : List Notification}
    (h : ∀ n ∈ ns.take nativeLimit, n.Harmless) (p : EventProcessor) :
    ∃ events, (native p ns now prime).2 = some events ∧ ∀ e ∈ events, e.Fits := by
  obtain ⟨events, hevents, hfits⟩ := nativeEvents_fits hnow (p.primes prime) h (nativeStart p ns)
  unfold native
  dsimp only
  split
  · next q hloop =>
    have hloop' : nativeEvents now (p.primes prime) (ns.take nativeLimit) (nativeStart p ns) =
        (q, none) := hloop
    rw [hloop'] at hevents
    cases hevents
  · next q found hloop =>
    have hloop' : nativeEvents now (p.primes prime) (ns.take nativeLimit) (nativeStart p ns) =
        (q, some found) := hloop
    rw [hloop'] at hevents
    obtain rfl := Option.some.inj hevents
    exact ⟨found, rfl, hfits⟩

/-! ## Queueing -/

/-- Subscriptions in the table satisfy the foreign key. -/
theorem reserve_ok {s : PushStore} {targets : List Str} (h : ∀ t ∈ targets, (s.get t).isSome = true)
    (eventId : Str) (payload : EventPayload) (now : ℚ) (epoch : Str) :
    ∃ o, s.reserve eventId payload targets now epoch = .ok o := by
  have hsame : ((s.expire now).remember eventId now).2.subscriptions = s.subscriptions := rfl
  unfold PushStore.reserve
  cases hnew : (s.expire now).remember eventId now with
  | mk fresh t =>
    rw [hnew] at hsame
    cases fresh with
    | false => exact ⟨_, rfl⟩
    | true =>
      dsimp only
      rw [if_pos]
      · exact ⟨_, rfl⟩
      · rw [List.all_eq_true]
        intro target htarget
        rw [PushStore.get_congr hsame]
        exact h target (List.take_subset _ _ htarget)

namespace PushService

theorem queue_of_fits {event : EventPayload} (h : event.Fits) (s : PushService) (now : ℚ) :
    ∃ o, s.queue event now = .ok o := by
  have htargets : ∀ t ∈ s.targets event, (s.store.get t).isSome = true := by
    intro t ht
    obtain ⟨row, hrow, rfl⟩ := List.mem_map.mp ((List.mem_insertionSort _).mp ht)
    exact List.find?_isSome.mpr ⟨row, (List.mem_filter.mp hrow).1, decide_eq_true rfl⟩
  unfold queue
  split
  · obtain ⟨o, ho⟩ := reserve_ok htargets event.eventKey event now s.processor.epoch
    rw [h.enqueue, ho]
    exact ⟨_, rfl⟩
  · exact ⟨_, rfl⟩

theorem queueAll_available {events : List EventPayload} (h : ∀ e ∈ events, e.Fits)
    (clock : Nat → ℚ) {s : PushService} (hs : s.available = true) :
    (queueAll events clock s).2.available = true := by
  induction events generalizing clock s with
  | nil => exact hs
  | cons event events ih =>
    obtain ⟨hevent, hevents⟩ := List.forall_mem_cons.mp h
    obtain ⟨o, ho⟩ := queue_of_fits hevent s (clock 0)
    have hsame := (queue_control ho).available.trans hs
    unfold queueAll
    rw [ho]
    exact ih hevents _ hsame

theorem queueDetected_available {detected : EventProcessor × Option (List EventPayload)}
    {events : List EventPayload} (hdetected : detected.2 = some events)
    (hfits : ∀ e ∈ events, e.Fits) (clock : Nat → ℚ) {s : PushService}
    (hs : s.available = true) : (s.queueDetected detected clock).2.available = true := by
  unfold queueDetected
  dsimp only
  rw [hdetected]
  exact queueAll_available hfits clock hs

theorem observeNative_available {ns : List Notification}
    (h : ∀ n ∈ ns.take nativeLimit, n.Harmless) {now : ℚ} (hnow : Readable now) (prime : Bool)
    (clock : Nat → ℚ) {s : PushService} (hs : s.available = true) :
    (s.observeNative ns now prime clock).2.available = true := by
  obtain ⟨events, hevents, hfits⟩ := native_fits hnow prime h s.processor
  unfold observeNative
  rw [if_pos hs]
  exact queueDetected_available hevents hfits clock hs

end PushService

/-! ## Samples -/

theorem scalar_zeros (n : Nat) : Scalar (Float64.zeros n) := by
  intro c hc
  rw [List.eq_of_mem_replicate hc]
  decide

theorem scalar_digitText (d : Nat) : Scalar (Float64.digitText d) := by
  refine (scalar_natStr d).of_subset fun c hc => ?_
  unfold Float64.digitText at hc
  rw [List.mem_reverse] at hc
  exact List.mem_reverse.mp ((List.dropWhile_sublist _).subset hc)

theorem scalar_positional {ds : Str} (h : Scalar ds) (k : Int) :
    Scalar (Float64.positional ds k).1 ∧ Scalar (Float64.positional ds k).2 := by
  unfold Float64.positional
  split
  · exact ⟨scalar_append.mpr ⟨h.of_subset (List.take_subset _ _), scalar_zeros _⟩,
      h.of_subset (List.drop_subset _ _)⟩
  · exact ⟨scalar_lit _, scalar_append.mpr ⟨scalar_zeros _, h⟩⟩

theorem scalar_scientific {ds : Str} (h : Scalar ds) (k : Int) :
    Scalar (Float64.scientific ds k) := by
  have hfraction : Scalar (if ds.length ≤ 1 then [] else Str.lit "." ++ ds.drop 1) := by
    split
    · exact scalar_lit ""
    · exact scalar_append.mpr ⟨scalar_lit _, h.of_subset (List.drop_subset _ _)⟩
  unfold Float64.scientific
  dsimp only
  exact scalar_append.mpr ⟨scalar_append.mpr ⟨scalar_append.mpr ⟨scalar_append.mpr
    ⟨h.of_subset (List.take_subset _ _), hfraction⟩, scalar_lit _⟩, scalar_zeros _⟩,
    scalar_natStr _⟩

theorem scalar_formatG (x : Float64) : Scalar (Float64.formatG x) := by
  have hpos : ∀ q, Scalar (Float64.formatPos q) := by
    intro q
    unfold Float64.formatPos
    obtain ⟨d, k⟩ := Float64.significand 6 q
    dsimp only
    split
    · have hparts := scalar_positional (scalar_digitText d) k
      cases hposition : Float64.positional (Float64.digitText d) k with
      | mk whole frac =>
        rw [hposition] at hparts
        dsimp only
        split
        · exact hparts.1
        · exact scalar_append.mpr ⟨scalar_append.mpr ⟨hparts.1, scalar_lit _⟩, hparts.2⟩
    · exact scalar_scientific (scalar_digitText d) k
  cases x with
  | nan => exact scalar_lit _
  | inf s => exact scalar_lit _
  | fin q =>
    unfold Float64.formatG
    dsimp only
    split
    · exact scalar_lit _
    · split
      · exact scalar_append.mpr ⟨scalar_lit _, hpos _⟩
      · exact hpos _

/-- The texts of a transition are the program's own. -/
theorem sampleMessage_scalar {kind identifier : Str} {before value : SampleValue} {text : Str × Str}
    (h : sampleMessage kind identifier before value = some text) :
    (kind, Str.lit "victron") ∈ eventSources ∧ Scalar text.1 ∧ Scalar text.2 := by
  have hlow : (Str.lit "lowBattery", Str.lit "victron") ∈ eventSources := by decide
  have hev : (Str.lit "ev", Str.lit "victron") ∈ eventSources := by decide
  have hwater : (Str.lit "water", Str.lit "victron") ∈ eventSources := by decide
  unfold sampleMessage at h
  split at h
  · next hkind =>
    split at h
    · obtain rfl := Option.some.inj h
      exact ⟨hkind ▸ hlow, scalar_lit _, scalar_append.mpr ⟨scalar_append.mpr
        ⟨scalar_lit _, scalar_formatG _⟩, scalar_lit _⟩⟩
    · cases h
  · split at h
    · cases h
    · split at h
      · next hkind =>
        obtain rfl := Option.some.inj h
        exact ⟨hkind ▸ hev, scalar_lit _, scalar_lit _⟩
      · split at h
        · next hkind =>
          obtain rfl := Option.some.inj h
          refine ⟨hkind ▸ hwater, scalar_append.mpr ⟨?_, scalar_lit _⟩, scalar_lit _⟩
          split
          · exact scalar_lit _
          · exact scalar_lit _
        · cases h

/-- A sample that differs from a fresh baseline in a way that is reported. -/
def Transition (p : EventProcessor) (now : ℚ) (x : Sample) : Prop :=
  ∃ before since value, p.samples.get? x.key = some (before, since) ∧ x.value = some value ∧
    baselineFresh now since = true ∧ (sampleMessage x.kind x.identifier before value).isSome = true

theorem sample_fits {x : Sample} {value : Option SampleValue} {now : ℚ} {prime : Bool}
    {p : EventProcessor} (hnow : Readable now) (hvalue : value = none ∨ value = x.value)
    (h : prime = false → value.isSome = true → Transition p now x → Scalar x.identifier) :
    ∃ event, (sample p x.kind x.identifier value now prime).2 = some event ∧
      ∀ e ∈ event, e.Fits := by
  have hquiet : ∀ e ∈ (none : Option EventPayload), e.Fits := fun e he => by cases he
  unfold sample
  dsimp only
  cases value with
  | none => exact ⟨none, rfl, hquiet⟩
  | some v =>
    have hx : x.value = some v := (hvalue.resolve_left (Option.some_ne_none v)).symm
    dsimp only
    split
    · exact ⟨none, rfl, hquiet⟩
    · next before since hbefore =>
      split
      · exact ⟨none, rfl, hquiet⟩
      · next hfresh =>
        rw [Bool.or_eq_true, not_or, Bool.not_eq_true, Bool.not_eq_true,
          Bool.not_eq_false'] at hfresh
        split
        · exact ⟨none, rfl, hquiet⟩
        · next title body hmessage =>
          obtain ⟨hpair, htitle, hbody⟩ := sampleMessage_scalar hmessage
          have hid := h hfresh.1 rfl
            ⟨before, since, v, hbefore, hx, hfresh.2, by rw [hmessage]; rfl⟩
          obtain ⟨event, hevent, hfits⟩ := payload_fits hpair hid hnow.natAbs hnow
            (htitle.of_subset (List.take_subset 120 title))
            (hbody.of_subset (List.take_subset 1000 body))
          rw [hevent]
          refine ⟨some event, rfl, ?_⟩
          rintro e ⟨⟩
          exact hfits

theorem PushService.observeSample_available {x : Sample} {value : Option SampleValue} {now : ℚ}
    {prime : Bool} {s : PushService} (hs : s.available = true) (hnow : Readable now)
    (hvalue : value = none ∨ value = x.value)
    (h : prime = false → value.isSome = true → Transition s.processor now x → Scalar x.identifier)
    (clock : ℚ) :
    (s.observeSample x.kind x.identifier value now prime clock).2.available = true := by
  obtain ⟨event, hevent, hfits⟩ := sample_fits hnow hvalue h
  have hevents : (sample s.processor x.kind x.identifier value now prime).2.map Option.toList =
      some event.toList := by
    rw [hevent]
    rfl
  unfold observeSample
  rw [if_pos hs]
  exact queueDetected_available hevents (fun e he => hfits e (Option.mem_toList.mp he)) _ hs

/-! ## The selection -/

/-- Every service of a kind has an id that can be ordered. -/
def Sorts (m : Devices) (kind : Kind) : Prop :=
  ∀ inst, ((m.services kind).get? inst).isSome = true → Orderable inst

/-- The first system reports no state of charge of its own. -/
def NeedsBattery (m : Devices) : Prop :=
  ∀ systems, devices m .system = some systems →
    (systems.head?.getD (Str.lit "0", .absent)).2.number socPath = none

/-- The kinds that the observer lists have ids that can be ordered. -/
structure Sortable (m : Devices) : Prop where
  pump : Sorts m .pump
  evcharger : Sorts m .evcharger
  system : Sorts m .system
  battery : NeedsBattery m → Sorts m .battery

theorem listing_of_sorts {m : Devices} {kind : Kind} (h : Sorts m kind) :
    ∃ listing, devices m kind = some listing :=
  Option.isSome_iff_exists.mp ((devices_isSome_iff m kind).mpr h)

theorem sorts_of_listing {m : Devices} {kind : Kind} {listing : Listing}
    (h : devices m kind = some listing) : Sorts m kind :=
  (devices_isSome_iff m kind).mp (h ▸ rfl)

theorem socSample_isSome_iff (m : Devices) :
    (socSample (devices m)).isSome = true ↔
      Sorts m .system ∧ (NeedsBattery m → Sorts m .battery) := by
  constructor
  · intro h
    obtain ⟨soc, hsoc⟩ := Option.isSome_iff_exists.mp h
    obtain ⟨systems, hsystems, hsoc⟩ := Option.bind_eq_some_iff.mp hsoc
    refine ⟨sorts_of_listing hsystems, fun hneeds => ?_⟩
    have hunknown := hneeds systems hsystems
    dsimp only at hsoc
    rw [hunknown] at hsoc
    obtain ⟨batteries, hbatteries, -⟩ := Option.bind_eq_some_iff.mp hsoc
    exact sorts_of_listing hbatteries
  · rintro ⟨hsystem, hbattery⟩
    obtain ⟨systems, hsystems⟩ := listing_of_sorts hsystem
    unfold socSample
    rw [hsystems]
    dsimp only [Option.bind_eq_bind, Option.bind_some]
    split
    · rfl
    · next hunknown =>
      have hneeds : NeedsBattery m := by
        intro systems' hsystems'
        rw [hsystems] at hsystems'
        exact Option.some.inj hsystems' ▸ hunknown
      obtain ⟨batteries, hbatteries⟩ := listing_of_sorts (hbattery hneeds)
      rw [hbatteries]
      rfl

/-- A selection raises exactly when an id it has to sort cannot be ordered. -/
theorem selectedSamples_isSome_iff (cfg : Config) (s : MqttState) :
    (selectedSamples cfg s).isSome = true ↔ Sortable s.cerboDevices := by
  constructor
  · intro h
    obtain ⟨samples, hsamples⟩ := Option.isSome_iff_exists.mp h
    obtain ⟨pumps, chargers, soc, hpumps, hchargers, hsoc, -⟩ := selectedSamples_eq hsamples
    have hbatteries := (socSample_isSome_iff s.cerboDevices).mp (hsoc ▸ rfl)
    exact ⟨sorts_of_listing hpumps, sorts_of_listing hchargers, hbatteries.1, hbatteries.2⟩
  · intro h
    obtain ⟨pumps, hpumps⟩ := listing_of_sorts h.pump
    obtain ⟨chargers, hchargers⟩ := listing_of_sorts h.evcharger
    obtain ⟨soc, hsoc⟩ := Option.isSome_iff_exists.mp
      ((socSample_isSome_iff s.cerboDevices).mpr ⟨h.system, h.battery⟩)
    unfold selectedSamples
    rw [hpumps, hchargers, hsoc]
    rfl

/-! ## Observations -/

/-- What a packet may show the observer, once the reducer has seen it. -/
structure HarmlessPacket (site : Site) (p : Packet) (w : Watch) : Prop where
  clock : Readable p.reading.now
  notifications : isNotificationTopic p.message.topic = true →
    ∀ n ∈ (nativeNotifications w.source.board).take nativeLimit, n.Harmless
  ids : (observedLeaf w.source.mqtt.portalId p.message.topic).isSome = true →
    Sortable w.source.mqtt.cerboDevices
  samples : ∀ samples, selectedSamples site.cfg w.source.mqtt = some samples → ∀ e ∈ samples,
    observedLeaf w.source.mqtt.portalId p.message.topic = some e.2.leaf →
    p.message.retained = false → (packetNumber p.message.payload.loaded).isSome = true →
    w.priming p.reading = false → Transition w.service.processor p.reading.now e.2 →
    Scalar e.2.identifier

/-- The same for a poll; one that connects makes no event of a sample. -/
structure HarmlessPoll (site : Site) (p : Poll) (w : Watch) : Prop where
  clock : Readable p.reading.now
  notifications : ∀ n ∈ (nativeNotifications w.source.board).take nativeLimit, n.Harmless
  ids : Sortable w.source.mqtt.cerboDevices
  samples : ∀ samples, selectedSamples site.cfg w.source.mqtt = some samples → ∀ e ∈ samples,
    w.service.connects Watch.gatewaySource w.owner false = false →
    Transition w.service.processor p.reading.now e.2 → Scalar e.2.identifier

/-- The service is available, and what the observer remembers are samples of their roles. -/
structure Watch.Sound (w : Watch) : Prop where
  available : w.service.available = true
  typed : ∀ e ∈ w.observer.selected, Typed e

/-- A transition depends on the baseline of its sample. -/
theorem Transition.congr {p q : EventProcessor} {now : ℚ} {x : Sample}
    (h : Transition p now x) (hget : p.samples.get? x.key = q.samples.get? x.key) :
    Transition q now x := by
  obtain ⟨before, since, value, hbefore, hrest⟩ := h
  exact ⟨before, since, value, hget ▸ hbefore, hrest⟩

/-- The selection leaves the baselines of the samples that are selected. -/
theorem select_get {w : Watch} (hw : w.Sound) {samples : Samples} (h : Selected samples)
    {e : Role × Sample} (he : e ∈ samples) :
    (w.select samples).service.processor.samples.get? e.2.key =
      w.service.processor.samples.get? e.2.key := by
  have hbefore : ∀ d ∈ w.observer.current w.service.processor.epoch, Typed d := by
    unfold Observer.current
    split
    · exact hw.typed
    · exact fun d hd => absurd hd List.not_mem_nil
  exact dropUnselected_get_of_mem h hbefore w.service.processor he

theorem observeSelected_sound {site : Site}
    {observe : Role × Sample → PushService → List EventPayload × PushService}
    (hlocal : Local observe) {w : Watch} (hw : w.Sound)
    (hids : Sortable w.source.mqtt.cerboDevices)
    (hstep : ∀ samples, selectedSamples site.cfg w.source.mqtt = some samples → ∀ e ∈ samples,
      ∀ t, Steady w.service t → t.available = true →
        t.processor.samples.get? e.2.key = w.service.processor.samples.get? e.2.key →
        (observe e t).2.available = true) : (w.observeSelected site observe).2.Sound := by
  obtain ⟨samples, hsamples⟩ := Option.isSome_iff_exists.mp
    ((selectedSamples_isSome_iff site.cfg w.source.mqtt).mpr hids)
  have hselected := selected_of_samples hsamples
  have hloop : (observeSamples observe samples (w.select samples).service).2.available = true := by
    refine observeSamples_available hlocal hselected.keys_nodup hw.available ?_
    intro e he t hsteady ht hget
    exact hstep samples hsamples e he t ((w.select_steady samples).trans hsteady) ht
      (hget.trans (select_get hw hselected he))
  unfold Watch.observeSelected
  rw [hw.available, hsamples]
  exact ⟨hloop, hselected.typed⟩

theorem mqttSample_available {leaf : LeafName} {reading : Reading} {clear priming : Bool}
    {e : Role × Sample} {s : PushService} (hs : s.available = true) (hnow : Readable reading.now)
    (h : leaf = e.2.leaf → clear = false → priming = false →
      Transition s.processor reading.now e.2 → Scalar e.2.identifier) :
    (mqttSample leaf reading clear priming e s).2.available = true := by
  unfold mqttSample
  dsimp only
  split
  · exact PushService.observeSample_available hs hnow (Or.inl rfl) (fun _ hsome => by cases hsome) _
  · split
    · next hleaf =>
      cases clear with
      | true =>
        exact PushService.observeSample_available hs hnow (Or.inl rfl)
          (fun _ hsome => by cases hsome) _
      | false =>
        exact PushService.observeSample_available hs hnow (Or.inr rfl)
          (fun hprime _ => h hleaf rfl hprime) _
    · exact hs

theorem noted_sound {p : Packet} {site : Site} {w : Watch} (hw : w.Sound)
    (h : HarmlessPacket site p w) : (w.noted p.message p.reading).2.Sound := by
  unfold Watch.noted
  split
  · next htopic =>
    exact ⟨PushService.observeNative_available (h.notifications htopic) h.clock _ _ hw.available,
      hw.typed⟩
  · exact hw

theorem sampled_sound {p : Packet} {site : Site} {w : Watch} (hw : w.Sound)
    (h : HarmlessPacket site p w) : (w.sampled site p.message p.reading).2.Sound := by
  unfold Watch.sampled
  cases hleaf : observedLeaf w.source.mqtt.portalId p.message.topic with
  | none => exact hw
  | some leaf =>
    refine observeSelected_sound (mqttSample_local leaf _ _ _) hw (h.ids (hleaf ▸ rfl)) ?_
    intro samples hsamples e he t hsteady ht hget
    refine mqttSample_available ht h.clock ?_
    rintro rfl hclear hprime htransition
    rw [Bool.or_eq_false_iff, Option.isNone_eq_false_iff] at hclear
    exact h.samples samples hsamples e he hleaf hclear.1 hclear.2 hprime (htransition.congr hget)

theorem mqtt_sound {site : Site} {p : Packet} {w : Watch} (hw : w.Sound)
    (h : w.service.connection = some (PushService.mqttSource, w.owner) →
      HarmlessPacket site p w) : (w.mqtt site p.message p.reading).2.Sound := by
  unfold Watch.mqtt
  split
  · next hours =>
    rw [Bool.and_eq_true, decide_eq_true_eq] at hours
    have hpacket := h hours.2
    have hnoted := w.notedBy p.message p.reading
    -- The samples meet the baselines and the source as they were before the notifications.
    have hafter : HarmlessPacket site p (w.noted p.message p.reading).2 := by
      rw [hnoted.watch]
      refine ⟨hpacket.clock, hpacket.notifications, hpacket.ids, ?_⟩
      intro samples hsamples e he hleaf hfresh hnumber hprime htransition
      refine hpacket.samples samples hsamples e he hleaf hfresh hnumber ?_ ?_
      · unfold Watch.priming at hprime ⊢
        rw [← hnoted.steady.startedAt]
        exact hprime
      · exact htransition.congr (congrArg (fun d => d.get? e.2.key) hnoted.samples)
    exact sampled_sound (noted_sound hw hpacket) hafter
  · exact hw

theorem snapshot_sound {site : Site} {p : Poll} {w : Watch} (hw : w.Sound)
    (h : HarmlessPoll site p w) :
    (w.snapshot site p.epoch p.connected p.reading).2.Sound := by
  unfold Watch.snapshot
  rw [if_pos hw.available]
  have hconnected : (w.connectGateway p.epoch p.connected).Sound := by
    refine ⟨?_, hw.typed⟩
    show (w.service.connect _ _ _ _ _).available = true
    unfold PushService.connect
    split
    · split <;> exact hw.available
    · exact hw.available
  have hsteady := (w.connectGateway p.epoch p.connected).service.observeNative_steady
    (nativeNotifications w.source.board) p.reading.now
    (w.service.connects Watch.gatewaySource w.owner false) p.reading.native
  refine observeSelected_sound (snapshotSample_local _ _) ⟨?_, hconnected.typed⟩ h.ids ?_
  · exact PushService.observeNative_available h.notifications h.clock _ _ hconnected.available
  · intro samples hsamples e he t ht hlive hget
    refine PushService.observeSample_available hlive h.clock (Or.inr rfl) ?_ _
    intro hprime _ htransition
    refine h.samples samples hsamples e he hprime (htransition.congr (hget.trans ?_))
    -- A service that does not connect is the one there was.
    have hsame : (w.connectGateway p.epoch p.connected).service = w.service := by
      show w.service.connect _ _ _ _ _ = _
      unfold PushService.connect
      rw [hprime]
      rfl
    exact (congrArg (fun d => d.get? e.2.key) hsteady.2).trans
      (congrArg (fun s => s.processor.samples.get? e.2.key) hsame)

/-! ## Runs -/

/-- What a step observes can be encoded, and its ids can be ordered. -/
def Harmless (site : Site) (w : Watch) : WatchOp → Prop
  | .session (.packet p) => w.service.connection = some (PushService.mqttSource, w.owner) →
      HarmlessPacket site p (w.receive site p)
  | .session (.service _ _) => True
  | .poll p => (w.source.applySnapshot site p.clock p.snapshot).completed = true →
      HarmlessPoll site p (w.apply site p)
  | .replace _ _ => True

variable (onCurve : List UInt8 → Bool)

theorem PushService.work_available (s : PushService) (w : Nat) (now : ℚ) (tie : Nat) :
    (s.work w now tie).available = s.available := by
  unfold PushService.work
  split
  · split
    · rfl
    · dsimp only
      split
      · rfl
      · next d _ =>
        rcases deliver_control (s.withStore (s.store.nextDelivery now tie).2) w d now with
          h | ⟨-, h⟩
        · exact h.available
        · exact h.available
  · rfl

theorem PushService.resume_available (s : PushService) (w : Nat) (checked retried again : ℚ) :
    (s.resume w checked retried again).available = s.available := by
  unfold PushService.resume
  split
  · split
    · dsimp only
      split
      · rfl
      · exact (settle_control _ _ _ checked retried again).available
    · rfl
  · rfl

/-- The service's own steps never disable it. -/
theorem serviceStep_available (s : PushService) {op : ServiceOp} (hown : op.isOwn = true) :
    (serviceStep onCurve s op).available = s.available := by
  cases op with
  | connect source owner force epoch now =>
    unfold serviceStep PushService.connect
    dsimp only
    split
    · split <;> rfl
    · rfl
  | disconnect party epoch now =>
    unfold serviceStep PushService.disconnect
    dsimp only
    split <;> rfl
  | register subscription selected now =>
    unfold serviceStep PushService.register
    dsimp only
    split <;> rfl
  | delete endpoint =>
    unfold serviceStep PushService.delete
    dsimp only
    split <;> rfl
  | test endpoint uuid now => exact (s.test_control endpoint uuid now).available
  | native notifications now prime clock => cases hown
  | sample kind identifier value now prime clock => cases hown
  | fail => cases hown
  | work worker now tie => exact s.work_available worker now tie
  | begin task now =>
    unfold serviceStep PushService.begin
    dsimp only
    split <;> rfl
  | finishSend task outcome now =>
    unfold serviceStep PushService.finishSend
    dsimp only
    split <;> rfl
  | resume worker checked retried again => exact s.resume_available worker checked retried again

theorem watchStep_sound {site : Site} {w : Watch} (hw : w.Sound) {op : WatchOp}
    (h : Harmless site w op) : (watchStep onCurve site w op).Sound := by
  cases op with
  | session op =>
    cases op with
    | packet p => exact mqtt_sound (w := w.receive site p) ⟨hw.available, hw.typed⟩ h
    | service op own =>
      exact ⟨(serviceStep_available onCurve w.service own).trans hw.available, hw.typed⟩
  | poll p =>
    show (w.poll site p).2.Sound
    have happlied : (w.apply site p).Sound := ⟨hw.available, hw.typed⟩
    unfold Watch.poll
    split
    · next hcompleted => exact snapshot_sound happlied (h hcompleted)
    · exact happlied
  | replace source owner => exact ⟨hw.available, hw.typed⟩

/-- A service that has just started, with a new observer. -/
def Watch.started (source : Source) (owner : Nat) (store : PushStore) (epoch : Str) (now : ℚ) :
    Watch where
  source := source
  owner := owner
  observer := Observer.init
  service := PushService.started store epoch now

theorem available_run (site : Site) (es : List WatchOp) {w : Watch} (hw : w.Sound)
    (h : ∀ x ∈ trace (watchStep onCurve site) w es, Harmless site x.1 x.2) :
    (∀ x ∈ trace (watchStep onCurve site) w es, x.1.service.available = true) ∧
      (replay (watchStep onCurve site) w es).service.available = true := by
  induction es generalizing w with
  | nil => exact ⟨fun x hx => absurd hx List.not_mem_nil, hw.available⟩
  | cons e es ih =>
    obtain ⟨hfirst, hrest⟩ := List.forall_mem_cons.mp h
    obtain ⟨hall, hlast⟩ := ih (watchStep_sound onCurve hw hfirst) hrest
    exact ⟨List.forall_mem_cons.mpr ⟨hw.available, hall⟩, hlast⟩

/-- No content disables Web Push in a run that shows the observer nothing but texts with bytes and
    ids that can be ordered: the service is available before every step and at the end. -/
theorem stays_available (site : Site) (source : Source) (owner : Nat) (store : PushStore)
    (epoch : Str) (now : ℚ) (es : List WatchOp)
    (h : ∀ x ∈ trace (watchStep onCurve site) (Watch.started source owner store epoch now) es,
      Harmless site x.1 x.2) :
    (∀ x ∈ trace (watchStep onCurve site) (Watch.started source owner store epoch now) es,
        x.1.service.available = true) ∧
      (replay (watchStep onCurve site) (Watch.started source owner store epoch now)
        es).service.available = true :=
  available_run onCurve site es ⟨rfl, fun _ he => absurd he List.not_mem_nil⟩ h

/-- A notification on its own topic; `written` is its id as JSON has it. -/
def announcement (id written : Str) : Message where
  topic := Str.lit "inverter/notifications"
  payload :=
    let data := Payload.json (.dict [(Str.lit "id", .str id),
      (Str.lit "title", .str (Str.lit "Grid")),
      (Str.lit "ts", .str (Str.lit "2027-01-15T08:00:00Z"))])
    let text := Str.lit "\x7b\"id\": \"" ++ written ++
      Str.lit "\", \"title\": \"Grid\", \"ts\": \"2027-01-15T08:00:00Z\"\x7d"
    { loaded := data, decoded := data, body := .object none, text := some text, replaced := text }
  retained := false

/-- A session that starts and receives one message. -/
def receiving (m : Message) : List WatchOp :=
  [.session (.service (.connect PushService.mqttSource 0 true (Str.lit "b") 1799999980) rfl),
    .session (.packet
      ⟨⟨1800000000, 0⟩, m, ⟨1800000000, fun _ => 1800000000, fun _ => 1800000000⟩⟩)]

def quietStart : Watch := Watch.started newSource 0 PushStore.empty (Str.lit "a") 1799999970

/-- A text below the surrogates. -/
def belowSurrogates (s : Str) : Bool := s.all fun c => c.val < 0xd800

theorem scalar_of_below {s : Str} (h : belowSurrogates s = true) : Scalar s := by
  rw [scalar_iff]
  intro c hc hsurrogate
  have hbelow := of_decide_eq_true (List.all_eq_true.mp h c hc)
  omega

theorem stays_available_announced :
    (replay (watchStep (fun _ => false) plainSite) quietStart
      (receiving (announcement (Str.lit "grid") (Str.lit "grid")))).service.available = true := by
  refine (stays_available (fun _ => false) plainSite newSource 0 PushStore.empty (Str.lit "a")
    1799999970 (receiving _) ?_).2
  refine List.forall_mem_cons.mpr ⟨trivial, List.forall_mem_singleton.mpr fun _ => ?_⟩
  constructor
  · show |(1800000000 * 1000 : ℚ)| < 2 ^ 1024
    decide +kernel
  · intro _ n hn _
    have hall : ((nativeNotifications (newSource.onMessage plainSite ⟨1800000000, 0⟩
        (announcement (Str.lit "grid") (Str.lit "grid"))).source.board).take nativeLimit).all
          (fun n => belowSurrogates n.identifier && belowSurrogates (n.title.take 120) &&
            belowSurrogates (n.body.take 1000)) = true := by
      decide +kernel
    have htexts := List.all_eq_true.mp hall n hn
    rw [Bool.and_eq_true, Bool.and_eq_true] at htexts
    exact ⟨scalar_of_below htexts.1.1, scalar_of_below htexts.1.2, scalar_of_below htexts.2⟩
  · intro hleaf
    cases hleaf
  · intro samples _ e _ hleaf
    cases hleaf

/-- A lone surrogate in the id of a notification disables Web Push. -/
theorem surrogate_disables :
    (replay (watchStep (fun _ => false) plainSite) quietStart (receiving
      (announcement [⟨0xd800, by decide⟩] (Str.lit "\\ud800")))).service.available = false := by
  decide +kernel

end InverterDashboard.Push
