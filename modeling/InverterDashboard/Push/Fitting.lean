import InverterDashboard.Json.Bytes
import InverterDashboard.Push.Startup

/-
  What `event_payload` makes of an event fits.

  The loop of `event_payload` takes characters off the body until the payload has at most 3072
  bytes, and has no bound of its own. It ends because the payload without a body fits whatever
  the texts are (`size_withoutBody`): the title has at most 120 code points, a code point has at
  most six bytes in JSON, and the other fields are bounded too.

  Proved (`eventPayload_fits`): for the kinds and sources that are used, for texts without
  surrogates and times that a start accepts, there is a payload, the startup check, the outbox and
  the sender accept it, and its body is the longest one that fits. Its key is known from the kind,
  the source, the identifier and the source time.
-/

namespace InverterDashboard.Push

open Python Json

/-! ## Definitions -/

/-- The kinds and sources that `event_payload` is called with. -/
def eventSources : List (Str × Str) :=
  [(Str.lit "native", Str.lit "victron"), (Str.lit "native", Str.lit "system"),
    (Str.lit "ev", Str.lit "victron"), (Str.lit "water", Str.lit "victron"),
    (Str.lit "lowBattery", Str.lit "victron"), (Str.lit "test", Str.lit "system")]

/-- The payload can be encoded and is within the limit. -/
def EventPayload.Fits (p : EventPayload) : Prop :=
  ∃ size, p.size? = some size ∧ size ≤ maxPayloadBytes

/-- The data that `send` encrypts; `none` when it raises before. -/
def sendData (p : EventPayload) : Option (List UInt8) :=
  p.json.utf8.bind fun data => if maxPayloadBytes < data.length then none else some data

/-- What a payload of `event_payload` is, with this title and body to begin with. -/
structure Fitted (title body : Str) (p : EventPayload) : Prop where
  valid : validatePersistedPayload p.value = true
  enqueued : ∀ (s : PushStore) eventId targets now epoch,
    s.enqueue eventId p targets now epoch = s.reserve eventId p targets now epoch
  sent : (sendData p).isSome = true
  title : p.title = title.take 120
  cut : p.body <+: body.take 1000
  fits : p.Fits
  longest : ∀ b, b <+: body.take 1000 → (p.withBody b).Fits → b.length ≤ p.body.length

/-! ## The loop -/

theorem prefix_dropLast {a b : Str} (h : a <+: b) (hne : a ≠ b) : a <+: b.dropLast := by
  have hlength : a.length ≠ b.length := fun e => hne (h.eq_of_length e)
  have hle := h.length_le
  apply List.prefix_of_prefix_length_le h (List.dropLast_prefix b)
  rw [List.length_dropLast]
  omega

/-- Of the bodies that fit, the loop leaves the longest. -/
theorem fitBody_longest {n : Nat} {p q : EventPayload} (h : fitBody p n = some q) {b : Str}
    (hb : b <+: p.body) (hfits : (p.withBody b).Fits) : b.length ≤ q.body.length := by
  induction n generalizing p with
  | zero =>
    obtain ⟨size, -, hq⟩ := Option.bind_eq_some_iff.mp h
    split at hq
    · cases hq
    · obtain rfl := Option.some.inj hq
      exact hb.length_le
  | succ n ih =>
    obtain ⟨size, hsize, hq⟩ := Option.bind_eq_some_iff.mp h
    split at hq
    · next hlarge =>
      -- The whole body does not fit, so the one that fits is shorter.
      have hne : b ≠ p.body := by
        rintro rfl
        obtain ⟨size', hsize', hle⟩ := hfits
        have hsame : p.size? = some size' := hsize'
        rw [hsize] at hsame
        obtain rfl := Option.some.inj hsame
        omega
      exact ih hq (prefix_dropLast hb hne) hfits
    · obtain rfl := Option.some.inj hq
      exact hb.length_le

/-- The loop ends if the payload can be encoded and fits without a body. -/
theorem fitBody_isSome {n : Nat} {p : EventPayload} (hn : p.body.length ≤ n)
    (hempty : (p.withBody []).Fits)
    (hsize : ∀ b, b <+: p.body → ((p.withBody b).size?).isSome = true) :
    (fitBody p n).isSome = true := by
  induction n generalizing p with
  | zero =>
    have hbody : p.body = [] := List.eq_nil_of_length_eq_zero (Nat.le_zero.mp hn)
    have hfits : p.Fits := by
      have hsame : p.withBody [] = p := by rw [← hbody]; rfl
      rw [← hsame]
      exact hempty
    obtain ⟨size, hsize, hle⟩ := hfits
    unfold fitBody
    rw [hsize, Option.bind_some, if_neg (Nat.not_lt.mpr hle)]
    rfl
  | succ n ih =>
    obtain ⟨size, hsome⟩ := Option.isSome_iff_exists.mp (hsize p.body (List.prefix_refl _))
    have hwhole : p.size? = some size := hsome
    unfold fitBody
    rw [hwhole, Option.bind_some]
    split
    · refine ih ?_ hempty fun b hb => hsize b (hb.trans (List.dropLast_prefix _))
      have hlength : p.body.dropLast.length = p.body.length - 1 := List.length_dropLast
      show p.body.dropLast.length ≤ n
      omega
    · rfl

/-! ## Sizes -/

theorem scalar_json {p : EventPayload} (hkey : Scalar p.eventKey) (hkind : Scalar p.kind)
    (hsource : Scalar p.source) (htitle : Scalar p.title) (hbody : Scalar p.body) :
    Scalar p.json := by
  unfold EventPayload.json
  apply scalar_jsonObject
  simp only [List.forall_mem_cons]
  exact ⟨⟨scalar_lit _, scalar_lit _⟩, ⟨scalar_lit _, hkey.jsonStr⟩, ⟨scalar_lit _, hkind.jsonStr⟩,
    ⟨scalar_lit _, hsource.jsonStr⟩, ⟨scalar_lit _, scalar_intStr _⟩,
    ⟨scalar_lit _, scalar_intStr _⟩, ⟨scalar_lit _, htitle.jsonStr⟩, ⟨scalar_lit _, hbody.jsonStr⟩,
    ⟨scalar_lit _, (scalar_lit "/").jsonStr⟩, List.forall_mem_nil _⟩

/-- The bytes of a payload: those of its fields, and 113 for what is around them. -/
theorem byteLength_json (p : EventPayload) :
    byteLength p.json = 113 + byteLength (jsonStr p.eventKey) + byteLength (jsonStr p.kind) +
      byteLength (jsonStr p.source) + byteLength (intStr p.sourceTimestampMs) +
      byteLength (intStr p.observedAtMs) + byteLength (jsonStr p.title) +
      byteLength (jsonStr p.body) := by
  have hnames : byteLength (jsonStr (Str.lit "schemaVersion")) = 15 ∧
      byteLength (jsonStr (Str.lit "eventKey")) = 10 ∧ byteLength (jsonStr (Str.lit "kind")) = 6 ∧
      byteLength (jsonStr (Str.lit "source")) = 8 ∧
      byteLength (jsonStr (Str.lit "sourceTimestampMs")) = 19 ∧
      byteLength (jsonStr (Str.lit "observedAtMs")) = 14 ∧
      byteLength (jsonStr (Str.lit "title")) = 7 ∧ byteLength (jsonStr (Str.lit "body")) = 6 ∧
      byteLength (jsonStr (Str.lit "url")) = 5 := by
    decide +kernel
  have hrest : byteLength (Str.lit "1") = 1 ∧ byteLength (jsonStr (Str.lit "/")) = 3 ∧
      byteLength (Str.lit ":") = 1 ∧ byteLength comma = 1 ∧ byteLength (Str.lit "\x7b") = 1 ∧
      byteLength (Str.lit "\x7d") = 1 := by
    decide +kernel
  unfold EventPayload.json jsonObject
  simp only [List.map_cons, List.map_nil, List.intercalate_cons_cons, List.intercalate_singleton,
    byteLength_append, hnames, hrest]
  omega

/-- The number of bytes of a payload that can be encoded. -/
theorem size_eq {p : EventPayload} (h : Scalar p.json) : p.size? = some (byteLength p.json) :=
  h.utf8

/-- An integer that is the whole part of a float. -/
theorem byteLength_intStr_le {i : Int} (h : i.natAbs < 2 ^ 1024) : byteLength (intStr i) ≤ 310 := by
  have hlimit : i.natAbs < 10 ^ 309 := h.trans_le (by decide +kernel)
  have hdigits := (Nat.length_toDigits_le_iff (by decide) (by decide)).mpr hlimit
  rw [← byteLength_natStr] at hdigits
  cases i with
  | ofNat n => exact hdigits.trans (by decide)
  | negSucc n =>
    have hsign : byteLength [CodePoint.ofChar '-'] = 1 := by decide
    show byteLength ([CodePoint.ofChar '-'] ++ natStr (n + 1)) ≤ 310
    rw [byteLength_append, hsign, Nat.add_comm]
    exact Nat.succ_le_succ hdigits

theorem natAbs_lt_of_persisted {i : Int} (h : isPersistedMs i = true) : i.natAbs < 2 ^ 1024 := by
  have hlimit : 9007199254740991 < 2 ^ 1024 := by decide +kernel
  unfold isPersistedMs at h
  rw [Bool.and_eq_true, decide_eq_true_eq, decide_eq_true_eq] at h
  have habs : i.natAbs ≤ 9007199254740991 := by omega
  exact habs.trans_lt hlimit

/-- A payload without a body fits, whatever its title. -/
theorem size_withoutBody {p : EventPayload} (hkey : p.eventKey.length = 64)
    (hkind : p.kind.length ≤ 10) (hsource : p.source.length ≤ 7)
    (hsourceMs : p.sourceTimestampMs.natAbs < 2 ^ 1024) (hnow : p.observedAtMs.natAbs < 2 ^ 1024)
    (htitle : p.title.length ≤ 120) :
    byteLength (p.withBody []).json ≤ maxPayloadBytes := by
  have hkeyBytes := byteLength_jsonStr_le p.eventKey
  have hkindBytes := byteLength_jsonStr_le p.kind
  have hsourceBytes := byteLength_jsonStr_le p.source
  have htitleBytes := byteLength_jsonStr_le p.title
  have hbodyBytes : byteLength (jsonStr []) = 2 := by decide
  have hsourceMsBytes := byteLength_intStr_le hsourceMs
  have hnowBytes := byteLength_intStr_le hnow
  rw [byteLength_json]
  unfold EventPayload.withBody maxPayloadBytes
  dsimp only
  omega

/-! ## What is built -/

theorem mem_sourcesOf {kind source : Str} (h : (kind, source) ∈ eventSources) :
    source ∈ sourcesOf kind ∧ kind.length ≤ 10 ∧ source.length ≤ 7 ∧ Scalar kind ∧
      Scalar source := by
  have hall : ∀ pair ∈ eventSources, pair.2 ∈ sourcesOf pair.1 ∧ pair.1.length ≤ 10 ∧
      pair.2.length ≤ 7 := by
    decide +kernel
  have hscalar : ∀ pair ∈ eventSources, Scalar pair.1 ∧ Scalar pair.2 := by
    unfold eventSources
    simp only [List.forall_mem_cons]
    exact ⟨⟨scalar_lit _, scalar_lit _⟩, ⟨scalar_lit _, scalar_lit _⟩,
      ⟨scalar_lit _, scalar_lit _⟩, ⟨scalar_lit _, scalar_lit _⟩, ⟨scalar_lit _, scalar_lit _⟩,
      ⟨scalar_lit _, scalar_lit _⟩, List.forall_mem_nil _⟩
  obtain ⟨hsource, hkind, hlength⟩ := hall _ h
  exact ⟨hsource, hkind, hlength, hscalar _ h⟩

/-- The key of an event whose identifier can be encoded. -/
theorem eventKey_isSome {kind source identifier : Str} (hkind : Scalar kind)
    (hsource : Scalar source) (hid : Scalar identifier) (sourceMs : Int) :
    ∃ key, eventKey kind source identifier sourceMs = some key ∧ key.length = 64 ∧
      Scalar key := by
  have hscalar : Scalar (jsonArray [jsonStr kind, jsonStr source, jsonStr identifier,
      intStr sourceMs]) := by
    apply scalar_jsonArray
    simp only [List.forall_mem_cons]
    exact ⟨hkind.jsonStr, hsource.jsonStr, hid.jsonStr, scalar_intStr _, List.forall_mem_nil _⟩
  obtain ⟨bytes, hbytes, -⟩ := Option.map_eq_some_iff.mp hscalar.utf8
  have hkey := isEventKey_sha256Hex bytes
  unfold isEventKey at hkey
  rw [Bool.and_eq_true] at hkey
  refine ⟨sha256Hex bytes, ?_, of_decide_eq_true hkey.1, ?_⟩
  · unfold eventKey
    rw [hbytes]
    rfl
  · intro c hc
    have hhex := List.all_eq_true.mp hkey.2 c hc
    unfold isHexLower at hhex
    simp only [Bool.or_eq_true, Bool.and_eq_true, decide_eq_true_eq] at hhex
    unfold isHigh isLow
    rw [decide_eq_false_iff_not, decide_eq_false_iff_not]
    omega

theorem isPersistedMs_iff (ms : Int) : isPersistedMs ms = true ↔ 0 < ms ∧ ms ≤ 2 ^ 53 - 1 := by
  unfold isPersistedMs
  rw [Bool.and_eq_true, decide_eq_true_eq, decide_eq_true_eq]
  norm_num

/-- The loop of `event_payload` ends. -/
theorem eventPayload_isSome {kind source identifier key title body : Str} {sourceMs : Int} {now : ℚ}
    (hpair : (kind, source) ∈ eventSources)
    (hkey : eventKey kind source identifier sourceMs = some key) (hlength : key.length = 64)
    (hscalar : Scalar key) (hsourceMs : sourceMs.natAbs < 2 ^ 1024)
    (hnow : (nowMs now).natAbs < 2 ^ 1024) (htitle : Scalar (title.take 120))
    (hbody : Scalar (body.take 1000)) :
    ∃ p, eventPayload kind source identifier sourceMs now title body = some p := by
  obtain ⟨-, hkindLength, hsourceLength, hkind, hsource⟩ := mem_sourcesOf hpair
  have hjson : ∀ b, b <+: body.take 1000 →
      Scalar (EventPayload.mk key kind source sourceMs (nowMs now) (title.take 120) b).json := by
    intro b hb
    exact scalar_json hscalar hkind hsource htitle (hbody.of_subset hb.subset)
  have hloop := fitBody_isSome (n := (body.take 1000).length)
    (p := ⟨key, kind, source, sourceMs, nowMs now, title.take 120, body.take 1000⟩) le_rfl
    ⟨_, size_eq (hjson [] List.nil_prefix), size_withoutBody hlength hkindLength hsourceLength
      hsourceMs hnow (List.length_take_le 120 title)⟩
    fun b hb => Option.isSome_iff_exists.mpr ⟨_, size_eq (hjson b hb)⟩
  obtain ⟨p, hp⟩ := Option.isSome_iff_exists.mp hloop
  refine ⟨p, ?_⟩
  unfold eventPayload
  rw [hkey]
  exact hp

theorem EventPayload.Fits.enqueue {p : EventPayload} (h : p.Fits) (s : PushStore) (eventId : Str)
    (targets : List Str) (now : ℚ) (epoch : Str) :
    s.enqueue eventId p targets now epoch = s.reserve eventId p targets now epoch := by
  obtain ⟨size, hsize, hle⟩ := h
  unfold PushStore.enqueue
  rw [hsize]
  exact if_neg (Nat.not_lt.mpr hle)

theorem EventPayload.Fits.sendData {p : EventPayload} (h : p.Fits) :
    (sendData p).isSome = true := by
  obtain ⟨size, hsize, hle⟩ := h
  obtain ⟨data, hdata, rfl⟩ := Option.map_eq_some_iff.mp hsize
  unfold Push.sendData
  rw [hdata, Option.bind_some, if_neg (Nat.not_lt.mpr hle)]
  rfl

/-- What `event_payload` returns is accepted wherever it is checked. -/
theorem fitted_of_eventPayload {kind source identifier title body : Str} {sourceMs : Int} {now : ℚ}
    {p : EventPayload}
    (h : eventPayload kind source identifier sourceMs now title body = some p)
    (hsource : source ∈ sourcesOf kind) (hsourceMs : isPersistedMs sourceMs = true)
    (hnow : isPersistedMs (nowMs now) = true) : Fitted title body p := by
  have hformed := wellFormed_of_eventPayload h hsource hsourceMs hnow
  obtain ⟨key, -, hfit⟩ := Option.bind_eq_some_iff.mp h
  obtain ⟨heq, hcut⟩ := fitBody_eq hfit
  have hfits : p.Fits := fitBody_size hfit
  obtain ⟨size, hsize, hle⟩ := fitBody_size hfit
  exact {
    valid := hformed.valid hsize hle
    enqueued := hfits.enqueue
    sent := hfits.sendData
    title := congrArg EventPayload.title heq
    cut := hcut
    fits := hfits
    longest := by
      intro b hb hfitsB
      apply fitBody_longest hfit hb
      rw [heq] at hfitsB
      exact hfitsB }

/-- **What `event_payload` builds fits.** There is a payload for every title and body, and its key
    is the same for all of them. -/
theorem eventPayload_fits {kind source identifier : Str} {sourceMs : Int}
    (hpair : (kind, source) ∈ eventSources) (hid : Scalar identifier)
    (hsourceMs : 0 < sourceMs ∧ sourceMs ≤ 2 ^ 53 - 1) :
    ∃ key, eventKey kind source identifier sourceMs = some key ∧
      ∀ now title body, 0 < nowMs now ∧ nowMs now ≤ 2 ^ 53 - 1 → Scalar title → Scalar body →
        ∃ p, eventPayload kind source identifier sourceMs now title body = some p ∧
          p.eventKey = key ∧ Fitted title body p := by
  obtain ⟨hsource, -, -, hkindScalar, hsourceScalar⟩ := mem_sourcesOf hpair
  obtain ⟨key, hkey, hlength, hscalar⟩ := eventKey_isSome hkindScalar hsourceScalar hid sourceMs
  have hms := (isPersistedMs_iff sourceMs).mpr hsourceMs
  refine ⟨key, hkey, ?_⟩
  intro now title body hnow htitle hbody
  have hnowMs := (isPersistedMs_iff (nowMs now)).mpr hnow
  obtain ⟨p, hp⟩ := eventPayload_isSome hpair hkey hlength hscalar (natAbs_lt_of_persisted hms)
    (natAbs_lt_of_persisted hnowMs) (htitle.of_subset (List.take_subset 120 title))
    (hbody.of_subset (List.take_subset 1000 body))
  have hsame : some p.eventKey = some key := (eventPayload_fields hp).1.symm.trans hkey
  exact ⟨p, hp, Option.some.inj hsame, fitted_of_eventPayload hp hsource hms hnowMs⟩

/-- A transition of a charger, with the title and the time it has. -/
theorem eventPayload_fits_charger :
    ∃ p, eventPayload (Str.lit "ev") (Str.lit "victron") (Str.lit "evcharger:1") 1800000000000
        1800000000 (Str.lit "EV charging started")
        (Str.lit "Observed from the selected EV charger") = some p ∧
      p.title = Str.lit "EV charging started" ∧ validatePersistedPayload p.value = true := by
  obtain ⟨key, -, hall⟩ := @eventPayload_fits (Str.lit "ev") (Str.lit "victron")
    (Str.lit "evcharger:1") 1800000000000 (by decide) (scalar_lit _) (by decide)
  obtain ⟨p, hp, -, hfitted⟩ := hall 1800000000 (Str.lit "EV charging started")
    (Str.lit "Observed from the selected EV charger") (by decide +kernel) (scalar_lit _)
    (scalar_lit _)
  refine ⟨p, hp, ?_, hfitted.valid⟩
  rw [hfitted.title]
  decide

end InverterDashboard.Push
