import InverterDashboard.Controller.Commands
import InverterDashboard.Push.Rows

/-
  What a start demands of the tables, and what keeps it so.

  The startup checks read the rows back as JSON values and validate them independently of the code
  that wrote them. `Sound` says the same about the rows as they were written, and every call of the
  store that is `Admissible` keeps it. Storage faults, the metadata table with the VAPID key and
  the marker of an initialized store are left out.
-/

namespace InverterDashboard.Push

open Python Cerbo Bounded Temporal

/-! ## Startup checks -/

def EventPayload.members (p : EventPayload) : List (Str × Value) :=
  [(Str.lit "schemaVersion", .int 1),
    (Str.lit "eventKey", .str p.eventKey),
    (Str.lit "kind", .str p.kind),
    (Str.lit "source", .str p.source),
    (Str.lit "sourceTimestampMs", .int p.sourceTimestampMs),
    (Str.lit "observedAtMs", .int p.observedAtMs),
    (Str.lit "title", .str p.title),
    (Str.lit "body", .str p.body),
    (Str.lit "url", .str (Str.lit "/"))]

/-- A queued payload as `json.loads` reads it. -/
def EventPayload.value (p : EventPayload) : Value := .dict p.members

/-- `required`. -/
def payloadKeys : List Str :=
  [Str.lit "schemaVersion", Str.lit "eventKey", Str.lit "kind", Str.lit "source",
    Str.lit "sourceTimestampMs", Str.lit "observedAtMs", Str.lit "title", Str.lit "body",
    Str.lit "url"]

/-- `kinds.get(kind, set())`. -/
def sourcesOf (kind : Str) : List Str :=
  if kind = Str.lit "native" then [Str.lit "victron", Str.lit "system"]
  else if kind = Str.lit "ev" ∨ kind = Str.lit "water" ∨ kind = Str.lit "lowBattery" then
    [Str.lit "victron"]
  else if kind = Str.lit "test" then [Str.lit "system"]
  else []

/-- A string of at most `maximum` characters. -/
def isText (maximum : Nat) : Value → Bool
  | .str s => s.length ≤ maximum
  | _ => false

/-- `[a-f0-9]`. -/
def isHexLower (c : CodePoint) : Bool :=
  (0x61 ≤ c.val && c.val ≤ 0x66) || (0x30 ≤ c.val && c.val ≤ 0x39)

/-- `[a-f0-9]{64}`. -/
def isEventKey : Value → Bool
  | .str s => s.length = 64 && s.all isHexLower
  | _ => false

/-- The milliseconds a start accepts. -/
def isPersistedMs (ms : Int) : Bool := 0 < ms && ms ≤ 9007199254740991

def isPersistedTime : Value → Bool
  | .int i => isPersistedMs i
  | _ => false

/-- `json.dumps` of a member; members of other types have been refused before. -/
def jsonScalar : Value → Str
  | .str s => jsonStr s
  | .int i => intStr i
  | _ => []

/-- `_validate_payload_fields`: whether it returns. -/
def validatePayloadFields (members : List (Str × Value)) : Bool :=
  let field := fun (k : String) => Value.member (Str.lit k) members
  isText 64 (field "eventKey") && isText 120 (field "title") && isText 1000 (field "body") &&
    isEventKey (field "eventKey") && isPersistedTime (field "sourceTimestampMs") &&
    isPersistedTime (field "observedAtMs") &&
    (jsonObject (members.map fun m => (m.1, jsonScalar m.2))).utf8.any fun bytes =>
      bytes.length ≤ maxPayloadBytes

/-- `validate_persisted_payload`: whether it returns. -/
def validatePersistedPayload (value : Value) : Bool :=
  match value with
  | .dict members =>
    let field := fun (k : String) => Value.member (Str.lit k) members
    Controller.keysAre members payloadKeys &&
      match field "schemaVersion", field "url", field "kind", field "source" with
      | .int version, .str url, .str kind, .str source =>
        version = 1 && url = Str.lit "/" && decide (source ∈ sourcesOf kind) &&
          validatePayloadFields members
      | _, _, _, _ => false
  | _ => false

/-- `_validate_existing_rows`. -/
def validateExistingRows (t : PushStore) : Bool :=
  (t.deliveries.all fun d => t.subscriptions.any (·.id = d.subscriptionId)) &&
    t.subscriptions.length ≤ maxSubscriptions && t.events.length ≤ maxEvents &&
    t.deliveries.length ≤ maxDeliveries && t.deliveries.all fun d => d.attempts < 3

variable (onCurve : List UInt8 → Bool)

/-- The checks of `__init__` on one subscription. -/
def validateRegistration (r : Registration) : Bool :=
  validateSubscription onCurve r.subscription.value = some r.subscription &&
    PushStore.identifierOf r.subscription.endpoint = r.id &&
    (preferencesOf r.preferences.value).isSome

/-- Whether `__init__` accepts the tables. -/
def opens (t : PushStore) : Bool :=
  validateExistingRows t && t.subscriptions.all (validateRegistration onCurve) &&
    t.deliveries.all fun d => validatePersistedPayload d.payload.value && d.payload.eventKey = d.eventId

/-! ## Payloads as they are built -/

/-- What a payload must be beside its size. -/
structure EventPayload.WellFormed (p : EventPayload) : Prop where
  key : isEventKey (.str p.eventKey) = true
  source : p.source ∈ sourcesOf p.kind
  sourceMs : isPersistedMs p.sourceTimestampMs = true
  observedMs : isPersistedMs p.observedAtMs = true
  title : p.title.length ≤ 120
  body : p.body.length ≤ 1000

/-- A payload that is well formed and fits is valid when it is read back. -/
theorem EventPayload.WellFormed.valid {p : EventPayload} (h : p.WellFormed) {size : Nat}
    (hsize : p.size? = some size) (hfits : size ≤ maxPayloadBytes) :
    validatePersistedPayload p.value = true := by
  obtain ⟨bytes, hbytes, rfl⟩ := Option.map_eq_some_iff.mp hsize
  have hkey : p.eventKey.length = 64 := by
    have := h.key
    unfold isEventKey at this
    exact of_decide_eq_true (Bool.and_eq_true_iff.mp this).1
  have hjson : (p.json.utf8.any fun bytes => bytes.length ≤ maxPayloadBytes) = true := by
    rw [hbytes]
    simpa using hfits
  have hfields : validatePayloadFields p.members = true := by
    unfold validatePayloadFields EventPayload.members
    simp only [Value.member, Dict.find, Str.lit_inj, Option.getD, reduceIte, String.reduceEq, isText,
      hkey, h.key, h.title, h.body, isPersistedTime, h.sourceMs, h.observedMs, decide_true,
      le_refl, Bool.true_and]
    exact hjson
  have hkeys : Controller.keysAre p.members payloadKeys = true := rfl
  unfold validatePersistedPayload EventPayload.value
  simp only [hkeys, hfields]
  unfold EventPayload.members
  simp only [h.source, Value.member, Dict.find, Str.lit_inj, Option.getD, reduceIte, String.reduceEq,
    decide_true, Bool.and_self]

/-! ### Digests -/

theorem round_length {h : List Sha256.Word} {kw : Sha256.Word × Sha256.Word} (hlen : h.length = 8) :
    (Sha256.round h kw).length = 8 := by
  match h, hlen with
  | [_, _, _, _, _, _, _, _], _ => rfl

theorem digest_length (m : List UInt8) : (Sha256.digest m).length = 8 := by
  unfold Sha256.digest
  refine List.foldlRecOn (motive := fun h : List Sha256.Word => h.length = 8) _ _ rfl ?_
  intro h hlen block _
  have hrounds : ((Sha256.roundConstants.zip (Sha256.schedule (Sha256.pad m) block)).foldl
      Sha256.round h).length = 8 :=
    List.foldlRecOn (motive := fun h : List Sha256.Word => h.length = 8) _ _ hlen
      fun _ hlen _ _ => round_length hlen
  unfold Sha256.compress
  rw [List.length_zipWith, hlen, hrounds]
  rfl

theorem isHexLower_hexDigit {n : Nat} (h : n < 16) : isHexLower (hexDigit n) = true := by
  have : ∀ n : Fin 16, isHexLower (hexDigit n) = true := by decide
  exact this ⟨n, h⟩

theorem isEventKey_sha256Hex (m : List UInt8) : isEventKey (.str (sha256Hex m)) = true := by
  unfold isEventKey sha256Hex
  rw [Bool.and_eq_true]
  refine ⟨?_, ?_⟩
  · rw [decide_eq_true_eq, List.length_flatMap]
    simp [digest_length]
  · rw [List.all_eq_true]
    intro c hc
    obtain ⟨w, -, hc⟩ := List.mem_flatMap.mp hc
    obtain ⟨i, -, rfl⟩ := List.mem_map.mp hc
    exact isHexLower_hexDigit (Nat.mod_lt _ (by decide))

/-! ### The writers -/

/-- What `event_payload` builds from a kind with its source and from good times. -/
theorem wellFormed_of_eventPayload {kind source identifier : Str} {sourceMs : Int} {now : ℚ}
    {title body : Str} {p : EventPayload}
    (h : eventPayload kind source identifier sourceMs now title body = some p)
    (hsource : source ∈ sourcesOf kind) (hsourceMs : isPersistedMs sourceMs = true)
    (hnow : isPersistedMs (nowMs now) = true) : p.WellFormed := by
  obtain ⟨key, hkey, hfit⟩ := Option.bind_eq_some_iff.mp h
  obtain ⟨bytes, -, rfl⟩ := Option.map_eq_some_iff.mp hkey
  obtain ⟨heq, hbody⟩ := fitBody_eq hfit
  rw [heq]
  exact {
    key := isEventKey_sha256Hex bytes
    source := hsource
    sourceMs := hsourceMs
    observedMs := hnow
    title := List.length_take_le 120 title
    body := hbody.length_le.trans (List.length_take_le 1000 body) }

/-! ## Sound tables -/

/-- Tables that a start accepts. The keys of rows are unique because they are a primary key. -/
structure Sound (t : PushStore) : Prop where
  subscriptions : t.subscriptions.length ≤ maxSubscriptions
  registered : ∀ r ∈ t.subscriptions,
    validateSubscription onCurve r.subscription.value = some r.subscription ∧
      PushStore.identifierOf r.subscription.endpoint = r.id
  events : Within maxEvents EventRow.id t.events
  deliveries : t.deliveries.length ≤ maxDeliveries
  references : ∀ d ∈ t.deliveries, ∃ r ∈ t.subscriptions, r.id = d.subscriptionId
  keys : (t.deliveries.map Delivery.row).Nodup
  attempts : ∀ d ∈ t.deliveries, d.attempts ≤ 2
  payloads : ∀ d ∈ t.deliveries,
    validatePersistedPayload d.payload.value = true ∧ d.payload.eventKey = d.eventId

variable {onCurve}

theorem Sound.opens {t : PushStore} (h : Sound onCurve t) : opens onCurve t = true := by
  have hrows : validateExistingRows t = true := by
    unfold validateExistingRows
    simp only [Bool.and_eq_true, decide_eq_true_eq, List.all_eq_true, List.any_eq_true]
    refine ⟨⟨⟨⟨h.references, h.subscriptions⟩, h.events.bound⟩, h.deliveries⟩, ?_⟩
    intro d hd
    have := h.attempts d hd
    omega
  unfold Push.opens
  rw [Bool.and_eq_true, Bool.and_eq_true, List.all_eq_true, List.all_eq_true]
  refine ⟨⟨hrows, ?_⟩, ?_⟩
  · intro r hr
    obtain ⟨hvalid, hid⟩ := h.registered r hr
    unfold validateRegistration
    simp [hvalid, hid, preferencesOf_value]
  · intro d hd
    obtain ⟨hvalid, hkey⟩ := h.payloads d hd
    simp [hvalid, hkey]

theorem sound_empty : Sound onCurve .empty where
  subscriptions := Nat.zero_le _
  registered := fun r hr => by cases hr
  events := .nil
  deliveries := Nat.zero_le _
  references := fun d hd => by cases hd
  keys := List.nodup_nil
  attempts := fun d hd => by cases hd
  payloads := fun d hd => by cases hd

/-- Fewer rows are sound. -/
theorem Sound.of_sublist {t t' : PushStore} (h : Sound onCurve t)
    (hrows : t'.deliveries.Sublist t.deliveries) (hsubs : t'.subscriptions = t.subscriptions)
    (hevents : Within maxEvents EventRow.id t'.events) : Sound onCurve t' where
  subscriptions := hsubs ▸ h.subscriptions
  registered := hsubs ▸ h.registered
  events := hevents
  deliveries := hrows.length_le.trans h.deliveries
  references := fun d hd => hsubs ▸ h.references d (hrows.subset hd)
  keys := h.keys.sublist (hrows.map Delivery.row)
  attempts := fun d hd => h.attempts d (hrows.subset hd)
  payloads := fun d hd => h.payloads d (hrows.subset hd)

/-- Rows that change only in their next time, and in the attempts as long as these are few. -/
theorem Sound.of_map {t t' : PushStore} (h : Sound onCurve t) {f : Delivery → Delivery}
    (hrows : t'.deliveries = t.deliveries.map f) (hsubs : t'.subscriptions = t.subscriptions)
    (hevents : Within maxEvents EventRow.id t'.events)
    (hf : ∀ d ∈ t.deliveries, (f d).row = d.row ∧ (f d).payload = d.payload ∧ (f d).attempts ≤ 2) :
    Sound onCurve t' := by
  have hof : ∀ d' ∈ t'.deliveries, ∃ d ∈ t.deliveries,
      d'.row = d.row ∧ d'.payload = d.payload ∧ d'.attempts ≤ 2 := by
    intro d' hd'
    rw [hrows] at hd'
    obtain ⟨d, hd, rfl⟩ := List.mem_map.mp hd'
    exact ⟨d, hd, hf d hd⟩
  have hkeys : t'.deliveries.map Delivery.row = t.deliveries.map Delivery.row := by
    rw [hrows, List.map_map]
    exact List.map_congr_left fun d hd => (hf d hd).1
  refine ⟨hsubs ▸ h.subscriptions, hsubs ▸ h.registered, hevents, ?_, ?_, hkeys ▸ h.keys,
    ?_, ?_⟩
  · rw [hrows, List.length_map]
    exact h.deliveries
  · intro d' hd'
    obtain ⟨d, hd, hrow, -, -⟩ := hof d' hd'
    obtain ⟨r, hr, hid⟩ := h.references d hd
    exact ⟨r, hsubs ▸ hr, hid.trans (congrArg Prod.snd hrow).symm⟩
  · intro d' hd'
    obtain ⟨d, hd, -, -, hattempts⟩ := hof d' hd'
    exact hattempts
  · intro d' hd'
    obtain ⟨d, hd, hrow, hpayload, -⟩ := hof d' hd'
    obtain ⟨hvalid, hkey⟩ := h.payloads d hd
    rw [hpayload]
    exact ⟨hvalid, hkey.trans (congrArg Prod.fst hrow).symm⟩

theorem mem_insertDeliveries {rows : List Delivery} {eventId : Str} {payload : EventPayload}
    {now : ℚ} {epoch : Str} {targets : List Str} {d : Delivery}
    (h : d ∈ PushStore.insertDeliveries rows eventId payload now epoch targets) :
    d ∈ rows ∨ ∃ target ∈ targets, d = PushStore.newDelivery eventId payload now epoch target := by
  unfold PushStore.insertDeliveries at h
  induction targets generalizing rows with
  | nil => exact Or.inl h
  | cons target targets ih =>
    rw [List.foldl_cons] at h
    rcases ih h with h | ⟨other, hother, rfl⟩
    · unfold PushStore.insertDelivery at h
      split at h
      · exact Or.inl h
      · rcases List.mem_append.mp h with h | h
        · exact Or.inl h
        · exact Or.inr ⟨target, List.mem_cons_self, List.mem_singleton.mp h⟩
    · exact Or.inr ⟨other, List.mem_cons_of_mem _ hother, rfl⟩

theorem insertDeliveries_length (rows : List Delivery) (eventId : Str) (payload : EventPayload)
    (now : ℚ) (epoch : Str) (targets : List Str) :
    (PushStore.insertDeliveries rows eventId payload now epoch targets).length ≤
      rows.length + targets.length := by
  unfold PushStore.insertDeliveries
  induction targets generalizing rows with
  | nil => exact le_refl _
  | cons target targets ih =>
    have hone : (PushStore.insertDelivery rows
        (PushStore.newDelivery eventId payload now epoch target)).length ≤ rows.length + 1 := by
      unfold PushStore.insertDelivery
      split
      · exact Nat.le_succ _
      · rw [List.length_append]
        exact le_refl _
    rw [List.foldl_cons, List.length_cons]
    have := ih (PushStore.insertDelivery rows
      (PushStore.newDelivery eventId payload now epoch target))
    omega

/-- New rows for registered targets, with a payload that is valid and has the key of the event. -/
theorem Sound.enqueue {t t' : PushStore} (h : Sound onCurve t) {payload : EventPayload}
    {targets : List Str} {now : ℚ} {epoch : Str} {b : Bool} (hformed : payload.WellFormed)
    (hevents : Within maxEvents EventRow.id t'.events)
    (hok : t.enqueue payload.eventKey payload targets now epoch = .ok (b, t')) :
    Sound onCurve t' := by
  have hsubs := enqueue_subscriptions hok
  have hexpired := sublist_expire t now
  obtain ⟨⟨size, hsize, hfits⟩, ⟨-, hrows⟩ | ⟨-, -, within, hregistered, hroom, hrows⟩⟩ :=
    enqueue_ok hok
  · exact h.of_sublist (hrows ▸ hexpired) hsubs hevents
  · have hnew := fun {d : Delivery} (hd : d ∈ t'.deliveries) =>
      mem_insertDeliveries (hrows ▸ hd : d ∈ PushStore.insertDeliveries _ _ _ _ _ _)
    have hlength := insertDeliveries_length (t.expire now).deliveries payload.eventKey payload now
      epoch within
    have hkeys := (insertDeliveries_rows (t.expire now).deliveries payload.eventKey payload now epoch
      within).2 (h.keys.sublist (hexpired.map Delivery.row))
    rw [← hrows] at hlength hkeys
    refine ⟨hsubs ▸ h.subscriptions, hsubs ▸ h.registered, hevents, ?_, ?_, hkeys, ?_, ?_⟩
    · have := hexpired.length_le.trans h.deliveries
      omega
    · intro d hd
      rw [hsubs]
      rcases hnew hd with hold | ⟨target, htarget, rfl⟩
      · exact h.references d (hexpired.subset hold)
      · obtain ⟨r, hr⟩ := Option.isSome_iff_exists.mp (hregistered target htarget)
        exact ⟨r, List.mem_of_find?_eq_some hr, get_id hr⟩
    · intro d hd
      rcases hnew hd with hold | ⟨target, htarget, rfl⟩
      · exact h.attempts d (hexpired.subset hold)
      · exact Nat.zero_le 2
    · intro d hd
      rcases hnew hd with hold | ⟨target, htarget, rfl⟩
      · exact h.payloads d (hexpired.subset hold)
      · exact ⟨hformed.valid hsize hfits, rfl⟩

theorem mem_upsert {rows : List Registration} {identifier : Str} {subscription : Subscription}
    {preferences : Preferences} {now : ℚ} {r : Registration}
    (h : r ∈ PushStore.upsert rows identifier subscription preferences now) :
    r ∈ rows ∨ r.id = identifier ∧ r.subscription = subscription := by
  unfold PushStore.upsert at h
  split at h
  · obtain ⟨q, hq, rfl⟩ := List.mem_map.mp h
    split
    · next hid => exact Or.inr ⟨hid, rfl⟩
    · exact Or.inl hq
  · rcases List.mem_append.mp h with h | h
    · exact Or.inl h
    · rw [List.mem_singleton.mp h]
      exact Or.inr ⟨rfl, rfl⟩

/-- No registration goes. -/
theorem exists_upsert {rows : List Registration} {identifier : Str} {subscription : Subscription}
    {preferences : Preferences} {now : ℚ} {r : Registration} (h : r ∈ rows) :
    ∃ q ∈ PushStore.upsert rows identifier subscription preferences now, q.id = r.id := by
  unfold PushStore.upsert
  split
  · refine ⟨_, List.mem_map_of_mem h, ?_⟩
    split <;> rfl
  · exact ⟨r, List.mem_append_left _ h, rfl⟩

/-- A registration of a validated subscription. -/
theorem Sound.register {t t' : PushStore} (h : Sound onCurve t) {subscription : Subscription}
    {preferences : Preferences} {now : ℚ} {id : Str}
    (hvalid : validateSubscription onCurve subscription.value = some subscription)
    (hok : t.register subscription preferences now = .ok (id, t')) : Sound onCurve t' := by
  have ht := register_ok hok
  have hid : id = PushStore.identifierOf subscription.endpoint ∧
      (t.subscriptions.any (·.id = id) = true ∨ t.subscriptions.length < maxSubscriptions) := by
    unfold PushStore.register at hok
    dsimp only at hok
    split at hok
    · next current hcurrent =>
      split at hok
      · cases hok
      · obtain ⟨rfl, -⟩ := Prod.mk.inj (Except.ok.inj hok)
        refine ⟨rfl, Or.inl (List.any_eq_true.mpr ⟨current, List.mem_of_find?_eq_some hcurrent, ?_⟩)⟩
        exact decide_eq_true (get_id hcurrent)
    · split at hok
      · cases hok
      · next hroom =>
        obtain ⟨rfl, -⟩ := Prod.mk.inj (Except.ok.inj hok)
        exact ⟨rfl, Or.inr (Nat.lt_of_not_le hroom)⟩
  obtain ⟨rfl, hroom⟩ := hid
  have hsublist : t'.deliveries.Sublist t.deliveries := ht ▸ List.filter_sublist
  refine ⟨?_, ?_, ht ▸ h.events, hsublist.length_le.trans h.deliveries, ?_,
    h.keys.sublist (hsublist.map Delivery.row), fun d hd => h.attempts d (hsublist.subset hd),
    fun d hd => h.payloads d (hsublist.subset hd)⟩
  · rw [ht]
    unfold PushStore.registered PushStore.upsert
    dsimp only
    split
    · rw [List.length_map]
      exact h.subscriptions
    · next hnone =>
      rw [List.length_append, List.length_singleton]
      exact hroom.resolve_left hnone
  · intro r hr
    rw [ht] at hr
    rcases mem_upsert hr with hold | ⟨hid, hsubscription⟩
    · exact h.registered r hold
    · rw [hid, hsubscription]
      exact ⟨hvalid, rfl⟩
  · intro d hd
    obtain ⟨r, hr, hid⟩ := h.references d (hsublist.subset hd)
    rw [ht]
    obtain ⟨q, hq, hqid⟩ := exists_upsert hr
    exact ⟨q, hq, hqid.trans hid⟩

theorem Sound.allowTest {t : PushStore} (h : Sound onCurve t) (identifier : Str) (now : ℚ) :
    Sound onCurve (t.allowTest identifier now).2 := by
  have hof : ∀ r' ∈ (t.allowTest identifier now).2.subscriptions, ∃ r ∈ t.subscriptions,
      r.id = r'.id ∧ r.subscription = r'.subscription := by
    intro r' hr'
    obtain ⟨r, hr, rfl⟩ := List.mem_map.mp hr'
    refine ⟨r, hr, ?_⟩
    split
    · exact ⟨rfl, rfl⟩
    · exact ⟨rfl, rfl⟩
  refine ⟨?_, ?_, h.events, h.deliveries, ?_, h.keys, h.attempts, h.payloads⟩
  · exact (List.length_map _).trans_le h.subscriptions
  · intro r' hr'
    obtain ⟨r, hr, hid, hsubscription⟩ := hof r' hr'
    rw [← hid, ← hsubscription]
    exact h.registered r hr
  · intro d hd
    obtain ⟨r, hr, hid⟩ := h.references d hd
    refine ⟨_, List.mem_map_of_mem hr, ?_⟩
    split
    · exact hid
    · exact hid

/-! ## Admissible calls -/

variable (onCurve)

/-- The calls that keep the tables sound: they queue well-formed payloads under their keys, register
    what validation returned, and retry a row only at the attempt at which it was claimed. -/
def Admissible (t : PushStore) : StoreOp → Prop
  | .enqueue eventId payload _ _ _ => eventId = payload.eventKey ∧ payload.WellFormed
  | .register subscription _ _ =>
    validateSubscription onCurve subscription.value = some subscription
  | .finish d (some _) => ∀ e ∈ t.deliveries, e.row = d.row → e.attempts = d.attempts
  | _ => True

variable {onCurve}

theorem Sound.step {t : PushStore} (h : Sound onCurve t) {c : StoreOp}
    (hc : Admissible onCurve t c) : Sound onCurve (storeStep t c) := by
  have hevents : Within maxEvents EventRow.id (storeStep t c).events :=
    store_records.within h.events c
  cases c with
  | remember identifier now => exact h.of_sublist (List.Sublist.refl _) rfl hevents
  | enqueue eventId payload targets now epoch =>
    obtain ⟨rfl, hformed⟩ := hc
    unfold storeStep at hevents ⊢
    dsimp only at hevents ⊢
    cases hok : t.enqueue payload.eventKey payload targets now epoch with
    | error e => exact h
    | ok o =>
      rw [hok] at hevents
      exact h.enqueue hformed hevents hok
  | register subscription preferences now =>
    unfold storeStep
    dsimp only
    cases hok : t.register subscription preferences now with
    | error e => exact h
    | ok o => exact h.register hc hok
  | delete identifier =>
    have hsublist : (t.delete identifier).deliveries.Sublist t.deliveries := List.filter_sublist
    refine ⟨(List.filter_sublist.length_le).trans h.subscriptions,
      fun r hr => h.registered r (List.filter_sublist.subset hr), hevents,
      hsublist.length_le.trans h.deliveries, ?_, h.keys.sublist (hsublist.map Delivery.row),
      fun d hd => h.attempts d (hsublist.subset hd), fun d hd => h.payloads d (hsublist.subset hd)⟩
    -- The rows of the subscription went with it.
    intro d hd
    obtain ⟨hmem, hne⟩ := List.mem_filter.mp hd
    obtain ⟨r, hr, hid⟩ := h.references d hmem
    exact ⟨r, List.mem_filter.mpr ⟨hr, by rw [hid]; exact hne⟩, hid⟩
  | allowTest identifier now => exact h.allowTest identifier now
  | hasDeliveryCapacity now => exact h.of_sublist (sublist_expire t now) rfl hevents
  | retireEpochs epoch => exact h.of_sublist List.filter_sublist rfl hevents
  | nextDelivery now tie =>
    have hexpired : Sound onCurve (t.expire now) := h.of_sublist (sublist_expire t now) rfl h.events
    show Sound onCurve (t.nextDelivery now tie).2
    cases hfound : (t.nextDelivery now tie).1 with
    | none =>
      rw [PushStore.nextDelivery_none hfound]
      exact hexpired
    | some d =>
      rw [(PushStore.nextDelivery_some hfound).2.2.2]
      refine hexpired.of_map rfl rfl h.events ?_
      intro e he
      have := hexpired.attempts e he
      split
      · exact ⟨rfl, rfl, this⟩
      · exact ⟨rfl, rfl, this⟩
  | finish d retryAt =>
    cases retryAt with
    | none => exact h.of_sublist List.filter_sublist rfl hevents
    | some time =>
      show Sound onCurve (t.finish d (some time))
      unfold PushStore.finish
      dsimp only
      split
      · exact h.of_sublist List.filter_sublist rfl h.events
      · next hfew =>
        refine h.of_map rfl rfl h.events ?_
        intro e he
        unfold PushStore.retried
        split
        · next hrow =>
          have : e.attempts = d.attempts := hc e he (isFor_iff.mp hrow)
          exact ⟨rfl, rfl, by dsimp only; omega⟩
        · exact ⟨rfl, rfl, h.attempts e he⟩
  | reopen => exact h

end InverterDashboard.Push
