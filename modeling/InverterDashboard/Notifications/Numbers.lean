import InverterDashboard.Json.Exact
import InverterDashboard.Json.File
import InverterDashboard.Notifications.Banners
import Mathlib.Tactic.IntervalCases

/-
  Numbers on the wire: what a literal in a notification leaf is taken for.

  Over MQTT the parser hands each number with a fraction or an exponent over as its text. The gateway
  client parses a snapshot twice and takes the texts of notification leaves from the second pass.
  Either way the leaf gets the same value, and it is read as the number that the literal denotes
  (`numbers_exact`).
-/

namespace InverterDashboard.Notifications

open Python Json

/-! ## Messages -/

/-- `parse_float=exact_json_number`. -/
def exactHook : Tree.Hook := fun n => exactJsonNumber n.text

/-- The value of a literal with this hook. -/
def exactValue (n : Number) : Value := (Tree.number n).value exactHook

def valueKey : Str := Str.lit "value"

/-- A value as the body of a message keeps it. Numbers inside lists and objects do not matter: no
    field takes these. -/
def wireOf : Tree → Wire
  | .number n => if n.isReal then .real n.text else .value (.int n.toInt)
  | t => .value (t.value Tree.rounded)

def bodyOfTree : Tree → Body
  | .obj ms => .object ((Tree.lastMember valueKey ms).map wireOf)
  | t => .bare (wireOf t)

/-- The body of a message. What is not UTF-8, not JSON or beyond the parser's limits raises. -/
def bodyOf (depth : Nat) (payload : List UInt8) : Body :=
  if payload = [] then .empty
  else match decodeUtf8 payload with
    | none => .malformed
    | some text => match loads depth text with
      | .ok t => bodyOfTree t
      | .error _ => .malformed

/-- A payload that carries a number bare. -/
def SendsBare (depth : Nat) (payload : List UInt8) (n : Number) : Prop :=
  ∃ text, decodeUtf8 payload = some text ∧ loads depth text = .ok (.number n)

/-- A payload that carries a number as the member `value` of an object. -/
def SendsMember (depth : Nat) (payload : List UInt8) (n : Number) : Prop :=
  ∃ text ms, decodeUtf8 payload = some text ∧ loads depth text = .ok (.obj ms) ∧
    Tree.lastMember valueKey ms = some (.number n)

/-! ## Snapshots -/

def platformKey : Str := Str.lit "platform"

/-- `raw.get("value") if isinstance(raw, dict) else raw`. -/
def leafValue : Value → Value
  | .dict es => Value.member valueKey es
  | raw => raw

/-- `isinstance(value, float)`. -/
def isFloat : Value → Bool
  | .float _ => true
  | _ => false

/-- A leaf of a bucket whose number is kept exact. -/
def selectsExact (bucket key : Str) : Bool :=
  if bucket = platformKey then (parsePlatformLeafKey key).any fun parsed => parsed.2.isNumeric
  else (Board.parseAlarmLeafKey bucket key).isSome

/-- `_fractional_notification_keys`. -/
def fractionalNotificationKeys (bucket : Str) (leaves : List (Str × Value)) : List Str :=
  (leaves.filter fun leaf => isFloat (leafValue leaf.2) && selectsExact bucket leaf.1).map Prod.fst

/-- The buckets that hold notification leaves. -/
def notificationBuckets : List Str := [platformKey, Str.lit "battery", Str.lit "vebus"]

/-- The leaves of a bucket to read again, if any. -/
def selectedBucket (data : Object) (bucket : Str) : Option (Str × List Str) :=
  match data.get? bucket with
  | some (.dict leaves) =>
    match fractionalNotificationKeys bucket leaves with
    | [] => none
    | keys => some (bucket, keys)
  | _ => none

/-- The leaves of a snapshot to read again. -/
def selectedKeys (data : Object) : List (Str × List Str) :=
  notificationBuckets.filterMap (selectedBucket data)

/-- A leaf with the value that the second pass gives it. -/
def exactLeaf (raw exact : Value) : Value :=
  match raw with
  | .dict es => .dict (Dict.setEntries valueKey (leafValue exact) es)
  | _ => exact

/-- A step of the loop over the selected keys of a bucket. -/
def preserveLeaf (exact leaves : List (Str × Value)) (key : Str) : List (Str × Value) :=
  Dict.setEntries key (exactLeaf (Value.member key leaves) (Value.member key exact)) leaves

/-- A step of the loop over the selected buckets. -/
def preserveBucket (exact data : Object) (selected : Str × List Str) : Object :=
  match data.get? selected.1, exact.get? selected.1 with
  | some (.dict leaves), some (.dict exactLeaves) =>
    data.set selected.1 (.dict (selected.2.foldl (preserveLeaf exactLeaves) leaves))
  | _, _ => data

/-- `_preserve_notification_numbers`. -/
def preserveNotificationNumbers (data exact : Object) : Object :=
  (selectedKeys data).foldl (preserveBucket exact) data

/-- The object of a tree with a hook. -/
def objectOf (hook : Tree.Hook) (ms : List (Str × Tree)) : Object :=
  Dict.ofList (Tree.members hook ms)

/-- `fetch_snapshot` of a text that parses; `none` is its `TypeError`. -/
def snapshotData : Tree → Option Object
  | .obj ms => some (preserveNotificationNumbers (objectOf Tree.rounded ms) (objectOf exactHook ms))
  | _ => none

/-- The leaf of a bucket in the text of a snapshot. -/
def leafTree (bucket key : Str) : Tree → Option Tree
  | .obj ms => match Tree.lastMember bucket ms with
    | some (.obj leaves) => Tree.lastMember key leaves
    | _ => none
  | _ => none

/-- A leaf that carries a number, flat or as its member `value`. -/
def Carries (leaf : Tree) (n : Number) : Prop :=
  leaf = .number n ∨ ∃ ms, leaf = .obj ms ∧ Tree.lastMember valueKey ms = some (.number n)

/-! ## Places in a value -/

inductive Step where
  | key (k : Str)
  | index (i : Nat)
  deriving DecidableEq

/-- The value at a place. -/
def valueAt : List Step → Value → Option Value
  | [], v => some v
  | .key k :: path, .dict es => (Dict.find k es).bind (valueAt path)
  | .index i :: path, .list xs => xs[i]?.bind (valueAt path)
  | _ :: _, _ => none

def isNumber : Value → Bool
  | .int _ => true
  | .float _ => true
  | _ => false

/-- The place of the number of a notification leaf, flat or wrapped. -/
def isNotificationPlace : List Step → Bool
  | [.key bucket, .key key] => bucket ∈ notificationBuckets && selectsExact bucket key
  | [.key bucket, .key key, .key k] =>
    bucket ∈ notificationBuckets && selectsExact bucket key && k = valueKey
  | _ => false

/-! ## The values of a literal -/

theorem exactValue_int {n : Number} (h : n.isReal = false) : exactValue n = .int n.toInt := by
  unfold exactValue Tree.value
  rw [h]
  rfl

theorem exactValue_real {n : Number} (h : n.isReal = true) :
    exactValue n = match (Decimal.ofText n.text).bind (Decimal.natUpTo 2) with
      | some k => .int k
      | none => .str n.text := by
  unfold exactValue Tree.value exactHook exactJsonNumber alarmValue
  rw [h]
  rfl

theorem natUpTo_ofInt (limit : Nat) (i : Int) (k : Nat) :
    Decimal.natUpTo limit (.ofInt i) = some k ↔ i = k ∧ k ≤ limit := by
  have hsigned : signed (decide (i < 0)) i.natAbs 0 = i := by
    unfold signed
    cases i with
    | ofNat m => simp
    | negSucc m =>
      have hneg : Int.negSucc m < 0 := Int.negSucc_lt_zero m
      rw [decide_eq_true hneg, if_pos rfl, Int.natAbs_negSucc, Int.cast_negSucc]
      simp
  unfold Decimal.ofInt
  rw [natUpTo_iff, hsigned]
  exact and_congr_left fun _ => by exact_mod_cast Iff.rfl

/-- An integer that the code reads as a decimal, exactly. -/
theorem natUpTo_exactValue {n : Number} (hn : WithinLimits n) {limit : Nat}
    (hlimit : limit < 10 ^ 20) (k : Nat) :
    (decimalOf (exactValue n)).bind (Decimal.natUpTo limit) = some k ↔
      n.denotes = k ∧ k ≤ limit := by
  cases hreal : n.isReal with
  | false =>
    rw [exactValue_int hreal, denotes_int hreal]
    show Decimal.natUpTo limit (.ofInt n.toInt) = some k ↔ _
    rw [natUpTo_ofInt]
    exact and_congr_left fun _ => by exact_mod_cast Iff.rfl
  | true =>
    have hsmall := fun m => natUpTo_text hreal hn (show 2 < 10 ^ 20 by decide) m
    rw [exactValue_real hreal]
    cases htext : (Decimal.ofText n.text).bind (Decimal.natUpTo 2) with
    | none => exact natUpTo_text hreal hn hlimit k
    | some m =>
      obtain ⟨hm, hle⟩ := (hsmall m).mp htext
      show Decimal.natUpTo limit (.ofInt (m : Int)) = some k ↔ _
      rw [natUpTo_ofInt, hm]
      exact and_congr_left fun _ => by exact_mod_cast Iff.rfl

/-- A literal is handed over as its integer, or as its text when that is no enumerated number. -/
theorem exactValue_cases {n : Number} (hn : WithinLimits n) :
    (∃ i : Int, exactValue n = .int i ∧ n.denotes = i) ∨
      n.isReal = true ∧ exactValue n = .str n.text ∧ ∀ k : Nat, k ≤ 2 → n.denotes ≠ k := by
  cases hreal : n.isReal with
  | false => exact Or.inl ⟨n.toInt, exactValue_int hreal, denotes_int hreal⟩
  | true =>
    have hsmall := fun m => natUpTo_text hreal hn (show 2 < 10 ^ 20 by decide) m
    rw [exactValue_real hreal]
    cases htext : (Decimal.ofText n.text).bind (Decimal.natUpTo 2) with
    | none =>
      refine Or.inr ⟨rfl, rfl, fun k hk hden => ?_⟩
      rw [(hsmall k).mpr ⟨hden, hk⟩] at htext
      cases htext
    | some m => exact Or.inl ⟨m, rfl, by exact_mod_cast ((hsmall m).mp htext).1⟩

theorem alarmValue_exact {n : Number} (hn : WithinLimits n) (k : Nat) :
    alarmValue (exactValue n) = some k ↔ n.denotes = k ∧ k ≤ 2 := by
  rw [← natUpTo_exactValue hn (by decide)]
  rcases exactValue_cases hn with ⟨i, hi, -⟩ | ⟨-, htext, -⟩
  · rw [hi]
    rfl
  · rw [htext]
    rfl

theorem eventDatetime_exact {n : Number} (hn : WithinLimits n) (k : Nat) :
    eventDatetime (exactValue n) = some k ↔ n.denotes = k ∧ 1 ≤ k ∧ k ≤ lastSecond := by
  unfold eventDatetime
  rw [Option.filter_eq_some_iff, natUpTo_exactValue hn (by decide), decide_eq_true_eq]
  constructor
  · rintro ⟨⟨hden, hle⟩, hpos⟩
    exact ⟨hden, hpos, hle⟩
  · rintro ⟨hden, hpos, hle⟩
    exact ⟨⟨hden, hle⟩, hpos⟩

/-- A literal starts with a digit or a minus. -/
theorem text_head (n : Number) : ∃ c rest, n.text = c :: rest ∧ (asciiDigit c = true ∨ c = dash) := by
  obtain ⟨c, rest, hwhole, hc⟩ := n.whole.exists_cons
  unfold Number.text
  rw [hwhole]
  cases n.negative with
  | false => exact ⟨c, _, rfl, Or.inl hc⟩
  | true => exact ⟨dash, _, rfl, Or.inr rfl⟩

theorem real_length {n : Number} (h : n.isReal = true) : 2 ≤ n.text.length := by
  have hwhole := List.length_pos_iff.mpr n.whole.nonempty
  have hrest : 0 < n.fractionText.length + n.exponentText.length := by
    unfold Number.fractionText Number.exponentText
    rcases Bool.or_eq_true_iff.mp h with hf | he
    · obtain ⟨ds, hds⟩ := Option.isSome_iff_exists.mp hf
      rw [hds]
      simp
    · obtain ⟨e, hexp⟩ := Option.isSome_iff_exists.mp he
      rw [hexp]
      simp [Exponent.text]
  unfold Number.text
  simp only [List.length_append]
  omega

/-- The text of a number with a fraction or an exponent is no flag. -/
theorem asBool_real {n : Number} (h : n.isReal = true) : asBool (.str n.text) = none := by
  obtain ⟨c, rest, htext, hc⟩ := text_head n
  have hlen := real_length h
  have hstrip : n.text.strip = n.text :=
    strip_of_no_space fun c hc => (numberPoint_of_mem hc).1
  have hlower : lowerCodePoint c = c := by
    rcases hc with hc | rfl
    · exact lowerCodePoint_digit hc
    · decide
  have hword : ∀ {d : CodePoint} {t : Str}, asciiDigit d = false → d ≠ dash →
      c :: Str.lower rest ≠ d :: t := by
    intro d t hd hdash heq
    obtain ⟨rfl, -⟩ := List.cons.inj heq
    rcases hc with hc | hc
    · rw [hd] at hc
      cases hc
    · exact hdash hc
  have hshort : ∀ d : CodePoint, c :: Str.lower rest ≠ [d] := by
    intro d heq
    have hnil : Str.lower rest = [] := (List.cons.inj heq).2
    have hrest : rest = [] := List.map_eq_nil_iff.mp hnil
    rw [htext, hrest] at hlen
    simp at hlen
  unfold asBool
  dsimp only
  rw [hstrip, htext, show Str.lower (c :: rest) = c :: Str.lower rest from
    congrArg (· :: Str.lower rest) hlower]
  rw [if_neg, if_neg]
  · rintro (heq | heq)
    · exact hshort _ heq
    · exact hword (by decide) (by decide) heq
  · rintro (heq | heq)
    · exact hshort _ heq
    · exact hword (by decide) (by decide) heq

theorem asBool_exact {n : Number} (hn : WithinLimits n) (b : Bool) :
    asBool (exactValue n) = some b ↔ n.denotes = if b then 1 else 0 := by
  rcases exactValue_cases hn with ⟨i, hi, hden⟩ | ⟨hreal, htext, hden⟩
  · rw [hi, hden]
    unfold asBool
    dsimp only
    cases b with
    | false =>
      simp only [Bool.false_eq_true, if_false, Int.cast_eq_zero]
      by_cases hzero : i = 0
      · simp [hzero]
      · rw [if_neg hzero]
        split <;> simp [hzero]
    | true =>
      simp only [if_true, Int.cast_eq_one]
      by_cases hzero : i = 0
      · simp [hzero]
      · rw [if_neg hzero]
        split <;> simp_all
  · rw [htext, asBool_real hreal]
    refine iff_of_false (nomatch ·) fun h => ?_
    cases b with
    | false => exact hden 0 (by decide) (by simpa using h)
    | true => exact hden 1 (by decide) (by simpa using h)

/-! ## Over MQTT -/

theorem wireOf_number (n : Number) : (wireOf (.number n)).exact = exactValue n := by
  show Wire.exact (if n.isReal then .real n.text else .value (.int n.toInt)) = _
  unfold exactValue Tree.value
  cases n.isReal <;> rfl

/-- A member `value` of an object. -/
theorem bodyOf_member {ms : List (Str × Tree)} {t : Tree} (h : Tree.lastMember valueKey ms = some t) :
    bodyOfTree (.obj ms) = .object (some (wireOf t)) := by
  show Body.object ((Tree.lastMember valueKey ms).map wireOf) = _
  rw [h]
  rfl

theorem bodyOf_loads {depth : Nat} {payload : List UInt8} {text : Str} {t : Tree}
    (htext : decodeUtf8 payload = some text) (hloads : loads depth text = .ok t) :
    bodyOf depth payload = bodyOfTree t := by
  have hne : payload ≠ [] := by
    rintro rfl
    obtain rfl : [] = text := Option.some.inj htext
    cases depth <;> cases hloads
  unfold bodyOf
  rw [if_neg hne, htext]
  dsimp only
  rw [hloads]

theorem platform_sends {depth : Nat} {payload : List UInt8} {n : Number} {field : PlatformField}
    (hfield : field.isNumeric = true)
    (h : SendsBare depth payload n ∨ SendsMember depth payload n) :
    (bodyOf depth payload).platform field = some (exactValue n) := by
  rcases h with ⟨text, htext, hloads⟩ | ⟨text, ms, htext, hloads, hmember⟩
  · rw [bodyOf_loads htext hloads]
    show some (if field.isNumeric then (wireOf (.number n)).exact else _) = _
    rw [if_pos hfield, wireOf_number]
  · rw [bodyOf_loads htext hloads, bodyOf_member hmember]
    show some (if field.isNumeric then (wireOf (.number n)).exact else _) = _
    rw [if_pos hfield, wireOf_number]

theorem alarm_sends {depth : Nat} {payload : List UInt8} {n : Number}
    (h : SendsMember depth payload n) : (bodyOf depth payload).alarm = some (exactValue n) := by
  obtain ⟨text, ms, htext, hloads, hmember⟩ := h
  rw [bodyOf_loads htext hloads, bodyOf_member hmember]
  exact congrArg some (wireOf_number n)

/-! ## In a snapshot -/

theorem find_objectOf (hook : Tree.Hook) (ms : List (Str × Tree)) (k : Str) :
    Dict.find k (objectOf hook ms).entries = (Tree.lastMember k ms).map (Tree.value hook) :=
  Tree.get?_members hook ms k

theorem find_preserved {keys : List Str} (h : keys.Nodup) (exact leaves : List (Str × Value))
    (key : Str) : Dict.find key (keys.foldl (preserveLeaf exact) leaves) =
      if key ∈ keys then some (exactLeaf (Value.member key leaves) (Value.member key exact))
      else Dict.find key leaves := by
  induction keys generalizing leaves with
  | nil => rfl
  | cons k keys ih =>
    obtain ⟨hk, hkeys⟩ := List.nodup_cons.mp h
    rw [List.foldl_cons, ih hkeys]
    have hfind : Dict.find key (preserveLeaf exact leaves k) =
        if key = k then some (exactLeaf (Value.member k leaves) (Value.member k exact))
        else Dict.find key leaves := Dict.find_setEntries k key _ leaves
    by_cases hkey : key = k
    · subst hkey
      rw [if_neg hk, hfind, if_pos rfl, if_pos List.mem_cons_self]
    · have hmember : Value.member key (preserveLeaf exact leaves k) = Value.member key leaves := by
        unfold Value.member
        rw [hfind, if_neg hkey]
      rw [hmember, hfind, if_neg hkey]
      simp only [List.mem_cons, hkey, false_or]

theorem objectOf_get? (hook : Tree.Hook) (ms : List (Str × Tree)) (k : Str) :
    (objectOf hook ms).get? k = (Tree.lastMember k ms).map (Tree.value hook) :=
  Tree.get?_members hook ms k

/-- The leaves of a bucket after the second pass. -/
def preservedLeaves (bucket : Str) (ms : List (Str × Tree)) : List (Str × Value) :=
  (fractionalNotificationKeys bucket (objectOf Tree.rounded ms).entries).foldl
    (preserveLeaf (objectOf exactHook ms).entries) (objectOf Tree.rounded ms).entries

/-- A bucket after the second pass. -/
def preservedTree (bucket : Str) : Tree → Value
  | .obj ms => .dict (preservedLeaves bucket ms)
  | t => t.value Tree.rounded

/-- What the loops make of one bucket. -/
theorem get?_preserveBucket {ms : List (Str × Tree)} {data : Object} {bucket : Str}
    (hdata : data.get? bucket = (objectOf Tree.rounded ms).get? bucket) (k : Str) :
    ((selectedBucket (objectOf Tree.rounded ms) bucket).toList.foldl
      (preserveBucket (objectOf exactHook ms)) data).get? k =
        if k = bucket then (Tree.lastMember bucket ms).map (preservedTree bucket)
        else data.get? k := by
  rw [objectOf_get?] at hdata
  unfold selectedBucket
  rw [objectOf_get?]
  cases hmember : Tree.lastMember bucket ms with
  | none =>
    rw [hmember] at hdata
    show data.get? k = if k = bucket then none else data.get? k
    split
    · next hk => exact hk ▸ hdata
    · rfl
  | some t =>
    rw [hmember] at hdata
    have hsame : data.get? k = if k = bucket then some (t.value Tree.rounded) else data.get? k := by
      split
      · next hk => exact hk ▸ hdata
      · rfl
    cases t with
    | obj bs =>
      show (Option.toList (match fractionalNotificationKeys bucket (objectOf Tree.rounded bs).entries with
        | [] => none
        | keys => some (bucket, keys)) |>.foldl _ data).get? k = _
      have hleaves : preservedTree bucket (.obj bs) = .dict (preservedLeaves bucket bs) := rfl
      rw [Option.map_some, hleaves]
      unfold preservedLeaves
      cases hkeys : fractionalNotificationKeys bucket (objectOf Tree.rounded bs).entries with
      | nil => exact hsame
      | cons key keys =>
        show (preserveBucket _ data (bucket, key :: keys)).get? k = _
        unfold preserveBucket
        dsimp only
        rw [hdata, objectOf_get?, hmember]
        exact Dict.get?_set data bucket k _
    | number n =>
      rw [Option.map_some]
      show _ = if k = bucket then some (Tree.value Tree.rounded (.number n)) else data.get? k
      unfold Tree.value at hsame ⊢
      cases hreal : n.isReal <;> rw [hreal] at hsame <;> exact hsame
    | _ => exact hsame

theorem foldl_selected {ms : List (Str × Tree)} {buckets : List Str} (h : buckets.Nodup)
    {data : Object} (hdata : ∀ b ∈ buckets, data.get? b = (objectOf Tree.rounded ms).get? b)
    (k : Str) : ((buckets.filterMap (selectedBucket (objectOf Tree.rounded ms))).foldl
      (preserveBucket (objectOf exactHook ms)) data).get? k =
        if k ∈ buckets then (Tree.lastMember k ms).map (preservedTree k) else data.get? k := by
  induction buckets generalizing data with
  | nil => rfl
  | cons bucket buckets ih =>
    obtain ⟨hbucket, hbuckets⟩ := List.nodup_cons.mp h
    have hfirst := get?_preserveBucket (hdata bucket List.mem_cons_self)
    have hsplit : (bucket :: buckets).filterMap (selectedBucket (objectOf Tree.rounded ms)) =
        (selectedBucket (objectOf Tree.rounded ms) bucket).toList ++
          buckets.filterMap (selectedBucket (objectOf Tree.rounded ms)) := by
      rw [List.filterMap_cons]
      cases selectedBucket (objectOf Tree.rounded ms) bucket <;> rfl
    rw [hsplit, List.foldl_append, ih hbuckets]
    · rw [hfirst]
      by_cases hk : k = bucket
      · subst hk
        rw [if_neg hbucket, if_pos rfl, if_pos List.mem_cons_self]
      · simp only [List.mem_cons, hk, false_or, if_false]
    · intro b hb
      rw [hfirst, if_neg fun heq : b = bucket => hbucket (heq ▸ hb)]
      exact hdata b (List.mem_cons_of_mem _ hb)

/-- The buckets of a snapshot. -/
theorem get?_snapshot (ms : List (Str × Tree)) (k : Str) :
    (preserveNotificationNumbers (objectOf Tree.rounded ms) (objectOf exactHook ms)).get? k =
      (Tree.lastMember k ms).map
        (if k ∈ notificationBuckets then preservedTree k else Tree.value Tree.rounded) := by
  have hnodup : notificationBuckets.Nodup := by decide
  unfold preserveNotificationNumbers selectedKeys
  rw [foldl_selected hnodup fun b _ => rfl]
  split
  · rfl
  · exact objectOf_get? _ _ _

/-- A leaf of a bucket after the second pass. -/
def preservedLeaf (bucket key : Str) (t : Tree) : Value :=
  if isFloat (leafValue (t.value Tree.rounded)) && selectsExact bucket key then
    exactLeaf (t.value Tree.rounded) (t.value exactHook)
  else t.value Tree.rounded

theorem find_preservedLeaves (bucket : Str) (ms : List (Str × Tree)) (key : Str) :
    Dict.find key (preservedLeaves bucket ms) =
      (Tree.lastMember key ms).map (preservedLeaf bucket key) := by
  have hnodup : (fractionalNotificationKeys bucket (objectOf Tree.rounded ms).entries).Nodup :=
    (objectOf Tree.rounded ms).nodup.sublist (List.filter_sublist.map Prod.fst)
  have hmem : key ∈ fractionalNotificationKeys bucket (objectOf Tree.rounded ms).entries ↔
      ∃ t, Tree.lastMember key ms = some t ∧
        (isFloat (leafValue (t.value Tree.rounded)) && selectsExact bucket key) = true := by
    unfold fractionalNotificationKeys
    rw [List.mem_map]
    constructor
    · rintro ⟨leaf, hleaf, rfl⟩
      obtain ⟨hentry, hselects⟩ := List.mem_filter.mp hleaf
      have hget := Dict.mem_entries.mp hentry
      rw [objectOf_get?] at hget
      obtain ⟨t, ht, hvalue⟩ := Option.map_eq_some_iff.mp hget
      exact ⟨t, ht, hvalue ▸ hselects⟩
    · rintro ⟨t, ht, hselects⟩
      have hget : (objectOf Tree.rounded ms).get? key = some (t.value Tree.rounded) := by
        rw [objectOf_get?, ht]
        rfl
      exact ⟨(key, t.value Tree.rounded),
        List.mem_filter.mpr ⟨Dict.mem_entries.mpr hget, hselects⟩, rfl⟩
  unfold preservedLeaves
  rw [find_preserved hnodup, find_objectOf]
  unfold Value.member
  rw [find_objectOf, find_objectOf]
  cases hmember : Tree.lastMember key ms with
  | none =>
    rw [if_neg fun h => ?_]
    · rfl
    · obtain ⟨t, ht, -⟩ := hmem.mp h
      rw [hmember] at ht
      cases ht
  | some t =>
    rw [hmember] at hmem
    unfold preservedLeaf
    simp only [Option.map_some, Option.getD_some, hmem, Option.some.injEq, exists_eq_left']
    split <;> rfl

theorem rounded_number (n : Number) :
    (n.isReal = true ∧ ∃ x, (Tree.number n).value Tree.rounded = .float x) ∨
      isFloat ((Tree.number n).value Tree.rounded) = false ∧
        (Tree.number n).value Tree.rounded = exactValue n := by
  unfold exactValue Tree.value
  cases n.isReal with
  | false => exact Or.inr ⟨rfl, rfl⟩
  | true => exact Or.inl ⟨rfl, _, rfl⟩

theorem unwrap_exactValue (n : Number) : unwrap (exactValue n) = exactValue n := by
  unfold exactValue Tree.value exactHook exactJsonNumber
  split
  · split <;> rfl
  · rfl

/-- A notification leaf that carries a number has the exact value. -/
theorem unwrap_preserved {bucket key : Str} (hselects : selectsExact bucket key = true) {leaf : Tree}
    {n : Number} (h : Carries leaf n) : unwrap (preservedLeaf bucket key leaf) = exactValue n := by
  unfold preservedLeaf
  rw [hselects, Bool.and_true]
  rcases h with rfl | ⟨ms, rfl, hmember⟩
  · rcases rounded_number n with ⟨-, x, hx⟩ | ⟨hfloat, hx⟩
    · rw [hx]
      exact unwrap_exactValue n
    · have hleaf : isFloat (leafValue ((Tree.number n).value Tree.rounded)) = false := by
        rw [hx, ← hfloat, hx]
        unfold exactValue Tree.value exactHook exactJsonNumber
        split
        · split <;> rfl
        · rfl
      rw [hleaf, if_neg Bool.false_ne_true, hx, unwrap_exactValue]
  · have hvalue : ∀ hook, Dict.find valueKey (objectOf hook ms).entries =
        some ((Tree.number n).value hook) := by
      intro hook
      rw [find_objectOf, hmember]
      rfl
    have hleaf : ∀ hook, leafValue ((Tree.obj ms).value hook) = (Tree.number n).value hook := by
      intro hook
      show Value.member valueKey (objectOf hook ms).entries = _
      unfold Value.member
      rw [hvalue]
      rfl
    rw [hleaf]
    rcases rounded_number n with ⟨-, x, hx⟩ | ⟨hfloat, hx⟩
    · rw [hx, if_pos (show isFloat (.float x) = true from rfl)]
      show unwrap (.dict (Dict.setEntries valueKey (leafValue ((Tree.obj ms).value exactHook)) _)) = _
      rw [hleaf]
      unfold unwrap
      dsimp only
      rw [show Str.lit "value" = valueKey from rfl, Dict.find_setEntries, if_pos rfl]
      rfl
    · rw [hfloat, if_neg Bool.false_ne_true]
      show unwrap (.dict (objectOf Tree.rounded ms).entries) = _
      unfold unwrap
      dsimp only
      rw [show Str.lit "value" = valueKey from rfl, hvalue, hx]
      rfl

/-- The leaf of a snapshot after the second pass. -/
theorem snapshot_leaf {t leaf : Tree} {data : Object} (h : snapshotData t = some data)
    {bucket key : Str} (hbucket : bucket ∈ notificationBuckets)
    (hleaf : leafTree bucket key t = some leaf) :
    valueAt [.key bucket, .key key] (.dict data.entries) = some (preservedLeaf bucket key leaf) := by
  cases t with
  | obj ms =>
    obtain rfl := Option.some.inj h
    unfold leafTree at hleaf
    dsimp only at hleaf
    split at hleaf
    · next leaves hmember =>
      have hget := get?_snapshot ms bucket
      rw [hmember, if_pos hbucket] at hget
      show (Dict.find bucket _).bind (valueAt [.key key]) = _
      rw [show Dict.find bucket _ = some (preservedTree bucket (.obj leaves)) from hget]
      show (Dict.find key (preservedLeaves bucket leaves)).bind (valueAt []) = _
      rw [find_preservedLeaves, hleaf]
      rfl
    · cases hleaf
  | _ => cases h

/-! ## Other numbers -/

theorem valueAt_number {path : List Step} {v w : Value} (hv : isNumber v = true)
    (h : valueAt path v = some w) : path = [] := by
  cases path with
  | nil => rfl
  | cons step path => cases v <;> cases step <;> first | cases h | cases hv

theorem number_not_dict {es : List (Str × Value)} : isNumber (.dict es) = true → False :=
  (nomatch ·)

/-- The place of a number in a leaf that the second pass changes is the leaf's number. -/
theorem valueAt_preservedLeaf {bucket key : Str} {leaf : Tree} {path : List Step} {v : Value}
    (hbucket : bucket ∈ notificationBuckets) (hv : isNumber v = true)
    (hplace : isNotificationPlace (.key bucket :: .key key :: path) = false)
    (h : valueAt path (leaf.value Tree.rounded) = some v) :
    valueAt path (preservedLeaf bucket key leaf) = some v := by
  unfold preservedLeaf
  split
  · next hexact =>
    obtain ⟨hfloat, hselects⟩ := Bool.and_eq_true_iff.mp hexact
    generalize leaf.value Tree.rounded = raw at h hfloat
    have hnumber : ∀ {x : Value}, isFloat x = true → isNumber x = true := by
      intro x hx
      cases x <;> first | rfl | cases hx
    have hflat : isFloat raw = true → False := by
      intro hraw
      obtain rfl := valueAt_number (hnumber hraw) h
      have hflat : (decide (bucket ∈ notificationBuckets) && selectsExact bucket key) = false := hplace
      rw [hselects, decide_eq_true hbucket] at hflat
      cases hflat
    cases raw with
    | dict es =>
      cases path with
      | nil => exact absurd (Option.some.inj h ▸ hv) number_not_dict
      | cons step path =>
        cases step with
        | index i => cases h
        | key k =>
          show (Dict.find k (Dict.setEntries valueKey _ es)).bind (valueAt path) = _
          rw [Dict.find_setEntries]
          by_cases hk : k = valueKey
          · subst hk
            have hfind : (Dict.find valueKey es).bind (valueAt path) = some v := h
            obtain ⟨x, hx, hpath⟩ := Option.bind_eq_some_iff.mp hfind
            have hx' : isFloat x = true := by
              have hmember : leafValue (.dict es) = x := by
                show Value.member valueKey es = x
                unfold Value.member
                rw [hx]
                rfl
              exact hmember ▸ hfloat
            obtain rfl := valueAt_number (hnumber hx') hpath
            have hwrapped : (decide (bucket ∈ notificationBuckets) && selectsExact bucket key &&
              decide (valueKey = valueKey)) = false := hplace
            rw [hselects, decide_eq_true hbucket, decide_eq_true rfl] at hwrapped
            cases hwrapped
          · rw [if_neg hk]
            exact h
    | _ => exact absurd hfloat hflat
  · exact h

/-- Every other number of a snapshot keeps its ordinary value. -/
theorem valueAt_snapshot {ms : List (Str × Tree)} {data : Object}
    (h : snapshotData (.obj ms) = some data) {path : List Step} {v : Value} (hv : isNumber v = true)
    (hplace : isNotificationPlace path = false)
    (hpath : valueAt path ((Tree.obj ms).value Tree.rounded) = some v) :
    valueAt path (.dict data.entries) = some v := by
  obtain rfl := Option.some.inj h
  cases path with
  | nil => exact absurd (Option.some.inj hpath ▸ hv) number_not_dict
  | cons step path =>
    cases step with
    | index i => cases hpath
    | key bucket =>
      have hbefore : ((objectOf Tree.rounded ms).get? bucket).bind (valueAt path) = some v := hpath
      show (Dict.get? _ bucket).bind (valueAt path) = _
      rw [get?_snapshot]
      rw [objectOf_get?] at hbefore
      split
      · next hbucket =>
        cases hmember : Tree.lastMember bucket ms with
        | none =>
          rw [hmember] at hbefore
          cases hbefore
        | some t =>
          rw [hmember] at hbefore
          cases t with
          | obj leaves =>
            cases path with
            | nil => exact absurd (Option.some.inj hbefore ▸ hv) number_not_dict
            | cons step path =>
              cases step with
              | index i => cases hbefore
              | key key =>
                have hleaf : (Dict.find key (objectOf Tree.rounded leaves).entries).bind
                    (valueAt path) = some v := hbefore
                show (Dict.find key (preservedLeaves bucket leaves)).bind (valueAt path) = _
                rw [find_preservedLeaves]
                rw [find_objectOf] at hleaf
                cases hfind : Tree.lastMember key leaves with
                | none =>
                  rw [hfind] at hleaf
                  cases hleaf
                | some leaf =>
                  rw [hfind] at hleaf
                  exact valueAt_preservedLeaf hbucket hv hplace hleaf
          | _ => exact hbefore
      · exact hbefore

/-! ## What a literal is taken for -/

/-- The slots after a number arrived for a field of a slot. -/
def takeNumber (slots : Slots) (slot : SlotKey) (field : PlatformField) (n : Number) : Slots :=
  if validPlatformValue field (exactValue n) then
    slots.set slot ((slots.record slot).put field (exactValue n))
  else slots

/-- What the fields make of a number is what it denotes. -/
structure TakenExactly (n : Number) : Prop where
  /-- The event time, unknown unless the literal denotes it. -/
  timed : validPlatformValue .dateTime (exactValue n) = true ∧ ∀ (slot : Slot) (k : Nat),
    (slot.put .dateTime (exactValue n)).dateTime = some k ↔
      n.denotes = k ∧ 1 ≤ k ∧ k ≤ 253402300799
  /-- The types. -/
  typed : (validPlatformValue .type (exactValue n) = true ↔
      n.denotes = 0 ∨ n.denotes = 1 ∨ n.denotes = 2) ∧
    ∀ slot : Slot, validPlatformValue .type (exactValue n) = true →
      ∃ k : Int, (slot.put .type (exactValue n)).notifType = some k ∧ n.denotes = k
  /-- The flags. -/
  flagged : ∀ field ∈ [PlatformField.active, .acknowledged, .silenced],
    (validPlatformValue field (exactValue n) = true ↔ n.denotes = 0 ∨ n.denotes = 1)
  flag : ∀ b, asBool (exactValue n) = some b ↔ n.denotes = if b then 1 else 0
  /-- The alarm values. -/
  alarm : ∀ k, alarmValue (exactValue n) = some k ↔ n.denotes = k ∧ k ≤ 2

theorem denotes_upto {n : Number} (hn : WithinLimits n) : (alarmValue (exactValue n)).isSome = true ↔
    n.denotes = 0 ∨ n.denotes = 1 ∨ n.denotes = 2 := by
  rw [Option.isSome_iff_exists]
  constructor
  · rintro ⟨k, hk⟩
    obtain ⟨hden, hle⟩ := (alarmValue_exact hn k).mp hk
    rw [hden]
    interval_cases k <;> simp
  · rintro (h | h | h)
    · exact ⟨0, (alarmValue_exact hn 0).mpr ⟨by simpa using h, by decide⟩⟩
    · exact ⟨1, (alarmValue_exact hn 1).mpr ⟨by simpa using h, by decide⟩⟩
    · exact ⟨2, (alarmValue_exact hn 2).mpr ⟨by simpa using h, by decide⟩⟩

/-- A numeric value is checked by what its field reads. -/
theorem valid_exact (n : Number) : validPlatformValue .dateTime (exactValue n) = true ∧
    validPlatformValue .type (exactValue n) = (alarmValue (exactValue n)).isSome ∧
      ∀ field ∈ [PlatformField.active, .acknowledged, .silenced],
        validPlatformValue field (exactValue n) = (asBool (exactValue n)).isSome := by
  have hvalue : (∃ i, exactValue n = .int i) ∨ ∃ s, exactValue n = .str s := by
    unfold exactValue Tree.value exactHook exactJsonNumber
    split
    · split
      · exact Or.inl ⟨_, rfl⟩
      · exact Or.inr ⟨_, rfl⟩
    · exact Or.inl ⟨_, rfl⟩
  have hflags : ∀ field ∈ [PlatformField.active, .acknowledged, .silenced],
      field = .active ∨ field = .acknowledged ∨ field = .silenced := by decide
  rcases hvalue with ⟨i, hi⟩ | ⟨s, hs⟩
  · rw [hi]
    refine ⟨rfl, rfl, fun field hfield => ?_⟩
    rcases hflags field hfield with rfl | rfl | rfl <;> rfl
  · rw [hs]
    refine ⟨rfl, rfl, fun field hfield => ?_⟩
    rcases hflags field hfield with rfl | rfl | rfl <;> rfl

theorem takenExactly {n : Number} (hn : WithinLimits n) : TakenExactly n := by
  obtain ⟨htime, htype, hflags⟩ := valid_exact n
  constructor
  · refine ⟨htime, fun slot k => ?_⟩
    have hiff := eventDatetime_exact hn k
    unfold Slot.put Slot.applyDatetime
    dsimp only
    rw [← show lastSecond = 253402300799 from rfl, ← hiff]
    cases eventDatetime (exactValue n) <;> rfl
  · rw [htype]
    refine ⟨denotes_upto hn, fun slot hvalid => ?_⟩
    rcases exactValue_cases hn with ⟨i, hi, hden⟩ | ⟨-, -, hden⟩
    · exact ⟨i, by rw [hi]; rfl, hden⟩
    · obtain ⟨k, hk⟩ := Option.isSome_iff_exists.mp hvalid
      obtain ⟨heq, hle⟩ := (alarmValue_exact hn k).mp hk
      exact absurd heq (hden k hle)
  · intro field hfield
    rw [hflags field hfield, Option.isSome_iff_exists]
    constructor
    · rintro ⟨b, hb⟩
      have hden := (asBool_exact hn b).mp hb
      cases b with
      | false => exact Or.inl hden
      | true => exact Or.inr hden
    · rintro (h | h)
      · exact ⟨false, (asBool_exact hn false).mpr h⟩
      · exact ⟨true, (asBool_exact hn true).mpr h⟩
  · exact asBool_exact hn
  · exact alarmValue_exact hn

/-- Both transports hand the exact value over, and no other number of a snapshot changes. -/
structure NumbersExact (u : Unicode) (depth : Nat) (n : Number) : Prop where
  taken : TakenExactly n
  message : ∀ (limits : Limits) (b : Board) (topic : Str) (payload : List UInt8) (key : Str)
    (slot : SlotKey) (field : PlatformField),
    SendsBare depth payload n ∨ SendsMember depth payload n →
    Board.platformTopic topic = some (key, field) → parsePlatformLeafKey key = some (slot, field) →
    field.isNumeric = true →
      (b.handlePlatformNotification limits topic (bodyOf depth payload)).platformSlots =
        takeNumber b.platformSlots slot field n
  alarmMessage : ∀ (topic : Str) (payload : List UInt8), SendsMember depth payload n →
    (Board.messageReport u topic (bodyOf depth payload)).map Board.AlarmReport.value =
      alarmValue (exactValue n)
  leaf : ∀ (t leaf : Tree) (data : Object) (key : Str) (slot : SlotKey) (field : PlatformField),
    snapshotData t = some data → parsePlatformLeafKey key = some (slot, field) →
    field.isNumeric = true → leafTree platformKey key t = some leaf → Carries leaf n →
      ∃ raw, valueAt [.key platformKey, .key key] (.dict data.entries) = some raw ∧
        ∀ slots, applyPlatformField slots key (unwrap raw) = takeNumber slots slot field n
  alarmLeaf : ∀ (t leaf : Tree) (data : Object) (bucket key : Str),
    snapshotData t = some data → bucket ∈ Board.alarmBuckets →
    (Board.parseAlarmLeafKey bucket key).isSome = true → leafTree bucket key t = some leaf →
    Carries leaf n →
      ∃ raw, valueAt [.key bucket, .key key] (.dict data.entries) = some raw ∧
        (Board.leafReport u bucket (key, raw)).map Board.AlarmReport.value =
          alarmValue (exactValue n)
  others : ∀ (t : Tree) (data : Object) (path : List Step) (v : Value),
    snapshotData t = some data → isNumber v = true → isNotificationPlace path = false →
    valueAt path (t.value Tree.rounded) = some v → valueAt path (.dict data.entries) = some v

theorem showSlots_slots (limits : Limits) (b : Board) :
    (b.showSlots limits).platformSlots = b.platformSlots := by
  unfold Board.showSlots
  generalize notificationsFromPlatformSlots b.platformSlots = banners
  have hkeep : (b.keep fun id => !isPlatformId id).platformSlots = b.platformSlots := rfl
  rw [← hkeep]
  generalize b.keep (fun id => !isPlatformId id) = b'
  clear hkeep
  induction banners generalizing b' with
  | nil => rfl
  | cons banner banners ih => exact ih (b'.upsert limits banner)

theorem selectsExact_platform {key : Str} {slot : SlotKey} {field : PlatformField}
    (h : parsePlatformLeafKey key = some (slot, field)) (hfield : field.isNumeric = true) :
    selectsExact platformKey key = true := by
  unfold selectsExact
  rw [if_pos rfl, h]
  exact hfield

theorem selectsExact_alarm {bucket key : Str} (hbucket : bucket ∈ Board.alarmBuckets)
    (h : (Board.parseAlarmLeafKey bucket key).isSome = true) :
    bucket ∈ notificationBuckets ∧ selectsExact bucket key = true := by
  have hne : ∀ b ∈ Board.alarmBuckets, b ≠ platformKey := by decide
  unfold selectsExact
  rw [if_neg (hne bucket hbucket)]
  exact ⟨List.mem_cons_of_mem _ hbucket, h⟩

/-- **Numbers are exact.** -/
theorem numbers_exact (u : Unicode) (depth : Nat) {n : Number} (hn : WithinLimits n) :
    NumbersExact u depth n := by
  refine ⟨takenExactly hn, ?_, ?_, ?_, ?_, ?_⟩
  · intro limits b topic payload key slot field hsends htopic hkey hfield
    have hleaf : Board.platformLeaf topic (bodyOf depth payload) =
        if validPlatformValue field (exactValue n) then some (key, exactValue n) else none := by
      unfold Board.platformLeaf
      rw [htopic, Option.bind_some, platform_sends hfield hsends]
      rfl
    unfold Board.handlePlatformNotification takeNumber
    rw [hleaf]
    cases hvalid : validPlatformValue field (exactValue n) with
    | true =>
      rw [if_pos rfl, if_pos rfl]
      dsimp only
      rw [showSlots_slots]
      show applyPlatformField b.platformSlots key (exactValue n) = _
      unfold applyPlatformField
      rw [hkey]
      exact if_pos hvalid
    | false => rfl
  · intro topic payload hsends
    unfold Board.messageReport
    rw [alarm_sends hsends, Option.bind_some, Option.map_map]
    cases alarmValue (exactValue n) <;> rfl
  · intro t leaf data key slot field hdata hkey hfield hleaf hcarries
    refine ⟨_, snapshot_leaf hdata (by decide) hleaf, fun slots => ?_⟩
    rw [unwrap_preserved (selectsExact_platform hkey hfield) hcarries]
    unfold applyPlatformField takeNumber
    rw [hkey]
  · intro t leaf data bucket key hdata hbucket hkey hleaf hcarries
    obtain ⟨hmem, hselects⟩ := selectsExact_alarm hbucket hkey
    obtain ⟨parsed, hparsed⟩ := Option.isSome_iff_exists.mp hkey
    refine ⟨_, snapshot_leaf hdata hmem hleaf, ?_⟩
    unfold Board.leafReport
    rw [hparsed, Option.bind_some, unwrap_preserved hselects hcarries, Option.map_map]
    cases alarmValue (exactValue n) <;> rfl
  · intro t data path v hdata hv hplace hpath
    cases t with
    | obj ms => exact valueAt_snapshot hdata hv hplace hpath
    | _ => cases hdata

/-- 1.0000000000000000001, which `float` rounds to one. -/
def nearOne : Number where
  negative := false
  whole := ⟨Str.lit "1", by decide, by decide⟩
  plain := by decide
  fraction := some ⟨Str.lit "0000000000000000001", by decide, by decide⟩
  exponent := none

/-- A number next to an alarm value is none. -/
theorem numbers_exact_nearOne : NumbersExact Unicode.ascii 900 nearOne ∧
    validPlatformValue .type (exactValue nearOne) = false := by
  have hn : WithinLimits nearOne := by
    unfold WithinLimits
    rw [if_pos (by decide)]
    exact ⟨by decide, by decide⟩
  have hexact := numbers_exact Unicode.ascii 900 hn
  refine ⟨hexact, Bool.eq_false_iff.mpr fun h => ?_⟩
  have hden : nearOne.denotes = 10000000000000000001 * (10 : ℚ) ^ (-19 : Int) := by
    unfold Number.denotes
    rw [show nearOne.coefficient = 10000000000000000001 by decide,
      show nearOne.scale = -19 by decide]
    norm_num [nearOne]
  rcases (hexact.taken.typed.1.mp h) with h | h | h <;> rw [hden] at h <;> norm_num at h

end InverterDashboard.Notifications
