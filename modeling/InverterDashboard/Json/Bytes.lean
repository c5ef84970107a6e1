import InverterDashboard.Json.Text

/-
  How many bytes a text has in UTF-8, and the text that `json.dumps(..., ensure_ascii=False)`
  writes for it.

  A text without surrogates has bytes, and their number is a sum over its code points
  (`Scalar.utf8`). A quoted text has at most six times as many bytes as the text has code points,
  beside the quotes (`byteLength_jsonStr_le`).
-/

namespace Json

open Python

/-! ## Definitions -/

/-- The bytes of a code point in UTF-8. -/
def width (c : CodePoint) : Nat :=
  if c.val < 0x80 then 1 else if c.val < 0x800 then 2 else if c.val < 0x10000 then 3 else 4

/-- The bytes of a text in UTF-8. -/
def byteLength (s : Str) : Nat := (s.map width).sum

/-! ## Texts without surrogates -/

theorem scalar_iff (s : Str) : Scalar s ↔ ∀ c ∈ s, ¬ (0xd800 ≤ c.val ∧ c.val < 0xe000) := by
  refine forall₂_congr fun c _ => ?_
  unfold isHigh isLow
  rw [decide_eq_false_iff_not, decide_eq_false_iff_not]
  omega

theorem scalar_append {s t : Str} : Scalar (s ++ t) ↔ Scalar s ∧ Scalar t :=
  List.forall_mem_append

theorem Scalar.of_subset {s t : Str} (h : Scalar t) (hsub : s ⊆ t) : Scalar s :=
  fun c hc => h c (hsub hc)

/-- Characters are no surrogates. -/
theorem scalar_ofChar (chars : List Char) : Scalar (chars.map CodePoint.ofChar) := by
  rw [scalar_iff]
  intro c hc
  obtain ⟨ch, -, rfl⟩ := List.mem_map.mp hc
  have hvalid : ch.toNat < 0xd800 ∨ 0xdfff < ch.toNat ∧ ch.toNat < 0x110000 := ch.valid
  unfold CodePoint.ofChar
  dsimp only
  omega

theorem scalar_lit (s : String) : Scalar (Str.lit s) := scalar_ofChar s.toList

theorem scalar_natStr (n : Nat) : Scalar (natStr n) := scalar_ofChar _

theorem scalar_intStr (i : Int) : Scalar (intStr i) := by
  cases i with
  | ofNat n => exact scalar_natStr n
  | negSucc n => exact scalar_append.mpr ⟨scalar_lit "-", scalar_natStr _⟩

theorem scalar_jsonCodePoint {c : CodePoint} (h : Scalar [c]) : Scalar (jsonCodePoint c) := by
  unfold jsonCodePoint
  split_ifs
  all_goals first
    | exact scalar_lit _
    | exact scalar_append.mpr ⟨scalar_lit _, scalar_ofChar [_, _]⟩
    | exact h

theorem Scalar.jsonStr {s : Str} (h : Scalar s) : Scalar (jsonStr s) := by
  have hbody : Scalar (s.flatMap jsonCodePoint) := by
    intro c hc
    obtain ⟨d, hd, hcd⟩ := List.mem_flatMap.mp hc
    exact scalar_jsonCodePoint (h.of_subset (List.cons_subset.mpr ⟨hd, List.nil_subset s⟩)) c hcd
  exact scalar_append.mpr ⟨scalar_append.mpr ⟨scalar_lit _, hbody⟩, scalar_lit _⟩

theorem scalar_intercalate {sep : Str} (hsep : Scalar sep) {texts : List Str}
    (h : ∀ text ∈ texts, Scalar text) : Scalar (sep.intercalate texts) := by
  induction texts with
  | nil => exact fun c hc => absurd hc List.not_mem_nil
  | cons text texts ih =>
    obtain ⟨htext, htexts⟩ := List.forall_mem_cons.mp h
    by_cases hne : texts = []
    · rw [hne, List.intercalate_singleton]
      exact htext
    · rw [List.intercalate_cons_of_ne_nil hne]
      exact scalar_append.mpr ⟨scalar_append.mpr ⟨htext, hsep⟩, ih htexts⟩

theorem scalar_jsonArray {items : List Str} (h : ∀ item ∈ items, Scalar item) :
    Scalar (jsonArray items) :=
  scalar_append.mpr ⟨scalar_append.mpr ⟨scalar_lit _, scalar_intercalate (scalar_lit _) h⟩,
    scalar_lit _⟩

theorem scalar_jsonObject {members : List (Str × Str)}
    (h : ∀ m ∈ members, Scalar m.1 ∧ Scalar m.2) : Scalar (jsonObject members) := by
  have hmembers : ∀ text ∈ members.map fun m => Python.jsonStr m.1 ++ Str.lit ":" ++ m.2,
      Scalar text := by
    intro text htext
    obtain ⟨m, hm, rfl⟩ := List.mem_map.mp htext
    exact scalar_append.mpr ⟨scalar_append.mpr ⟨(h m hm).1.jsonStr, scalar_lit _⟩, (h m hm).2⟩
  exact scalar_append.mpr ⟨scalar_append.mpr ⟨scalar_lit _,
    scalar_intercalate (scalar_lit _) hmembers⟩, scalar_lit _⟩

/-! ## Bytes -/

theorem utf8CodePoint_length {c : CodePoint} (h : ¬ (0xd800 ≤ c.val ∧ c.val < 0xe000)) :
    ∃ bytes, utf8CodePoint c = some bytes ∧ bytes.length = width c := by
  unfold utf8CodePoint width
  dsimp only
  rw [if_neg h]
  split_ifs
  all_goals exact ⟨_, rfl, rfl⟩

/-- A text without surrogates has as many bytes as its code points have together. -/
theorem Scalar.utf8 {s : Str} (h : Scalar s) : s.utf8.map List.length = some (byteLength s) := by
  have hpoints : ∃ parts, s.mapM utf8CodePoint = some parts ∧
      (parts.map List.length) = s.map width := by
    rw [scalar_iff] at h
    induction s with
    | nil => exact ⟨[], rfl, rfl⟩
    | cons c s ih =>
      obtain ⟨hc, hs⟩ := List.forall_mem_cons.mp h
      obtain ⟨bytes, hbytes, hlength⟩ := utf8CodePoint_length hc
      obtain ⟨parts, hparts, hlengths⟩ := ih hs
      refine ⟨bytes :: parts, ?_, ?_⟩
      · rw [List.mapM_cons, hbytes, hparts]
        rfl
      · rw [List.map_cons, List.map_cons, hlength, hlengths]
  obtain ⟨parts, hparts, hlengths⟩ := hpoints
  unfold Str.utf8 byteLength
  rw [hparts, Option.map_some, Option.map_some, List.length_flatten, hlengths]

@[simp] theorem byteLength_append (s t : Str) :
    byteLength (s ++ t) = byteLength s + byteLength t := by
  unfold byteLength
  rw [List.map_append, List.sum_append]

theorem width_le (c : CodePoint) : width c ≤ 4 := by
  unfold width
  split_ifs <;> decide

theorem byteLength_le (s : Str) : byteLength s ≤ 4 * s.length := by
  induction s with
  | nil => exact le_rfl
  | cons c s ih =>
    have hwidth := width_le c
    unfold byteLength at ih ⊢
    rw [List.map_cons, List.sum_cons, List.length_cons]
    omega

/-- A digit has one byte. -/
theorem byteLength_natStr (n : Nat) : byteLength (natStr n) = (Nat.toDigits 10 n).length := by
  have hone : ∀ d ∈ Nat.toDigits 10 n, width (CodePoint.ofChar d) = 1 := by
    intro d hd
    have hdigit := Nat.isDigit_of_mem_toDigits (by decide) (by decide) hd
    rw [Char.isDigit_iff_toNat] at hdigit
    have hascii : (CodePoint.ofChar d).val < 0x80 := lt_of_le_of_lt hdigit.2 (by decide)
    exact if_pos hascii
  unfold byteLength natStr
  have hones : (Nat.toDigits 10 n).map (width ∘ CodePoint.ofChar) =
      List.replicate (Nat.toDigits 10 n).length 1 :=
    List.map_eq_replicate_iff.mpr hone
  rw [List.map_map, hones, List.sum_replicate_nat, Nat.mul_one]

theorem byteLength_jsonCodePoint_le (c : CodePoint) : byteLength (jsonCodePoint c) ≤ 6 := by
  have hhex : ∀ n : Fin 16, width (hexDigit n) = 1 := by decide
  unfold jsonCodePoint
  split_ifs with _ _ _ _ _ _ _ hcontrol
  · decide
  · decide
  · decide
  · decide
  · decide
  · decide
  · decide
  · have hfirst := hhex ⟨c.val / 16, by omega⟩
    have hsecond := hhex ⟨c.val % 16, by omega⟩
    have hprefix : byteLength (Str.lit "\\u00") = 4 := by decide
    rw [byteLength_append, hprefix]
    unfold byteLength
    simp only [List.map_cons, List.map_nil, List.sum_cons, List.sum_nil, hfirst, hsecond]
    decide
  · have hwidth := width_le c
    unfold byteLength
    simp only [List.map_cons, List.map_nil, List.sum_cons, List.sum_nil]
    omega

theorem byteLength_jsonStr_le (s : Str) : byteLength (jsonStr s) ≤ 2 + 6 * s.length := by
  have hbody : byteLength (s.flatMap jsonCodePoint) ≤ 6 * s.length := by
    induction s with
    | nil => exact le_rfl
    | cons c s ih =>
      have hpoint := byteLength_jsonCodePoint_le c
      rw [List.flatMap_cons, byteLength_append, List.length_cons]
      omega
  have hquote : byteLength (Str.lit "\"") = 1 := by decide
  unfold jsonStr
  rw [byteLength_append, byteLength_append, hquote]
  omega

end Json
