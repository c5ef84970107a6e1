import InverterDashboard.Json.Number
import InverterDashboard.Python.Decimal
import Mathlib.Tactic.FieldSimp
import Mathlib.Tactic.Linarith
import Mathlib.Tactic.NormNum

/-
  What `Decimal` makes of a number literal: its parts as written, and so exactly the number that the
  literal denotes.

  Whether a decimal is a natural number below a limit is decided on its digits and its exponent, and
  agrees with the number (`natUpTo_iff`), for every literal within the runtime's limits
  (`natUpTo_text`).
-/

namespace Json

open Python

/-! ## Code points of a literal -/

/-- A code point that reading a number leaves as it is. -/
def NumberPoint (c : CodePoint) : Prop :=
  isspace c = false ∧ c ≠ underscore ∧ asciiCodePoint c = c

instance : DecidablePred NumberPoint := fun c =>
  inferInstanceAs (Decidable (isspace c = false ∧ c ≠ underscore ∧ asciiCodePoint c = c))

theorem exists_digit {c : CodePoint} (h : asciiDigit c = true) :
    ∃ d : Fin 10, c = CodePoint.ofChar (Nat.digitChar d) := by
  have hrange : 0x30 ≤ c.val ∧ c.val ≤ 0x39 := by simpa [asciiDigit] using h
  have hchar : ∀ d : Fin 10, (Nat.digitChar d).toNat = 0x30 + d := by decide
  refine ⟨⟨c.val - 0x30, by omega⟩, Fin.ext ?_⟩
  show c.val = (Nat.digitChar (c.val - 0x30)).toNat
  have hd := hchar ⟨c.val - 0x30, by omega⟩
  dsimp only at hd
  omega

theorem numberPoint_of_digit {c : CodePoint} (h : asciiDigit c = true) : NumberPoint c := by
  have hall : ∀ d : Fin 10, NumberPoint (CodePoint.ofChar (Nat.digitChar d)) := by decide
  obtain ⟨d, rfl⟩ := exists_digit h
  exact hall d

theorem Digits.mem (ds : Digits) {c : CodePoint} (h : c ∈ ds.text) : asciiDigit c = true :=
  List.all_eq_true.mp ds.ascii c h

theorem numberPoint_of_mem {n : Number} {c : CodePoint} (h : c ∈ n.text) : NumberPoint c := by
  unfold Number.text Number.fractionText Number.exponentText at h
  simp only [List.mem_append] at h
  rcases h with ((h | h) | h) | h
  · split at h
    · rw [List.mem_singleton.mp h]
      decide
    · cases h
  · exact numberPoint_of_digit (n.whole.mem h)
  · cases hf : n.fraction with
    | none =>
      rw [hf] at h
      cases h
    | some ds =>
      rw [hf] at h
      rcases List.mem_cons.mp (show c ∈ point :: ds.text from h) with rfl | h
      · decide
      · exact numberPoint_of_digit (ds.mem h)
  · cases he : n.exponent with
    | none =>
      rw [he] at h
      cases h
    | some e =>
      rw [he] at h
      have hmem : c ∈ CodePoint.ofChar (if e.upper then 'E' else 'e') ::
        (Exponent.signText e.sign ++ e.digits.text) := h
      rcases List.mem_cons.mp hmem with rfl | h
      · cases e.upper <;> decide
      · rcases List.mem_append.mp h with h | h
        · rcases hsign : e.sign with _ | _ | _ <;> rw [hsign] at h
          · cases h
          · rw [List.mem_singleton.mp h]
            decide
          · rw [List.mem_singleton.mp h]
            decide
        · exact numberPoint_of_digit (e.digits.mem h)

theorem strip_of_no_space {s : Str} (h : ∀ c ∈ s, isspace c = false) : s.strip = s := by
  have hdrop : ∀ t : Str, (∀ c ∈ t, isspace c = false) → t.dropWhile isspace = t := by
    intro t ht
    cases t with
    | nil => rfl
    | cons c t => rw [List.dropWhile_cons, ht c List.mem_cons_self]; rfl
  unfold Str.strip
  rw [hdrop s h, hdrop s.reverse fun c hc => h c (List.mem_reverse.mp hc), List.reverse_reverse]

/-- Nothing of a literal is changed before it is read. -/
theorem cleaned_text (n : Number) :
    (n.text.strip.filter (· ≠ underscore)).map asciiCodePoint = n.text := by
  have hplain := fun c (h : c ∈ n.text) => numberPoint_of_mem h
  rw [strip_of_no_space fun c h => (hplain c h).1,
    List.filter_eq_self.mpr fun c h => decide_eq_true (hplain c h).2.1]
  conv_rhs => rw [← List.map_id n.text]
  exact List.map_congr_left fun c h => (hplain c h).2.2

/-! ## Reading a literal -/

/-- The literal without its sign. -/
def Number.unsigned (n : Number) : Str := n.whole.text ++ (n.fractionText ++ n.exponentText)

theorem signOf_digit {c : CodePoint} (h : asciiDigit c = true) (s : Str) :
    signOf (c :: s) = (false, c :: s) := by
  have hdash : c ≠ dash := by
    rintro rfl
    exact absurd h (by decide)
  have hplus : c ≠ CodePoint.ofChar '+' := by
    rintro rfl
    exact absurd h (by decide)
  unfold signOf
  dsimp only
  rw [if_neg hdash, if_neg hplus]

theorem signOf_text (n : Number) : signOf n.text = (n.negative, n.unsigned) := by
  obtain ⟨c, rest, hwhole, hc⟩ := n.whole.exists_cons
  unfold Number.text Number.unsigned
  rw [List.append_assoc, List.append_assoc]
  cases n.negative with
  | false =>
    rw [hwhole]
    exact signOf_digit hc _
  | true => rfl

theorem signOf_exponent (sign : Option Bool) (ds : Digits) :
    signOf (Exponent.signText sign ++ ds.text) = (sign == some true, ds.text) := by
  obtain ⟨c, rest, hds, hc⟩ := ds.exists_cons
  rcases sign with _ | _ | _
  · rw [hds]
    exact signOf_digit hc _
  · rfl
  · rfl

theorem lowerCodePoint_digit {c : CodePoint} (h : asciiDigit c = true) : lowerCodePoint c = c := by
  have hrange : 0x30 ≤ c.val ∧ c.val ≤ 0x39 := by simpa [asciiDigit] using h
  unfold lowerCodePoint
  exact dif_neg (by omega)

/-- A text that starts with a digit is no word. -/
theorem not_special {c : CodePoint} (h : asciiDigit c = true) (s : Str) :
    isInfinityText (c :: s) = false ∧ Decimal.isNanText (c :: s) = false := by
  have hword : ∀ {d : CodePoint}, asciiDigit d = false → d ≠ c := by
    rintro d hd rfl
    rw [h] at hd
    cases hd
  have hlower : Str.lower (c :: s) = c :: Str.lower s := by
    show lowerCodePoint c :: _ = _
    rw [lowerCodePoint_digit h]
    rfl
  have hequal : ∀ {d : CodePoint} {t : Str}, asciiDigit d = false → c :: Str.lower s ≠ d :: t :=
    fun hd heq => hword hd (List.cons.inj heq).1.symm
  have hprefixed : ∀ {d : CodePoint} {t : Str}, asciiDigit d = false →
      (d :: t).isPrefixOf (c :: Str.lower s) = false := by
    intro d t hd
    rw [List.isPrefixOf_cons_cons, beq_eq_false_iff_ne.mpr (hword hd), Bool.false_and]
  constructor
  · unfold isInfinityText
    rw [hlower, Bool.or_eq_false_iff]
    exact ⟨decide_eq_false (hequal (by decide)), decide_eq_false (hequal (by decide))⟩
  · unfold Decimal.isNanText
    dsimp only
    rw [hlower, Bool.or_eq_false_iff]
    exact ⟨by rw [show (Str.lit "nan").isPrefixOf (c :: Str.lower s) = false from
        hprefixed (by decide), Bool.false_and],
      by rw [show (Str.lit "snan").isPrefixOf (c :: Str.lower s) = false from
        hprefixed (by decide), Bool.false_and]⟩

theorem fractionPart_text (n : Number) :
    fractionPart (n.fractionText ++ n.exponentText) = (n.fractionDigits, n.exponentText) := by
  have hexp := noDigit_exponentText n ends_nil
  rw [List.append_nil] at hexp
  obtain ⟨hdigit, hpoint⟩ := hexp
  unfold Number.fractionText Number.fractionDigits
  cases n.fraction with
  | none =>
    show fractionPart n.exponentText = ([], n.exponentText)
    cases hs : n.exponentText with
    | nil => rfl
    | cons c s =>
      rw [hs] at hpoint
      exact if_neg fun h => hpoint (congrArg some h)
  | some ds =>
    obtain ⟨htake, hdrop⟩ := takeWhile_append_of_noDigit ds.ascii hdigit
    show fractionPart (point :: (ds.text ++ n.exponentText)) = (ds.text, n.exponentText)
    unfold fractionPart
    dsimp only
    rw [show point = CodePoint.ofChar '.' from rfl, if_pos rfl, htake, hdrop]

theorem exponentPart_text (n : Number) :
    exponentPart n.exponentText = some ((n.exponent.map Exponent.value).getD 0) := by
  unfold Number.exponentText
  cases n.exponent with
  | none => rfl
  | some e =>
    show exponentPart (CodePoint.ofChar (if e.upper then 'E' else 'e') ::
      (Exponent.signText e.sign ++ e.digits.text)) = some e.value
    unfold exponentPart Exponent.value
    dsimp only
    rw [signOf_exponent]
    dsimp only
    have hmark : CodePoint.ofChar (if e.upper then 'E' else 'e') = CodePoint.ofChar 'e' ∨
        CodePoint.ofChar (if e.upper then 'E' else 'e') = CodePoint.ofChar 'E' := by
      cases e.upper <;> simp
    rw [if_pos ⟨hmark, e.digits.nonempty, e.digits.ascii⟩]
    simp only [beq_iff_eq]

theorem finiteText_text (n : Number) : finiteText n.unsigned = some (n.coefficient, n.scale) := by
  have hexp := (noDigit_exponentText n ends_nil).1
  rw [List.append_nil] at hexp
  obtain ⟨htake, hdrop⟩ :=
    takeWhile_append_of_noDigit n.whole.ascii (noDigit_fractionText n hexp)
  have hempty : n.whole.text.isEmpty = false := List.isEmpty_eq_false_iff.mpr n.whole.nonempty
  unfold finiteText Number.unsigned
  rw [htake, hdrop, fractionPart_text]
  dsimp only
  rw [exponentPart_text, hempty]
  rfl

/-- `Decimal` keeps a literal as it is, if its exponent is in range. -/
theorem ofText_text (n : Number) : Decimal.ofText n.text =
    if Decimal.inRange n.coefficient n.scale then
      some (.fin n.negative n.coefficient n.scale)
    else none := by
  obtain ⟨c, rest, hwhole, hc⟩ := n.whole.exists_cons
  have hspecial := not_special hc (rest ++ (n.fractionText ++ n.exponentText))
  have hunsigned : n.unsigned = c :: (rest ++ (n.fractionText ++ n.exponentText)) := by
    unfold Number.unsigned
    rw [hwhole]
    rfl
  unfold Decimal.ofText
  rw [cleaned_text, signOf_text]
  dsimp only
  rw [← hunsigned] at hspecial
  rw [hspecial.1, hspecial.2, finiteText_text]
  rfl

/-! ## Natural numbers below a limit -/

/-- The number that the parts of a decimal denote. -/
def signed (negative : Bool) (c : Nat) (e : Int) : ℚ :=
  (if negative then -1 else 1) * (c : ℚ) * (10 : ℚ) ^ e

theorem lt_pow_digits (n : Nat) : n < 10 ^ (Nat.toDigits 10 n).length :=
  (Nat.length_toDigits_le_iff (by decide) Nat.length_toDigits_pos).mp le_rfl

theorem pow_digits_le {n : Nat} (h : n ≠ 0) : 10 ^ ((Nat.toDigits 10 n).length - 1) ≤ n := by
  rcases Nat.eq_zero_or_pos ((Nat.toDigits 10 n).length - 1) with hlen | hlen
  · rw [hlen]
    omega
  · have hiff := Nat.length_toDigits_le_iff (n := n) (b := 10) (by decide) hlen
    omega

theorem signed_negative {c : Nat} (hc : c ≠ 0) (e : Int) (k : Nat) : signed true c e ≠ k := by
  have hpos : (0 : ℚ) < (c : ℚ) * (10 : ℚ) ^ e :=
    mul_pos (Nat.cast_pos.mpr (Nat.pos_of_ne_zero hc)) (zpow_pos (by norm_num) e)
  have hk : (0 : ℚ) ≤ k := Nat.cast_nonneg k
  unfold signed
  simp only [if_true]
  intro h
  linarith

theorem signed_nonneg (c m : Nat) : signed false c (m : Int) = ((c * 10 ^ m : Nat) : ℚ) := by
  unfold signed
  simp

theorem signed_neg_iff (c m k : Nat) : signed false c (-(m : Int)) = k ↔ c = k * 10 ^ m := by
  unfold signed
  rw [zpow_neg, zpow_natCast, ← div_eq_mul_inv, div_eq_iff (by positivity)]
  simp only [Bool.false_eq_true, if_false, one_mul]
  exact_mod_cast Iff.rfl

/-- Whether a decimal is a natural number up to a limit is what its number says. -/
theorem natUpTo_iff (limit : Nat) (negative : Bool) (c : Nat) (e : Int) (k : Nat) :
    Decimal.natUpTo limit (.fin negative c e) = some k ↔ signed negative c e = k ∧ k ≤ limit := by
  unfold Decimal.natUpTo
  dsimp only
  by_cases hc : c = 0
  · have hzero : signed negative 0 e = 0 := by simp [signed]
    rw [if_pos hc, hc, hzero, Option.some_inj]
    constructor
    · rintro rfl
      exact ⟨rfl, Nat.zero_le limit⟩
    · intro h
      exact_mod_cast h.1
  rw [if_neg hc]
  cases negative with
  | true =>
    rw [if_pos rfl]
    exact iff_of_false (nomatch ·) fun h => signed_negative hc e k h.1
  | false =>
    rw [if_neg Bool.false_ne_true]
    by_cases he : 0 ≤ e
    · obtain ⟨m, rfl⟩ := Int.eq_ofNat_of_zero_le he
      have hcast : signed false c (m : Int) = k ↔ c * 10 ^ m = k := by
        rw [signed_nonneg]
        exact Nat.cast_inj
      rw [if_pos he, Int.toNat_natCast, hcast]
      by_cases hlong : (Nat.toDigits 10 limit).length < m
      · -- Already the power of ten is above the limit.
        have hpow : 10 ^ (Nat.toDigits 10 limit).length ≤ 10 ^ m :=
          Nat.pow_le_pow_right (by decide) hlong.le
        have hlimit := lt_pow_digits limit
        have hmul : 10 ^ m ≤ c * 10 ^ m := Nat.le_mul_of_pos_left _ (Nat.pos_of_ne_zero hc)
        rw [if_pos hlong]
        exact iff_of_false (nomatch ·) fun h => by omega
      · rw [if_neg hlong]
        split
        · next hle =>
          rw [Option.some_inj]
          exact ⟨fun h => ⟨h, h ▸ hle⟩, fun h => h.1⟩
        · next hle => exact iff_of_false (nomatch ·) fun h => hle (h.1 ▸ h.2)
    · obtain ⟨m, rfl⟩ : ∃ m : Nat, e = -(m : Int) := ⟨(-e).toNat, by omega⟩
      rw [if_neg he, neg_neg, Int.toNat_natCast, signed_neg_iff]
      have hpow : 0 < 10 ^ m := Nat.pow_pos (by decide)
      by_cases hshort : (Nat.toDigits 10 c).length ≤ m
      · -- With fewer digits than places the number is between zero and one.
        have hlt : c < 10 ^ m := (lt_pow_digits c).trans_le (Nat.pow_le_pow_right (by decide) hshort)
        rw [if_pos hshort]
        refine iff_of_false (nomatch ·) fun h => ?_
        rcases Nat.eq_zero_or_pos k with rfl | hk
        · exact hc (by simpa using h.1)
        · have hmul : 10 ^ m ≤ k * 10 ^ m := Nat.le_mul_of_pos_left _ hk
          omega
      · rw [if_neg hshort]
        split
        · next h =>
          obtain ⟨hmod, hle⟩ := h
          have hdiv : c / 10 ^ m * 10 ^ m = c := Nat.div_mul_cancel (Nat.dvd_of_mod_eq_zero hmod)
          rw [Option.some_inj]
          constructor
          · rintro rfl
            exact ⟨hdiv.symm, hle⟩
          · intro h
            rw [h.1]
            exact Nat.mul_div_cancel k hpow
        · next h =>
          refine iff_of_false (nomatch ·) fun h' => h ?_
          rw [h'.1]
          exact ⟨Nat.mul_mod_left k _, by rw [Nat.mul_div_cancel k hpow]; exact h'.2⟩

/-! ## The limits of the runtime -/

/-- `MAX_PREC`: the digits that `Decimal` holds. -/
def maxPrec : Nat := 999999999999999999

/-- A literal within the limits: `int` converts it, or `Decimal` holds its digits and, for a zero,
    its exponent. -/
def WithinLimits (n : Number) : Prop :=
  if n.isReal then (Nat.toDigits 10 n.coefficient).length ≤ maxPrec ∧
    (n.coefficient = 0 → Decimal.inRange 0 n.scale = true)
  else n.whole.text.length ≤ intMaxStrDigits

/-- A decimal whose exponent is out of range is no natural number below a limit of few digits. -/
theorem signed_out_of_range {negative : Bool} {c : Nat} {e : Int} (hc : c ≠ 0)
    (hdigits : (Nat.toDigits 10 c).length ≤ maxPrec) (h : Decimal.inRange c e = false) {k : Nat}
    (hk : k < 10 ^ 20) : signed negative c e ≠ k := by
  cases negative with
  | true => exact signed_negative hc e k
  | false =>
    have hrange : e < -1999999999999999997 ∨
        1000000000000000000 < e + (Nat.toDigits 10 c).length := by
      unfold Decimal.inRange at h
      rw [decide_eq_false_iff_not] at h
      omega
    unfold maxPrec at hdigits
    rcases hrange with hsmall | hlarge
    · obtain ⟨m, rfl⟩ : ∃ m : Nat, e = -(m : Int) := ⟨(-e).toNat, by omega⟩
      rw [Ne, signed_neg_iff]
      rintro rfl
      have hlt := lt_pow_digits (k * 10 ^ m)
      have hpow : 10 ^ (Nat.toDigits 10 (k * 10 ^ m)).length ≤ 10 ^ m :=
        Nat.pow_le_pow_right (by decide) (by omega)
      have hmul : 10 ^ m ≤ k * 10 ^ m :=
        Nat.le_mul_of_pos_left _ (Nat.pos_of_ne_zero fun hk => hc (by rw [hk, Nat.zero_mul]))
      omega
    · intro heq
      have hlow : ((10 ^ ((Nat.toDigits 10 c).length - 1) : Nat) : ℚ) ≤ c :=
        Nat.cast_le.mpr (pow_digits_le hc)
      have hpow : (10 : ℚ) ^ (20 : Int) ≤
          (10 : ℚ) ^ (((Nat.toDigits 10 c).length - 1 : Nat) + e) :=
        zpow_le_zpow_right₀ (by norm_num) (by omega)
      rw [zpow_add₀ (by norm_num), zpow_natCast] at hpow
      have hmul : (10 : ℚ) ^ ((Nat.toDigits 10 c).length - 1) * (10 : ℚ) ^ e ≤ c * (10 : ℚ) ^ e :=
        mul_le_mul_of_nonneg_right (by exact_mod_cast hlow) (zpow_pos (by norm_num) e).le
      have hbound : ((10 ^ 20 : Nat) : ℚ) ≤ k := by
        rw [← heq]
        unfold signed
        simp only [Bool.false_eq_true, if_false, one_mul]
        exact le_trans (by norm_num) (hpow.trans hmul)
      exact absurd (Nat.cast_le.mp hbound) (by omega)

/-- The exact reading of a literal with a fraction or an exponent. -/
theorem natUpTo_text {n : Number} (hreal : n.isReal = true) (hn : WithinLimits n) {limit : Nat}
    (hlimit : limit < 10 ^ 20) (k : Nat) :
    (Decimal.ofText n.text).bind (Decimal.natUpTo limit) = some k ↔ n.denotes = k ∧ k ≤ limit := by
  unfold WithinLimits at hn
  rw [if_pos hreal] at hn
  rw [ofText_text]
  cases hrange : Decimal.inRange n.coefficient n.scale with
  | true => exact natUpTo_iff limit n.negative n.coefficient n.scale k
  | false =>
    refine iff_of_false (nomatch ·) fun h => ?_
    have hc : n.coefficient ≠ 0 := by
      intro hzero
      rw [hzero, hn.2 hzero] at hrange
      cases hrange
    exact signed_out_of_range hc hn.1 hrange (h.2.trans_lt hlimit) h.1

/-- A literal without a fraction or an exponent denotes its integer. -/
theorem denotes_int {n : Number} (h : n.isReal = false) : n.denotes = n.toInt := by
  obtain ⟨hfraction, hexponent⟩ := Bool.or_eq_false_iff.mp h
  unfold Number.denotes Number.toInt Number.coefficient Number.scale Number.fractionDigits
  rw [Option.not_isSome_iff_eq_none.mp (Bool.eq_false_iff.mp hfraction),
    Option.not_isSome_iff_eq_none.mp (Bool.eq_false_iff.mp hexponent)]
  cases n.negative <;> simp

end Json
