import Mathlib.Data.Rat.Floor
import Mathlib.Tactic.NormNum

/-
  Python `float` (IEEE 754 binary64) on exact rationals. A finite float is the rational it
  denotes; every operation is the exact rational operation followed by `ofRat`, which rounds
  to nearest, ties to even, with gradual underflow and overflow to an infinity.

  The two zeros are one value here: only the text of a float would tell them apart.
-/

namespace Python

inductive Float64 where
  | nan
  | inf (negative : Bool)
  | fin (q : ℚ)
  deriving DecidableEq

namespace Float64

/-- `n / d * 2^(-e)` as a numerator and a denominator. -/
def scale (n d : Nat) (e : Int) : Nat × Nat :=
  if 0 ≤ e then (n, d * 2 ^ e.toNat) else (n * 2 ^ (-e).toNat, d)

/-- The quotient of two naturals, rounded to nearest, ties to even. -/
def roundDiv (a b : Nat) : Nat :=
  let m := a / b
  let r := a % b
  if b < 2 * r ∨ (2 * r = b ∧ m % 2 = 1) then m + 1 else m

/-- The exponent of the last place of the float next to `n / d`. -/
def lastPlace (n d : Nat) : Int :=
  let l : Int := (Nat.log2 n : Int) - Nat.log2 d
  let top := if (scale n d l).1 < (scale n d l).2 then l - 1 else l
  max (top - 52) (-1074)

/-- The float nearest to `q`. -/
def ofRat (q : ℚ) : Float64 :=
  let n := q.num.natAbs
  let e := lastPlace n q.den
  let m := roundDiv (scale n q.den e).1 (scale n q.den e).2
  let magnitude : ℚ := if 0 ≤ e then (m * 2 ^ e.toNat : Nat) else mkRat m (2 ^ (-e).toNat)
  if (2 ^ 1024 : ℚ) ≤ magnitude then .inf (q < 0)
  else .fin (if q < 0 then -magnitude else magnitude)

/-- The value of a finite float. -/
def finite? : Float64 → Option ℚ
  | .fin q => some q
  | _ => none

/-- `float(i)` of an integer; `none` is `OverflowError`. -/
def ofInt? (i : Int) : Option Float64 :=
  match ofRat i with
  | .fin q => some (.fin q)
  | _ => none

def neg : Float64 → Float64
  | .nan => .nan
  | .inf s => .inf (!s)
  | .fin q => .fin (-q)

def add : Float64 → Float64 → Float64
  | .nan, _ => .nan
  | _, .nan => .nan
  | .inf s, .inf t => if s = t then .inf s else .nan
  | .inf s, .fin _ => .inf s
  | .fin _, .inf t => .inf t
  | .fin p, .fin q => ofRat (p + q)

def sub (x y : Float64) : Float64 := add x (neg y)

def mul : Float64 → Float64 → Float64
  | .nan, _ => .nan
  | _, .nan => .nan
  | .inf s, .inf t => .inf (s != t)
  | .inf s, .fin q => if q = 0 then .nan else .inf (s != decide (q < 0))
  | .fin p, .inf t => if p = 0 then .nan else .inf (decide (p < 0) != t)
  | .fin p, .fin q => ofRat (p * q)

/-- Division by a nonzero finite float, the only kind the program performs. -/
def divFin : Float64 → ℚ → Float64
  | .nan, _ => .nan
  | .inf s, q => .inf (s != decide (q < 0))
  | .fin p, q => ofRat (p / q)

def lt : Float64 → Float64 → Bool
  | .nan, _ => false
  | _, .nan => false
  | .inf s, .inf t => s && !t
  | .inf s, .fin _ => s
  | .fin _, .inf t => !t
  | .fin p, .fin q => p < q

def abs : Float64 → Float64
  | .nan => .nan
  | .inf _ => .inf false
  | .fin q => .fin |q|

/-- One step of the compensated summation behind `sum`. -/
def compensate (hi lo x : Float64) : Float64 × Float64 :=
  let t := add hi x
  let err := if lt (abs hi) (abs x) then add (sub x t) hi else add (sub hi t) x
  (t, add lo err)

/-- `sum` of a nonempty list of floats: Neumaier's compensated sum. -/
def sum : List Float64 → Float64
  | [] => .fin 0
  | x :: xs =>
    let (hi, lo) := xs.foldl (fun a y => compensate a.1 a.2 y) (x, .fin 0)
    match lo with
    | .fin c => if c = 0 then hi else add hi (.fin c)
    | _ => hi

/-! ## Finite results -/

/-- Finite floats are below the overflow threshold. -/
theorem abs_lt_of_ofRat {q p : ℚ} (h : ofRat q = .fin p) : |p| < 2 ^ 1024 := by
  unfold ofRat at h
  extract_lets n e m magnitude at h
  have hnonneg : 0 ≤ magnitude := by
    show (0 : ℚ) ≤ if 0 ≤ e then ((m * 2 ^ e.toNat : Nat) : ℚ) else mkRat m (2 ^ (-e).toNat)
    split
    · exact Nat.cast_nonneg _
    · rw [Rat.mkRat_eq_div]
      exact div_nonneg (Nat.cast_nonneg _) (Nat.cast_nonneg _)
  by_cases hlarge : 2 ^ 1024 ≤ magnitude
  · rw [if_pos hlarge] at h
    cases h
  · rw [if_neg hlarge] at h
    obtain rfl := Float64.fin.inj h
    refine lt_of_eq_of_lt ?_ (not_le.mp hlarge)
    split
    · rw [abs_neg, abs_of_nonneg hnonneg]
    · exact abs_of_nonneg hnonneg

theorem abs_lt_of_mul {x y : Float64} {p : ℚ} (h : mul x y = .fin p) : |p| < 2 ^ 1024 := by
  unfold mul at h
  split at h
  case h_6 => exact abs_lt_of_ofRat h
  all_goals first
    | cases h
    | split at h <;> cases h

/-! ## Integers -/

theorem roundDiv_one (a : Nat) : roundDiv a 1 = a := by
  unfold roundDiv
  simp [Nat.mod_one]

/-- The last place of an integer of at most 53 bits is not above its units. -/
theorem lastPlace_nat {n : Nat} (h : n < 2 ^ 53) : lastPlace n 1 ≤ 0 := by
  have hlog : Nat.log2 n < 53 ∨ n = 0 := by
    rcases Nat.eq_zero_or_pos n with hn | hn
    · exact Or.inr hn
    · exact Or.inl ((Nat.log2_lt (Nat.pos_iff_ne_zero.mp hn)).mpr h)
  have hone : Nat.log2 1 = 0 := rfl
  have hzero : Nat.log2 0 = 0 := rfl
  unfold lastPlace
  simp only [hone]
  split <;> rcases hlog with hlog | rfl <;> omega

/-- An integer of at most 53 bits is a float. -/
theorem ofRat_int {i : Int} (h : i.natAbs < 2 ^ 53) : ofRat i = .fin i := by
  unfold ofRat
  extract_lets n e m magnitude
  have hn : n = i.natAbs := by
    show (i : ℚ).num.natAbs = _
    rw [Rat.num_intCast]
  have hm : m = roundDiv (scale i.natAbs 1 e).1 (scale i.natAbs 1 e).2 := by
    show roundDiv (scale n (i : ℚ).den e).1 (scale n (i : ℚ).den e).2 = _
    rw [hn, Rat.den_intCast]
  have he : e ≤ 0 := by
    show lastPlace n (i : ℚ).den ≤ 0
    rw [hn, Rat.den_intCast]
    exact lastPlace_nat h
  have hmagnitude : magnitude = i.natAbs := by
    show (if 0 ≤ e then ((m * 2 ^ e.toNat : Nat) : ℚ) else mkRat m (2 ^ (-e).toNat)) = _
    rw [hm]
    unfold scale
    split
    · next hpos =>
      obtain hzero : e = 0 := le_antisymm he hpos
      rw [hzero]
      simp [roundDiv_one]
    · next hneg =>
      rw [roundDiv_one, Rat.mkRat_eq_div]
      push_cast
      rw [mul_div_cancel_right₀ _ (pow_ne_zero _ two_ne_zero), Nat.cast_natAbs, Int.cast_abs]
  have hlt : ¬ (2 ^ 1024 : ℚ) ≤ magnitude := by
    have hpow : ∀ k : Nat, 53 ≤ k → (i.natAbs : ℚ) < 2 ^ k := by
      intro k hk
      calc (i.natAbs : ℚ) < ((2 ^ 53 : Nat) : ℚ) := Nat.cast_lt.mpr h
        _ = 2 ^ 53 := by push_cast; rfl
        _ ≤ 2 ^ k := pow_le_pow_right₀ one_le_two hk
    rw [hmagnitude, not_le]
    exact hpow 1024 (by decide)
  rw [if_neg hlt, hmagnitude, Nat.cast_natAbs]
  congr 1
  split
  · next hneg =>
    rw [abs_of_neg (by exact_mod_cast hneg)]
    simp
  · next hpos => rw [abs_of_nonneg (by exact_mod_cast not_lt.mp hpos)]

/-! ## Bounds -/

theorem roundDiv_le {a b n : Nat} (hb : 0 < b) (h : a ≤ n * b) : roundDiv a b ≤ n := by
  have hdiv : a / b ≤ n := Nat.div_le_of_le_mul (by rwa [Nat.mul_comm])
  have hmod := Nat.div_add_mod a b
  unfold roundDiv
  dsimp only
  split
  · next hup =>
    -- Rounding up leaves a remainder, so that the quotient was below the bound.
    refine Nat.lt_of_le_of_ne hdiv fun heq => ?_
    rw [heq, Nat.mul_comm] at hmod
    omega
  · exact hdiv

theorem le_roundDiv {a b n : Nat} (hb : 0 < b) (h : n * b ≤ a) : n ≤ roundDiv a b := by
  have hdiv : n ≤ a / b := (Nat.le_div_iff_mul_le hb).mpr h
  unfold roundDiv
  dsimp only
  split
  · exact Nat.le_succ_of_le hdiv
  · exact hdiv

/-- The last place of a number below `2^53` is not above its units. -/
theorem lastPlace_le {n d : Nat} (h : n < 2 ^ 53 * d) : lastPlace n d ≤ 0 := by
  have hbits : Nat.log2 n ≤ Nat.log2 d + 53 := by
    rcases Nat.eq_zero_or_pos n with rfl | hn
    · exact Nat.zero_le _
    · have hlog : Nat.log2 n < Nat.log2 d + 1 + 53 := by
        rw [Nat.log2_lt (Nat.pos_iff_ne_zero.mp hn), pow_add]
        calc n < 2 ^ 53 * d := h
          _ ≤ 2 ^ 53 * 2 ^ (Nat.log2 d + 1) := Nat.mul_le_mul_left _ (Nat.lt_log2_self).le
          _ = 2 ^ (Nat.log2 d + 1) * 2 ^ 53 := Nat.mul_comm _ _
      omega
  unfold lastPlace
  dsimp only
  split
  · omega
  · next hscale =>
    have htop : (Nat.log2 n : Int) - Nat.log2 d ≠ 53 := by
      intro hl
      rw [hl] at hscale
      refine hscale ?_
      show n < d * 2 ^ 53
      rwa [Nat.mul_comm]
    omega

/-- Rounding does not cross an integer of at most 53 bits. -/
theorem ofRat_between {q : ℚ} {a b : Nat} (hb : b < 2 ^ 53) (hlow : (a : ℚ) ≤ q)
    (hhigh : q ≤ b) : ∃ p, ofRat q = .fin p ∧ (a : ℚ) ≤ p ∧ p ≤ b := by
  have hq : 0 ≤ q := (Nat.cast_nonneg a).trans hlow
  have hden : 0 < q.den := q.den_pos
  have hnum : (q.num.natAbs : ℚ) = q * q.den := by
    rw [Rat.mul_den_eq_num, Nat.cast_natAbs, abs_of_nonneg (Rat.num_nonneg.mpr hq)]
  have hbelow : a * q.den ≤ q.num.natAbs := by
    have : (a : ℚ) * q.den ≤ q.num.natAbs := by
      rw [hnum]
      exact mul_le_mul_of_nonneg_right hlow (Nat.cast_nonneg _)
    exact_mod_cast this
  have habove : q.num.natAbs ≤ b * q.den := by
    have : (q.num.natAbs : ℚ) ≤ b * q.den := by
      rw [hnum]
      exact mul_le_mul_of_nonneg_right hhigh (Nat.cast_nonneg _)
    exact_mod_cast this
  unfold ofRat
  extract_lets n e m magnitude
  have he : e ≤ 0 := lastPlace_le
    (habove.trans_lt (Nat.mul_lt_mul_of_pos_right hb hden))
  obtain ⟨k, hk⟩ : ∃ k, k = (-e).toNat := ⟨_, rfl⟩
  have hscale : scale n q.den e = (n * 2 ^ k, q.den) := by
    unfold scale
    rw [hk]
    split
    · next hpos =>
      obtain hzero : e = 0 := le_antisymm he hpos
      rw [hzero]
      simp
    · rfl
  have hmagnitude : magnitude = m / 2 ^ k := by
    show (if 0 ≤ e then ((m * 2 ^ e.toNat : Nat) : ℚ) else mkRat m (2 ^ (-e).toNat)) = _
    rw [hk]
    split
    · next hpos =>
      obtain hzero : e = 0 := le_antisymm he hpos
      rw [hzero]
      simp
    · rw [Rat.mkRat_eq_div]
      push_cast
      rfl
  have hm : m = roundDiv (n * 2 ^ k) q.den := by
    show roundDiv (scale n q.den e).1 (scale n q.den e).2 = _
    rw [hscale]
  have hpow : (0 : ℚ) < 2 ^ k := pow_pos two_pos k
  have hfirst : (a : ℚ) ≤ magnitude := by
    rw [hmagnitude, le_div_iff₀ hpow, hm]
    have : a * 2 ^ k ≤ roundDiv (n * 2 ^ k) q.den := by
      refine le_roundDiv hden ?_
      calc a * 2 ^ k * q.den = a * q.den * 2 ^ k := by ring
        _ ≤ n * 2 ^ k := Nat.mul_le_mul_right _ hbelow
    exact_mod_cast this
  have hlast : magnitude ≤ b := by
    rw [hmagnitude, div_le_iff₀ hpow, hm]
    have : roundDiv (n * 2 ^ k) q.den ≤ b * 2 ^ k := by
      refine roundDiv_le hden ?_
      calc n * 2 ^ k ≤ b * q.den * 2 ^ k := Nat.mul_le_mul_right _ habove
        _ = b * 2 ^ k * q.den := by ring
    exact_mod_cast this
  have hfinite : ¬ (2 ^ 1024 : ℚ) ≤ magnitude := by
    rw [not_le]
    calc magnitude ≤ b := hlast
      _ < ((2 ^ 53 : Nat) : ℚ) := Nat.cast_lt.mpr hb
      _ = 2 ^ 53 := by push_cast; rfl
      _ ≤ 2 ^ 1024 := pow_le_pow_right₀ one_le_two (by decide)
  rw [if_neg hfinite, if_neg (not_lt.mpr hq)]
  exact ⟨magnitude, rfl, hfirst, hlast⟩

end Float64

end Python
