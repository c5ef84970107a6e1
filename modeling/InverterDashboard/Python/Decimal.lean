import InverterDashboard.Python.DateTime
import InverterDashboard.Python.Value

/-
  Numbers read from texts: `decimal.Decimal(s)`, exactly, and `float(s)`, rounded.

  A finite number keeps the coefficient and the exponent of its text, so that an exponent of any
  size is a value and never a computation.
-/

namespace Python

/-- A number that `Decimal` holds. The infinities and NaNs are one value: no caller tells them
    apart. -/
inductive Decimal where
  | special
  | fin (negative : Bool) (coefficient : Nat) (exponent : Int)
  deriving DecidableEq

/-! ## Texts -/

def underscore : CodePoint := CodePoint.ofChar '_'

/-- A decimal digit of any script as its ASCII digit; other code points stay. -/
def asciiCodePoint (c : CodePoint) : CodePoint :=
  match decimal? c with
  | some d => CodePoint.ofChar (Nat.digitChar d)
  | none => c

/-- A sign, and what follows it. -/
def signOf : Str → Bool × Str
  | [] => (false, [])
  | c :: s =>
    if c = dash then (true, s)
    else if c = CodePoint.ofChar '+' then (false, s)
    else (false, c :: s)

/-- An exponent part, or nothing. -/
def exponentPart : Str → Option Int
  | [] => some 0
  | mark :: s =>
    let (negative, ds) := signOf s
    if (mark = CodePoint.ofChar 'e' ∨ mark = CodePoint.ofChar 'E') ∧ ds ≠ [] ∧ ds.all asciiDigit then
      some (if negative then -(asciiNat ds : Int) else asciiNat ds)
    else none

/-- What follows the digits before the point: digits after a point, and the rest. -/
def fractionPart : Str → Str × Str
  | [] => ([], [])
  | c :: s =>
    if c = CodePoint.ofChar '.' then (s.takeWhile asciiDigit, s.dropWhile asciiDigit)
    else ([], c :: s)

/-- An unsigned finite number: coefficient and exponent. -/
def finiteText (s : Str) : Option (Nat × Int) :=
  let whole := s.takeWhile asciiDigit
  let (fraction, rest) := fractionPart (s.dropWhile asciiDigit)
  if whole.isEmpty && fraction.isEmpty then none
  else (exponentPart rest).map fun e => (asciiNat (whole ++ fraction), e - fraction.length)

/-- `inf` or `infinity`. -/
def isInfinityText (s : Str) : Bool :=
  s.lower = Str.lit "inf" || s.lower = Str.lit "infinity"

/-! ## Decimals -/

namespace Decimal

/-- The exponents a decimal can have: outside them the conversion is not exact and is refused. -/
def inRange (coefficient : Nat) (exponent : Int) : Bool :=
  -1999999999999999997 ≤ exponent ∧
    exponent + (Nat.toDigits 10 coefficient).length ≤ 1000000000000000000

/-- `nan` or `snan`, with or without a payload. -/
def isNanText (s : Str) : Bool :=
  let s := s.lower
  let payload := fun (name : String) => (Str.lit name).isPrefixOf s &&
    (s.drop (Str.lit name).length).all asciiDigit
  payload "nan" || payload "snan"

/-- `Decimal(s)`; `none` is `InvalidOperation`. -/
def ofText (s : Str) : Option Decimal :=
  let (negative, s) := signOf ((s.strip.filter (· ≠ underscore)).map asciiCodePoint)
  if isInfinityText s || isNanText s then some .special
  else match finiteText s with
    | some (c, e) => if inRange c e then some (.fin negative c e) else none
    | none => none

def ofInt (i : Int) : Decimal := .fin (i < 0) i.natAbs 0

/-- `Decimal(x)` of a float: its exact value, since its denominator is a power of two. -/
def ofFloat : Float64 → Decimal
  | .fin q =>
    let k := Nat.log2 q.den
    .fin (q < 0) (q.num.natAbs * 5 ^ k) (-k)
  | _ => .special

/-- The natural number that a decimal is, if it is one and not above the limit. -/
def natUpTo (limit : Nat) : Decimal → Option Nat
  | .special => none
  | .fin negative c e =>
    if c = 0 then some 0
    else if negative then none
    else if 0 ≤ e then
      -- Ten to a larger exponent is above the limit.
      if (Nat.toDigits 10 limit).length < e.toNat then none
      else if c * 10 ^ e.toNat ≤ limit then some (c * 10 ^ e.toNat) else none
    else
      let k := (-e).toNat
      -- With fewer digits than places it is a fraction.
      if (Nat.toDigits 10 c).length ≤ k then none
      else if c % 10 ^ k = 0 ∧ c / 10 ^ k ≤ limit then some (c / 10 ^ k) else none

end Decimal

/-! ## Floats -/

namespace Float64

/-- `c * 10 ^ e`, rounded. Beyond 400 places it is infinite or zero. -/
def ofScientific (negative : Bool) (c : Nat) (e : Int) : Float64 :=
  let top := e + (Nat.toDigits 10 c).length
  if c = 0 ∨ top < -400 then .fin 0
  else if 400 < top then .inf negative
  else
    let q : ℚ := if 0 ≤ e then (c * 10 ^ e.toNat : Nat) else mkRat c (10 ^ (-e).toNat)
    ofRat (if negative then -q else q)

/-- An underscore that is not between two digits. -/
def misplacedUnderscore : Str → Bool
  | [] => false
  | c :: s =>
    (c = underscore && !(s.head?.any asciiDigit)) ||
    (s.head? = some underscore && !asciiDigit c) || misplacedUnderscore s

/-- `float(s)`; `none` is `ValueError`. -/
def ofText (s : Str) : Option Float64 :=
  let s := s.strip.map asciiCodePoint
  if s.head? = some underscore || misplacedUnderscore s then none
  else
    let (negative, s) := signOf (s.filter (· ≠ underscore))
    if isInfinityText s then some (.inf negative)
    else if s.lower = Str.lit "nan" then some .nan
    else (finiteText s).map fun x => ofScientific negative x.1 x.2

/-- `int(x)`; `none` is `ValueError` or `OverflowError`. -/
def toInt? : Float64 → Option Int
  | .fin q => some (q.num.tdiv q.den)
  | _ => none

end Float64

/-! ## Integers -/

/-- `int(s)`; `none` is `ValueError`. -/
def Str.toInt? (s : Str) : Option Int :=
  let s := s.strip.map asciiCodePoint
  if s.head? = some underscore || Float64.misplacedUnderscore s then none
  else
    let (negative, ds) := signOf (s.filter (· ≠ underscore))
    if ds.isEmpty || !ds.all asciiDigit || intMaxStrDigits < ds.length then none
    else some (if negative then -(asciiNat ds : Int) else asciiNat ds)

/-- `s.rsplit("-", 1)` of a text with a dash. -/
def Str.cutLastDash (s : Str) : Option (Str × Str) :=
  match s.reverse.dropWhile (· ≠ dash) with
  | [] => none
  | _ :: front => some (front.reverse, (s.reverse.takeWhile (· ≠ dash)).reverse)

end Python
