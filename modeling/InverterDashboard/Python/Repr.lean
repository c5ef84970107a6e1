import InverterDashboard.Python.Value

/-
  Decimal texts of floats: `repr` (the shortest text that reads back) and the format `:g`.

  Both start from `significand n q`, the `n` significant digits nearest to `q` with the decimal
  exponent of the first one; they differ in how many digits they ask for and in when they
  switch to an exponent.
-/

namespace Python

namespace Float64

/-- `10 ^ k`. -/
def pow10 (k : Int) : ℚ := if 0 ≤ k then (10 ^ k.toNat : Nat) else mkRat 1 (10 ^ (-k).toNat)

/-- The `k` with `10 ^ k ≤ q < 10 ^ (k + 1)`, for a positive `q`. -/
def decimalExponent (q : ℚ) : Int :=
  if 1 ≤ q then (Nat.toDigits 10 q.floor.toNat).length - 1
  else
    let r := (1 / q).ceil.toNat
    let len := (Nat.toDigits 10 r).length
    Int.negOfNat (if 10 ^ (len - 1) = r then len - 1 else len)

/-- `n` significant digits nearest to a positive `q`, and the exponent of the first. -/
def significand (n : Nat) (q : ℚ) : Nat × Int :=
  let k := decimalExponent q
  let x := q / pow10 (k - n + 1)
  let d := roundDiv x.num.natAbs x.den
  if d = 10 ^ n then (10 ^ (n - 1), k + 1) else (d, k)

/-- The fewest significant digits that read back as `q`. -/
def shortest (q : ℚ) : Nat × Int :=
  ((List.range 17).findSome? fun i =>
    let (d, k) := significand (i + 1) q
    if ofRat (d * pow10 (k - i)) = .fin q then some (d, k) else none).getD (significand 17 q)

/-- The digits without their trailing zeros. -/
def digitText (d : Nat) : Str :=
  ((natStr d).reverse.dropWhile (· = CodePoint.ofChar '0')).reverse

def zeros (n : Nat) : Str := List.replicate n (CodePoint.ofChar '0')

/-- Digits in positional notation, with the fraction part kept apart. -/
def positional (ds : Str) (k : Int) : Str × Str :=
  if 0 ≤ k then
    let whole := k.toNat + 1
    (ds.take whole ++ zeros (whole - ds.length), ds.drop whole)
  else (Str.lit "0", zeros ((-k).toNat - 1) ++ ds)

/-- Digits in exponent notation. -/
def scientific (ds : Str) (k : Int) : Str :=
  let frac := if ds.length ≤ 1 then [] else Str.lit "." ++ ds.drop 1
  let e := natStr k.natAbs
  ds.take 1 ++ frac ++ Str.lit (if k < 0 then "e-" else "e+") ++ zeros (2 - e.length) ++ e

/-- `repr(q)` of a positive finite float. -/
def reprPos (q : ℚ) : Str :=
  let (d, k) := shortest q
  let ds := digitText d
  if -4 ≤ k ∧ k < 16 then
    let (whole, frac) := positional ds k
    whole ++ Str.lit "." ++ (if frac.isEmpty then Str.lit "0" else frac)
  else scientific ds k

/-- `f"{q:g}"` of a positive finite float. -/
def formatPos (q : ℚ) : Str :=
  let (d, k) := significand 6 q
  let ds := digitText d
  if -4 ≤ k ∧ k < 6 then
    let (whole, frac) := positional ds k
    if frac.isEmpty then whole else whole ++ Str.lit "." ++ frac
  else scientific ds k

def repr : Float64 → Str
  | .nan => Str.lit "nan"
  | .inf s => Str.lit (if s then "-inf" else "inf")
  | .fin q =>
    if q = 0 then Str.lit "0.0"
    else if q < 0 then Str.lit "-" ++ reprPos (-q) else reprPos q

/-- `f"{x:g}"`. -/
def formatG : Float64 → Str
  | .nan => Str.lit "nan"
  | .inf s => Str.lit (if s then "-inf" else "inf")
  | .fin q =>
    if q = 0 then Str.lit "0"
    else if q < 0 then Str.lit "-" ++ formatPos (-q) else formatPos q

end Float64

end Python
