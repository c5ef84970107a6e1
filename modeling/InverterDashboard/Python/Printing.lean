import InverterDashboard.Python.Repr

/-
  `str` and `repr` of the values that `json.loads` produces.

  Which code points are printable or have case, and what their upper case is, comes from the
  Unicode database, a parameter here.
-/

namespace Python

/-- What the program reads of the Unicode database. -/
structure Unicode where
  printable : CodePoint → Bool
  isUpper : CodePoint → Bool
  isLower : CodePoint → Bool
  upper : CodePoint → Str

/-- The database as far as ASCII goes. -/
def Unicode.ascii : Unicode where
  printable c := 0x20 ≤ c.val ∧ c.val < 0x7f
  isUpper c := 0x41 ≤ c.val ∧ c.val ≤ 0x5a
  isLower c := 0x61 ≤ c.val ∧ c.val ≤ 0x7a
  upper c := if h : 0x61 ≤ c.val ∧ c.val ≤ 0x7a then [⟨c.val - 0x20, by omega⟩] else [c]

variable (u : Unicode)

/-- `width` hexadecimal digits of a code point, after a mark. -/
def hexEscape (mark : String) (width : Nat) (c : CodePoint) : Str :=
  let digits := (Nat.toDigits 16 c.val).map CodePoint.ofChar
  Str.lit mark ++ List.replicate (width - digits.length) (CodePoint.ofChar '0') ++ digits

/-- A code point inside a quoted text. -/
def reprCodePoint (quote c : CodePoint) : Str :=
  if c = quote ∨ c = CodePoint.ofChar '\\' then [CodePoint.ofChar '\\', c]
  else if c.val = 0x9 then Str.lit "\\t"
  else if c.val = 0xa then Str.lit "\\n"
  else if c.val = 0xd then Str.lit "\\r"
  else if 0x20 ≤ c.val ∧ c.val < 0x7f then [c]
  else if c.val ≤ 0x7f then hexEscape "\\x" 2 c
  else if u.printable c then [c]
  else if c.val ≤ 0xff then hexEscape "\\x" 2 c
  else if c.val ≤ 0xffff then hexEscape "\\u" 4 c
  else hexEscape "\\U" 8 c

/-- `repr(s)`. -/
def Str.repr (s : Str) : Str :=
  let single := CodePoint.ofChar '\''
  let double := CodePoint.ofChar '"'
  let quote := if single ∈ s ∧ double ∉ s then double else single
  quote :: s.flatMap (reprCodePoint u quote) ++ [quote]

/-- Entries separated by a comma and a blank. -/
def commaSeparated (parts : List Str) : Str := (Str.lit ", ").intercalate parts

namespace Value

mutual

/-- `repr(v)`. -/
def repr : Value → Str
  | .none => Str.lit "None"
  | .bool b => Str.lit (if b then "True" else "False")
  | .int i => intStr i
  | .float x => x.repr
  | .str s => s.repr u
  | .list xs => Str.lit "[" ++ commaSeparated (reprItems xs) ++ Str.lit "]"
  | .dict es => Str.lit "\x7b" ++ commaSeparated (reprMembers es) ++ Str.lit "\x7d"

def reprItems : List Value → List Str
  | [] => []
  | v :: vs => repr v :: reprItems vs

def reprMembers : List (Str × Value) → List Str
  | [] => []
  | (k, v) :: es => (k.repr u ++ Str.lit ": " ++ repr v) :: reprMembers es

end

/-- `str(v)`. -/
def text : Value → Str
  | .str s => s
  | v => v.repr u

/-- `bool(v)`. -/
def truthy : Value → Bool
  | .none => false
  | .bool b => b
  | .int i => i ≠ 0
  | .float (.fin q) => q ≠ 0
  | .float _ => true
  | .str s => !s.isEmpty
  | .list xs => !xs.isEmpty
  | .dict es => !es.isEmpty

/-- `str(v or default)`. -/
def textOr (v : Value) (default : Str) : Str := if v.truthy then v.text u else default

end Value

end Python
