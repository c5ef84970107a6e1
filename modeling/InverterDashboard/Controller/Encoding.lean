import InverterDashboard.Python.Repr
import InverterDashboard.Controller.Commands

/-
  The wire text of a controller command, `json.dumps` with `ensure_ascii=False`,
  `allow_nan=False` and compact separators, and the tariff command, whose size is limited by it.
-/

namespace InverterDashboard.Controller

open Python

/-! ## Encoding -/

def hexDigit (n : Nat) : CodePoint :=
  CodePoint.ofChar (if n < 10 then Char.ofNat (0x30 + n) else Char.ofNat (0x61 + n - 10))

/-- A character inside a JSON string. -/
def escapeCodePoint (c : CodePoint) : Str :=
  if c.val = 0x22 then Str.lit "\\\""
  else if c.val = 0x5c then Str.lit "\\\\"
  else if c.val = 0x08 then Str.lit "\\b"
  else if c.val = 0x0c then Str.lit "\\f"
  else if c.val = 0x0a then Str.lit "\\n"
  else if c.val = 0x0d then Str.lit "\\r"
  else if c.val = 0x09 then Str.lit "\\t"
  else if c.val < 0x20 then Str.lit "\\u00" ++ [hexDigit (c.val / 16), hexDigit (c.val % 16)]
  else [c]

def encodeStr (s : Str) : Str := Str.lit "\"" ++ s.flatMap escapeCodePoint ++ Str.lit "\""

/-- `",".join(parts)`. -/
def joinComma (parts : List Str) : Str := (Str.lit ",").intercalate parts

mutual

/-- `encode_body`; `none` when `json.dumps` raises. -/
def encodeBody : Value → Option Str
  | .none => some (Str.lit "null")
  | .bool b => some (Str.lit (if b then "true" else "false"))
  | .int i => if (natStr i.natAbs).length ≤ intMaxStrDigits then some (intStr i) else none
  | .float x => (x.finite?).map fun q => Float64.repr (.fin q)
  | .str s => some (encodeStr s)
  | .list xs => (encodeItems xs).map fun parts => Str.lit "[" ++ joinComma parts ++ Str.lit "]"
  | .dict es => (encodeMembers es).map fun parts =>
    Str.lit "\x7b" ++ joinComma parts ++ Str.lit "\x7d"

def encodeItems : List Value → Option (List Str)
  | [] => some []
  | x :: xs => do return (← encodeBody x) :: (← encodeItems xs)

def encodeMembers : List (Str × Value) → Option (List Str)
  | [] => some []
  | (k, v) :: es => do
    return (encodeStr k ++ Str.lit ":" ++ (← encodeBody v)) :: (← encodeMembers es)

end

/-- The bytes of one code point in UTF-8; a surrogate has none. -/
def utf8Bytes (c : CodePoint) : Option Nat :=
  if c.val < 0x80 then some 1
  else if c.val < 0x800 then some 2
  else if 0xd800 ≤ c.val ∧ c.val ≤ 0xdfff then none
  else if c.val < 0x10000 then some 3
  else some 4

/-- `len(s.encode("utf-8"))`. -/
def utf8Length (s : Str) : Option Nat := (s.mapM utf8Bytes).map List.sum

/-! ## The tariff command -/

/-- `plan is None or isinstance(plan, dict)`. -/
def planValid : Value → Bool
  | .none => true
  | .dict _ => true
  | _ => false

/-- The encoded command is at most 100000 bytes. -/
def encodedSizeValid (body : Value) : Bool :=
  ((encodeBody body).bind utf8Length).any fun n => n ≤ 100000

/-- A tariff command: `validate_tariff` of its body. -/
structure TariffBody where
  plan : Value
  revision : Value
  requestId : Value
  valid : planValid plan = true ∧ revisionValid revision = true ∧ requestIdValid requestId = true

/-- `validate_tariff`; `none` is its `ValueError`. -/
def validateTariff (body : Value) : Option TariffBody := do
  let es ← body.dict?
  let p := Value.member (Str.lit "plan") es
  let r := Value.member (Str.lit "revision") es
  let i := Value.member (Str.lit "request_id") es
  if keysAre es [Str.lit "plan", Str.lit "revision", Str.lit "request_id"] &&
      encodedSizeValid body then
    if h : planValid p = true ∧ revisionValid r = true ∧ requestIdValid i = true then
      some ⟨p, r, i, h⟩
    else none
  else none

example : encodeBody (.dict [(Str.lit "value", .none), (Str.lit "request_id", .str (Str.lit "a\n"))]) =
    some (Str.lit "\x7b\"value\":null,\"request_id\":\"a\\n\"\x7d") := by rfl

end InverterDashboard.Controller
