import InverterDashboard.Python.Value

/-
  Bytes of texts: `str.encode`, the text `json.dumps` writes for strings, and
  `hashlib.sha256(...).hexdigest()`.

  UTF-8 has no form for a lone surrogate, so `utf8` fails on a text that holds one.
-/

namespace Python

/-! ## UTF-8 -/

/-- The UTF-8 bytes of a code point; none for a surrogate. -/
def utf8CodePoint (c : CodePoint) : Option (List UInt8) :=
  let n := c.val
  let tail := fun k => UInt8.ofNat (0x80 + (n >>> k) % 0x40)
  if n < 0x80 then some [UInt8.ofNat n]
  else if n < 0x800 then some [UInt8.ofNat (0xc0 + n >>> 6), tail 0]
  else if 0xd800 ≤ n ∧ n < 0xe000 then none
  else if n < 0x10000 then some [UInt8.ofNat (0xe0 + n >>> 12), tail 6, tail 0]
  else some [UInt8.ofNat (0xf0 + n >>> 18), tail 12, tail 6, tail 0]

/-- `s.encode()`; `none` is `UnicodeEncodeError`. -/
def Str.utf8 (s : Str) : Option (List UInt8) := (s.mapM utf8CodePoint).map List.flatten

/-! ## JSON texts -/

def hexDigit (n : Nat) : CodePoint := CodePoint.ofChar (Nat.digitChar n)

def backslash : CodePoint := CodePoint.ofChar '\\'

/-- What `json.dumps(..., ensure_ascii=False)` writes for one code point of a string. -/
def jsonCodePoint (c : CodePoint) : Str :=
  if c = CodePoint.ofChar '"' then Str.lit "\\\""
  else if c = backslash then Str.lit "\\\\"
  else if c.val = 0x08 then Str.lit "\\b"
  else if c.val = 0x09 then Str.lit "\\t"
  else if c.val = 0x0a then Str.lit "\\n"
  else if c.val = 0x0c then Str.lit "\\f"
  else if c.val = 0x0d then Str.lit "\\r"
  else if c.val < 0x20 then Str.lit "\\u00" ++ [hexDigit (c.val / 16), hexDigit (c.val % 16)]
  else [c]

def jsonStr (s : Str) : Str := Str.lit "\"" ++ s.flatMap jsonCodePoint ++ Str.lit "\""

def comma : Str := Str.lit ","

/-- A JSON array of texts that are written already, with the separator `","`. -/
def jsonArray (items : List Str) : Str := Str.lit "[" ++ comma.intercalate items ++ Str.lit "]"

/-- A JSON object, with the separators `","` and `":"`. -/
def jsonObject (members : List (Str × Str)) : Str :=
  Str.lit "\x7b" ++ comma.intercalate (members.map fun m => jsonStr m.1 ++ Str.lit ":" ++ m.2) ++
    Str.lit "\x7d"

/-! ## SHA-256 -/

namespace Sha256

abbrev Word := BitVec 32

def initial : List Word :=
  [0x6a09e667, 0xbb67ae85, 0x3c6ef372, 0xa54ff53a, 0x510e527f, 0x9b05688c, 0x1f83d9ab, 0x5be0cd19]

def roundConstants : List Word :=
  [0x428a2f98, 0x71374491, 0xb5c0fbcf, 0xe9b5dba5, 0x3956c25b, 0x59f111f1, 0x923f82a4, 0xab1c5ed5,
   0xd807aa98, 0x12835b01, 0x243185be, 0x550c7dc3, 0x72be5d74, 0x80deb1fe, 0x9bdc06a7, 0xc19bf174,
   0xe49b69c1, 0xefbe4786, 0x0fc19dc6, 0x240ca1cc, 0x2de92c6f, 0x4a7484aa, 0x5cb0a9dc, 0x76f988da,
   0x983e5152, 0xa831c66d, 0xb00327c8, 0xbf597fc7, 0xc6e00bf3, 0xd5a79147, 0x06ca6351, 0x14292967,
   0x27b70a85, 0x2e1b2138, 0x4d2c6dfc, 0x53380d13, 0x650a7354, 0x766a0abb, 0x81c2c92e, 0x92722c85,
   0xa2bfe8a1, 0xa81a664b, 0xc24b8b70, 0xc76c51a3, 0xd192e819, 0xd6990624, 0xf40e3585, 0x106aa070,
   0x19a4c116, 0x1e376c08, 0x2748774c, 0x34b0bcb5, 0x391c0cb3, 0x4ed8aa4a, 0x5b9cca4f, 0x682e6ff3,
   0x748f82ee, 0x78a5636f, 0x84c87814, 0x8cc70208, 0x90befffa, 0xa4506ceb, 0xbef9a3f7, 0xc67178f2]

/-- The `n` big-endian bytes of a number. -/
def bigEndian (n x : Nat) : List UInt8 :=
  (List.range n).reverse.map fun i => UInt8.ofNat (x >>> (8 * i))

/-- The message with its padding: whole blocks of 64 bytes. -/
def pad (m : List UInt8) : List UInt8 :=
  m ++ [0x80] ++ List.replicate ((119 - m.length % 64) % 64) 0 ++ bigEndian 8 (8 * m.length)

/-- The `i`th big-endian word of some bytes. -/
def wordAt (bytes : List UInt8) (i : Nat) : Word :=
  ((bytes.drop (4 * i)).take 4).foldl (fun w b => w <<< 8 ||| BitVec.ofNat 32 b.toNat) 0

/-- The next word of the message schedule, which is kept latest first. -/
def extend (w : List Word) : List Word :=
  let s0 := let x := w.getD 14 0; x.rotateRight 7 ^^^ x.rotateRight 18 ^^^ x >>> 3
  let s1 := let x := w.getD 1 0; x.rotateRight 17 ^^^ x.rotateRight 19 ^^^ x >>> 10
  (w.getD 15 0 + s0 + w.getD 6 0 + s1) :: w

def schedule (bytes : List UInt8) (block : Nat) : List Word :=
  (Nat.iterate extend 48 ((List.range 16).map fun i => wordAt bytes (16 * block + i)).reverse).reverse

def round (h : List Word) (kw : Word × Word) : List Word :=
  match h with
  | [a, b, c, d, e, f, g, h] =>
    let s1 := e.rotateRight 6 ^^^ e.rotateRight 11 ^^^ e.rotateRight 25
    let t1 := h + s1 + ((e &&& f) ^^^ (~~~e &&& g)) + kw.1 + kw.2
    let s0 := a.rotateRight 2 ^^^ a.rotateRight 13 ^^^ a.rotateRight 22
    let t2 := s0 + ((a &&& b) ^^^ (a &&& c) ^^^ (b &&& c))
    [t1 + t2, a, b, c, d + t1, e, f, g]
  | _ => h

def compress (bytes : List UInt8) (h : List Word) (block : Nat) : List Word :=
  List.zipWith (· + ·) h ((roundConstants.zip (schedule bytes block)).foldl round h)

def digest (m : List UInt8) : List Word :=
  let bytes := pad m
  (List.range (bytes.length / 64)).foldl (compress bytes) initial

end Sha256

/-- `hashlib.sha256(m).hexdigest()`. -/
def sha256Hex (m : List UInt8) : Str :=
  (Sha256.digest m).flatMap fun w =>
    (List.range 8).reverse.map fun i => hexDigit ((w.toNat >>> (4 * i)) % 16)

end Python
