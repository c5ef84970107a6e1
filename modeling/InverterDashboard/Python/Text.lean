import Mathlib.Data.List.Basic
import Mathlib.Data.List.TakeWhile
import Mathlib.Tactic.NormNum

/-
  Python `str` as a list of code points, and the string methods a program that parses keys
  and numbers needs: `split`, `strip`, `lower`, `isdigit`, `int` and `str` of an integer.

  Lone surrogates are code points like any other (`json.loads` produces them), so a `str` is
  not a Lean `String`. Literals are embedded by `Str.lit`, which is injective.

  `isdigit` and `int` disagree on the digits that are not decimals (superscripts, circled
  digits), and `int` refuses more than `intMaxStrDigits` digits; both are kept.
-/

namespace Python

/-- A code point of a `str`; surrogates included. -/
abbrev CodePoint := Fin 0x110000

abbrev Str := List CodePoint

instance (priority := 2000) CodePoint.neZero : NeZero 0x110000 := ⟨by decide⟩

instance (priority := 2000) CodePoint.lawfulBEq : LawfulBEq CodePoint := inferInstance

instance (priority := 2000) Str.lawfulBEq : LawfulBEq Str := inferInstance

theorem Char.toNat_lt (c : Char) : c.toNat < 0x110000 := by
  have h := c.valid
  have e : c.toNat = c.val.toNat := rfl
  rcases h with h | h
  · rw [e]; omega
  · rw [e]; omega

def CodePoint.ofChar (c : Char) : CodePoint := ⟨c.toNat, Char.toNat_lt c⟩

theorem CodePoint.ofChar_injective : Function.Injective CodePoint.ofChar := by
  intro a b h
  have hv : a.toNat = b.toNat := Fin.mk.inj_iff.mp h
  exact Char.toNat_inj.mp hv

/-- A string literal as a `str`. -/
def Str.lit (s : String) : Str := s.toList.map CodePoint.ofChar

instance : Coe String Str := ⟨Str.lit⟩

@[simp] theorem Str.lit_inj (a b : String) : Str.lit a = Str.lit b ↔ a = b := by
  constructor
  · intro h
    exact String.toList_inj.mp (List.map_injective_iff.mpr CodePoint.ofChar_injective h)
  · rintro rfl
    rfl

/-! ## Splitting -/

def slash : CodePoint := CodePoint.ofChar '/'

/-- `s.split("/")`. -/
def Str.splitSlash (s : Str) : List Str := s.splitOn slash

/-- `"/".join(parts)`. -/
def Str.joinSlash (parts : List Str) : Str := [slash].intercalate parts

/-- `s.split("/", n)`: the first `n` separators split, the rest of the text stays whole. -/
def Str.splitSlashMax (n : Nat) (s : Str) : List Str :=
  let parts := s.splitSlash
  if parts.length ≤ n + 1 then parts
  else parts.take n ++ [Str.joinSlash (parts.drop n)]

/-- `s.split("/", 1)` of a text that contains a separator, as a pair. -/
def Str.cutSlash (s : Str) : Option (Str × Str) :=
  match s.dropWhile (· ≠ slash) with
  | [] => none
  | _ :: rest => some (s.takeWhile (· ≠ slash), rest)

theorem Str.cutSlash_append (a b : Str) (h : slash ∉ a) :
    Str.cutSlash (a ++ slash :: b) = some (a, b) := by
  have hp : ∀ c ∈ a, decide (c ≠ slash) = true := by
    intro c hc
    have hne : c ≠ slash := fun e => h (e ▸ hc)
    simpa using hne
  have hd : (a ++ slash :: b).dropWhile (· ≠ slash) = slash :: b := by
    rw [List.dropWhile_append_of_pos hp]
    simp
  have ht : (a ++ slash :: b).takeWhile (· ≠ slash) = a := by
    rw [List.takeWhile_append_of_pos hp]
    simp
  unfold Str.cutSlash
  rw [hd, ht]

theorem Str.cutSlash_eq_some {s a b : Str} (h : Str.cutSlash s = some (a, b)) :
    s = a ++ slash :: b ∧ slash ∉ a := by
  unfold Str.cutSlash at h
  split at h
  · cases h
  · next c rest hd =>
    have hc : c = slash := by
      have := List.head?_dropWhile_not (p := fun x : CodePoint => decide (x ≠ slash)) (l := s)
      rw [hd] at this
      simpa using this
    obtain ⟨rfl, rfl⟩ := Prod.mk.inj (Option.some.inj h)
    refine ⟨?_, ?_⟩
    · conv_lhs => rw [← List.takeWhile_append_dropWhile (p := (· ≠ slash)) (l := s), hd, hc]
    · intro hm
      have := List.mem_takeWhile_imp hm
      simp at this

/-! ## Whitespace and case -/

/-- `str.isspace` of one code point. -/
def isspace (c : CodePoint) : Bool :=
  (0x9 ≤ c.val ∧ c.val ≤ 0xd) ∨ (0x1c ≤ c.val ∧ c.val ≤ 0x20) ∨ c.val = 0x85 ∨ c.val = 0xa0 ∨
    c.val = 0x1680 ∨ (0x2000 ≤ c.val ∧ c.val ≤ 0x200a) ∨ c.val = 0x2028 ∨ c.val = 0x2029 ∨
    c.val = 0x202f ∨ c.val = 0x205f ∨ c.val = 0x3000

def Str.strip (s : Str) : Str := ((s.dropWhile isspace).reverse.dropWhile isspace).reverse

def Str.rstrip (s : Str) : Str := (s.reverse.dropWhile isspace).reverse

/-- A text in front that does not end in a space stays. -/
theorem Str.rstrip_append {p : Str} (hlast : p.getLast?.any (fun c => !isspace c) = true) (s : Str) :
    Str.rstrip (p ++ s) = p ++ Str.rstrip s := by
  have hback : p.reverse.dropWhile isspace = p.reverse := by
    rw [← List.head?_reverse] at hlast
    cases hp : p.reverse with
    | nil =>
      rw [hp] at hlast
      cases hlast
    | cons c q =>
      rw [hp] at hlast
      have hc : isspace c = false := by simpa using hlast
      rw [List.dropWhile_cons, hc]
      rfl
  unfold Str.rstrip
  rw [List.reverse_append, List.dropWhile_append, hback]
  split
  · next hempty => simp [List.isEmpty_iff.mp hempty]
  · simp

theorem Str.strip_append {p : Str} (hhead : p.head?.any (fun c => !isspace c) = true)
    (hlast : p.getLast?.any (fun c => !isspace c) = true) (s : Str) :
    Str.strip (p ++ s) = p ++ Str.rstrip s := by
  have hfront : (p ++ s).dropWhile isspace = p ++ s := by
    cases p with
    | nil => cases hhead
    | cons c p => simpa using hhead
  show Str.rstrip ((p ++ s).dropWhile isspace) = _
  rw [hfront, Str.rstrip_append hlast]

/-- Lower case of the ASCII letters. No other code point lower-cases to a letter the callers
    compare with, so their comparisons see what `str.lower` would show them. -/
def lowerCodePoint (c : CodePoint) : CodePoint :=
  if h : 0x41 ≤ c.val ∧ c.val ≤ 0x5a then ⟨c.val + 0x20, by omega⟩ else c

def Str.lower (s : Str) : Str := s.map lowerCodePoint

/-- `needle in s`. -/
def Str.contains (needle : Str) : Str → Bool
  | [] => needle.isEmpty
  | c :: s => needle.isPrefixOf (c :: s) || Str.contains needle s

/-! ## Digits and integers -/

/-- The code points of the decimal zeros; each is followed by its nine other digits. -/
def decimalZeros : List Nat :=
  [0x30, 0x660, 0x6f0, 0x7c0, 0x966, 0x9e6, 0xa66, 0xae6, 0xb66, 0xbe6, 0xc66, 0xce6, 0xd66,
   0xde6, 0xe50, 0xed0, 0xf20, 0x1040, 0x1090, 0x17e0, 0x1810, 0x1946, 0x19d0, 0x1a80, 0x1a90,
   0x1b50, 0x1bb0, 0x1c40, 0x1c50, 0xa620, 0xa8d0, 0xa900, 0xa9d0, 0xa9f0, 0xaa50, 0xabf0,
   0xff10, 0x104a0, 0x10d30, 0x10d40, 0x11066, 0x110f0, 0x11136, 0x111d0, 0x112f0, 0x11450,
   0x114d0, 0x11650, 0x116c0, 0x116d0, 0x116da, 0x11730, 0x118e0, 0x11950, 0x11bf0, 0x11c50,
   0x11d50, 0x11da0, 0x11f50, 0x16130, 0x16a60, 0x16ac0, 0x16b50, 0x16d70, 0x1ccf0, 0x1d7ce,
   0x1d7d8, 0x1d7e2, 0x1d7ec, 0x1d7f6, 0x1e140, 0x1e2f0, 0x1e4f0, 0x1e5f1, 0x1e950, 0x1fbf0]

/-- Digits that are not decimals, as ranges: superscripts, subscripts, circled digits. -/
def digitRanges : List (Nat × Nat) :=
  [(0xb2, 0xb3), (0xb9, 0xb9), (0x1369, 0x1371), (0x19da, 0x19da), (0x2070, 0x2070),
   (0x2074, 0x2079), (0x2080, 0x2089), (0x2460, 0x2468), (0x2474, 0x247c), (0x2488, 0x2490),
   (0x24ea, 0x24ea), (0x24f5, 0x24fd), (0x24ff, 0x24ff), (0x2776, 0x277e), (0x2780, 0x2788),
   (0x278a, 0x2792), (0x10a40, 0x10a43), (0x10e60, 0x10e68), (0x11052, 0x1105a),
   (0x1f100, 0x1f10a)]

/-- The decimal value of a code point, when it is a decimal digit. -/
def decimal? (c : CodePoint) : Option Nat :=
  (decimalZeros.find? fun z => z ≤ c.val ∧ c.val < z + 10).map fun z => c.val - z

def isdigitCodePoint (c : CodePoint) : Bool :=
  (decimal? c).isSome || digitRanges.any fun r => r.1 ≤ c.val ∧ c.val ≤ r.2

/-- `s.isdigit()`. -/
def Str.isdigit (s : Str) : Bool := !s.isEmpty && s.all isdigitCodePoint

/-- The runtime's limit on the digits `int` reads and `str` writes. -/
def intMaxStrDigits : Nat := 4300

/-- `int(s)` of a text that `isdigit` accepts: every digit a decimal, and not too many. -/
def intOfDigits (s : Str) : Option Nat :=
  if s.length ≤ intMaxStrDigits then
    (s.mapM decimal?).map (List.foldl (fun n d => 10 * n + d) 0)
  else none

/-- `str(n)`. -/
def natStr (n : Nat) : Str := (Nat.toDigits 10 n).map CodePoint.ofChar

/-- `str(i)`. -/
def intStr : Int → Str
  | .ofNat n => natStr n
  | .negSucc n => CodePoint.ofChar '-' :: natStr (n + 1)

/-- What `str(int(s))` gives back unchanged. -/
def CanonicalDecimal (s : Str) : Prop := ∃ n, intOfDigits s = some n ∧ natStr n = s

theorem CanonicalDecimal.eq_of_int_eq {s t : Str} (hs : CanonicalDecimal s)
    (ht : CanonicalDecimal t) (h : intOfDigits s = intOfDigits t) : s = t := by
  obtain ⟨n, hn, rfl⟩ := hs
  obtain ⟨m, hm, rfl⟩ := ht
  rw [hn, hm] at h
  rw [Option.some.inj h]

theorem isdigit_of_intOfDigits {s : Str} {n : Nat} (hne : s ≠ [])
    (h : intOfDigits s = some n) : s.isdigit = true := by
  unfold intOfDigits at h
  split at h
  · obtain ⟨ds, hds, -⟩ := Option.map_eq_some_iff.mp h
    have hall : s.all isdigitCodePoint = true := by
      rw [List.all_eq_true]
      intro c hc
      have hm : ∀ d ∈ s, (decimal? d).isSome := by
        clear hc h hne
        induction s generalizing ds with
        | nil => simp
        | cons a s ih =>
          intro d hd
          rw [List.mapM_cons] at hds
          obtain ⟨x, hx, hrest⟩ := Option.bind_eq_some_iff.mp hds
          obtain ⟨xs, hxs, -⟩ := Option.bind_eq_some_iff.mp hrest
          rcases List.mem_cons.mp hd with rfl | hd
          · rw [hx]; rfl
          · exact ih (by simp at *; omega) xs hxs d hd
      unfold isdigitCodePoint
      rw [hm c hc]
      rfl
    unfold Str.isdigit
    rw [hall]
    simpa using hne
  · cases h

theorem CanonicalDecimal.ne_nil {s : Str} (h : CanonicalDecimal s) : s ≠ [] := by
  obtain ⟨n, -, rfl⟩ := h
  simp [natStr, Nat.toDigits_ne_nil]

theorem CanonicalDecimal.isdigit {s : Str} (h : CanonicalDecimal s) : s.isdigit = true := by
  have hne := CanonicalDecimal.ne_nil h
  obtain ⟨n, hn, -⟩ := h
  exact isdigit_of_intOfDigits hne hn

end Python
