import InverterDashboard.Python.DateTime
import Mathlib.Data.Rat.Defs
import Mathlib.Algebra.Order.Ring.Rat
import Mathlib.Algebra.Field.Rat

/-
  JSON number literals: their parts, their text, the number they denote, and how the scanner
  reads them (`_match_number`).

  A literal keeps its digits, so what it denotes is exact. The scanner takes as much of a text as
  makes a literal (`scanNumber_text`): a point without a digit after it, or an exponent mark
  without one, is left over.
-/

namespace Json

open Python

/-! ## Literals -/

/-- ASCII digits, at least one. -/
structure Digits where
  text : Str
  nonempty : text ≠ []
  ascii : text.all asciiDigit = true
  deriving DecidableEq

def zeroDigit : CodePoint := CodePoint.ofChar '0'

def point : CodePoint := CodePoint.ofChar '.'

/-- An exponent. -/
structure Exponent where
  upper : Bool
  /-- The sign as written: `some true` is a minus. -/
  sign : Option Bool
  digits : Digits
  deriving DecidableEq

/-- A number literal. -/
structure Number where
  negative : Bool
  whole : Digits
  /-- No other digit follows a zero in front. -/
  plain : whole.text.head? = some zeroDigit → whole.text.length = 1
  fraction : Option Digits
  exponent : Option Exponent
  deriving DecidableEq

namespace Exponent

def signText : Option Bool → Str
  | none => []
  | some true => Str.lit "-"
  | some false => Str.lit "+"

def text (e : Exponent) : Str :=
  CodePoint.ofChar (if e.upper then 'E' else 'e') :: signText e.sign ++ e.digits.text

def value (e : Exponent) : Int :=
  if e.sign = some true then -(asciiNat e.digits.text : Int) else asciiNat e.digits.text

end Exponent

namespace Number

variable (n : Number)

def fractionDigits : Str := (n.fraction.map Digits.text).getD []

def fractionText : Str := (n.fraction.map fun ds => point :: ds.text).getD []

def exponentText : Str := (n.exponent.map Exponent.text).getD []

/-- The literal. -/
def text : Str :=
  (if n.negative then [dash] else []) ++ n.whole.text ++ n.fractionText ++ n.exponentText

/-- The literal has a fraction or an exponent. -/
def isReal : Bool := n.fraction.isSome || n.exponent.isSome

/-- The digits as a natural number. -/
def coefficient : Nat := asciiNat (n.whole.text ++ n.fractionDigits)

/-- The power of ten that the coefficient counts. -/
def scale : Int := (n.exponent.map Exponent.value).getD 0 - n.fractionDigits.length

/-- The number that the literal denotes. -/
def denotes : ℚ :=
  (if n.negative then -1 else 1) * (n.coefficient : ℚ) * (10 : ℚ) ^ n.scale

/-- `int(...)` of the literal. -/
def toInt : Int := if n.negative then -(asciiNat n.whole.text : Int) else asciiNat n.whole.text

end Number

/-! ## Scanning -/

/-- The digits in front of a text. -/
def scanDigits (s : Str) : Option (Digits × Str) :=
  if h : s.takeWhile asciiDigit = [] then none
  else some (⟨s.takeWhile asciiDigit, h, List.all_takeWhile⟩, s.dropWhile asciiDigit)

theorem scanDigits_head {s rest : Str} {ds : Digits} (h : scanDigits s = some (ds, rest)) :
    ds.text.head? = s.head? := by
  unfold scanDigits at h
  split at h
  · cases h
  · next hne =>
    obtain ⟨rfl, rfl⟩ := Prod.mk.inj (Option.some.inj h)
    cases s with
    | nil => exact absurd rfl hne
    | cons c s =>
      show (List.takeWhile asciiDigit (c :: s)).head? = some c
      rw [List.takeWhile_cons] at hne ⊢
      split
      · rfl
      · next hc => exact absurd (if_neg hc) hne

/-- A zero, or digits that do not start with one. -/
def scanWhole (s : Str) :
    Option ({ds : Digits // ds.text.head? = some zeroDigit → ds.text.length = 1} × Str) :=
  if hzero : s.head? = some zeroDigit then
    some (⟨⟨[zeroDigit], by decide, by decide⟩, fun _ => rfl⟩, s.tail)
  else
    match h : scanDigits s with
    | some (ds, rest) => some (⟨ds, fun hd => absurd (scanDigits_head h ▸ hd) hzero⟩, rest)
    | none => none

/-- A point with digits after it. -/
def scanFraction (s : Str) : Option Digits × Str :=
  if s.head? = some point then
    match scanDigits s.tail with
    | some (ds, rest) => (some ds, rest)
    | none => (none, s)
  else (none, s)

/-- A sign of an exponent. -/
def scanSign (s : Str) : Option Bool × Str :=
  if s.head? = some dash then (some true, s.tail)
  else if s.head? = some (CodePoint.ofChar '+') then (some false, s.tail)
  else (none, s)

/-- A mark with digits after it. -/
def scanExponent (s : Str) : Option Exponent × Str :=
  if s.head? = some (CodePoint.ofChar 'e') ∨ s.head? = some (CodePoint.ofChar 'E') then
    match scanDigits (scanSign s.tail).2 with
    | some (ds, rest) =>
      (some ⟨s.head? = some (CodePoint.ofChar 'E'), (scanSign s.tail).1, ds⟩, rest)
    | none => (none, s)
  else (none, s)

/-- `_match_number`: the literal in front of a text, and the rest. -/
def scanNumber (s : Str) : Option (Number × Str) :=
  let negative : Bool := s.head? = some dash
  match scanWhole (if negative then s.tail else s) with
  | some (whole, s) =>
    let (fraction, s) := scanFraction s
    let (exponent, s) := scanExponent s
    some (⟨negative, whole.1, whole.2, fraction, exponent⟩, s)
  | none => none

/-! ## What is left over -/

theorem scanDigits_rest {s rest : Str} {ds : Digits} (h : scanDigits s = some (ds, rest)) :
    s = ds.text ++ rest := by
  unfold scanDigits at h
  split at h
  · cases h
  · obtain ⟨rfl, rfl⟩ := Prod.mk.inj (Option.some.inj h)
    exact List.takeWhile_append_dropWhile.symm

theorem scanWhole_rest {s rest : Str} {whole} (h : scanWhole s = some (whole, rest)) :
    s = whole.1.text ++ rest := by
  unfold scanWhole at h
  split at h
  · next hzero =>
    obtain ⟨rfl, rfl⟩ := Prod.mk.inj (Option.some.inj h)
    exact List.eq_cons_of_mem_head? hzero
  · split at h
    · next hscan =>
      obtain ⟨rfl, rfl⟩ := Prod.mk.inj (Option.some.inj h)
      exact scanDigits_rest hscan
    · cases h

theorem scanFraction_rest (s : Str) : (scanFraction s).2 <:+ s := by
  unfold scanFraction
  split
  · split
    · next hscan =>
      have htail : s.tail <:+ s := List.tail_suffix s
      rw [scanDigits_rest hscan] at htail
      exact (List.suffix_append _ _).trans htail
    · exact List.suffix_refl s
  · exact List.suffix_refl s

theorem scanSign_rest (s : Str) : (scanSign s).2 <:+ s := by
  unfold scanSign
  split
  · exact List.tail_suffix s
  · split
    · exact List.tail_suffix s
    · exact List.suffix_refl s

theorem scanExponent_rest (s : Str) : (scanExponent s).2 <:+ s := by
  unfold scanExponent
  split
  · split
    · next hscan =>
      have hsign := (scanSign_rest s.tail).trans (List.tail_suffix s)
      rw [scanDigits_rest hscan] at hsign
      exact (List.suffix_append _ _).trans hsign
    · exact List.suffix_refl s
  · exact List.suffix_refl s

/-- A literal takes something off the text. -/
theorem scanNumber_rest {s rest : Str} {n : Number} (h : scanNumber s = some (n, rest)) :
    rest <:+ s ∧ rest.length < s.length := by
  unfold scanNumber at h
  dsimp only at h
  split at h
  · next whole t hscan =>
    obtain ⟨-, rfl⟩ := Prod.mk.inj (Option.some.inj h)
    have hback : (scanExponent (scanFraction t).2).2 <:+ t :=
      (scanExponent_rest _).trans (scanFraction_rest t)
    have hwhole := scanWhole_rest hscan
    have hfront : (if s.head? = some dash then s.tail else s) <:+ s := by
      split
      · exact List.tail_suffix s
      · exact List.suffix_refl s
    have hne : 0 < whole.1.text.length := List.length_pos_iff.mpr whole.1.nonempty
    have hlen := hfront.length_le
    simp only [decide_eq_true_eq] at hwhole
    rw [hwhole] at hfront hlen
    rw [List.length_append] at hlen
    have hback' := hback.length_le
    exact ⟨hback.trans ((List.suffix_append _ _).trans hfront), by omega⟩
  · cases h

/-! ## Reading a literal back -/

/-- A text that does not continue a literal in front of it. -/
def Ends (s : Str) : Prop :=
  ∀ c, s.head? = some c →
    asciiDigit c = false ∧ c ≠ point ∧ c ≠ CodePoint.ofChar 'e' ∧ c ≠ CodePoint.ofChar 'E'

def NoDigit (s : Str) : Prop := ∀ c, s.head? = some c → asciiDigit c = false

theorem Ends.noDigit {s : Str} (h : Ends s) : NoDigit s := fun c hc => (h c hc).1

theorem ends_nil : Ends [] := by
  intro c hc
  cases hc

theorem noDigit_cons {c : CodePoint} {s : Str} (h : asciiDigit c = false) : NoDigit (c :: s) := by
  intro d hd
  rw [List.head?_cons, Option.some_inj] at hd
  exact hd ▸ h

theorem takeWhile_append_of_noDigit {ds s : Str} (hds : ds.all asciiDigit = true) (hs : NoDigit s) :
    (ds ++ s).takeWhile asciiDigit = ds ∧ (ds ++ s).dropWhile asciiDigit = s := by
  rw [List.all_eq_true] at hds
  rw [List.takeWhile_append_of_pos hds, List.dropWhile_append_of_pos hds]
  cases s with
  | nil => simp
  | cons c s =>
    have hc := hs c rfl
    simp [hc]

theorem scanDigits_append (ds : Digits) {s : Str} (hs : NoDigit s) :
    scanDigits (ds.text ++ s) = some (ds, s) := by
  obtain ⟨htake, hdrop⟩ := takeWhile_append_of_noDigit ds.ascii hs
  unfold scanDigits
  rw [dif_neg (by rw [htake]; exact ds.nonempty)]
  simp only [htake, hdrop]

theorem Digits.exists_cons (ds : Digits) :
    ∃ c rest, ds.text = c :: rest ∧ asciiDigit c = true := by
  obtain ⟨text, hne, hascii⟩ := ds
  cases text with
  | nil => exact absurd rfl hne
  | cons c rest =>
    rw [List.all_cons, Bool.and_eq_true] at hascii
    exact ⟨c, rest, rfl, hascii.1⟩

theorem scanFraction_text (fraction : Option Digits) {s : Str} (hdigit : NoDigit s)
    (hpoint : s.head? ≠ some point) :
    scanFraction ((fraction.map fun ds => point :: ds.text).getD [] ++ s) = (fraction, s) := by
  cases fraction with
  | none =>
    unfold scanFraction
    exact if_neg hpoint
  | some ds =>
    show scanFraction (point :: (ds.text ++ s)) = _
    unfold scanFraction
    rw [List.head?_cons, if_pos rfl, List.tail_cons, scanDigits_append ds hdigit]

theorem scanSign_text (sign : Option Bool) (ds : Digits) (s : Str) :
    scanSign (Exponent.signText sign ++ (ds.text ++ s)) = (sign, ds.text ++ s) := by
  obtain ⟨c, rest, hds, hc⟩ := ds.exists_cons
  have hdash : c ≠ dash := by
    rintro rfl
    exact absurd hc (by decide)
  have hplus : c ≠ CodePoint.ofChar '+' := by
    rintro rfl
    exact absurd hc (by decide)
  unfold scanSign
  rcases sign with _ | _ | _
  · rw [hds]
    simp [Exponent.signText, hdash, hplus]
  · rfl
  · rfl

theorem scanExponent_text (exponent : Option Exponent) {s : Str} (hs : Ends s) :
    scanExponent ((exponent.map Exponent.text).getD [] ++ s) = (exponent, s) := by
  cases exponent with
  | none =>
    unfold scanExponent
    refine if_neg fun h => ?_
    rcases h with h | h
    · exact (hs _ h).2.2.1 rfl
    · exact (hs _ h).2.2.2 rfl
  | some e =>
    obtain ⟨upper, sign, ds⟩ := e
    show scanExponent (CodePoint.ofChar (if upper then 'E' else 'e') ::
      (Exponent.signText sign ++ ds.text ++ s)) = _
    unfold scanExponent
    rw [List.head?_cons, List.tail_cons, List.append_assoc, scanSign_text,
      scanDigits_append ds hs.noDigit, if_pos (by cases upper <;> simp)]
    cases upper <;> rfl

/-- What precedes the end of a literal is not one more of its digits. -/
theorem noDigit_exponentText (n : Number) {s : Str} (hs : Ends s) :
    NoDigit (n.exponentText ++ s) ∧ (n.exponentText ++ s).head? ≠ some point := by
  unfold Number.exponentText
  cases n.exponent with
  | none => exact ⟨hs.noDigit, fun h => (hs _ h).2.1 rfl⟩
  | some e =>
    refine ⟨noDigit_cons ?_, ?_⟩
    · cases e.upper <;> decide
    · show some (CodePoint.ofChar (if e.upper then 'E' else 'e')) ≠ some point
      cases e.upper <;> decide

theorem noDigit_fractionText (n : Number) {s : Str} (hs : NoDigit s) :
    NoDigit (n.fractionText ++ s) := by
  unfold Number.fractionText
  cases n.fraction with
  | none => exact hs
  | some ds => exact noDigit_cons (by decide)

theorem scanWhole_text (whole : Digits)
    (hplain : whole.text.head? = some zeroDigit → whole.text.length = 1) {s : Str}
    (hs : NoDigit s) : scanWhole (whole.text ++ s) = some (⟨whole, hplain⟩, s) := by
  obtain ⟨c, rest, hwhole, hc⟩ := whole.exists_cons
  have hhead : (whole.text ++ s).head? = some c := by rw [hwhole]; rfl
  unfold scanWhole
  by_cases hzero : c = zeroDigit
  · have hsingle : rest = [] := by
      have hlen := hplain (by rw [hwhole, hzero]; rfl)
      rw [hwhole] at hlen
      simpa using hlen
    have htext : whole.text = [zeroDigit] := by rw [hwhole, hsingle, hzero]
    rw [dif_pos (by rw [hhead, hzero])]
    obtain ⟨text, hne, hascii⟩ := whole
    dsimp only at htext
    subst htext
    rfl
  · rw [dif_neg (by rw [hhead, Option.some_inj]; exact hzero)]
    have hscan := scanDigits_append whole hs
    split
    · next ds t h =>
      rw [hscan] at h
      obtain ⟨rfl, rfl⟩ := Prod.mk.inj (Option.some.inj h)
      rfl
    · next h =>
      rw [hscan] at h
      cases h

/-- **A literal reads back.** -/
theorem scanNumber_text (n : Number) {s : Str} (hs : Ends s) :
    scanNumber (n.text ++ s) = some (n, s) := by
  obtain ⟨hexp, hpoint⟩ := noDigit_exponentText n hs
  obtain ⟨c, rest, hwhole, hc⟩ := n.whole.exists_cons
  have hdash : c ≠ dash := by
    rintro rfl
    exact absurd hc (by decide)
  have hbody : scanNumber (n.text ++ s) =
      match scanWhole (n.whole.text ++ (n.fractionText ++ (n.exponentText ++ s))) with
      | some (whole, s) =>
        let (fraction, s) := scanFraction s
        let (exponent, s) := scanExponent s
        some (⟨n.negative, whole.1, whole.2, fraction, exponent⟩, s)
      | none => none := by
    unfold scanNumber Number.text
    cases n.negative
    · simp [hwhole, hdash]
    · simp
  rw [hbody, scanWhole_text n.whole n.plain (noDigit_fractionText n hexp)]
  dsimp only
  unfold Number.fractionText Number.exponentText at *
  rw [scanFraction_text n.fraction hexp hpoint, scanExponent_text n.exponent hs]

end Json
