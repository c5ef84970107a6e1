import InverterDashboard.Python.Encoding

/-
  JSON strings: what the scanner makes of the text between the quotes, and what
  `json.dumps(..., ensure_ascii=True)` writes.

  An escape `\u` names a UTF-16 unit. The scanner joins a high surrogate and a low one when both
  are escapes and adjacent, so a text with such a pair of code points is not what it reads back
  (`Joined`); every text it reads from a scalar text is joined (`joined_scanString`).
-/

namespace Json

open Python

/-! ## Surrogates -/

def isHigh (c : CodePoint) : Bool := 0xd800 ≤ c.val ∧ c.val < 0xdc00

def isLow (c : CodePoint) : Bool := 0xdc00 ≤ c.val ∧ c.val < 0xe000

/-- The code point of a pair of surrogates. -/
def joinPair (high low : CodePoint) : CodePoint :=
  Fin.ofNat 0x110000 (0x10000 + (high.val - 0xd800) * 0x400 + (low.val - 0xdc00))

/-- No high surrogate is followed by a low one. -/
def Joined (s : Str) : Prop := s.IsChain fun a b => ¬ (isHigh a = true ∧ isLow b = true)

/-- A text without surrogates, as UTF-8 decodes to. -/
def Scalar (s : Str) : Prop := ∀ c ∈ s, isHigh c = false ∧ isLow c = false

theorem Scalar.joined {s : Str} (h : Scalar s) : Joined s :=
  List.isChain_iff_getElem.mpr fun i hi hpair => by
    have hnot := (h s[i] (List.getElem_mem _)).1
    rw [hpair.1] at hnot
    cases hnot

/-! ## Scanning -/

def quotes : CodePoint := CodePoint.ofChar '"'

/-- The value of a hexadecimal digit. -/
def hexValue (c : CodePoint) : Option Nat :=
  if 0x30 ≤ c.val ∧ c.val ≤ 0x39 then some (c.val - 0x30)
  else if 0x61 ≤ c.val ∧ c.val ≤ 0x66 then some (c.val - 0x61 + 10)
  else if 0x41 ≤ c.val ∧ c.val ≤ 0x46 then some (c.val - 0x41 + 10)
  else none

/-- The UTF-16 unit of four hexadecimal digits. -/
def hexUnit (a b c d : CodePoint) : Option CodePoint := do
  let a ← hexValue a
  let b ← hexValue b
  let c ← hexValue c
  let d ← hexValue d
  return Fin.ofNat 0x110000 (a * 0x1000 + b * 0x100 + c * 0x10 + d)

/-- What a backslash and another code point stand for. -/
def simpleEscape (c : CodePoint) : Option CodePoint :=
  if c = quotes ∨ c = backslash ∨ c = slash then some c
  else if c = CodePoint.ofChar 'b' then some 0x08
  else if c = CodePoint.ofChar 'f' then some 0x0c
  else if c = CodePoint.ofChar 'n' then some 0x0a
  else if c = CodePoint.ofChar 'r' then some 0x0d
  else if c = CodePoint.ofChar 't' then some 0x09
  else none

/-- An escaped unit after an escaped high surrogate or none: the code points that are settled, and
    the high surrogate that may still be joined. -/
def acceptUnit (high : Option CodePoint) (unit : CodePoint) : Str × Option CodePoint :=
  match high with
  | some h =>
    if isLow unit then ([joinPair h unit], none)
    else if isHigh unit then ([h], some unit)
    else ([h, unit], none)
  | none => if isHigh unit then ([], some unit) else ([unit], none)

/-- `s` put in front of a scanned text. -/
def prepend (s : Str) (r : Option (Str × Str)) : Option (Str × Str) :=
  r.map fun p => (s ++ p.1, p.2)

/-- `scanstring` after an escaped high surrogate or none: the text up to the closing quote, and the
    rest. -/
def scanStringFrom (high : Option CodePoint) : Str → Option (Str × Str)
  | [] => none
  | c :: s =>
    if c = quotes then some (high.toList, s)
    else if c = backslash then
      match s with
      | [] => none
      | e :: s =>
        if e = CodePoint.ofChar 'u' then
          match s with
          | a :: b :: c :: d :: s =>
            match hexUnit a b c d with
            | some unit =>
              prepend (acceptUnit high unit).1 (scanStringFrom (acceptUnit high unit).2 s)
            | none => none
          | _ => none
        else
          match simpleEscape e with
          | some c => prepend (high.toList ++ [c]) (scanStringFrom none s)
          | none => none
    -- Control characters are refused.
    else if c.val < 0x20 then none
    else prepend (high.toList ++ [c]) (scanStringFrom none s)

/-- `scanstring`, after the opening quote. -/
def scanString (s : Str) : Option (Str × Str) := scanStringFrom none s

theorem prepend_some {s t rest : Str} {r : Option (Str × Str)}
    (h : prepend s r = some (t, rest)) : ∃ t', r = some (t', rest) ∧ t = s ++ t' := by
  obtain ⟨p, hp, heq⟩ := Option.map_eq_some_iff.mp h
  obtain ⟨rfl, rfl⟩ := Prod.mk.inj heq
  exact ⟨p.1, hp, rfl⟩

/-- A scanned string takes at least its closing quote off the text. -/
theorem scanStringFrom_rest {high : Option CodePoint} {s t rest : Str}
    (h : scanStringFrom high s = some (t, rest)) : rest <:+ s ∧ rest.length < s.length := by
  fun_induction scanStringFrom high s generalizing t with
  | case2 high s =>
    obtain ⟨-, rfl⟩ := Prod.mk.inj (Option.some.inj h)
    exact ⟨List.suffix_cons _ _, by simp⟩
  | case4 high a b c d s unit hunit _ ih =>
    obtain ⟨t', ht', -⟩ := prepend_some h
    obtain ⟨hsuffix, hlt⟩ := ih ht'
    refine ⟨hsuffix.trans ⟨[_, _, a, b, c, d], rfl⟩, ?_⟩
    simp only [List.length_cons]
    omega
  | case7 high e s he c hc _ ih =>
    obtain ⟨t', ht', -⟩ := prepend_some h
    obtain ⟨hsuffix, hlt⟩ := ih ht'
    refine ⟨hsuffix.trans ⟨[_, _], rfl⟩, ?_⟩
    simp only [List.length_cons]
    omega
  | case10 high c s hc hb hcontrol ih =>
    obtain ⟨t', ht', -⟩ := prepend_some h
    obtain ⟨hsuffix, hlt⟩ := ih ht'
    refine ⟨hsuffix.trans (List.suffix_cons _ _), ?_⟩
    rw [List.length_cons]
    omega
  | _ => cases h

/-! ## Joined texts -/

theorem joined_cons {a : CodePoint} {s : Str} :
    Joined (a :: s) ↔ (∀ b, s.head? = some b → ¬ (isHigh a = true ∧ isLow b = true)) ∧ Joined s := by
  unfold Joined
  cases s with
  | nil => simp
  | cons b s => simp [List.isChain_cons_cons]

theorem joined_append_of_not_high {a : CodePoint} {s : Str} (h : isHigh a = false) (hs : Joined s) :
    Joined (a :: s) :=
  joined_cons.mpr ⟨fun _ _ hpair => Bool.false_ne_true (h.symm.trans hpair.1), hs⟩

theorem isHigh_joinPair {high low : CodePoint} (hh : isHigh high = true) (hl : isLow low = true) :
    isHigh (joinPair high low) = false ∧ isLow (joinPair high low) = false := by
  unfold isHigh isLow joinPair at *
  simp only [decide_eq_true_eq, decide_eq_false_iff_not, Fin.val_ofNat] at *
  omega

theorem isHigh_of_isLow {c : CodePoint} (h : isLow c = true) : isHigh c = false := by
  unfold isHigh isLow at *
  simp only [decide_eq_true_eq, decide_eq_false_iff_not] at *
  omega

theorem isLow_of_isHigh {c : CodePoint} (h : isHigh c = true) : isLow c = false := by
  unfold isHigh isLow at *
  simp only [decide_eq_true_eq, decide_eq_false_iff_not] at *
  omega

theorem simpleEscape_scalar {e c : CodePoint} (h : simpleEscape e = some c) :
    isHigh c = false ∧ isLow c = false := by
  unfold simpleEscape at h
  split at h
  · next he =>
    obtain rfl := Option.some.inj h
    rcases he with rfl | rfl | rfl <;> decide
  · repeat' split at h
    all_goals first
      | (obtain rfl := Option.some.inj h; decide)
      | cases h

/-- What a scan after an escaped high surrogate or none gives back. -/
structure ScannedFrom (high : Option CodePoint) (t : Str) : Prop where
  joined : Joined t
  /-- After a high surrogate, what it was joined to or itself comes first. -/
  first : high.isSome = true → ∃ c, t.head? = some c ∧ isLow c = false

theorem ScannedFrom.plain {high : Option CodePoint} {c : CodePoint} {t : Str}
    (hhigh : ∀ h, high = some h → isHigh h = true) (hc : isHigh c = false ∧ isLow c = false)
    (ht : Joined t) : ScannedFrom high (high.toList ++ [c] ++ t) := by
  have hct : Joined (c :: t) := joined_append_of_not_high hc.1 ht
  cases high with
  | none => exact ⟨hct, fun h => nomatch h⟩
  | some h =>
    refine ⟨joined_cons.mpr ⟨?_, hct⟩, fun _ => ⟨h, rfl, isLow_of_isHigh (hhigh h rfl)⟩⟩
    intro b hb hpair
    rw [← Option.some.inj hb, hc.2] at hpair
    cases hpair.2

theorem ScannedFrom.unit {high : Option CodePoint} {unit : CodePoint} {t : Str}
    (hhigh : ∀ h, high = some h → isHigh h = true) (ht : ScannedFrom (acceptUnit high unit).2 t) :
    ScannedFrom high ((acceptUnit high unit).1 ++ t) := by
  unfold acceptUnit at *
  cases high with
  | none =>
    dsimp only at *
    cases hunit : isHigh unit with
    | true =>
      rw [hunit] at ht
      exact ⟨ht.joined, fun h => nomatch h⟩
    | false =>
      rw [hunit] at ht
      exact ⟨joined_append_of_not_high hunit ht.joined, fun h => nomatch h⟩
  | some h =>
    have hh := hhigh h rfl
    dsimp only at *
    cases hlow : isLow unit with
    | true =>
      rw [hlow] at ht
      obtain ⟨hnot, hnotLow⟩ := isHigh_joinPair hh hlow
      exact ⟨joined_append_of_not_high hnot ht.joined, fun _ => ⟨_, rfl, hnotLow⟩⟩
    | false =>
      rw [hlow] at ht
      cases hunit : isHigh unit with
      | true =>
        rw [hunit] at ht
        obtain ⟨c, hc, hnotLow⟩ := ht.first rfl
        refine ⟨joined_cons.mpr ⟨?_, ht.joined⟩, fun _ => ⟨h, rfl, isLow_of_isHigh hh⟩⟩
        intro b hb hpair
        have hcb : some c = some b := hc.symm.trans hb
        rw [← Option.some.inj hcb, hnotLow] at hpair
        cases hpair.2
      | false =>
        rw [hunit] at ht
        have hplain : ScannedFrom (some h) ([h, unit] ++ t) :=
          .plain hhigh ⟨hunit, hlow⟩ ht.joined
        exact hplain

theorem acceptUnit_high {high : Option CodePoint} {unit : CodePoint} :
    ∀ h, (acceptUnit high unit).2 = some h → isHigh h = true := by
  intro h heq
  unfold acceptUnit at heq
  repeat' split at heq
  all_goals first
    | (obtain rfl := Option.some.inj heq; assumption)
    | cases heq

/-- A scanned string is joined. -/
theorem joined_scanStringFrom {high : Option CodePoint} {s t rest : Str} (hs : Scalar s)
    (hhigh : ∀ h, high = some h → isHigh h = true)
    (h : scanStringFrom high s = some (t, rest)) : ScannedFrom high t := by
  fun_induction scanStringFrom high s generalizing t with
  | case2 high s =>
    obtain ⟨rfl, -⟩ := Prod.mk.inj (Option.some.inj h)
    cases high with
    | none => exact ⟨List.IsChain.nil, fun h => nomatch h⟩
    | some c =>
      exact ⟨List.IsChain.singleton c, fun _ => ⟨c, rfl, isLow_of_isHigh (hhigh c rfl)⟩⟩
  | case4 high a b c d s unit hunit _ ih =>
    obtain ⟨t', ht', rfl⟩ := prepend_some h
    exact .unit hhigh (ih (fun c hc => hs c (by simp [hc])) acceptUnit_high ht')
  | case7 high e s he c hc _ ih =>
    obtain ⟨t', ht', rfl⟩ := prepend_some h
    exact .plain hhigh (simpleEscape_scalar hc)
      (ih (fun c hc => hs c (by simp [hc])) (fun _ h => nomatch h) ht').joined
  | case10 high c s hc hb hcontrol ih =>
    obtain ⟨t', ht', rfl⟩ := prepend_some h
    exact .plain hhigh (hs c List.mem_cons_self)
      (ih (fun c hc => hs c (List.mem_cons_of_mem _ hc)) (fun _ h => nomatch h) ht').joined
  | _ => cases h

theorem joined_scanString {s t rest : Str} (hs : Scalar s) (h : scanString s = some (t, rest)) :
    Joined t := by
  have hscanned : ScannedFrom none t := joined_scanStringFrom hs (fun _ hnone => nomatch hnone) h
  exact hscanned.joined

/-! ## Writing -/

/-- `\u` and four hexadecimal digits. -/
def unitEscape (n : Nat) : Str :=
  Str.lit "\\u" ++ [hexDigit (n / 0x1000 % 16), hexDigit (n / 0x100 % 16), hexDigit (n / 0x10 % 16),
    hexDigit (n % 16)]

/-- What `json.dumps` writes for one code point of a string. -/
def escape (c : CodePoint) : Str :=
  if c = quotes then Str.lit "\\\""
  else if c = backslash then Str.lit "\\\\"
  else if c.val = 0x0a then Str.lit "\\n"
  else if c.val = 0x0d then Str.lit "\\r"
  else if c.val = 0x09 then Str.lit "\\t"
  else if c.val = 0x0c then Str.lit "\\f"
  else if c.val = 0x08 then Str.lit "\\b"
  else if 0x20 ≤ c.val ∧ c.val ≤ 0x7e then [c]
  else if c.val < 0x10000 then unitEscape c.val
  else unitEscape (0xd800 + (c.val - 0x10000) / 0x400) ++
    unitEscape (0xdc00 + (c.val - 0x10000) % 0x400)

/-- A string with its quotes. -/
def quoted (s : Str) : Str := quotes :: s.flatMap escape ++ [quotes]

/-! ## Reading back -/

theorem scanStringFrom_quotes (high : Option CodePoint) (s : Str) :
    scanStringFrom high (quotes :: s) = some (high.toList, s) := by
  rw [scanStringFrom.eq_def]
  exact if_pos rfl

theorem scanStringFrom_simple (high : Option CodePoint) {e c : CodePoint}
    (hu : e ≠ CodePoint.ofChar 'u') (he : simpleEscape e = some c) (s : Str) :
    scanStringFrom high (backslash :: e :: s) =
      prepend (high.toList ++ [c]) (scanStringFrom none s) := by
  rw [scanStringFrom.eq_def]
  dsimp only
  rw [if_neg (by decide), if_pos rfl, if_neg hu, he]

theorem scanStringFrom_plain (high : Option CodePoint) {c : CodePoint} (hquote : c ≠ quotes)
    (hslash : c ≠ backslash) (hc : ¬ c.val < 0x20) (s : Str) :
    scanStringFrom high (c :: s) = prepend (high.toList ++ [c]) (scanStringFrom none s) := by
  rw [scanStringFrom.eq_def]
  dsimp only
  rw [if_neg hquote, if_neg hslash, if_neg hc]

theorem hexValue_hexDigit : ∀ n : Fin 16, hexValue (hexDigit n.val) = some n.val := by decide

theorem hexUnit_hexDigit {n : Nat} (h : n < 0x10000) :
    hexUnit (hexDigit (n / 0x1000 % 16)) (hexDigit (n / 0x100 % 16)) (hexDigit (n / 0x10 % 16))
      (hexDigit (n % 16)) = some (Fin.ofNat 0x110000 n) := by
  have hdigit : ∀ m, hexValue (hexDigit (m % 16)) = some (m % 16) := fun m =>
    hexValue_hexDigit ⟨m % 16, Nat.mod_lt _ (by decide)⟩
  unfold hexUnit
  rw [hdigit, hdigit, hdigit, hdigit]
  show some (Fin.ofNat 0x110000 (n / 0x1000 % 16 * 0x1000 + n / 0x100 % 16 * 0x100 +
    n / 0x10 % 16 * 0x10 + n % 16)) = _
  congr 2
  omega

theorem scanStringFrom_unitEscape (high : Option CodePoint) {n : Nat} (h : n < 0x10000) (s : Str) :
    scanStringFrom high (unitEscape n ++ s) =
      prepend (acceptUnit high (Fin.ofNat 0x110000 n)).1
        (scanStringFrom (acceptUnit high (Fin.ofNat 0x110000 n)).2 s) := by
  have hunit := hexUnit_hexDigit h
  show scanStringFrom high (backslash :: CodePoint.ofChar 'u' :: hexDigit (n / 0x1000 % 16) ::
    hexDigit (n / 0x100 % 16) :: hexDigit (n / 0x10 % 16) :: hexDigit (n % 16) :: s) = _
  rw [scanStringFrom, if_neg (by decide), if_pos rfl, if_pos rfl, hunit]

theorem ofNat_val (c : CodePoint) : Fin.ofNat 0x110000 c.val = c :=
  Fin.ext (Nat.mod_eq_of_lt c.isLt)

/-- A code point that is not a surrogate reads back. -/
theorem scanStringFrom_escape (high : Option CodePoint) {c : CodePoint}
    (hc : isHigh c = false ∧ isLow c = false) (s : Str) :
    scanStringFrom high (escape c ++ s) = prepend (high.toList ++ [c]) (scanStringFrom none s) := by
  have hsimple : ∀ e : CodePoint, e ≠ CodePoint.ofChar 'u' → simpleEscape e = some c →
      scanStringFrom high (backslash :: e :: s) =
        prepend (high.toList ++ [c]) (scanStringFrom none s) :=
    fun _ hu he => scanStringFrom_simple high hu he s
  unfold escape
  split
  · next h => exact hsimple quotes (by decide) (by subst h; rfl)
  split
  · next h => exact hsimple backslash (by decide) (by subst h; rfl)
  split
  · next h => exact hsimple (CodePoint.ofChar 'n') (by decide) (by rw [← ofNat_val c, h]; rfl)
  split
  · next h => exact hsimple (CodePoint.ofChar 'r') (by decide) (by rw [← ofNat_val c, h]; rfl)
  split
  · next h => exact hsimple (CodePoint.ofChar 't') (by decide) (by rw [← ofNat_val c, h]; rfl)
  split
  · next h => exact hsimple (CodePoint.ofChar 'f') (by decide) (by rw [← ofNat_val c, h]; rfl)
  split
  · next h => exact hsimple (CodePoint.ofChar 'b') (by decide) (by rw [← ofNat_val c, h]; rfl)
  split
  · next hquote hslash _ _ _ _ _ hplain =>
    exact scanStringFrom_plain high hquote hslash (by omega) s
  split
  · next hbmp =>
    rw [scanStringFrom_unitEscape high hbmp, ofNat_val]
    unfold acceptUnit
    cases high <;> simp [hc.1, hc.2]
  · next hastral =>
    have hlt := c.isLt
    -- The pair of surrogates of a code point beyond the basic plane.
    have hfirst : isHigh (Fin.ofNat 0x110000 (0xd800 + (c.val - 0x10000) / 0x400)) = true := by
      unfold isHigh
      simp only [decide_eq_true_eq, Fin.val_ofNat]
      omega
    have hsecond : isLow (Fin.ofNat 0x110000 (0xdc00 + (c.val - 0x10000) % 0x400)) = true := by
      unfold isLow
      simp only [decide_eq_true_eq, Fin.val_ofNat]
      omega
    have hpair : joinPair (Fin.ofNat 0x110000 (0xd800 + (c.val - 0x10000) / 0x400))
        (Fin.ofNat 0x110000 (0xdc00 + (c.val - 0x10000) % 0x400)) = c := by
      apply Fin.ext
      unfold joinPair
      simp only [Fin.val_ofNat]
      omega
    rw [List.append_assoc, scanStringFrom_unitEscape high (by omega),
      scanStringFrom_unitEscape _ (by omega)]
    have hfront : acceptUnit high (Fin.ofNat 0x110000 (0xd800 + (c.val - 0x10000) / 0x400)) =
        (high.toList, some (Fin.ofNat 0x110000 (0xd800 + (c.val - 0x10000) / 0x400))) := by
      unfold acceptUnit
      cases high with
      | none => exact if_pos hfirst
      | some h =>
        dsimp only
        rw [if_neg (by rw [isLow_of_isHigh hfirst]; exact Bool.false_ne_true), if_pos hfirst]
        rfl
    have hback : acceptUnit (some (Fin.ofNat 0x110000 (0xd800 + (c.val - 0x10000) / 0x400)))
        (Fin.ofNat 0x110000 (0xdc00 + (c.val - 0x10000) % 0x400)) = ([c], none) := by
      unfold acceptUnit
      dsimp only
      rw [if_pos hsecond, hpair]
    rw [hfront, hback]
    unfold prepend
    cases scanStringFrom none s <;> simp

/-- A surrogate reads back as the unit it is. -/
theorem scanStringFrom_surrogate (high : Option CodePoint) {c : CodePoint}
    (hc : isHigh c = true ∨ isLow c = true) (s : Str) :
    scanStringFrom high (escape c ++ s) =
      prepend (acceptUnit high c).1 (scanStringFrom (acceptUnit high c).2 s) := by
  have hrange : 0xd800 ≤ c.val ∧ c.val < 0xe000 := by
    unfold isHigh isLow at hc
    simp only [decide_eq_true_eq] at hc
    omega
  have hescape : escape c = unitEscape c.val := by
    have hne : ∀ d : CodePoint, d.val < 0xd800 → c ≠ d := by
      rintro d hd rfl
      omega
    unfold escape
    rw [if_neg (hne quotes (by decide)), if_neg (hne backslash (by decide))]
    repeat rw [if_neg (by omega)]
    exact if_pos (by omega)
  rw [hescape, scanStringFrom_unitEscape high (by omega), ofNat_val]

/-- **A joined text reads back.** -/
theorem scanStringFrom_flatMap {high : Option CodePoint} {t : Str} (rest : Str)
    (hhigh : ∀ h, high = some h → isHigh h = true) (ht : Joined (high.toList ++ t)) :
    scanStringFrom high (t.flatMap escape ++ quotes :: rest) = some (high.toList ++ t, rest) := by
  induction t generalizing high with
  | nil =>
    rw [List.append_nil]
    exact scanStringFrom_quotes high rest
  | cons c t ih =>
    have htail : Joined (c :: t) := by
      cases high with
      | none => exact ht
      | some h => exact (joined_cons.mp ht).2
    have hlow : ∀ h, high = some h → isLow c = false := by
      rintro h rfl
      have hnot := (joined_cons.mp ht).1 c rfl
      rw [hhigh h rfl] at hnot
      simpa using hnot
    rw [List.flatMap_cons, List.append_assoc]
    cases hc : isHigh c with
    | true =>
      have haccept : acceptUnit high c = (high.toList, some c) := by
        unfold acceptUnit
        cases high with
        | none => exact if_pos hc
        | some h =>
          dsimp only
          rw [if_neg (by rw [hlow h rfl]; exact Bool.false_ne_true), if_pos hc]
          rfl
      have hcurrent : ∀ h, some c = some h → isHigh h = true := by
        intro h heq
        exact Option.some.inj heq ▸ hc
      have hrest : scanStringFrom (some c) (t.flatMap escape ++ quotes :: rest) =
          some ((some c).toList ++ t, rest) := ih hcurrent htail
      rw [scanStringFrom_surrogate high (Or.inl hc), haccept, hrest]
      rfl
    | false =>
      have hrest : scanStringFrom none (t.flatMap escape ++ quotes :: rest) = some (t, rest) := by
        refine ih ?_ (joined_cons.mp htail).2
        intro h heq
        cases heq
      cases hl : isLow c with
      | true =>
        have hnone : high = none := by
          cases high with
          | none => rfl
          | some h =>
            rw [hlow h rfl] at hl
            cases hl
        subst hnone
        have haccept : acceptUnit none c = ([c], none) := by
          unfold acceptUnit
          dsimp only
          rw [if_neg (by rw [hc]; exact Bool.false_ne_true)]
        rw [scanStringFrom_surrogate none (Or.inr hl), haccept, hrest]
        rfl
      | false =>
        rw [scanStringFrom_escape high ⟨hc, hl⟩, hrest]
        show some (high.toList ++ [c] ++ t, rest) = _
        rw [List.append_assoc]
        rfl

theorem scanString_quoted {t : Str} (rest : Str) (ht : Joined t) :
    scanString (t.flatMap escape ++ quotes :: rest) = some (t, rest) := by
  have hscan : scanStringFrom none (t.flatMap escape ++ quotes :: rest) =
      some ((none : Option CodePoint).toList ++ t, rest) :=
    scanStringFrom_flatMap rest (fun _ hnone => nomatch hnone) ht
  exact hscan

end Json
