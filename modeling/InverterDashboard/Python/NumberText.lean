import InverterDashboard.Python.Decimal

/-
  What `float` and `int` make of two kinds of texts: a text with a colon is no number, and ASCII
  digits are their value, up to the number of digits that `int` reads.
-/

namespace Python

/-! ## A text with a colon is no number -/

theorem colon_mem_strip {s : Str} (h : colon ∈ s) : colon ∈ s.strip := by
  have hdrop : ∀ {s : Str}, colon ∈ s → colon ∈ s.dropWhile isspace := by
    intro s h
    rw [← List.takeWhile_append_dropWhile (p := isspace) (l := s)] at h
    rcases List.mem_append.mp h with hspace | hrest
    · have hcolon : isspace colon = true := List.mem_takeWhile_imp hspace
      exact absurd hcolon (by decide)
    · exact hrest
  unfold Str.strip
  rw [List.mem_reverse]
  exact hdrop (List.mem_reverse.mpr (hdrop h))

theorem signOf_cons (c : CodePoint) (s : Str) :
    signOf (c :: s) =
      if c = dash then (true, s) else if c = CodePoint.ofChar '+' then (false, s)
      else (false, c :: s) :=
  rfl

theorem colon_mem_signOf {s : Str} (h : colon ∈ s) : colon ∈ (signOf s).2 := by
  cases s with
  | nil => exact h
  | cons c s =>
    have htail : c ≠ colon → colon ∈ s := fun hc =>
      (List.mem_cons.mp h).resolve_left fun e => hc e.symm
    rw [signOf_cons]
    split
    · next hc =>
      apply htail
      rw [hc]
      decide
    · split
      · next hc =>
        apply htail
        rw [hc]
        decide
      · exact h

/-- Digits hold no colon. -/
theorem colon_notMem {s : Str} (h : s.all asciiDigit = true) : colon ∉ s := by
  intro hmem
  have hdigit := List.all_eq_true.mp h colon hmem
  exact absurd hdigit (by decide)

theorem colon_mem_dropWhile {s : Str} (h : colon ∈ s) : colon ∈ s.dropWhile asciiDigit := by
  rw [← List.takeWhile_append_dropWhile (p := asciiDigit) (l := s)] at h
  exact (List.mem_append.mp h).resolve_left (colon_notMem List.all_takeWhile)

theorem exponentPart_colon {s : Str} (h : colon ∈ s) : exponentPart s = none := by
  cases s with
  | nil => cases h
  | cons mark s =>
    unfold exponentPart
    dsimp only
    rw [if_neg]
    rintro ⟨hmark, -, hdigits⟩
    rcases List.mem_cons.mp h with rfl | hmem
    · exact absurd hmark (by decide)
    · exact colon_notMem hdigits (colon_mem_signOf hmem)

theorem fractionPart_cons (c : CodePoint) (s : Str) :
    fractionPart (c :: s) =
      if c = CodePoint.ofChar '.' then (s.takeWhile asciiDigit, s.dropWhile asciiDigit)
      else ([], c :: s) :=
  rfl

theorem finiteText_colon {s : Str} (h : colon ∈ s) : finiteText s = none := by
  have hrest : colon ∈ (fractionPart (s.dropWhile asciiDigit)).2 := by
    have hdrop := colon_mem_dropWhile h
    generalize s.dropWhile asciiDigit = rest at hdrop
    cases rest with
    | nil => exact hdrop
    | cons c rest =>
      rw [fractionPart_cons]
      split
      · next hc =>
        have hpoint : colon ≠ c := by
          rw [hc]
          decide
        exact colon_mem_dropWhile ((List.mem_cons.mp hdrop).resolve_left hpoint)
      · exact hdrop
  unfold finiteText
  dsimp only
  split
  · rfl
  · rw [exponentPart_colon hrest]
    rfl

theorem colon_mem_lower {s : Str} (h : colon ∈ s) : colon ∈ s.lower :=
  List.mem_map.mpr ⟨colon, h, by decide⟩

/-- `float` refuses a text with a colon. -/
theorem ofText_colon {s : Str} (h : colon ∈ s) : Float64.ofText s = none := by
  have hstrip : colon ∈ s.strip.map asciiCodePoint :=
    List.mem_map.mpr ⟨colon, colon_mem_strip h, by decide⟩
  unfold Float64.ofText
  dsimp only
  split
  · rfl
  · have hsigned : colon ∈ (signOf ((s.strip.map asciiCodePoint).filter (· ≠ underscore))).2 :=
      colon_mem_signOf (List.mem_filter.mpr ⟨hstrip, by decide⟩)
    have hlower := colon_mem_lower hsigned
    have hword : ∀ word ∈ [Str.lit "inf", Str.lit "infinity", Str.lit "nan"],
        (signOf ((s.strip.map asciiCodePoint).filter (· ≠ underscore))).2.lower ≠ word := by
      intro word hmem hword
      have hno : ∀ word ∈ [Str.lit "inf", Str.lit "infinity", Str.lit "nan"], colon ∉ word := by
        decide
      exact hno word hmem (hword ▸ hlower)
    have hinf : isInfinityText
        (signOf ((s.strip.map asciiCodePoint).filter (· ≠ underscore))).2 = false := by
      unfold isInfinityText
      rw [decide_eq_false (hword _ (by simp)), decide_eq_false (hword _ (by simp))]
      rfl
    rw [hinf, if_neg Bool.false_ne_true, if_neg (hword _ (by simp)), finiteText_colon hsigned]
    rfl

/-! ## Digits -/

theorem asciiCodePoint_digit {c : CodePoint} (h : asciiDigit c = true) : asciiCodePoint c = c := by
  have hall : ∀ d : Fin 10, asciiCodePoint ⟨0x30 + d.val, by omega⟩ = ⟨0x30 + d.val, by omega⟩ := by
    decide
  have hbounds : 0x30 ≤ c.val ∧ c.val ≤ 0x39 := of_decide_eq_true h
  have hc : c = ⟨0x30 + (c.val - 0x30), by omega⟩ := Fin.ext (by dsimp only; omega)
  rw [hc]
  exact hall ⟨c.val - 0x30, by omega⟩

theorem misplacedUnderscore_digits {s : Str} (h : s.all asciiDigit = true) :
    Float64.misplacedUnderscore s = false := by
  have hne : ∀ {c : CodePoint}, asciiDigit c = true → c ≠ underscore := by
    rintro c hc rfl
    exact absurd hc (by decide)
  induction s with
  | nil => rfl
  | cons c s ih =>
    rw [List.all_cons, Bool.and_eq_true] at h
    have hhead : s.head? ≠ some underscore := by
      intro hhead
      exact hne (List.all_eq_true.mp h.2 underscore (List.mem_of_head? hhead)) rfl
    unfold Float64.misplacedUnderscore
    rw [decide_eq_false (hne h.1), decide_eq_false hhead, ih h.2]
    rfl

theorem strip_eq_self {s : Str} (h : ∀ c ∈ s, isspace c = false) : s.strip = s := by
  have hdrop : ∀ {s : Str}, (∀ c ∈ s, isspace c = false) → s.dropWhile isspace = s := by
    intro s hs
    cases s with
    | nil => rfl
    | cons c s => rw [List.dropWhile_cons, hs c List.mem_cons_self, if_neg Bool.false_ne_true]
  unfold Str.strip
  rw [hdrop h, hdrop fun c hc => h c (List.mem_reverse.mp hc), List.reverse_reverse]

theorem isspace_digit {c : CodePoint} (h : asciiDigit c = true) : isspace c = false := by
  have hbounds : 0x30 ≤ c.val ∧ c.val ≤ 0x39 := of_decide_eq_true h
  unfold isspace
  apply decide_eq_false
  omega

theorem filter_digits {s : Str} (h : s.all asciiDigit = true) :
    s.filter (· ≠ underscore) = s := by
  apply List.filter_eq_self.mpr
  intro c hc
  apply decide_eq_true
  rintro rfl
  exact absurd (List.all_eq_true.mp h underscore hc) (by decide)

theorem signOf_digits {s : Str} (h : s.all asciiDigit = true) : signOf s = (false, s) := by
  cases s with
  | nil => rfl
  | cons c s =>
    rw [List.all_cons, Bool.and_eq_true] at h
    rw [signOf_cons, if_neg, if_neg]
    · rintro rfl
      exact absurd h.1 (by decide)
    · rintro rfl
      exact absurd h.1 (by decide)

/-- `int` of digits: their value, unless there are too many of them. -/
theorem Str.toInt?_digits {s : Str} (hne : s ≠ []) (h : s.all asciiDigit = true) :
    Str.toInt? s = if s.length ≤ intMaxStrDigits then some (asciiNat s : Int) else none := by
  have hdigit := List.all_eq_true.mp h
  have hstrip : s.strip = s := strip_eq_self fun c hc => isspace_digit (hdigit c hc)
  have hmap : s.map asciiCodePoint = s := by
    conv_rhs => rw [← List.map_id s]
    exact List.map_congr_left fun c hc => asciiCodePoint_digit (hdigit c hc)
  have hhead : s.head? ≠ some underscore := by
    intro hhead
    exact absurd (hdigit underscore (List.mem_of_head? hhead)) (by decide)
  have hempty : s.isEmpty = false := List.isEmpty_eq_false_iff.mpr hne
  unfold Str.toInt?
  rw [hstrip, hmap]
  dsimp only
  rw [decide_eq_false hhead, misplacedUnderscore_digits h, filter_digits h, signOf_digits h]
  simp only [Bool.or_self, Bool.false_eq_true, if_false, h, Bool.not_true, hempty]
  by_cases hlong : s.length ≤ intMaxStrDigits
  · rw [if_neg (by simpa using hlong), if_pos hlong]
  · rw [if_pos (by simpa using hlong), if_neg hlong]

end Python
