import InverterDashboard.Json.Dump
import InverterDashboard.Python.NumberText

/-
  Timer values of Home Assistant: `_sensor_state_to_seconds`, and the durations it reads.

  A state is a number of seconds, or minutes and seconds, or hours, minutes and seconds with colons
  between them. A text with a colon is not a number (`ofText_colon`), so its components decide.

  `IsDuration` says which texts are durations and `totalSeconds` how long they are, neither with the
  loop of the code. The loop adds up the components and returns early once the total is too large;
  a total never shrinks, so the early return only anticipates the last test (`addComponents_eq`).

  Proved (`duration_agrees`): a text with a colon is the total of its components if it is a duration
  and zero if not, and what `formatMinutes` and `formatHours` write is read back.
-/

namespace InverterDashboard.HomeAssistant

open Python

/-! ## Definitions -/

/-- `MAX_DURATION_SECONDS`. -/
def maxDurationSeconds : Int := 2 ^ 53 - 1

/-- `_parse_numeric_state`: the finite number that a text is. -/
def parseNumericState (raw : Option Str) : Option ℚ :=
  match raw with
  | none => none
  | some s =>
    if s ∈ [Str.lit "unavailable", Str.lit "unknown", Str.lit "None", []] then none
    else (Float64.ofText s).bind Float64.finite?

/-- `part.isascii() and part.isdecimal()`. -/
def isComponent (part : Str) : Bool := !part.isEmpty && part.all asciiDigit

/-- The loop over the components; `none` when it returns early. -/
def addComponents (total : Int) : List Int → Option Int
  | [] => some total
  | value :: values =>
    if maxDurationSeconds < total * 60 + value then none
    else addComponents (total * 60 + value) values

/-- `_sensor_state_to_seconds`, from the components on. -/
def componentsToSeconds (parts : List Str) : Int :=
  if (parts.length ≠ 2 ∧ parts.length ≠ 3) ∨ parts.any (fun part => !isComponent part) then 0
  else
    match parts.mapM Str.toInt? with
    | none => 0
    | some values =>
      if values.tail.any (60 ≤ ·) then 0 else (addComponents 0 values).getD 0

/-- `_sensor_state_to_seconds`. -/
def sensorStateToSeconds (raw : Option Str) : Int :=
  match parseNumericState raw with
  | some q => if 0 ≤ q ∧ q ≤ maxDurationSeconds then q.num.tdiv q.den else 0
  | none => componentsToSeconds ((raw.getD (Str.lit "None")).strip.splitOn colon)

/-! ## The grammar -/

/-- The seconds that minutes and seconds are, with hours or without. -/
def totalSeconds : List Str → Nat
  | [minutes, seconds] => 60 * asciiNat minutes + asciiNat seconds
  | [hours, minutes, seconds] => 3600 * asciiNat hours + 60 * asciiNat minutes + asciiNat seconds
  | _ => 0

/-- The components of a duration. `int` reads no more than `intMaxStrDigits` digits. -/
structure AreComponents (parts : List Str) : Prop where
  count : parts.length = 2 ∨ parts.length = 3
  decimal : ∀ part ∈ parts, part ≠ [] ∧ ∀ c ∈ part, asciiDigit c = true
  short : ∀ part ∈ parts, part.length ≤ intMaxStrDigits
  below : ∀ part ∈ parts.tail, asciiNat part < 60
  bounded : (totalSeconds parts : Int) ≤ maxDurationSeconds

/-- A text that is a duration with these components. -/
structure IsDuration (raw : Str) (parts : List Str) : Prop extends AreComponents parts where
  text : raw.strip = [colon].intercalate parts

/-- `M:SS`. -/
def formatMinutes (s : Nat) : Str := natStr (s / 60) ++ [colon] ++ padded 2 (s % 60)

/-- `H:MM:SS`. -/
def formatHours (s : Nat) : Str :=
  natStr (s / 3600) ++ [colon] ++ padded 2 (s / 60 % 60) ++ [colon] ++ padded 2 (s % 60)

/-! ## Components -/

theorem isComponent_iff (part : Str) :
    isComponent part = true ↔ part ≠ [] ∧ ∀ c ∈ part, asciiDigit c = true := by
  unfold isComponent
  rw [Bool.and_eq_true, List.all_eq_true, Bool.not_eq_true', List.isEmpty_eq_false_iff]

theorem toInt?_component {part : Str} (h : isComponent part = true) :
    Str.toInt? part =
      if part.length ≤ intMaxStrDigits then some (asciiNat part : Int) else none := by
  obtain ⟨hne, hdigits⟩ := (isComponent_iff part).mp h
  exact Str.toInt?_digits hne (List.all_eq_true.mpr hdigits)

/-! ## The total -/

theorem le_foldl {values : List Int} (h : ∀ v ∈ values, 0 ≤ v) {n : Int} (hn : 0 ≤ n) :
    n ≤ values.foldl (fun n v => n * 60 + v) n := by
  induction values generalizing n with
  | nil => exact le_refl _
  | cons v values ih =>
    have hv := h v List.mem_cons_self
    have hstep := ih (fun x hx => h x (List.mem_cons_of_mem _ hx)) (n := n * 60 + v) (by omega)
    rw [List.foldl_cons]
    omega

/-- The early return is where the total is too large in the end. -/
theorem addComponents_eq {values : List Int} (h : ∀ v ∈ values, 0 ≤ v) {n : Int} (hn : 0 ≤ n)
    (hmax : n ≤ maxDurationSeconds) :
    addComponents n values =
      if values.foldl (fun n v => n * 60 + v) n ≤ maxDurationSeconds then
        some (values.foldl (fun n v => n * 60 + v) n)
      else none := by
  induction values generalizing n with
  | nil => exact (if_pos hmax).symm
  | cons v values ih =>
    have hv := h v List.mem_cons_self
    have hrest : ∀ x ∈ values, 0 ≤ x := fun x hx => h x (List.mem_cons_of_mem _ hx)
    unfold addComponents
    rw [List.foldl_cons]
    split
    · next hlarge =>
      have hgrows := le_foldl hrest (n := n * 60 + v) (by omega)
      rw [if_neg (by omega)]
    · next hsmall => exact ih hrest (by omega) (by omega)

theorem mapM_toInt? {parts : List Str} (h : ∀ part ∈ parts, isComponent part = true) :
    parts.mapM Str.toInt? =
      if ∀ part ∈ parts, part.length ≤ intMaxStrDigits then
        some (parts.map fun part => (asciiNat part : Int))
      else none := by
  induction parts with
  | nil => rfl
  | cons part parts ih =>
    rw [List.mapM_cons, toInt?_component (h part List.mem_cons_self),
      ih fun x hx => h x (List.mem_cons_of_mem _ hx)]
    simp only [List.forall_mem_cons]
    by_cases hpart : part.length ≤ intMaxStrDigits
    · by_cases hparts : ∀ part ∈ parts, part.length ≤ intMaxStrDigits
      · rw [if_pos hpart, if_pos hparts, if_pos ⟨hpart, hparts⟩]
        rfl
      · rw [if_pos hpart, if_neg hparts,
          if_neg fun hall : _ ∧ _ => hparts hall.2]
        rfl
    · rw [if_neg hpart, if_neg fun hall : _ ∧ _ => hpart hall.1]
      rfl

theorem foldl_totalSeconds {parts : List Str} (h : parts.length = 2 ∨ parts.length = 3) :
    (parts.map fun part => (asciiNat part : Int)).foldl (fun n v => n * 60 + v) 0 =
      (totalSeconds parts : Int) := by
  match parts, h with
  | [minutes, seconds], _ =>
    simp only [List.map_cons, List.map_nil, List.foldl_cons, List.foldl_nil, totalSeconds]
    omega
  | [hours, minutes, seconds], _ =>
    simp only [List.map_cons, List.map_nil, List.foldl_cons, List.foldl_nil, totalSeconds]
    omega
  | [], h => simp at h
  | [_], h => simp at h
  | _ :: _ :: _ :: _ :: _, h => simp at h

/-! ## Agreement -/

theorem addComponents_total {parts : List Str} (h : parts.length = 2 ∨ parts.length = 3) :
    (addComponents 0 (parts.map fun part => (asciiNat part : Int))).getD 0 =
      if (totalSeconds parts : Int) ≤ maxDurationSeconds then (totalSeconds parts : Int) else 0 := by
  have hnonneg : ∀ v ∈ parts.map fun part => (asciiNat part : Int), 0 ≤ v := by
    intro v hv
    obtain ⟨part, -, rfl⟩ := List.mem_map.mp hv
    omega
  rw [addComponents_eq hnonneg le_rfl (by decide), foldl_totalSeconds h]
  split <;> rfl

theorem componentsToSeconds_eq {parts : List Str} (hcount : parts.length = 2 ∨ parts.length = 3)
    (hdecimal : ∀ part ∈ parts, isComponent part = true)
    (hshort : ∀ part ∈ parts, part.length ≤ intMaxStrDigits) :
    componentsToSeconds parts =
      if (∀ part ∈ parts.tail, asciiNat part < 60) ∧
          (totalSeconds parts : Int) ≤ maxDurationSeconds then
        (totalSeconds parts : Int)
      else 0 := by
  have hbad : ¬ ((parts.length ≠ 2 ∧ parts.length ≠ 3) ∨
      (parts.any fun part => !isComponent part) = true) := by
    rintro (⟨htwo, hthree⟩ | hany)
    · exact hcount.elim htwo hthree
    · obtain ⟨part, hmem, hpart⟩ := List.any_eq_true.mp hany
      rw [hdecimal part hmem] at hpart
      exact Bool.false_ne_true hpart
  have htail : ((parts.map fun part => (asciiNat part : Int)).tail.any (60 ≤ ·)) = true ↔
      ¬ ∀ part ∈ parts.tail, asciiNat part < 60 := by
    rw [← List.map_tail, List.any_map, List.any_eq_true]
    simp [not_lt]
  unfold componentsToSeconds
  rw [if_neg hbad, mapM_toInt? hdecimal, if_pos hshort]
  dsimp only
  rw [addComponents_total hcount]
  by_cases hbelow : ∀ part ∈ parts.tail, asciiNat part < 60
  · rw [if_neg fun h => htail.mp h hbelow]
    by_cases hbounded : (totalSeconds parts : Int) ≤ maxDurationSeconds
    · rw [if_pos hbounded, if_pos ⟨hbelow, hbounded⟩]
    · rw [if_neg hbounded, if_neg fun h => hbounded h.2]
  · rw [if_pos (htail.mpr hbelow), if_neg fun h => hbelow h.1]

theorem componentsToSeconds_total {parts : List Str} (h : AreComponents parts) :
    componentsToSeconds parts = totalSeconds parts := by
  have hdecimal : ∀ part ∈ parts, isComponent part = true := fun part hmem =>
    (isComponent_iff part).mpr (h.decimal part hmem)
  rw [componentsToSeconds_eq h.count hdecimal h.short, if_pos ⟨h.below, h.bounded⟩]

theorem componentsToSeconds_zero {parts : List Str} (h : ¬ AreComponents parts) :
    componentsToSeconds parts = 0 := by
  by_cases hbad : (parts.length ≠ 2 ∧ parts.length ≠ 3) ∨
      (parts.any fun part => !isComponent part) = true
  · exact if_pos hbad
  · have hcount : parts.length = 2 ∨ parts.length = 3 := by
      by_contra hno
      exact hbad (.inl (not_or.mp hno))
    have hdecimal : ∀ part ∈ parts, isComponent part = true := by
      intro part hmem
      by_contra hno
      rw [Bool.not_eq_true] at hno
      exact hbad (.inr (List.any_eq_true.mpr ⟨part, hmem, by rw [hno]; rfl⟩))
    by_cases hshort : ∀ part ∈ parts, part.length ≤ intMaxStrDigits
    · rw [componentsToSeconds_eq hcount hdecimal hshort, if_neg]
      rintro ⟨hbelow, hbounded⟩
      exact h ⟨hcount, fun part hmem => (isComponent_iff part).mp (hdecimal part hmem), hshort,
        hbelow, hbounded⟩
    · unfold componentsToSeconds
      rw [if_neg hbad, mapM_toInt? hdecimal, if_neg hshort]

theorem sensorStateToSeconds_colon {raw : Str} (h : colon ∈ raw) :
    sensorStateToSeconds (some raw) = componentsToSeconds (raw.strip.splitOn colon) := by
  have hnumeric : parseNumericState (some raw) = none := by
    unfold parseNumericState
    dsimp only
    rw [ofText_colon h]
    exact ite_self none
  unfold sensorStateToSeconds
  rw [hnumeric]
  rfl

theorem sensorStateToSeconds_duration {raw : Str} {parts : List Str} (hcolon : colon ∈ raw)
    (h : IsDuration raw parts) : sensorStateToSeconds (some raw) = totalSeconds parts := by
  have hparts : raw.strip.splitOn colon = parts := by
    rw [h.text]
    apply List.splitOn_intercalate
    · intro part hmem
      exact colon_notMem (List.all_eq_true.mpr (h.decimal part hmem).2)
    · rintro rfl
      exact absurd h.count (by decide)
  rw [sensorStateToSeconds_colon hcolon, hparts, componentsToSeconds_total h.toAreComponents]

theorem sensorStateToSeconds_zero {raw : Str} (hcolon : colon ∈ raw)
    (h : ¬ ∃ parts, IsDuration raw parts) : sensorStateToSeconds (some raw) = 0 := by
  rw [sensorStateToSeconds_colon hcolon]
  apply componentsToSeconds_zero
  intro hparts
  exact h ⟨raw.strip.splitOn colon, hparts, (List.intercalate_splitOn colon).symm⟩

/-! ## Formatting -/

theorem padded_component : ∀ n : Fin 60,
    isComponent (padded 2 n) = true ∧ asciiNat (padded 2 n) = n ∧ (padded 2 n).length = 2 := by
  decide +kernel

theorem length_natStr {n : Nat} (h : (n : Int) ≤ maxDurationSeconds) :
    (natStr n).length ≤ intMaxStrDigits := by
  have hpow : n < 10 ^ 16 := by
    have hmax : maxDurationSeconds < 10 ^ 16 := by decide
    omega
  have hlen : (Nat.toDigits 10 n).length ≤ 16 :=
    (Nat.length_toDigits_le_iff (by decide) (by decide)).mpr hpow
  unfold natStr
  rw [List.length_map]
  exact hlen.trans (by decide)

/-- A number below sixty, in two digits. -/
theorem padded_two {n : Nat} (h : n < 60) :
    (padded 2 n ≠ [] ∧ ∀ c ∈ padded 2 n, asciiDigit c = true) ∧ asciiNat (padded 2 n) = n ∧
      (padded 2 n).length ≤ intMaxStrDigits := by
  obtain ⟨hcomponent, hvalue, hlength⟩ := padded_component ⟨n, h⟩
  dsimp only at hcomponent hvalue hlength
  refine ⟨(isComponent_iff _).mp hcomponent, hvalue, ?_⟩
  rw [hlength]
  decide

theorem natStr_component {n : Nat} (h : (n : Int) ≤ maxDurationSeconds) :
    (natStr n ≠ [] ∧ ∀ c ∈ natStr n, asciiDigit c = true) ∧ (natStr n).length ≤ intMaxStrDigits :=
  ⟨⟨Json.natStr_ne_nil n, fun _ hc => Json.asciiDigit_of_mem_natStr hc⟩, length_natStr h⟩

theorem mem_intercalate {c : CodePoint} {parts : List Str}
    (h : c ∈ [colon].intercalate parts) : c = colon ∨ ∃ part ∈ parts, c ∈ part := by
  induction parts with
  | nil =>
    rw [List.intercalate_nil] at h
    exact absurd h List.not_mem_nil
  | cons part parts ih =>
    by_cases hne : parts = []
    · rw [hne, List.intercalate_singleton] at h
      exact .inr ⟨part, List.mem_cons_self, h⟩
    · rw [List.intercalate_cons_of_ne_nil hne, List.mem_append, List.mem_append] at h
      rcases h with (hpart | hcolon) | hrest
      · exact .inr ⟨part, List.mem_cons_self, hpart⟩
      · exact .inl (List.mem_singleton.mp hcolon)
      · rcases ih hrest with hcolon | ⟨other, hmem, hc⟩
        · exact .inl hcolon
        · exact .inr ⟨other, List.mem_cons_of_mem _ hmem, hc⟩

/-- Components written with colons between them, and no space. -/
theorem isDuration_intercalate {parts : List Str} (h : AreComponents parts) :
    IsDuration ([colon].intercalate parts) parts := by
  refine ⟨h, strip_eq_self ?_⟩
  intro c hc
  rcases mem_intercalate hc with rfl | ⟨part, hmem, hpart⟩
  · decide
  · exact isspace_digit ((h.decimal part hmem).2 c hpart)

theorem formatMinutes_eq (s : Nat) :
    formatMinutes s = [colon].intercalate [natStr (s / 60), padded 2 (s % 60)] := by
  rw [List.intercalate_cons_cons, List.intercalate_singleton]
  rfl

theorem formatHours_eq (s : Nat) :
    formatHours s =
      [colon].intercalate [natStr (s / 3600), padded 2 (s / 60 % 60), padded 2 (s % 60)] := by
  rw [List.intercalate_cons_cons, List.intercalate_cons_cons, List.intercalate_singleton]
  unfold formatHours
  simp only [List.append_assoc]

theorem areComponents_minutes {s : Nat} (h : (s : Int) ≤ maxDurationSeconds) :
    AreComponents [natStr (s / 60), padded 2 (s % 60)] ∧
      totalSeconds [natStr (s / 60), padded 2 (s % 60)] = s := by
  have hminutes := natStr_component (n := s / 60) (by omega)
  have hseconds := padded_two (n := s % 60) (by omega)
  have htotal : totalSeconds [natStr (s / 60), padded 2 (s % 60)] = s := by
    simp only [totalSeconds, Json.asciiNat_natStr, hseconds.2.1]
    omega
  refine ⟨⟨.inl rfl, ?_, ?_, ?_, ?_⟩, htotal⟩
  · simp only [List.forall_mem_cons]
    exact ⟨hminutes.1, hseconds.1, List.forall_mem_nil _⟩
  · simp only [List.forall_mem_cons]
    exact ⟨hminutes.2, hseconds.2.2, List.forall_mem_nil _⟩
  · simp only [List.tail_cons, List.forall_mem_cons, hseconds.2.1]
    exact ⟨Nat.mod_lt _ (by decide), List.forall_mem_nil _⟩
  · rw [htotal]
    exact h

theorem areComponents_hours {s : Nat} (h : (s : Int) ≤ maxDurationSeconds) :
    AreComponents [natStr (s / 3600), padded 2 (s / 60 % 60), padded 2 (s % 60)] ∧
      totalSeconds [natStr (s / 3600), padded 2 (s / 60 % 60), padded 2 (s % 60)] = s := by
  have hhours := natStr_component (n := s / 3600) (by omega)
  have hminutes := padded_two (n := s / 60 % 60) (by omega)
  have hseconds := padded_two (n := s % 60) (by omega)
  have htotal :
      totalSeconds [natStr (s / 3600), padded 2 (s / 60 % 60), padded 2 (s % 60)] = s := by
    simp only [totalSeconds, Json.asciiNat_natStr, hminutes.2.1, hseconds.2.1]
    omega
  refine ⟨⟨.inr rfl, ?_, ?_, ?_, ?_⟩, htotal⟩
  · simp only [List.forall_mem_cons]
    exact ⟨hhours.1, hminutes.1, hseconds.1, List.forall_mem_nil _⟩
  · simp only [List.forall_mem_cons]
    exact ⟨hhours.2, hminutes.2.2, hseconds.2.2, List.forall_mem_nil _⟩
  · simp only [List.tail_cons, List.forall_mem_cons, hminutes.2.1, hseconds.2.1]
    exact ⟨Nat.mod_lt _ (by decide), Nat.mod_lt _ (by decide), List.forall_mem_nil _⟩
  · rw [htotal]
    exact h

/-- Formatting a number of seconds and parsing it gives it back. -/
theorem sensorStateToSeconds_format {s : Nat} (h : (s : Int) ≤ maxDurationSeconds) :
    sensorStateToSeconds (some (formatMinutes s)) = s ∧
      sensorStateToSeconds (some (formatHours s)) = s := by
  constructor
  · obtain ⟨hparts, htotal⟩ := areComponents_minutes h
    have hcolon : colon ∈ formatMinutes s := by simp [formatMinutes]
    rw [formatMinutes_eq] at hcolon ⊢
    rw [sensorStateToSeconds_duration hcolon (isDuration_intercalate hparts), htotal]
  · obtain ⟨hparts, htotal⟩ := areComponents_hours h
    have hcolon : colon ∈ formatHours s := by simp [formatHours]
    rw [formatHours_eq] at hcolon ⊢
    rw [sensorStateToSeconds_duration hcolon (isDuration_intercalate hparts), htotal]

/-- A text with a colon is the total of its components if it is a duration, and zero if not;
    what `formatMinutes` and `formatHours` write is read back. -/
theorem duration_agrees :
    (∀ raw, colon ∈ raw →
      (∀ parts, IsDuration raw parts → sensorStateToSeconds (some raw) = totalSeconds parts) ∧
      ((¬ ∃ parts, IsDuration raw parts) → sensorStateToSeconds (some raw) = 0)) ∧
    ∀ s : Nat, (s : Int) ≤ maxDurationSeconds →
      sensorStateToSeconds (some (formatMinutes s)) = s ∧
        sensorStateToSeconds (some (formatHours s)) = s :=
  ⟨fun _ hcolon => ⟨fun _ => sensorStateToSeconds_duration hcolon,
    sensorStateToSeconds_zero hcolon⟩, fun _ => sensorStateToSeconds_format⟩

example : sensorStateToSeconds (some (Str.lit "150119987579016:31")) = maxDurationSeconds := by
  decide +kernel

end InverterDashboard.HomeAssistant
