import InverterDashboard.Python.Text

/-
  Topic filters.

  A topic is the list of its levels. In a filter `+` stands for one level and a final `#` for
  whatever follows, nothing included: `a/+/#` matches `a/b`. A filter that begins with a wildcard
  does not select the topics that begin with `$`.
-/

namespace Mqtt

open Python

universe u

section Levels

variable {α : Type u}

/-- A level of a filter. -/
inductive Level (α : Type u) where
  | name (a : α)
  | one
  | rest
  deriving DecidableEq

inductive Matches : List (Level α) → List α → Prop
  | nil : Matches [] []
  | name {f : List (Level α)} {t : List α} (a : α) : Matches f t → Matches (.name a :: f) (a :: t)
  | one {f : List (Level α)} {t : List α} (a : α) : Matches f t → Matches (.one :: f) (a :: t)
  | rest (t : List α) : Matches [.rest] t

/-- `Matches`, computed. -/
def matchesLevels [DecidableEq α] : List (Level α) → List α → Bool
  | [], [] => true
  | .name a :: f, b :: t => a = b && matchesLevels f t
  | .one :: f, _ :: t => matchesLevels f t
  | [.rest], _ => true
  | _, _ => false

theorem matchesLevels_iff [DecidableEq α] (f : List (Level α)) (t : List α) :
    matchesLevels f t = true ↔ Matches f t := by
  constructor
  · intro h
    induction f, t using matchesLevels.induct with
    | case1 => exact .nil
    | case2 a f b t ih =>
      unfold matchesLevels at h
      rw [Bool.and_eq_true, decide_eq_true_eq] at h
      obtain ⟨rfl, h⟩ := h
      exact .name a (ih h)
    | case3 f b t ih => exact .one b (ih h)
    | case4 t => exact .rest t
    | case5 f t h₁ h₂ h₃ h₄ => simp [matchesLevels] at h
  · intro h
    induction h with
    | nil => rfl
    | name a _ ih => simp [matchesLevels, ih]
    | one a _ ih => simp [matchesLevels, ih]
    | rest t => cases t <;> rfl

theorem matches_name_iff {a : α} {f : List (Level α)} {t : List α} :
    Matches (.name a :: f) t ↔ ∃ t', t = a :: t' ∧ Matches f t' := by
  constructor
  · intro h
    cases h with
    | name _ h => exact ⟨_, rfl, h⟩
  · rintro ⟨t', rfl, h⟩
    exact .name a h

theorem matches_one_iff {f : List (Level α)} {t : List α} :
    Matches (.one :: f) t ↔ ∃ a t', t = a :: t' ∧ Matches f t' := by
  constructor
  · intro h
    cases h with
    | one a h => exact ⟨a, _, rfl, h⟩
  · rintro ⟨a, t', rfl, h⟩
    exact .one a h

/-- A filter without wildcards selects one topic. -/
theorem matches_names_iff {names t : List α} : Matches (names.map .name) t ↔ t = names := by
  induction names generalizing t with
  | nil =>
    constructor
    · rintro ⟨⟩
      rfl
    · rintro rfl
      exact .nil
  | cons a names ih =>
    rw [List.map_cons, matches_name_iff]
    simp only [ih]
    simp

end Levels

/-! ## Texts -/

/-- A level as it is written. -/
def Level.ofText (text : Str) : Level Str :=
  if text = Str.lit "+" then .one else if text = Str.lit "#" then .rest else .name text

def levels (filter : Str) : List (Level Str) := filter.splitSlash.map Level.ofText

/-- The first level is a wildcard. -/
def isOpen : List (Level Str) → Bool
  | .one :: _ | .rest :: _ => true
  | _ => false

/-- A broker forwards a topic to the owner of a filter. -/
def selects (filter topic : Str) : Bool :=
  matchesLevels (levels filter) topic.splitSlash &&
    !(isOpen (levels filter) && (Str.lit "$").isPrefixOf topic)

/-- No wildcard is in the name of a topic that is published. -/
def isTopicName (topic : Str) : Bool :=
  topic.all fun c => c ≠ CodePoint.ofChar '+' ∧ c ≠ CodePoint.ofChar '#'

theorem mem_of_mem_splitOn {α : Type u} [DecidableEq α] {sep : α} {s part : List α}
    (hpart : part ∈ s.splitOn sep) : sep ∉ part ∧ ∀ c ∈ part, c ∈ s := by
  induction s generalizing part with
  | nil =>
    rw [List.splitOn_nil, List.mem_singleton] at hpart
    rw [hpart]
    simp
  | cons x s ih =>
    rw [List.splitOn_cons_eq_if_modifyHead] at hpart
    split at hpart
    · rcases List.mem_cons.mp hpart with rfl | hpart
      · simp
      · obtain ⟨hsep, hmem⟩ := ih hpart
        exact ⟨hsep, fun c hc => List.mem_cons_of_mem _ (hmem c hc)⟩
    · next hne =>
      cases hs : s.splitOn sep with
      | nil => exact absurd hs (List.splitOn_ne_nil sep s)
      | cons first parts =>
        rw [hs] at hpart ih
        rcases List.mem_cons.mp hpart with rfl | hpart
        · obtain ⟨hsep, hmem⟩ := ih List.mem_cons_self
          refine ⟨?_, fun c hc => ?_⟩
          · rw [List.mem_cons, not_or]
            exact ⟨fun h => hne (by simp [h]), hsep⟩
          · rcases List.mem_cons.mp hc with rfl | hc
            · exact List.mem_cons_self
            · exact List.mem_cons_of_mem _ (hmem c hc)
        · obtain ⟨hsep, hmem⟩ := ih (List.mem_cons_of_mem _ hpart)
          exact ⟨hsep, fun c hc => List.mem_cons_of_mem _ (hmem c hc)⟩

/-- The level of a text that is neither wildcard. -/
theorem ofText_name {text : Str} (h : isTopicName text = true) : Level.ofText text = .name text := by
  unfold Level.ofText
  rw [if_neg, if_neg]
  · rintro rfl
    revert h
    decide
  · rintro rfl
    revert h
    decide

/-- A part of a topic name is one. -/
theorem isTopicName_part {topic part : Str} (h : isTopicName topic = true)
    (hpart : part ∈ topic.splitSlash) : isTopicName part = true :=
  List.all_eq_true.mpr fun c hc => List.all_eq_true.mp h c ((mem_of_mem_splitOn hpart).2 c hc)

theorem selects_iff {filter topic : Str} (h : isOpen (levels filter) = false) :
    selects filter topic = true ↔ Matches (levels filter) topic.splitSlash := by
  unfold selects
  rw [h, Bool.false_and, Bool.not_false, Bool.and_true]
  exact matchesLevels_iff _ _

end Mqtt
