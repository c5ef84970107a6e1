import InverterDashboard.Json.Number
import InverterDashboard.Json.Text
import InverterDashboard.Python.Decimal

/-
  `json.loads` of a text: the tree it reads, and the value it builds from the tree with a hook for
  the numbers that have a fraction or an exponent.

  Three things can go wrong: the text is not JSON, it nests deeper than the runtime follows, or it
  holds an integer of more digits than `int` converts. Whichever comes first in the text is raised;
  only the first is a `JSONDecodeError`.
-/

namespace Json

open Python

/-! ## Trees -/

/-- A JSON text, with the literals of its numbers and the members of its objects as written. -/
inductive Tree where
  | null
  | bool (b : Bool)
  /-- `NaN`, which Python reads too. -/
  | nan
  | infinity (negative : Bool)
  | number (n : Number)
  | str (s : Str)
  | arr (items : List Tree)
  | obj (members : List (Str × Tree))

namespace Tree

/-- `parse_float`: what becomes of a number with a fraction or an exponent. -/
abbrev Hook := Number → Value

/-- `float`, the default. -/
def rounded : Hook := fun n => .float ((Float64.ofText n.text).getD .nan)

mutual

/-- The value of a tree. Of members with one key the last counts. -/
def value (hook : Hook) : Tree → Value
  | .null => .none
  | .bool b => .bool b
  | .nan => .float .nan
  | .infinity negative => .float (.inf negative)
  | .number n => if n.isReal then hook n else .int n.toInt
  | .str s => .str s
  | .arr items => .list (values hook items)
  | .obj ms => .dict (Dict.ofList (members hook ms)).entries

def values (hook : Hook) : List Tree → List Value
  | [] => []
  | t :: ts => value hook t :: values hook ts

def members (hook : Hook) : List (Str × Tree) → List (Str × Value)
  | [] => []
  | (k, t) :: ms => (k, value hook t) :: members hook ms

end

theorem mem_members {hook : Hook} {ms : List (Str × Tree)} {k : Str} {v : Value}
    (h : (k, v) ∈ members hook ms) : ∃ t, (k, t) ∈ ms ∧ t.value hook = v := by
  induction ms with
  | nil => cases h
  | cons m ms ih =>
    rw [members, List.mem_cons] at h
    rcases h with heq | h
    · obtain ⟨rfl, rfl⟩ := Prod.mk.inj heq
      exact ⟨m.2, List.mem_cons_self, rfl⟩
    · obtain ⟨t, ht, hvalue⟩ := ih h
      exact ⟨t, List.mem_cons_of_mem _ ht, hvalue⟩

/-- The last member of a key, which counts. -/
def lastMember (k : Str) : List (Str × Tree) → Option Tree
  | [] => none
  | (key, t) :: ms => (lastMember k ms).or (if k = key then some t else none)

theorem get?_members (hook : Hook) (ms : List (Str × Tree)) (k : Str) :
    (Dict.ofList (members hook ms)).get? k = (lastMember k ms).map (value hook) := by
  have hfold : ∀ d : Object, ((members hook ms).foldl (fun d e => d.set e.1 e.2) d).get? k =
      ((lastMember k ms).map (value hook)).or (d.get? k) := by
    induction ms with
    | nil => exact fun d => rfl
    | cons m ms ih =>
      obtain ⟨key, t⟩ := m
      intro d
      rw [members, List.foldl_cons, ih, Dict.get?_set, lastMember]
      cases lastMember k ms with
      | some t' => rfl
      | none =>
        split <;> rfl
  unfold Dict.ofList
  rw [hfold, Dict.get?_empty, Option.or_none]

theorem str_of_value_rounded {t : Tree} {s : Str} (h : t.value rounded = .str s) : t = .str s := by
  cases t with
  | str _ => rw [Value.str.inj h]
  | number n =>
    unfold value at h
    split at h <;> cases h
  | _ => cases h

end Tree

/-! ## Scanning -/

inductive Failure where
  /-- `JSONDecodeError`. -/
  | malformed
  /-- `RecursionError`. -/
  | nesting
  /-- `ValueError`: too many digits. -/
  | digits
  deriving DecidableEq

def isBlank (c : CodePoint) : Bool :=
  c = CodePoint.ofChar ' ' || c.val = 0x09 || c.val = 0x0a || c.val = 0x0d

/-- The text after blanks. -/
def skip (s : Str) : Str := s.dropWhile isBlank

def openBrace : CodePoint := CodePoint.ofChar '\x7b'

def closeBrace : CodePoint := CodePoint.ofChar '\x7d'

def openBracket : CodePoint := CodePoint.ofChar '['

def closeBracket : CodePoint := CodePoint.ofChar ']'

def commaPoint : CodePoint := CodePoint.ofChar ','

section Containers

variable {α : Type} (read : Str → Except Failure (α × Str)) (close : CodePoint)

/-- What a container holds, at least one, and what closes it. All but the last take a comma off the
    text, so that its length bounds their number. -/
def scanSequence : Nat → Str → Except Failure (List α × Str)
  | 0, _ => .error .malformed
  | n + 1, s => do
    let (item, s) ← read s
    match skip s with
    | [] => .error .malformed
    | c :: s =>
      if c = close then return ([item], s)
      else if c = commaPoint then do
        let (items, s) ← scanSequence n (skip s)
        return (item :: items, s)
      else .error .malformed

/-- What a container holds, after what opens it. -/
def scanContainer (s : Str) : Except Failure (List α × Str) :=
  match skip s with
  | [] => .error .malformed
  | c :: rest =>
    if c = close then .ok ([], rest) else scanSequence read close (rest.length + 2) (c :: rest)

end Containers

section Terms

variable (value : Str → Except Failure (Tree × Str))

/-- A member of an object: a key, a colon and a value. -/
def scanMember (s : Str) : Except Failure ((Str × Tree) × Str) :=
  match s with
  | [] => .error .malformed
  | c :: s =>
    if c = quotes then
      match scanString s with
      | none => .error .malformed
      | some (key, s) =>
        match skip s with
        | [] => .error .malformed
        | c :: s =>
          if c = colon then do
            let (item, s) ← value (skip s)
            return ((key, item), s)
          else .error .malformed
    else .error .malformed

/-- `_parse_array`. -/
def scanArray (s : Str) : Except Failure (Tree × Str) := do
  let (items, s) ← scanContainer value closeBracket s
  return (.arr items, s)

/-- `_parse_object`. -/
def scanObject (s : Str) : Except Failure (Tree × Str) := do
  let (members, s) ← scanContainer (scanMember value) closeBrace s
  return (.obj members, s)

end Terms

/-! ## Words and terms -/

/-- The words of JSON, and those that Python reads too. -/
def constants : List (Str × Tree) :=
  [(Str.lit "null", .null), (Str.lit "true", .bool true), (Str.lit "false", .bool false),
   (Str.lit "NaN", .nan), (Str.lit "Infinity", .infinity false),
   (Str.lit "-Infinity", .infinity true)]

/-- A word or a number. -/
def scanPlain (s : Str) : Except Failure (Tree × Str) :=
  match constants.find? fun c => c.1.isPrefixOf s with
  | some (word, tree) => .ok (tree, s.drop word.length)
  | none =>
    match scanNumber s with
    | some (n, rest) =>
      -- An integer is converted when it is read.
      if n.isReal = false ∧ intMaxStrDigits < n.whole.text.length then .error .digits
      else .ok (.number n, rest)
    | none => .error .malformed

/-- `scan_once`, with what reads the items of a container, unless it is nested too deep. -/
def scanTerm (inner : Option (Str → Except Failure (Tree × Str))) (s : Str) : Except Failure (Tree × Str) :=
  match s with
  | [] => .error .malformed
  | c :: rest =>
    if c = quotes then
      match scanString rest with
      | some (text, rest) => .ok (.str text, rest)
      | none => .error .malformed
    else if c = openBrace then
      match inner with
      | some value => scanObject value rest
      | none => .error .nesting
    else if c = openBracket then
      match inner with
      | some value => scanArray value rest
      | none => .error .nesting
    else scanPlain (c :: rest)

/-- `scan_once`, at most so many containers deep. -/
def scanOnce : Nat → Str → Except Failure (Tree × Str)
  | 0 => scanTerm none
  | depth + 1 => scanTerm (some (scanOnce depth))

def byteOrderMark : CodePoint := 0xfeff

/-- `json.loads` of a text, as a tree. -/
def loads (depth : Nat) (s : Str) : Except Failure Tree :=
  if s.head? = some byteOrderMark then .error .malformed
  else
    match scanOnce depth (skip s) with
    | .error e => .error e
    | .ok (tree, rest) => if skip rest = [] then .ok tree else .error .malformed

/-! ## What is left over -/

/-- A reader takes something off the text in front. -/
def Consumes {α : Type} (read : Str → Except Failure (α × Str)) : Prop :=
  ∀ s x rest, read s = .ok (x, rest) → rest <:+ s ∧ rest.length < s.length

theorem skip_suffix (s : Str) : skip s <:+ s := List.dropWhile_suffix _

theorem bind_ok {α β : Type} {x : Except Failure α} {f : α → Except Failure β} {b : β}
    (h : (x >>= f) = .ok b) : ∃ a, x = .ok a ∧ f a = .ok b := by
  cases x with
  | error e => cases h
  | ok a => exact ⟨a, rfl, h⟩

theorem scanString_consumes {s t rest : Str} (h : scanString s = some (t, rest)) :
    rest <:+ s ∧ rest.length < s.length := scanStringFrom_rest h

/-- What follows the next code point that is not a blank. -/
theorem skip_cons {s rest : Str} {c : CodePoint} (h : skip s = c :: rest) :
    rest <:+ s ∧ rest.length < s.length := by
  have hsuffix : c :: rest <:+ s := h ▸ skip_suffix s
  have hlen := hsuffix.length_le
  rw [List.length_cons] at hlen
  exact ⟨(List.suffix_cons c rest).trans hsuffix, by omega⟩

theorem scanPlain_consumes : Consumes scanPlain := by
  intro s tree rest h
  unfold scanPlain at h
  split at h
  · next word t hfind =>
    cases h
    have hword := List.find?_some hfind
    have hne : 0 < word.length := by
      have hmem := List.mem_of_find?_eq_some hfind
      have hall : ∀ c ∈ constants, 0 < c.1.length := by
        unfold constants
        simp only [List.forall_mem_cons, List.not_mem_nil, false_implies, implies_true, and_true]
        decide
      exact hall _ hmem
    have hlen := (List.isPrefixOf_iff_prefix.mp hword).length_le
    refine ⟨List.drop_suffix _ _, ?_⟩
    rw [List.length_drop]
    dsimp only at hlen
    omega
  · split at h
    · next n t hscan =>
      split at h
      · cases h
      · cases h
        exact scanNumber_rest hscan
    · cases h

section Loops

variable {α : Type} {read : Str → Except Failure (α × Str)} {close : CodePoint}

/-- One round of the loop. -/
theorem scanSequence_succ {n : Nat} {s rest : Str} {items : List α}
    (h : scanSequence read close (n + 1) s = .ok (items, rest)) :
    ∃ item t c u, read s = .ok (item, t) ∧ skip t = c :: u ∧
      (c = close ∧ items = [item] ∧ rest = u ∨
        ∃ tail, scanSequence read close n (skip u) = .ok (tail, rest) ∧ items = item :: tail) := by
  obtain ⟨⟨item, t⟩, hread, hrest⟩ := bind_ok h
  dsimp only at hrest
  split at hrest
  · cases hrest
  · next c u hskip =>
    refine ⟨item, t, c, u, hread, hskip, ?_⟩
    split at hrest
    · next hclose =>
      cases hrest
      exact Or.inl ⟨hclose, rfl, rfl⟩
    · split at hrest
      · obtain ⟨⟨tail, v⟩, htail, heq⟩ := bind_ok hrest
        cases heq
        exact Or.inr ⟨tail, htail, rfl⟩
      · cases hrest

theorem scanSequence_consumes (h : Consumes read) (n : Nat) :
    Consumes (scanSequence read close n) := by
  induction n with
  | zero =>
    intro s items rest hs
    cases hs
  | succ n ih =>
    intro s items rest hs
    obtain ⟨item, t, c, u, hread, hskip, hrest⟩ := scanSequence_succ hs
    obtain ⟨h₁, l₁⟩ := h _ _ _ hread
    obtain ⟨h₂, l₂⟩ := skip_cons hskip
    rcases hrest with ⟨-, -, rfl⟩ | ⟨tail, htail, -⟩
    · exact ⟨h₂.trans h₁, by omega⟩
    · obtain ⟨h₃, l₃⟩ := ih _ _ _ htail
      have hlen := (skip_suffix u).length_le
      exact ⟨h₃.trans ((skip_suffix u).trans (h₂.trans h₁)), by omega⟩

theorem scanContainer_consumes (h : Consumes read) : Consumes (scanContainer read close) := by
  intro s items rest hs
  unfold scanContainer at hs
  split at hs
  · cases hs
  · next c u hskip =>
    split at hs
    · cases hs
      exact skip_cons hskip
    · obtain ⟨h₁, l₁⟩ := scanSequence_consumes h _ _ _ _ hs
      rw [← hskip] at h₁ l₁
      have hlen := (skip_suffix s).length_le
      exact ⟨h₁.trans (skip_suffix s), by omega⟩

/-- The bound on the loop does not matter once the text is shorter than it. -/
theorem scanSequence_enough (h : Consumes read) {n : Nat} :
    ∀ {s : Str}, s.length < n → scanSequence read close (n + 1) s = scanSequence read close n s := by
  induction n with
  | zero =>
    intro s hs
    exact absurd hs (Nat.not_lt_zero _)
  | succ n ih =>
    intro s hs
    rw [scanSequence, scanSequence]
    cases hread : read s with
    | error e => rfl
    | ok p =>
      obtain ⟨item, t⟩ := p
      have hlt := (h _ _ _ hread).2
      show (match skip t with | [] => _ | c :: s => _) = (match skip t with | [] => _ | c :: s => _)
      cases hskip : skip t with
      | nil => rfl
      | cons c u =>
        have hu := (skip_cons hskip).2
        have hlen := (skip_suffix u).length_le
        dsimp only
        rw [ih (by omega)]

end Loops

variable {value : Str → Except Failure (Tree × Str)}

theorem scanMember_consumes (h : Consumes value) : Consumes (scanMember value) := by
  intro s member rest hs
  unfold scanMember at hs
  repeat' split at hs
  all_goals try cases hs
  next c s hquote _ key t hkey _ d t' hcolon _ =>
    obtain ⟨⟨item, u⟩, hitem, heq⟩ := bind_ok hs
    cases heq
    obtain ⟨h₁, l₁⟩ := h _ _ _ hitem
    obtain ⟨h₂, l₂⟩ := skip_cons hcolon
    obtain ⟨h₃, l₃⟩ := scanString_consumes hkey
    have hskip := skip_suffix t'
    have hlen := hskip.length_le
    refine ⟨h₁.trans (hskip.trans (h₂.trans (h₃.trans (List.suffix_cons c s)))), ?_⟩
    rw [List.length_cons]
    omega

theorem scanArray_consumes (h : Consumes value) : Consumes (scanArray value) := by
  intro s tree rest hs
  obtain ⟨⟨items, t⟩, hitems, heq⟩ := bind_ok hs
  cases heq
  exact scanContainer_consumes h _ _ _ hitems

theorem scanObject_consumes (h : Consumes value) : Consumes (scanObject value) := by
  intro s tree rest hs
  obtain ⟨⟨members, t⟩, hmembers, heq⟩ := bind_ok hs
  cases heq
  exact scanContainer_consumes (scanMember_consumes h) _ _ _ hmembers

theorem scanTerm_consumes {inner : Option (Str → Except Failure (Tree × Str))}
    (h : ∀ value, inner = some value → Consumes value) : Consumes (scanTerm inner) := by
  intro s tree rest hs
  cases s with
  | nil => cases hs
  | cons c s =>
    have hback : ∀ {t : Str}, t <:+ s ∧ t.length < s.length →
        t <:+ c :: s ∧ t.length < (c :: s).length := fun ht =>
      ⟨ht.1.trans (List.suffix_cons c s), by rw [List.length_cons]; omega⟩
    unfold scanTerm at hs
    dsimp only at hs
    split at hs
    · split at hs
      · next text t hscan =>
        cases hs
        exact hback (scanString_consumes hscan)
      · cases hs
    split at hs
    · cases hinner : inner with
      | none =>
        rw [hinner] at hs
        cases hs
      | some value =>
        rw [hinner] at hs
        exact hback (scanObject_consumes (h value hinner) _ _ _ hs)
    split at hs
    · cases hinner : inner with
      | none =>
        rw [hinner] at hs
        cases hs
      | some value =>
        rw [hinner] at hs
        exact hback (scanArray_consumes (h value hinner) _ _ _ hs)
    exact scanPlain_consumes _ _ _ hs

theorem scanOnce_consumes (depth : Nat) : Consumes (scanOnce depth) := by
  induction depth with
  | zero => exact scanTerm_consumes fun _ h => (nomatch h)
  | succ depth ih => exact scanTerm_consumes fun _ h => Option.some.inj h ▸ ih

/-! ## Texts of a tree -/

/-- The strings of a tree, as far as a reader of its members sees them, are joined. -/
structure Tidy (tree : Tree) : Prop where
  text : ∀ s, tree = .str s → Joined s
  members : ∀ ms, tree = .obj ms → ∀ k s, (k, Tree.str s) ∈ ms → Joined s

theorem Scalar.suffix {s t : Str} (hs : Scalar s) (h : t <:+ s) : Scalar t :=
  fun c hc => hs c (h.subset hc)

/-- A property of what is read in front of scalar texts. -/
def Reads {α : Type} (read : Str → Except Failure (α × Str)) (p : α → Prop) : Prop :=
  ∀ s x rest, Scalar s → read s = .ok (x, rest) → p x

theorem scanSequence_reads {α : Type} {read : Str → Except Failure (α × Str)} {p : α → Prop}
    {close : CodePoint} (hread : Consumes read) (h : Reads read p) (n : Nat) :
    Reads (scanSequence read close n) fun items => ∀ x ∈ items, p x := by
  induction n with
  | zero =>
    intro s items rest _ hs
    cases hs
  | succ n ih =>
    intro s items rest hscalar hs
    obtain ⟨item, t, c, u, hitem, hskip, hrest⟩ := scanSequence_succ hs
    have hp := h _ _ _ hscalar hitem
    rcases hrest with ⟨-, rfl, -⟩ | ⟨tail, htail, rfl⟩
    · exact fun x hx => List.mem_singleton.mp hx ▸ hp
    · have hu : Scalar (skip u) := hscalar.suffix
        ((skip_suffix u).trans ((skip_cons hskip).1.trans (hread _ _ _ hitem).1))
      rintro x (_ | ⟨_, hx⟩)
      · exact hp
      · exact ih _ _ _ hu htail x hx

theorem scanMember_reads {value : Str → Except Failure (Tree × Str)} (h : Reads value Tidy) :
    Reads (scanMember value) fun m => Tidy m.2 := by
  intro s member rest hscalar hs
  unfold scanMember at hs
  repeat' split at hs
  all_goals try cases hs
  next c s hquote _ key t hkey _ d t' hcolon _ =>
    obtain ⟨⟨item, u⟩, hitem, heq⟩ := bind_ok hs
    cases heq
    have hsuffix : skip t' <:+ c :: s := (skip_suffix t').trans
      ((skip_cons hcolon).1.trans ((scanString_consumes hkey).1.trans (List.suffix_cons c s)))
    exact h _ _ _ (hscalar.suffix hsuffix) hitem

theorem scanPlain_tidy {s rest : Str} {tree : Tree} (h : scanPlain s = .ok (tree, rest)) :
    Tidy tree := by
  have hplain : (∀ t, tree ≠ .str t) ∧ ∀ ms, tree ≠ .obj ms := by
    unfold scanPlain at h
    split at h
    · next hfind =>
      cases h
      have hmem := List.mem_of_find?_eq_some hfind
      simp only [constants, List.mem_cons, Prod.mk.injEq, List.not_mem_nil, or_false] at hmem
      rcases hmem with ⟨-, rfl⟩ | ⟨-, rfl⟩ | ⟨-, rfl⟩ | ⟨-, rfl⟩ | ⟨-, rfl⟩ | ⟨-, rfl⟩ <;>
        exact ⟨fun _ h => (nomatch h), fun _ h => (nomatch h)⟩
    · repeat' split at h
      all_goals cases h
      exact ⟨fun _ h => (nomatch h), fun _ h => (nomatch h)⟩
  exact ⟨fun t ht => absurd ht (hplain.1 t), fun ms hms => absurd hms (hplain.2 ms)⟩

theorem scanTerm_tidy {inner : Option (Str → Except Failure (Tree × Str))}
    (hinner : ∀ value, inner = some value → Consumes value)
    (h : ∀ value, inner = some value → Reads value Tidy) : Reads (scanTerm inner) Tidy := by
  intro s tree rest hscalar hs
  cases s with
  | nil => cases hs
  | cons c s =>
    have hback : Scalar s := hscalar.suffix (List.suffix_cons c s)
    unfold scanTerm at hs
    dsimp only at hs
    split at hs
    · split at hs
      · next text t hscan =>
        cases hs
        exact ⟨fun t ht => Tree.str.inj ht ▸ joined_scanString hback hscan, fun _ h => (nomatch h)⟩
      · cases hs
    split at hs
    · cases heq : inner with
      | none =>
        rw [heq] at hs
        cases hs
      | some value =>
        rw [heq] at hs
        obtain ⟨⟨ms, t⟩, hms, hok⟩ := bind_ok hs
        cases hok
        refine ⟨fun _ h => (nomatch h), fun ms' hms' k t hmem => ?_⟩
        obtain rfl := Tree.obj.inj hms'
        unfold scanContainer at hms
        split at hms
        · cases hms
        · next d u hskip =>
          split at hms
          · cases hms
            cases hmem
          · have hscalar' : Scalar (d :: u) := hskip ▸ hback.suffix (skip_suffix s)
            have hmember := scanSequence_reads (scanMember_consumes (hinner value heq))
              (scanMember_reads (h value heq)) _ _ _ _ hscalar' hms _ hmem
            exact hmember.text t rfl
    split at hs
    · cases heq : inner with
      | none =>
        rw [heq] at hs
        cases hs
      | some value =>
        rw [heq] at hs
        obtain ⟨⟨items, t⟩, -, hok⟩ := bind_ok hs
        cases hok
        exact ⟨fun _ h => (nomatch h), fun _ h => (nomatch h)⟩
    exact scanPlain_tidy hs

theorem scanOnce_tidy (depth : Nat) : Reads (scanOnce depth) Tidy := by
  induction depth with
  | zero => exact scanTerm_tidy (fun _ h => (nomatch h)) fun _ h => (nomatch h)
  | succ depth ih =>
    exact scanTerm_tidy (fun _ h => Option.some.inj h ▸ scanOnce_consumes depth)
      fun _ h => Option.some.inj h ▸ ih

/-- The tree of a scalar text is tidy. -/
theorem loads_tidy {depth : Nat} {s : Str} {tree : Tree} (hs : Scalar s)
    (h : loads depth s = .ok tree) : Tidy tree := by
  unfold loads at h
  split at h
  · cases h
  · split at h
    · cases h
    · next t rest hscan =>
      split at h
      · cases h
        exact scanOnce_tidy depth _ _ _ (hs.suffix (skip_suffix s)) hscan
      · cases h

end Json
