import InverterDashboard.Json.Scan
import InverterDashboard.Python.Repr

/-
  `json.dump(value, stream, indent=2)`, and that `json.loads` reads back what it writes of an object
  whose members are strings, flags and integers (`loads_dump`).
-/

namespace Json

open Python

/-! ## Writing -/

/-- The line break before an entry of a level. -/
def lineBreak (level : Nat) : Str :=
  CodePoint.ofChar '\n' :: List.replicate (2 * level) (CodePoint.ofChar ' ')

/-- The entries of a container, one a line. -/
def entriesText (level : Nat) (entries : List Str) : Str :=
  lineBreak (level + 1) ++ (commaPoint :: lineBreak (level + 1)).intercalate entries ++ lineBreak level

mutual

/-- The text of a value at a level; `none` is `ValueError`: an integer of too many digits. -/
def dump (level : Nat) : Value → Option Str
  | .none => some (Str.lit "null")
  | .bool b => some (Str.lit (if b then "true" else "false"))
  | .int i => if (natStr i.natAbs).length ≤ intMaxStrDigits then some (intStr i) else none
  | .float (.fin q) => some (Float64.repr (.fin q))
  | .float .nan => some (Str.lit "NaN")
  | .float (.inf negative) => some (Str.lit (if negative then "-Infinity" else "Infinity"))
  | .str s => some (quoted s)
  | .list [] => some [openBracket, closeBracket]
  | .list (x :: xs) => (dumpItems (level + 1) (x :: xs)).map fun items =>
    openBracket :: entriesText level items ++ [closeBracket]
  | .dict [] => some [openBrace, closeBrace]
  | .dict (m :: ms) => (dumpMembers (level + 1) (m :: ms)).map fun items =>
    openBrace :: entriesText level items ++ [closeBrace]

def dumpItems (level : Nat) : List Value → Option (List Str)
  | [] => some []
  | x :: xs => do return (← dump level x) :: (← dumpItems level xs)

def dumpMembers (level : Nat) : List (Str × Value) → Option (List Str)
  | [] => some []
  | (k, v) :: ms => do
    return (quoted k ++ Str.lit ": " ++ (← dump level v)) :: (← dumpMembers level ms)

end

/-! ## Integers -/

theorem asciiDigit_of_mem_natStr {n : Nat} {c : CodePoint} (h : c ∈ natStr n) :
    asciiDigit c = true := by
  obtain ⟨d, hd, rfl⟩ := List.mem_map.mp h
  have hdigit := Nat.isDigit_of_mem_toDigits (by decide) (by decide) hd
  rw [Char.isDigit_iff_toNat] at hdigit
  unfold asciiDigit CodePoint.ofChar
  simpa using hdigit

theorem asciiNat_natStr (n : Nat) : asciiNat (natStr n) = n := by
  unfold asciiNat natStr
  rw [List.foldl_map]
  exact Nat.ofDigitChars_ten_toDigits

theorem natStr_ne_nil (n : Nat) : natStr n ≠ [] := by
  simp [natStr, Nat.toDigits_ne_nil]

theorem toDigits_head_ne_zero {n : Nat} (h : 0 < n) : (Nat.toDigits 10 n).head? ≠ some '0' := by
  induction n using Nat.strong_induction_on with
  | _ n ih =>
    rw [Nat.toDigits_eq_if (by decide)]
    split
    · next hlt =>
      have hdigit : ∀ d : Fin 10, 0 < d.val → [Nat.digitChar d.val].head? ≠ some '0' := by decide
      exact hdigit ⟨n, hlt⟩ h
    · next hge =>
      have hne : Nat.toDigits 10 (n / 10) ≠ [] := Nat.toDigits_ne_nil
      rw [List.head?_append_of_ne_nil _ hne]
      exact ih _ (by omega) (by omega)

/-- The literal of an integer. -/
def Number.ofInt (i : Int) : Number where
  negative := i < 0
  whole := ⟨natStr i.natAbs, natStr_ne_nil _,
    List.all_eq_true.mpr fun _ h => asciiDigit_of_mem_natStr h⟩
  plain := by
    intro h
    rcases Nat.eq_zero_or_pos i.natAbs with hzero | hpos
    · dsimp only
      rw [hzero]
      rfl
    · dsimp only [natStr] at h
      rw [List.head?_map, Option.map_eq_some_iff] at h
      obtain ⟨c, hc, heq⟩ := h
      rw [CodePoint.ofChar_injective heq] at hc
      exact absurd hc (toDigits_head_ne_zero hpos)
  fraction := none
  exponent := none

theorem Number.text_ofInt (i : Int) : (Number.ofInt i).text = intStr i := by
  unfold Number.text Number.ofInt Number.fractionText Number.exponentText intStr
  cases i with
  | ofNat n => simp
  | negSucc n => simp [dash, Int.negSucc_lt_zero]

theorem Number.toInt_ofInt (i : Int) : (Number.ofInt i).toInt = i := by
  unfold Number.toInt Number.ofInt
  dsimp only
  rw [asciiNat_natStr]
  by_cases h : i < 0
  · rw [if_pos (by simpa using h)]
    omega
  · rw [if_neg (by simpa using h)]
    omega

/-! ## Reading back -/

/-- The tree of a string, a flag or an integer. -/
def leaf : Value → Option Tree
  | .bool b => some (.bool b)
  | .int i => some (.number (.ofInt i))
  | .str s => some (.str s)
  | _ => none

theorem value_leaf {v : Value} {t : Tree} (h : leaf v = some t) (hook : Tree.Hook) :
    t.value hook = v := by
  cases v with
  | bool b =>
    obtain rfl := Option.some.inj h
    rfl
  | int i =>
    obtain rfl := Option.some.inj h
    show Value.int (Number.ofInt i).toInt = .int i
    rw [Number.toInt_ofInt]
  | str s =>
    obtain rfl := Option.some.inj h
    rfl
  | _ => cases h

/-- Strings that read back. -/
def JoinedLeaf (v : Value) : Prop := ∀ s, v = .str s → Joined s

/-- Every word has a letter where a literal has a digit or its sign. -/
theorem constants_letter : ∀ w ∈ constants.map Prod.fst,
    (∃ d, w[0]? = some d ∧ asciiDigit d = false ∧ d ≠ dash) ∨
      w[0]? = some dash ∧ ∃ d, w[1]? = some d ∧ asciiDigit d = false := by
  have hdash : asciiDigit (CodePoint.ofChar 'I') = false := by decide
  intro w hw
  simp only [constants, List.map_cons, List.map_nil, List.mem_cons, List.not_mem_nil, or_false] at hw
  rcases hw with rfl | rfl | rfl | rfl | rfl | rfl
  · exact Or.inl ⟨_, rfl, ⟨by decide, by decide⟩⟩
  · exact Or.inl ⟨_, rfl, ⟨by decide, by decide⟩⟩
  · exact Or.inl ⟨_, rfl, ⟨by decide, by decide⟩⟩
  · exact Or.inl ⟨_, rfl, ⟨by decide, by decide⟩⟩
  · exact Or.inl ⟨_, rfl, ⟨by decide, by decide⟩⟩
  · exact Or.inr ⟨rfl, _, rfl, hdash⟩

/-- No word is in front of a literal. -/
theorem constants_number (n : Number) (rest : Str) :
    constants.find? (fun w => w.1.isPrefixOf (n.text ++ rest)) = none := by
  obtain ⟨c, digits, hwhole, hc⟩ := n.whole.exists_cons
  have hdash : asciiDigit dash = false := by decide
  rw [List.find?_eq_none]
  intro w hw hprefix
  obtain ⟨tail, htail⟩ := List.isPrefixOf_iff_prefix.mp hprefix
  have hget : ∀ (i : Nat) (d : CodePoint), w.1[i]? = some d → (n.text ++ rest)[i]? = some d := by
    intro i d hd
    rw [← htail, List.getElem?_append_left (List.getElem?_eq_some_iff.mp hd).1]
    exact hd
  have hdigit : (if n.negative then (n.text ++ rest)[1]? else (n.text ++ rest)[0]?) = some c := by
    unfold Number.text
    rw [hwhole]
    cases n.negative <;> rfl
  have hsign : n.negative = true → (n.text ++ rest)[0]? = some dash := by
    intro hneg
    unfold Number.text
    rw [hneg]
    rfl
  have hnot : ∀ {d : CodePoint}, asciiDigit d = false → some d ≠ some c := by
    rintro d hd heq
    rw [Option.some.inj heq, hc] at hd
    cases hd
  rcases constants_letter w.1 (List.mem_map_of_mem hw) with ⟨d, hd, hletter, hne⟩ | ⟨h₀, d, hd, hletter⟩
  · have hfirst := hget 0 d hd
    cases hneg : n.negative with
    | true =>
      rw [hsign hneg] at hfirst
      exact hne (Option.some.inj hfirst).symm
    | false =>
      rw [hneg, if_neg Bool.false_ne_true, hfirst] at hdigit
      exact hnot hletter hdigit
  · cases hneg : n.negative with
    | true =>
      rw [hneg, if_pos rfl, hget 1 d hd] at hdigit
      exact hnot hletter hdigit
    | false =>
      rw [hneg, if_neg Bool.false_ne_true, hget 0 dash h₀] at hdigit
      exact hnot hdash hdigit

theorem scanPlain_number (n : Number) (h : n.isReal = true ∨ n.whole.text.length ≤ intMaxStrDigits)
    {rest : Str} (hrest : Ends rest) : scanPlain (n.text ++ rest) = .ok (.number n, rest) := by
  unfold scanPlain
  rw [constants_number, scanNumber_text n hrest]
  dsimp only
  rw [if_neg]
  rintro ⟨hreal, hlong⟩
  rcases h with h | h
  · rw [h] at hreal
    cases hreal
  · omega

theorem scanTerm_plain (inner : Option (Str → Except Failure (Tree × Str))) {s : Str}
    (h : ∀ c, s.head? = some c → c ≠ quotes ∧ c ≠ openBrace ∧ c ≠ openBracket) (hne : s ≠ []) :
    scanTerm inner s = scanPlain s := by
  cases s with
  | nil => exact absurd rfl hne
  | cons c s =>
    obtain ⟨hquote, hbrace, hbracket⟩ := h c rfl
    unfold scanTerm
    dsimp only
    rw [if_neg hquote, if_neg hbrace, if_neg hbracket]

/-- The text of a string, a flag or an integer reads back. -/
theorem scanTerm_leaf (inner : Option (Str → Except Failure (Tree × Str))) {level : Nat} {v : Value}
    {t : Tree} {text rest : Str} (ht : leaf v = some t) (hjoined : JoinedLeaf v)
    (htext : dump level v = some text) (hrest : Ends rest) :
    scanTerm inner (text ++ rest) = .ok (t, rest) := by
  cases v with
  | bool b =>
    obtain rfl := Option.some.inj ht
    unfold dump at htext
    obtain rfl := Option.some.inj htext
    cases b with
    | true => rfl
    | false => rfl
  | int i =>
    obtain rfl := Option.some.inj ht
    unfold dump at htext
    split at htext
    · next hlen =>
      obtain rfl := Option.some.inj htext
      rw [← Number.text_ofInt, scanTerm_plain inner]
      · exact scanPlain_number _ (Or.inr hlen) hrest
      · obtain ⟨c, digits, hwhole, hc⟩ := (Number.ofInt i).whole.exists_cons
        unfold Number.text
        rw [hwhole]
        intro d hd
        cases hneg : (Number.ofInt i).negative with
        | true =>
          rw [hneg] at hd
          obtain rfl := Option.some.inj hd
          decide
        | false =>
          rw [hneg] at hd
          obtain rfl := Option.some.inj hd
          refine ⟨?_, ?_, ?_⟩ <;>
            · rintro rfl
              exact absurd hc (by decide)
      · obtain ⟨c, digits, hwhole, hc⟩ := (Number.ofInt i).whole.exists_cons
        unfold Number.text
        rw [hwhole]
        simp
    · cases htext
  | str s =>
    obtain rfl := Option.some.inj ht
    unfold dump at htext
    obtain rfl := Option.some.inj htext
    have hscan := scanString_quoted rest (hjoined s rfl)
    unfold quoted
    rw [List.append_assoc, List.cons_append]
    unfold scanTerm
    dsimp only
    rw [if_pos rfl]
    simp only [List.singleton_append, hscan]
  | _ => cases ht

/-- What follows an entry: a comma or a line break. -/
theorem ends_comma (s : Str) : Ends (commaPoint :: s) := by
  intro c hc
  obtain rfl := Option.some.inj hc
  decide

theorem ends_lineBreak (level : Nat) (s : Str) : Ends (lineBreak level ++ s) := by
  intro c hc
  obtain rfl := Option.some.inj hc
  decide

theorem skip_lineBreak (level : Nat) (s : Str) : skip (lineBreak level ++ s) = skip s := by
  have hblank : ∀ c ∈ lineBreak level, isBlank c = true := by
    unfold lineBreak
    intro c hc
    rcases List.mem_cons.mp hc with rfl | hc
    · decide
    · rw [List.eq_of_mem_replicate hc]
      decide
  exact List.dropWhile_append_of_pos hblank

theorem skip_of_head {s : Str} {c : CodePoint} (h : s.head? = some c) (hc : isBlank c = false) :
    skip s = s := by
  cases s with
  | nil => cases h
  | cons d s =>
    obtain rfl := Option.some.inj h
    unfold skip
    rw [List.dropWhile_cons, hc]
    rfl

section Sequences

variable {α : Type} {read : Str → Except Failure (α × Str)} {close : CodePoint}

theorem ok_bind {β γ : Type} (x : β) (f : β → Except Failure γ) :
    (Except.ok x >>= f) = f x :=
  rfl

theorem scanSequence_last {n : Nat} {s t u : Str} {item : α} (hread : read s = .ok (item, t))
    (hskip : skip t = close :: u) : scanSequence read close (n + 1) s = .ok ([item], u) := by
  unfold scanSequence
  rw [hread, ok_bind]
  dsimp only
  rw [hskip]
  exact if_pos rfl

theorem scanSequence_more {n : Nat} {s t u rest : Str} {item : α} {items : List α}
    (hclose : close ≠ commaPoint) (hread : read s = .ok (item, t))
    (hskip : skip t = commaPoint :: u)
    (hrest : scanSequence read close n (skip u) = .ok (items, rest)) :
    scanSequence read close (n + 1) s = .ok (item :: items, rest) := by
  unfold scanSequence
  rw [hread, ok_bind]
  dsimp only
  rw [hskip]
  dsimp only
  rw [if_neg hclose.symm, if_pos rfl, hrest]
  rfl

/-- The text of an entry reads as the entry, and starts with a quote. -/
def Entry (read : Str → Except Failure (α × Str)) (text : Str) (item : α) : Prop :=
  text.head? = some quotes ∧ ∀ rest, Ends rest → read (text ++ rest) = .ok (item, rest)

theorem Entry.ne_nil {text : Str} {item : α} (h : Entry read text item) : text ≠ [] := by
  rintro rfl
  cases h.1

theorem head?_intercalate (sep text : Str) (texts : List Str) (h : text ≠ []) :
    (sep.intercalate (text :: texts)).head? = text.head? := by
  cases texts with
  | nil => rw [List.intercalate_singleton]
  | cons text' texts =>
    rw [List.intercalate_cons_cons, List.append_assoc]
    exact List.head?_append_of_ne_nil _ h

/-- An entry takes at least one code point. -/
theorem length_intercalate {sep : Str} {texts : List Str} {items : List α}
    (h : List.Forall₂ (Entry read) texts items) :
    texts.length ≤ (sep.intercalate texts).length := by
  induction h with
  | nil => exact Nat.zero_le _
  | @cons text item texts items hentry htail ih =>
    have hpos : 0 < text.length := by
      cases text with
      | nil => cases hentry.1
      | cons c text => exact Nat.succ_pos _
    cases htail with
    | nil =>
      rw [List.intercalate_singleton]
      exact hpos
    | cons _ _ =>
      rw [List.intercalate_cons_cons, List.length_append, List.length_append, List.length_cons]
      omega

theorem scanSequence_entries (hblank : isBlank close = false) (hclose : close ≠ commaPoint)
    (level : Nat) (rest : Str) {n : Nat} {texts : List Str} {items : List α}
    (h : List.Forall₂ (Entry read) texts items) (hne : texts ≠ []) (hn : texts.length ≤ n) :
    scanSequence read close n ((commaPoint :: lineBreak (level + 1)).intercalate texts ++
      lineBreak level ++ close :: rest) = .ok (items, rest) := by
  induction h generalizing n with
  | nil => exact absurd rfl hne
  | @cons text item texts items hentry htail ih =>
    cases n with
    | zero => exact absurd hn (by simp)
    | succ n =>
      cases htail with
      | nil =>
        have hread := hentry.2 (lineBreak level ++ close :: rest) (ends_lineBreak _ _)
        have hskip : skip (lineBreak level ++ close :: rest) = close :: rest := by
          rw [skip_lineBreak]
          exact skip_of_head rfl hblank
        rw [List.intercalate_singleton, List.append_assoc]
        exact scanSequence_last hread hskip
      | @cons text' item' texts items hentry' htail' =>
        have htail : skip (lineBreak (level + 1) ++
            ((commaPoint :: lineBreak (level + 1)).intercalate (text' :: texts) ++
              (lineBreak level ++ close :: rest))) =
            (commaPoint :: lineBreak (level + 1)).intercalate (text' :: texts) ++
              (lineBreak level ++ close :: rest) := by
          rw [skip_lineBreak]
          refine skip_of_head ?_ (show isBlank quotes = false by decide)
          rw [List.head?_append, head?_intercalate _ _ _ hentry'.ne_nil, hentry'.1]
          rfl
        have hread := hentry.2 _ (ends_comma (lineBreak (level + 1) ++
          ((commaPoint :: lineBreak (level + 1)).intercalate (text' :: texts) ++
            (lineBreak level ++ close :: rest))))
        have hrest := ih (by simp) (Nat.le_of_succ_le_succ hn)
        rw [List.append_assoc] at hrest
        have hassoc : text ++ commaPoint :: lineBreak (level + 1) ++
            (commaPoint :: lineBreak (level + 1)).intercalate (text' :: texts) ++
              lineBreak level ++ close :: rest = text ++ commaPoint :: (lineBreak (level + 1) ++
            ((commaPoint :: lineBreak (level + 1)).intercalate (text' :: texts) ++
              (lineBreak level ++ close :: rest))) := by
          simp
        rw [List.intercalate_cons_cons, hassoc]
        exact scanSequence_more hclose hread (skip_of_head rfl (by decide)) (by rw [htail, hrest])

/-- A container reads back. -/
theorem scanContainer_entries (hblank : isBlank close = false) (hclose : close ≠ commaPoint)
    (hquotes : quotes ≠ close) (level : Nat) (rest : Str) {texts : List Str} {items : List α}
    (h : List.Forall₂ (Entry read) texts items) (hne : texts ≠ []) :
    scanContainer read close (entriesText level texts ++ close :: rest) = .ok (items, rest) := by
  have hlength : texts.length ≤
      ((commaPoint :: lineBreak (level + 1)).intercalate texts).length := length_intercalate h
  have hscan : ∀ {n}, texts.length ≤ n → scanSequence read close n
      ((commaPoint :: lineBreak (level + 1)).intercalate texts ++ lineBreak level ++ close :: rest) =
        .ok (items, rest) := fun hn => scanSequence_entries hblank hclose level rest h hne hn
  have hhead : ((commaPoint :: lineBreak (level + 1)).intercalate texts).head? = some quotes := by
    cases h with
    | nil => exact absurd rfl hne
    | cons hentry _ => rw [head?_intercalate _ _ _ hentry.ne_nil, hentry.1]
  unfold entriesText scanContainer
  generalize (commaPoint :: lineBreak (level + 1)).intercalate texts = body at *
  cases body with
  | nil => cases hhead
  | cons c body =>
    obtain rfl := Option.some.inj hhead
    have hskip : skip (lineBreak (level + 1) ++ quotes :: body ++ lineBreak level ++ close :: rest) =
        quotes :: (body ++ lineBreak level ++ close :: rest) := by
      rw [List.append_assoc, List.append_assoc, skip_lineBreak, List.append_assoc]
      exact skip_of_head rfl (by decide)
    rw [hskip]
    dsimp only
    rw [if_neg hquotes]
    refine hscan ?_
    rw [List.length_cons] at hlength
    rw [List.length_append, List.length_append]
    omega

end Sequences

/-! ## Objects -/

theorem dumpMembers_cons {level : Nat} {k : Str} {v : Value} {ms : List (Str × Value)}
    {texts : List Str} (h : dumpMembers level ((k, v) :: ms) = some texts) :
    ∃ text rest, dump level v = some text ∧ dumpMembers level ms = some rest ∧
      texts = (quoted k ++ Str.lit ": " ++ text) :: rest := by
  rw [dumpMembers] at h
  obtain ⟨text, htext, h⟩ := Option.bind_eq_some_iff.mp h
  obtain ⟨rest, hrest, h⟩ := Option.bind_eq_some_iff.mp h
  exact ⟨text, rest, htext, hrest, (Option.some.inj h).symm⟩

theorem isBlank_digit {c : CodePoint} (h : asciiDigit c = true) : isBlank c = false := by
  have hdigit : 0x30 ≤ c.val ∧ c.val ≤ 0x39 := by simpa [asciiDigit] using h
  have hspace : c ≠ CodePoint.ofChar ' ' := by
    rintro rfl
    exact absurd h (by decide)
  unfold isBlank
  simp only [hspace, decide_false, Bool.false_or, Bool.or_eq_false_iff, decide_eq_false_iff_not]
  omega

/-- No blank is in front of what reads back. -/
theorem skip_leaf {level : Nat} {v : Value} {t : Tree} {text : Str} (ht : leaf v = some t)
    (htext : dump level v = some text) (rest : Str) : skip (text ++ rest) = text ++ rest := by
  have hhead : ∃ c, text.head? = some c ∧ isBlank c = false := by
    cases v with
    | bool b =>
      obtain rfl := Option.some.inj htext
      cases b
      · exact ⟨CodePoint.ofChar 'f', rfl, by decide⟩
      · exact ⟨CodePoint.ofChar 't', rfl, by decide⟩
    | int i =>
      unfold dump at htext
      split at htext
      · obtain rfl := Option.some.inj htext
        cases i with
        | negSucc n => exact ⟨CodePoint.ofChar '-', rfl, by decide⟩
        | ofNat n =>
          obtain ⟨c, digits, hdigits⟩ := List.exists_cons_of_ne_nil (natStr_ne_nil n)
          have hc : asciiDigit c = true :=
            asciiDigit_of_mem_natStr (hdigits ▸ List.mem_cons_self)
          refine ⟨c, ?_, isBlank_digit hc⟩
          show (natStr n).head? = some c
          rw [hdigits]
          rfl
      · cases htext
    | str s =>
      obtain rfl := Option.some.inj htext
      exact ⟨quotes, rfl, by decide⟩
    | _ => cases ht
  obtain ⟨c, hc, hblank⟩ := hhead
  refine skip_of_head ?_ hblank
  rw [List.head?_append, hc]
  rfl

/-- A member whose value reads back. -/
theorem entry_member (inner : Option (Str → Except Failure (Tree × Str))) {level : Nat} {k : Str}
    {v : Value} {t : Tree} {text : Str} (hk : Joined k) (ht : leaf v = some t)
    (hjoined : JoinedLeaf v) (htext : dump level v = some text) :
    Entry (scanMember (scanTerm inner)) (quoted k ++ Str.lit ": " ++ text) (k, t) := by
  refine ⟨rfl, fun rest hrest => ?_⟩
  have hvalue := scanTerm_leaf inner ht hjoined htext hrest
  have hassoc : quoted k ++ Str.lit ": " ++ text ++ rest =
      quotes :: (k.flatMap escape ++ quotes :: (Str.lit ": " ++ (text ++ rest))) := by
    simp [quoted]
  have hblank : skip (CodePoint.ofChar ' ' :: (text ++ rest)) = text ++ rest := by
    unfold skip
    rw [List.dropWhile_cons, if_pos (by decide)]
    exact skip_leaf ht htext rest
  rw [hassoc]
  unfold scanMember
  dsimp only
  rw [if_pos rfl, scanString_quoted _ hk]
  dsimp only
  rw [skip_of_head (show (Str.lit ": " ++ (text ++ rest)).head? = some colon from rfl) (by decide)]
  rw [show Str.lit ": " ++ (text ++ rest) = colon :: CodePoint.ofChar ' ' :: (text ++ rest) from rfl]
  dsimp only
  rw [if_pos rfl, hblank, hvalue]
  rfl

/-- The members of an object of strings, flags and integers. -/
theorem entries_members (inner : Option (Str → Except Failure (Tree × Str))) {level : Nat} :
    ∀ {ms : List (Str × Value)} {trees : List (Str × Tree)} {texts : List Str},
      List.Forall₂ (fun m t => m.1 = t.1 ∧ leaf m.2 = some t.2) ms trees →
      (∀ m ∈ ms, Joined m.1 ∧ JoinedLeaf m.2) → dumpMembers level ms = some texts →
      List.Forall₂ (Entry (scanMember (scanTerm inner))) texts trees := by
  intro ms trees texts h
  induction h generalizing texts with
  | nil =>
    intro _ htexts
    obtain rfl := Option.some.inj htexts
    exact .nil
  | @cons m t ms trees hm htail ih =>
    intro hjoined htexts
    obtain ⟨text, rest, htext, hrest, rfl⟩ := dumpMembers_cons htexts
    obtain ⟨hk, hv⟩ := hjoined m List.mem_cons_self
    have hentry := entry_member inner hk hm.2 hv htext
    rw [hm.1] at hentry ⊢
    exact .cons hentry (ih (fun m hmem => hjoined m (List.mem_cons_of_mem _ hmem)) hrest)

/-- **An object of strings, flags and integers reads back.** -/
theorem loads_dump {depth : Nat} (hdepth : 0 < depth) {ms : List (Str × Value)}
    {trees : List (Str × Tree)} {text : Str}
    (h : List.Forall₂ (fun m t => m.1 = t.1 ∧ leaf m.2 = some t.2) ms trees)
    (hjoined : ∀ m ∈ ms, Joined m.1 ∧ JoinedLeaf m.2) (htext : dump 0 (.dict ms) = some text) :
    loads depth text = .ok (.obj trees) := by
  obtain ⟨depth, rfl⟩ := Nat.exists_eq_succ_of_ne_zero (Nat.pos_iff_ne_zero.mp hdepth)
  cases h with
  | nil =>
    obtain rfl := Option.some.inj htext
    rfl
  | @cons m t ms trees hm htail =>
    rw [dump] at htext
    obtain ⟨texts, htexts, rfl⟩ := Option.map_eq_some_iff.mp htext
    have hne : texts ≠ [] := by
      obtain ⟨_, _, -, -, rfl⟩ := dumpMembers_cons htexts
      exact List.cons_ne_nil _ _
    obtain ⟨inner, hinner⟩ : ∃ inner, scanOnce depth = scanTerm inner := by
      cases depth with
      | zero => exact ⟨none, rfl⟩
      | succ depth => exact ⟨some (scanOnce depth), rfl⟩
    have hentries := entries_members inner (.cons hm htail) hjoined htexts
    have hcontainer : scanContainer (scanMember (scanTerm inner)) closeBrace
        (entriesText 0 texts ++ [closeBrace]) = .ok (t :: trees, []) :=
      scanContainer_entries (by decide) (by decide) (by decide) 0 [] hentries hne
    have hscan : scanOnce (depth + 1) (openBrace :: entriesText 0 texts ++ [closeBrace]) =
        .ok (.obj (t :: trees), []) := by
      show scanObject (scanOnce depth) (entriesText 0 texts ++ [closeBrace]) = _
      unfold scanObject
      rw [hinner, hcontainer]
      rfl
    unfold loads
    have hmark : (openBrace :: entriesText 0 texts ++ [closeBrace]).head? ≠ some byteOrderMark := by
      rw [List.cons_append, List.head?_cons]
      decide
    rw [if_neg hmark, List.cons_append, skip_of_head rfl (by decide), ← List.cons_append, hscan]
    rfl

end Json
