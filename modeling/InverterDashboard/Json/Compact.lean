import InverterDashboard.Json.Dump
import InverterDashboard.Python.Encoding

/-
  `json.dumps(..., separators=(",", ":"), ensure_ascii=False)` read back.

  Strings are written with their code points as they are, so a text needs no condition to read back:
  no escape of it can be one half of a surrogate pair. `loads_compact`: an object of strings and
  integers reads as its members.
-/

namespace Json

open Python

/-! ## Strings -/

/-- The control characters, each with its escape. -/
theorem scanStringFrom_control (n : Fin 32) (s : Str) :
    scanStringFrom none (jsonCodePoint (Fin.ofNat 0x110000 n.val) ++ s) =
      prepend [Fin.ofNat 0x110000 n.val] (scanStringFrom none s) := by
  have hescape : ∀ n : Fin 32,
      (∃ e, jsonCodePoint (Fin.ofNat 0x110000 n.val) = [backslash, e] ∧
        e ≠ CodePoint.ofChar 'u' ∧ simpleEscape e = some (Fin.ofNat 0x110000 n.val)) ∨
      (jsonCodePoint (Fin.ofNat 0x110000 n.val) = unitEscape n.val ∧
        acceptUnit none (Fin.ofNat 0x110000 n.val) = ([Fin.ofNat 0x110000 n.val], none)) := by
    have hsimple : ∀ n : Fin 32, n.val = 8 ∨ n.val = 9 ∨ n.val = 10 ∨ n.val = 12 ∨ n.val = 13 ∨
        (jsonCodePoint (Fin.ofNat 0x110000 n.val) = unitEscape n.val ∧
          acceptUnit none (Fin.ofNat 0x110000 n.val) = ([Fin.ofNat 0x110000 n.val], none)) := by
      decide
    intro n
    rcases hsimple n with h | h | h | h | h | h
    · exact Or.inl ⟨CodePoint.ofChar 'b', by rw [h]; decide, by decide, by rw [h]; rfl⟩
    · exact Or.inl ⟨CodePoint.ofChar 't', by rw [h]; decide, by decide, by rw [h]; rfl⟩
    · exact Or.inl ⟨CodePoint.ofChar 'n', by rw [h]; decide, by decide, by rw [h]; rfl⟩
    · exact Or.inl ⟨CodePoint.ofChar 'f', by rw [h]; decide, by decide, by rw [h]; rfl⟩
    · exact Or.inl ⟨CodePoint.ofChar 'r', by rw [h]; decide, by decide, by rw [h]; rfl⟩
    · exact Or.inr h
  rcases hescape n with ⟨e, heq, hu, he⟩ | ⟨heq, haccept⟩
  · rw [heq]
    exact scanStringFrom_simple none hu he s
  · rw [heq, scanStringFrom_unitEscape none (by omega), haccept]

/-- A code point reads back. -/
theorem scanStringFrom_jsonCodePoint (c : CodePoint) (s : Str) :
    scanStringFrom none (jsonCodePoint c ++ s) = prepend [c] (scanStringFrom none s) := by
  by_cases hcontrol : c.val < 32
  · have h := scanStringFrom_control ⟨c.val, hcontrol⟩ s
    rw [ofNat_val] at h
    exact h
  by_cases hquote : c = quotes
  · subst hquote
    exact scanStringFrom_simple none (e := quotes) (by decide) rfl s
  by_cases hslash : c = backslash
  · subst hslash
    exact scanStringFrom_simple none (e := backslash) (by decide) rfl s
  have hplain : jsonCodePoint c = [c] := by
    have hne : c ≠ CodePoint.ofChar '"' := hquote
    unfold jsonCodePoint
    rw [if_neg hne, if_neg hslash]
    repeat rw [if_neg (by omega)]
  rw [hplain]
  exact scanStringFrom_plain none hquote hslash hcontrol s

theorem scanString_jsonStr (t rest : Str) :
    scanString (t.flatMap jsonCodePoint ++ quotes :: rest) = some (t, rest) := by
  show scanStringFrom none _ = _
  induction t with
  | nil => exact scanStringFrom_quotes none rest
  | cons c t ih =>
    rw [List.flatMap_cons, List.append_assoc, scanStringFrom_jsonCodePoint, ih]
    rfl

/-! ## Members -/

/-- The text of a string or an integer. -/
def compactText : Value → Option Str
  | .int i => if (natStr i.natAbs).length ≤ intMaxStrDigits then some (intStr i) else none
  | .str s => some (jsonStr s)
  | _ => none

theorem scanTerm_compact (inner : Option (Str → Except Failure (Tree × Str))) {v : Value} {t : Tree}
    {text rest : Str} (ht : leaf v = some t) (htext : compactText v = some text)
    (hrest : Ends rest) : scanTerm inner (text ++ rest) = .ok (t, rest) := by
  cases v with
  | int i => exact @scanTerm_leaf inner 0 _ _ _ _ ht (fun _ h => nomatch h) htext hrest
  | str s =>
    obtain rfl := Option.some.inj ht
    obtain rfl := Option.some.inj htext
    have hassoc : jsonStr s ++ rest = quotes :: (s.flatMap jsonCodePoint ++ quotes :: rest) := by
      show [quotes] ++ s.flatMap jsonCodePoint ++ [quotes] ++ rest = _
      simp
    rw [hassoc]
    unfold scanTerm
    dsimp only
    rw [if_pos rfl, scanString_jsonStr]
  | _ => cases htext

theorem skip_compact {v : Value} {t : Tree} {text : Str} (ht : leaf v = some t)
    (htext : compactText v = some text) (rest : Str) : skip (text ++ rest) = text ++ rest := by
  cases v with
  | int i => exact @skip_leaf 0 _ _ _ ht htext rest
  | str s =>
    obtain rfl := Option.some.inj htext
    exact skip_of_head (c := quotes) rfl (by decide)
  | _ => cases htext

/-- A key, a colon and a text. -/
theorem entry_compact (inner : Option (Str → Except Failure (Tree × Str))) (k : Str) {v : Value}
    {t : Tree} {text : Str} (ht : leaf v = some t) (htext : compactText v = some text) :
    Entry (scanMember (scanTerm inner)) (jsonStr k ++ Str.lit ":" ++ text) (k, t) := by
  refine ⟨rfl, fun rest hrest => ?_⟩
  have hassoc : jsonStr k ++ Str.lit ":" ++ text ++ rest =
      quotes :: (k.flatMap jsonCodePoint ++ quotes :: colon :: (text ++ rest)) := by
    show [quotes] ++ k.flatMap jsonCodePoint ++ [quotes] ++ [colon] ++ text ++ rest = _
    simp
  rw [hassoc]
  unfold scanMember
  dsimp only
  rw [if_pos rfl, scanString_jsonStr]
  dsimp only
  rw [skip_of_head (c := colon) rfl (by decide)]
  dsimp only
  rw [if_pos rfl, skip_compact ht htext, scanTerm_compact inner ht htext hrest]
  rfl

/-! ## Objects -/

section Sequences

variable {α : Type} {read : Str → Except Failure (α × Str)} {close : CodePoint}

theorem scanSequence_compact (hblank : isBlank close = false) (hclose : close ≠ commaPoint)
    (hends : ∀ s, Ends (close :: s)) (rest : Str) {n : Nat} {texts : List Str} {items : List α}
    (h : List.Forall₂ (Entry read) texts items) (hne : texts ≠ []) (hn : texts.length ≤ n) :
    scanSequence read close n ([commaPoint].intercalate texts ++ close :: rest) =
      .ok (items, rest) := by
  induction h generalizing n with
  | nil => exact absurd rfl hne
  | @cons text item texts items hentry htail ih =>
    obtain ⟨n, rfl⟩ := Nat.exists_eq_succ_of_ne_zero (n := n) (by simp at hn; omega)
    cases htail with
    | nil =>
      rw [List.intercalate_singleton]
      exact scanSequence_last (hentry.2 _ (hends rest)) (skip_of_head rfl hblank)
    | @cons text' item' texts items hentry' htail' =>
      have hrest := ih (by simp) (Nat.le_of_succ_le_succ hn)
      have hskip : skip ([commaPoint].intercalate (text' :: texts) ++ close :: rest) =
          [commaPoint].intercalate (text' :: texts) ++ close :: rest := by
        refine skip_of_head ?_ (show isBlank quotes = false by decide)
        rw [List.head?_append, head?_intercalate _ _ _ hentry'.ne_nil, hentry'.1]
        rfl
      have hassoc : [commaPoint].intercalate (text :: text' :: texts) ++ close :: rest =
          text ++ commaPoint :: ([commaPoint].intercalate (text' :: texts) ++ close :: rest) := by
        rw [List.intercalate_cons_cons]
        simp
      rw [hassoc]
      refine scanSequence_more hclose (hentry.2 _ (ends_comma _)) (skip_of_head rfl (by decide)) ?_
      rw [hskip, hrest]

theorem scanContainer_compact (hblank : isBlank close = false) (hclose : close ≠ commaPoint)
    (hends : ∀ s, Ends (close :: s)) (hquotes : quotes ≠ close) (rest : Str) {texts : List Str}
    {items : List α} (h : List.Forall₂ (Entry read) texts items) (hne : texts ≠ []) :
    scanContainer read close ([commaPoint].intercalate texts ++ close :: rest) =
      .ok (items, rest) := by
  have hlength : texts.length ≤ ([commaPoint].intercalate texts).length := length_intercalate h
  have hscan : ∀ {n}, texts.length ≤ n → scanSequence read close n
      ([commaPoint].intercalate texts ++ close :: rest) = .ok (items, rest) :=
    fun hn => scanSequence_compact hblank hclose hends rest h hne hn
  have hhead : ([commaPoint].intercalate texts).head? = some quotes := by
    cases h with
    | nil => exact absurd rfl hne
    | cons hentry _ => rw [head?_intercalate _ _ _ hentry.ne_nil, hentry.1]
  generalize [commaPoint].intercalate texts = body at *
  obtain ⟨tail, rfl⟩ : ∃ tail, body = quotes :: tail := by
    cases body with
    | nil => cases hhead
    | cons c tail =>
      obtain rfl := Option.some.inj hhead
      exact ⟨tail, rfl⟩
  unfold scanContainer
  rw [List.cons_append, skip_of_head rfl (by decide)]
  dsimp only
  rw [if_neg hquotes]
  refine hscan ?_
  rw [List.length_cons] at hlength
  rw [List.length_append]
  omega

end Sequences

theorem ends_closeBrace (s : Str) : Ends (closeBrace :: s) := by
  intro c hc
  obtain rfl := Option.some.inj hc
  decide

/-- What reads as a member: its key, the tree of its value, and the text that was written for it. -/
def CompactMember (m : Str × Str) (t : Str × Tree) : Prop :=
  m.1 = t.1 ∧ ∃ v, leaf v = some t.2 ∧ compactText v = some m.2

/-- **An object of strings and integers reads back.** -/
theorem loads_compact {depth : Nat} (hdepth : 0 < depth) {members : List (Str × Str)}
    {trees : List (Str × Tree)} (h : List.Forall₂ CompactMember members trees)
    (hne : members ≠ []) : loads depth (jsonObject members) = .ok (.obj trees) := by
  obtain ⟨depth, rfl⟩ := Nat.exists_eq_succ_of_ne_zero (Nat.pos_iff_ne_zero.mp hdepth)
  obtain ⟨inner, hinner⟩ : ∃ inner, scanOnce depth = scanTerm inner := by
    cases depth with
    | zero => exact ⟨none, rfl⟩
    | succ depth => exact ⟨some (scanOnce depth), rfl⟩
  have hentries : List.Forall₂ (Entry (scanMember (scanTerm inner)))
      (members.map fun m => jsonStr m.1 ++ Str.lit ":" ++ m.2) trees := by
    rw [List.forall₂_map_left_iff]
    refine h.imp ?_
    rintro ⟨k, text⟩ ⟨k', t⟩ ⟨rfl, v, ht, htext⟩
    exact entry_compact inner _ ht htext
  have hcontainer : scanContainer (scanMember (scanTerm inner)) closeBrace
      ([commaPoint].intercalate (members.map fun m => jsonStr m.1 ++ Str.lit ":" ++ m.2) ++
        [closeBrace]) = .ok (trees, []) :=
    scanContainer_compact (by decide) (by decide) ends_closeBrace (by decide) [] hentries
      (by simpa using hne)
  have hobject : jsonObject members = openBrace :: ([commaPoint].intercalate
      (members.map fun m => jsonStr m.1 ++ Str.lit ":" ++ m.2) ++ [closeBrace]) := rfl
  generalize [commaPoint].intercalate _ ++ [closeBrace] = body at hcontainer hobject
  have hscan : scanOnce (depth + 1) (openBrace :: body) = .ok (.obj trees, []) := by
    show scanObject (scanOnce depth) body = _
    unfold scanObject
    rw [hinner, hcontainer]
    rfl
  unfold loads
  rw [hobject, if_neg (by rw [List.head?_cons]; decide), skip_of_head rfl (by decide), hscan]
  rfl

end Json
