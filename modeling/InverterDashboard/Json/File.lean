import InverterDashboard.Json.Dump

/-
  JSON in a text file: bytes, decoded as UTF-8 with universal newlines, and what `json.dump` leaves
  in the file (`readText_ascii`).
-/

namespace Json

open Python

/-! ## UTF-8 -/

/-- A text in front of what is decoded. -/
def decoded (c : Nat) (r : Option Str) : Option Str := r.map (Fin.ofNat 0x110000 c :: ·)

/-- The bytes of a character that are owed, the bounds of the next one, and the bits so far. -/
def decodeUtf8From (owed low high bits : Nat) : List UInt8 → Option Str
  | [] => if owed = 0 then some [] else none
  | byte :: rest =>
    let b := byte.toNat
    match owed with
    | 0 =>
      if b < 0x80 then decoded b (decodeUtf8From 0 0 0 0 rest)
      else if 0xc2 ≤ b ∧ b ≤ 0xdf then decodeUtf8From 1 0x80 0xbf (b - 0xc0) rest
      -- The second byte keeps out long forms, surrogates and what is beyond the last code point.
      else if b = 0xe0 then decodeUtf8From 2 0xa0 0xbf 0 rest
      else if b = 0xed then decodeUtf8From 2 0x80 0x9f 0xd rest
      else if 0xe1 ≤ b ∧ b ≤ 0xef then decodeUtf8From 2 0x80 0xbf (b - 0xe0) rest
      else if b = 0xf0 then decodeUtf8From 3 0x90 0xbf 0 rest
      else if b = 0xf4 then decodeUtf8From 3 0x80 0x8f 4 rest
      else if 0xf1 ≤ b ∧ b ≤ 0xf3 then decodeUtf8From 3 0x80 0xbf (b - 0xf0) rest
      else none
    | owed + 1 =>
      if low ≤ b ∧ b ≤ high then
        let bits := bits * 0x40 + (b - 0x80)
        if owed = 0 then decoded bits (decodeUtf8From 0 0 0 0 rest)
        else decodeUtf8From owed 0x80 0xbf bits rest
      else none

/-- `bytes.decode("utf-8")`; `none` is `UnicodeDecodeError`. -/
def decodeUtf8 (bytes : List UInt8) : Option Str := decodeUtf8From 0 0 0 0 bytes

/-- `\r\n` and `\r` are read as `\n`. -/
def universalNewlines : Str → Str
  | [] => []
  | c :: s =>
    if c.val = 0x0d then
      match s with
      | [] => [0x0a]
      | d :: t => if d.val = 0x0a then 0x0a :: universalNewlines t else 0x0a :: universalNewlines (d :: t)
    else c :: universalNewlines s

/-- `f.read()` of a text file. -/
def readText (bytes : List UInt8) : Option Str := (decodeUtf8 bytes).map universalNewlines

/-! ## Scalar texts -/

/-- The characters that the bytes owed can complete are no surrogates. -/
def Completes (owed low high bits : Nat) : Prop :=
  match owed with
  | 0 => True
  | 1 => ∀ b, low ≤ b → b ≤ high → bits * 0x40 + (b - 0x80) < 0xd800 ∨
      0xe000 ≤ bits * 0x40 + (b - 0x80) ∧ bits * 0x40 + (b - 0x80) < 0x110000
  | 2 => ∀ b, low ≤ b → b ≤ high → bits * 0x40 + (b - 0x80) < 0x360 ∨
      0x380 ≤ bits * 0x40 + (b - 0x80) ∧ bits * 0x40 + (b - 0x80) < 0x4400
  | _ => ∀ b, low ≤ b → b ≤ high →
      0x10 ≤ bits * 0x40 + (b - 0x80) ∧ bits * 0x40 + (b - 0x80) < 0x110

theorem scalar_cons {c : Nat} {s : Str} (h : c < 0xd800 ∨ 0xe000 ≤ c ∧ c < 0x110000)
    (hs : Scalar s) : Scalar (Fin.ofNat 0x110000 c :: s) := by
  intro d hd
  rcases List.mem_cons.mp hd with rfl | hd
  · unfold isHigh isLow
    simp only [decide_eq_false_iff_not, Fin.val_ofNat]
    omega
  · exact hs d hd

theorem scalar_decodeUtf8From {owed low high bits : Nat} {bytes : List UInt8} {s : Str}
    (howed : owed ≤ 3) (hcomplete : Completes owed low high bits)
    (h : decodeUtf8From owed low high bits bytes = some s) : Scalar s := by
  induction bytes generalizing owed low high bits s with
  | nil =>
    unfold decodeUtf8From at h
    split at h
    · obtain rfl := Option.some.inj h
      intro c hc
      cases hc
    · cases h
  | cons byte rest ih =>
    have hbyte := byte.toNat_lt
    unfold decodeUtf8From at h
    dsimp only at h
    cases owed with
    | zero =>
      dsimp only at h
      repeat' split at h
      · obtain ⟨t, ht, rfl⟩ := Option.map_eq_some_iff.mp h
        refine scalar_cons (by omega) (ih ?_ ?_ ht)
        · omega
        · trivial
      all_goals first
        | cases h
        | (refine ih ?_ ?_ h
           · omega
           · intro b _ _
             omega)
    | succ owed =>
      dsimp only at h
      split at h
      · next hrange =>
        split at h
        · next hzero =>
          subst hzero
          obtain ⟨t, ht, rfl⟩ := Option.map_eq_some_iff.mp h
          refine scalar_cons (hcomplete _ hrange.1 hrange.2) (ih ?_ ?_ ht)
          · omega
          · trivial
        · next hne =>
          refine ih (by omega) ?_ h
          have hcase : owed = 1 ∨ owed = 2 := by omega
          rcases hcase with rfl | rfl
          · have hbits := hcomplete _ hrange.1 hrange.2
            intro b _ _
            omega
          · have hbits := hcomplete _ hrange.1 hrange.2
            intro b _ _
            omega
      · cases h

theorem scalar_universalNewlines {s : Str} (h : Scalar s) : Scalar (universalNewlines s) := by
  have hbreak : isHigh 0x0a = false ∧ isLow 0x0a = false := by decide
  fun_induction universalNewlines s with
  | case1 => exact h
  | case2 c hc =>
    intro d hd
    rw [List.mem_singleton.mp hd]
    exact hbreak
  | case3 c hc d t hd ih =>
    rintro e (_ | ⟨_, he⟩)
    · exact hbreak
    · exact ih (fun x hx => h x (by simp [hx])) e he
  | case4 c hc d t hd ih =>
    rintro e (_ | ⟨_, he⟩)
    · exact hbreak
    · exact ih (fun x hx => h x (by simp at hx ⊢; tauto)) e he
  | case5 c s hc ih =>
    rintro e (_ | ⟨_, he⟩)
    · exact h c List.mem_cons_self
    · exact ih (fun x hx => h x (List.mem_cons_of_mem _ hx)) e he

theorem scalar_readText {bytes : List UInt8} {s : Str} (h : readText bytes = some s) : Scalar s := by
  obtain ⟨t, ht, rfl⟩ := Option.map_eq_some_iff.mp h
  refine scalar_universalNewlines (scalar_decodeUtf8From ?_ ?_ ht)
  · omega
  · trivial

/-! ## ASCII texts -/

/-- ASCII, and no carriage return. -/
def Plain (s : Str) : Prop := ∀ c ∈ s, c.val < 0x80 ∧ c.val ≠ 0x0d

theorem Plain.scalar {s : Str} (h : Plain s) : Scalar s := by
  intro c hc
  have hlt := (h c hc).1
  unfold isHigh isLow
  simp only [decide_eq_false_iff_not]
  omega

theorem universalNewlines_plain {s : Str} (h : Plain s) : universalNewlines s = s := by
  induction s with
  | nil => rfl
  | cons c s ih =>
    rw [universalNewlines.eq_def]
    dsimp only
    rw [if_neg (h c List.mem_cons_self).2, ih fun d hd => h d (List.mem_cons_of_mem _ hd)]

/-- An ASCII text is read as it is written. -/
theorem readText_plain {s : Str} (h : Plain s) :
    ∃ bytes, s.utf8 = some bytes ∧ readText bytes = some s := by
  have hbytes : s.utf8 = some (s.map fun c => UInt8.ofNat c.val) ∧
      decodeUtf8 (s.map fun c => UInt8.ofNat c.val) = some s := by
    induction s with
    | nil => exact ⟨rfl, rfl⟩
    | cons c s ih =>
      obtain ⟨hutf, hdecode⟩ := ih fun d hd => h d (List.mem_cons_of_mem _ hd)
      have hc := (h c List.mem_cons_self).1
      have hval : (UInt8.ofNat c.val).toNat = c.val := by
        rw [UInt8.toNat_ofNat']
        omega
      refine ⟨?_, ?_⟩
      · unfold Str.utf8 at hutf ⊢
        obtain ⟨parts, hparts, heq⟩ := Option.map_eq_some_iff.mp hutf
        have hone : utf8CodePoint c = some [UInt8.ofNat c.val] := by
          unfold utf8CodePoint
          exact if_pos hc
        rw [List.mapM_cons, hone, hparts]
        show some ([UInt8.ofNat c.val] ++ parts.flatten) = _
        rw [heq]
        rfl
      · unfold decodeUtf8 at hdecode ⊢
        rw [List.map_cons, decodeUtf8From, hval, if_pos hc, hdecode]
        show some (Fin.ofNat 0x110000 c.val :: s) = _
        rw [ofNat_val]
  exact ⟨_, hbytes.1, by rw [readText, hbytes.2, Option.map_some, universalNewlines_plain h]⟩

theorem Plain.append {s t : Str} (hs : Plain s) (ht : Plain t) : Plain (s ++ t) :=
  fun c hc => (List.mem_append.mp hc).elim (hs c) (ht c)

theorem Plain.cons {c : CodePoint} {s : Str} (hc : c.val < 0x80 ∧ c.val ≠ 0x0d) (hs : Plain s) :
    Plain (c :: s) := by
  intro d hd
  rcases List.mem_cons.mp hd with rfl | hd
  · exact hc
  · exact hs d hd

theorem plain_lit {s : String} (h : s.toList.all fun c => c.toNat < 0x80 && c.toNat ≠ 0x0d) :
    Plain (Str.lit s) := by
  intro c hc
  obtain ⟨d, hd, rfl⟩ := List.mem_map.mp hc
  simpa [CodePoint.ofChar] using List.all_eq_true.mp h d hd

theorem plain_hexDigit : ∀ n : Fin 16, (hexDigit n.val).val < 0x80 ∧ (hexDigit n.val).val ≠ 0x0d := by
  decide

theorem plain_unitEscape (n : Nat) : Plain (unitEscape n) := by
  have hdigit : ∀ m, (hexDigit (m % 16)).val < 0x80 ∧ (hexDigit (m % 16)).val ≠ 0x0d := fun m =>
    plain_hexDigit ⟨m % 16, Nat.mod_lt _ (by decide)⟩
  refine (plain_lit (by decide)).append ?_
  intro c hc
  simp only [List.mem_cons, List.not_mem_nil, or_false] at hc
  rcases hc with rfl | rfl | rfl | rfl <;> exact hdigit _

theorem plain_escape (c : CodePoint) : Plain (escape c) := by
  unfold escape
  repeat' split
  all_goals first
    | exact plain_lit (by decide)
    | exact plain_unitEscape _
    | exact (plain_unitEscape _).append (plain_unitEscape _)
    | skip
  next hrange =>
    intro d hd
    rw [List.mem_singleton.mp hd]
    omega

theorem plain_quoted (s : Str) : Plain (quoted s) := by
  have hquotes : quotes.val < 0x80 ∧ quotes.val ≠ 0x0d := by decide
  unfold quoted
  refine Plain.cons hquotes (Plain.append ?_ (Plain.cons hquotes fun _ h => (nomatch h)))
  intro c hc
  obtain ⟨d, -, hd⟩ := List.mem_flatMap.mp hc
  exact plain_escape d c hd

theorem plain_natStr (n : Nat) : Plain (natStr n) := by
  intro c hc
  have hdigit := asciiDigit_of_mem_natStr hc
  unfold asciiDigit at hdigit
  rw [decide_eq_true_eq] at hdigit
  omega

theorem plain_leaf {level : Nat} {v : Value} {t : Tree} {text : Str} (ht : leaf v = some t)
    (htext : dump level v = some text) : Plain text := by
  cases v with
  | bool b =>
    obtain rfl := Option.some.inj htext
    cases b <;> exact plain_lit (by decide)
  | int i =>
    unfold dump at htext
    split at htext
    · obtain rfl := Option.some.inj htext
      cases i with
      | ofNat n => exact plain_natStr n
      | negSucc n => exact Plain.cons (by decide) (plain_natStr _)
    · cases htext
  | str s =>
    obtain rfl := Option.some.inj htext
    exact plain_quoted s
  | _ => cases ht

theorem plain_lineBreak (level : Nat) : Plain (lineBreak level) := by
  refine Plain.cons (by decide) fun c hc => ?_
  rw [List.eq_of_mem_replicate hc]
  decide

theorem plain_intercalate {sep : Str} (hsep : Plain sep) {texts : List Str}
    (h : ∀ text ∈ texts, Plain text) : Plain (sep.intercalate texts) := by
  induction texts with
  | nil => exact fun _ h => (nomatch h)
  | cons text texts ih =>
    cases texts with
    | nil =>
      rw [List.intercalate_singleton]
      exact h text List.mem_cons_self
    | cons text' texts =>
      rw [List.intercalate_cons_cons]
      exact ((h text List.mem_cons_self).append hsep).append
        (ih fun t ht => h t (List.mem_cons_of_mem _ ht))

theorem plain_dumpMembers {level : Nat} {ms : List (Str × Value)} {texts : List Str}
    (hleaf : ∀ m ∈ ms, (leaf m.2).isSome) (h : dumpMembers level ms = some texts) :
    ∀ text ∈ texts, Plain text := by
  induction ms generalizing texts with
  | nil =>
    obtain rfl := Option.some.inj h
    exact fun _ h => (nomatch h)
  | cons m ms ih =>
    obtain ⟨text, rest, htext, hrest, rfl⟩ := dumpMembers_cons h
    obtain ⟨t, ht⟩ := Option.isSome_iff_exists.mp (hleaf m List.mem_cons_self)
    rintro s (_ | ⟨_, hs⟩)
    · exact ((plain_quoted m.1).append (plain_lit (by decide))).append (plain_leaf ht htext)
    · exact ih (fun m hm => hleaf m (List.mem_cons_of_mem _ hm)) hrest s hs

theorem plain_dump {ms : List (Str × Value)} {text : Str} (hleaf : ∀ m ∈ ms, (leaf m.2).isSome)
    (h : dump 0 (.dict ms) = some text) : Plain text := by
  cases ms with
  | nil =>
    obtain rfl := Option.some.inj h
    exact fun c hc => by
      simp only [List.mem_cons, List.not_mem_nil, or_false] at hc
      rcases hc with rfl | rfl <;> decide
  | cons m ms =>
    rw [dump] at h
    obtain ⟨texts, htexts, rfl⟩ := Option.map_eq_some_iff.mp h
    have hsep : Plain (commaPoint :: lineBreak 1) := Plain.cons (by decide) (plain_lineBreak 1)
    have hbody := plain_intercalate hsep (plain_dumpMembers hleaf htexts)
    unfold entriesText
    have hclose : Plain [closeBrace] := by
      intro c hc
      rw [List.mem_singleton.mp hc]
      decide
    exact Plain.cons (by decide)
      ((((plain_lineBreak 1).append hbody).append (plain_lineBreak 0)).append hclose)

end Json
