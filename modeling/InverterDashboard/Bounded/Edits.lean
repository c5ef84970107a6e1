import Mathlib.Data.List.Basic
import Mathlib.Data.List.Perm.Basic
import Mathlib.Data.List.Nodup

/-
  Lists of keyed entries under edits: an entry is put in the place of the one with its key or at
  the end, and entries are kept by their keys. After an entry is appended a cut may shorten the
  list.

  Without a cut a list is a lookup: `lookup_edit` says what an edit does to the entry of a key.
  With a cut to the newest `n` entries nothing is lost as long as the list without the cut never
  has more than `n` entries (`edits_newest`).
-/

namespace Bounded

variable {α κ : Type} [DecidableEq κ] (key : α → κ)

/-! ## Edits -/

inductive Edit (α κ : Type) where
  | put (a : α)
  /-- Keep the entries whose keys satisfy `p`. -/
  | keep (p : κ → Bool)

/-- The first entry with the key of `a` replaced. -/
def replaceKey (a : α) : List α → List α
  | [] => []
  | x :: xs => if key x = key a then a :: xs else x :: replaceKey a xs

/-- The entry replaced, or appended before the cut. -/
def upsertKey (cut : List α → List α) (a : α) (l : List α) : List α :=
  if l.any (key · = key a) then replaceKey key a l else cut (l ++ [a])

def edit (cut : List α → List α) (l : List α) : Edit α κ → List α
  | .put a => upsertKey key cut a l
  | .keep p => l.filter fun x => p (key x)

def edits (cut : List α → List α) (l : List α) (es : List (Edit α κ)) : List α :=
  es.foldl (edit key cut) l

/-- The newest `n` entries. -/
def newest (n : Nat) (l : List α) : List α := l.drop (l.length - n)

/-- No cut. -/
def uncut (l : List α) : List α := l

/-- The entry of a key. -/
def lookup (k : κ) (l : List α) : Option α := l.find? fun x => key x = k

/-- What an edit makes of the entry of a key. -/
def Edit.at (k : κ) (old : Option α) : Edit α κ → Option α
  | .put a => if key a = k then some a else old
  | .keep p => if p k then old else none

@[simp] theorem edits_nil (cut : List α → List α) (l : List α) : edits key cut l [] = l := rfl

theorem edits_cons (cut : List α → List α) (l : List α) (e : Edit α κ) (es : List (Edit α κ)) :
    edits key cut l (e :: es) = edits key cut (edit key cut l e) es := rfl

theorem edits_append (cut : List α → List α) (l : List α) (es fs : List (Edit α κ)) :
    edits key cut l (es ++ fs) = edits key cut (edits key cut l es) fs := List.foldl_append

/-! ## Keys -/

section Keys

variable {key}

theorem replaceKey_cons (a x : α) (xs : List α) :
    replaceKey key a (x :: xs) = if key x = key a then a :: xs else x :: replaceKey key a xs := rfl

theorem keys_replaceKey (a : α) (l : List α) : (replaceKey key a l).map key = l.map key := by
  induction l with
  | nil => rfl
  | cons x xs ih =>
    unfold replaceKey
    split
    · next h => rw [List.map_cons, List.map_cons, h]
    · rw [List.map_cons, List.map_cons, ih]

theorem length_replaceKey (a : α) (l : List α) : (replaceKey key a l).length = l.length := by
  have hkeys : ((replaceKey key a l).map key).length = (l.map key).length := by
    rw [keys_replaceKey]
  simpa using hkeys

theorem mem_replaceKey {a x : α} {l : List α} (h : x ∈ replaceKey key a l) : x = a ∨ x ∈ l := by
  induction l with
  | nil => cases h
  | cons y ys ih =>
    unfold replaceKey at h
    split at h
    · rcases List.mem_cons.mp h with rfl | h
      · exact Or.inl rfl
      · exact Or.inr (List.mem_cons_of_mem _ h)
    · rcases List.mem_cons.mp h with rfl | h
      · exact Or.inr List.mem_cons_self
      · exact (ih h).imp_right (List.mem_cons_of_mem _)

theorem any_key {a : α} {l : List α} : l.any (key · = key a) = true ↔ key a ∈ l.map key := by
  rw [List.any_eq_true, List.mem_map]
  simp

/-- A cut to a sublist keeps the keys distinct. -/
theorem nodup_edit {cut : List α → List α} (hcut : ∀ l, (cut l).Sublist l) {l : List α}
    (h : (l.map key).Nodup) (e : Edit α κ) : ((edit key cut l e).map key).Nodup := by
  cases e with
  | keep p => exact h.sublist (List.filter_sublist.map key)
  | put a =>
    unfold edit upsertKey
    dsimp only
    split
    · rw [keys_replaceKey]
      exact h
    · next hany =>
      refine List.Nodup.sublist ((hcut _).map key) ?_
      rw [any_key] at hany
      rw [List.map_append, List.nodup_append]
      refine ⟨h, List.nodup_singleton _, ?_⟩
      rintro k hk k' hk' rfl
      rw [List.map_singleton, List.mem_singleton] at hk'
      exact hany (hk' ▸ hk)

theorem nodup_edits {cut : List α → List α} (hcut : ∀ l, (cut l).Sublist l) {l : List α}
    (h : (l.map key).Nodup) (es : List (Edit α κ)) : ((edits key cut l es).map key).Nodup := by
  induction es generalizing l with
  | nil => exact h
  | cons e es ih => exact ih (nodup_edit hcut h e)

/-- An entry after an edit was put by it or was there and is kept. -/
theorem mem_edit {cut : List α → List α} (hcut : ∀ l, (cut l).Sublist l) {l : List α} {x : α}
    {e : Edit α κ} (h : x ∈ edit key cut l e) :
    match e with
    | .put a => x = a ∨ x ∈ l
    | .keep p => x ∈ l ∧ p (key x) = true := by
  cases e with
  | keep p => exact List.mem_filter.mp h
  | put a =>
    unfold edit upsertKey at h
    dsimp only at h ⊢
    split at h
    · exact mem_replaceKey h
    · rcases List.mem_append.mp ((hcut _).subset h) with h | h
      · exact Or.inr h
      · exact Or.inl (List.mem_singleton.mp h)

/-- An entry after edits was there or was put. -/
theorem mem_edits {cut : List α → List α} (hcut : ∀ l, (cut l).Sublist l) {l : List α} {x : α}
    {es : List (Edit α κ)} (h : x ∈ edits key cut l es) : x ∈ l ∨ .put x ∈ es := by
  induction es generalizing l with
  | nil => exact Or.inl h
  | cons e es ih =>
    rcases ih h with hone | hput
    · have hstep := mem_edit hcut hone
      cases e with
      | keep p => exact Or.inl hstep.1
      | put a =>
        rcases hstep with rfl | hmem
        · exact Or.inr List.mem_cons_self
        · exact Or.inl hmem
    · exact Or.inr (List.mem_cons_of_mem _ hput)

end Keys

/-! ## Lookups -/

section Lookup

variable {key}

/-- With distinct keys the lookup says which entries there are. -/
theorem mem_iff_lookup {l : List α} (h : (l.map key).Nodup) {a : α} :
    a ∈ l ↔ lookup key (key a) l = some a := by
  unfold lookup
  constructor
  · intro ha
    have hsome : (l.find? fun x => key x = key a).isSome := by
      rw [List.find?_isSome]
      exact ⟨a, ha, by simp⟩
    obtain ⟨x, hx⟩ := Option.isSome_iff_exists.mp hsome
    have hkey : key x = key a := by simpa using List.find?_some hx
    rw [hx, List.inj_on_of_nodup_map h (List.mem_of_find?_eq_some hx) ha hkey]
  · exact List.mem_of_find?_eq_some

theorem key_of_lookup {l : List α} {k : κ} {a : α} (h : lookup key k l = some a) : key a = k := by
  simpa using List.find?_some h

theorem lookup_filter (p : κ → Bool) (k : κ) (l : List α) :
    lookup key k (l.filter fun x => p (key x)) = if p k then lookup key k l else none := by
  unfold lookup
  rw [List.find?_filter]
  split
  · next hp =>
    congr 1
    funext x
    by_cases hx : key x = k <;> simp [hx, hp]
  · next hp =>
    rw [List.find?_eq_none]
    intro x _
    by_cases hx : key x = k <;> simp [hx, hp]

theorem lookup_cons (x : α) (k : κ) (l : List α) :
    lookup key k (x :: l) = if key x = k then some x else lookup key k l := by
  unfold lookup
  rw [List.find?_cons]
  by_cases h : key x = k <;> simp [h]

theorem lookup_replaceKey {a : α} {l : List α} (h : key a ∈ l.map key) (k : κ) :
    lookup key k (replaceKey key a l) = if key a = k then some a else lookup key k l := by
  induction l with
  | nil => cases h
  | cons x xs ih =>
    unfold replaceKey
    by_cases hx : key x = key a
    · rw [if_pos hx, lookup_cons, lookup_cons, hx]
      by_cases hk : key a = k <;> simp [hk]
    · rw [if_neg hx, lookup_cons, lookup_cons]
      have hxs : key a ∈ xs.map key := by
        rcases List.mem_cons.mp h with h | h
        · exact absurd h.symm hx
        · exact h
      rw [ih hxs]
      by_cases hk : key x = k
      · rw [if_pos hk, if_pos hk, if_neg (fun ha => hx (hk.trans ha.symm))]
      · rw [if_neg hk, if_neg hk]

theorem lookup_append_new {a : α} {l : List α} (h : key a ∉ l.map key) (k : κ) :
    lookup key k (l ++ [a]) = if key a = k then some a else lookup key k l := by
  induction l with
  | nil => exact lookup_cons a k []
  | cons x xs ih =>
    rw [List.map_cons, List.mem_cons, not_or] at h
    rw [List.cons_append, lookup_cons, lookup_cons, ih h.2]
    by_cases hk : key x = k
    · rw [if_pos hk, if_pos hk, if_neg (fun ha => h.1 (ha.trans hk.symm))]
    · rw [if_neg hk, if_neg hk]

/-- What an edit does to a lookup. -/
theorem lookup_edit (l : List α) (e : Edit α κ) (k : κ) :
    lookup key k (edit key uncut l e) = e.at key k (lookup key k l) := by
  cases e with
  | keep p => exact lookup_filter p k l
  | put a =>
    unfold edit upsertKey uncut
    dsimp only
    split
    · next hany => exact lookup_replaceKey (any_key.mp hany) k
    · next hany => exact lookup_append_new (fun h => hany (any_key.mpr h)) k

/-- Edits that leave the entry of a key alone. -/
theorem lookup_edits_same {es : List (Edit α κ)} {k : κ}
    (h : ∀ e ∈ es, ∀ old, e.at key k old = old) (l : List α) :
    lookup key k (edits key uncut l es) = lookup key k l := by
  induction es generalizing l with
  | nil => rfl
  | cons e es ih =>
    rw [edits_cons, ih fun e he => h e (List.mem_cons_of_mem _ he), lookup_edit,
      h e List.mem_cons_self]

/-- Entries put in turn: the last one of a key stays. -/
theorem lookup_puts (l xs : List α) (k : κ) (h : (xs.map key).Nodup) :
    lookup key k (edits key uncut l (xs.map .put)) = (lookup key k xs).or (lookup key k l) := by
  induction xs generalizing l with
  | nil => rfl
  | cons x xs ih =>
    rw [List.map_cons, List.nodup_cons] at h
    rw [List.map_cons, edits_cons, ih _ h.2, lookup_edit, lookup_cons]
    show (lookup key k xs).or (if key x = k then some x else lookup key k l) = _
    split
    · next hk =>
      have hnone : lookup key k xs = none := by
        unfold lookup
        rw [List.find?_eq_none]
        intro y hy hyk
        refine h.1 (List.mem_map.mpr ⟨y, hy, ?_⟩)
        rw [hk]
        simpa using hyk
      rw [hnone]
      rfl
    · rfl

variable (key) in
/-- What is kept of the edits to entries whose keys satisfy `q`. -/
def Edit.within (q : κ → Bool) : Edit α κ → List (Edit α κ)
  | .put a => if q (key a) then [.put a] else []
  | .keep p => [.keep p]

theorem filter_replaceKey {q : κ → Bool} (a : α) (l : List α) :
    (replaceKey key a l).filter (fun x => q (key x)) =
      if q (key a) then replaceKey key a (l.filter fun x => q (key x))
      else l.filter fun x => q (key x) := by
  induction l with
  | nil => simp [replaceKey]
  | cons x xs ih =>
    rw [replaceKey_cons]
    by_cases hx : key x = key a
    · rw [if_pos hx, List.filter_cons, List.filter_cons, hx]
      cases hq : q (key a) with
      | true => simp [replaceKey_cons, hx]
      | false => simp
    · rw [if_neg hx, List.filter_cons, List.filter_cons, ih]
      cases hq : q (key a) with
      | true => cases hqx : q (key x) <;> simp [replaceKey_cons, hx]
      | false => simp

/-- The entries that satisfy `q` change by the edits to such entries. -/
theorem filter_edits (q : κ → Bool) (l : List α) (es : List (Edit α κ)) :
    (edits key uncut l es).filter (fun x => q (key x)) =
      edits key uncut (l.filter fun x => q (key x)) (es.flatMap (Edit.within key q)) := by
  induction es generalizing l with
  | nil => rfl
  | cons e es ih =>
    rw [edits_cons, ih, List.flatMap_cons, edits_append]
    congr 1
    cases e with
    | keep p =>
      show (l.filter fun x => p (key x)).filter (fun x => q (key x)) =
        (l.filter fun x => q (key x)).filter fun x => p (key x)
      rw [List.filter_filter, List.filter_filter]
      congr 1
      funext x
      exact Bool.and_comm _ _
    | put a =>
      have hmem : q (key a) = true →
          (key a ∈ (l.filter fun x => q (key x)).map key ↔ key a ∈ l.map key) := by
        intro hq
        simp only [List.mem_map, List.mem_filter]
        constructor
        · rintro ⟨x, ⟨hx, -⟩, hk⟩
          exact ⟨x, hx, hk⟩
        · rintro ⟨x, hx, hk⟩
          exact ⟨x, ⟨hx, by rw [hk]; exact hq⟩, hk⟩
      cases hq : q (key a) with
      | false =>
        have hwithin : Edit.within key q (.put a) = [] := if_neg (by rw [hq]; simp)
        rw [hwithin, edits_nil]
        unfold edit upsertKey uncut
        dsimp only
        split
        · rw [filter_replaceKey, hq]
          rfl
        · simp [hq]
      | true =>
        have hwithin : Edit.within key q (.put a) = [.put a] := if_pos hq
        have hany : (l.filter fun x => q (key x)).any (key · = key a) = l.any (key · = key a) := by
          rw [Bool.eq_iff_iff, any_key, any_key, hmem hq]
        rw [hwithin, edits_cons, edits_nil]
        unfold edit upsertKey uncut
        dsimp only
        rw [hany]
        split
        · rw [filter_replaceKey, if_pos hq]
        · rw [List.filter_append]
          simp [hq]

end Lookup

/-! ## The newest entries -/

section Newest

variable {key} {n : Nat}

theorem newest_sublist (l : List α) : (newest n l).Sublist l := List.drop_sublist _ _

theorem length_newest (l : List α) : (newest n l).length ≤ n := by
  unfold newest
  rw [List.length_drop]
  omega

theorem newest_of_le {l : List α} (h : l.length ≤ n) : newest n l = l := by
  unfold newest
  rw [Nat.sub_eq_zero_of_le h, List.drop_zero]

theorem mem_newest_split {front back : List α} {a : α}
    (h : (front ++ a :: back).Nodup) : a ∈ newest n (front ++ a :: back) ↔ back.length < n := by
  have hnot : a ∉ back ∧ a ∉ front := by
    rw [List.nodup_append, List.nodup_cons] at h
    exact ⟨h.2.1.1, fun hm => h.2.2 a hm a List.mem_cons_self rfl⟩
  unfold newest
  rw [List.length_append, List.length_cons]
  by_cases hlt : back.length < n
  · refine iff_of_true ?_ hlt
    rw [List.drop_append_of_le_length (by omega)]
    exact List.mem_append_right _ List.mem_cons_self
  · refine iff_of_false (fun hm => ?_) hlt
    have hsplit : front ++ a :: back = (front ++ [a]) ++ back := by simp
    have hk : front.length + (back.length + 1) - n =
        (front ++ [a]).length + (back.length - n) := by
      rw [List.length_append, List.length_singleton]
      omega
    rw [hk, hsplit, List.drop_length_add_append] at hm
    exact hnot.1 (List.mem_of_mem_drop hm)

theorem length_edit {l : List α} (h : l.length ≤ n) (e : Edit α κ) :
    (edit key (newest n) l e).length ≤ n := by
  cases e with
  | keep p => exact Nat.le_trans (List.length_filter_le _ _) h
  | put a =>
    unfold edit upsertKey
    dsimp only
    split
    · rw [length_replaceKey]
      exact h
    · exact length_newest _

theorem length_edits {l : List α} (h : l.length ≤ n) (es : List (Edit α κ)) :
    (edits key (newest n) l es).length ≤ n := by
  induction es generalizing l with
  | nil => exact h
  | cons e es ih => exact ih (length_edit h e)

variable (key) in
/-- The list without the cut never has more than `n` entries. -/
def Fits (n : Nat) (l : List α) (es : List (Edit α κ)) : Prop :=
  ∀ m, (edits key uncut l (es.take m)).length ≤ n

theorem Fits.cons {l : List α} {e : Edit α κ} {es : List (Edit α κ)}
    (h : Fits key n l (e :: es)) :
    (edit key uncut l e).length ≤ n ∧ Fits key n (edit key uncut l e) es :=
  ⟨h 1, fun m => h (m + 1)⟩

theorem length_edits_le (l : List α) (es : List (Edit α κ)) :
    (edits key uncut l es).length ≤ l.length + es.length := by
  induction es generalizing l with
  | nil => exact Nat.le_refl _
  | cons e es ih =>
    have hone : (edit key uncut l e).length ≤ l.length + 1 := by
      cases e with
      | keep p => exact Nat.le_succ_of_le (List.length_filter_le _ _)
      | put a =>
        unfold edit upsertKey uncut
        dsimp only
        split
        · rw [length_replaceKey]
          omega
        · simp
    have := ih (edit key uncut l e)
    rw [edits_cons, List.length_cons]
    omega

/-- A short list stays within the limit under few edits. -/
theorem fits_of_few {l : List α} {es : List (Edit α κ)} (h : l.length + es.length ≤ n) :
    Fits key n l es := by
  intro m
  have hle : (edits key uncut l (es.take m)).length ≤ l.length + (es.take m).length :=
    length_edits_le l (es.take m)
  have htake : (es.take m).length ≤ es.length := List.length_take_le' _ _
  omega

theorem Fits.append {l : List α} {es fs : List (Edit α κ)} (h : Fits key n l es)
    (h' : Fits key n (edits key uncut l es) fs) : Fits key n l (es ++ fs) := by
  intro m
  rw [List.take_append]
  by_cases hm : m ≤ es.length
  · rw [Nat.sub_eq_zero_of_le hm, List.take_zero, List.append_nil]
    exact h m
  · rw [List.take_of_length_le (Nat.le_of_not_le hm), edits_append]
    exact h' _

theorem length_edits_keeps {l : List α} (ps : List (κ → Bool)) :
    (edits key uncut l (ps.map .keep)).length ≤ l.length := by
  induction ps generalizing l with
  | nil => exact Nat.le_refl _
  | cons p ps ih => exact Nat.le_trans ih (List.length_filter_le _ _)

theorem length_le_edits_puts (l xs : List α) :
    l.length ≤ (edits key uncut l (xs.map .put)).length := by
  induction xs generalizing l with
  | nil => exact Nat.le_refl _
  | cons x xs ih =>
    refine Nat.le_trans ?_ (ih _)
    unfold edit upsertKey uncut
    dsimp only
    split
    · exact Nat.le_of_eq (length_replaceKey x l).symm
    · simp

/-- A single edit has nothing between its ends. -/
theorem fits_one {l : List α} {es : List (Edit α κ)} (hone : es.length ≤ 1) (h : l.length ≤ n)
    (h' : (edits key uncut l es).length ≤ n) : Fits key n l es := by
  intro m
  cases m with
  | zero => exact h
  | succ m =>
    rw [List.take_of_length_le (by omega)]
    exact h'

/-- Removals only shorten the list. -/
theorem fits_keeps {l : List α} (h : l.length ≤ n) (ps : List (κ → Bool)) :
    Fits key n l (ps.map .keep) := by
  intro m
  rw [← List.map_take]
  exact Nat.le_trans (length_edits_keeps _) h

/-- Puts only lengthen it. -/
theorem fits_puts {l xs : List α} (h : (edits key uncut l (xs.map .put)).length ≤ n) :
    Fits key n l (xs.map .put) := by
  intro m
  refine Nat.le_trans ?_ h
  conv_rhs => rw [← List.take_append_drop m xs, List.map_append, edits_append]
  rw [← List.map_take]
  exact length_le_edits_puts _ _

/-- Then nothing is cut. -/
theorem edits_newest {l : List α} {es : List (Edit α κ)} (h : Fits key n l es) :
    edits key (newest n) l es = edits key uncut l es := by
  induction es generalizing l with
  | nil => rfl
  | cons e es ih =>
    obtain ⟨hone, hrest⟩ := h.cons
    have hedit : edit key (newest n) l e = edit key uncut l e := by
      cases e with
      | keep p => rfl
      | put a =>
        unfold edit upsertKey at hone ⊢
        dsimp only at hone ⊢
        split
        · rfl
        · next hany =>
          rw [if_neg hany] at hone
          exact newest_of_le hone
    rw [edits_cons, edits_cons, hedit]
    exact ih hrest

end Newest

end Bounded
