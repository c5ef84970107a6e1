import InverterDashboard.Bounded.Edits
import Mathlib.Data.List.Dedup
import Mathlib.Data.List.Induction
import Mathlib.Data.List.Perm.Subperm

/-
  Sets of at most `n` entries that forget one when they overflow.

  Which one is an input: an unordered set leaves it to its iteration order. A set of the `n` entries
  seen last stays one exactly when each overflow forgets the entry that was not seen for the longest
  time (`keepsRecent_concat`).
-/

namespace Bounded

variable {α : Type} [DecidableEq α]

/-! ## The order of last occurrences -/

def seeAgain (l : List α) (a : α) : List α := l.filter (· ≠ a) ++ [a]

/-- The entries of a history, those seen last at the end. -/
def recent (xs : List α) : List α := xs.foldl seeAgain []

/-- The other entries seen in a history. -/
def others (a : α) (xs : List α) : List α := (xs.filter (· ≠ a)).dedup

theorem recent_concat (xs : List α) (a : α) : recent (xs ++ [a]) = seeAgain (recent xs) a := by
  unfold recent
  rw [List.foldl_append]
  rfl

theorem mem_recent {xs : List α} {a : α} : a ∈ recent xs ↔ a ∈ xs := by
  induction xs using List.reverseRecOn with
  | nil => exact Iff.rfl
  | append_singleton xs x ih =>
    rw [recent_concat, seeAgain, List.mem_append, List.mem_filter, ih]
    by_cases hx : a = x <;> simp [hx]

theorem nodup_recent (xs : List α) : (recent xs).Nodup := by
  induction xs using List.reverseRecOn with
  | nil => exact List.nodup_nil
  | append_singleton xs x ih =>
    rw [recent_concat, seeAgain, List.nodup_append]
    refine ⟨ih.filter _, List.nodup_singleton x, ?_⟩
    rintro a ha b hb rfl
    rw [List.mem_singleton] at hb
    simp [hb] at ha

theorem recent_append (xs ys : List α) :
    recent (xs ++ ys) = (recent xs).filter (· ∉ ys) ++ recent ys := by
  induction ys using List.reverseRecOn with
  | nil =>
    have hnil : recent ([] : List α) = [] := rfl
    simp [hnil]
  | append_singleton ys y ih =>
    rw [← List.append_assoc, recent_concat, recent_concat, seeAgain, seeAgain, ih,
      List.filter_append, List.filter_filter, List.append_assoc]
    congr 1
    refine List.filter_congr fun a _ => ?_
    simp [and_comm]

/-- The order of last occurrences around the last occurrence of an entry. -/
theorem recent_last (before after : List α) {a : α} (h : a ∉ after) :
    ∃ front, recent (before ++ a :: after) = front ++ a :: recent after := by
  have hone : recent (a :: after) = a :: recent after := by
    have happend := recent_append [a] after
    have hsingle : recent [a] = [a] := rfl
    rw [hsingle] at happend
    simpa [h] using happend
  rw [recent_append, hone]
  exact ⟨_, rfl⟩

theorem length_recent {xs : List α} {a : α} (h : a ∉ xs) :
    (recent xs).length = (others a xs).length := by
  have hsame : others a xs = xs.dedup := by
    unfold others
    rw [List.filter_eq_self.mpr]
    intro x hx
    rw [decide_eq_true_eq]
    rintro rfl
    exact h hx
  rw [hsame]
  refine List.Perm.length_eq ((List.perm_ext_iff_of_nodup (nodup_recent xs)
    (List.nodup_dedup xs)).mpr fun x => ?_)
  rw [mem_recent, List.mem_dedup]

omit [DecidableEq α] in
theorem exists_last {xs : List α} {a : α} (h : a ∈ xs) :
    ∃ before after, xs = before ++ a :: after ∧ a ∉ after := by
  obtain ⟨as, bs, hsplit, hnot⟩ := List.eq_append_cons_of_mem (List.mem_reverse.mpr h)
  refine ⟨bs.reverse, as.reverse, ?_, fun hmem => hnot (List.mem_reverse.mp hmem)⟩
  rw [← List.reverse_reverse xs, hsplit]
  simp

theorem length_others_le {a : α} {xs ys : List α} (h : ys ⊆ xs) :
    (others a ys).length ≤ (others a xs).length := by
  refine List.Subperm.length_le (List.Nodup.subperm (List.nodup_dedup _) fun x hx => ?_)
  unfold others at hx ⊢
  rw [List.mem_dedup, List.mem_filter] at hx ⊢
  exact ⟨h hx.1, hx.2⟩

/-- An entry is among those seen last as long as fewer others came after it. -/
theorem mem_newest_recent {n : Nat} {xs : List α} {a : α} :
    a ∈ newest n (recent xs) ↔
      ∃ before after, xs = before ++ a :: after ∧ (others a after).length < n := by
  have hlast : ∀ {before after : List α}, a ∉ after →
      (a ∈ newest n (recent (before ++ a :: after)) ↔ (others a after).length < n) := by
    intro before after hnot
    obtain ⟨front, hrecent⟩ := recent_last before after hnot
    have hnodup := nodup_recent (before ++ a :: after)
    rw [hrecent] at hnodup ⊢
    rw [mem_newest_split hnodup, length_recent hnot]
  constructor
  · intro hmem
    have hxs : a ∈ xs := mem_recent.mp ((newest_sublist _).subset hmem)
    obtain ⟨before, after, rfl, hnot⟩ := exists_last hxs
    exact ⟨before, after, rfl, (hlast hnot).mp hmem⟩
  · rintro ⟨before, after, rfl, hlt⟩
    by_cases hmem : a ∈ after
    · obtain ⟨mid, rest, rfl, hnot⟩ := exists_last hmem
      have hle : (others a rest).length ≤ (others a (mid ++ a :: rest)).length :=
        length_others_le fun x hx => by simp [hx]
      have hsplit : before ++ a :: (mid ++ a :: rest) = (before ++ a :: mid) ++ a :: rest := by simp
      rw [hsplit]
      exact (hlast hnot).mpr (by omega)
    · exact (hlast hmem).mpr hlt

/-! ## Sets that overflow -/

/-- An entry is added; when there are more than `n` then, the one at `i` is forgotten. -/
def remember (n : Nat) (kept : List α) (e : α × Nat) : List α :=
  if e.1 ∈ kept then kept
  else if n < (kept ++ [e.1]).length then
    (kept ++ [e.1]).eraseIdx (e.2 % (kept ++ [e.1]).length)
  else kept ++ [e.1]

def remembered (n : Nat) (es : List (α × Nat)) : List α := es.foldl (remember n) []

/-- The entries that were given. -/
def given (es : List (α × Nat)) : List α := es.map Prod.fst

/-- When the set overflows the entry of it that was not seen for the longest time is forgotten. -/
def ForgetsOldest (n : Nat) (es : List (α × Nat)) (e : α × Nat) : Prop :=
  e.1 ∉ remembered n es → (remembered n es).length = n →
    (remembered n es ++ [e.1])[e.2 % (n + 1)]? = (recent (given es)).find? (· ∈ remembered n es)

/-- The set holds the entries seen last. -/
def KeepsRecent (n : Nat) (es : List (α × Nat)) : Prop :=
  ∀ a ∈ newest n (recent (given es)), a ∈ remembered n es

variable {n : Nat}

theorem remembered_concat (es : List (α × Nat)) (e : α × Nat) :
    remembered n (es ++ [e]) = remember n (remembered n es) e := List.foldl_append

omit [DecidableEq α] in
theorem given_concat (es : List (α × Nat)) (e : α × Nat) : given (es ++ [e]) = given es ++ [e.1] :=
  List.map_append

theorem nodup_remembered (es : List (α × Nat)) : (remembered n es).Nodup := by
  induction es using List.reverseRecOn with
  | nil => exact List.nodup_nil
  | append_singleton es e ih =>
    rw [remembered_concat, remember]
    split
    · exact ih
    · next hnew =>
      have hadd : (remembered n es ++ [e.1]).Nodup := by
        rw [List.nodup_append]
        refine ⟨ih, List.nodup_singleton _, ?_⟩
        rintro a ha b hb rfl
        exact hnew (List.mem_singleton.mp hb ▸ ha)
      split
      · exact hadd.sublist (List.eraseIdx_sublist _ _)
      · exact hadd

theorem length_remembered (es : List (α × Nat)) : (remembered n es).length ≤ n := by
  induction es using List.reverseRecOn with
  | nil => exact Nat.zero_le _
  | append_singleton es e ih =>
    rw [remembered_concat, remember]
    split
    · exact ih
    · split
      · rw [List.length_eraseIdx_of_lt (Nat.mod_lt _ (by omega)), List.length_append,
          List.length_singleton]
        omega
      · omega

theorem mem_given_of_remembered {es : List (α × Nat)} {a : α} (h : a ∈ remembered n es) :
    a ∈ given es := by
  induction es using List.reverseRecOn with
  | nil => cases h
  | append_singleton es e ih =>
    rw [remembered_concat, remember] at h
    rw [given_concat, List.mem_append]
    split at h
    · exact Or.inl (ih h)
    · have hadd : a ∈ remembered n es ++ [e.1] := by
        split at h
        · exact (List.eraseIdx_sublist _ _).subset h
        · exact h
      exact (List.mem_append.mp hadd).imp_left ih

/-- Then it holds nothing else. -/
theorem KeepsRecent.mem_iff {es : List (α × Nat)} (h : KeepsRecent n es) (a : α) :
    a ∈ remembered n es ↔ a ∈ newest n (recent (given es)) := by
  refine ⟨fun hmem => ?_, h a⟩
  have hnodup : (newest n (recent (given es))).Nodup :=
    (nodup_recent _).sublist (newest_sublist _)
  have hperm : (newest n (recent (given es))).Subperm (remembered n es) := hnodup.subperm h
  rcases Nat.lt_or_ge n (recent (given es)).length with hlong | hshort
  · have hlen : (newest n (recent (given es))).length = n := by
      unfold newest
      rw [List.length_drop]
      omega
    have hfull : (remembered n es).length ≤ (newest n (recent (given es))).length := by
      rw [hlen]
      exact length_remembered es
    exact (hperm.perm_of_length_le hfull).mem_iff.mpr hmem
  · rw [newest_of_le hshort, mem_recent]
    exact mem_given_of_remembered hmem

omit [DecidableEq α] in
theorem newest_append {front back : List α} (hback : back.length ≤ n)
    (h : front = [] ∨ back.length = n) : newest n (front ++ back) = back := by
  rcases h with rfl | hfull
  · exact newest_of_le hback
  · unfold newest
    rw [List.length_append, hfull, Nat.add_sub_cancel]
    exact List.drop_append_length

/-- The entries seen before the last `n` and those. -/
theorem recent_split (es : List (α × Nat)) :
    ∃ front, recent (given es) = front ++ newest n (recent (given es)) ∧
      (front = [] ∨ (newest n (recent (given es))).length = n) := by
  refine ⟨(recent (given es)).take ((recent (given es)).length - n), ?_, ?_⟩
  · exact (List.take_append_drop _ _).symm
  · rcases Nat.lt_or_ge (recent (given es)).length n with hshort | hlong
    · refine Or.inl ?_
      rw [Nat.sub_eq_zero_of_le (Nat.le_of_lt hshort), List.take_zero]
    · refine Or.inr ?_
      unfold newest
      rw [List.length_drop]
      omega

/-- A full set that one entry joins and one leaves. -/
theorem overflow_iff {kept front last : List α} {a : α} {i : Nat} (hkept : kept.Nodup)
    (hnew : a ∉ kept) (hfull : kept.length = n) (hmem : ∀ x, x ∈ kept ↔ x ∈ last)
    (hnodup : front.Nodup ∧ last.Nodup ∧ ∀ x ∈ front, ∀ y ∈ last, x ≠ y)
    (hlength : kept.length = last.length) (hn : 0 < n) :
    (∀ x ∈ newest n (front.filter (· ≠ a) ++ (last ++ [a])),
        x ∈ (kept ++ [a]).eraseIdx (i % (n + 1))) ↔
      (a ∉ kept → n = n → (kept ++ [a])[i % (n + 1)]? = (front ++ last).find? (· ∈ kept)) := by
  cases last with
  | nil =>
    rw [List.length_nil] at hlength
    omega
  | cons oldest rest =>
    have hall : (kept ++ [a]).Nodup := by
      rw [List.nodup_append]
      refine ⟨hkept, List.nodup_singleton a, ?_⟩
      rintro x hx y hy rfl
      exact hnew (List.mem_singleton.mp hy ▸ hx)
    have hlt : i % (n + 1) < (kept ++ [a]).length := by
      rw [List.length_append, List.length_singleton, hfull]
      exact Nat.mod_lt _ (by omega)
    have hfind : (front ++ oldest :: rest).find? (· ∈ kept) = some oldest := by
      rw [List.find?_append, List.find?_eq_none.mpr]
      · simp [hmem]
      · intro x hx hk
        exact hnodup.2.2 x hx x ((hmem x).mp (by simpa using hk)) rfl
    have hnewest : newest n (front.filter (· ≠ a) ++ (oldest :: rest ++ [a])) = rest ++ [a] := by
      have hassoc : front.filter (· ≠ a) ++ (oldest :: rest ++ [a]) =
          (front.filter (· ≠ a) ++ [oldest]) ++ (rest ++ [a]) := by simp
      rw [List.length_cons] at hlength
      rw [hassoc]
      exact newest_append (by simp; omega) (Or.inr (by simp; omega))
    have hold : a ≠ oldest := by
      rintro rfl
      exact hnew ((hmem a).mpr List.mem_cons_self)
    have hrest : oldest ∉ rest := (List.nodup_cons.mp hnodup.2.1).1
    rw [hfind, hnewest, List.getElem?_eq_getElem hlt, ← hall.erase_getElem _ hlt]
    constructor
    · intro h _ _
      have hgone : ∀ x ∈ rest ++ [a], x ≠ (kept ++ [a])[i % (n + 1)] := fun x hx =>
        (hall.mem_erase_iff.mp (h x hx)).1
      rcases List.mem_append.mp (List.getElem_mem hlt) with hin | hin
      · rcases List.mem_cons.mp ((hmem _).mp hin) with heq | hin
        · rw [heq]
        · exact absurd rfl (hgone _ (List.mem_append_left _ hin))
      · exact absurd rfl (hgone _ (List.mem_append_right _ hin))
    · intro h x hx
      rw [Option.some.inj (h hnew rfl), hall.mem_erase_iff]
      rcases List.mem_append.mp hx with hin | hin
      · refine ⟨?_, List.mem_append_left _ ((hmem x).mpr (List.mem_cons_of_mem _ hin))⟩
        rintro rfl
        exact hrest hin
      · exact ⟨List.mem_singleton.mp hin ▸ hold, List.mem_append_right _ hin⟩

/-- **One entry more.** A set of those seen last stays one exactly when it forgets the oldest. -/
theorem keepsRecent_concat (hn : 0 < n) {es : List (α × Nat)} (h : KeepsRecent n es)
    (e : α × Nat) : KeepsRecent n (es ++ [e]) ↔ ForgetsOldest n es e := by
  obtain ⟨front, hsplit, hfront⟩ := recent_split (n := n) es
  have hmem := h.mem_iff
  have hnodup := nodup_recent (given es)
  have hnext : recent (given (es ++ [e])) = seeAgain (recent (given es)) e.1 := by
    rw [given_concat, recent_concat]
  have hlength : (remembered n es).length = (newest n (recent (given es))).length :=
    ((List.perm_ext_iff_of_nodup (nodup_remembered es)
      (hnodup.sublist (newest_sublist _))).mpr hmem).length_eq
  have hsize : (newest n (recent (given es))).length ≤ n := length_newest _
  generalize newest n (recent (given es)) = last at hsplit hfront hmem hlength hsize
  rw [hsplit, List.nodup_append] at hnodup
  unfold KeepsRecent ForgetsOldest
  rw [hnext, hsplit, remembered_concat]
  unfold seeAgain
  rw [List.filter_append, List.append_assoc]
  by_cases hknown : e.1 ∈ remembered n es
  · -- Seen again: the set stays, and the entry becomes the newest.
    have hlast : e.1 ∈ last := (hmem _).mp hknown
    have hgone : front.filter (· ≠ e.1) = front := by
      rw [List.filter_eq_self]
      intro x hx
      rw [decide_eq_true_eq]
      rintro rfl
      exact hnodup.2.2 _ hx _ hlast rfl
    have hback : (last.filter (· ≠ e.1) ++ [e.1]).length = last.length := by
      refine List.Perm.length_eq ((List.perm_ext_iff_of_nodup ?_ hnodup.2.1).mpr fun x => ?_)
      · rw [List.nodup_append]
        refine ⟨hnodup.2.1.filter _, List.nodup_singleton _, ?_⟩
        rintro x hx y hy rfl
        rw [List.mem_singleton] at hy
        simp [hy] at hx
      · by_cases hx : x = e.1 <;> simp [hx, hlast]
    refine iff_of_true ?_ (fun hnew => absurd hknown hnew)
    rw [hgone, newest_append (by omega) (by rw [hback]; exact hfront)]
    intro a ha
    rw [remember, if_pos hknown, hmem]
    rcases List.mem_append.mp ha with ha | ha
    · exact (List.mem_filter.mp ha).1
    · exact List.mem_singleton.mp ha ▸ hlast
  · have hnew : e.1 ∉ last := fun hlast => hknown ((hmem _).mpr hlast)
    have hkeep : last.filter (· ≠ e.1) = last := by
      rw [List.filter_eq_self]
      intro x hx
      rw [decide_eq_true_eq]
      rintro rfl
      exact hnew hx
    rw [hkeep, remember, if_neg hknown, List.length_append, List.length_singleton]
    by_cases hfull : (remembered n es).length = n
    · rw [if_pos (by omega), hfull]
      exact overflow_iff (nodup_remembered es) hknown hfull hmem hnodup hlength hn
    · -- There is room: nothing was seen before those that the set holds.
      have hnil : front = [] := hfront.resolve_right (by omega)
      refine iff_of_true ?_ (fun _ h => absurd h hfull)
      rw [hnil, List.filter_nil, List.nil_append, if_neg (by omega), newest_of_le (by simp; omega)]
      intro a ha
      rcases List.mem_append.mp ha with ha | ha
      · exact List.mem_append_left _ ((hmem a).mpr ha)
      · exact List.mem_append_right _ ha

end Bounded
