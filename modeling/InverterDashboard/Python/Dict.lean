import Mathlib.Data.List.Basic
import Mathlib.Data.List.Induction
import Mathlib.Data.List.Nodup

/-
  Python `dict`: keys in insertion order, each once. `set` keeps the place of a key it
  replaces, `erase` removes it, and iteration follows the order of first insertion.

  Proofs read a dict through `get?` only: `get?_set` and `get?_erase` describe the updates,
  `mem_keys` and `mem_entries` describe iteration.
-/

namespace Python

universe u v

/-- A dictionary: its entries in insertion order, no key twice. -/
structure Dict (α : Type u) (β : Type v) where
  entries : List (α × β)
  nodup : (entries.map Prod.fst).Nodup

namespace Dict

variable {α : Type u} {β : Type v} [DecidableEq α]

/-! ## Entry lists -/

/-- The value of the first entry with key `k`. -/
def find (k : α) : List (α × β) → Option β
  | [] => none
  | (a, b) :: es => if k = a then some b else find k es

/-- Replaces the value of a key in place, or appends the key. -/
def setEntries (k : α) (v : β) : List (α × β) → List (α × β)
  | [] => [(k, v)]
  | (a, b) :: es => if a = k then (k, v) :: es else (a, b) :: setEntries k v es

theorem isSome_find (k : α) (es : List (α × β)) :
    (find k es).isSome ↔ k ∈ es.map Prod.fst := by
  induction es with
  | nil => simp [find]
  | cons e es ih =>
    obtain ⟨a, b⟩ := e
    rw [List.map_cons, List.mem_cons, ← ih, find]
    by_cases h : k = a <;> simp [h]

theorem mem_keys_setEntries (k x : α) (v : β) (es : List (α × β)) :
    x ∈ (setEntries k v es).map Prod.fst ↔ x = k ∨ x ∈ es.map Prod.fst := by
  induction es with
  | nil => simp [setEntries]
  | cons e es ih =>
    obtain ⟨a, b⟩ := e
    unfold setEntries
    split
    · next h =>
      subst h
      simp
    · rw [List.map_cons, List.mem_cons, ih, List.map_cons, List.mem_cons]
      exact or_left_comm

theorem nodup_setEntries (k : α) (v : β) (es : List (α × β))
    (h : (es.map Prod.fst).Nodup) : ((setEntries k v es).map Prod.fst).Nodup := by
  induction es with
  | nil => simp [setEntries]
  | cons e es ih =>
    obtain ⟨a, b⟩ := e
    rw [List.map_cons, List.nodup_cons] at h
    unfold setEntries
    split
    · next hk =>
      subst hk
      exact List.nodup_cons.mpr h
    · next hk =>
      rw [List.map_cons, List.nodup_cons, mem_keys_setEntries]
      exact ⟨fun hm => hm.elim hk h.1, ih h.2⟩

theorem find_setEntries (k x : α) (v : β) (es : List (α × β)) :
    find x (setEntries k v es) = if x = k then some v else find x es := by
  induction es with
  | nil => rfl
  | cons e es ih =>
    obtain ⟨a, b⟩ := e
    unfold setEntries
    split
    · next h =>
      subst h
      by_cases hx : x = a <;> simp [find, hx]
    · next h =>
      rw [find, find, ih]
      by_cases hx : x = a
      · subst hx
        simp [h]
      · simp [hx]

theorem find_filter_ne (k x : α) (es : List (α × β)) :
    find x (es.filter fun e => e.1 ≠ k) = if x = k then none else find x es := by
  induction es with
  | nil => simp [find]
  | cons e es ih =>
    obtain ⟨a, b⟩ := e
    by_cases ha : a = k
    · subst ha
      rw [List.filter_cons_of_neg (by simp), ih, find]
      by_cases hx : x = a <;> simp [hx]
    · rw [List.filter_cons_of_pos (by simpa using ha), find, find, ih]
      by_cases hx : x = a
      · subst hx
        simp [ha]
      · simp [hx]

theorem mem_iff_find {es : List (α × β)} (hn : (es.map Prod.fst).Nodup) {k : α} {v : β} :
    (k, v) ∈ es ↔ find k es = some v := by
  induction es with
  | nil => simp [find]
  | cons e es ih =>
    obtain ⟨a, b⟩ := e
    rw [List.map_cons, List.nodup_cons] at hn
    rw [List.mem_cons, ih hn.2, find]
    by_cases h : k = a
    · subst h
      have hne : find k es ≠ some v := by
        intro hc
        exact hn.1 ((isSome_find k es).mp (by rw [hc]; rfl))
      simp [hne, eq_comm]
    · simp [h]

/-! ## Dictionaries -/

def empty : Dict α β := ⟨[], List.nodup_nil⟩

instance : Inhabited (Dict α β) := ⟨empty⟩

def keys (d : Dict α β) : List α := d.entries.map Prod.fst

/-- `d.get(k)`, with `none` for an absent key. -/
def get? (d : Dict α β) (k : α) : Option β := find k d.entries

/-- `k in d`. -/
def has (d : Dict α β) (k : α) : Bool := (d.get? k).isSome

/-- `not d`. -/
def isEmpty (d : Dict α β) : Bool := d.entries.isEmpty

/-- `d[k] = v`. -/
def set (d : Dict α β) (k : α) (v : β) : Dict α β :=
  ⟨setEntries k v d.entries, nodup_setEntries k v d.entries d.nodup⟩

/-- `d.pop(k, None)`. -/
def erase (d : Dict α β) (k : α) : Dict α β :=
  ⟨d.entries.filter fun e => e.1 ≠ k, d.nodup.sublist (List.filter_sublist.map Prod.fst)⟩

/-- A dict built entry by entry: later entries of a key win. -/
def ofList (es : List (α × β)) : Dict α β := es.foldl (fun d e => d.set e.1 e.2) empty

/-- Sets every listed key to its image. -/
def setAll (d : Dict α β) (ks : List α) (f : α → β) : Dict α β :=
  ks.foldl (fun d k => d.set k (f k)) d

/-- Every value replaced in place. -/
def mapValues {γ : Type} (f : α → β → γ) (d : Dict α β) : Dict α γ where
  entries := d.entries.map fun e => (e.1, f e.1 e.2)
  nodup := by
    rw [List.map_map]
    exact d.nodup

@[simp] theorem get?_empty (k : α) : (empty : Dict α β).get? k = none := rfl

@[simp] theorem get?_set (d : Dict α β) (k x : α) (v : β) :
    (d.set k v).get? x = if x = k then some v else d.get? x :=
  find_setEntries k x v d.entries

@[simp] theorem get?_erase (d : Dict α β) (k x : α) :
    (d.erase k).get? x = if x = k then none else d.get? x :=
  find_filter_ne k x d.entries

@[simp] theorem get?_mapValues {γ : Type} (f : α → β → γ) (d : Dict α β) (k : α) :
    (d.mapValues f).get? k = (d.get? k).map (f k) := by
  unfold mapValues get?
  dsimp only
  induction d.entries with
  | nil => rfl
  | cons e es ih =>
    rw [List.map_cons]
    unfold find
    split
    · next h => rw [h]; rfl
    · exact ih

theorem get?_set_ne (d : Dict α β) {k x : α} (v : β) (h : x ≠ k) :
    (d.set k v).get? x = d.get? x := by
  rw [get?_set, if_neg h]

@[simp] theorem get?_setAll (d : Dict α β) (ks : List α) (f : α → β) (x : α) :
    (d.setAll ks f).get? x = if x ∈ ks then some (f x) else d.get? x := by
  unfold setAll
  induction ks generalizing d with
  | nil => simp
  | cons k ks ih =>
    rw [List.foldl_cons, ih]
    by_cases hx : x ∈ ks
    · simp [hx]
    · by_cases hk : x = k
      · subst hk
        simp [hx]
      · simp [hx, hk]

/-- A dict built from a list holds entries of that list. -/
theorem mem_of_get?_ofList {es : List (α × β)} {k : α} {v : β}
    (h : (ofList es).get? k = some v) : (k, v) ∈ es := by
  unfold ofList at h
  induction es using List.reverseRecOn with
  | nil => cases h
  | append_singleton es e ih =>
    rw [List.foldl_append] at h
    rw [List.foldl_cons, List.foldl_nil, get?_set] at h
    rw [List.mem_append, List.mem_singleton]
    split at h
    · next hk =>
      obtain rfl := Option.some.inj h
      exact Or.inr (by rw [hk])
    · exact Or.inl (ih h)

theorem mem_keys {d : Dict α β} {k : α} : k ∈ d.keys ↔ (d.get? k).isSome :=
  (isSome_find k d.entries).symm

theorem mem_entries {d : Dict α β} {k : α} {v : β} :
    (k, v) ∈ d.entries ↔ d.get? k = some v :=
  mem_iff_find d.nodup

theorem exists_get?_of_isEmpty {d : Dict α β} (h : d.isEmpty = false) :
    ∃ k v, d.get? k = some v := by
  obtain ⟨es, hn⟩ := d
  cases es with
  | nil => cases h
  | cons e es => exact ⟨e.1, e.2, mem_entries.mp List.mem_cons_self⟩

theorem isEmpty_set (d : Dict α β) (k : α) (v : β) : (d.set k v).isEmpty = false := by
  obtain ⟨es, hn⟩ := d
  cases es with
  | nil => rfl
  | cons e es =>
    show (setEntries k v (e :: es)).isEmpty = false
    unfold setEntries
    split <;> rfl

/-- An update of a key that is there keeps the keys and their order. -/
theorem keys_set_of_mem {d : Dict α β} {k : α} (h : k ∈ d.keys) (v : β) :
    (d.set k v).keys = d.keys := by
  obtain ⟨es, hn⟩ := d
  show (setEntries k v es).map Prod.fst = es.map Prod.fst
  have hmem : k ∈ es.map Prod.fst := h
  clear h hn
  induction es with
  | nil => cases hmem
  | cons e es ih =>
    unfold setEntries
    split
    · next hk =>
      rw [List.map_cons, List.map_cons, hk]
    · next hk =>
      rw [List.map_cons, List.mem_cons] at hmem
      rw [List.map_cons, List.map_cons, ih (hmem.resolve_left fun h => hk h.symm)]

theorem setEntries_of_notMem {k : α} {es : List (α × β)} (h : k ∉ es.map Prod.fst) (v : β) :
    setEntries k v es = es ++ [(k, v)] := by
  induction es with
  | nil => rfl
  | cons e es ih =>
    rw [List.map_cons, List.mem_cons, not_or] at h
    unfold setEntries
    rw [if_neg fun hk => h.1 hk.symm, ih h.2]
    rfl

/-- Entries without a key twice are those of their dict. -/
theorem entries_ofList {es : List (α × β)} (h : (es.map Prod.fst).Nodup) :
    (ofList es).entries = es := by
  induction es using List.reverseRecOn with
  | nil => rfl
  | append_singleton es e ih =>
    rw [List.map_append, List.nodup_append] at h
    unfold ofList at ih ⊢
    rw [List.foldl_append]
    show setEntries e.1 e.2 (List.foldl (fun d e => d.set e.1 e.2) empty es).entries = _
    rw [ih h.1]
    exact setEntries_of_notMem (fun hmem => h.2.2 _ hmem _ (List.mem_singleton_self _) rfl) _

omit [DecidableEq α] in
theorem nodup_keys (d : Dict α β) : d.keys.Nodup := d.nodup

omit [DecidableEq α] in
@[simp] theorem keys_empty : (empty : Dict α β).keys = [] := rfl

end Dict

end Python
