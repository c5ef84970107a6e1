import InverterDashboard.Python.Value

/-
  Code that builds and changes dicts in place.

  A dict is an object of the heap, and entries refer to objects, so that two names may share one.
  Code runs on a heap and returns or raises. `Ensures` states what holds of the heap either way, and
  has a rule for each way code is put together.
-/

namespace Python

/-! ## Objects -/

/-- What an entry refers to: a dict, or a value that nobody changes. -/
inductive Item where
  | ref (r : Nat)
  | value (v : Value)

abbrev Fields := Dict Str Item

structure Heap where
  cells : List Fields

namespace Heap

variable (h : Heap)

def size : Nat := h.cells.length

/-- The entries of an object. -/
def fields (r : Nat) : Fields := (h.cells[r]?).getD Dict.empty

/-- `d.get(k)`, with an absent key apart. -/
def item (r : Nat) (k : Str) : Option Item := (h.fields r).get? k

/-- The heap with a new object. -/
def push (fields : Fields) : Heap := ⟨h.cells ++ [fields]⟩

/-- `d[k] = x`. -/
def put (r : Nat) (k : Str) (x : Item) : Heap := ⟨h.cells.set r ((h.fields r).set k x)⟩

/-- Every reference is to an object. -/
def Closed : Prop := ∀ r k i, h.item r k = some (.ref i) → i < h.size

variable {h}

@[simp] theorem size_push (fields : Fields) : (h.push fields).size = h.size + 1 := by
  simp [push, size]

@[simp] theorem size_put (r : Nat) (k : Str) (x : Item) : (h.put r k x).size = h.size := by
  simp [put, size]

theorem fields_push (fields : Fields) (r : Nat) :
    (h.push fields).fields r = if r = h.size then fields else h.fields r := by
  unfold push Heap.fields size
  dsimp only
  rcases Nat.lt_trichotomy r h.cells.length with hlt | heq | hgt
  · rw [List.getElem?_append_left hlt, if_neg (by omega)]
  · rw [heq, if_pos rfl]
    simp
  · rw [if_neg (by omega), List.getElem?_eq_none (by simp; omega),
      List.getElem?_eq_none (by omega)]

theorem fields_put_ne {r s : Nat} (hne : s ≠ r) (k : Str) (x : Item) :
    (h.put r k x).fields s = h.fields s := by
  unfold put Heap.fields
  dsimp only
  rw [List.getElem?_set_ne (Ne.symm hne)]

theorem item_put {r : Nat} (hr : r < h.size) (k k' : Str) (x : Item) :
    (h.put r k x).item r k' = if k' = k then some x else h.item r k' := by
  have hfields : (h.put r k x).fields r = (h.fields r).set k x := by
    unfold put
    show ((h.cells.set r ((h.fields r).set k x))[r]?).getD Dict.empty = _
    rw [List.getElem?_set_self hr]
    rfl
  unfold item
  rw [hfields, Dict.get?_set]

theorem item_put_ne {r s : Nat} (hne : s ≠ r) (k k' : Str) (x : Item) :
    (h.put r k x).item s k' = h.item s k' := by
  unfold item
  rw [fields_put_ne hne]

theorem closed_of_entries
    (h' : ∀ fields ∈ h.cells, ∀ e ∈ fields.entries, ∀ i, e.2 = .ref i → i < h.size) : h.Closed := by
  intro r k i hitem
  unfold item Heap.fields at hitem
  cases hcell : h.cells[r]? with
  | none =>
    rw [hcell] at hitem
    cases hitem
  | some fields =>
    rw [hcell] at hitem
    exact h' fields (List.mem_of_getElem? hcell) _ (Dict.mem_entries.mpr hitem) i rfl

end Heap

/-! ## Code -/

/-- Code on a heap; `none` is an exception. -/
def HeapCode (α : Type) : Type := Heap → Option α × Heap

namespace HeapCode

variable {α β : Type}

instance : Monad HeapCode where
  pure a := fun h => (some a, h)
  bind p f := fun h => match p h with
    | (some a, h) => f a h
    | (none, h) => (none, h)

def raise : HeapCode α := fun h => (none, h)

/-- What is read of the heap. -/
def read (f : Heap → α) : HeapCode α := fun h => (some (f h), h)

/-- A new object. -/
def alloc (fields : Fields) : HeapCode Nat := fun h => (some h.size, h.push fields)

def setItem (r : Nat) (k : Str) (x : Item) : HeapCode Unit := fun h => (some (), h.put r k x)

/-- From a heap with `pre`, the code returns with `post` or raises with `raised`. -/
def Ensures (pre : Heap → Prop) (p : HeapCode α) (post : α → Heap → Prop)
    (raised : Heap → Prop) : Prop :=
  ∀ h, pre h → (∀ a, (p h).1 = some a → post a (p h).2) ∧ ((p h).1 = none → raised (p h).2)

variable {pre : Heap → Prop} {raised : Heap → Prop}

theorem Ensures.pure {post : α → Heap → Prop} {a : α} (h : ∀ heap, pre heap → post a heap) :
    Ensures pre (Pure.pure a) post raised :=
  fun heap hpre => ⟨fun _ ha => Option.some.inj ha ▸ h heap hpre, (nomatch ·)⟩

theorem Ensures.raise {post : α → Heap → Prop} (h : ∀ heap, pre heap → raised heap) :
    Ensures pre (HeapCode.raise : HeapCode α) post raised :=
  fun heap hpre => ⟨fun _ ha => (nomatch ha), fun _ => h heap hpre⟩

theorem Ensures.read {f : Heap → α} :
    Ensures pre (HeapCode.read f) (fun a heap => pre heap ∧ a = f heap) raised :=
  fun _ hpre => ⟨fun _ ha => ⟨hpre, (Option.some.inj ha).symm⟩, (nomatch ·)⟩

theorem Ensures.alloc {post : Nat → Heap → Prop} {fields : Fields}
    (h : ∀ heap, pre heap → post heap.size (heap.push fields)) :
    Ensures pre (HeapCode.alloc fields) post raised :=
  fun heap hpre => ⟨fun _ ha => Option.some.inj ha ▸ h heap hpre, (nomatch ·)⟩

theorem Ensures.setItem {post : Heap → Prop} {r : Nat} {k : Str} {x : Item}
    (h : ∀ heap, pre heap → post (heap.put r k x)) :
    Ensures pre (HeapCode.setItem r k x) (fun _ => post) raised :=
  fun heap hpre => ⟨fun _ _ => h heap hpre, (nomatch ·)⟩

theorem run_bind (p : HeapCode α) (f : α → HeapCode β) (h : Heap) :
    (p >>= f) h = match p h with
      | (some a, h) => f a h
      | (none, h) => (none, h) := rfl

theorem Ensures.bind {p : HeapCode α} {f : α → HeapCode β} {mid : α → Heap → Prop}
    {post : β → Heap → Prop} (hp : Ensures pre p mid raised)
    (hf : ∀ a, Ensures (mid a) (f a) post raised) : Ensures pre (p >>= f) post raised := by
  intro heap hpre
  have hfirst := hp heap hpre
  rw [run_bind]
  generalize p heap = result at hfirst
  rcases result with ⟨_ | a, heap'⟩
  · exact ⟨fun b hb => (nomatch hb), fun _ => hfirst.2 rfl⟩
  · exact hf a heap' (hfirst.1 a rfl)

theorem Ensures.mono {p : HeapCode α} {post post' : α → Heap → Prop} (hp : Ensures pre p post raised)
    (h : ∀ a heap, post a heap → post' a heap) : Ensures pre p post' raised :=
  fun heap hpre => ⟨fun a ha => h a _ ((hp heap hpre).1 a ha), (hp heap hpre).2⟩

theorem Ensures.weaken {pre' : Heap → Prop} {p : HeapCode α} {post : α → Heap → Prop}
    (hp : Ensures pre p post raised) (h : ∀ heap, pre' heap → pre heap) :
    Ensures pre' p post raised :=
  fun heap hpre => hp heap (h heap hpre)

theorem Ensures.never {p : HeapCode α} {post : α → Heap → Prop} (h : ∀ heap, ¬ pre heap) :
    Ensures pre p post raised :=
  fun heap hpre => absurd hpre (h heap)

/-- A loop keeps what its body keeps. -/
theorem Ensures.forM {inv : Heap → Prop} {f : α → HeapCode PUnit} {xs : List α}
    (h : ∀ x ∈ xs, Ensures inv (f x) (fun _ => inv) raised) :
    Ensures inv (xs.forM f) (fun _ => inv) raised := by
  induction xs with
  | nil => exact Ensures.pure fun _ hinv => hinv
  | cons x xs ih =>
    exact (h x List.mem_cons_self).bind fun _ =>
      ih fun y hy => h y (List.mem_cons_of_mem _ hy)

end HeapCode

end Python
