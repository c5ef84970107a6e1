import Mathlib.Data.List.Sort
import InverterDashboard.Cerbo.Keys

/-
  The store of raw native leaves and the sorted list of connected services read from it.

  Projections see a service as `Leaves`: its lookup function and whether it has any leaf at all.
  Two stores with the same leaves therefore list the same services (`devices_congr`), although
  their dicts were filled in different orders. This needs canonical instance ids: `sorted` keeps
  the arrival order of two ids that are the same number.
-/

namespace InverterDashboard.Cerbo

open Python

/-! ## Raw leaves -/

/-- `_cerbo_devices`: kind, instance, path. -/
abbrev Devices := Dict Kind (Dict Str (Dict Str Value))

namespace Devices

/-- `self._cerbo_devices.get(kind, {})`. -/
def services (m : Devices) (kind : Kind) : Dict Str (Dict Str Value) :=
  (m.get? kind).getD Dict.empty

/-- The stored value of one leaf. -/
def leaf (m : Devices) (kind : Kind) (inst path : Str) : Option Value :=
  ((m.services kind).get? inst).bind fun leaves => leaves.get? path

/-- `devices.setdefault(kind, {}).setdefault(instance, {})[path] = value`. -/
def store (m : Devices) (kind : Kind) (inst path : Str) (value : Value) : Devices :=
  let services := m.services kind
  m.set kind (services.set inst (((services.get? inst).getD Dict.empty).set path value))

/-- `devices.pop(instance)`; `none` when the service is not there. -/
def remove (m : Devices) (kind : Kind) (inst : Str) : Option Devices :=
  if (m.services kind).has inst then some (m.set kind ((m.services kind).erase inst)) else none

theorem services_store (m : Devices) (kind k : Kind) (inst path : Str) (value : Value) :
    (m.store kind inst path value).services k =
      if k = kind then (m.services kind).set inst
        ((((m.services kind).get? inst).getD Dict.empty).set path value)
      else m.services k := by
  unfold store services
  rw [Dict.get?_set]
  split <;> rfl

theorem services_remove {m m' : Devices} {kind : Kind} {inst : Str}
    (h : m.remove kind inst = some m') (k : Kind) :
    m'.services k = if k = kind then (m.services kind).erase inst else m.services k := by
  unfold remove at h
  split at h
  · obtain rfl := Option.some.inj h
    unfold services
    rw [Dict.get?_set]
    split <;> rfl
  · cases h

/-- Storing changes one leaf. -/
theorem leaf_store (m : Devices) (kind k : Kind) (inst i path p : Str) (value : Value) :
    (m.store kind inst path value).leaf k i p =
      if k = kind ∧ i = inst ∧ p = path then some value else m.leaf k i p := by
  unfold leaf
  rw [services_store]
  by_cases hk : k = kind
  · subst hk
    rw [if_pos rfl, Dict.get?_set]
    by_cases hi : i = inst
    · subst hi
      rw [if_pos rfl, Option.bind_some, Dict.get?_set]
      by_cases hp : p = path
      · simp [hp]
      · cases h : (m.services k).get? i <;> simp [hp]
    · simp [hi]
  · simp [hk]

/-- Removing a service drops its leaves and no others. -/
theorem leaf_remove {m m' : Devices} {kind : Kind} {inst : Str}
    (h : m.remove kind inst = some m') (k : Kind) (i p : Str) :
    m'.leaf k i p = if k = kind ∧ i = inst then none else m.leaf k i p := by
  unfold leaf
  rw [services_remove h]
  by_cases hk : k = kind
  · subst hk
    rw [if_pos rfl, Dict.get?_erase]
    by_cases hi : i = inst <;> simp [hi]
  · simp [hk]

theorem remove_eq_none {m : Devices} {kind : Kind} {inst : Str}
    (h : m.remove kind inst = none) : (m.services kind).get? inst = none := by
  unfold remove at h
  split at h
  · cases h
  · next hn =>
    simpa [Dict.has] using hn

@[simp] theorem services_empty (kind : Kind) :
    services (Dict.empty : Devices) kind = Dict.empty := rfl

@[simp] theorem leaf_empty (kind : Kind) (inst path : Str) :
    leaf (Dict.empty : Devices) kind inst path = none := rfl

/-- Every service in the store has at least one leaf. -/
def Populated (m : Devices) : Prop :=
  ∀ kind inst leaves, (m.services kind).get? inst = some leaves → leaves.isEmpty = false

/-- Every instance id in the store satisfies `P`. -/
def Ids (P : Str → Prop) (m : Devices) : Prop :=
  ∀ kind inst, ((m.services kind).get? inst).isSome → P inst

end Devices

/-! ## Services in order -/

/-- What the projections read of a service: `leaves.get`, and `bool(leaves)`. -/
structure Leaves where
  get : Str → Option Value
  nonempty : Bool

namespace Leaves

/-- `{}`. -/
def absent : Leaves := ⟨fun _ => none, false⟩

def ofDict (d : Dict Str Value) : Leaves := ⟨d.get?, !d.isEmpty⟩

/-- `path in leaves`. -/
def has (l : Leaves) (path : Str) : Bool := (l.get path).isSome

/-- `leaves.get(path)`. -/
def value (l : Leaves) (path : Str) : Value := (l.get path).getD .none

/-- `number(leaves.get(path))`. -/
def number (l : Leaves) (path : Str) : Option ℚ := Cerbo.number (l.value path)

/-- The service is not reported as disconnected. -/
def connected (l : Leaves) : Bool :=
  match l.get (Str.lit "Connected") with
  | none => true
  | some value => isConnected value

end Leaves

abbrev Listing := List (Str × Leaves)

/-- The tuples `_sort_key` returns. -/
inductive SortKey where
  | num (n : Nat)
  | text (s : Str)

/-- `_sort_key`; `none` when `int` raises. -/
def sortKey (inst : Str) : Option SortKey :=
  if inst.isdigit then (intOfDigits inst).map .num else some (.text inst)

/-- Lexicographic order of texts. -/
def leText : Str → Str → Bool
  | [], _ => true
  | _ :: _, [] => false
  | a :: s, b :: t => a < b || (a = b && leText s t)

def SortKey.le : SortKey → SortKey → Bool
  | .num a, .num b => a ≤ b
  | .num _, .text _ => true
  | .text _, .num _ => false
  | .text a, .text b => leText a b

/-- A service with its sort key. -/
abbrev Row := SortKey × Str × Leaves

def byKey (a b : Row) : Prop := a.1.le b.1

instance : DecidableRel byKey := fun a b => inferInstanceAs (Decidable (a.1.le b.1 = true))

/-- The services of a kind with their sort keys. -/
def keyed (services : Dict Str (Dict Str Value)) : Option (List Row) :=
  services.entries.mapM fun e => (sortKey e.1).map fun key => (key, e.1, Leaves.ofDict e.2)

/-- `_devices`: the connected services of a kind in order; `none` when a sort key raises. -/
def devices (m : Devices) (kind : Kind) : Option Listing :=
  (keyed (m.services kind)).map fun rows =>
    ((rows.insertionSort byKey).map Prod.snd).filter fun e => e.2.connected

theorem leText_total (a b : Str) : leText a b ∨ leText b a := by
  induction a generalizing b with
  | nil => simp [leText]
  | cons x s ih =>
    cases b with
    | nil => simp [leText]
    | cons y t =>
      simp only [leText, Bool.or_eq_true, Bool.and_eq_true, decide_eq_true_eq]
      rcases lt_trichotomy x y with h | h | h
      · exact Or.inl (Or.inl h)
      · subst h
        rcases ih t with h | h
        · exact Or.inl (Or.inr ⟨rfl, h⟩)
        · exact Or.inr (Or.inr ⟨rfl, h⟩)
      · exact Or.inr (Or.inl h)

theorem leText_trans {a b c : Str} (hab : leText a b) (hbc : leText b c) : leText a c := by
  induction a generalizing b c with
  | nil => rfl
  | cons x s ih =>
    cases b with
    | nil => cases hab
    | cons y t =>
      cases c with
      | nil => cases hbc
      | cons z u =>
        simp only [leText, Bool.or_eq_true, Bool.and_eq_true, decide_eq_true_eq] at hab hbc ⊢
        rcases hab with h | ⟨rfl, h⟩
        · rcases hbc with h' | ⟨rfl, -⟩
          · exact Or.inl (lt_trans h h')
          · exact Or.inl h
        · rcases hbc with h' | ⟨rfl, h'⟩
          · exact Or.inl h'
          · exact Or.inr ⟨rfl, ih h h'⟩

theorem SortKey.le_total (a b : SortKey) : a.le b ∨ b.le a := by
  cases a <;> cases b
  · simpa [SortKey.le] using Nat.le_total _ _
  · exact Or.inl rfl
  · exact Or.inr rfl
  · exact leText_total _ _

theorem SortKey.le_trans {a b c : SortKey} (hab : a.le b) (hbc : b.le c) : a.le c := by
  cases a <;> cases b <;> cases c <;> simp_all [SortKey.le]
  · omega
  · exact leText_trans hab hbc

instance : Std.Total byKey := ⟨fun a b => SortKey.le_total a.1 b.1⟩

instance : IsTrans Row byKey := ⟨fun _ _ _ => SortKey.le_trans⟩

/-! ## The listing depends on the leaves only -/

theorem sortKey_canonical {inst : Str} (h : CanonicalDecimal inst) :
    ∃ n, intOfDigits inst = some n ∧ sortKey inst = some (.num n) := by
  obtain ⟨n, hn, -⟩ := id h
  refine ⟨n, hn, ?_⟩
  unfold sortKey
  rw [if_pos h.isdigit, hn]
  rfl

theorem keyed_mapM {es : List (Str × Dict Str Value)} {rows : List Row}
    (h : es.mapM (fun e => (sortKey e.1).map fun key => (key, e.1, Leaves.ofDict e.2)) = some rows) :
    rows.map Prod.snd = es.map (fun e => (e.1, Leaves.ofDict e.2)) ∧
      ∀ r ∈ rows, sortKey r.2.1 = some r.1 := by
  induction es generalizing rows with
  | nil =>
    obtain rfl : [] = rows := by simpa using h
    simp
  | cons e es ih =>
    rw [List.mapM_cons] at h
    obtain ⟨r, hr, hrest⟩ := Option.bind_eq_some_iff.mp h
    obtain ⟨rs, hrs, hcons⟩ := Option.bind_eq_some_iff.mp hrest
    obtain ⟨key, hkey, rfl⟩ := Option.map_eq_some_iff.mp hr
    obtain rfl := Option.some.inj hcons
    obtain ⟨hmap, hkeys⟩ := ih hrs
    refine ⟨by rw [List.map_cons, List.map_cons, hmap], ?_⟩
    intro r hr
    rcases List.mem_cons.mp hr with rfl | hr
    · exact hkey
    · exact hkeys r hr

theorem keyed_isSome (es : List (Str × Dict Str Value)) (h : ∀ e ∈ es, CanonicalDecimal e.1) :
    ∃ rows, es.mapM (fun e => (sortKey e.1).map fun key => (key, e.1, Leaves.ofDict e.2)) =
      some rows := by
  induction es with
  | nil => exact ⟨[], rfl⟩
  | cons e es ih =>
    obtain ⟨n, -, hkey⟩ := sortKey_canonical (h e List.mem_cons_self)
    obtain ⟨rows, hrows⟩ := ih fun e he => h e (List.mem_cons_of_mem _ he)
    refine ⟨(.num n, e.1, Leaves.ofDict e.2) :: rows, ?_⟩
    rw [List.mapM_cons, hkey, hrows]
    rfl

/-- A service of one store is a service of the other, with the same view. -/
theorem service_congr {m m' : Devices} (hm : m.Populated) (hm' : m'.Populated) {kind : Kind}
    (h : ∀ inst path, m.leaf kind inst path = m'.leaf kind inst path)
    {inst : Str} {leaves : Dict Str Value}
    (hs : (m.services kind).get? inst = some leaves) :
    ∃ leaves', (m'.services kind).get? inst = some leaves' ∧
      Leaves.ofDict leaves' = Leaves.ofDict leaves := by
  have hl : ∀ path, m.leaf kind inst path = leaves.get? path := by
    intro path
    simp [Devices.leaf, hs]
  obtain ⟨p, v, hv⟩ := Dict.exists_get?_of_isEmpty (hm kind inst leaves hs)
  have hp : m'.leaf kind inst p = some v := by rw [← h, hl, hv]
  obtain ⟨leaves', hs', -⟩ := Option.bind_eq_some_iff.mp hp
  refine ⟨leaves', hs', ?_⟩
  have hget : leaves'.get? = leaves.get? := by
    funext path
    rw [← hl, h]
    simp [Devices.leaf, hs']
  unfold Leaves.ofDict
  rw [hget, hm kind inst leaves hs, hm' kind inst leaves' hs']

/-- Two stores with the same leaves of a kind hold the same services. -/
theorem perm_services {m m' : Devices} (hm : m.Populated) (hm' : m'.Populated) (kind : Kind)
    (h : ∀ inst path, m.leaf kind inst path = m'.leaf kind inst path) :
    ((m.services kind).entries.map fun e => (e.1, Leaves.ofDict e.2)).Perm
      ((m'.services kind).entries.map fun e => (e.1, Leaves.ofDict e.2)) := by
  have hnodup : ∀ d : Dict Str (Dict Str Value),
      (d.entries.map fun e => (e.1, Leaves.ofDict e.2)).Nodup := by
    intro d
    refine List.Nodup.of_map Prod.fst ?_
    rw [List.map_map]
    exact d.nodup
  have hsub : ∀ {a b : Devices}, a.Populated → b.Populated →
      (∀ inst path, a.leaf kind inst path = b.leaf kind inst path) →
      ∀ x ∈ (a.services kind).entries.map fun e => (e.1, Leaves.ofDict e.2),
        x ∈ (b.services kind).entries.map fun e => (e.1, Leaves.ofDict e.2) := by
    intro a b ha hb hab x hx
    obtain ⟨⟨inst, leaves⟩, he, rfl⟩ := List.mem_map.mp hx
    obtain ⟨leaves', hs', heq⟩ := service_congr ha hb hab (Dict.mem_entries.mp he)
    exact List.mem_map.mpr ⟨(inst, leaves'), Dict.mem_entries.mpr hs', by rw [heq]⟩
  rw [List.perm_ext_iff_of_nodup (hnodup _) (hnodup _)]
  intro x
  exact ⟨hsub hm hm' h x, hsub hm' hm (fun inst path => (h inst path).symm) x⟩

/-- Rows are their services with the sort key put back in front. -/
theorem rows_eq {rows : List Row} (h : ∀ r ∈ rows, sortKey r.2.1 = some r.1) :
    rows = (rows.map Prod.snd).map fun e => ((sortKey e.1).getD (.num 0), e) := by
  induction rows with
  | nil => rfl
  | cons r rows ih =>
    rw [List.map_cons, List.map_cons, ← ih fun x hx => h x (List.mem_cons_of_mem _ hx),
      h r List.mem_cons_self]
    rfl

/-- Rows with canonical ids sort in one way only. -/
theorem insertionSort_congr {rows rows' : List Row} (hp : rows.Perm rows')
    (hid : (rows.map fun r => r.2.1).Nodup)
    (hkey : ∀ r ∈ rows, CanonicalDecimal r.2.1 ∧ sortKey r.2.1 = some r.1) :
    rows.insertionSort byKey = rows'.insertionSort byKey := by
  have hperm := ((List.perm_insertionSort byKey rows).trans hp).trans
    (List.perm_insertionSort byKey rows').symm
  refine hperm.eq_of_pairwise ?_ (List.pairwise_insertionSort _ _)
    (List.pairwise_insertionSort _ _)
  intro a b ha hb hab hba
  have ha' := (List.mem_insertionSort byKey).mp ha
  have hb' := hp.mem_iff.mpr ((List.mem_insertionSort byKey).mp hb)
  obtain ⟨ca, ka⟩ := hkey a ha'
  obtain ⟨cb, kb⟩ := hkey b hb'
  obtain ⟨n, hn, hna⟩ := sortKey_canonical ca
  obtain ⟨k, hk, hkb⟩ := sortKey_canonical cb
  have ea : a.1 = .num n := Option.some.inj (ka.symm.trans hna)
  have eb : b.1 = .num k := Option.some.inj (kb.symm.trans hkb)
  unfold byKey at hab hba
  rw [ea, eb] at hab hba
  have hnk : n = k := Nat.le_antisymm (by simpa [SortKey.le] using hab)
    (by simpa [SortKey.le] using hba)
  have hinst : a.2.1 = b.2.1 := ca.eq_of_int_eq cb (by rw [hn, hk, hnk])
  exact List.inj_on_of_nodup_map hid ha' hb' hinst

/-- The services listed are determined by the leaves. -/
theorem devices_congr {m m' : Devices} (hm : m.Populated) (hm' : m'.Populated)
    (hids : m.Ids CanonicalDecimal) (hids' : m'.Ids CanonicalDecimal) (kind : Kind)
    (h : ∀ inst path, m.leaf kind inst path = m'.leaf kind inst path) :
    devices m kind = devices m' kind := by
  have hcan : ∀ {x : Devices}, x.Ids CanonicalDecimal →
      ∀ e ∈ (x.services kind).entries, CanonicalDecimal e.1 := by
    intro x hx e he
    exact hx kind e.1 (by rw [Dict.mem_entries.mp he]; rfl)
  obtain ⟨rows, hrows⟩ := keyed_isSome _ (hcan hids)
  obtain ⟨rows', hrows'⟩ := keyed_isSome _ (hcan hids')
  obtain ⟨hmap, hkeys⟩ := keyed_mapM hrows
  obtain ⟨hmap', hkeys'⟩ := keyed_mapM hrows'
  have hperm : rows.Perm rows' := by
    rw [rows_eq hkeys, rows_eq hkeys', hmap, hmap']
    exact (perm_services hm hm' kind h).map _
  have hsort : rows.insertionSort byKey = rows'.insertionSort byKey := by
    refine insertionSort_congr hperm ?_ ?_
    · have : (rows.map fun r => r.2.1) = (m.services kind).keys := by
        rw [show (fun r : Row => r.2.1) = Prod.fst ∘ Prod.snd from rfl, ← List.map_map, hmap,
          List.map_map]
        rfl
      rw [this]
      exact Dict.nodup_keys _
    · intro r hr
      refine ⟨?_, hkeys r hr⟩
      have hmem : r.2 ∈ rows.map Prod.snd := List.mem_map_of_mem hr
      rw [hmap] at hmem
      obtain ⟨e, he, hre⟩ := List.mem_map.mp hmem
      rw [← hre]
      exact hcan hids e he
  unfold devices keyed
  rw [hrows, hrows', Option.map_some, Option.map_some, hsort]

theorem devices_isSome {m : Devices} (hids : m.Ids CanonicalDecimal) (kind : Kind) :
    ∃ l, devices m kind = some l := by
  obtain ⟨rows, hrows⟩ := keyed_isSome (m.services kind).entries fun e he =>
    hids kind e.1 (by rw [Dict.mem_entries.mp he]; rfl)
  unfold devices keyed
  rw [hrows]
  exact ⟨_, rfl⟩

end InverterDashboard.Cerbo
