import InverterDashboard.Server.Operations

/-
  The abstract store of a run: `LeafMap`, the last accepted value of each leaf.

  `surviving` replays a history on leaf maps: an accepted message replaces a leaf, an empty
  payload drops a service, and a snapshot or a clear replaces everything. `Stores` ties the
  reducer's nested dicts to a leaf map, and `Lists` a snapshot to one.
-/

namespace InverterDashboard.Server

open Python Cerbo Controller Temporal

/-! ## The surviving leaves -/

/-- The last accepted value of each leaf. -/
abbrev LeafMap := Kind → Str → Str → Option Value

namespace LeafMap

def empty : LeafMap := fun _ _ _ => none

def put (l : LeafMap) (x : Leaf) : LeafMap := fun k i p =>
  if k = x.kind ∧ i = x.inst ∧ p = x.path then some x.value else l k i p

def drop (l : LeafMap) (kind : Kind) (inst : Str) : LeafMap := fun k i p =>
  if k = kind ∧ i = inst then none else l k i p

/-- Every leaf of a snapshot, and no other. -/
def ofSnapshot (snapshot : Object) : LeafMap := (snapshotLeaves snapshot).foldl put empty

/-- A message on a leaf replaces it when it is accepted; an empty payload drops the service. -/
def message (l : LeafMap) (kind : Kind) (inst path : Str) (payload : Payload) : LeafMap :=
  match payload with
  | .empty => l.drop kind inst
  | payload => match leafValue? kind path payload with
    | some value => l.put ⟨kind, inst, path, value⟩
    | none => l

theorem message_accepted (l : LeafMap) {kind : Kind} (inst : Str) {path : Str}
    {payload : Payload} {v : Value} (hv : leafValue? kind path payload = some v) :
    l.message kind inst path payload = l.put ⟨kind, inst, path, v⟩ := by
  cases payload with
  | empty => cases hv
  | malformed => cases hv
  | json data => simp only [message, hv]

theorem message_rejected (l : LeafMap) {kind : Kind} (inst : Str) {path : Str} {data : Value}
    (hv : leafValue? kind path (.json data) = none) :
    l.message kind inst path (.json data) = l := by
  simp only [message, hv]

/-- The leaves after a message, whether or not it addresses this source. -/
def received (l : LeafMap) (payload : Payload) : Option (Kind × Str × Str) → LeafMap
  | some (kind, inst, path) => l.message kind inst path payload
  | none => l

end LeafMap

/-- The leaf a native message addresses, when it is from the selected portal. -/
def addressed (s : MqttState) (topic : Str) (payload : Payload) : Option (Kind × Str × Str) :=
  let selected := nativeTopicSelected topic payload s
  if selected.2 then nativeTopic selected.1.portalId topic else none

/-- The leaves that survive one more operation. -/
def survive (cfg : Config) (l : LeafMap) (x : MqttState × Event) : LeafMap :=
  match x.2.op with
  | .native topic payload _ =>
    l.received payload (addressed x.1 topic payload)
  | .snapshot snapshot => .ofSnapshot snapshot
  | .clearNative => .empty
  | .gateway snapshot =>
    -- A controller object that raises ends the call before the snapshot is applied.
    if (applySnapshotController cfg x.2.clock snapshot x.1).result.isSome then .ofSnapshot snapshot
    else l
  | _ => l

def surviving (cfg : Config) (s : MqttState) (es : List Event) : LeafMap :=
  (trace (step cfg) s es).foldl (survive cfg) LeafMap.empty

/-- The instance ids of an operation are canonical decimals. -/
def CanonicalIds (x : MqttState × Event) : Prop :=
  match x.2.op with
  | .native topic payload _ => ∀ a ∈ addressed x.1 topic payload, CanonicalDecimal a.2.1
  | .snapshot snapshot => ∀ l ∈ snapshotLeaves snapshot, CanonicalDecimal l.inst
  | .gateway snapshot => ∀ l ∈ snapshotLeaves snapshot, CanonicalDecimal l.inst
  | _ => True

/-! ## Stores of leaves -/

theorem populated_store {m : Devices} (h : m.Populated) (kind : Kind) (inst path : Str)
    (value : Value) : (m.store kind inst path value).Populated := by
  intro k i leaves hs
  rw [Devices.services_store] at hs
  split at hs
  · next hk =>
    subst hk
    rw [Dict.get?_set] at hs
    split at hs
    · rw [← Option.some.inj hs]
      exact Dict.isEmpty_set _ _ _
    · exact h _ _ _ hs
  · exact h _ _ _ hs

theorem populated_remove {m m' : Devices} (h : m.Populated) {kind : Kind} {inst : Str}
    (hr : m.remove kind inst = some m') : m'.Populated := by
  intro k i leaves hs
  rw [Devices.services_remove hr] at hs
  split at hs
  · next hk =>
    subst hk
    rw [Dict.get?_erase] at hs
    split at hs
    · cases hs
    · exact h _ _ _ hs
  · exact h _ _ _ hs

theorem ids_store {P : Str → Prop} {m : Devices} (h : m.Ids P) (kind : Kind) {inst : Str}
    (path : Str) (value : Value) (hi : P inst) : (m.store kind inst path value).Ids P := by
  intro k i hs
  rw [Devices.services_store] at hs
  split at hs
  · next hk =>
    subst hk
    rw [Dict.get?_set] at hs
    split at hs
    · next he => exact he ▸ hi
    · exact h _ _ hs
  · exact h _ _ hs

theorem ids_remove {P : Str → Prop} {m m' : Devices} (h : m.Ids P) {kind : Kind} {inst : Str}
    (hr : m.remove kind inst = some m') : m'.Ids P := by
  intro k i hs
  rw [Devices.services_remove hr] at hs
  split at hs
  · next hk =>
    subst hk
    rw [Dict.get?_erase] at hs
    split at hs
    · cases hs
    · exact h _ _ hs
  · exact h _ _ hs

/-- The store of a reducer, as the leaf map it stands for. -/
structure Stores (m : Devices) (l : LeafMap) : Prop where
  leaf : ∀ kind inst path, m.leaf kind inst path = l kind inst path
  populated : m.Populated
  ids : m.Ids CanonicalDecimal

/-- Storing leaves changes the leaves as `put` changes a leaf map. -/
theorem leaf_foldl_storeLeaf {m : Devices} {l : LeafMap}
    (h : ∀ kind inst path, m.leaf kind inst path = l kind inst path) (xs : List Leaf) :
    ∀ kind inst path,
      (xs.foldl storeLeaf m).leaf kind inst path = (xs.foldl LeafMap.put l) kind inst path := by
  induction xs generalizing m l with
  | nil => exact h
  | cons x xs ih =>
    refine ih fun kind inst path => ?_
    unfold storeLeaf LeafMap.put
    rw [Devices.leaf_store, h]

namespace Stores

theorem empty : Stores Dict.empty .empty where
  leaf := fun _ _ _ => rfl
  populated := fun _ _ _ h => nomatch h
  ids := fun _ _ h => nomatch h

theorem put {m : Devices} {l : LeafMap} (h : Stores m l) {x : Leaf}
    (hx : CanonicalDecimal x.inst) : Stores (storeLeaf m x) (l.put x) where
  leaf := by
    intro kind inst path
    unfold storeLeaf LeafMap.put
    rw [Devices.leaf_store, h.leaf]
  populated := populated_store h.populated _ _ _ _
  ids := ids_store h.ids _ _ _ hx

theorem drop {m m' : Devices} {l : LeafMap} (h : Stores m l) {kind : Kind} {inst : Str}
    (hr : m.remove kind inst = some m') : Stores m' (l.drop kind inst) where
  leaf := by
    intro k i p
    unfold LeafMap.drop
    rw [Devices.leaf_remove hr, h.leaf]
  populated := populated_remove h.populated hr
  ids := ids_remove h.ids hr

/-- Removing a service that is not stored drops nothing. -/
theorem drop_absent {m : Devices} {l : LeafMap} (h : Stores m l) {kind : Kind} {inst : Str}
    (hr : m.remove kind inst = none) : Stores m (l.drop kind inst) := by
  refine ⟨?_, h.populated, h.ids⟩
  intro k i p
  unfold LeafMap.drop
  split
  · next hk =>
    obtain ⟨rfl, rfl⟩ := hk
    unfold Devices.leaf
    rw [Devices.remove_eq_none hr]
    rfl
  · exact h.leaf k i p

theorem foldl {m : Devices} {l : LeafMap} (h : Stores m l) {xs : List Leaf}
    (hxs : ∀ x ∈ xs, CanonicalDecimal x.inst) :
    Stores (xs.foldl storeLeaf m) (xs.foldl LeafMap.put l) := by
  induction xs generalizing m l with
  | nil => exact h
  | cons x xs ih =>
    exact ih (h.put (hxs x List.mem_cons_self)) fun y hy => hxs y (List.mem_cons_of_mem _ hy)

theorem devices_isSome {m : Devices} {l : LeafMap} (h : Stores m l) (kind : Kind) :
    ∃ d, devices m kind = some d := Cerbo.devices_isSome h.ids kind

/-- Stores of the same leaves list the same services. -/
theorem devices_congr {m m' : Devices} {l : LeafMap} (h : Stores m l) (h' : Stores m' l) :
    devices m = devices m' := by
  funext kind
  refine Cerbo.devices_congr h.populated h'.populated h.ids h'.ids kind ?_
  intro inst path
  rw [h.leaf, h'.leaf]

end Stores

/-- A kind that was never stored lists no service. -/
theorem covers_seen (s : MqttState) : s.seen.Covers (devices s.cerboDevices) := by
  intro kind hk
  have hnone : s.cerboDevices.get? kind = none := by
    simpa [MqttState.seen, Dict.has] using hk
  unfold devices Devices.services
  rw [hnone]
  rfl

/-! ## Snapshots of a leaf map -/

/-- The snapshot lists exactly the leaves of the map. -/
def Lists (snapshot : Object) (l : LeafMap) : Prop :=
  ∀ kind key value, (key, value) ∈ ((snapshot.getD kind.name).dict?).getD [] ↔
    ∃ inst path, key = inst ++ slash :: path ∧ l kind inst path = some value

theorem snapshotLeaf_eq_some {kind : Kind} {key inst path : Str} {value : Value} :
    snapshotLeaf kind key value = some (inst, path) ↔
      (key = inst ++ slash :: path ∧ slash ∉ inst) ∧ inst ≠ [] ∧ path ≠ [] ∧
        validPathValue path value = true ∧ knownPath kind path = true := by
  constructor
  · intro h
    unfold snapshotLeaf at h
    split at h
    · cases h
    · next a b hcut =>
      split at h
      · cases h
      · next hok =>
        obtain ⟨rfl, rfl⟩ := Prod.mk.inj (Option.some.inj h)
        refine ⟨Str.cutSlash_eq_some hcut, ?_⟩
        simpa [and_assoc] using hok
  · rintro ⟨⟨rfl, hslash⟩, hinst, hpath, hvalid, hknown⟩
    unfold snapshotLeaf
    rw [Str.cutSlash_append inst path hslash]
    simp [hinst, hpath, hvalid, hknown]

theorem mem_snapshotLeaves {snapshot : Object} {x : Leaf} :
    x ∈ snapshotLeaves snapshot ↔ ∃ key, (key, x.value) ∈
      ((snapshot.getD x.kind.name).dict?).getD [] ∧
        snapshotLeaf x.kind key x.value = some (x.inst, x.path) := by
  obtain ⟨kind, inst, path, value⟩ := x
  unfold snapshotLeaves
  rw [List.mem_flatMap]
  constructor
  · rintro ⟨k, -, hx⟩
    obtain ⟨⟨key, v⟩, he, hmap⟩ := List.mem_filterMap.mp hx
    obtain ⟨⟨i, p⟩, hleaf, heq⟩ := Option.map_eq_some_iff.mp hmap
    obtain ⟨rfl, rfl, rfl, rfl⟩ := Leaf.mk.inj heq
    exact ⟨key, he, hleaf⟩
  · rintro ⟨key, he, hleaf⟩
    refine ⟨kind, Kind.mem_cerboKinds kind, List.mem_filterMap.mpr ⟨(key, value), he, ?_⟩⟩
    rw [hleaf]
    rfl

namespace LeafMap

/-- Every leaf passes the filters both transports apply. -/
def Accepted (l : LeafMap) : Prop :=
  ∀ kind inst path value, l kind inst path = some value →
    CanonicalDecimal inst ∧ path ≠ [] ∧ validPathValue path value = true ∧
      knownPath kind path = true

theorem Accepted.put {l : LeafMap} (h : l.Accepted) {x : Leaf} (hi : CanonicalDecimal x.inst)
    (hp : x.path ≠ []) (hv : validPathValue x.path x.value = true)
    (hk : knownPath x.kind x.path = true) : (l.put x).Accepted := by
  intro kind inst path value hx
  unfold LeafMap.put at hx
  split at hx
  · next he =>
    obtain ⟨rfl, rfl, rfl⟩ := he
    rw [← Option.some.inj hx]
    exact ⟨hi, hp, hv, hk⟩
  · exact h _ _ _ _ hx

theorem Accepted.foldl {l : LeafMap} (h : l.Accepted) {xs : List Leaf}
    (hxs : ∀ x ∈ xs, CanonicalDecimal x.inst ∧ x.path ≠ [] ∧
      validPathValue x.path x.value = true ∧ knownPath x.kind x.path = true) :
    (xs.foldl LeafMap.put l).Accepted := by
  induction xs generalizing l with
  | nil => exact h
  | cons x xs ih =>
    obtain ⟨hi, hp, hv, hk⟩ := hxs x List.mem_cons_self
    exact ih (h.put hi hp hv hk) fun y hy => hxs y (List.mem_cons_of_mem _ hy)

theorem Accepted.ofSnapshot {snapshot : Object}
    (hids : ∀ x ∈ snapshotLeaves snapshot, CanonicalDecimal x.inst) :
    (LeafMap.ofSnapshot snapshot).Accepted := by
  refine Accepted.foldl (fun _ _ _ _ h => by cases h) ?_
  intro x hx
  obtain ⟨key, -, hleaf⟩ := mem_snapshotLeaves.mp hx
  exact ⟨hids x hx, (snapshotLeaf_eq_some.mp hleaf).2.2⟩

theorem Accepted.drop {l : LeafMap} (h : l.Accepted) (kind : Kind) (inst : Str) :
    (l.drop kind inst).Accepted := by
  intro k i p v hx
  unfold LeafMap.drop at hx
  split at hx
  · cases hx
  · exact h _ _ _ _ hx

theorem leafValue?_eq_some {kind : Kind} {path : Str} {payload : Payload} {v : Value}
    (h : leafValue? kind path payload = some v) :
    path ≠ [] ∧ validPathValue path v = true ∧ knownPath kind path = true := by
  unfold leafValue? at h
  split at h
  · split at h
    · cases h
    · next hp =>
      split at h
      · split at h
        · next hok =>
          obtain rfl := Option.some.inj h
          rw [Bool.and_eq_true] at hok
          exact ⟨by simpa using hp, hok⟩
        · cases h
      · cases h
  · cases h

theorem Accepted.received {l : LeafMap} (h : l.Accepted) {payload : Payload}
    {a : Option (Kind × Str × Str)} (hids : ∀ x ∈ a, CanonicalDecimal x.2.1) :
    (l.received payload a).Accepted := by
  cases a with
  | none => exact h
  | some a =>
    obtain ⟨kind, inst, path⟩ := a
    have hi : CanonicalDecimal inst := hids _ rfl
    show (l.message kind inst path payload).Accepted
    cases hv : leafValue? kind path payload with
    | some v =>
      rw [l.message_accepted inst hv]
      obtain ⟨hp, hvalid, hknown⟩ := leafValue?_eq_some hv
      exact h.put hi hp hvalid hknown
    | none =>
      cases payload with
      | empty => exact h.drop kind inst
      | malformed => exact h
      | json data =>
        rw [l.message_rejected inst hv]
        exact h

end LeafMap

theorem accepted_survive {cfg : Config} {l : LeafMap} (h : l.Accepted) {x : MqttState × Event}
    (hids : CanonicalIds x) : (survive cfg l x).Accepted := by
  obtain ⟨s, clock, op⟩ := x
  cases op with
  | native topic payload retained => exact h.received hids
  | snapshot snapshot => exact .ofSnapshot hids
  | clearNative => exact fun _ _ _ _ h => nomatch h
  | gateway snapshot =>
    unfold survive
    dsimp only
    split
    · exact .ofSnapshot hids
    · exact h
  | controller | controllerGone | override | readController | portal => exact h

theorem accepted_surviving (cfg : Config) (s : MqttState) (es : List Event)
    (hids : ∀ x ∈ trace (step cfg) s es, CanonicalIds x) : (surviving cfg s es).Accepted := by
  unfold surviving
  generalize trace (step cfg) s es = xs at hids
  have h0 : LeafMap.Accepted .empty := fun _ _ _ _ h => nomatch h
  generalize LeafMap.empty = l at h0
  induction xs generalizing l with
  | nil => exact h0
  | cons x xs ih =>
    exact ih (fun y hy => hids y (List.mem_cons_of_mem _ hy)) _
      (accepted_survive h0 (hids x List.mem_cons_self))

theorem slash_notMem {inst : Str} (h : CanonicalDecimal inst) : slash ∉ inst := by
  intro hm
  have hdigits := h.isdigit
  unfold Str.isdigit at hdigits
  rw [Bool.and_eq_true, List.all_eq_true] at hdigits
  have := hdigits.2 slash hm
  exact absurd this (by decide)

/-- Folding leaves into a map leaves at each address the value all its leaves agree on. -/
theorem foldl_put {l : LeafMap} {xs : List Leaf} {kind : Kind} {inst path : Str}
    {value : Option Value}
    (hxs : ∀ x ∈ xs, kind = x.kind ∧ inst = x.inst ∧ path = x.path → some x.value = value)
    (hsome : l kind inst path = value ∨
      ∃ x ∈ xs, kind = x.kind ∧ inst = x.inst ∧ path = x.path) :
    (xs.foldl LeafMap.put l) kind inst path = value := by
  induction xs generalizing l with
  | nil =>
    rcases hsome with h | ⟨x, hx, -⟩
    · exact h
    · cases hx
  | cons x xs ih =>
    refine ih (fun y hy => hxs y (List.mem_cons_of_mem _ hy)) ?_
    unfold LeafMap.put
    split
    · next hx => exact Or.inl (hxs x List.mem_cons_self hx)
    · next hx =>
      rcases hsome with h | ⟨y, hy, hat⟩
      · exact Or.inl h
      · rcases List.mem_cons.mp hy with rfl | hy
        · exact absurd hat hx
        · exact Or.inr ⟨y, hy, hat⟩

/-- Reading a snapshot back gives the leaves it lists. -/
theorem ofSnapshot_of_lists {snapshot : Object} {l : LeafMap} (hl : l.Accepted)
    (h : Lists snapshot l) : LeafMap.ofSnapshot snapshot = l := by
  funext kind inst path
  have hvalue : ∀ x ∈ snapshotLeaves snapshot, l x.kind x.inst x.path = some x.value := by
    intro x hx
    obtain ⟨key, hmem, hleaf⟩ := mem_snapshotLeaves.mp hx
    obtain ⟨i, p, hkey, hlp⟩ := (h x.kind key x.value).mp hmem
    obtain ⟨⟨hkey', hslash⟩, -⟩ := snapshotLeaf_eq_some.mp hleaf
    have hcut := Str.cutSlash_append i p (slash_notMem (hl _ _ _ _ hlp).1)
    rw [← hkey, hkey', Str.cutSlash_append _ _ hslash] at hcut
    obtain ⟨rfl, rfl⟩ := Prod.mk.inj (Option.some.inj hcut)
    exact hlp
  refine foldl_put ?_ ?_
  · rintro x hx ⟨rfl, rfl, rfl⟩
    exact (hvalue x hx).symm
  · cases hv : l kind inst path with
    | none => exact Or.inl rfl
    | some v =>
      obtain ⟨hi, hp, hvalid, hknown⟩ := hl _ _ _ _ hv
      refine Or.inr ⟨⟨kind, inst, path, v⟩, mem_snapshotLeaves.mpr ⟨inst ++ slash :: path, ?_, ?_⟩,
        rfl, rfl, rfl⟩
      · exact (h kind _ v).mpr ⟨inst, path, rfl, hv⟩
      · exact snapshotLeaf_eq_some.mpr ⟨⟨rfl, slash_notMem hi⟩, hi.ne_nil, hp, hvalid, hknown⟩

/-- The ids of a snapshot that lists accepted leaves are canonical. -/
theorem canonical_of_lists {snapshot : Object} {l : LeafMap} (hl : l.Accepted)
    (h : Lists snapshot l) : ∀ x ∈ snapshotLeaves snapshot, CanonicalDecimal x.inst := by
  intro x hx
  obtain ⟨key, hmem, hleaf⟩ := mem_snapshotLeaves.mp hx
  obtain ⟨i, p, hkey, hlp⟩ := (h x.kind key x.value).mp hmem
  obtain ⟨⟨hkey', hslash⟩, -⟩ := snapshotLeaf_eq_some.mp hleaf
  have hi := (hl _ _ _ _ hlp).1
  have hcut := Str.cutSlash_append i p (slash_notMem hi)
  rw [← hkey, hkey', Str.cutSlash_append _ _ hslash] at hcut
  exact (Prod.mk.inj (Option.some.inj hcut)).1 ▸ hi

/-- The leaves of one kind, as members of a snapshot. -/
def members (services : Dict Str (Dict Str Value)) : List (Str × Value) :=
  services.entries.flatMap fun s => s.2.entries.map fun e => (s.1 ++ slash :: e.1, e.2)

/-- A store written out as a snapshot. -/
def snapshotOf (m : Devices) : Object :=
  Dict.empty.setAll (cerboKinds.map Kind.name) fun name =>
    match Kind.ofName? name with
    | some kind => .dict (members (m.services kind))
    | none => .none

theorem lists_snapshotOf {m : Devices} {l : LeafMap} (h : Stores m l) : Lists (snapshotOf m) l := by
  intro kind key value
  have hget : (snapshotOf m).getD kind.name = .dict (members (m.services kind)) := by
    unfold snapshotOf Object.getD
    rw [Dict.get?_setAll, if_pos (List.mem_map_of_mem (Kind.mem_cerboKinds kind)),
      Kind.ofName?_eq_some.mpr rfl]
    rfl
  rw [hget]
  show (key, value) ∈ members (m.services kind) ↔ _
  unfold members
  constructor
  · intro hm
    obtain ⟨⟨inst, leaves⟩, hs, hm⟩ := List.mem_flatMap.mp hm
    obtain ⟨⟨path, v⟩, he, heq⟩ := List.mem_map.mp hm
    obtain ⟨rfl, rfl⟩ := Prod.mk.inj heq
    refine ⟨inst, path, rfl, ?_⟩
    rw [← h.leaf]
    unfold Devices.leaf
    rw [Dict.mem_entries.mp hs]
    exact Dict.mem_entries.mp he
  · rintro ⟨inst, path, rfl, hv⟩
    rw [← h.leaf] at hv
    obtain ⟨leaves, hs, he⟩ := Option.bind_eq_some_iff.mp hv
    exact List.mem_flatMap.mpr ⟨(inst, leaves), Dict.mem_entries.mpr hs,
      List.mem_map.mpr ⟨(path, value), Dict.mem_entries.mpr he, rfl⟩⟩

end InverterDashboard.Server
