import InverterDashboard.Server.Reduction

/-
  Which accepted leaves a refresh survives.

  A leaf is stored before it is projected, and ordering the services of a kind raises on an
  instance id that `isdigit` accepts and `int` does not. `Orderable` is what ids must satisfy:
  the refresh of a store completes exactly when all its ids are orderable
  (`overlay_isSome_iff`), and a run never raises in a refresh exactly when every id it accepts
  is orderable.
-/

namespace InverterDashboard.Server

open Python Cerbo Controller Temporal

/-! ## Ids that can be ordered -/

/-- `int` accepts the id whenever `isdigit` does. -/
def Orderable (inst : Str) : Prop := inst.isdigit = true → (intOfDigits inst).isSome = true

theorem sortKey_isSome_iff (inst : Str) : (sortKey inst).isSome = true ↔ Orderable inst := by
  unfold sortKey Orderable
  split
  · next h => simp [h]
  · next h => simp [h]

theorem mapM_isSome_iff {α β : Type} (f : α → Option β) (l : List α) :
    (l.mapM f).isSome = true ↔ ∀ a ∈ l, (f a).isSome = true := by
  induction l with
  | nil => simp
  | cons a l ih =>
    rw [List.mapM_cons, List.forall_mem_cons, ← ih]
    cases f a with
    | none => simp
    | some b => cases l.mapM f <;> simp

/-- Services are listed exactly when each of them can be ordered, connected or not. -/
theorem devices_isSome_iff (m : Devices) (kind : Kind) :
    (devices m kind).isSome = true ↔
      ∀ inst, ((m.services kind).get? inst).isSome = true → Orderable inst := by
  unfold devices keyed
  rw [Option.isSome_map, mapM_isSome_iff]
  constructor
  · intro h inst hi
    obtain ⟨e, he, rfl⟩ := List.mem_map.mp (Dict.mem_keys.mpr hi)
    have := h e he
    rw [Option.isSome_map] at this
    exact (sortKey_isSome_iff _).mp this
  · intro h e he
    rw [Option.isSome_map]
    exact (sortKey_isSome_iff _).mpr (h e.1 (by rw [Dict.mem_entries.mp he]; rfl))

/-- A store can be listed exactly when its ids can be ordered. -/
theorem listed_iff (m : Devices) : Listed m ↔ m.Ids Orderable := by
  constructor
  · intro h kind inst hi
    exact (devices_isSome_iff m kind).mp (Option.isSome_iff_exists.mpr (h kind)) inst hi
  · intro h kind
    exact Option.isSome_iff_exists.mp ((devices_isSome_iff m kind).mpr (h kind))

/-- The overlay lists the services of every kind. -/
theorem devices_of_overlay {cfg : Config} {seen : Seen} {listing : Kind → Option Listing}
    {o : Object} (h : overlay cfg seen listing = some o) (kind : Kind) :
    (listing kind).isSome = true := by
  obtain ⟨systems, hsystems, h⟩ := Option.bind_eq_some_iff.mp h
  obtain ⟨vebuses, hvebuses, h⟩ := Option.bind_eq_some_iff.mp h
  obtain ⟨meters, hmeters, h⟩ := Option.bind_eq_some_iff.mp h
  obtain ⟨batteries, hbatteries, h⟩ := Option.bind_eq_some_iff.mp h
  obtain ⟨solar, hsolar, h⟩ := Option.bind_eq_some_iff.mp h
  obtain ⟨inverters, hinverters, h⟩ := Option.bind_eq_some_iff.mp h
  obtain ⟨acloads, hacloads, h⟩ := Option.bind_eq_some_iff.mp h
  obtain ⟨tanks, htanks, h⟩ := Option.bind_eq_some_iff.mp h
  obtain ⟨evs, hevs, h⟩ := Option.bind_eq_some_iff.mp h
  obtain ⟨evchargers, hevchargers, h⟩ := Option.bind_eq_some_iff.mp h
  obtain ⟨pumps, hpumps, h⟩ := Option.bind_eq_some_iff.mp h
  obtain ⟨out, -, h⟩ := Option.bind_eq_some_iff.mp h
  obtain ⟨settings, hsettings, -⟩ := Option.bind_eq_some_iff.mp h
  cases kind <;> simp [*]

theorem overlay_isSome_iff (cfg : Config) (seen : Seen) (m : Devices) :
    (overlay cfg seen (devices m)).isSome = true ↔ m.Ids Orderable := by
  constructor
  · intro h kind inst hi
    obtain ⟨o, ho⟩ := Option.isSome_iff_exists.mp h
    exact (devices_isSome_iff m kind).mp (devices_of_overlay ho kind) inst hi
  · intro h
    exact Option.isSome_iff_exists.mpr (overlay_isSome cfg seen ((listed_iff m).mpr h))

/-! ## Stores that hold an id -/

theorem ids_foldl {P : Str → Prop} {leaves : List Leaf} {m : Devices} (h : m.Ids P)
    (hp : ∀ l ∈ leaves, P l.inst) : (leaves.foldl storeLeaf m).Ids P := by
  induction leaves generalizing m with
  | nil => exact h
  | cons l leaves ih =>
    exact ih (ids_store h l.kind l.path l.value (hp l List.mem_cons_self))
      fun x hx => hp x (List.mem_cons_of_mem _ hx)

theorem ids_empty (P : Str → Prop) : Devices.Ids P Dict.empty := by
  intro kind inst h
  cases h

/-- A stored leaf puts its id into the store. -/
theorem of_ids_store {P : Str → Prop} {m : Devices} {kind : Kind} {inst path : Str}
    {value : Value} (h : (m.store kind inst path value).Ids P) : m.Ids P ∧ P inst := by
  refine ⟨?_, h kind inst ?_⟩
  · intro k i hi
    refine h k i ?_
    rw [Devices.services_store]
    split
    · next hk =>
      subst hk
      rw [Dict.get?_set]
      split
      · rfl
      · exact hi
    · exact hi
  · rw [Devices.services_store, if_pos rfl, Dict.get?_set, if_pos rfl]
    rfl

theorem of_ids_foldl {P : Str → Prop} {leaves : List Leaf} {m : Devices}
    (h : (leaves.foldl storeLeaf m).Ids P) : m.Ids P ∧ ∀ l ∈ leaves, P l.inst := by
  induction leaves generalizing m with
  | nil => exact ⟨h, by simp⟩
  | cons l leaves ih =>
    obtain ⟨hm, hrest⟩ := ih h
    obtain ⟨hm, hl⟩ := of_ids_store hm
    refine ⟨hm, ?_⟩
    intro x hx
    rcases List.mem_cons.mp hx with rfl | hx
    · exact hl
    · exact hrest x hx

/-! ## Refreshes -/

/-- The shown state holds every reading of the overlay of the store. -/
def Projected (cfg : Config) (s : MqttState) : Prop :=
  ∃ seen o, overlay cfg seen (devices s.cerboDevices) = some o ∧
    ∀ k v, o.get? k = some v → s.currentState.get? k = some v

theorem projected_show {cfg : Config} {s : MqttState} {o : Object}
    (h : overlay cfg s.seen (devices s.cerboDevices) = some o) : Projected cfg (s.show o) := by
  refine ⟨s.seen, o, h, ?_⟩
  intro k v hk
  have hkeys : k ∈ o.keys := Dict.mem_keys.mpr (by rw [hk]; rfl)
  rw [show_currentState s o (ne_telemetry (overlay_owned h k hkeys)),
    if_pos (mem_unionKeys.mpr (Or.inr hkeys)), hk]
  rfl

theorem apply_isSome_iff (cfg : Config) (s : MqttState) :
    (applyCerboOverlays cfg s).result.isSome = true ↔ s.cerboDevices.Ids Orderable := by
  rw [← overlay_isSome_iff cfg s.seen]
  unfold applyCerboOverlays
  split
  · next o ho => simp [ho, Call.done]
  · next ho => simp [ho]

theorem projected_apply {cfg : Config} {s : MqttState} (h : s.cerboDevices.Ids Orderable) :
    Projected cfg (applyCerboOverlays cfg s).state := by
  obtain ⟨o, ho⟩ := Option.isSome_iff_exists.mp ((overlay_isSome_iff cfg s.seen _).mpr h)
  unfold applyCerboOverlays
  rw [ho]
  exact projected_show ho

theorem refresh_isSome_iff (cfg : Config) (clock : Clock) (s : MqttState) :
    (refreshNativeMqttState cfg clock s).result.isSome = true ↔ s.cerboDevices.Ids Orderable := by
  rw [show s.cerboDevices = (noteNativeObservation (Str.lit "mqtt") clock s).cerboDevices from rfl,
    ← apply_isSome_iff cfg]
  unfold refreshNativeMqttState Call.andThen
  dsimp only
  split
  · next h =>
    rw [h]
    split <;> simp
  · next h => simp [h]

theorem projected_refresh {cfg : Config} (clock : Clock) {s : MqttState}
    (h : s.cerboDevices.Ids Orderable) :
    Projected cfg (refreshNativeMqttState cfg clock s).state := by
  have happly : Projected cfg (applyCerboOverlays cfg
      (noteNativeObservation (Str.lit "mqtt") clock s)).state := projected_apply h
  refine Call.andThen_state (P := Projected cfg) happly fun _ => ?_
  dsimp only
  split
  · exact happly
  · exact happly

theorem snapshot_isSome_iff (cfg : Config) (clock : Clock) (snapshot : Object) (s : MqttState) :
    (replaceCerboSnapshot cfg clock snapshot s).result.isSome = true ↔
      ((snapshotLeaves snapshot).foldl storeLeaf Dict.empty).Ids Orderable := by
  unfold replaceCerboSnapshot
  dsimp only
  split
  · next hpumps =>
    constructor
    · intro h
      cases h
    · intro h
      have := (devices_isSome_iff _ .pump).mpr (h .pump)
      rw [hpumps] at this
      cases this
  · exact apply_isSome_iff cfg _

theorem projected_snapshot {cfg : Config} (clock : Clock) (snapshot : Object) (s : MqttState)
    (h : ((snapshotLeaves snapshot).foldl storeLeaf Dict.empty).Ids Orderable) :
    Projected cfg (replaceCerboSnapshot cfg clock snapshot s).state := by
  have hpumps := (devices_isSome_iff _ .pump).mpr (h .pump)
  unfold replaceCerboSnapshot
  dsimp only
  split
  · next hnone =>
    rw [hnone] at hpumps
    cases hpumps
  · exact projected_apply h

/-! ## One operation -/

/-- The operation changes the native store. -/
def accepts (cfg : Config) (x : MqttState × Event) : Bool :=
  match x.2.op with
  | .native topic payload retained => match addressed x.1 topic payload with
    | some (kind, inst, path) =>
      (applyNativePayload cfg x.2.clock kind inst path payload retained x.1).isSome
    | none => false
  | .snapshot _ => true
  | .gateway snapshot => (applySnapshotController cfg x.2.clock snapshot x.1).result.isSome
  | _ => false

/-- The instance ids of the leaves an operation stores. -/
def acceptedIds (cfg : Config) (x : MqttState × Event) : List Str :=
  match x.2.op with
  | .native topic payload _ => match addressed x.1 topic payload with
    | some (kind, inst, path) => if (leafValue? kind path payload).isSome then [inst] else []
    | none => []
  | .snapshot snapshot => (snapshotLeaves snapshot).map Leaf.inst
  | .gateway snapshot =>
    if (applySnapshotController cfg x.2.clock snapshot x.1).result.isSome then
      (snapshotLeaves snapshot).map Leaf.inst
    else []
  | _ => []

/-- The operation does not raise. -/
def completes (cfg : Config) (x : MqttState × Event) : Bool :=
  match x.2.op with
  | .native topic payload retained =>
    (nativeMessage cfg x.2.clock topic payload retained x.1).result.isSome
  | .snapshot snapshot => (replaceCerboSnapshot cfg x.2.clock snapshot x.1).result.isSome
  | .gateway snapshot => (applySnapshot cfg x.2.clock snapshot x.1).result.isSome
  | _ => true

/-- Where the operation changes the store, its refresh completes and shows the new store. -/
def Refreshed (cfg : Config) (x : MqttState × Event) : Prop :=
  accepts cfg x = true → completes cfg x = true ∧ Projected cfg (step cfg x.1 x.2)

/-- The store after the payload of a native message. -/
theorem devices_applyNativePayload {cfg : Config} {clock : Clock} {kind : Kind}
    {inst path : Str} {payload : Payload} {retained : Bool} {s s' : MqttState}
    (h : applyNativePayload cfg clock kind inst path payload retained s = some s') :
    (leafValue? kind path payload = none ∧ s.cerboDevices.remove kind inst = some s'.cerboDevices) ∨
      ∃ value, leafValue? kind path payload = some value ∧
        s'.cerboDevices = s.cerboDevices.store kind inst path value := by
  unfold applyNativePayload at h
  split at h
  · obtain ⟨m, hm, rfl⟩ := Option.map_eq_some_iff.mp h
    exact Or.inl ⟨rfl, hm⟩
  · obtain ⟨value, hv, rfl⟩ := Option.map_eq_some_iff.mp h
    exact Or.inr ⟨value, hv, rfl⟩

/-- What a payload does to the store depends on the store alone. -/
theorem applyNativePayload_congr (cfg : Config) (clock : Clock) (kind : Kind) (inst path : Str)
    (payload : Payload) (retained : Bool) {s t : MqttState}
    (h : s.cerboDevices = t.cerboDevices) :
    (applyNativePayload cfg clock kind inst path payload retained s).map MqttState.cerboDevices =
      (applyNativePayload cfg clock kind inst path payload retained t).map
        MqttState.cerboDevices := by
  unfold applyNativePayload
  split
  · unfold removeCerboDevice
    rw [Option.map_map, Option.map_map, h]
    rfl
  · unfold storeCerboLeaf
    rw [Option.map_map, Option.map_map]
    congr 1
    funext value
    exact congrArg (fun m : Devices => m.store kind inst path value) h

/-- A message whose payload changes the store is a refresh of the changed store. -/
theorem native_accepted {cfg : Config} {clock : Clock} {topic : Str} {payload : Payload}
    {retained : Bool} {s : MqttState}
    (h : accepts cfg (s, ⟨clock, .native topic payload retained⟩) = true) :
    ∃ kind inst path t, addressed s topic payload = some (kind, inst, path) ∧
      (leafValue? kind path payload = none ∧
        s.cerboDevices.remove kind inst = some t.cerboDevices ∨
        ∃ value, leafValue? kind path payload = some value ∧
          t.cerboDevices = s.cerboDevices.store kind inst path value) ∧
      nativeMessage cfg clock topic payload retained s = refreshNativeMqttState cfg clock t := by
  unfold accepts at h
  dsimp only at h
  split at h
  · next kind inst path haddr =>
    obtain ⟨portal, hportal⟩ := nativeTopicSelected_fst topic payload s
    have hsup : s.cerboDevices =
        (supersedeMode kind inst path (nativeTopicSelected topic payload s).1).cerboDevices := by
      rw [hportal]
      unfold supersedeMode
      split <;> rfl
    have hcongr := applyNativePayload_congr cfg clock kind inst path payload retained hsup
    obtain ⟨s', hs'⟩ := Option.isSome_iff_exists.mp h
    rw [hs'] at hcongr
    obtain ⟨t, ht, hdev⟩ := Option.map_eq_some_iff.mp hcongr.symm
    refine ⟨kind, inst, path, t, haddr, ?_, ?_⟩
    · rw [hdev]
      exact devices_applyNativePayload hs'
    · unfold addressed at haddr
      dsimp only at haddr
      split at haddr
      · next hsel =>
        unfold nativeMessage handleCerboDevice
        dsimp only
        rw [if_pos hsel, haddr]
        dsimp only
        rw [ht]
      · cases haddr
  · cases h

/-- A message that does not change the store leaves it alone. -/
theorem native_ignored {cfg : Config} {clock : Clock} {topic : Str} {payload : Payload}
    {retained : Bool} {s : MqttState}
    (h : accepts cfg (s, ⟨clock, .native topic payload retained⟩) = false) :
    (nativeMessage cfg clock topic payload retained s).state.cerboDevices = s.cerboDevices := by
  obtain ⟨portal, hportal⟩ := nativeTopicSelected_fst topic payload s
  have hsel : (nativeTopicSelected topic payload s).1.cerboDevices = s.cerboDevices := by
    rw [hportal]
  unfold accepts addressed at h
  unfold nativeMessage
  dsimp only at h ⊢
  split
  · next hs =>
    rw [if_pos hs] at h
    unfold handleCerboDevice
    split
    · exact hsel
    · next kind inst path htopic =>
      rw [htopic] at h
      dsimp only at h ⊢
      have hsup : (supersedeMode kind inst path
          (nativeTopicSelected topic payload s).1).cerboDevices = s.cerboDevices := by
        rw [← hsel]
        unfold supersedeMode
        split <;> rfl
      have hcongr := applyNativePayload_congr cfg clock kind inst path payload retained hsup
      split
      · exact hsup
      · next t ht =>
        rw [ht] at hcongr
        obtain ⟨s', hs', -⟩ := Option.map_eq_some_iff.mp hcongr.symm
        rw [hs'] at h
        cases h
  · exact hsel

/-- The store after a gateway snapshot whose controller part did not raise. -/
theorem gateway_accepted {cfg : Config} {clock : Clock} {snapshot : Object} {s : MqttState}
    (h : (applySnapshotController cfg clock snapshot s).result.isSome = true) :
    ∃ t, applySnapshot cfg clock snapshot s = replaceCerboSnapshot cfg clock snapshot t := by
  obtain ⟨u, hu⟩ := Option.isSome_iff_exists.mp h
  refine ⟨(applySnapshotController cfg clock snapshot s).state, ?_⟩
  unfold applySnapshot Call.andThen
  rw [hu]

theorem gateway_ignored {cfg : Config} {clock : Clock} {snapshot : Object} {s : MqttState}
    (h : (applySnapshotController cfg clock snapshot s).result.isSome = false) :
    (applySnapshot cfg clock snapshot s).state.cerboDevices = s.cerboDevices := by
  have hnone := Option.isSome_eq_false_iff.mp h
  rw [Option.isNone_iff_eq_none] at hnone
  unfold applySnapshot Call.andThen
  rw [hnone]
  exact cerboDevices_of_native (native_snapshotController cfg clock snapshot s)

/-- **One operation, in order.** Accepted ids that can be ordered keep the store in order, and
    the refresh completes. -/
theorem refreshed_of_orderable {cfg : Config} {s : MqttState} (h : s.cerboDevices.Ids Orderable)
    (e : Event) (hids : ∀ inst ∈ acceptedIds cfg (s, e), Orderable inst) :
    Refreshed cfg (s, e) ∧ (step cfg s e).cerboDevices.Ids Orderable := by
  obtain ⟨clock, op⟩ := e
  have hkeep : ∀ {t : MqttState}, t.native = s.native → t.cerboDevices.Ids Orderable := by
    intro t ht
    rw [cerboDevices_of_native ht]
    exact h
  have hignore : ∀ {op}, accepts cfg (s, ⟨clock, op⟩) = false →
      Refreshed cfg (s, ⟨clock, op⟩) := by
    intro op hop hacc
    rw [hop] at hacc
    cases hacc
  cases op with
  | native topic payload retained =>
    cases hacc : accepts cfg (s, ⟨clock, .native topic payload retained⟩) with
    | false =>
      refine ⟨hignore hacc, ?_⟩
      show (nativeMessage cfg clock topic payload retained s).state.cerboDevices.Ids Orderable
      rw [native_ignored hacc]
      exact h
    | true =>
      obtain ⟨kind, inst, path, t, haddr, hstore, hmsg⟩ := native_accepted hacc
      have ht : t.cerboDevices.Ids Orderable := by
        rcases hstore with ⟨-, hremove⟩ | ⟨value, hv, hset⟩
        · exact ids_remove h hremove
        · rw [hset]
          refine ids_store h kind path value (hids inst ?_)
          simp [acceptedIds, haddr, hv]
      have hstep : step cfg s ⟨clock, .native topic payload retained⟩ =
          (refreshNativeMqttState cfg clock t).state := congrArg Call.state hmsg
      refine ⟨fun _ => ⟨?_, ?_⟩, ?_⟩
      · show (nativeMessage cfg clock topic payload retained s).result.isSome = true
        rw [hmsg]
        exact (refresh_isSome_iff cfg clock t).mpr ht
      · rw [hstep]
        exact projected_refresh clock ht
      · rw [hstep, cerboDevices_of_native (native_refresh cfg clock t)]
        exact ht
  | snapshot snapshot =>
    have hall : ((snapshotLeaves snapshot).foldl storeLeaf Dict.empty).Ids Orderable :=
      ids_foldl (ids_empty _) fun l hl => hids l.inst (List.mem_map_of_mem hl)
    refine ⟨fun _ => ⟨(snapshot_isSome_iff cfg clock snapshot s).mpr hall,
      projected_snapshot clock snapshot s hall⟩, ?_⟩
    show (replaceCerboSnapshot cfg clock snapshot s).state.cerboDevices.Ids Orderable
    rw [cerboDevices_snapshot]
    exact hall
  | gateway snapshot =>
    cases hacc : (applySnapshotController cfg clock snapshot s).result.isSome with
    | false =>
      refine ⟨hignore hacc, ?_⟩
      show (applySnapshot cfg clock snapshot s).state.cerboDevices.Ids Orderable
      rw [gateway_ignored hacc]
      exact h
    | true =>
      have hall : ((snapshotLeaves snapshot).foldl storeLeaf Dict.empty).Ids Orderable := by
        refine ids_foldl (ids_empty _) fun l hl => hids l.inst ?_
        simp only [acceptedIds, hacc, if_true]
        exact List.mem_map_of_mem hl
      obtain ⟨t, ht⟩ := gateway_accepted hacc
      have hstep : step cfg s ⟨clock, .gateway snapshot⟩ =
          (replaceCerboSnapshot cfg clock snapshot t).state := congrArg Call.state ht
      refine ⟨fun _ => ⟨?_, ?_⟩, ?_⟩
      · show (applySnapshot cfg clock snapshot s).result.isSome = true
        rw [ht]
        exact (snapshot_isSome_iff cfg clock snapshot t).mpr hall
      · rw [hstep]
        exact projected_snapshot clock snapshot t hall
      · rw [hstep, cerboDevices_snapshot]
        exact hall
  | clearNative =>
    refine ⟨hignore rfl, ?_⟩
    show (clearCerboState cfg s).state.cerboDevices.Ids Orderable
    unfold clearCerboState
    rw [cerboDevices_of_native (native_applyCerboOverlays cfg _)]
    exact ids_empty _
  | controller incoming retained => exact ⟨hignore rfl, hkeep (native_merge cfg clock _ _ s)⟩
  | controllerGone => exact ⟨hignore rfl, hkeep (native_clearDaemon cfg s)⟩
  | override value retained => exact ⟨hignore rfl, hkeep (native_observe clock _ retained s)⟩
  | readController => exact ⟨hignore rfl, hkeep (native_controllerAvailable cfg clock s)⟩
  | portal portal => exact ⟨hignore rfl, hkeep (native_discoverPortal portal s)⟩

/-- An accepted id that cannot be ordered makes its own refresh raise. -/
theorem orderable_of_refreshed {cfg : Config} {x : MqttState × Event} (h : Refreshed cfg x) :
    ∀ inst ∈ acceptedIds cfg x, Orderable inst := by
  obtain ⟨s, clock, op⟩ := x
  intro inst hi
  cases op with
  | native topic payload retained =>
    unfold acceptedIds at hi
    dsimp only at hi
    split at hi
    · next kind i path haddr =>
      split at hi
      · next hsome =>
        obtain rfl := List.mem_singleton.mp hi
        obtain ⟨value, hv⟩ := Option.isSome_iff_exists.mp hsome
        have hacc : accepts cfg (s, ⟨clock, .native topic payload retained⟩) = true := by
          unfold accepts applyNativePayload
          dsimp only
          rw [haddr]
          cases payload with
          | empty => cases hv
          | malformed => cases hv
          | json data => simp [storeCerboLeaf, hv]
        obtain ⟨kind', inst', path', t, haddr', hstore, hmsg⟩ := native_accepted hacc
        rw [haddr] at haddr'
        obtain ⟨rfl, rfl, rfl⟩ : kind = kind' ∧ inst = inst' ∧ path = path' := by
          simpa using haddr'
        have hres : (nativeMessage cfg clock topic payload retained s).result.isSome = true :=
          (h hacc).1
        rw [hmsg, refresh_isSome_iff] at hres
        rcases hstore with ⟨hnone, -⟩ | ⟨value', -, hset⟩
        · rw [hv] at hnone
          cases hnone
        · rw [hset] at hres
          exact (of_ids_store hres).2
      · cases hi
    · cases hi
  | snapshot snapshot =>
    obtain ⟨l, hl, rfl⟩ := List.mem_map.mp hi
    have hres := (h rfl).1
    exact (of_ids_foldl ((snapshot_isSome_iff cfg clock snapshot s).mp hres)).2 l hl
  | gateway snapshot =>
    unfold acceptedIds at hi
    dsimp only at hi
    split at hi
    · next hacc =>
      obtain ⟨l, hl, rfl⟩ := List.mem_map.mp hi
      have hres : (applySnapshot cfg clock snapshot s).result.isSome = true := (h hacc).1
      obtain ⟨t, ht⟩ := gateway_accepted hacc
      rw [ht] at hres
      exact (of_ids_foldl ((snapshot_isSome_iff cfg clock snapshot t).mp hres)).2 l hl
    · cases hi
  | clearNative => cases hi
  | controller incoming retained => cases hi
  | controllerGone => cases hi
  | override value retained => cases hi
  | readController => cases hi
  | portal portal => cases hi

/-! ## Whole runs -/

/-- **Total refreshes.** In a run every refresh completes and shows the store it was made for,
    exactly when every instance id the run accepts can be ordered. -/
theorem refreshes_complete_iff (cfg : Config) (portal : Str) (es : List Event) :
    (∀ x ∈ trace (step cfg) (MqttState.init portal) es, Refreshed cfg x) ↔
      ∀ x ∈ trace (step cfg) (MqttState.init portal) es,
        ∀ inst ∈ acceptedIds cfg x, Orderable inst := by
  refine ⟨fun h x hx => orderable_of_refreshed (h x hx), ?_⟩
  have hrun : ∀ (es : List Event) (s : MqttState), s.cerboDevices.Ids Orderable →
      (∀ x ∈ trace (step cfg) s es, ∀ inst ∈ acceptedIds cfg x, Orderable inst) →
      ∀ x ∈ trace (step cfg) s es, Refreshed cfg x := by
    intro es
    induction es with
    | nil => simp [trace]
    | cons e es ih =>
      intro s hs hids x hx
      obtain ⟨hnow, hnext⟩ := refreshed_of_orderable hs e (hids (s, e) List.mem_cons_self)
      rcases List.mem_cons.mp hx with rfl | hx
      · exact hnow
      · exact ih (step cfg s e) hnext (fun y hy => hids y (List.mem_cons_of_mem _ hy)) x hx
  exact hrun es (MqttState.init portal) (ids_empty _)

/-- A tank with a superscript two for its instance, then a battery that reports its charge. -/
def superscriptTank : List Event :=
  [⟨⟨0, 0⟩, .native (Str.lit "N/c0619ab/tank/²/Level")
      (.json (.dict [(Str.lit "value", .int 40)])) false⟩,
   ⟨⟨1, 1⟩, .native (Str.lit "N/c0619ab/battery/1/Soc")
      (.json (.dict [(Str.lit "value", .int 55)])) false⟩]

/-- The tank's refresh raises, and so does the one of the battery after it. -/
theorem superscript_tank_raises :
    (∀ x ∈ trace (step .default) (MqttState.init (Str.lit "c0619ab")) superscriptTank,
      accepts .default x = true ∧ completes .default x = false) ∧
    ¬ ∀ (cfg : Config) (portal : Str) (es : List Event),
      ∀ x ∈ trace (step cfg) (MqttState.init portal) es, Refreshed cfg x := by
  have hraise : ∀ x ∈ trace (step .default) (MqttState.init (Str.lit "c0619ab")) superscriptTank,
      accepts .default x = true ∧ completes .default x = false := by
    intro x hx
    rcases List.mem_cons.mp hx with rfl | hx
    · decide +kernel
    · obtain rfl := List.mem_singleton.mp hx
      decide +kernel
  refine ⟨hraise, ?_⟩
  intro h
  have hfirst : (MqttState.init (Str.lit "c0619ab"), superscriptTank[0]) ∈
      trace (step .default) (MqttState.init (Str.lit "c0619ab")) superscriptTank :=
    List.mem_cons_self
  obtain ⟨hacc, hres⟩ := hraise _ hfirst
  rw [(h _ _ _ _ hfirst hacc).1] at hres
  cases hres

end InverterDashboard.Server
