import InverterDashboard.Push.Selection
import InverterDashboard.Server.Routes

/-
  What a selected sample has to do with the packets.

  A sample with a value reads one leaf of the store (`sample_stored`), and a packet on exactly that
  leaf is the one that stored it (`sample_of_packet`). The identifier of a sample names its leaf,
  except that of a pump: it reads `State`, or `Status` while the pump has no `State`
  (`leaf_of_identifier`).
-/

namespace InverterDashboard.Push

open Python Cerbo Server Notifications

/-! ## Values -/

/-- What a number is as a sample of a role. -/
def Role.value : Role → ℚ → Option SampleValue
  | .pump, q => switched q
  | .valve, q => switched q
  | .ev, q => some (charging q)
  | .lowBattery, q => percent q

/-- A leaf of the store is a number. -/
structure Stores (m : Devices) (kind : Kind) (leaf : LeafName) (q : ℚ) : Prop where
  named : leaf.kind = kind.name
  number : ∃ value, m.leaf kind leaf.inst leaf.path = some value ∧ Cerbo.number value = some q

theorem mem_devices {m : Devices} {kind : Kind} {listing : Listing}
    (h : devices m kind = some listing) {inst : Str} {leaves : Leaves}
    (hmem : (inst, leaves) ∈ listing) :
    ∃ d, (m.services kind).get? inst = some d ∧ leaves = Leaves.ofDict d := by
  obtain ⟨rows, hrows, rfl⟩ := Option.map_eq_some_iff.mp h
  obtain ⟨r, hr, heq⟩ := List.mem_map.mp (List.mem_filter.mp hmem).1
  have hrow : r.2 ∈ rows.map Prod.snd := List.mem_map_of_mem ((List.mem_insertionSort byKey).mp hr)
  rw [(keyed_mapM hrows).1, heq] at hrow
  obtain ⟨e, he, heq'⟩ := List.mem_map.mp hrow
  obtain ⟨rfl, rfl⟩ := Prod.mk.inj heq'
  exact ⟨e.2, Dict.mem_entries.mp he, rfl⟩

theorem number_of_absent (path : Str) : Leaves.absent.number path = none := rfl

/-- A number that a listing shows is in the store. -/
theorem stores_of_listing {m : Devices} {kind : Kind} {listing : Listing}
    (h : devices m kind = some listing) {inst : Str} {leaves : Leaves}
    (hmem : (inst, leaves) ∈ listing) {path : Str} {q : ℚ} (hq : leaves.number path = some q) :
    Stores m kind ⟨kind.name, inst, path⟩ q := by
  obtain ⟨d, hd, rfl⟩ := mem_devices h hmem
  refine ⟨rfl, ?_⟩
  have hleaf : m.leaf kind inst path = d.get? path := by
    unfold Devices.leaf
    rw [hd]
    rfl
  cases hget : d.get? path with
  | none =>
    have hnone : (Leaves.ofDict d).number path = Cerbo.number ((d.get? path).getD .none) := rfl
    rw [hnone, hget] at hq
    cases hq
  | some value =>
    have hvalue : (Leaves.ofDict d).number path = Cerbo.number ((d.get? path).getD .none) := rfl
    rw [hvalue, hget] at hq
    exact ⟨value, hleaf.trans hget, hq⟩

theorem mem_of_find {α β : Type} [DecidableEq α] {k : α} {v : β} {es : List (α × β)}
    (h : Dict.find k es = some v) : (k, v) ∈ es := by
  induction es with
  | nil => cases h
  | cons e es ih =>
    obtain ⟨a, b⟩ := e
    unfold Dict.find at h
    split at h
    · next hk =>
      obtain rfl := Option.some.inj h
      exact hk ▸ List.mem_cons_self
    · exact List.mem_cons_of_mem _ (ih h)

/-- The field of a pump that its sample reads. -/
def pumpField (leaves : Leaves) : Str := if leaves.has statePath then statePath else statusPath

/-- The sample of a pump, with a value: `Status` is read while the pump has no `State`. -/
theorem pumpSample_stored {m : Devices} {pumps : Listing} (h : devices m .pump = some pumps)
    {label : String} {inst : Int} {v : SampleValue}
    (hv : (pumpSample label inst pumps).value = some v) :
    ∃ q, Stores m .pump (pumpSample label inst pumps).leaf q ∧ switched q = some v ∧
      ((pumpSample label inst pumps).leaf.path = statePath ↔
        (m.leaf .pump (intStr inst) statePath).isSome = true) := by
  obtain ⟨q, hq, hswitched⟩ := Option.bind_eq_some_iff.mp hv
  have hnumber : (lookup pumps (intStr inst)).number (pumpField (lookup pumps (intStr inst))) =
      some q := hq
  have hleaf : (pumpSample label inst pumps).leaf =
      ⟨Kind.pump.name, intStr inst, pumpField (lookup pumps (intStr inst))⟩ := rfl
  rw [hleaf]
  cases hfind : Dict.find (intStr inst) pumps with
  | none =>
    have hlookup : lookup pumps (intStr inst) = Leaves.absent := by
      unfold lookup
      rw [hfind]
      rfl
    rw [hlookup] at hnumber
    cases hnumber
  | some leaves =>
    have hlookup : lookup pumps (intStr inst) = leaves := by
      unfold lookup
      rw [hfind]
      rfl
    rw [hlookup] at hnumber ⊢
    have hmem := mem_of_find hfind
    refine ⟨q, stores_of_listing h hmem hnumber, hswitched, ?_⟩
    obtain ⟨d, hd, rfl⟩ := mem_devices h hmem
    have hstate : (m.leaf .pump (intStr inst) statePath).isSome =
        (Leaves.ofDict d).has statePath := by
      unfold Devices.leaf
      rw [hd]
      rfl
    have hne : statusPath ≠ statePath := by decide
    rw [hstate]
    unfold pumpField
    split
    · next hhas => exact ⟨fun _ => hhas, fun _ => rfl⟩
    · next hhas => exact ⟨fun heq => absurd heq hne, fun hsome => absurd hsome hhas⟩

/-! ## Samples of the store -/

/-- The label of a pump's identifier. -/
def Role.label : Role → String
  | .pump => "pump"
  | _ => "valve"

/-- The instance of a pump. -/
def Role.instance (cfg : Config) : Role → Int
  | .pump => cfg.waterPumpInstance
  | _ => cfg.waterValveInstance

/-- What a sample of each role is made from. -/
inductive Drawn (cfg : Config) (m : Devices) : Role × Sample → Prop where
  | water (role : Role) (pumps : Listing) (hrole : role = .pump ∨ role = .valve)
      (hpumps : devices m .pump = some pumps) :
      Drawn cfg m (role, pumpSample role.label (role.instance cfg) pumps)
  | ev (chargers : Listing) (s : Sample) (hchargers : devices m .evcharger = some chargers)
      (hs : evSample cfg.evchargerInstance chargers = some s) : Drawn cfg m (.ev, s)
  | soc (s : Sample) (hs : socSample (devices m) = some (some s)) : Drawn cfg m (.lowBattery, s)

theorem drawn_of_mem {cfg : Config} {s : MqttState} {samples : Samples}
    (h : selectedSamples cfg s = some samples) {e : Role × Sample} (he : e ∈ samples) :
    Drawn cfg s.cerboDevices e := by
  obtain ⟨pumps, chargers, soc, hpumps, hchargers, hsoc, rfl⟩ := selectedSamples_eq h
  simp only [List.mem_append, List.mem_cons, List.not_mem_nil, or_false, Option.mem_toList,
    Option.map_eq_some_iff] at he
  rcases he with ((rfl | rfl) | ⟨x, hx, rfl⟩) | ⟨x, rfl, rfl⟩
  · exact .water .pump pumps (Or.inl rfl) hpumps
  · exact .water .valve pumps (Or.inr rfl) hpumps
  · exact .ev chargers x hchargers hx
  · exact .soc x hsoc

theorem evSample_leaf {configured : Option Int} {chargers : Listing} {s : Sample}
    (h : evSample configured chargers = some s) :
    ∃ charger ∈ chargers, s.identifier = Str.lit "evcharger:" ++ charger.1 ∧
      s.value = (charger.2.number evPower).map charging ∧
      s.leaf = ⟨Kind.evcharger.name, charger.1, evPower⟩ := by
  obtain ⟨charger, hfound, rfl⟩ := Option.map_eq_some_iff.mp h
  refine ⟨charger, ?_, rfl, rfl, rfl⟩
  cases configured with
  | none => exact List.mem_of_find?_eq_some hfound
  | some inst => exact List.mem_of_find?_eq_some hfound

/-- Where a state of charge is measured: the kind, the word of the identifier, and the path. -/
def socSources : List (Kind × String × Str) :=
  [(.system, "system:", socPath), (.battery, "battery:", Str.lit "Soc")]

theorem socSample_leaf {m : Devices} {s : Sample} (h : socSample (devices m) = some (some s)) :
    ∃ source ∈ socSources, ∃ id, s.identifier = Str.lit source.2.1 ++ id ∧
      s.leaf = ⟨source.1.name, id, source.2.2⟩ ∧
      ∀ v, s.value = some v → ∃ q, Stores m source.1 s.leaf q ∧ percent q = some v := by
  obtain ⟨systems, hsystems, h⟩ := Option.bind_eq_some_iff.mp h
  dsimp only at h
  split at h
  · next q hq =>
    obtain rfl := Option.some.inj (Option.some.inj h)
    refine ⟨(.system, "system:", socPath), List.mem_cons_self, _, rfl, rfl, fun v hv => ?_⟩
    refine ⟨q, ?_, hv⟩
    cases systems with
    | nil => cases hq
    | cons first rest => exact stores_of_listing hsystems List.mem_cons_self hq
  · obtain ⟨batteries, hbatteries, h⟩ := Option.bind_eq_some_iff.mp h
    obtain ⟨battery, hbattery, rfl⟩ := Option.map_eq_some_iff.mp (Option.some.inj h)
    have hlisted : battery ∈ batteries := by
      split at hbattery
      · split at hbattery
        · exact List.mem_of_find?_eq_some hbattery
        · split at hbattery
          · exact Option.some.inj hbattery ▸ List.mem_cons_self
          · cases hbattery
      · split at hbattery
        · exact Option.some.inj hbattery ▸ List.mem_cons_self
        · cases hbattery
    refine ⟨(.battery, "battery:", Str.lit "Soc"), List.mem_cons_of_mem _ List.mem_cons_self, _,
      rfl, rfl, fun v hv => ?_⟩
    obtain ⟨q, hq, hpercent⟩ := Option.bind_eq_some_iff.mp hv
    exact ⟨q, stores_of_listing hbatteries hlisted hq, hpercent⟩

/-- A sample with a value reads a number from the store, on its own leaf. -/
theorem sample_stored {cfg : Config} {m : Devices} {e : Role × Sample} (h : Drawn cfg m e)
    {v : SampleValue} (hv : e.2.value = some v) :
    ∃ kind q, Stores m kind e.2.leaf q ∧ e.1.value q = some v := by
  cases h with
  | water role pumps hrole hpumps =>
    obtain ⟨q, hstores, hswitched, -⟩ := pumpSample_stored hpumps hv
    refine ⟨.pump, q, hstores, ?_⟩
    rcases hrole with rfl | rfl
    · exact hswitched
    · exact hswitched
  | ev chargers s hchargers hs =>
    obtain ⟨charger, hmem, -, hvalue, hleaf⟩ := evSample_leaf hs
    obtain ⟨q, hq, hcharging⟩ := Option.map_eq_some_iff.mp (hvalue.symm.trans hv)
    refine ⟨.evcharger, q, ?_, congrArg some hcharging⟩
    show Stores m .evcharger s.leaf q
    rw [hleaf]
    exact stores_of_listing hchargers hmem hq
  | soc s hs =>
    obtain ⟨source, -, id, -, -, hvalue⟩ := socSample_leaf hs
    obtain ⟨q, hstores, hpercent⟩ := hvalue v hv
    exact ⟨source.1, q, hstores, hpercent⟩

/-! ## Identifiers -/

theorem socSources_words : ∀ a ∈ socSources, ∀ b ∈ socSources, a ≠ b →
    ¬ Str.lit a.2.1 <+: Str.lit b.2.1 := by
  decide

theorem soc_leaf_eq {m m' : Devices} {s s' : Sample} (h : socSample (devices m) = some (some s))
    (h' : socSample (devices m') = some (some s')) (hid : s.identifier = s'.identifier) :
    s.leaf = s'.leaf := by
  obtain ⟨source, hmem, id, hidentifier, hleaf, -⟩ := socSample_leaf h
  obtain ⟨source', hmem', id', hidentifier', hleaf', -⟩ := socSample_leaf h'
  rw [hidentifier, hidentifier'] at hid
  have hsource : source = source' := by
    by_contra hne
    have hpre : Str.lit source.2.1 <+: Str.lit source'.2.1 ++ id' := ⟨id, hid⟩
    rcases List.prefix_or_prefix_of_prefix hpre (List.prefix_append _ id') with hword | hword
    · exact socSources_words source hmem source' hmem' hne hword
    · exact socSources_words source' hmem' source hmem (Ne.symm hne) hword
  subst hsource
  rw [hleaf, hleaf', List.append_cancel_left hid]

/-- The identifier of a sample names its leaf, unless it is the sample of a pump. -/
theorem leaf_of_identifier {cfg : Config} {m m' : Devices} {e e' : Role × Sample}
    (h : Drawn cfg m e) (h' : Drawn cfg m' e') (hrole : e.1 = e'.1)
    (hid : e.2.identifier = e'.2.identifier) (hother : ¬ (e.1 = .pump ∨ e.1 = .valve)) :
    e.2.leaf = e'.2.leaf := by
  cases h with
  | water role pumps hwater hpumps => exact absurd hwater hother
  | ev chargers s hchargers hs =>
    obtain ⟨charger, -, hidentifier, -, hleaf⟩ := evSample_leaf hs
    cases h' with
    | water role pumps hwater hpumps =>
      obtain rfl : Role.ev = role := hrole
      rcases hwater with hwater | hwater <;> cases hwater
    | ev chargers' s' hchargers' hs' =>
      obtain ⟨charger', -, hidentifier', -, hleaf'⟩ := evSample_leaf hs'
      have hsame : charger.1 = charger'.1 := by
        have hlit : Str.lit "evcharger:" ++ charger.1 = Str.lit "evcharger:" ++ charger'.1 := by
          rw [← hidentifier, ← hidentifier']
          exact hid
        exact List.append_cancel_left hlit
      show s.leaf = s'.leaf
      rw [hleaf, hleaf', hsame]
    | soc s' hs' => cases hrole
  | soc s hs =>
    cases h' with
    | water role pumps hwater hpumps =>
      obtain rfl : Role.lowBattery = role := hrole
      rcases hwater with hwater | hwater <;> cases hwater
    | ev chargers' s' hchargers' hs' => cases hrole
    | soc s' hs' => exact soc_leaf_eq hs hs' hid

section Pump

variable {cfg : Config} {m : Devices} {e : Role × Sample} {v : SampleValue}

/-- The leaf of a pump's sample. -/
def Role.pumpLeaf (cfg : Config) (role : Role) (path : Str) : LeafName :=
  ⟨Kind.pump.name, intStr (role.instance cfg), path⟩

/-- A pump with a value is read from `State`, which it has, or from `Status` while it has none. -/
theorem pump_leaf (h : Drawn cfg m e) (hwater : e.1 = .pump ∨ e.1 = .valve)
    (hv : e.2.value = some v) :
    e.2.leaf = e.1.pumpLeaf cfg statePath ∧
        (m.leaf .pump (intStr (e.1.instance cfg)) statePath).isSome = true ∨
      e.2.leaf = e.1.pumpLeaf cfg statusPath ∧
        m.leaf .pump (intStr (e.1.instance cfg)) statePath = none := by
  cases h with
  | water role pumps hrole hpumps =>
    obtain ⟨q, -, -, hpath⟩ := pumpSample_stored hpumps hv
    have hne : statusPath ≠ statePath := by decide
    have hleaf : (pumpSample role.label (role.instance cfg) pumps).leaf =
        role.pumpLeaf cfg (pumpField (lookup pumps (intStr (role.instance cfg)))) := rfl
    rw [hleaf] at hpath
    dsimp only
    rw [hleaf]
    unfold pumpField at hpath ⊢
    split at hpath
    · next hhas =>
      rw [if_pos hhas]
      exact Or.inl ⟨rfl, hpath.mp rfl⟩
    · next hhas =>
      rw [if_neg hhas]
      refine Or.inr ⟨rfl, ?_⟩
      rw [← Option.not_isSome_iff_eq_none]
      exact fun hsome => hne (hpath.mpr hsome)
  | ev chargers s hchargers hs => rcases hwater with hwater | hwater <;> cases hwater
  | soc s hs => rcases hwater with hwater | hwater <;> cases hwater

theorem pump_key (h : Drawn cfg m e) (hwater : e.1 = .pump ∨ e.1 = .valve) :
    e.2.key = sampleKey (Str.lit "water")
      (Str.lit e.1.label ++ Str.lit ":" ++ intStr (e.1.instance cfg)) := by
  cases h with
  | water role pumps hrole hpumps => rfl
  | ev chargers s hchargers hs => rcases hwater with hwater | hwater <;> cases hwater
  | soc s hs => rcases hwater with hwater | hwater <;> cases hwater

end Pump

/-! ## Packets -/

theorem observedLeaf_eq {portal topic : Str} {leaf : LeafName}
    (h : observedLeaf portal topic = some leaf) :
    ∃ rest, topic.splitSlash = Str.lit "N" :: portal :: leaf.kind :: leaf.inst :: rest ∧
      leaf.path = Str.joinSlash rest := by
  unfold observedLeaf at h
  split at h
  · next n p kind inst rest hsplit =>
    split at h
    · next hparts =>
      obtain rfl := Option.some.inj h
      exact ⟨rest, by rw [hsplit, hparts.1, hparts.2], rfl⟩
    · cases h
  · cases h

theorem observedLeaf_of_split {portal topic kind inst : Str} {rest : List Str}
    (h : topic.splitSlash = Str.lit "N" :: portal :: kind :: inst :: rest) :
    observedLeaf portal topic = some ⟨kind, inst, Str.joinSlash rest⟩ := by
  unfold observedLeaf
  rw [h]
  exact if_pos ⟨rfl, rfl⟩

/-- An address of the reducer is a leaf that the observer sees. -/
theorem observedLeaf_of_address {portal topic : Str} {kind : Kind} {inst path : Str}
    (hknown : portal ≠ []) (h : nativeTopic portal topic = some (kind, inst, path)) :
    observedLeaf portal topic = some ⟨kind.name, inst, path⟩ := by
  obtain ⟨-, rest, hsplit, rfl⟩ := nativeTopic_some h hknown
  exact observedLeaf_of_split hsplit

theorem address_of_observedLeaf {portal topic : Str} {leaf : LeafName} {kind : Kind}
    (hknown : portal ≠ []) (h : observedLeaf portal topic = some leaf)
    (hkind : leaf.kind = kind.name) (hinst : leaf.inst ≠ []) :
    nativeTopic portal topic = some (kind, leaf.inst, leaf.path) := by
  obtain ⟨rest, hsplit, hpath⟩ := observedLeaf_eq h
  rw [hkind] at hsplit
  rw [hpath]
  exact nativeTopic_of_split hsplit hknown hinst

/-- A packet without a leaf does not reach the store. -/
theorem devices_of_unobserved {site : Site} {clock : Clock} {m : Message} {s : Source}
    (h : observedLeaf (s.onMessage site clock m).source.mqtt.portalId m.topic = none) :
    (s.onMessage site clock m).source.mqtt.cerboDevices = s.mqtt.cerboDevices := by
  cases Server.storeStep site clock m s with
  | same hsame => exact hsame
  | stored kind inst path value hdevice hknown haddress hvalue hstore =>
    rw [observedLeaf_of_address hknown haddress] at h
    cases h
  | removed kind inst path hdevice hknown haddress hpayload hremove =>
    rw [observedLeaf_of_address hknown haddress] at h
    cases h

theorem leafValue?_of_number {kind : Kind} {path : Str} {payload : Payload} {q : ℚ}
    (hpath : path ≠ []) (hknown : knownPath kind path = true) (hq : packetNumber payload = some q) :
    ∃ value, leafValue? kind path payload = some value ∧ Cerbo.number value = some q := by
  unfold packetNumber at hq
  split at hq
  · next es =>
    have hempty : ¬ path.isEmpty = true := fun h => hpath (List.isEmpty_iff.mp h)
    cases hfind : Dict.find (Str.lit "value") es with
    | none =>
      unfold Value.member at hq
      rw [hfind] at hq
      cases hq
    | some value =>
      unfold Value.member at hq
      rw [hfind] at hq
      have hvalid : validPathValue path value = true := by
        have hsome : (Cerbo.number value).isSome = true := hq ▸ rfl
        unfold validPathValue
        rw [hsome, Bool.or_true, if_pos rfl, ite_self]
      refine ⟨value, ?_, hq⟩
      unfold leafValue?
      dsimp only
      rw [if_neg hempty, hfind]
      dsimp only
      rw [hvalid, hknown]
      rfl
  · cases hq

section Packet

variable {site : Site} {clock : Clock} {m : Message} {s : Source} {e : Role × Sample}
  {v : SampleValue} {leaf : LeafName}

/-- What is known of the leaf of a sample with a value. -/
structure Grounded (site : Site) (s : MqttState) (e : Role × Sample) (v : SampleValue)
    (kind : Kind) (q : ℚ) : Prop where
  stores : Stores s.cerboDevices kind e.2.leaf q
  value : e.1.value q = some v
  arrived : Arrived site s.portalId kind e.2.leaf.inst e.2.leaf.path

theorem grounded {t : MqttState} (h : Drawn site.cfg t.cerboDevices e) (hrouted : Routed site t)
    (hv : e.2.value = some v) : ∃ kind q, Grounded site t e v kind q := by
  obtain ⟨kind, q, hstores, hvalue⟩ := sample_stored h hv
  obtain ⟨value, hleaf, -⟩ := hstores.number
  exact ⟨kind, q, hstores, hvalue, hrouted kind _ _ (hleaf ▸ rfl)⟩

/-- A packet with a number, on the leaf of a sample, is what the sample reads. -/
theorem sample_of_packet (hrouted : Routed site (s.onMessage site clock m).source.mqtt)
    (h : Drawn site.cfg (s.onMessage site clock m).source.mqtt.cerboDevices e)
    (hv : e.2.value = some v)
    (hleaf : observedLeaf (s.onMessage site clock m).source.mqtt.portalId m.topic = some e.2.leaf)
    {q : ℚ} (hq : packetNumber m.payload.loaded = some q) : e.1.value q = some v := by
  obtain ⟨kind, q', hstores, hvalue, harrived⟩ := grounded h hrouted hv
  have haddress := address_of_observedLeaf harrived.hasPortal hleaf hstores.named harrived.hasInst
  have hdevice : isDeviceTopic site m.topic = true := by
    rw [topic_of_address harrived.hasPortal haddress harrived.hasPath]
    exact harrived.topic
  obtain ⟨value, hloaded, hnumber⟩ := leafValue?_of_number harrived.hasPath harrived.known hq
  have hstored := (onMessage_address hdevice harrived.hasPortal haddress).1 value hloaded
  obtain ⟨value', hread, hnumber'⟩ := hstores.number
  rw [hstored, Devices.leaf_store, if_pos ⟨rfl, rfl, rfl⟩] at hread
  obtain rfl := Option.some.inj hread
  rw [hnumber] at hnumber'
  obtain rfl := Option.some.inj hnumber'
  exact hvalue

/-- An empty payload on any topic of a service takes the values of its samples. -/
theorem value_of_removal (hrouted : Routed site (s.onMessage site clock m).source.mqtt)
    (h : Drawn site.cfg (s.onMessage site clock m).source.mqtt.cerboDevices e)
    (hleaf : observedLeaf (s.onMessage site clock m).source.mqtt.portalId m.topic = some leaf)
    (hkind : leaf.kind = e.2.leaf.kind) (hinst : leaf.inst = e.2.leaf.inst)
    (hdevice : isDeviceTopic site m.topic = true) (hempty : m.payload.loaded = .empty) :
    e.2.value = none := by
  rw [Option.eq_none_iff_forall_ne_some]
  intro v hv
  obtain ⟨kind, q, hstores, -, harrived⟩ := grounded h hrouted hv
  have haddress := address_of_observedLeaf harrived.hasPortal hleaf (hkind.trans hstores.named)
    (hinst ▸ harrived.hasInst)
  have hgone := (onMessage_address hdevice harrived.hasPortal haddress).2 hempty
  obtain ⟨value, hread, -⟩ := hstores.number
  unfold Devices.leaf at hread
  rw [← hinst, hgone] at hread
  cases hread

/-- The first `State` of a pump comes on its own topic. -/
theorem state_arrives {inst : Str}
    (hbefore : s.mqtt.cerboDevices.leaf .pump inst statePath = none)
    (hafter : ((s.onMessage site clock m).source.mqtt.cerboDevices.leaf .pump inst
      statePath).isSome = true) :
    observedLeaf (s.onMessage site clock m).source.mqtt.portalId m.topic =
      some ⟨Kind.pump.name, inst, statePath⟩ := by
  cases Server.storeStep site clock m s with
  | same hsame =>
    rw [hsame, hbefore] at hafter
    cases hafter
  | stored kind i path value hdevice hknown haddress hvalue hstore =>
    rw [hstore, Devices.leaf_store] at hafter
    split at hafter
    · next hsame =>
      obtain ⟨rfl, rfl, rfl⟩ := hsame
      exact observedLeaf_of_address hknown haddress
    · rw [hbefore] at hafter
      cases hafter
  | removed kind i path hdevice hknown haddress hpayload hremove =>
    rw [Devices.leaf_remove hremove, hbefore, ite_self] at hafter
    cases hafter

/-- A pump that loses its `State` loses every leaf. -/
theorem state_leaves {inst : Str}
    (hbefore : (s.mqtt.cerboDevices.leaf .pump inst statePath).isSome = true)
    (hafter : (s.onMessage site clock m).source.mqtt.cerboDevices.leaf .pump inst statePath = none)
    (path : Str) :
    (s.onMessage site clock m).source.mqtt.cerboDevices.leaf .pump inst path = none := by
  cases Server.storeStep site clock m s with
  | same hsame =>
    rw [hsame] at hafter
    rw [hafter] at hbefore
    cases hbefore
  | stored kind i p value hdevice hknown haddress hvalue hstore =>
    rw [hstore, Devices.leaf_store] at hafter
    split at hafter
    · cases hafter
    · rw [hafter] at hbefore
      cases hbefore
  | removed kind i p hdevice hknown haddress hpayload hremove =>
    rw [Devices.leaf_remove hremove] at hafter ⊢
    by_cases hsame : Kind.pump = kind ∧ inst = i
    · rw [if_pos hsame]
    · rw [if_neg hsame] at hafter
      rw [hafter] at hbefore
      cases hbefore

/-- The leaf of a sample with a value changes only with the first `State` of a pump. -/
theorem leaf_kept {e' : Role × Sample} {v' : SampleValue}
    (h : Drawn site.cfg s.mqtt.cerboDevices e) (hv : e.2.value = some v)
    (h' : Drawn site.cfg (s.onMessage site clock m).source.mqtt.cerboDevices e')
    (hv' : e'.2.value = some v') (hrole : e.1 = e'.1)
    (hid : e.2.identifier = e'.2.identifier) :
    e.2.leaf = e'.2.leaf ∨ (e'.1 = .pump ∨ e'.1 = .valve) ∧
      e'.2.leaf = e'.1.pumpLeaf site.cfg statePath ∧
      s.mqtt.cerboDevices.leaf .pump (intStr (e'.1.instance site.cfg)) statePath = none ∧
      observedLeaf (s.onMessage site clock m).source.mqtt.portalId m.topic = some e'.2.leaf := by
  by_cases hwater : e.1 = .pump ∨ e.1 = .valve
  · have hold := pump_leaf h hwater hv
    rw [hrole] at hold
    rcases hold with ⟨hleaf, hbefore⟩ | ⟨hleaf, hbefore⟩
    · rcases pump_leaf h' (hrole ▸ hwater) hv' with ⟨hleaf', -⟩ | ⟨hleaf', hafter⟩
      · exact Or.inl (hleaf.trans hleaf'.symm)
      · obtain ⟨kind, q, hstores, -⟩ := sample_stored h' hv'
        obtain ⟨value, hread, -⟩ := hstores.number
        have hkind : Kind.pump = kind :=
          Kind.name_injective ((congrArg LeafName.kind hleaf').symm.trans hstores.named)
        rw [← hkind, hleaf'] at hread
        cases hread.symm.trans (state_leaves hbefore hafter statusPath)
    · rcases pump_leaf h' (hrole ▸ hwater) hv' with ⟨hleaf', hafter⟩ | ⟨hleaf', -⟩
      · exact Or.inr ⟨hrole ▸ hwater, hleaf', hbefore, hleaf' ▸ state_arrives hbefore hafter⟩
      · exact Or.inl (hleaf.trans hleaf'.symm)
  · exact Or.inl (leaf_of_identifier h h' hrole hid hwater)

end Packet

end InverterDashboard.Push
