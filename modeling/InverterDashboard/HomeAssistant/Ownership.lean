import InverterDashboard.Cerbo.Keys
import InverterDashboard.Commands.Programs
import InverterDashboard.Python.Heap
import InverterDashboard.Python.Printing

/-
  `merge_overlay`: what Home Assistant adds to the state that browsers are shown.

  The configuration maps names of the state to entities. Whatever it maps, the overlay only writes
  fields that no native source and no controller owns, and it writes them into copies
  (`merge_overlay_keeps`).
-/

namespace InverterDashboard.HomeAssistant

open Python Cerbo

/-! ## Configuration -/

/-- `CONTROL_FLAG_KEYS`. -/
def controlFlagKeys : List Str := keyList
  ["only_charging", "no_feed", "house_support", "charge_battery", "do_not_supply_charger",
   "set_limit_to_ev_charger", "minimize_charging"]

/-- `controller_commands.SERVER_FIELDS`. -/
def serverFields : List Str := keyList
  ["setpoint_override_observed_at", "setpoint_override_controls_available",
   "electricity_tariff_observed_at", "electricity_tariff_controls_available",
   "grid_backup_observed_at"]

/-- `_MQTT_OWNED_KEYS`. -/
def mqttOwnedKeys : List Str := cerboOwnedKeys ++ serverFields ++ controlFlagKeys ++ keyList
  ["booleans", "features", "ess_mode", "ess_mode_observed_at", "ess_mode_controls_available",
   "dry_run", "setpoint_override", "grid_backup", "grid_using_backup", "daily_stats",
   "solar_forecast", "limits", "loop_interval", "filtered_gt", "dvcc_limits", "perf", "ui_config",
   "version", "uptime", "grid_control_valid", "grid_control_reason", "water_pump_mode",
   "water_valve_mode", "car_charging_power", "ev_charging_power", "ev_present",
   "evcharger_present", "discovered_water_ev", "g3", "t3"]

/-- Names of the state with what the operator maps them to. -/
abbrev Mapping := Dict Str Value

structure Config where
  configured : Bool
  direct : Bool
  booleanEntities : Mapping
  switchEntities : Mapping
  applianceEntities : Mapping
  sensorEntities : Mapping
  /-- The listed entities of each kind of display. -/
  filteredEntities : Dict Str (List Value)

/-- `is_direct_mode`. -/
def Config.isDirectMode (c : Config) : Bool := c.configured && c.direct

/-- `_ha_owns_field`. -/
def haOwnsField (key : Str) (entity : Value) : Bool :=
  match entity with
  | .str s => key ∉ mqttOwnedKeys &&
      Commands.removePrefix (Str.lit "input_boolean.") s.strip ∉ controlFlagKeys
  | _ => false

/-- `_ha_fields`. -/
def haFields (entities : Mapping) : List (Str × Value) :=
  entities.entries.filter fun e => haOwnsField e.1 e.2

/-! ## Merging -/

def booleansKey : Str := Str.lit "booleans"
def connectedKey : Str := Str.lit "ha_direct_connected"
def filteredKey : Str := Str.lit "ha_filtered"

/-- `bool(x)` of `d.get(k)`. -/
def truthy (h : Heap) : Option Item → Bool
  | some (.ref r) => !(h.fields r).isEmpty
  | some (.value v) => v.truthy
  | none => false

/-- `x if isinstance(x, bool) else None`. -/
def boolOrNone : Option Item → Item
  | some (.value (.bool b)) => .value (.bool b)
  | _ => .value .none

/-- `dict(value)` of a value that is no dict: what it holds, or an exception. -/
abbrev Conversion := Value → Option Fields

variable (convert : Conversion)

/-- The entries of `dict(x or {})`. -/
def copied (h : Heap) (x : Option Item) : Option Fields :=
  if truthy h x then
    match x with
    | some (.ref r) => some (h.fields r)
    | some (.value v) => convert v
    | none => some Dict.empty
  else some Dict.empty

open HeapCode

/-- `dict(x or {})`. -/
def dictOr (x : Option Item) : HeapCode Nat := do
  match ← read fun h => copied convert h x with
  | some fields => alloc fields
  | none => raise

/-- `d.get(k)`. -/
def getItem (r : Nat) (k : Str) : HeapCode (Option Item) := read fun h => h.item r k

/-- `(x or {}).get(k)`. -/
def getOr (x : Option Item) (k : Str) : HeapCode (Option Item) := do
  if ← read fun h => truthy h x then
    match x with
    | some (.ref r) => getItem r k
    -- Only a dict has `get`.
    | _ => raise
  else return none

/-- `if k in d: merged[k] = d[k]`. -/
def copyItem (merged d : Nat) (k : Str) : HeapCode Unit := do
  match ← getItem d k with
  | some x => setItem merged k x
  | none => return ()

/-- `_apply_connected_overlay`. -/
def applyConnectedOverlay (c : Config) (merged o : Nat) : HeapCode Unit := do
  let booleans ← dictOr convert (← getItem merged booleansKey)
  let overlayBooleans ← getItem o booleansKey
  (haFields c.booleanEntities).forM fun e => do
    let x ← getOr overlayBooleans e.1
    setItem booleans e.1 (boolOrNone x)
  setItem merged booleansKey (.ref booleans)
  (haFields c.switchEntities).forM fun e => do
    let on ← read fun h => truthy h (h.item o e.1)
    setItem merged e.1 (.value (.bool on))
    let x ← getItem o e.1
    setItem booleans e.1 (boolOrNone x)
  (haFields c.applianceEntities).forM fun e => copyItem merged o e.1
  (haFields c.sensorEntities).forM fun e => copyItem merged o e.1
  if ← read fun h => truthy h (h.item o filteredKey) then copyItem merged o filteredKey
  else return ()

/-- `_appliance_fallback`. -/
def applianceFallback (key : Str) : Value :=
  if (Str.lit "_time").isSuffixOf key || (Str.lit "_duration").isSuffixOf key then .int 0
  else .bool false

/-- `_apply_disconnected_overlay`. -/
def applyDisconnectedOverlay (c : Config) (merged : Nat) : HeapCode Unit := do
  let booleans ← dictOr convert (← getItem merged booleansKey)
  (haFields c.booleanEntities).forM fun e => setItem booleans e.1 (.value .none)
  setItem merged booleansKey (.ref booleans)
  (haFields c.switchEntities).forM fun e => do
    setItem merged e.1 (.value (.bool false))
    setItem booleans e.1 (.value .none)
  (haFields c.applianceEntities).forM fun e => setItem merged e.1 (.value (applianceFallback e.1))

/-- `d.setdefault(k, {})`. -/
def setDefault (d : Nat) (k : Str) : HeapCode Unit := do
  let empty ← alloc Dict.empty
  match ← getItem d k with
  | some _ => return ()
  | none => setItem d k (.ref empty)

/-- The booleans without direct controls. -/
def applyIndirect (c : Config) (merged : Nat) : HeapCode Unit := do
  let booleans ← dictOr convert (← getItem merged booleansKey)
  (haFields c.switchEntities).forM fun e => setItem booleans e.1 (.value .none)
  setItem merged booleansKey (.ref booleans)

/-- What `merge_overlay` writes into the copy, by mode and connection. -/
def applyOverlay (c : Config) (merged o : Nat) : HeapCode Unit :=
  if c.isDirectMode then do
    let connected ← read fun h => truthy h (h.item o connectedKey)
    setItem merged connectedKey (.value (.bool connected))
    if connected then applyConnectedOverlay convert c merged o
    else applyDisconnectedOverlay convert c merged
  else applyIndirect convert c merged

/-- `merge_overlay` with the overlay `o`. -/
def mergeOverlay (c : Config) (o base : Nat) : HeapCode Nat := do
  let merged ← alloc (← read fun h => h.fields base)
  setDefault merged booleansKey
  applyOverlay convert c merged o
  return merged

/-! ## What a merge keeps -/

/-- A control flag in the booleans of a state. -/
def flag (h : Heap) (state : Nat) (f : Str) : Option Item :=
  (copied convert h (h.item state booleansKey)).bind fun fields => fields.get? f

/-- Objects that existed before are unchanged. -/
def Unchanged (before h : Heap) : Prop := ∀ r, r < before.size → h.fields r = before.fields r

/-- A merged state has the native and controller fields and the control flags of its base, which is
    as it was. -/
structure Keeps (before : Heap) (base merged : Nat) (h : Heap) : Prop where
  unchanged : Unchanged before h
  owned : ∀ k ∈ mqttOwnedKeys, k ≠ booleansKey → h.item merged k = before.item base k
  flags : ∀ f ∈ controlFlagKeys, flag convert h merged f = flag convert before base f

theorem owned_of_haFields {entities : Mapping} {e : Str × Value} (h : e ∈ haFields entities) :
    e.1 ∉ mqttOwnedKeys := by
  have howns := (List.mem_filter.mp h).2
  unfold haOwnsField at howns
  split at howns
  · simp only [Bool.and_eq_true, decide_eq_true_eq] at howns
    exact howns.1
  · cases howns

theorem flags_owned : ∀ f ∈ controlFlagKeys, f ∈ mqttOwnedKeys ∧ f ≠ booleansKey := by decide

theorem booleansKey_owned : booleansKey ∈ mqttOwnedKeys := by decide

/-! ## While merging -/

section Merging

variable {convert} {before : Heap} {base : Nat}

/-- A copy of a dict, empty or not, has its entries. -/
theorem copied_ref (h : Heap) (r : Nat) : copied convert h (some (.ref r)) = some (h.fields r) := by
  unfold copied truthy
  dsimp only
  split
  · rfl
  · next hempty =>
    generalize h.fields r = fields at hempty
    obtain ⟨entries, hnodup⟩ := fields
    cases entries with
    | nil => rfl
    | cons e entries => exact absurd rfl hempty

theorem copied_congr {h h' : Heap} {x : Option Item}
    (hx : ∀ r, x = some (.ref r) → h.fields r = h'.fields r) :
    copied convert h x = copied convert h' x := by
  rcases x with _ | r | v
  · rfl
  · rw [copied_ref, copied_ref, hx r rfl]
  · rfl

/-- A merge on its way: it only wrote into a new object. -/
structure Merging (before : Heap) (base merged : Nat) (h : Heap) : Prop where
  fresh : before.size ≤ merged
  allocated : merged < h.size
  unchanged : Unchanged before h
  owned : ∀ k ∈ mqttOwnedKeys, k ≠ booleansKey → h.item merged k = before.item base k

/-- The booleans are still those of the base. -/
structure Unfilled (convert : Conversion) (before : Heap) (base merged : Nat) (h : Heap) : Prop
    extends Merging before base merged h where
  notSelf : h.item merged booleansKey ≠ some (.ref merged)
  source : copied convert h (h.item merged booleansKey) =
    copied convert before (before.item base booleansKey)

/-- A new object with booleans beside it. -/
structure Filling (convert : Conversion) (before : Heap) (base merged booleans : Nat) (h : Heap) : Prop
    extends Merging before base merged h where
  freshBooleans : before.size ≤ booleans
  allocatedBooleans : booleans < h.size
  apart : booleans ≠ merged
  flags : ∀ f ∈ controlFlagKeys, h.item booleans f = flag convert before base f

/-- The merged state refers to it. -/
structure Filled (convert : Conversion) (before : Heap) (base merged booleans : Nat) (h : Heap) : Prop
    extends Filling convert before base merged booleans h where
  linked : h.item merged booleansKey = some (.ref booleans)

theorem Unchanged.put {h : Heap} (hun : Unchanged before h) {r : Nat} (hr : before.size ≤ r) (k : Str)
    (x : Item) : Unchanged before (h.put r k x) := by
  intro s hs
  rw [Heap.fields_put_ne (by omega), hun s hs]

theorem Unchanged.push {h : Heap} (hun : Unchanged before h) (hsize : before.size ≤ h.size)
    (fields : Fields) : Unchanged before (h.push fields) := by
  intro s hs
  rw [Heap.fields_push, if_neg (by omega), hun s hs]

theorem Merging.put {merged : Nat} {h : Heap} (hm : Merging before base merged h) {k : Str}
    (hk : k ∉ mqttOwnedKeys ∨ k = booleansKey) (x : Item) :
    Merging before base merged (h.put merged k x) where
  fresh := hm.fresh
  allocated := by rw [Heap.size_put]; exact hm.allocated
  unchanged := hm.unchanged.put hm.fresh k x
  owned := by
    intro k' hk' hne
    have hkk : k' ≠ k := by
      rintro rfl
      exact hk.elim (· hk') hne
    rw [Heap.item_put hm.allocated, if_neg hkk]
    exact hm.owned k' hk' hne

theorem Merging.putOther {merged r : Nat} {h : Heap} (hm : Merging before base merged h)
    (hr : before.size ≤ r) (hne : r ≠ merged) (k : Str) (x : Item) :
    Merging before base merged (h.put r k x) where
  fresh := hm.fresh
  allocated := by rw [Heap.size_put]; exact hm.allocated
  unchanged := hm.unchanged.put hr k x
  owned := by
    intro k' hk' hb
    rw [Heap.item_put_ne (Ne.symm hne)]
    exact hm.owned k' hk' hb

theorem Merging.push {merged : Nat} {h : Heap} (hm : Merging before base merged h) (fields : Fields) :
    Merging before base merged (h.push fields) where
  fresh := hm.fresh
  allocated := by rw [Heap.size_push]; exact Nat.lt_succ_of_lt hm.allocated
  unchanged := hm.unchanged.push (hm.fresh.trans hm.allocated.le) fields
  owned := by
    intro k hk hb
    unfold Heap.item
    rw [Heap.fields_push, if_neg hm.allocated.ne]
    exact hm.owned k hk hb

theorem Filling.putMerged {merged booleans : Nat} {h : Heap}
    (hf : Filling convert before base merged booleans h) {k : Str}
    (hk : k ∉ mqttOwnedKeys ∨ k = booleansKey) (x : Item) :
    Filling convert before base merged booleans (h.put merged k x) where
  toMerging := hf.toMerging.put hk x
  freshBooleans := hf.freshBooleans
  allocatedBooleans := by rw [Heap.size_put]; exact hf.allocatedBooleans
  apart := hf.apart
  flags := by
    intro f hmem
    rw [Heap.item_put_ne hf.apart]
    exact hf.flags f hmem

theorem Filling.putBooleans {merged booleans : Nat} {h : Heap}
    (hf : Filling convert before base merged booleans h) {k : Str} (hk : k ∉ mqttOwnedKeys)
    (x : Item) : Filling convert before base merged booleans (h.put booleans k x) where
  toMerging := hf.toMerging.putOther hf.freshBooleans hf.apart k x
  freshBooleans := hf.freshBooleans
  allocatedBooleans := by rw [Heap.size_put]; exact hf.allocatedBooleans
  apart := hf.apart
  flags := by
    intro f hmem
    have hne : f ≠ k := by
      rintro rfl
      exact hk (flags_owned f hmem).1
    rw [Heap.item_put hf.allocatedBooleans, if_neg hne]
    exact hf.flags f hmem

theorem Filled.putMerged {merged booleans : Nat} {h : Heap}
    (hf : Filled convert before base merged booleans h) {k : Str} (hk : k ∉ mqttOwnedKeys) (x : Item) :
    Filled convert before base merged booleans (h.put merged k x) where
  toFilling := hf.toFilling.putMerged (Or.inl hk) x
  linked := by
    have hne : booleansKey ≠ k := by
      rintro rfl
      exact hk booleansKey_owned
    rw [Heap.item_put hf.allocated, if_neg hne]
    exact hf.linked

theorem Filled.putBooleans {merged booleans : Nat} {h : Heap}
    (hf : Filled convert before base merged booleans h) {k : Str} (hk : k ∉ mqttOwnedKeys) (x : Item) :
    Filled convert before base merged booleans (h.put booleans k x) where
  toFilling := hf.toFilling.putBooleans hk x
  linked := by
    rw [Heap.item_put_ne (Ne.symm hf.apart)]
    exact hf.linked

theorem Filled.keeps {merged booleans : Nat} {h : Heap}
    (hf : Filled convert before base merged booleans h) : Keeps convert before base merged h where
  unchanged := hf.unchanged
  owned := hf.owned
  flags := by
    intro f hmem
    rw [← hf.flags f hmem]
    unfold flag
    rw [hf.linked, copied_ref]
    rfl

/-! ## The parts of the merge -/

variable {merged : Nat}

theorem read_keeps {α : Type} {inv : Heap → Prop} {raised : Heap → Prop} (f : Heap → α) :
    Ensures inv (read f) (fun _ => inv) raised :=
  Ensures.read.mono fun _ _ h => h.1

theorem getOr_keeps {inv raised : Heap → Prop} (h : ∀ heap, inv heap → raised heap)
    (x : Option Item) (k : Str) : Ensures inv (getOr x k) (fun _ => inv) raised := by
  refine (read_keeps _).bind fun isTruthy => ?_
  cases isTruthy with
  | true =>
    rcases x with _ | r | v
    · exact Ensures.raise h
    · exact read_keeps _
    · exact Ensures.raise h
  | false => exact Ensures.pure fun _ hinv => hinv

theorem copyItem_keeps {inv raised : Heap → Prop} {k : Str} (d : Nat)
    (h : ∀ heap x, inv heap → inv (heap.put merged k x)) :
    Ensures inv (copyItem merged d k) (fun _ => inv) raised := by
  refine (read_keeps _).bind fun x => ?_
  cases x with
  | none => exact Ensures.pure fun _ hinv => hinv
  | some x => exact Ensures.setItem fun heap hinv => h heap x hinv

theorem dictOr_fills (x : Option Item) :
    Ensures (fun h => Unfilled convert before base merged h ∧ x = h.item merged booleansKey)
      (dictOr convert x) (fun b h => Filling convert before base merged b h) (Unchanged before) := by
  refine Ensures.read.bind fun fields => ?_
  cases fields with
  | none => exact Ensures.raise fun h hpre => hpre.1.1.unchanged
  | some fields =>
    refine Ensures.alloc fun h hpre => ?_
    obtain ⟨⟨hm, rfl⟩, hfields⟩ := hpre
    have hpush := hm.toMerging.push fields
    refine ⟨hpush, hm.fresh.trans hm.allocated.le, by rw [Heap.size_push]; omega,
      hm.allocated.ne', fun f hmem => ?_⟩
    unfold Heap.item flag
    rw [Heap.fields_push, if_pos rfl, ← hm.source, ← hfields]
    rfl

theorem getBooleans : Ensures (Unfilled convert before base merged) (getItem merged booleansKey)
    (fun x h => Unfilled convert before base merged h ∧ x = h.item merged booleansKey)
    (Unchanged before) := Ensures.read

theorem Filling.link {booleans : Nat} {h : Heap}
    (hf : Filling convert before base merged booleans h) :
    Filled convert before base merged booleans (h.put merged booleansKey (.ref booleans)) where
  toFilling := hf.putMerged (Or.inr rfl) _
  linked := by rw [Heap.item_put hf.allocated, if_pos rfl]

theorem applyConnected_keeps (c : Config) (o : Nat)
    (hfiltered : filteredKey ∉ mqttOwnedKeys) :
    Ensures (Unfilled convert before base merged) (applyConnectedOverlay convert c merged o)
      (fun _ => Keeps convert before base merged) (Unchanged before) := by
  refine getBooleans.bind fun x => (dictOr_fills x).bind fun booleans => ?_
  refine (read_keeps _).bind fun overlayBooleans => ?_
  refine (Ensures.forM fun e he => ?_).bind fun _ => ?_
  · refine (getOr_keeps (fun h hf => hf.unchanged) _ _).bind fun x => ?_
    exact Ensures.setItem fun h hf => hf.putBooleans (owned_of_haFields he) _
  refine (Ensures.setItem fun h hf => hf.link).bind fun _ => ?_
  refine (Ensures.forM fun e he => ?_).bind fun _ => ?_
  · refine (read_keeps _).bind fun on => ?_
    refine (Ensures.setItem fun h hf => hf.putMerged (owned_of_haFields he) _).bind fun _ => ?_
    refine (read_keeps _).bind fun x => ?_
    exact Ensures.setItem fun h hf => hf.putBooleans (owned_of_haFields he) _
  refine (Ensures.forM fun e he =>
    copyItem_keeps o fun h x hf => hf.putMerged (owned_of_haFields he) x).bind fun _ => ?_
  refine (Ensures.forM fun e he =>
    copyItem_keeps o fun h x hf => hf.putMerged (owned_of_haFields he) x).bind fun _ => ?_
  refine (read_keeps _).bind fun isTruthy => ?_
  cases isTruthy with
  | true =>
    exact (copyItem_keeps o fun h x hf => hf.putMerged hfiltered x).mono fun _ h hf => hf.keeps
  | false => exact Ensures.pure fun h hf => hf.keeps

theorem applyDisconnected_keeps (c : Config) :
    Ensures (Unfilled convert before base merged) (applyDisconnectedOverlay convert c merged)
      (fun _ => Keeps convert before base merged) (Unchanged before) := by
  refine getBooleans.bind fun x => (dictOr_fills x).bind fun booleans => ?_
  refine (Ensures.forM fun e he => Ensures.setItem fun h hf =>
    hf.putBooleans (owned_of_haFields he) _).bind fun _ => ?_
  refine (Ensures.setItem fun h hf => hf.link).bind fun _ => ?_
  refine (Ensures.forM fun e he => ?_).bind fun _ => ?_
  · refine (Ensures.setItem fun h hf => hf.putMerged (owned_of_haFields he) _).bind fun _ => ?_
    exact Ensures.setItem fun h hf => hf.putBooleans (owned_of_haFields he) _
  exact (Ensures.forM fun e he => Ensures.setItem fun h hf =>
    hf.putMerged (owned_of_haFields he) _).mono fun _ h hf => hf.keeps

theorem applyIndirect_keeps (c : Config) :
    Ensures (Unfilled convert before base merged) (applyIndirect convert c merged)
      (fun _ => Keeps convert before base merged) (Unchanged before) := by
  refine getBooleans.bind fun x => (dictOr_fills x).bind fun booleans => ?_
  refine (Ensures.forM fun e he => Ensures.setItem fun h hf =>
    hf.putBooleans (owned_of_haFields he) _).bind fun _ => ?_
  exact Ensures.setItem fun h hf => hf.link.keeps

theorem Unfilled.putConnected {h : Heap} (hu : Unfilled convert before base merged h) (x : Item) :
    Unfilled convert before base merged (h.put merged connectedKey x) where
  toMerging := hu.toMerging.put (Or.inl (by decide)) x
  notSelf := by
    rw [Heap.item_put hu.allocated, if_neg (by decide)]
    exact hu.notSelf
  source := by
    rw [Heap.item_put hu.allocated, if_neg (by decide), ← hu.source]
    refine copied_congr fun r hr => Heap.fields_put_ne ?_ _ _
    rintro rfl
    exact hu.notSelf hr

theorem setDefault_unfilled (hclosed : before.Closed) :
    Ensures (fun h => h = before.push (before.fields base)) (setDefault before.size booleansKey)
      (fun _ => Unfilled convert before base before.size) (Unchanged before) := by
  have halloc : Ensures (fun h => h = before.push (before.fields base)) (alloc Dict.empty)
      (fun empty h => empty = before.size + 1 ∧
        h = (before.push (before.fields base)).push Dict.empty) (Unchanged before) := by
    refine Ensures.alloc ?_
    rintro _ rfl
    exact ⟨Heap.size_push _, rfl⟩
  refine halloc.bind fun empty => ?_
  have hmerged : ∀ k, ((before.push (before.fields base)).push Dict.empty).item before.size k =
      before.item base k := by
    intro k
    unfold Heap.item
    rw [Heap.fields_push, if_neg (by simp), Heap.fields_push, if_pos rfl]
  have hpushed : Merging before base before.size
      ((before.push (before.fields base)).push Dict.empty) := by
    refine Merging.push ⟨le_refl _, by simp, ?_, fun k _ _ => ?_⟩ _
    · exact Unchanged.push (fun _ _ => rfl) (le_refl _) _
    · unfold Heap.item
      rw [Heap.fields_push, if_pos rfl]
  refine Ensures.read.bind fun x => ?_
  cases x with
  | some x =>
    refine Ensures.pure fun h hpre => ?_
    obtain ⟨⟨-, rfl⟩, hx⟩ := hpre
    rw [hmerged] at hx
    refine ⟨hpushed, ?_, ?_⟩
    · rw [hmerged]
      intro hself
      exact absurd (hclosed _ _ _ hself) (lt_irrefl _)
    · rw [hmerged]
      exact copied_congr fun r hr => hpushed.unchanged r (hclosed _ _ _ hr)
  | none =>
    refine Ensures.setItem fun h hpre => ?_
    obtain ⟨⟨rfl, rfl⟩, hx⟩ := hpre
    rw [hmerged] at hx
    have hput := hpushed.put (Or.inr rfl) (.ref (before.size + 1))
    have hitem : (((before.push (before.fields base)).push Dict.empty).put before.size booleansKey
        (.ref (before.size + 1))).item before.size booleansKey = some (.ref (before.size + 1)) := by
      rw [Heap.item_put hpushed.allocated, if_pos rfl]
    refine ⟨hput, ?_, ?_⟩
    · rw [hitem]
      intro hself
      simp at hself
    · rw [hitem, ← hx]
      have hfields : (((before.push (before.fields base)).push Dict.empty).put before.size
          booleansKey (.ref (before.size + 1))).fields (before.size + 1) = Dict.empty := by
        rw [Heap.fields_put_ne (by omega), Heap.fields_push, if_pos (Heap.size_push _).symm]
      rw [copied_ref, hfields]
      rfl

theorem applyOverlay_keeps (c : Config) (o : Nat) :
    Ensures (Unfilled convert before base merged) (applyOverlay convert c merged o)
      (fun _ => Keeps convert before base merged) (Unchanged before) := by
  unfold applyOverlay
  cases c.isDirectMode with
  | true =>
    refine (read_keeps _).bind fun connected => ?_
    refine (Ensures.setItem fun h hu => hu.putConnected _).bind fun _ => ?_
    cases connected with
    | true => exact applyConnected_keeps c o (by decide)
    | false => exact applyDisconnected_keeps c
  | false => exact applyIndirect_keeps c

end Merging

/-- A merge keeps what Home Assistant does not own, and raises without a change. -/
theorem mergeOverlay_keeps (c : Config) (o base : Nat) {before : Heap} (hclosed : before.Closed) :
    (∀ merged, (mergeOverlay convert c o base before).1 = some merged →
      Keeps convert before base merged (mergeOverlay convert c o base before).2) ∧
        ((mergeOverlay convert c o base before).1 = none →
          Unchanged before (mergeOverlay convert c o base before).2) := by
  have halloc : ∀ fields, Ensures (fun h => h = before ∧ fields = h.fields base) (alloc fields)
      (fun merged h => merged = before.size ∧ h = before.push (before.fields base))
      (Unchanged before) := by
    intro fields
    refine Ensures.alloc ?_
    rintro _ ⟨rfl, rfl⟩
    exact ⟨rfl, rfl⟩
  have hrun : Ensures (fun h => h = before) (mergeOverlay convert c o base)
      (fun merged => Keeps convert before base merged) (Unchanged before) := by
    refine Ensures.read.bind fun fields => (halloc fields).bind fun merged => ?_
    by_cases hmerged : merged = before.size
    · subst hmerged
      have hdefault : Ensures (fun h => h = before.push (before.fields base))
          (setDefault before.size booleansKey)
          (fun _ => Unfilled convert before base before.size) (Unchanged before) :=
        setDefault_unfilled hclosed
      refine (hdefault.weaken fun _ h => h.2).bind fun _ => ?_
      exact (applyOverlay_keeps c o).bind fun _ => Ensures.pure fun _ h => h
    · exact Ensures.never fun h hpre => hmerged hpre.1
  exact hrun before rfl

/-- Two merged states have the same native and controller fields and control flags. -/
def Agree (merged : Nat) (h : Heap) (merged' : Nat) (h' : Heap) : Prop :=
  (∀ k ∈ mqttOwnedKeys, k ≠ booleansKey → h.item merged k = h'.item merged' k) ∧
    ∀ f ∈ controlFlagKeys, flag convert h merged f = flag convert h' merged' f

/-- **Home Assistant does not interfere.** -/
theorem merge_overlay_keeps (c : Config) (o base : Nat) {before : Heap} (hclosed : before.Closed) :
    Unchanged before (mergeOverlay convert c o base before).2 ∧
      (∀ merged, (mergeOverlay convert c o base before).1 = some merged →
        Keeps convert before base merged (mergeOverlay convert c o base before).2) ∧
          ∀ (c' : Config) (o' merged merged' : Nat),
            (mergeOverlay convert c o base before).1 = some merged →
            (mergeOverlay convert c' o' base before).1 = some merged' →
              Agree convert merged (mergeOverlay convert c o base before).2
                merged' (mergeOverlay convert c' o' base before).2 := by
  obtain ⟨hkeeps, hraised⟩ := mergeOverlay_keeps convert c o base hclosed
  refine ⟨?_, hkeeps, fun c' o' merged merged' h h' => ⟨fun k hk hne => ?_, fun f hf => ?_⟩⟩
  · cases hresult : (mergeOverlay convert c o base before).1 with
    | none => exact hraised hresult
    | some merged => exact (hkeeps merged hresult).unchanged
  · have hother := (mergeOverlay_keeps convert c' o' base hclosed).1 merged' h'
    rw [(hkeeps merged h).owned k hk hne, hother.owned k hk hne]
  · have hother := (mergeOverlay_keeps convert c' o' base hclosed).1 merged' h'
    rw [(hkeeps merged h).flags f hf, hother.flags f hf]

/-! ## A mapping of native names -/

/-- A configuration that maps a native field and a control flag. -/
def mirrors : Config where
  configured := true
  direct := true
  booleanEntities := ⟨[(Str.lit "no_feed", .str (Str.lit "input_boolean.no_feed")),
    (Str.lit "holiday", .str (Str.lit "input_boolean.holiday"))], by decide⟩
  switchEntities := Dict.empty
  applianceEntities := Dict.empty
  sensorEntities := ⟨[(Str.lit "battery_soc", .str (Str.lit "sensor.old_soc"))], by decide⟩
  filteredEntities := Dict.empty

/-- A state, its booleans, and an overlay that contradicts them. -/
def mirrored : Heap where
  cells := [
    ⟨[(booleansKey, .ref 1), (Str.lit "battery_soc", .value (.int 55))], by decide⟩,
    ⟨[(Str.lit "no_feed", .value (.bool false))], by decide⟩,
    ⟨[(booleansKey, .ref 3), (connectedKey, .value (.bool true)),
      (Str.lit "battery_soc", .value (.int 100))], by decide⟩,
    ⟨[(Str.lit "no_feed", .value (.bool true)), (Str.lit "holiday", .value (.bool true))],
      by decide⟩]

theorem mirrored_closed : mirrored.Closed := by
  apply Heap.closed_of_entries
  intro fields hfields e he i hi
  simp only [mirrored, List.mem_cons, List.not_mem_nil, or_false] at hfields
  show i < 4
  rcases hfields with rfl | rfl | rfl | rfl <;>
    simp only [List.mem_cons, List.not_mem_nil, or_false] at he <;>
    grind

/-- The overlay contradicts a native field and a flag, and neither changes. -/
theorem merge_overlay_keeps_mirrored : ∃ merged,
    (mergeOverlay (fun _ => none) mirrors 2 0 mirrored).1 = some merged ∧
      Keeps (fun _ => none) mirrored 0 merged (mergeOverlay (fun _ => none) mirrors 2 0 mirrored).2 :=
  ⟨4, rfl, (merge_overlay_keeps (fun _ => none) mirrors 2 0 mirrored_closed).2.1 4 rfl⟩

end InverterDashboard.HomeAssistant
