import InverterDashboard.Python.Value

/-
  Names of the native telemetry: service kinds, leaf paths, the state keys native services own,
  and the keys an explicitly unknown leaf claims.

  A service leaf is addressed by kind, instance and path. `validPathValue` and `knownPath` are
  the two filters both transports apply before a leaf is stored.
-/

namespace InverterDashboard.Cerbo

open Python

/-! ## Configuration -/

/-- The settings the native reducer reads. -/
structure Config where
  waterTankInstance : Int
  waterPumpInstance : Int
  waterValveInstance : Int
  evInstance : Option Int
  evchargerInstance : Option Int

/-- The shipped configuration. -/
def Config.default : Config := ⟨21, 1, 2, none, none⟩

/-! ## Service kinds -/

inductive Kind where
  | system | grid | battery | solarcharger | pvinverter | vebus | acload | tank | pump | ev
  | evcharger | settings
  deriving DecidableEq

/-- `CERBO_KINDS`. -/
def cerboKinds : List Kind :=
  [.system, .grid, .battery, .solarcharger, .pvinverter, .vebus, .acload, .tank, .pump, .ev,
   .evcharger, .settings]

def Kind.name : Kind → Str
  | .system => Str.lit "system"
  | .grid => Str.lit "grid"
  | .battery => Str.lit "battery"
  | .solarcharger => Str.lit "solarcharger"
  | .pvinverter => Str.lit "pvinverter"
  | .vebus => Str.lit "vebus"
  | .acload => Str.lit "acload"
  | .tank => Str.lit "tank"
  | .pump => Str.lit "pump"
  | .ev => Str.lit "ev"
  | .evcharger => Str.lit "evcharger"
  | .settings => Str.lit "settings"

/-- The kind a topic segment names, when it is one of `cerboKinds`. -/
def Kind.ofName? (s : Str) : Option Kind := cerboKinds.find? fun k => k.name = s

theorem Kind.mem_cerboKinds (k : Kind) : k ∈ cerboKinds := by
  cases k <;> decide

theorem Kind.name_injective : Function.Injective Kind.name := by
  intro a b h
  cases a <;> cases b <;> first | rfl | exact absurd h (by simp [Kind.name])

theorem Kind.ofName?_eq_some {s : Str} {k : Kind} : Kind.ofName? s = some k ↔ k.name = s := by
  constructor
  · intro h
    simpa using List.find?_some h
  · rintro rfl
    unfold Kind.ofName?
    cases h : cerboKinds.find? fun j => j.name = k.name with
    | none =>
      have := List.find?_eq_none.mp h k (Kind.mem_cerboKinds k)
      simp at this
    | some j =>
      have hj : j.name = k.name := by simpa using List.find?_some h
      rw [Kind.name_injective hj]

/-! ## State keys -/

def keyList (names : List String) : List Str := names.map Str.lit

/-- `NATIVE_EV_KEYS`. -/
def nativeEvKeys : List Str := keyList
  ["car_soc", "ev_power", "car_charging_power", "ev_charging_kw", "ev_charging_power",
   "ev_present", "evcharger_present", "discovered_water_ev"]

/-- `NATIVE_SECTION_KEYS`. -/
def nativeSectionKeys : List Str := nativeEvKeys ++ keyList
  ["battery_soc", "loads", "load_names", "water_level", "water_valve", "pump_switch",
   "water_valve_mode", "pump_mode", "water_pump_mode"]

/-- `CERBO_OWNED_KEYS`. -/
def cerboOwnedKeys : List Str := keyList
  ["g1", "g2", "g3", "gt", "t1", "t2", "t3", "tt", "grid_available", "grid_l1_available",
   "grid_l2_available", "grid_l3_available", "bv", "bc", "bp", "battery_soc", "battery_power",
   "battery_voltage", "battery_current", "batteries", "solar_total", "pv_total", "mppt_total",
   "mppt_data", "mppt_individual", "mppt_chargers", "pv_inverter_total",
   "pv_inverter_individual", "pv_inverter_powers", "pv_inverters", "loads", "load_names",
   "setpoint", "inverter_state", "ev_power", "car_charging_power", "car_soc", "ev_charging_kw",
   "ev_charging_power", "ev_present", "evcharger_present", "discovered_water_ev", "ess_mode",
   "water_level", "water_valve", "pump_switch", "water_valve_mode", "pump_mode",
   "water_pump_mode"]

/-- `COLLECTION_DEFAULTS`. -/
def collectionDefaults : List (Str × Value) :=
  [(Str.lit "batteries", .list []), (Str.lit "mppt_chargers", .list []),
   (Str.lit "mppt_data", .list []), (Str.lit "mppt_individual", .list []),
   (Str.lit "pv_inverters", .list []), (Str.lit "pv_inverter_individual", .list []),
   (Str.lit "pv_inverter_powers", .list []), (Str.lit "loads", .dict []),
   (Str.lit "load_names", .dict []), (Str.lit "discovered_water_ev", .list []),
   (Str.lit "ev_present", .bool false), (Str.lit "evcharger_present", .bool false)]

/-- `COLLECTION_DEFAULTS.get(key)`. -/
def collectionDefault (key : Str) : Value := Value.member key collectionDefaults

/-! ## Leaf paths -/

def phases : List Str := [Str.lit "1", Str.lit "2", Str.lit "3"]

def veDcVoltagePath : Str := Str.lit "Dc/0/Voltage"
def veDcCurrentPath : Str := Str.lit "Dc/0/Current"
def veDcPowerPath : Str := Str.lit "Dc/0/Power"
def veMinVoltageCellPath : Str := Str.lit "System/MinVoltageCellId"
def veMaxVoltageCellPath : Str := Str.lit "System/MaxVoltageCellId"
def veAcPowerPath : Str := Str.lit "Ac/Power"
def veYieldPowerPath : Str := Str.lit "Yield/Power"

/-- `ESS_PATHS`. -/
def hub4ModePath : Str := Str.lit "Settings/CGwacs/Hub4Mode"
def batteryLifePath : Str := Str.lit "Settings/CGwacs/BatteryLife/State"
def essPaths : List Str := [hub4ModePath, batteryLifePath]

/-- `BATTERY_PATHS`, in order. -/
def batteryPaths : List (Str × Str) :=
  [(Str.lit "Soc", Str.lit "soc"), (veDcVoltagePath, Str.lit "voltage"),
   (veDcCurrentPath, Str.lit "current"), (veDcPowerPath, Str.lit "power"),
   (Str.lit "Dc/0/Temperature", Str.lit "temperature"),
   (Str.lit "System/MinCellVoltage", Str.lit "min_cell_voltage"),
   (Str.lit "System/MaxCellVoltage", Str.lit "max_cell_voltage"),
   (Str.lit "TimeToGo", Str.lit "time_to_go_seconds"),
   (Str.lit "ConsumedAmphours", Str.lit "consumed_amphours"),
   (Str.lit "InstalledCapacity", Str.lit "capacity")]

/-- Numbers are JSON numbers with a finite float value; booleans and texts are not watts. -/
def number : Value → Option ℚ
  | .int i => (Float64.ofRat i).finite?
  | .float x => x.finite?
  | _ => none

/-- `number(value) in (0, 1, 2)`. -/
def isMode (v : Value) : Bool :=
  match number v with
  | some q => q = 0 ∨ q = 1 ∨ q = 2
  | none => false

/-- `number(value) == 1`. -/
def isConnected (v : Value) : Bool := number v = some 1

def startsWith (s : Str) (p : String) : Bool := (Str.lit p).isPrefixOf s
def endsWith (s : Str) (p : String) : Bool := (Str.lit p).isSuffixOf s

/-- `_valid_path_value`. The kind plays no part in it. -/
def validPathValue (path : Str) (value : Value) : Bool :=
  -- An invalid connection flag is stored: it must invalidate an earlier connected device.
  if path = Str.lit "Connected" then true
  else if value.isNone || (number value).isSome then true
  else match value with
    | .str _ => path ∈ [Str.lit "CustomName", Str.lit "ProductName", Str.lit "Serial",
        veMinVoltageCellPath, veMaxVoltageCellPath, Str.lit "BatteryService",
        Str.lit "ActiveBatteryService", Str.lit "AutoSelectedBatteryService"]
    | _ => false

/-- `_known_path`. -/
def knownPath (kind : Kind) (path : Str) : Bool :=
  if path ∈ [Str.lit "ProductName", Str.lit "CustomName", Str.lit "Serial",
      Str.lit "Connected"] then true
  else match kind with
    | .battery => path ∈ batteryPaths.map Prod.fst ||
        path ∈ [veMinVoltageCellPath, veMaxVoltageCellPath, Str.lit "State"]
    | .system => startsWith path "Ac/" || startsWith path "Dc/Battery/" ||
        startsWith path "Dc/Pv/" || path ∈ [Str.lit "BatteryService",
          Str.lit "ActiveBatteryService", Str.lit "AutoSelectedBatteryService"]
    | .solarcharger => path ∈ [veYieldPowerPath, veDcPowerPath, veDcVoltagePath,
        veDcCurrentPath, Str.lit "Pv/V"]
    | .acload | .pvinverter | .grid => startsWith path "Ac/"
    | .vebus => startsWith path "Ac/" || startsWith path "Hub4/" || startsWith path "Dc/" ||
        path ∈ [Str.lit "State", Str.lit "Mode"]
    | .tank => path = Str.lit "Level"
    | .pump => path ∈ [Str.lit "State", Str.lit "Status", Str.lit "Mode"]
    | .settings => path ∈ essPaths
    | .ev | .evcharger => path ∈ [Str.lit "Soc", veAcPowerPath]

/-! ## Keys an explicit null claims -/

/-- `_invalid_grid_keys`. -/
def invalidGridKeys (kind : Kind) (path : Str) : List Str :=
  (phases.flatMap fun i =>
    if path = Str.lit "Ac/L" ++ i ++ Str.lit "/Power" ∨
        path = Str.lit "Ac/ActiveIn/L" ++ i ++ Str.lit "/Power" ∨
        path = Str.lit "Ac/ActiveIn/L" ++ i ++ Str.lit "/P" then
      [Str.lit "g" ++ i, Str.lit "gt"]
    else []) ++
  if kind = .grid ∧ path = veAcPowerPath then [Str.lit "gt"] else []

/-- `_invalid_water_keys`. -/
def invalidWaterKeys (cfg : Config) (inst path : Str) : List Str :=
  if inst = intStr cfg.waterPumpInstance then
    if path = Str.lit "Mode" then keyList ["pump_mode", "water_pump_mode"]
    else keyList ["pump_switch"]
  else if inst = intStr cfg.waterValveInstance then
    if path = Str.lit "Mode" then keyList ["water_valve_mode"] else keyList ["water_valve"]
  else []

/-- `_invalid_system_keys`. -/
def invalidSystemKeys (path : Str) : List Str :=
  (phases.flatMap fun i =>
    (if path = Str.lit "Ac/Grid/L" ++ i ++ Str.lit "/Power" then
      [Str.lit "g" ++ i, Str.lit "gt"] else []) ++
    (if path = Str.lit "Ac/Consumption/L" ++ i ++ Str.lit "/Power" ∨
        path = Str.lit "Ac/ConsumptionOnInput/L" ++ i ++ Str.lit "/Power" ∨
        path = Str.lit "Ac/ConsumptionOnOutput/L" ++ i ++ Str.lit "/Power" then
      [Str.lit "t" ++ i, Str.lit "tt"] else [])) ++
  (if path = Str.lit "Dc/Pv/Power" then keyList ["mppt_total", "pv_total", "solar_total"]
    else []) ++
  (if startsWith path "Ac/PvOn" && endsWith path "/Power" then
    keyList ["pv_inverter_total", "solar_total"] else [])

/-- `_invalid_battery_keys`. -/
def invalidBatteryKeys (kind : Kind) (path : Str) : List Str :=
  let base : Str := if kind = .system then Str.lit "Dc/Battery/" else Str.lit "Dc/0/"
  (if path = base ++ Str.lit "Voltage" then keyList ["battery_soc"] else []) ++
  (if path = (if kind = .battery then Str.lit "Soc" else base ++ Str.lit "Soc") then
    keyList ["battery_soc"] else []) ++
  (if path = base ++ Str.lit "Voltage" then keyList ["battery_voltage", "bv"] else []) ++
  (if path = base ++ Str.lit "Current" then keyList ["battery_current", "bc"] else []) ++
  (if path = base ++ Str.lit "Power" then keyList ["battery_power", "bp"] else [])

/-- `_invalid_service_keys`. -/
def invalidServiceKeys (kind : Kind) (path : Str) : List Str :=
  match kind with
  | .solarcharger =>
    if path = veYieldPowerPath ∨ path = veDcPowerPath then
      keyList ["mppt_total", "pv_total", "solar_total"] else []
  | .pvinverter =>
    if endsWith path "/Power" then keyList ["pv_inverter_total", "solar_total"] else []
  | .vebus =>
    (if path = Str.lit "State" then keyList ["inverter_state"] else []) ++
    (if startsWith path "Hub4/" && endsWith path "/AcPowerSetpoint" then
      keyList ["setpoint"] else [])
  | .ev =>
    (if path = Str.lit "Soc" then keyList ["car_soc"] else []) ++
    (if path = veAcPowerPath then keyList ["ev_power", "car_charging_power"] else [])
  | .evcharger =>
    (if path = veAcPowerPath then keyList ["ev_charging_kw", "ev_charging_power"] else []) ++
    (if path = Str.lit "Soc" then keyList ["car_soc"] else [])
  | .tank => if path = Str.lit "Level" then keyList ["water_level"] else []
  | _ => []

/-- The pinned instance of a kind that has one: `selected_instances`. -/
def selectedInstance (cfg : Config) : Kind → Option Int
  | .tank => some cfg.waterTankInstance
  | .ev => cfg.evInstance
  | .evcharger => cfg.evchargerInstance
  | _ => none

/-- `_claim_invalid_leaf`: the keys an explicitly unknown leaf claims, even before a sample. -/
def invalidLeafKeys (cfg : Config) (kind : Kind) (inst path : Str) : List Str :=
  if (selectedInstance cfg kind).any fun i => inst ≠ intStr i then []
  else
    (if kind = .grid ∨ kind = .vebus then invalidGridKeys kind path else []) ++
    (if kind = .pump then invalidWaterKeys cfg inst path else []) ++
    (if kind = .system then invalidSystemKeys path else []) ++
    (if kind = .battery ∨ kind = .system then invalidBatteryKeys kind path else []) ++
    invalidServiceKeys kind path ++
    (if kind = .settings ∧ path ∈ essPaths then keyList ["ess_mode"] else [])

/-! ## Claimed keys are owned -/

/-- All keys belong to the native side. -/
def Owned (ks : List Str) : Prop := ∀ k ∈ ks, k ∈ cerboOwnedKeys

namespace Owned

instance (ks : List Str) : Decidable (Owned ks) :=
  inferInstanceAs (Decidable (∀ k ∈ ks, k ∈ cerboOwnedKeys))

theorem nil : Owned [] := fun _ h => absurd h List.not_mem_nil

theorem append {a b : List Str} (ha : Owned a) (hb : Owned b) : Owned (a ++ b) :=
  fun k hk => (List.mem_append.mp hk).elim (ha k) (hb k)

theorem ite {c : Prop} [Decidable c] {a b : List Str} (ha : Owned a) (hb : Owned b) :
    Owned (if c then a else b) := by
  split
  · exact ha
  · exact hb

theorem phases {f : Str → List Str} (h : ∀ i ∈ phases, Owned (f i)) :
    Owned (Cerbo.phases.flatMap f) := by
  intro k hk
  obtain ⟨i, hi, hk⟩ := List.mem_flatMap.mp hk
  exact h i hi k hk

end Owned

theorem invalidGridKeys_owned (kind : Kind) (path : Str) : Owned (invalidGridKeys kind path) := by
  have hg : ∀ i ∈ phases, Owned [Str.lit "g" ++ i, Str.lit "gt"] := by decide
  unfold invalidGridKeys
  exact .append (.phases fun i hi => .ite (hg i hi) .nil) (.ite (by decide) .nil)

theorem invalidWaterKeys_owned (cfg : Config) (inst path : Str) :
    Owned (invalidWaterKeys cfg inst path) := by
  unfold invalidWaterKeys
  exact .ite (.ite (by decide) (by decide)) (.ite (.ite (by decide) (by decide)) .nil)

theorem invalidSystemKeys_owned (path : Str) : Owned (invalidSystemKeys path) := by
  have hg : ∀ i ∈ phases, Owned [Str.lit "g" ++ i, Str.lit "gt"] := by decide
  have ht : ∀ i ∈ phases, Owned [Str.lit "t" ++ i, Str.lit "tt"] := by decide
  unfold invalidSystemKeys
  refine .append (.append (.phases fun i hi => ?_) (.ite (by decide) .nil))
    (.ite (by decide) .nil)
  exact .append (.ite (hg i hi) .nil) (.ite (ht i hi) .nil)

theorem invalidBatteryKeys_owned (kind : Kind) (path : Str) :
    Owned (invalidBatteryKeys kind path) := by
  unfold invalidBatteryKeys
  exact .append (.append (.append (.append (.ite (by decide) .nil) (.ite (by decide) .nil))
    (.ite (by decide) .nil)) (.ite (by decide) .nil)) (.ite (by decide) .nil)

theorem invalidServiceKeys_owned (kind : Kind) (path : Str) :
    Owned (invalidServiceKeys kind path) := by
  unfold invalidServiceKeys
  cases kind with
  | solarcharger | pvinverter | tank => exact .ite (by decide) .nil
  | vebus | ev | evcharger => exact .append (.ite (by decide) .nil) (.ite (by decide) .nil)
  | _ => exact .nil

/-- A null leaf claims owned keys only. -/
theorem invalidLeafKeys_owned (cfg : Config) (kind : Kind) (inst path : Str) :
    Owned (invalidLeafKeys cfg kind inst path) := by
  unfold invalidLeafKeys
  refine .ite .nil (.append (.append (.append (.append (.append ?_ ?_) ?_) ?_) ?_)
    (.ite (by decide) .nil))
  · exact .ite (invalidGridKeys_owned kind path) .nil
  · exact .ite (invalidWaterKeys_owned cfg inst path) .nil
  · exact .ite (invalidSystemKeys_owned path) .nil
  · exact .ite (invalidBatteryKeys_owned kind path) .nil
  · exact invalidServiceKeys_owned kind path

end InverterDashboard.Cerbo
