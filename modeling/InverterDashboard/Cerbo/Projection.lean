import InverterDashboard.Python.Repr
import InverterDashboard.Cerbo.Listing

/-
  The overlay: every tile the native leaves project to, computed from the sorted listings.

  Each function is the source's function of the same name. Those that assign to `out` take and
  return it. Only `applyEvWater` sees more than the listings: whether a kind was ever stored and
  which keys are claimed decide if an empty collection is written out or left absent.
-/

namespace InverterDashboard.Cerbo

open Python

/-! ## Numbers and texts -/

/-- A float as a value, and `None` for a missing one. -/
def ofNumber : Option ℚ → Value
  | some q => .float (.fin q)
  | none => .none

/-- `int(x)` of a finite float. -/
def trunc (q : ℚ) : Int := q.num.tdiv q.den

/-- `x.is_integer()`. -/
def isInteger (q : ℚ) : Bool := q.den = 1

/-- `if value is not None: out[key] = value`. -/
def putNumber (out : Object) (key : Str) (q : Option ℚ) : Object :=
  match q with
  | some q => out.set key (.float (.fin q))
  | none => out

/-- `_first_number`. -/
def firstNumber (values : List Value) : Option ℚ := values.findSome? number

/-- `_sum_known`. -/
def sumKnown (values : List Value) : Option ℚ :=
  let known := values.filterMap number
  if known.isEmpty then none else (Float64.sum (known.map .fin)).finite?

/-- `_text`. -/
def text : Value → Option Str
  | .str s => if s.strip.isEmpty then none else some s.strip
  | _ => none

/-- `f"{a}{i}{b}"` for the phase `i`. -/
def phasePath (a : String) (i : Str) (b : String) : Str := Str.lit a ++ i ++ Str.lit b

/-- `_power`. -/
def power (leaves : Leaves) : Option ℚ :=
  match leaves.number veAcPowerPath with
  | some total => some total
  | none => sumKnown (phases.map fun i => leaves.value (phasePath "Ac/L" i "/Power"))

/-- The name a service shows: custom name, else product name. -/
def serviceName (leaves : Leaves) : Option Str :=
  (text (leaves.value (Str.lit "CustomName"))).or (text (leaves.value (Str.lit "ProductName")))

/-- `_identity`. -/
def identity (inst : Str) (leaves : Leaves) : Object :=
  let result := Dict.empty.set (Str.lit "instance") (.str inst)
  let result := match serviceName leaves with
    | some name => result.set (Str.lit "name") (.str name)
    | none => result
  match text (leaves.value (Str.lit "Serial")) with
  | some serial => result.set (Str.lit "serial") (.str serial)
  | none => result

/-- `state_from_current`. -/
def stateFromCurrent (amps : ℚ) : Str :=
  if amps > 1 / 2 then Str.lit "Charging"
  else if amps < -1 / 2 then Str.lit "Discharging"
  else Str.lit "Idle"

/-- The bank's voltage span, `54.4 - 40.0` in floats. -/
def bankSpan : ℚ :=
  ((Float64.sub (Float64.ofRat (544 / 10)) (.fin 40)).finite?).getD 1

/-- `min(100.0, max(0.0, x))`; a NaN loses both comparisons. -/
def clampPercent : Float64 → ℚ
  | .nan => 0
  | .inf negative => if negative then 0 else 100
  | .fin q => min 100 (max 0 q)

/-- `voltage_soc`. -/
def voltageSoc (voltage : ℚ) : Int :=
  let ratio := Float64.divFin (Float64.sub (.fin voltage) (.fin 40)) bankSpan
  let percent := clampPercent (Float64.mul ratio (.fin 100))
  (((Float64.ofRat (percent + 1 / 2)).finite?).getD percent).floor

/-- `dict(devices).get(instance, {})`. -/
def lookup (devices : Listing) (inst : Str) : Leaves := (Dict.find inst devices).getD .absent

/-- `devices[0][1] if devices else {}`. -/
def first (devices : Listing) : Leaves := (devices.head?.map Prod.snd).getD .absent

/-- `dict(devices).get("0", devices[0][1] if devices else {})`. -/
def zeroOrFirst (devices : Listing) : Leaves :=
  (Dict.find (Str.lit "0") devices).getD (first devices)

/-! ## AC phases -/

/-- `_apply_ac_phase`. -/
def applyAcPhase (out : Object) (system vebus grid : Leaves) (useInput : Bool) (i : Str) :
    Object :=
  let path := phasePath "Ac/Grid/L" i "/Power"
  let value :=
    if system.has path then system.number path
    else firstNumber [grid.value (phasePath "Ac/L" i "/Power"),
      if useInput then vebus.value (phasePath "Ac/ActiveIn/L" i "/P") else .none,
      if useInput then vebus.value (phasePath "Ac/ActiveIn/L" i "/Power") else .none]
  let out :=
    if system.has path || value.isSome then
      (out.set (phasePath "grid_l" i "_available") (.bool value.isSome)).set (Str.lit "g" ++ i)
        (ofNumber value)
    else out
  let consumption := sumKnown [system.value (phasePath "Ac/ConsumptionOnInput/L" i "/Power"),
    system.value (phasePath "Ac/ConsumptionOnOutput/L" i "/Power")]
  putNumber out (Str.lit "t" ++ i)
    (firstNumber [system.value (phasePath "Ac/Consumption/L" i "/Power"), ofNumber consumption])

/-- `_apply_ac`. -/
def applyAc (out : Object) (system vebus : Leaves) (meters : Listing) : Object :=
  let grid := first meters
  let inputSource := vebus.number (Str.lit "Ac/ActiveIn/ActiveInput")
  let connected := vebus.number (Str.lit "Ac/ActiveIn/Connected")
  let source := system.number (Str.lit "Ac/ActiveIn/Source")
  -- A disconnected AC input must not supply a stale grid fallback.
  let useInput : Bool :=
    connected ≠ some 0 ∧ inputSource ≠ some 240 ∧ (source = some 1 ∨ source = some 3)
  let out := phases.foldl (fun out i => applyAcPhase out system vebus grid useInput i) out
  let published := phases.any fun i => system.has (phasePath "Ac/Grid/L" i "/Power")
  let total := sumKnown (phases.map fun i => out.getD (Str.lit "g" ++ i))
  -- A meter aggregate is useful when no phase powers were published.
  let total := if total.isNone && !published then power grid else total
  let out := match total with
    | some q => (out.set (Str.lit "gt") (.float (.fin q))).set (Str.lit "grid_available")
        (.bool true)
    | none =>
      if published then out.set (Str.lit "grid_available") (.bool false)
      else match connected with
        | some c => out.set (Str.lit "grid_available") (.bool (c ≠ 0))
        | none => out
  putNumber out (Str.lit "tt") (sumKnown (phases.map fun i => out.getD (Str.lit "t" ++ i)))

/-! ## Batteries -/

/-- `str(value)` of a cell id: a text, or a number. -/
def cellId (value : Value) : Option Str :=
  match value with
  | .str s => some s
  | .int i => (number value).map fun _ => intStr i
  | .float x => (number value).map fun _ => x.repr
  | _ => none

/-- The runtime of a battery as a text. -/
def timeToGo (seconds : ℚ) : Str :=
  let minutes := trunc (((Float64.ofRat (seconds / 60)).finite?).getD seconds)
  let rest := intStr (minutes % 60)
  intStr (minutes / 60) ++ Str.lit "h " ++ Float64.zeros (2 - rest.length) ++ rest ++ Str.lit "m"

/-- `_battery_entry`. -/
def batteryEntry (inst : Str) (leaves : Leaves) : Object :=
  let entry := batteryPaths.foldl (fun entry p => putNumber entry p.2 (leaves.number p.1))
    (identity inst leaves)
  let entry := [(veMinVoltageCellPath, Str.lit "min_voltage_cell_id"),
      (veMaxVoltageCellPath, Str.lit "max_voltage_cell_id")].foldl (fun entry p =>
    match cellId (leaves.value p.1) with
    | some s => entry.set p.2 (.str s)
    | none => entry) entry
  let current := number (entry.getD (Str.lit "current"))
  let voltage := number (entry.getD (Str.lit "voltage"))
  let entry := match current with
    | some amps => entry.set (Str.lit "state") (.str (stateFromCurrent amps))
    | none => entry
  let entry := match voltage, current with
    | some v, some c =>
      if entry.has (Str.lit "power") then entry
      else putNumber entry (Str.lit "power") (Float64.mul (.fin v) (.fin c)).finite?
    | _, _ => entry
  match number (entry.getD (Str.lit "time_to_go_seconds")) with
  | some seconds =>
    if 0 ≤ seconds then entry.set (Str.lit "time_to_go") (.str (timeToGo seconds)) else entry
  | none => entry

/-- The entries of a kind that show more than their instance. -/
def entriesOf (entry : Str → Leaves → Object) (devices : Listing) : List (Str × Object) :=
  (devices.map fun d => (d.1, entry d.1 d.2)).filter fun e => 1 < e.2.entries.length

/-- A list of entries as a value. -/
def entryValues (entries : List (Str × Object)) : Value :=
  .list (entries.map fun e => .dict e.2.entries)

/-- `"shunt" in entry.get("name", "").lower()`. -/
def isShunt (entry : Object) : Bool :=
  match entry.get? (Str.lit "name") with
  | some (.str name) => Str.contains (Str.lit "shunt") name.lower
  | _ => false

/-- `_apply_bank_shunt`. -/
def applyBankShunt (out : Object) (system : Leaves) (batteries : List Object) : Object :=
  let shunts := batteries.filter isShunt
  let shunt := (shunts.find? fun e => e.has (Str.lit "voltage")).or shunts.head?
  let entry := shunt.getD Dict.empty
  let out := match firstNumber [entry.getD (Str.lit "voltage"),
      system.value (Str.lit "Dc/Battery/Voltage")] with
    | some v => (out.set (Str.lit "battery_soc") (.int (voltageSoc v))).set
        (Str.lit "battery_voltage") (.float (.fin v))
    | none => out
  let out := match entry.get? (Str.lit "current") with
    | some v => out.set (Str.lit "battery_current") v
    | none => out
  match entry.get? (Str.lit "power") with
  | some v => out.set (Str.lit "battery_power") v
  | none => out

/-- `_apply_batteries`. -/
def applyBatteries (out : Object) (system : Leaves) (devices : Listing) : Object :=
  let batteries := entriesOf batteryEntry devices
  let out := if batteries.isEmpty then out
    else out.set (Str.lit "batteries") (entryValues batteries)
  -- The explicitly selected monitor, or the only battery service.
  let selected := match system.number (Str.lit "Dc/Battery/Instance") with
    | some inst => ((Dict.ofList batteries).get? (intStr (trunc inst))).getD Dict.empty
    | none => match batteries with
      | [only] => only.2
      | _ => Dict.empty
  let out := [("voltage", "Voltage"), ("current", "Current"), ("power", "Power")].foldl
    (fun out p => putNumber out (Str.lit "battery_" ++ Str.lit p.1)
      (firstNumber [system.value (Str.lit "Dc/Battery/" ++ Str.lit p.2),
        selected.getD (Str.lit p.1)])) out
  let out := applyBankShunt out system (batteries.map Prod.snd)
  [("voltage", "bv"), ("current", "bc"), ("power", "bp")].foldl
    (fun out p => match out.get? (Str.lit "battery_" ++ Str.lit p.1) with
      | some v => out.set (Str.lit p.2) v
      | none => out) out

/-! ## Solar -/

/-- `_charger_entry`. -/
def chargerEntry (inst : Str) (leaves : Leaves) : Object :=
  let entry := putNumber (identity inst leaves) (Str.lit "pv_voltage")
    (leaves.number (Str.lit "Pv/V"))
  let entry := putNumber entry (Str.lit "current") (leaves.number veDcCurrentPath)
  let product : Value := match leaves.number veDcVoltagePath, leaves.number veDcCurrentPath with
    | some v, some c => .float (Float64.mul (.fin v) (.fin c))
    | _, _ => .none
  putNumber entry (Str.lit "power")
    (firstNumber [leaves.value veYieldPowerPath, leaves.value veDcPowerPath, product])

/-- `_pv_inverter_entry`. -/
def pvInverterEntry (inst : Str) (leaves : Leaves) : Object :=
  let entry := putNumber (identity inst leaves) (Str.lit "power") (power leaves)
  let entry := putNumber entry (Str.lit "voltage") (leaves.number (Str.lit "Ac/L1/Voltage"))
  putNumber entry (Str.lit "current") (leaves.number (Str.lit "Ac/L1/Current"))

/-- `[e["power"] for e in entries if "power" in e]`. -/
def powers (entries : List (Str × Object)) : List Value :=
  entries.filterMap fun e => e.2.get? (Str.lit "power")

/-- `_apply_solar`. -/
def applySolar (out : Object) (system : Leaves) (chargerDevices inverterDevices : Listing) :
    Object :=
  let chargers := entriesOf chargerEntry chargerDevices
  let out := if chargers.isEmpty then out
    else (out.set (Str.lit "mppt_chargers") (entryValues chargers)).set (Str.lit "mppt_data")
      (entryValues chargers)
  let mppt := firstNumber [system.value (Str.lit "Dc/Pv/Power"),
    ofNumber (sumKnown (powers chargers))]
  let out := if (powers chargers).isEmpty then out
    else out.set (Str.lit "mppt_individual") (.list (powers chargers))
  let out := putNumber (putNumber out (Str.lit "mppt_total") mppt) (Str.lit "pv_total") mppt
  let inverters := entriesOf pvInverterEntry inverterDevices
  let out := if inverters.isEmpty then out
    else out.set (Str.lit "pv_inverters") (entryValues inverters)
  let out := if (powers inverters).isEmpty then out
    else (out.set (Str.lit "pv_inverter_individual") (.list (powers inverters))).set
      (Str.lit "pv_inverter_powers") (.list (powers inverters))
  let published := sumKnown (["Ac/PvOnGrid/L", "Ac/PvOnOutput/L", "Ac/PvOnGenset/L"].flatMap
    fun position => phases.map fun i => system.value (phasePath position i "/Power"))
  let acPv := firstNumber [ofNumber published, ofNumber (sumKnown (powers inverters))]
  let out := putNumber out (Str.lit "pv_inverter_total") acPv
  -- Never add a stale legacy total to a native component.
  putNumber out (Str.lit "solar_total") (sumKnown [ofNumber mppt, ofNumber acPv])

/-! ## Loads -/

/-- `_apply_loads`. -/
def applyLoads (out : Object) (devices : Listing) : Object :=
  let loads := devices.filterMap fun d => (power d.2).map fun q => (d.1, d.2, q)
  if loads.isEmpty then out
  else
    (out.set (Str.lit "loads") (.dict (loads.map fun l => (l.1, .float (.fin l.2.2))))).set
      (Str.lit "load_names") (.dict (loads.map fun l =>
        (l.1, .str ((serviceName l.2.1).getD (Str.lit "AC Load " ++ l.1)))))

/-! ## Vehicles, tank and pumps -/

/-- `_selected_ev`. -/
def selectedEv (devices : Listing) (configured : Option Int) : Leaves :=
  match configured with
  | some inst => lookup devices (intStr inst)
  | none =>
    let usable := devices.filter fun d =>
      (d.2.number (Str.lit "Soc")).isSome || (d.2.number veAcPowerPath).isSome
    if usable.isEmpty then first devices else first usable

/-- `out[f"{kind}_present"] = bool(selected)`, when the kind was ever seen. -/
def putPresent (out : Object) (seen : Bool) (key : Str) (selected : Leaves) : Object :=
  if seen then out.set key (.bool selected.nonempty) else out

/-- What decides whether an empty collection is written: the kinds ever stored, and the claims. -/
structure Seen where
  known : Kind → Bool
  claimed : List Str

/-- The vehicle's and the charger's readings. -/
def applyEvReadings (cfg : Config) (out : Object) (vehicle charger : Leaves) : Object :=
  let soc := Str.lit "Soc"
  let out := if vehicle.has soc || charger.has soc then
      out.set (Str.lit "car_soc") (ofNumber (firstNumber [vehicle.value soc,
        if cfg.evInstance.isNone then charger.value soc else .none]))
    else out
  let out := if vehicle.has veAcPowerPath then
      let power := ofNumber (vehicle.number veAcPowerPath)
      (out.set (Str.lit "ev_power") power).set (Str.lit "car_charging_power") power
    else out
  if charger.has veAcPowerPath then
    let power := charger.number veAcPowerPath
    (out.set (Str.lit "ev_charging_power") (ofNumber power)).set (Str.lit "ev_charging_kw")
      (ofNumber (power.bind fun q => (Float64.ofRat (q / 1000)).finite?))
  else out

/-- `_apply_ev`. -/
def applyEv (cfg : Config) (out : Object) (seen : Seen) (evs chargers : Listing) : Object :=
  let vehicle := selectedEv evs cfg.evInstance
  let charger := selectedEv chargers cfg.evchargerInstance
  let out := applyEvReadings cfg out vehicle charger
  let evPresent := Str.lit "ev_present"
  let chargerPresent := Str.lit "evcharger_present"
  let out := putPresent out (seen.known .ev || evPresent ∈ seen.claimed) evPresent vehicle
  putPresent out (seen.known .evcharger || chargerPresent ∈ seen.claimed) chargerPresent charger

/-- `_water_ev_device`; `none` when `int` raises. -/
def waterEvDevice (kind : Kind) (inst : Str) (leaves : Leaves) : Option Value := do
  let key ← sortKey inst
  let item := Dict.empty.set (Str.lit "kind") (.str kind.name)
  let item := (identity inst leaves).entries.foldl (fun item e => item.set e.1 e.2) item
  let item := item.set (Str.lit "instance") (match key with
    | .num n => .int n
    | .text s => .str s)
  let item := putNumber item (Str.lit "soc") (leaves.number (Str.lit "Soc"))
  return .dict (putNumber item (Str.lit "power") (leaves.number veAcPowerPath)).entries

/-- `_water_ev_inventory`. -/
def waterEvInventory (listings : List (Kind × Listing)) : Option (List Value) :=
  (listings.flatMap fun l => l.2.map fun d => (l.1, d)).mapM fun d =>
    waterEvDevice d.1 d.2.1 d.2.2

/-- One pump of `_apply_pumps`: its state, and its mode under every listed key. -/
def applyPump (out : Object) (leaves : Leaves) (key : Str) (modeKeys : List Str) : Object :=
  let leaf := if leaves.has (Str.lit "State") then Str.lit "State" else Str.lit "Status"
  let out := match leaves.number leaf with
    | some q => out.set key (.bool (1 / 2 ≤ q))
    | none => out
  match leaves.number (Str.lit "Mode") with
  | some mode =>
    if mode = 0 ∨ mode = 1 ∨ mode = 2 then
      modeKeys.foldl (fun out k => out.set k (.int (trunc mode))) out
    else out
  | none => out

/-- `_apply_pumps`. -/
def applyPumps (cfg : Config) (out : Object) (pumps : Listing) : Object :=
  let out := applyPump out (lookup pumps (intStr cfg.waterValveInstance))
    (Str.lit "water_valve") (keyList ["water_valve_mode"])
  applyPump out (lookup pumps (intStr cfg.waterPumpInstance))
    (Str.lit "pump_switch") (keyList ["pump_mode", "water_pump_mode"])

/-- `_apply_ev_water`. -/
def applyEvWater (cfg : Config) (out : Object) (seen : Seen)
    (tanks pumps evs chargers : Listing) : Option Object := do
  let tank := lookup tanks (intStr cfg.waterTankInstance)
  let out := putNumber out (Str.lit "water_level") (tank.number (Str.lit "Level"))
  let out := applyEv cfg out seen evs chargers
  let inventory ← waterEvInventory
    [(.tank, tanks), (.pump, pumps), (.ev, evs), (.evcharger, chargers)]
  let key := Str.lit "discovered_water_ev"
  let out := if !inventory.isEmpty || key ∈ seen.claimed then out.set key (.list inventory)
    else out
  return applyPumps cfg out pumps

/-! ## ESS and the inverter -/

/-- The name of an ESS mode. -/
def essModeName (mode : Int) (batteryLife : Option ℚ) : Str :=
  if mode = 3 then Str.lit "External control"
  else if mode = 1 then
    if batteryLife = some 0 ∨ batteryLife = some 10 then Str.lit "Optimized without BatteryLife"
    else if batteryLife = some 9 then Str.lit "Keep batteries charged"
    else Str.lit "Optimized (BatteryLife)"
  else Str.lit "Unknown (" ++ intStr mode ++ Str.lit ")"

/-- `_apply_ess`. -/
def applyEss (out : Object) (settings : Listing) : Object :=
  let leaves := zeroOrFirst settings
  let key := Str.lit "ess_mode"
  if essPaths.any leaves.has then
    let batteryLife := leaves.number batteryLifePath
    match leaves.number hub4ModePath with
    | none => out.set key .none
    | some hub4 =>
      if !isInteger hub4 || (hub4 = 1 && !batteryLife.any isInteger) then out.set key .none
      else
        let mode := trunc hub4
        out.set key (.dict
          [(Str.lit "hub4_mode", .int mode),
           (Str.lit "battery_life_state", match batteryLife with
              | some q => .int (trunc q)
              | none => .none),
           (Str.lit "mode_name", .str (essModeName mode batteryLife)),
           (Str.lit "is_external", .bool (mode = 3))])
  else out

/-- `INVERTER_STATES`. -/
def inverterStates : List (Int × String) :=
  [(0, "Off"), (1, "Low Power"), (2, "Fault"), (3, "Bulk"), (4, "Absorption"), (5, "Float"),
   (6, "Storage"), (7, "Equalize"), (8, "Passthru"), (9, "Inverting"), (10, "Power assist"),
   (11, "Power supply"), (252, "External control")]

def inverterStateText (code : Int) : Str :=
  match Dict.find code inverterStates with
  | some name => Str.lit name
  | none => Str.lit "? (" ++ intStr code ++ Str.lit ")"

/-- The setpoint and the state of the inverter. -/
def applyInverter (out : Object) (vebus : Leaves) : Object :=
  let out := putNumber out (Str.lit "setpoint")
    (sumKnown (phases.map fun i => vebus.value (phasePath "Hub4/L" i "/AcPowerSetpoint")))
  match vebus.number (Str.lit "State") with
  | some code => out.set (Str.lit "inverter_state") (.str (inverterStateText (trunc code)))
  | none => out

/-- The overlay of a store: the projections one after the other, in the source's order. -/
def overlay (cfg : Config) (seen : Seen) (listing : Kind → Option Listing) : Option Object := do
  let systems ← listing .system
  let system := zeroOrFirst systems
  let vebuses ← listing .vebus
  let vebus := first vebuses
  let meters ← listing .grid
  let out := applyAc Dict.empty system vebus meters
  let batteries ← listing .battery
  let out := applyBatteries out system batteries
  let chargers ← listing .solarcharger
  let inverters ← listing .pvinverter
  let out := applySolar out system chargers inverters
  let acloads ← listing .acload
  let out := applyLoads out acloads
  let tanks ← listing .tank
  let evs ← listing .ev
  let evchargers ← listing .evcharger
  let pumps ← listing .pump
  let out ← applyEvWater cfg out seen tanks pumps evs evchargers
  let settings ← listing .settings
  return applyInverter (applyEss out settings) vebus

end InverterDashboard.Cerbo
