import InverterDashboard.Settings.Soundness
import Mathlib.Logic.Function.Basic

/-
  Which connection values are in force after a start.

  A save writes all settings, the defaults of its environment included. A later start in another
  environment takes them for saved values: a key that was never set keeps following the environment
  exactly when its default could not be stored, is empty or did not change (`unrelated_kept_iff`).
-/

namespace InverterDashboard.Settings

open Python Json

/-! ## Start -/

inductive ConnectionKey where
  | mqttHost | mqttPort | mqttUsername | mqttPassword | haUrl | haToken
  deriving DecidableEq

def ConnectionKey.setting : ConnectionKey → Str × Kind
  | .mqttHost => (Str.lit "mqtt_host", .str)
  | .mqttPort => portSetting
  | .mqttUsername => (Str.lit "mqtt_username", .str)
  | .mqttPassword => (Str.lit "mqtt_password", .str)
  | .haUrl => (Str.lit "ha_url", .str)
  | .haToken => (Str.lit "ha_token", .str)

/-- The key of a setting. -/
def ConnectionKey.key (k : ConnectionKey) : Str := k.setting.1

theorem ConnectionKey.setting_mem (k : ConnectionKey) : k.setting ∈ allowedKeys := by
  cases k <;> decide

/-- What a process starts with: its configuration, and the credentials of the HA file. -/
structure Environment where
  config : Config
  haUrl : Str
  haToken : Str

/-- The connection values of a process. -/
abbrev Connection := ConnectionKey → Value

/-- The values before the settings file. -/
def Environment.connection (e : Environment) : Connection
  | .mqttHost => .str e.config.mqttHost
  | .mqttPort => .int e.config.mqttPort
  | .mqttUsername => .str e.config.mqttUsername
  | .mqttPassword => .str e.config.mqttPassword
  | .haUrl => .str e.haUrl
  | .haToken => .str e.haToken

/-- `_CONFIG_ATTRS`. -/
def configAttrs : List ConnectionKey := [.mqttHost, .mqttPort, .mqttUsername, .mqttPassword]

/-- `val not in (None, "") and val != DEFAULTS.get(key)`. -/
def overrides (c : Config) (k : ConnectionKey) (val : Value) : Bool :=
  !val.isNone && !val.eqv (.str []) && !val.eqv (default c k.key)

/-- A step of the loop over `_CONFIG_ATTRS`. -/
def applyOverride (c : Config) (loaded : Object) (conn : Connection) (k : ConnectionKey) :
    Connection :=
  let val := (loaded.get? k.key).getD .none
  if overrides c k val then Function.update conn k val else conn

/-- `url.rstrip("/")`. -/
def rstripSlash : Value → Value
  | .str s => .str (s.reverse.dropWhile (· = slash)).reverse
  | v => v

/-- `override_credentials`, with what is not empty. -/
def overrideCredentials (url token : Value) (conn : Connection) : Connection :=
  let conn := if url.truthy then Function.update conn .haUrl (rstripSlash url) else conn
  if token.truthy then Function.update conn .haToken token else conn

/-- What the loaded settings make of the values. -/
def applyLoaded (e : Environment) (loaded : Object) : Connection :=
  let conn := configAttrs.foldl (applyOverride e.config loaded) e.connection
  let url := (loaded.get? ConnectionKey.haUrl.key).getD .none
  let token := (loaded.get? ConnectionKey.haToken.key).getD .none
  if url.truthy || token.truthy then overrideCredentials url token conn else conn

/-- `apply_connection_overrides`: the values in force. -/
def applyConnectionOverrides (rt : Runtime) (e : Environment) (file : File) :
    Except Failed Connection :=
  match loadSettings rt e.config file false with
  | .ok loaded => .ok (applyLoaded e loaded)
  | .error err => .error err

/-- The value of a key in force after a start. -/
def inForce (rt : Runtime) (e : Environment) (file : File) (k : ConnectionKey) : Except Failed Value :=
  (applyConnectionOverrides rt e file).map fun conn => conn k

/-! ## One key -/

/-- The value of a key, from what is loaded for it. -/
def chosen (e : Environment) (k : ConnectionKey) (val : Value) : Value :=
  match k with
  | .haUrl => if val.truthy then rstripSlash val else e.connection .haUrl
  | .haToken => if val.truthy then val else e.connection .haToken
  | k => if overrides e.config k val then val else e.connection k

theorem foldl_applyOverride (c : Config) (loaded : Object) (keys : List ConnectionKey)
    (conn : Connection) (k : ConnectionKey) :
    keys.foldl (applyOverride c loaded) conn k =
      if k ∈ keys ∧ overrides c k ((loaded.get? k.key).getD .none) = true then
        (loaded.get? k.key).getD .none
      else conn k := by
  induction keys generalizing conn with
  | nil => simp
  | cons key keys ih =>
    rw [List.foldl_cons, ih]
    by_cases hmem : k ∈ keys ∧ overrides c k ((loaded.get? k.key).getD .none) = true
    · rw [if_pos hmem, if_pos ⟨List.mem_cons_of_mem _ hmem.1, hmem.2⟩]
    · rw [if_neg hmem]
      unfold applyOverride
      by_cases hk : k = key
      · subst hk
        cases hover : overrides c k ((loaded.get? k.key).getD .none) <;> simp
      · have hcons : ¬ (k ∈ key :: keys ∧
            overrides c k ((loaded.get? k.key).getD .none) = true) := fun h =>
          hmem ⟨(List.mem_cons.mp h.1).resolve_left hk, h.2⟩
        rw [if_neg hcons]
        split
        · exact Function.update_of_ne hk _ _
        · rfl

theorem applyLoaded_apply (e : Environment) (loaded : Object) (k : ConnectionKey) :
    applyLoaded e loaded k = chosen e k ((loaded.get? k.key).getD .none) := by
  unfold applyLoaded overrideCredentials
  have hfold := foldl_applyOverride e.config loaded configAttrs e.connection
  generalize configAttrs.foldl (applyOverride e.config loaded) e.connection = conn at hfold
  cases hurl : ((loaded.get? ConnectionKey.haUrl.key).getD .none).truthy <;>
    cases htoken : ((loaded.get? ConnectionKey.haToken.key).getD .none).truthy <;>
      cases k <;> simp [hfold, chosen, configAttrs, hurl, htoken]

/-- What is in force when the file is readable. -/
theorem inForce_eq {rt : Runtime} {file : File} {stored : Option (List (Str × Value))}
    (e : Environment) (h : readStored rt file = .ok stored) (k : ConnectionKey) :
    inForce rt e file k = .ok (chosen e k (effective e.config stored k.setting)) := by
  have hload := loadSettings_of_readStored (c := e.config) h false
  rw [if_neg Bool.false_ne_true] at hload
  unfold inForce applyConnectionOverrides
  rw [hload]
  show Except.ok (applyLoaded e (overlay e.config stored) k) = _
  rw [applyLoaded_apply]
  have hget := get?_overlay (c := e.config) stored k.setting_mem
  unfold ConnectionKey.key
  rw [hget]
  rfl

theorem eqv_str (s t : Str) : (Value.str s).eqv (.str t) = decide (s = t) := rfl

theorem eqv_int (i j : Int) : (Value.int i).eqv (.int j) = decide (j = i) := by
  unfold Value.eqv Value.rat?
  simp

theorem overrides_str (c : Config) (k : ConnectionKey) {s t : Str} (h : default c k.key = .str t) :
    overrides c k (.str s) = true ↔ s ≠ [] ∧ s ≠ t := by
  unfold overrides
  rw [h, eqv_str, eqv_str]
  simp [Value.isNone]

theorem overrides_port (c : Config) (i : Int) :
    overrides c .mqttPort (.int i) = true ↔ i ≠ c.mqttPort := by
  have hnone : (Value.int i).eqv (.str []) = false := rfl
  unfold overrides
  rw [show default c ConnectionKey.mqttPort.key = .int c.mqttPort from rfl, eqv_int, hnone]
  by_cases h : c.mqttPort = i
  · simp [h]
  · simp [h, Ne.symm h, Value.isNone]

/-! ## Two environments -/

/-- The file stores a valid value of the key. -/
def Stores (stored : Option (List (Str × Value))) (k : ConnectionKey) (v : Value) : Prop :=
  ∃ members, stored = some members ∧ Dict.find k.key members = some v ∧
    validSetting k.key v k.setting.2 = true

/-- A key that a save does not change for a later environment: the file stores it, or its default is
    not stored, is empty or stays the same. -/
def KeepsFollowing (now later : Config) (stored : Option (List (Str × Value)))
    (k : ConnectionKey) : Prop :=
  (∃ v, Stores stored k v) ∨ validSetting k.key (default now k.key) k.setting.2 = false ∨
  default now k.key = .str [] ∨ default now k.key = default later k.key

theorem chosen_str {later : Environment} {k : ConnectionKey} (hk : k ∈ configAttrs) {s t : Str}
    (ht : default later.config k.key = .str t) (hconn : later.connection k = .str t) :
    chosen later k (.str s) = later.connection k ↔ Value.str s = .str [] ∨ s = t := by
  have hchosen : chosen later k (.str s) =
      if overrides later.config k (.str s) then .str s else later.connection k := by
    cases k <;> first | rfl | exact absurd hk (by decide)
  have hover := overrides_str later.config k (s := s) ht
  rw [hchosen, hconn]
  split
  · next h =>
    obtain ⟨hempty, hne⟩ := hover.mp h
    simp [hempty, hne]
  · next h =>
    rw [hover] at h
    simp only [Value.str.injEq, true_iff]
    tauto

/-- A default of an earlier environment counts as set, but for one that is empty or the same. -/
theorem chosen_earlier (now : Config) (later : Environment) (k : ConnectionKey) :
    chosen later k (default now k.key) = later.connection k ↔
      default now k.key = .str [] ∨ default now k.key = default later.config k.key := by
  cases k with
  | mqttHost =>
    rw [show default now ConnectionKey.mqttHost.key = .str now.mqttHost from rfl,
      show default later.config ConnectionKey.mqttHost.key = .str later.config.mqttHost from rfl,
      chosen_str (by decide) rfl rfl, Value.str.injEq, Value.str.injEq]
  | mqttPort =>
    show (if overrides later.config .mqttPort (.int now.mqttPort) then Value.int now.mqttPort
      else .int later.config.mqttPort) = .int later.config.mqttPort ↔
        Value.int now.mqttPort = .str [] ∨ Value.int now.mqttPort = .int later.config.mqttPort
    split
    · simp
    · next h =>
      rw [overrides_port, not_not] at h
      simp [h]
  | mqttUsername =>
    rw [show default now ConnectionKey.mqttUsername.key = .str now.mqttUsername from rfl,
      show default later.config ConnectionKey.mqttUsername.key = .str later.config.mqttUsername from rfl,
      chosen_str (by decide) rfl rfl, Value.str.injEq, Value.str.injEq]
  | mqttPassword => exact iff_of_true rfl (Or.inl rfl)
  | haUrl => exact iff_of_true rfl (Or.inl rfl)
  | haToken => exact iff_of_true rfl (Or.inl rfl)

theorem effective_stores (stored : Option (List (Str × Value))) (k : ConnectionKey) :
    (∃ v, Stores stored k v ∧ ∀ c, effective c stored k.setting = v) ∨
      (¬ ∃ v, Stores stored k v) ∧ ∀ c, effective c stored k.setting = default c k.key := by
  unfold effective
  cases hs : stored.bind fun members => storedValue members k.setting with
  | none =>
    refine Or.inr ⟨?_, fun c => rfl⟩
    rintro ⟨v, members, rfl, hfind, hvalid⟩
    have hv : storedValue members k.setting = some v :=
      Option.filter_eq_some_iff.mpr ⟨hfind, hvalid⟩
    rw [Option.bind_some, hv] at hs
    cases hs
  | some v =>
    obtain ⟨members, hmembers, hstored⟩ := Option.bind_eq_some_iff.mp hs
    obtain ⟨hfind, hvalid⟩ := Option.filter_eq_some_iff.mp hstored
    exact Or.inl ⟨v, ⟨members, hmembers, hfind, hvalid⟩, fun c => rfl⟩

section Saves

variable {rt : Runtime} {now : Config} {later : Environment} {disk : Disk} {file file' : File}
  {patch r : Object} {k : ConnectionKey}

/-- The value of a key before and after an unrelated save. -/
theorem inForce_saved (later : Environment) (hjson : FromJson patch)
    (hsave : saveSettings rt now disk file patch = (.ok r, file'))
    (hpatch : patch.get? k.key = none) : ∃ stored, readStored rt file = .ok stored ∧
      inForce rt later file k = .ok (chosen later k (effective later.config stored k.setting)) ∧
      inForce rt later file' k = .ok (chosen later k
        (if validSetting k.key (effective now stored k.setting) k.setting.2 then
          effective now stored k.setting
        else default later.config k.key)) := by
  obtain ⟨stored, clean, hstored, hclean, rfl, hread⟩ := saveSettings_accepted hjson hsave
  have hmerged : mergedValue now stored patch k.setting = effective now stored k.setting := by
    unfold mergedValue
    rw [show patch.get? k.setting.1 = none from hpatch]
    rfl
  have hafter : effective later.config (some (update (overlay now stored) clean).entries) k.setting =
      _ := effective_saved later.config hclean k.setting_mem
  rw [hmerged] at hafter
  refine ⟨stored, hstored, inForce_eq later hstored k, ?_⟩
  rw [inForce_eq later hread, hafter]
  rfl

/-- The value of a key after an unrelated save is the value before it exactly when the key keeps
    following the environment. -/
theorem unrelated_kept_iff (hjson : FromJson patch)
    (hsave : saveSettings rt now disk file patch = (.ok r, file')) (hpatch : patch.get? k.key = none) :
    inForce rt later file' k = inForce rt later file k ↔
      ∃ stored, readStored rt file = .ok stored ∧ KeepsFollowing now later.config stored k := by
  obtain ⟨stored, hstored, hbefore, hafter⟩ := inForce_saved later hjson hsave hpatch
  have hexists : (∃ s, readStored rt file = .ok s ∧ KeepsFollowing now later.config s k) ↔
      KeepsFollowing now later.config stored k := by
    rw [hstored]
    simp
  have hunset := (chosen_earlier later.config later k).mpr (Or.inr rfl)
  rw [hbefore, hafter, Except.ok.injEq, hexists]
  unfold KeepsFollowing
  rcases effective_stores stored k with ⟨v, hv, heq⟩ | ⟨hnone, heq⟩
  · -- The file stores the key, so both environments read the stored value.
    have ⟨members, hmembers, hfind, hvalid⟩ := hv
    rw [heq, heq, if_pos hvalid]
    exact iff_of_true rfl (Or.inl ⟨v, hv⟩)
  · rw [heq, heq, hunset]
    cases hvalid : validSetting k.key (default now k.key) k.setting.2 with
    | false =>
      -- No load takes the default that was written.
      rw [if_neg Bool.false_ne_true, hunset]
      exact iff_of_true rfl (Or.inr (Or.inl rfl))
    | true =>
      rw [if_pos rfl, chosen_earlier, or_iff_right hnone, or_iff_right Bool.false_ne_true.symm]

end Saves

/-! ## Two hosts -/

/-- The environment of a process that reaches the broker at a host. -/
def hostEnvironment (host : Str) (h : Scalar host) : Environment where
  config := { plainConfig with
    mqttHost := host
    scalar := ⟨plainConfig.scalar.1, h, plainConfig.scalar.2.2⟩ }
  haUrl := []
  haToken := []

def cerboA : Environment := hostEnvironment (Str.lit "cerbo-a") (plain_lit (by decide)).scalar

def cerboB : Environment := hostEnvironment (Str.lit "cerbo-b") (plain_lit (by decide)).scalar

/-- A patch of a preference. -/
def hideEv : Object := ⟨[(Str.lit "show_ev", .bool false)], by decide⟩

theorem hideEv_json : FromJson hideEv := by
  intro k v hv s hs
  have hmem := Dict.mem_entries.mpr hv
  simp [hideEv] at hmem
  rw [hmem.2] at hs
  cases hs

/-- The preference is saved on a new file. -/
theorem hideEv_saved (c : Config) :
    ∃ r file', saveSettings plainRuntime c .works none hideEv = (.ok r, file') := by
  have hpasses : ∀ entry ∈ hideEv.entries, Passes entry := by
    intro entry hentry
    rw [List.mem_singleton.mp hentry]
    exact ⟨.bool, by decide, Or.inr rfl⟩
  obtain ⟨clean, hclean⟩ := cleanPatch_of_passes hpasses
  have hread : readStored plainRuntime none = .ok none := rfl
  obtain ⟨file', hsave, -⟩ := saveSettings_of_clean (c := c) hread hideEv_json hclean
  exact ⟨_, file', hsave⟩

/-- A saved preference keeps the host of the environment it was saved in. -/
theorem unrelated_save_moves_host : ∃ r file',
    saveSettings plainRuntime cerboA.config .works none hideEv = (.ok r, file') ∧
      hideEv.get? ConnectionKey.mqttHost.key = none ∧
        inForce plainRuntime cerboB file' .mqttHost = .ok (.str (Str.lit "cerbo-a")) ∧
          inForce plainRuntime cerboB none .mqttHost = .ok (.str (Str.lit "cerbo-b")) := by
  obtain ⟨r, file', hsave⟩ := hideEv_saved cerboA.config
  have hpatch : hideEv.get? ConnectionKey.mqttHost.key = none := by decide
  obtain ⟨stored, hstored, hbefore, hafter⟩ := inForce_saved cerboB hideEv_json hsave hpatch
  obtain rfl : none = stored := Except.ok.inj hstored
  exact ⟨r, file', hsave, hpatch, hafter.trans rfl, hbefore.trans rfl⟩

/-- The preference is saved where the environment stays the same. -/
theorem unrelated_kept_same : ∃ r file',
    saveSettings plainRuntime cerboA.config .works none hideEv = (.ok r, file') ∧
      inForce plainRuntime cerboA file' .mqttHost = inForce plainRuntime cerboA none .mqttHost := by
  obtain ⟨r, file', hsave⟩ := hideEv_saved cerboA.config
  exact ⟨r, file', hsave, (unrelated_kept_iff hideEv_json hsave (by decide)).mpr
    ⟨none, rfl, Or.inr (Or.inr (Or.inr rfl))⟩⟩

end InverterDashboard.Settings
