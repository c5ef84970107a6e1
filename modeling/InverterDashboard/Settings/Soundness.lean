import InverterDashboard.Settings.Persistence

/-
  What the settings file promises, and when.

  The promises hold of a file and an environment exactly when the file can be read as far as the
  loader catches what goes wrong, and the port that counts is in range (`settings_sound_iff`).
-/

namespace InverterDashboard.Settings

open Python Json

variable (rt : Runtime) (c : Config)

/-! ## Promises -/

/-- The settings after a patch: its values, but for the placeholders of secrets. -/
def patched (settings patch : Object) (k : Str) : Option Value :=
  match patch.get? k with
  | some v => if keepsSecret k v then settings.get? k else some v
  | none => settings.get? k

/-- What loads and saves of a file promise. -/
structure SettingsSound (file : File) : Prop where
  /-- A load returns the allowed keys, and what the file stores where that is valid. -/
  loads : ∃ stored settings, readStored rt file = .ok stored ∧
    loadSettings rt c file false = .ok settings ∧ settings.keys = allowedKeys.map Prod.fst ∧
      ∀ key ∈ allowedKeys, settings.get? key.1 = some (effective c stored key)
  /-- What is loaded is accepted back. -/
  accepted : ∀ settings, loadSettings rt c file false = .ok settings →
    ∃ r file', saveSettings rt c .works file settings = (.ok r, file')
  /-- Saving the masked view changes nothing. -/
  masked : ∀ settings, loadSettings rt c file false = .ok settings →
    ∃ view r file' after, loadSettings rt c file true = .ok view ∧
      saveSettings rt c .works file view = (.ok r, file') ∧
        loadSettings rt c file' false = .ok after ∧ ∀ k, after.get? k = settings.get? k
  /-- After an accepted patch a load gives the settings before and the patch. -/
  overlaid : ∀ settings disk patch r file', FromJson patch →
    loadSettings rt c file false = .ok settings →
      saveSettings rt c disk file patch = (.ok r, file') →
        ∃ after, loadSettings rt c file' false = .ok after ∧
          ∀ k, after.get? k = patched settings patch k
  /-- A rejected patch leaves the file. -/
  rejected : ∀ disk patch e file', saveSettings rt c disk file patch = (.error e, file') →
    e ≠ .os → file' = file

/-- The file is absent, or its text raises no more than a `JSONDecodeError`. -/
def Readable (file : File) : Prop :=
  ∀ bytes, file = some bytes → ∃ text, readText bytes = some text ∧
    loads rt.depth text ≠ .error .nesting ∧ loads rt.depth text ≠ .error .digits

/-- The port of the environment is in range, or the file stores one that is. -/
def PortUsable (stored : Option (List (Str × Value))) : Prop :=
  isPort (.int c.mqttPort) = true ∨
    ∃ members v, stored = some members ∧ Dict.find mqttPortKey members = some v ∧ isPort v = true

/-! ## Loading -/

section Proofs

variable {rt : Runtime} {c : Config}

theorem readable_iff {file : File} : Readable rt file ↔ ∃ stored, readStored rt file = .ok stored := by
  unfold Readable readStored
  cases file with
  | none => exact iff_of_true (fun _ h => (nomatch h)) ⟨_, rfl⟩
  | some bytes =>
    dsimp only
    constructor
    · intro h
      obtain ⟨text, htext, hnesting, hdigits⟩ := h bytes rfl
      rw [htext]
      dsimp only
      split
      · exact ⟨_, rfl⟩
      · exact ⟨_, rfl⟩
      · next he => exact absurd he hnesting
      · next he => exact absurd he hdigits
    · rintro ⟨stored, hstored⟩ bytes' hbytes
      obtain rfl := Option.some.inj hbytes
      split at hstored
      · cases hstored
      · next text htext =>
        refine ⟨text, htext, ?_, ?_⟩
        · intro he
          rw [he] at hstored
          cases hstored
        · intro he
          rw [he] at hstored
          cases hstored

theorem accepts_default (c : Config) {key : Str × Kind} (hkey : key ∈ allowedKeys) :
    key.2.accepts (default c key.1) = true := by
  by_cases hport : key.1 = mqttPortKey
  · have hkind : Dict.find key.1 allowedKeys = some key.2 := find_allowedKeys.mpr hkey
    rw [hport] at hkind ⊢
    rw [default_port, ← Option.some.inj (show some Kind.int = some key.2 from hkind)]
    rfl
  · exact accepts_of_valid (valid_default c key hkey hport)

/-- A setting is what the file stores, which is valid, or the default. -/
theorem effective_cases (c : Config) (stored : Option (List (Str × Value))) (key : Str × Kind) :
    (∃ members v, stored = some members ∧ Dict.find key.1 members = some v ∧
      validSetting key.1 v key.2 = true ∧ effective c stored key = v) ∨
        effective c stored key = default c key.1 := by
  unfold effective
  cases hs : stored.bind fun members => storedValue members key with
  | none => exact Or.inr rfl
  | some v =>
    obtain ⟨members, hmembers, hstored⟩ := Option.bind_eq_some_iff.mp hs
    obtain ⟨hfind, hvalid⟩ := Option.filter_eq_some_iff.mp hstored
    exact Or.inl ⟨members, v, hmembers, hfind, hvalid, rfl⟩

theorem accepts_effective (c : Config) (stored : Option (List (Str × Value))) {key : Str × Kind}
    (hkey : key ∈ allowedKeys) : key.2.accepts (effective c stored key) = true := by
  rcases effective_cases c stored key with ⟨members, v, -, -, hvalid, heq⟩ | heq
  · rw [heq]
    exact accepts_of_valid hvalid
  · rw [heq]
    exact accepts_default c hkey

def portSetting : Str × Kind := (mqttPortKey, .int)

theorem portSetting_mem : portSetting ∈ allowedKeys := by decide

theorem eq_portSetting {key : Str × Kind} (hkey : key ∈ allowedKeys) (h : key.1 = mqttPortKey) :
    key = portSetting := by
  have hkind := find_allowedKeys.mpr hkey
  rw [h, find_allowedKeys.mpr portSetting_mem] at hkind
  exact Prod.ext h (Option.some.inj hkind).symm

theorem isPort_effective (stored : Option (List (Str × Value))) :
    isPort (effective c stored portSetting) = true ↔ PortUsable c stored := by
  constructor
  · intro h
    rcases effective_cases c stored portSetting with ⟨members, v, hs, hfind, -, heq⟩ | heq
    · exact Or.inr ⟨members, v, hs, hfind, heq ▸ h⟩
    · rw [heq] at h
      exact Or.inl h
  · intro h
    rcases h with h | ⟨members, v, rfl, hfind, hv⟩
    · rcases effective_cases c stored portSetting with ⟨members, v, -, -, hvalid, heq⟩ | heq
      · rw [heq, ← validSetting_port]
        exact hvalid
      · rw [heq]
        exact h
    · have hstored : storedValue members portSetting = some v := by
        unfold storedValue portSetting
        rw [hfind, Option.filter_some, validSetting_port, if_pos hv]
      unfold effective
      rw [Option.bind_some, hstored]
      exact hv

theorem valid_effective {stored : Option (List (Str × Value))} (hport : PortUsable c stored)
    {key : Str × Kind} (hkey : key ∈ allowedKeys) :
    validSetting key.1 (effective c stored key) key.2 = true := by
  by_cases hk : key.1 = mqttPortKey
  · obtain rfl := eq_portSetting hkey hk
    exact (validSetting_port _).trans ((isPort_effective stored).mpr hport)
  · rcases effective_cases c stored key with ⟨members, v, -, -, hvalid, heq⟩ | heq
    · rw [heq]
      exact hvalid
    · rw [heq]
      exact valid_default c key hkey hk

theorem keepsSecret_of_valid {key : Str} {v : Value} {kind : Kind}
    (h : validSetting key v kind = true) : keepsSecret key v = false := by
  unfold validSetting at h
  unfold keepsSecret
  split at h
  · cases h
  · split at h
    · next hport =>
      rw [hport]
      rfl
    · exact (Bool.not_eq_true' _).mp h

/-- The keys of what is loaded. -/
theorem mem_overlay {stored : Option (List (Str × Value))} {m : Str × Value}
    (h : m ∈ (overlay c stored).entries) :
    ∃ key ∈ allowedKeys, key.1 = m.1 ∧ m.2 = effective c stored key := by
  have hkey : m.1 ∈ (overlay c stored).keys := List.mem_map_of_mem h
  rw [keys_overlay] at hkey
  obtain ⟨key, hmem, hfst⟩ := List.mem_map.mp hkey
  have hget := Dict.mem_entries.mp h
  rw [← hfst, get?_overlay stored hmem] at hget
  exact ⟨key, hmem, hfst, (Option.some.inj hget).symm⟩

theorem fromJson_overlay {file : File} {stored : Option (List (Str × Value))}
    (h : readStored rt file = .ok stored) : FromJson (overlay c stored) := by
  intro k v hv
  obtain ⟨key, hmem, -, heq⟩ := mem_overlay (Dict.mem_entries.mpr hv)
  exact (show v = effective c stored key from heq) ▸ (writable_effective h hmem).joined

/-- After an accepted save the settings are those stored. -/
theorem loads_saved {file' : File} {stored : Option (List (Str × Value))} {patch clean : Object}
    (hclean : cleanPatch patch = .ok clean)
    (hread : readStored rt file' = .ok (some (update (overlay c stored) clean).entries)) :
    ∃ after, loadSettings rt c file' false = .ok after ∧
      after.keys = allowedKeys.map Prod.fst ∧
        ∀ key ∈ allowedKeys, after.get? key.1 = some (mergedValue c stored patch key) := by
  have hload := loadSettings_of_readStored (c := c) hread false
  rw [if_neg Bool.false_ne_true] at hload
  refine ⟨_, hload, keys_overlay _, fun key hkey => ?_⟩
  rw [get?_overlay _ hkey, effective_saved_same hclean hkey]

/-- Settings of the allowed keys are equal when they are equal at each of them. -/
theorem get?_ext {a : Object} {b : Str → Option Value} (ha : a.keys = allowedKeys.map Prod.fst)
    (hb : ∀ k, k ∉ allowedKeys.map Prod.fst → b k = none)
    (h : ∀ key ∈ allowedKeys, a.get? key.1 = b key.1) (k : Str) : a.get? k = b k := by
  by_cases hk : k ∈ allowedKeys.map Prod.fst
  · obtain ⟨key, hkey, rfl⟩ := List.mem_map.mp hk
    exact h key hkey
  · rw [hb k hk, ← Option.not_isSome_iff_eq_none, ← Dict.mem_keys, ha]
    exact hk

theorem get?_overlay_none {stored : Option (List (Str × Value))} {k : Str}
    (h : k ∉ allowedKeys.map Prod.fst) : (overlay c stored).get? k = none := by
  rw [← Option.not_isSome_iff_eq_none, ← Dict.mem_keys, keys_overlay]
  exact h

/-! ## The masked view -/

/-- What the view shows for a key. -/
def maskedValue (key : Str) (v : Value) : Value :=
  if key ∈ secretKeys then .str (if v.truthy then Str.lit "***" else []) else v

theorem get?_maskSecrets {out : Object} {k : Str} {v : Value} (h : out.get? k = some v) :
    (maskSecrets out).get? k = some (maskedValue k v) := by
  unfold maskSecrets maskedValue
  rw [Dict.get?_setAll, h]
  split <;> rfl

theorem keys_maskSecrets {out : Object} (h : ∀ k ∈ secretKeys, k ∈ out.keys) :
    (maskSecrets out).keys = out.keys := by
  unfold maskSecrets Dict.setAll
  generalize (fun key => Value.str (if ((out.get? key).getD .none).truthy then Str.lit "***" else []))
    = f
  generalize hk : out.keys = ks at h ⊢
  generalize secretKeys = keys at h
  induction keys generalizing out with
  | nil => exact hk
  | cons key keys ih =>
    rw [List.foldl_cons]
    refine ih ?_ fun k hk => h k (List.mem_cons_of_mem _ hk)
    rw [Dict.keys_set_of_mem (hk ▸ h key List.mem_cons_self), hk]

theorem secretKeys_allowed : ∀ k ∈ secretKeys, k ∈ allowedKeys.map Prod.fst := by decide

theorem secret_kind : ∀ key ∈ allowedKeys, key.1 ∈ secretKeys → key.2 = .str ∧ key.1 ≠ mqttPortKey := by
  decide

/-- The view of a setting is the placeholder of a secret, or the setting. -/
theorem maskedValue_cases (c : Config) (stored : Option (List (Str × Value))) {key : Str × Kind}
    (hkey : key ∈ allowedKeys) :
    keepsSecret key.1 (maskedValue key.1 (effective c stored key)) = true ∧
        maskedValue key.1 (effective c stored key) = .str (Str.lit "***") ∨
      maskedValue key.1 (effective c stored key) = effective c stored key := by
  unfold maskedValue
  by_cases hsecret : key.1 ∈ secretKeys
  · rw [if_pos hsecret]
    have haccepts := accepts_effective c stored hkey
    rw [(secret_kind key hkey hsecret).1] at haccepts
    cases heq : effective c stored key with
    | str s =>
      cases s with
      | nil => exact Or.inr rfl
      | cons x s =>
        refine Or.inl ⟨?_, rfl⟩
        unfold keepsSecret
        rw [decide_eq_true hsecret]
        rfl
    | _ =>
      rw [heq] at haccepts
      cases haccepts
  · rw [if_neg hsecret]
    exact Or.inr rfl

theorem mem_view {stored : Option (List (Str × Value))} {m : Str × Value}
    (h : m ∈ (maskSecrets (overlay c stored)).entries) :
    ∃ key ∈ allowedKeys, m = (key.1, maskedValue key.1 (effective c stored key)) := by
  have hkey : m.1 ∈ (maskSecrets (overlay c stored)).keys := List.mem_map_of_mem h
  rw [keys_maskSecrets (fun k hk => by rw [keys_overlay]; exact secretKeys_allowed k hk),
    keys_overlay] at hkey
  obtain ⟨key, hmem, hfst⟩ := List.mem_map.mp hkey
  have hget := Dict.mem_entries.mp h
  rw [← hfst, get?_maskSecrets (get?_overlay stored hmem)] at hget
  exact ⟨key, hmem, Prod.ext hfst.symm (Option.some.inj hget).symm⟩

theorem view_passes {stored : Option (List (Str × Value))} (hport : PortUsable c stored) :
    ∀ m ∈ (maskSecrets (overlay c stored)).entries, Passes m := by
  intro m hm
  obtain ⟨key, hmem, rfl⟩ := mem_view hm
  refine ⟨key.2, hmem, ?_⟩
  rcases maskedValue_cases c stored hmem with ⟨hkeeps, -⟩ | heq
  · exact Or.inl hkeeps
  · rw [heq]
    exact Or.inr (valid_effective hport hmem)

theorem fromJson_view {file : File} {stored : Option (List (Str × Value))}
    (h : readStored rt file = .ok stored) : FromJson (maskSecrets (overlay c stored)) := by
  intro k v hv
  obtain ⟨key, hmem, heq⟩ := mem_view (Dict.mem_entries.mpr hv)
  obtain ⟨rfl, rfl⟩ := Prod.mk.inj heq
  rcases maskedValue_cases c stored hmem with ⟨-, hmask⟩ | hsame
  · rw [hmask]
    exact fun s hs => Value.str.inj hs ▸ (plain_lit (by decide)).scalar.joined
  · rw [hsame]
    exact (writable_effective h hmem).joined

theorem mergedValue_view {stored : Option (List (Str × Value))} (hport : PortUsable c stored)
    {key : Str × Kind} (hkey : key ∈ allowedKeys) :
    mergedValue c stored (maskSecrets (overlay c stored)) key = effective c stored key := by
  unfold mergedValue
  rw [get?_maskSecrets (get?_overlay stored hkey)]
  rcases maskedValue_cases c stored hkey with ⟨hkeeps, -⟩ | hsame
  · simp [Option.filter, hkeeps]
  · rw [hsame]
    simp [Option.filter, keepsSecret_of_valid (valid_effective hport hkey)]

/-! ## Rejections -/

theorem rejected_keeps {disk : Disk} {file file' : File} {patch : Object} {e : Failed}
    (h : saveSettings rt c disk file patch = (.error e, file')) (he : e ≠ .os) : file' = file := by
  unfold saveSettings at h
  split at h
  · exact (Prod.mk.inj h).2.symm
  · split at h
    · exact (Prod.mk.inj h).2.symm
    · unfold writePrivateSettings at h
      dsimp only at h
      split at h
      · cases h
      · next heq =>
        obtain ⟨herror, rfl⟩ := Prod.mk.inj h
        obtain rfl := Except.error.inj herror
        split at heq
        · exact (Prod.mk.inj heq).2.symm
        · cases disk with
          | works => cases heq
          | failsBefore => exact (Prod.mk.inj heq).2.symm
          | failsAfter =>
            exact absurd (Except.error.inj (Prod.mk.inj heq).1).symm he

theorem patched_merged {stored : Option (List (Str × Value))} {patch : Object} {key : Str × Kind}
    (hkey : key ∈ allowedKeys) :
    some (mergedValue c stored patch key) = patched (overlay c stored) patch key.1 := by
  unfold mergedValue patched
  rw [get?_overlay stored hkey]
  cases patch.get? key.1 with
  | none => rfl
  | some v => cases hkeeps : keepsSecret key.1 v <;> simp [Option.filter, hkeeps]

end Proofs

/-- **The promises of the settings file.** They hold exactly when the file is readable and the port
    that counts is in range. -/
theorem settings_sound_iff (file : File) :
    SettingsSound rt c file ↔
      Readable rt file ∧ ∀ stored, readStored rt file = .ok stored → PortUsable c stored := by
  constructor
  · intro h
    obtain ⟨stored, settings, hstored, hload, -, hget⟩ := h.loads
    refine ⟨readable_iff.mpr ⟨stored, hstored⟩, fun stored' hstored' => ?_⟩
    obtain rfl := Except.ok.inj (hstored.symm.trans hstored')
    obtain ⟨r, file', hsave⟩ := h.accepted settings hload
    obtain ⟨-, -, clean, hclean⟩ := saveSettings_ok hsave
    have hport := hget portSetting portSetting_mem
    have hvalid := valid_of_patch hclean portSetting_mem hport rfl
    rw [← isPort_effective, ← validSetting_port]
    exact hvalid
  · rintro ⟨hreadable, hport⟩
    obtain ⟨stored, hstored⟩ := readable_iff.mp hreadable
    replace hport := hport stored hstored
    have hload := loadSettings_of_readStored (c := c) hstored
    have hplain := hload false
    rw [if_neg Bool.false_ne_true] at hplain
    have hview := hload true
    rw [if_pos rfl] at hview
    have hsettings : ∀ {settings}, loadSettings rt c file false = .ok settings →
        settings = overlay c stored := fun h => Except.ok.inj (h.symm.trans hplain)
    refine ⟨⟨stored, _, hstored, hplain, keys_overlay stored, fun key hkey => get?_overlay stored hkey⟩,
      ?_, ?_, ?_, fun disk patch e file' hsave he => rejected_keeps hsave he⟩
    · intro settings hs
      obtain rfl := hsettings hs
      obtain ⟨clean, hclean⟩ : ∃ clean, cleanPatch (overlay c stored) = .ok clean := by
        refine cleanPatch_of_passes fun m hm => ?_
        obtain ⟨key, hmem, hfst, hsnd⟩ := mem_overlay hm
        refine ⟨key.2, hfst ▸ hmem, Or.inr ?_⟩
        rw [hsnd, ← hfst]
        exact valid_effective hport hmem
      obtain ⟨file', hsave, -⟩ := saveSettings_of_clean hstored (fromJson_overlay hstored) hclean
      exact ⟨_, file', hsave⟩
    · intro settings hs
      obtain rfl := hsettings hs
      obtain ⟨clean, hclean⟩ := cleanPatch_of_passes (view_passes hport)
      obtain ⟨file', hsave, hread⟩ :=
        saveSettings_of_clean hstored (fromJson_view hstored) hclean
      obtain ⟨after, hafter, hkeys, hget⟩ := loads_saved hclean hread
      refine ⟨_, _, file', after, hview, hsave, hafter,
        get?_ext hkeys (fun k hk => get?_overlay_none hk) fun key hkey => ?_⟩
      rw [hget key hkey, mergedValue_view hport hkey, get?_overlay stored hkey]
    · intro settings disk patch r file' hjson hs hsave
      obtain rfl := hsettings hs
      obtain ⟨stored', clean, hstored', hclean, rfl, hread⟩ := saveSettings_accepted hjson hsave
      obtain rfl := Except.ok.inj (hstored.symm.trans hstored')
      obtain ⟨after, hafter, hkeys, hget⟩ := loads_saved hclean hread
      refine ⟨after, hafter, get?_ext hkeys (fun k hk => ?_) fun key hkey => ?_⟩
      · unfold patched
        have hnone : patch.get? k = none := by
          cases hv : patch.get? k with
          | none => rfl
          | some v =>
            obtain ⟨kind, hmem, -⟩ := (cleanPatch_ok hclean).1 _ (Dict.mem_entries.mpr hv)
            exact absurd (List.mem_map_of_mem hmem) hk
        rw [hnone]
        exact get?_overlay_none hk
      · rw [hget key hkey, patched_merged hkey]

/-- An environment without settings. -/
def plainConfig : Config where
  cameraTopic := []
  mqttHost := Str.lit "Cerbo"
  mqttPort := 1883
  mqttUsername := []
  mqttPassword := []
  scalar := ⟨fun _ h => (nomatch h), (plain_lit (by decide)).scalar, fun _ h => (nomatch h),
    fun _ h => (nomatch h)⟩
  digits := by decide

def plainRuntime : Runtime := ⟨900, by decide⟩

/-- A byte that is not UTF-8 is not caught. -/
theorem unreadable_file_raises :
    loadSettings plainRuntime plainConfig (some [0xff]) false = .error .unicodeDecode ∧
      ¬ SettingsSound plainRuntime plainConfig (some [0xff]) := by
  have hload : loadSettings plainRuntime plainConfig (some [0xff]) false = .error .unicodeDecode := rfl
  refine ⟨hload, fun h => ?_⟩
  obtain ⟨stored, settings, -, hok, -⟩ := h.loads
  rw [hload] at hok
  cases hok

end InverterDashboard.Settings
