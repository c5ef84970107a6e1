import InverterDashboard.HomeAssistant.Actions
import InverterDashboard.Server.Origins
import InverterDashboard.Settings.Connections
import InverterDashboard.Temporal.Trace

/-
  The settings of a running dashboard: the file, and `_ui_settings`, which the clients are shown.

  A POST that passes its guards and an action of a WebSocket save a patch. A write can put the new
  file in place and then raise: the clients keep the settings they had until the next save.
  `Registers` is a dashboard without its file format, and `settings_shown` says that the code
  implements it, over restarts too. Nobody else writes the file.
-/

namespace InverterDashboard.Settings

open Python Json Temporal

variable (rt : Runtime) (c : Config) (secret : Str)

/-! ## The endpoints -/

/-- The settings file, and `_ui_settings`. -/
structure Dashboard where
  file : File
  uiSettings : Object

/-- The settings that `lifespan` applies. -/
def Dashboard.start (file : File) : Except Failed Dashboard :=
  (loadSettings rt c file false).map fun settings => ⟨file, settings⟩

/-- An object that was read from JSON. -/
structure JsonObject where
  members : Object
  fromJson : FromJson members

/-- What `request.json()` returns. -/
inductive PostBody where
  /-- It raises. -/
  | unreadable
  | notAnObject
  | patch (data : JsonObject)

/-- What a request is answered. -/
inductive Answer where
  | settings (shown : Object)
  | refused (status : Nat)
  /-- An error that the endpoint does not catch. -/
  | raised

/-- `except ValueError`. -/
def Failed.isValueError : Failed → Bool
  | .recursion => false
  | .os => false
  | _ => true

/-- What a WebSocket or a POST asks of the settings. -/
inductive SettingsOp where
  | get (headers : Server.Headers)
  | post (headers : Server.Headers) (body : PostBody) (disk : Disk)
  /-- A `set_settings` message of a WebSocket that was accepted. -/
  | action (data : JsonObject) (disk : Disk)
  /-- The process ends and starts again, in the same environment. -/
  | restart

namespace Dashboard

variable (d : Dashboard)

/-- `load_settings(mask_secrets=True)`, as an answer. -/
def shownTo : Answer :=
  match loadSettings rt c d.file true with
  | .ok settings => .settings settings
  | .error _ => .raised

/-- `save_settings`, and `set_ui_settings` of what it returns. -/
def save (disk : Disk) (patch : Object) : Option Failed × Dashboard :=
  match saveSettings rt c disk d.file patch with
  | (.ok saved, file) => (none, ⟨file, saved⟩)
  | (.error e, file) => (some e, { d with file := file })

/-- `api_settings_get`. -/
def apiSettingsGet (headers : Server.Headers) : Answer :=
  match Server.verifySecret secret headers none with
  | some status => .refused status
  | none => d.shownTo rt c

/-- `api_settings_post`. -/
def apiSettingsPost (headers : Server.Headers) (body : PostBody) (disk : Disk) :
    Answer × Dashboard :=
  match Server.verifySecret secret headers none with
  | some status => (.refused status, d)
  | none =>
    if !Server.websocketOriginAllowed headers then (.refused 403, d)
    else if !Server.isJsonContent headers then (.refused 415, d)
    else match body with
      | .unreadable => (.refused 400, d)
      | .notAnObject => (.refused 400, d)
      | .patch data =>
        match d.save rt c disk data.members with
        | (none, d) => (d.shownTo rt c, d)
        | (some e, d) => (if e.isValueError then .refused 400 else .raised, d)

/-- `_dispatch_settings`. -/
def dispatchSettings (data : JsonObject) (disk : Disk) : Dashboard :=
  (d.save rt c disk (HomeAssistant.settingsPatch data.members)).2

end Dashboard

def settingsStep (d : Dashboard) : SettingsOp → Dashboard
  | .get _ => d
  | .post headers body disk => (d.apiSettingsPost rt c secret headers body disk).2
  | .action data disk => d.dispatchSettings rt c data disk
  | .restart =>
    match Dashboard.start rt c d.file with
    | .ok d => d
    -- The start fails. No file of a run does this.
    | .error _ => d

/-! ## Patches -/

/-- The patch that an operation tries to save, when it comes so far. -/
def SettingsOp.patch? : SettingsOp → Option (Object × Disk)
  | .get _ => none
  | .post headers (.patch data) disk =>
    if Server.secretAuthorized secret headers none && Server.websocketOriginAllowed headers &&
        Server.isJsonContent headers then some (data.members, disk) else none
  | .post _ _ _ => none
  | .action data disk => some (HomeAssistant.settingsPatch data.members, disk)
  | .restart => none

/-- Settings under a patch. -/
def patchOver (settings : Str → Option Value) (patch : Object) (k : Str) : Option Value :=
  match patch.get? k with
  | some v => if keepsSecret k v then settings k else some v
  | none => settings k

/-- What a dashboard is for: settings that are stored, and settings that are shown. -/
structure Registers where
  stored : Str → Option Value
  shown : Str → Option Value

/-- A valid patch is stored and shown, or only stored when its write raises in the end. -/
def Registers.patch (r : Registers) (patch : Object) (disk : Disk) : Registers :=
  if (cleanPatch patch).toBool then
    match disk with
    | .works => ⟨patchOver r.stored patch, patchOver r.stored patch⟩
    | .failsBefore => r
    | .failsAfter => { r with stored := patchOver r.stored patch }
  else r

/-- A start shows what is stored. -/
def Registers.step (r : Registers) (op : SettingsOp) : Registers :=
  match op with
  | .restart => ⟨r.stored, r.stored⟩
  | op =>
    match op.patch? secret with
    | none => r
    | some (patch, disk) => r.patch patch disk

/-- The file stores the one, and `_ui_settings` is the other. -/
structure Dashboard.Implements (d : Dashboard) (r : Registers) : Prop where
  stored : ∃ loaded, loadSettings rt c d.file false = .ok loaded ∧ loaded.get? = r.stored
  shown : d.uiSettings.get? = r.shown

section Proofs

variable {rt : Runtime} {c : Config} {secret : Str} {d : Dashboard}

/-- The patches that are saved. -/
theorem toBool_cleanPatch {patch : Object} :
    (cleanPatch patch).toBool = true ↔ ∀ entry ∈ patch.entries, Passes entry := by
  constructor
  · intro h
    cases hclean : cleanPatch patch with
    | error e =>
      rw [hclean] at h
      cases h
    | ok clean => exact (cleanPatch_ok hclean).1
  · intro h
    obtain ⟨clean, hclean⟩ := cleanPatch_of_passes h
    rw [hclean]
    rfl

theorem settingsStep_none {op : SettingsOp} (h : op.patch? secret = none)
    (hop : op ≠ .restart) : settingsStep rt c secret d op = d := by
  cases op with
  | get headers => rfl
  | restart => exact absurd rfl hop
  | action data disk => cases h
  | post headers body disk =>
    unfold settingsStep Dashboard.apiSettingsPost
    dsimp only
    split
    · rfl
    · next hsecret =>
      have hsecret := Server.verifySecret_eq_none.mp hsecret
      split
      · rfl
      · next horigin =>
        split
        · rfl
        · next hjson =>
          cases body with
          | unreadable => rfl
          | notAnObject => rfl
          | patch data =>
            rw [Bool.not_eq_true, Bool.not_eq_false'] at horigin hjson
            unfold SettingsOp.patch? at h
            dsimp only at h
            rw [hsecret, horigin, hjson] at h
            cases h

theorem settingsStep_some {op : SettingsOp} {patch : Object} {disk : Disk}
    (h : op.patch? secret = some (patch, disk)) :
    settingsStep rt c secret d op = (d.save rt c disk patch).2 ∧ FromJson patch := by
  cases op with
  | get headers => cases h
  | restart => cases h
  | action data disk =>
    obtain ⟨rfl, rfl⟩ := Prod.mk.inj (Option.some.inj h)
    refine ⟨rfl, fun k v hv => data.fromJson k v ?_⟩
    exact Dict.mem_entries.mp (List.mem_filter.mp (Dict.mem_entries.mpr hv)).1
  | post headers body disk =>
    cases body with
    | unreadable => cases h
    | notAnObject => cases h
    | patch data =>
      unfold SettingsOp.patch? at h
      dsimp only at h
      split at h
      · next hpasses =>
        obtain ⟨rfl, rfl⟩ := Prod.mk.inj (Option.some.inj h)
        rw [Bool.and_eq_true, Bool.and_eq_true] at hpasses
        obtain ⟨⟨hsecret, horigin⟩, hjson⟩ := hpasses
        refine ⟨?_, data.fromJson⟩
        unfold settingsStep Dashboard.apiSettingsPost
        dsimp only
        rw [Server.verifySecret_eq_none.mpr hsecret, horigin, hjson]
        dsimp only
        rw [if_neg (by decide), if_neg (by decide)]
        rcases d.save rt c disk data.members with ⟨_ | e, d'⟩ <;> rfl
      · cases h

/-! ## Saves -/

theorem loadSettings_plain {file : File} {stored : Option (List (Str × Value))}
    (h : readStored rt file = .ok stored) :
    loadSettings rt c file false = .ok (overlay c stored) :=
  loadSettings_of_readStored h false

/-- What was saved is loaded. -/
theorem overlay_saved {stored : Option (List (Str × Value))} {patch clean : Object}
    (hclean : cleanPatch patch = .ok clean) (k : Str) :
    (overlay c (some (update (overlay c stored) clean).entries)).get? k =
      (update (overlay c stored) clean).get? k := by
  refine get?_ext (keys_overlay _) (fun k hk => ?_) (fun key hkey => ?_) k
  · rw [← Option.not_isSome_iff_eq_none, ← Dict.mem_keys, keys_merged hclean]
    exact hk
  · rw [get?_overlay _ hkey, effective_saved_same hclean hkey, get?_merged hclean hkey]

theorem get?_patched {patch clean : Object} (hclean : cleanPatch patch = .ok clean)
    (settings : Object) (k : Str) :
    (update settings clean).get? k = patchOver settings.get? patch k := by
  rw [get?_update, (cleanPatch_ok hclean).2]
  unfold patchOver
  cases patch.get? k with
  | none => rfl
  | some v => cases hkeeps : keepsSecret k v <;> simp [Option.filter, hkeeps]

theorem save_refused {patch : Object} {e : Failed} (h : cleanPatch patch = .error e) (disk : Disk) :
    (d.save rt c disk patch).2 = d := by
  unfold Dashboard.save saveSettings
  rw [h]

theorem save_failsBefore (patch : Object) : (d.save rt c .failsBefore patch).2 = d := by
  unfold Dashboard.save saveSettings
  cases cleanPatch patch with
  | error e => rfl
  | ok clean =>
    dsimp only
    cases loadSettings rt c d.file false with
    | error e => rfl
    | ok settings =>
      unfold writePrivateSettings
      dsimp only
      cases (dump 0 (.dict (update settings clean).entries)).bind Str.utf8 <;> rfl

/-- A write that raises in the end leaves the file of one that does not. -/
theorem saveSettings_failsAfter (file : File) (patch : Object) :
    (∃ e, (saveSettings rt c .failsAfter file patch).1 = .error e) ∧
      (saveSettings rt c .failsAfter file patch).2 = (saveSettings rt c .works file patch).2 := by
  unfold saveSettings
  cases cleanPatch patch with
  | error e => exact ⟨⟨e, rfl⟩, rfl⟩
  | ok clean =>
    dsimp only
    cases loadSettings rt c file false with
    | error e => exact ⟨⟨e, rfl⟩, rfl⟩
    | ok settings =>
      unfold writePrivateSettings
      dsimp only
      cases (dump 0 (.dict (update settings clean).entries)).bind Str.utf8 with
      | none => exact ⟨⟨.digits, rfl⟩, rfl⟩
      | some bytes => exact ⟨⟨.os, rfl⟩, rfl⟩

/-- A save. -/
theorem implements_save {r : Registers} (h : d.Implements rt c r) {patch : Object}
    (hjson : FromJson patch) (disk : Disk) :
    (d.save rt c disk patch).2.Implements rt c (r.patch patch disk) := by
  unfold Registers.patch
  cases hclean : cleanPatch patch with
  | error e =>
    rw [save_refused hclean]
    exact h
  | ok clean =>
    obtain ⟨⟨loaded, hload, hstored⟩, hshown⟩ := h
    obtain ⟨members, hmembers⟩ := readStored_of_loadSettings hload
    have hplain := loadSettings_plain (c := c) hmembers
    obtain rfl := Except.ok.inj (hload.symm.trans hplain)
    obtain ⟨file', hsave, hread⟩ := saveSettings_of_clean (c := c) hmembers hjson hclean
    have hsaved : (update (overlay c members) clean).get? = patchOver r.stored patch := by
      rw [← hstored]
      exact funext (get?_patched hclean _)
    have hloaded : ∃ loaded, loadSettings rt c file' false = .ok loaded ∧
        loaded.get? = patchOver r.stored patch :=
      ⟨_, loadSettings_plain hread, (funext (overlay_saved hclean)).trans hsaved⟩
    cases disk with
    | failsBefore =>
      rw [save_failsBefore]
      exact ⟨⟨_, hplain, hstored⟩, hshown⟩
    | works =>
      unfold Dashboard.save
      rw [hsave]
      exact ⟨hloaded, hsaved⟩
    | failsAfter =>
      obtain ⟨⟨e, herror⟩, hfile⟩ := @saveSettings_failsAfter rt c d.file patch
      have hraised : saveSettings rt c .failsAfter d.file patch = (.error e, file') := by
        rw [hsave] at hfile
        exact Prod.ext herror hfile
      unfold Dashboard.save
      rw [hraised]
      exact ⟨hloaded, hshown⟩

/-- A start. -/
theorem implements_start {r : Registers} (h : d.Implements rt c r) :
    (settingsStep rt c secret d .restart).Implements rt c ⟨r.stored, r.stored⟩ := by
  obtain ⟨⟨loaded, hload, hstored⟩, -⟩ := h
  unfold settingsStep Dashboard.start
  dsimp only
  rw [hload]
  exact ⟨⟨loaded, hload, hstored⟩, hstored⟩

/-- One operation. -/
theorem implements_step {r : Registers} (h : d.Implements rt c r) (op : SettingsOp) :
    (settingsStep rt c secret d op).Implements rt c (r.step secret op) := by
  by_cases hop : op = .restart
  · subst hop
    exact implements_start h
  · unfold Registers.step
    split
    · exact absurd rfl hop
    · cases hpatch : op.patch? secret with
      | none =>
        rw [settingsStep_none hpatch hop]
        exact h
      | some saved =>
        obtain ⟨patch, disk⟩ := saved
        obtain ⟨hstep, hjson⟩ := @settingsStep_some rt c secret d _ _ _ hpatch
        rw [hstep]
        exact implements_save h hjson disk

/-- A run. -/
theorem implements_run {r : Registers} (h : d.Implements rt c r) (ops : List SettingsOp) :
    (replay (settingsStep rt c secret) d ops).Implements rt c
      (replay (Registers.step secret) r ops) := by
  induction ops generalizing d r with
  | nil => exact h
  | cons op ops ih => exact ih (implements_step h op)

/-- What a GET answers is what is stored, with its secrets masked. -/
theorem get_answers {r : Registers} (h : d.Implements rt c r) {headers : Server.Headers}
    {view : Object} (hview : d.apiSettingsGet rt c secret headers = .settings view) {k : Str}
    {v : Value} (hv : r.stored k = some v) : view.get? k = some (maskedValue k v) := by
  obtain ⟨⟨loaded, hload, hstored⟩, -⟩ := h
  obtain ⟨members, hmembers⟩ := readStored_of_loadSettings hload
  obtain rfl := Except.ok.inj (hload.symm.trans (loadSettings_plain hmembers))
  unfold Dashboard.apiSettingsGet at hview
  split at hview
  · cases hview
  · unfold Dashboard.shownTo at hview
    rw [loadSettings_of_readStored hmembers true] at hview
    obtain rfl := Answer.settings.inj hview
    refine get?_maskSecrets ?_
    rw [hstored]
    exact hv

/-- What a POST that is accepted answers is what is shown from then on, with its secrets masked. -/
theorem post_answers {headers : Server.Headers} {body : PostBody} {disk : Disk} {view : Object}
    (h : (d.apiSettingsPost rt c secret headers body disk).1 = .settings view) {k : Str} {v : Value}
    (hv : (d.apiSettingsPost rt c secret headers body disk).2.uiSettings.get? k = some v) :
    view.get? k = some (maskedValue k v) := by
  unfold Dashboard.apiSettingsPost at h hv
  cases hsecret : Server.verifySecret secret headers none with
  | some status =>
    rw [hsecret] at h
    cases h
  | none =>
    rw [hsecret] at h hv
    dsimp only at h hv
    split at h
    · cases h
    · next horigin =>
      rw [if_neg horigin] at hv
      split at h
      · cases h
      · next hjson =>
        rw [if_neg hjson] at hv
        cases body with
        | unreadable => cases h
        | notAnObject => cases h
        | patch data =>
          dsimp only at h hv
          unfold Dashboard.save at h hv
          cases hsave : saveSettings rt c disk d.file data.members with
          | mk result file' =>
            rw [hsave] at h hv
            cases result with
            | error e =>
              dsimp only at h
              split at h <;> cases h
            | ok saved =>
              obtain ⟨stored, clean, -, hclean, rfl, hread⟩ :=
                saveSettings_accepted data.fromJson hsave
              dsimp only [Dashboard.shownTo] at h hv
              rw [loadSettings_of_readStored hread true] at h
              obtain rfl := Answer.settings.inj h
              exact get?_maskSecrets ((overlay_saved hclean k).trans hv)

end Proofs

/-- **What the clients are shown.** A dashboard is a pair of registers: whatever requests arrive and
    however the storage fails, the file holds what the operations stored, and the clients are shown
    what the last accepted save left there. -/
theorem settings_shown {file : File} {d : Dashboard} (hstart : Dashboard.start rt c file = .ok d)
    (ops : List SettingsOp) :
    (replay (settingsStep rt c secret) d ops).Implements rt c
      (replay (Registers.step secret) ⟨d.uiSettings.get?, d.uiSettings.get?⟩ ops) := by
  unfold Dashboard.start at hstart
  cases hload : loadSettings rt c file false with
  | error e =>
    rw [hload] at hstart
    cases hstart
  | ok settings =>
    rw [hload] at hstart
    obtain rfl := Except.ok.inj hstart
    exact implements_run ⟨⟨settings, hload, rfl⟩, rfl⟩ ops

/-- A section is hidden by a write that raises: the page shows it until the next start. -/
def hiddenLate : List SettingsOp :=
  [.action ⟨hideEv, hideEv_json⟩ .failsAfter, .get [], .restart]

theorem settings_shown_hiddenLate :
    ∃ d, Dashboard.start plainRuntime plainConfig none = .ok d ∧
      (replay (settingsStep plainRuntime plainConfig []) d hiddenLate).Implements plainRuntime
        plainConfig (replay (Registers.step []) ⟨d.uiSettings.get?, d.uiSettings.get?⟩ hiddenLate) :=
  ⟨_, rfl, @settings_shown plainRuntime plainConfig [] none _ rfl _⟩

end InverterDashboard.Settings
