import InverterDashboard.Settings.Store

/-
  What a save keeps.

  A load gives every key of `ALLOWED_KEYS` and no other: what the file stores, if it is valid, or the
  default. An accepted save writes a file that reads as the settings it returns. Loading raises on
  bytes that are not UTF-8, on deep nesting and on long integers, and an environment whose port is
  out of range is loaded but not accepted back (`settings_sound_iff`).
-/

namespace InverterDashboard.Settings

open Python Json

/-! ## Keys -/

theorem joined_allowedKeys : ∀ key ∈ allowedKeys, Joined key.1 := by
  unfold allowedKeys
  simp only [List.forall_mem_cons, List.not_mem_nil, false_implies, implies_true, and_true]
  refine ⟨?_, ?_, ?_, ?_, ?_, ?_, ?_, ?_, ?_, ?_, ?_, ?_, ?_, ?_, ?_, ?_, ?_, ?_, ?_, ?_, ?_, ?_, ?_⟩ <;>
    exact (plain_lit (by decide)).scalar.joined

theorem kind_int : ∀ key ∈ allowedKeys, key.2 = .int → key.1 = mqttPortKey := by decide

theorem find_allowedKeys {k : Str} {kind : Kind} :
    Dict.find k allowedKeys = some kind ↔ (k, kind) ∈ allowedKeys :=
  (Dict.mem_iff_find nodup_allowedKeys).symm

/-! ## Defaults -/

/-- The default of a key. -/
def default (c : Config) (key : Str) : Value := ((defaults c).get? key).getD .none

theorem get?_defaults (c : Config) {key : Str × Kind} (h : key ∈ allowedKeys) :
    (defaults c).get? key.1 = some (default c key.1) := by
  have hsome : ((defaults c).get? key.1).isSome := by
    rw [← Dict.mem_keys]
    show key.1 ∈ (defaultEntries c).map Prod.fst
    rw [keys_defaultEntries]
    exact List.mem_map_of_mem h
  obtain ⟨v, hv⟩ := Option.isSome_iff_exists.mp hsome
  unfold default
  rw [hv]
  rfl

theorem default_port (c : Config) : default c mqttPortKey = .int c.mqttPort := rfl

/-- Every default passes the check of its key, but for the port of the environment. -/
theorem valid_default (c : Config) :
    ∀ key ∈ allowedKeys, key.1 ≠ mqttPortKey → validSetting key.1 (default c key.1) key.2 = true := by
  unfold allowedKeys
  simp only [List.forall_mem_cons, List.not_mem_nil, false_implies, implies_true, and_true]
  refine ⟨?_, ?_, ?_, ?_, ?_, ?_, ?_, ?_, ?_, ?_, ?_, ?_, ?_, ?_, ?_, ?_, ?_, ?_, ?_, ?_, ?_, ?_, ?_⟩
  case refine_19 => exact fun h => absurd rfl h
  all_goals exact fun _ => rfl

theorem scalar_default (c : Config) :
    ∀ key ∈ allowedKeys, ∀ s, default c key.1 = .str s → Scalar s := by
  have hnil : Scalar [] := fun _ h => (nomatch h)
  unfold allowedKeys
  simp only [List.forall_mem_cons, List.not_mem_nil, false_implies, implies_true, and_true]
  refine ⟨?_, ?_, ?_, ?_, ?_, ?_, ?_, ?_, ?_, ?_, ?_, ?_, ?_, ?_, ?_, ?_, ?_, ?_, ?_, ?_, ?_, ?_, ?_⟩
  case refine_1 => exact fun s h => Value.str.inj h ▸ c.scalar.1
  case refine_18 => exact fun s h => Value.str.inj h ▸ c.scalar.2.1
  case refine_20 => exact fun s h => Value.str.inj h ▸ c.scalar.2.2.1
  case refine_21 => exact fun s h => Value.str.inj h ▸ hnil
  case refine_22 => exact fun s h => Value.str.inj h ▸ hnil
  case refine_23 => exact fun s h => Value.str.inj h ▸ hnil
  all_goals exact fun s h => (nomatch h)

/-! ## Loading -/

/-- What an object stores for a key, if it is valid. -/
def storedValue (stored : List (Str × Value)) (key : Str × Kind) : Option Value :=
  (Dict.find key.1 stored).filter fun v => validSetting key.1 v key.2

/-- The setting of a key. -/
def effective (c : Config) (stored : Option (List (Str × Value))) (key : Str × Kind) : Value :=
  (stored.bind fun members => storedValue members key).getD (default c key.1)

theorem get?_overlayKey (stored : List (Str × Value)) (out : Object) (key : Str × Kind) (x : Str) :
    (overlayKey stored out key).get? x =
      if x = key.1 then (storedValue stored key).or (out.get? x) else out.get? x := by
  unfold overlayKey storedValue
  cases Dict.find key.1 stored with
  | none => simp
  | some v =>
    cases hvalid : validSetting key.1 v key.2 with
    | true =>
      dsimp only
      rw [if_pos hvalid, Dict.get?_set]
      simp [Option.filter, hvalid]
    | false => simp [Option.filter, hvalid]

theorem keys_overlayKey (stored : List (Str × Value)) {out : Object} {key : Str × Kind}
    (h : key.1 ∈ out.keys) : (overlayKey stored out key).keys = out.keys := by
  unfold overlayKey
  split
  · split
    · exact Dict.keys_set_of_mem h _
    · rfl
  · rfl

theorem get?_overlayKeys (stored : List (Str × Value)) {keys : List (Str × Kind)}
    (hkeys : (keys.map Prod.fst).Nodup) (out : Object) (x : Str) :
    (keys.foldl (overlayKey stored) out).get? x =
      match Dict.find x keys with
      | some kind => (storedValue stored (x, kind)).or (out.get? x)
      | none => out.get? x := by
  induction keys generalizing out with
  | nil => rfl
  | cons key keys ih =>
    obtain ⟨k, kind⟩ := key
    rw [List.map_cons, List.nodup_cons] at hkeys
    rw [List.foldl_cons, ih hkeys.2, Dict.find, get?_overlayKey]
    by_cases hx : x = k
    · subst hx
      have hnone : Dict.find x keys = none := by
        rw [← Option.not_isSome_iff_eq_none, Dict.isSome_find]
        exact hkeys.1
      rw [hnone, if_pos rfl, if_pos rfl]
    · rw [if_neg hx, if_neg hx]

theorem keys_overlayKeys (stored : List (Str × Value)) (keys : List (Str × Kind)) {out : Object}
    (h : ∀ key ∈ keys, key.1 ∈ out.keys) :
    (keys.foldl (overlayKey stored) out).keys = out.keys := by
  induction keys generalizing out with
  | nil => rfl
  | cons key keys ih =>
    have hfirst := keys_overlayKey stored (h key List.mem_cons_self)
    rw [List.foldl_cons, ih, hfirst]
    intro k hk
    rw [hfirst]
    exact h k (List.mem_cons_of_mem _ hk)

variable {rt : Runtime} {c : Config}

theorem keys_overlay (stored : Option (List (Str × Value))) :
    (overlay c stored).keys = allowedKeys.map Prod.fst := by
  cases stored with
  | none => exact keys_defaultEntries c
  | some members =>
    have hkeys : (defaults c).keys = allowedKeys.map Prod.fst := keys_defaultEntries c
    unfold overlay
    dsimp only
    rw [keys_overlayKeys members allowedKeys, hkeys]
    intro key hkey
    rw [hkeys]
    exact List.mem_map_of_mem hkey

theorem get?_overlay (stored : Option (List (Str × Value))) {key : Str × Kind}
    (h : key ∈ allowedKeys) : (overlay c stored).get? key.1 = some (effective c stored key) := by
  cases stored with
  | none => exact get?_defaults c h
  | some members =>
    unfold overlay effective
    dsimp only
    rw [get?_overlayKeys members nodup_allowedKeys, find_allowedKeys.mpr h, get?_defaults c h]
    show (storedValue members key).or _ = some ((storedValue members key).getD _)
    cases storedValue members key <;> rfl

theorem loadSettings_of_readStored {file : File} {stored : Option (List (Str × Value))}
    (h : readStored rt file = .ok stored) (mask : Bool) : loadSettings rt c file mask =
      .ok (if mask then maskSecrets (overlay c stored) else overlay c stored) := by
  unfold loadSettings
  rw [h]

theorem readStored_of_loadSettings {file : File} {mask : Bool} {d : Object}
    (h : loadSettings rt c file mask = .ok d) : ∃ stored, readStored rt file = .ok stored := by
  unfold loadSettings at h
  split at h
  · next stored hstored => exact ⟨stored, hstored⟩
  · cases h

/-! ## Writing -/

/-- A value that a file holds and gives back. -/
structure Writable (v : Value) : Prop where
  leaf : (leaf v).isSome
  joined : JoinedLeaf v
  digits : ∀ i, v = .int i → (natStr i.natAbs).length ≤ intMaxStrDigits

theorem leaf_of_accepts {kind : Kind} {v : Value} (h : kind.accepts v = true) : (leaf v).isSome := by
  cases kind <;> cases v <;> first | rfl | cases h

theorem accepts_of_valid {key : Str} {v : Value} {kind : Kind}
    (h : validSetting key v kind = true) : kind.accepts v = true := by
  unfold validSetting at h
  split at h
  · cases h
  · next haccepts => simpa using haccepts

theorem validSetting_port (v : Value) : validSetting mqttPortKey v .int = isPort v := by
  unfold validSetting
  cases v <;> rfl

theorem digits_port {i : Int} (h : isPort (.int i) = true) :
    (natStr i.natAbs).length ≤ intMaxStrDigits := by
  have hrange : 1 ≤ i ∧ i ≤ 65535 := by simpa [isPort] using h
  have hlen : (Nat.toDigits 10 i.natAbs).length ≤ 5 :=
    (Nat.length_toDigits_le_iff (by decide) (by decide)).mpr (by omega)
  unfold natStr intMaxStrDigits
  rw [List.length_map]
  omega

theorem writable_valid {key : Str × Kind} (hkey : key ∈ allowedKeys) {v : Value}
    (h : validSetting key.1 v key.2 = true) (hjoined : JoinedLeaf v) : Writable v := by
  have haccepts := accepts_of_valid h
  refine ⟨leaf_of_accepts haccepts, hjoined, ?_⟩
  rintro i rfl
  have hint : key.2 = .int := by
    cases hkind : key.2 with
    | int => rfl
    | _ =>
      rw [hkind] at haccepts
      cases haccepts
  rw [hint, kind_int key hkey hint, validSetting_port] at h
  exact digits_port h

theorem writable_default (c : Config) {key : Str × Kind} (hkey : key ∈ allowedKeys) :
    Writable (default c key.1) := by
  have hjoined : JoinedLeaf (default c key.1) := fun s hs =>
    (scalar_default c key hkey s hs).joined
  by_cases hport : key.1 = mqttPortKey
  · rw [hport, default_port]
    refine ⟨rfl, fun s hs => (nomatch hs), fun i hi => ?_⟩
    rw [← Value.int.inj hi]
    exact c.digits
  · exact writable_valid hkey (valid_default c key hkey hport) hjoined

/-- The strings that the file stores are joined. -/
theorem joined_stored {file : File} {members : List (Str × Value)}
    (h : readStored rt file = .ok (some members)) {k : Str} {v : Value}
    (hv : Dict.find k members = some v) : JoinedLeaf v := by
  rintro s rfl
  unfold readStored at h
  cases file with
  | none => cases h
  | some bytes =>
    dsimp only at h
    split at h
    · cases h
    · next text htext =>
      split at h
      · next tree htree =>
        have htidy := loads_tidy (scalar_readText htext) htree
        cases tree with
        | obj ms =>
          obtain rfl := Option.some.inj (Except.ok.inj h)
          obtain ⟨t, ht, hvalue⟩ := Tree.mem_members (Dict.mem_of_get?_ofList hv)
          obtain rfl := Tree.str_of_value_rounded hvalue
          exact htidy.members ms rfl k s ht
        | number n =>
          unfold Tree.value at h
          split at h <;> cases Except.ok.inj h
        | _ => cases h
      all_goals cases h

theorem writable_effective {file : File} {stored : Option (List (Str × Value))}
    (h : readStored rt file = .ok stored) {key : Str × Kind} (hkey : key ∈ allowedKeys) :
    Writable (effective c stored key) := by
  unfold effective
  cases stored with
  | none => exact writable_default c hkey
  | some members =>
    show Writable ((storedValue members key).getD (default c key.1))
    cases hv : storedValue members key with
    | none => exact writable_default c hkey
    | some v =>
      obtain ⟨hfind, hvalid⟩ := Option.filter_eq_some_iff.mp hv
      exact writable_valid hkey hvalid (joined_stored h hfind)

theorem dump_isSome (level : Nat) {v : Value} (h : Writable v) : (dump level v).isSome := by
  obtain ⟨hleaf, -, hdigits⟩ := h
  cases v with
  | bool b => rfl
  | str s => rfl
  | int i =>
    unfold dump
    rw [if_pos (hdigits i rfl)]
    rfl
  | _ => cases hleaf

theorem dumpMembers_isSome (level : Nat) {ms : List (Str × Value)}
    (h : ∀ m ∈ ms, Writable m.2) : (dumpMembers level ms).isSome := by
  induction ms with
  | nil => rfl
  | cons m ms ih =>
    obtain ⟨text, htext⟩ := Option.isSome_iff_exists.mp
      (dump_isSome level (h m List.mem_cons_self))
    obtain ⟨rest, hrest⟩ := Option.isSome_iff_exists.mp
      (ih fun m hm => h m (List.mem_cons_of_mem _ hm))
    rw [dumpMembers, htext, hrest]
    rfl

/-- The trees of the members of an object. -/
theorem exists_trees {ms : List (Str × Value)} (h : ∀ m ∈ ms, Writable m.2) :
    ∃ trees, List.Forall₂ (fun m t => m.1 = t.1 ∧ leaf m.2 = some t.2) ms trees ∧
      Tree.members Tree.rounded trees = ms := by
  induction ms with
  | nil => exact ⟨[], .nil, rfl⟩
  | cons m ms ih =>
    obtain ⟨trees, htrees, hvalues⟩ := ih fun m hm => h m (List.mem_cons_of_mem _ hm)
    obtain ⟨t, ht⟩ := Option.isSome_iff_exists.mp (h m List.mem_cons_self).leaf
    refine ⟨(m.1, t) :: trees, .cons ⟨rfl, ht⟩ htrees, ?_⟩
    rw [Tree.members, value_leaf ht, hvalues]

/-- **What is written is read.** -/
theorem readStored_written {merged : Object}
    (h : ∀ m ∈ merged.entries, Joined m.1 ∧ Writable m.2) :
    ∃ bytes, (dump 0 (.dict merged.entries)).bind Str.utf8 = some bytes ∧
      readStored rt (some bytes) = .ok (some merged.entries) := by
  have hwritable := fun m hm => (h m hm).2
  obtain ⟨text, htext⟩ : ∃ text, dump 0 (.dict merged.entries) = some text := by
    cases hentries : merged.entries with
    | nil => exact ⟨_, rfl⟩
    | cons m ms =>
      rw [hentries] at hwritable
      obtain ⟨texts, htexts⟩ := Option.isSome_iff_exists.mp (dumpMembers_isSome 1 hwritable)
      exact ⟨_, by rw [dump, htexts, Option.map_some]⟩
  obtain ⟨trees, htrees, hvalues⟩ := exists_trees hwritable
  obtain ⟨bytes, hbytes, hread⟩ := readText_plain
    (plain_dump (fun m hm => (h m hm).2.leaf) htext)
  refine ⟨bytes, by rw [htext, Option.bind_some, hbytes], ?_⟩
  have hloads := loads_dump rt.pos htrees (fun m hm => ⟨(h m hm).1, (h m hm).2.joined⟩) htext
  unfold readStored
  dsimp only
  rw [hread]
  dsimp only
  rw [hloads]
  show Except.ok (some (Dict.ofList (Tree.members Tree.rounded trees)).entries) = _
  rw [hvalues, Dict.entries_ofList merged.nodup]

/-! ## Patches -/

/-- The placeholder of a secret, which stands for the secret that is stored. -/
def keepsSecret (key : Str) (v : Value) : Bool := key ∈ secretKeys && isMasked v

/-- An entry of a patch passes. -/
def Passes (entry : Str × Value) : Prop :=
  ∃ kind, (entry.1, kind) ∈ allowedKeys ∧
    (keepsSecret entry.1 entry.2 = true ∨ validSetting entry.1 entry.2 kind = true)

theorem cleanEntry_ok {clean clean' : Object} {entry : Str × Value}
    (h : cleanEntry clean entry = .ok clean') : Passes entry ∧
      clean' = if keepsSecret entry.1 entry.2 then clean else clean.set entry.1 entry.2 := by
  unfold cleanEntry at h
  unfold Passes keepsSecret
  split at h
  · cases h
  · next kind hkind =>
    have hmem := find_allowedKeys.mp hkind
    split at h
    · next hsecret =>
      have hkeeps : (decide (entry.1 ∈ secretKeys) && isMasked entry.2) = true := by simpa using hsecret
      cases h
      exact ⟨⟨kind, hmem, Or.inl hkeeps⟩, by rw [if_pos hkeeps]⟩
    · next hsecret =>
      split at h
      · next hvalid =>
        cases h
        exact ⟨⟨kind, hmem, Or.inr hvalid⟩, by rw [if_neg (by simpa using hsecret)]⟩
      · cases h

theorem cleanEntry_of_passes (clean : Object) {entry : Str × Value} (h : Passes entry) :
    ∃ clean', cleanEntry clean entry = .ok clean' := by
  obtain ⟨kind, hmem, hpass⟩ := h
  unfold cleanEntry
  rw [find_allowedKeys.mpr hmem]
  dsimp only
  split
  · exact ⟨_, rfl⟩
  · next hsecret =>
    rcases hpass with hkeeps | hvalid
    · exact absurd (by simpa [keepsSecret] using hkeeps) hsecret
    · rw [if_pos hvalid]
      exact ⟨_, rfl⟩

theorem find_concat {es : List (Str × Value)} {e : Str × Value} (h : e.1 ∉ es.map Prod.fst)
    (k : Str) : Dict.find k (es ++ [e]) = if k = e.1 then some e.2 else Dict.find k es := by
  induction es with
  | nil => rfl
  | cons x es ih =>
    rw [List.map_cons, List.mem_cons, not_or] at h
    rw [List.cons_append, Dict.find, Dict.find, ih h.2]
    by_cases hk : k = x.1
    · have hne : k ≠ e.1 := fun he => h.1 (he ▸ hk)
      rw [if_pos hk, if_neg hne, if_pos hk]
    · rw [if_neg hk, if_neg hk]

/-- What a patch leaves of its entries. -/
theorem cleanPatch_ok {patch clean : Object} (h : cleanPatch patch = .ok clean) :
    (∀ entry ∈ patch.entries, Passes entry) ∧
      ∀ k, clean.get? k = (patch.get? k).filter fun v => !keepsSecret k v := by
  obtain ⟨entries, hnodup⟩ := patch
  unfold cleanPatch at h
  unfold Dict.get?
  dsimp only at h ⊢
  induction entries using List.reverseRecOn generalizing clean with
  | nil =>
    cases h
    exact ⟨fun _ h => (nomatch h), fun k => rfl⟩
  | append_singleton entries entry ih =>
    rw [List.map_append, List.nodup_append] at hnodup
    rw [List.foldlM_append] at h
    cases hfront : entries.foldlM cleanEntry Dict.empty with
    | error e =>
      rw [hfront] at h
      cases h
    | ok front =>
      rw [hfront] at h
      obtain ⟨hpasses, hget⟩ := ih hnodup.1 hfront
      have hlast : cleanEntry front entry = .ok clean := by
        change (cleanEntry front entry >>= pure) = _ at h
        rwa [bind_pure] at h
      obtain ⟨hpass, rfl⟩ := cleanEntry_ok hlast
      have hnew : entry.1 ∉ entries.map Prod.fst := fun hmem =>
        hnodup.2.2 _ hmem _ (List.mem_singleton_self _) rfl
      refine ⟨fun e he => ?_, fun k => ?_⟩
      · rcases List.mem_append.mp he with he | he
        · exact hpasses e he
        · exact List.mem_singleton.mp he ▸ hpass
      · have hfind : Dict.find k (entries ++ [entry]) =
            if k = entry.1 then some entry.2 else Dict.find k entries := find_concat hnew k
        have hclean : Dict.find k (if keepsSecret entry.1 entry.2 then front
            else front.set entry.1 entry.2).entries =
              if keepsSecret entry.1 entry.2 = false ∧ k = entry.1 then some entry.2
              else Dict.find k front.entries := by
          cases keepsSecret entry.1 entry.2 with
          | true => simp
          | false =>
            have hset := Dict.get?_set front entry.1 k entry.2
            unfold Dict.get? at hset
            simpa using hset
        rw [hclean, hfind, hget]
        by_cases hk : k = entry.1
        · subst hk
          have hnone : Dict.find entry.1 entries = none := by
            rw [← Option.not_isSome_iff_eq_none, Dict.isSome_find]
            exact hnew
          cases hkeeps : keepsSecret entry.1 entry.2 <;> simp [hnone, hkeeps, Option.filter]
        · simp [hk]

theorem cleanPatch_of_passes {patch : Object} (h : ∀ entry ∈ patch.entries, Passes entry) :
    ∃ clean, cleanPatch patch = .ok clean := by
  unfold cleanPatch
  generalize (Dict.empty : Object) = clean
  generalize patch.entries = entries at h
  induction entries generalizing clean with
  | nil => exact ⟨clean, rfl⟩
  | cons entry entries ih =>
    obtain ⟨next, hnext⟩ := cleanEntry_of_passes clean (h entry List.mem_cons_self)
    rw [List.foldlM_cons, hnext]
    exact ih next fun e he => h e (List.mem_cons_of_mem _ he)

theorem get?_update (d other : Object) (k : Str) :
    (update d other).get? k = (other.get? k).or (d.get? k) := by
  obtain ⟨entries, hnodup⟩ := other
  unfold update
  show _ = (Dict.find k entries).or (d.get? k)
  dsimp only
  induction entries using List.reverseRecOn with
  | nil => rfl
  | append_singleton entries entry ih =>
    rw [List.map_append, List.nodup_append] at hnodup
    have hnew : entry.1 ∉ entries.map Prod.fst := fun hmem =>
      hnodup.2.2 _ hmem _ (List.mem_singleton_self _) rfl
    rw [List.foldl_append, find_concat hnew]
    show (Dict.set _ entry.1 entry.2).get? k = _
    rw [Dict.get?_set, ih hnodup.1]
    by_cases hk : k = entry.1 <;> simp [hk]

theorem keys_update {d other : Object} (h : ∀ k ∈ other.keys, k ∈ d.keys) :
    (update d other).keys = d.keys := by
  unfold update
  have hmem : ∀ e ∈ other.entries, e.1 ∈ d.keys := fun e he => h e.1 (List.mem_map_of_mem he)
  clear h
  generalize other.entries = entries at hmem
  induction entries generalizing d with
  | nil => rfl
  | cons e es ih =>
    have hfirst := Dict.keys_set_of_mem (hmem e List.mem_cons_self) e.2
    rw [List.foldl_cons, ih, hfirst]
    intro x hx
    rw [hfirst]
    exact hmem x (List.mem_cons_of_mem _ hx)

/-- The strings of a patch that was read from JSON. -/
def FromJson (patch : Object) : Prop := ∀ k v, patch.get? k = some v → JoinedLeaf v

/-- What a save stores for a key. -/
def mergedValue (c : Config) (stored : Option (List (Str × Value))) (patch : Object)
    (key : Str × Kind) : Value :=
  ((patch.get? key.1).filter fun v => !keepsSecret key.1 v).getD (effective c stored key)

section Saves

variable {file : File} {stored : Option (List (Str × Value))} {patch clean : Object}

theorem get?_merged (hclean : cleanPatch patch = .ok clean) {key : Str × Kind}
    (hkey : key ∈ allowedKeys) :
    (update (overlay c stored) clean).get? key.1 = some (mergedValue c stored patch key) := by
  rw [get?_update, (cleanPatch_ok hclean).2, get?_overlay stored hkey]
  unfold mergedValue
  cases (patch.get? key.1).filter fun v => !keepsSecret key.1 v <;> rfl

theorem keys_merged (hclean : cleanPatch patch = .ok clean) :
    (update (overlay c stored) clean).keys = allowedKeys.map Prod.fst := by
  rw [keys_update, keys_overlay]
  intro k hk
  obtain ⟨v, hv⟩ := Option.isSome_iff_exists.mp (Dict.mem_keys.mp hk)
  rw [(cleanPatch_ok hclean).2] at hv
  obtain ⟨hpatch, -⟩ := Option.filter_eq_some_iff.mp hv
  obtain ⟨kind, hmem, -⟩ := (cleanPatch_ok hclean).1 _ (Dict.mem_entries.mpr hpatch)
  rw [keys_overlay]
  exact List.mem_map_of_mem hmem

/-- A value that a patch sets is valid. -/
theorem valid_of_patch (hclean : cleanPatch patch = .ok clean) {key : Str × Kind}
    (hkey : key ∈ allowedKeys) {v : Value} (hv : patch.get? key.1 = some v)
    (hkeeps : keepsSecret key.1 v = false) : validSetting key.1 v key.2 = true := by
  obtain ⟨kind, hmem, hpass⟩ := (cleanPatch_ok hclean).1 _ (Dict.mem_entries.mpr hv)
  have hkind : kind = key.2 := Option.some.inj
    ((find_allowedKeys.mpr hmem).symm.trans (find_allowedKeys.mpr (show (key.1, key.2) ∈ _ from hkey)))
  rw [hkind] at hpass
  exact hpass.resolve_left (by rw [hkeeps]; exact Bool.false_ne_true)

theorem writable_merged (hstored : readStored rt file = .ok stored) (hjson : FromJson patch)
    (hclean : cleanPatch patch = .ok clean) :
    ∀ m ∈ (update (overlay c stored) clean).entries, Joined m.1 ∧ Writable m.2 := by
  intro m hm
  have hget := Dict.mem_entries.mp hm
  have hkey : m.1 ∈ (update (overlay c stored) clean).keys := List.mem_map_of_mem hm
  rw [keys_merged hclean] at hkey
  obtain ⟨key, hmem, hfst⟩ := List.mem_map.mp hkey
  rw [← hfst, get?_merged hclean hmem] at hget
  refine ⟨hfst ▸ joined_allowedKeys key hmem, Option.some.inj hget ▸ ?_⟩
  unfold mergedValue
  cases hv : (patch.get? key.1).filter fun v => !keepsSecret key.1 v with
  | none => exact writable_effective hstored hmem
  | some v =>
    obtain ⟨hpatch, hkeeps⟩ := Option.filter_eq_some_iff.mp hv
    exact writable_valid hmem (valid_of_patch hclean hmem hpatch (by simpa using hkeeps))
      (hjson _ _ hpatch)

/-- **A save is accepted** when its patch passes, and its file reads as what it returns. -/
theorem saveSettings_of_clean (hstored : readStored rt file = .ok stored) (hjson : FromJson patch)
    (hclean : cleanPatch patch = .ok clean) : ∃ file',
      saveSettings rt c .works file patch = (.ok (update (overlay c stored) clean), file') ∧
        readStored rt file' = .ok (some (update (overlay c stored) clean).entries) := by
  obtain ⟨bytes, hbytes, hread⟩ :=
    readStored_written (writable_merged hstored hjson hclean)
  refine ⟨some bytes, ?_, hread⟩
  unfold saveSettings
  rw [hclean]
  dsimp only
  rw [loadSettings_of_readStored hstored]
  dsimp only
  rw [if_neg Bool.false_ne_true]
  unfold writePrivateSettings
  rw [hbytes]

/-- An accepted save. -/
theorem saveSettings_ok {disk : Disk} {r : Object} {file' : File}
    (h : saveSettings rt c disk file patch = (.ok r, file')) : disk = .works ∧
      (∃ stored, readStored rt file = .ok stored) ∧ ∃ clean, cleanPatch patch = .ok clean := by
  unfold saveSettings at h
  split at h
  · cases h
  · next clean hclean =>
    split at h
    · cases h
    · next settings hload =>
      refine ⟨?_, readStored_of_loadSettings hload, clean, hclean⟩
      unfold writePrivateSettings at h
      dsimp only at h
      cases disk with
      | works => rfl
      | _ =>
        split at h
        · next hwrite =>
          split at hwrite <;> cases hwrite
        · cases h

/-- An accepted save, with what it returns and leaves. -/
theorem saveSettings_accepted {disk : Disk} {r : Object} {file' : File} (hjson : FromJson patch)
    (h : saveSettings rt c disk file patch = (.ok r, file')) :
    ∃ stored clean, readStored rt file = .ok stored ∧ cleanPatch patch = .ok clean ∧
      r = update (overlay c stored) clean ∧ readStored rt file' = .ok (some r.entries) := by
  obtain ⟨rfl, ⟨stored, hstored⟩, clean, hclean⟩ := saveSettings_ok h
  obtain ⟨file'', hsave, hread⟩ := saveSettings_of_clean hstored hjson hclean
  rw [hsave] at h
  obtain ⟨hr, rfl⟩ := Prod.mk.inj h
  obtain rfl := Except.ok.inj hr
  exact ⟨stored, clean, hstored, hclean, rfl, hread⟩

/-- The setting of a key after a save, in this environment or another. -/
theorem effective_saved (later : Config) (hclean : cleanPatch patch = .ok clean) {key : Str × Kind}
    (hkey : key ∈ allowedKeys) :
    effective later (some (update (overlay c stored) clean).entries) key =
      if validSetting key.1 (mergedValue c stored patch key) key.2 then
        mergedValue c stored patch key
      else default later key.1 := by
  have hfind : Dict.find key.1 (update (overlay c stored) clean).entries =
      some (mergedValue c stored patch key) := get?_merged hclean hkey
  unfold effective storedValue
  rw [Option.bind_some, hfind]
  cases hvalid : validSetting key.1 (mergedValue c stored patch key) key.2 <;>
    simp [Option.filter, hvalid]

/-- In the same environment the settings after a save are those it returns. -/
theorem effective_saved_same (hclean : cleanPatch patch = .ok clean) {key : Str × Kind}
    (hkey : key ∈ allowedKeys) :
    effective c (some (update (overlay c stored) clean).entries) key =
      mergedValue c stored patch key := by
  rw [effective_saved c hclean hkey]
  split
  · rfl
  · next hinvalid =>
    unfold mergedValue at hinvalid ⊢
    cases hv : (patch.get? key.1).filter fun v => !keepsSecret key.1 v with
    | some v =>
      obtain ⟨hpatch, hkeeps⟩ := Option.filter_eq_some_iff.mp hv
      rw [hv] at hinvalid
      exact absurd (valid_of_patch hclean hkey hpatch (by simpa using hkeeps)) hinvalid
    | none =>
      rw [hv] at hinvalid
      show default c key.1 = effective c stored key
      change ¬ validSetting key.1 (effective c stored key) key.2 = true at hinvalid
      unfold effective at hinvalid ⊢
      cases hs : stored.bind fun members => storedValue members key with
      | none => rfl
      | some v =>
        rw [hs] at hinvalid
        obtain ⟨members, -, hstored⟩ := Option.bind_eq_some_iff.mp hs
        exact absurd (Option.filter_eq_some_iff.mp hstored).2 hinvalid

end Saves

end InverterDashboard.Settings
