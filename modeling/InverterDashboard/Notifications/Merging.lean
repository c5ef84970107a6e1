import InverterDashboard.Notifications.Slots

/-
  A set of leaves applied one by one is one simultaneous update of each slot.

  The result of `apply_platform_field` over leaves that name different fields does not depend on
  their order (`record_feed`), and the banners of a map depend on its records only
  (`notifications_congr`).
-/

namespace InverterDashboard.Notifications

open Python Cerbo

/-! ## Banners depend on the records -/

theorem leText_antisymm {a b : Str} (hab : leText a b = true) (hba : leText b a = true) : a = b := by
  induction a generalizing b with
  | nil =>
    cases b with
    | nil => rfl
    | cons y t => cases hba
  | cons x s ih =>
    cases b with
    | nil => cases hab
    | cons y t =>
      simp only [leText, Bool.or_eq_true, Bool.and_eq_true, decide_eq_true_eq] at hab hba
      rcases hab with h | ⟨rfl, h⟩
      · rcases hba with h' | ⟨rfl, -⟩
        · exact absurd (lt_trans h h') (lt_irrefl x)
        · exact absurd h (lt_irrefl _)
      · rcases hba with h' | ⟨-, h'⟩
        · exact absurd h' (lt_irrefl _)
        · rw [ih h h']

namespace SlotKey

theorem le_total (a b : SlotKey) : SlotKey.le a b = true ∨ SlotKey.le b a = true := by
  unfold SlotKey.le
  by_cases h : a.1 = b.1
  · rw [if_pos h, if_pos h.symm]
    simpa using Nat.le_total a.2 b.2
  · rw [if_neg h, if_neg (Ne.symm h)]
    exact leText_total a.1 b.1

theorem le_trans {a b c : SlotKey} (hab : SlotKey.le a b = true) (hbc : SlotKey.le b c = true) :
    SlotKey.le a c = true := by
  unfold SlotKey.le at hab hbc ⊢
  by_cases h : a.1 = b.1
  · rw [if_pos h, decide_eq_true_eq] at hab
    by_cases h' : b.1 = c.1
    · rw [if_pos h', decide_eq_true_eq] at hbc
      rw [if_pos (h.trans h'), decide_eq_true_eq]
      exact hab.trans hbc
    · rw [if_neg h'] at hbc
      rw [if_neg (fun hac => h' (h.symm.trans hac)), h]
      exact hbc
  · rw [if_neg h] at hab
    by_cases h' : b.1 = c.1
    · rw [if_neg (fun hac => h (hac.trans h'.symm)), ← h']
      exact hab
    · rw [if_neg h'] at hbc
      by_cases hac : a.1 = c.1
      · exact absurd (leText_antisymm hab (hac ▸ hbc)) h
      · rw [if_neg hac]
        exact leText_trans hab hbc

theorem le_antisymm {a b : SlotKey} (hab : SlotKey.le a b = true) (hba : SlotKey.le b a = true) :
    a = b := by
  unfold SlotKey.le at hab hba
  by_cases h : a.1 = b.1
  · rw [if_pos h, decide_eq_true_eq] at hab
    rw [if_pos h.symm, decide_eq_true_eq] at hba
    exact Prod.ext h (Nat.le_antisymm hab hba)
  · rw [if_neg h] at hab
    rw [if_neg (Ne.symm h)] at hba
    exact absurd (leText_antisymm hab hba) h

end SlotKey

instance : Std.Total bySlot := ⟨fun a b => SlotKey.le_total a.1 b.1⟩

instance : IsTrans (SlotKey × Slot) bySlot := ⟨fun _ _ _ => SlotKey.le_trans⟩

/-- Maps with the same records have the same entries, in some order. -/
theorem perm_entries {s t : Slots} (h : ∀ key, s.get? key = t.get? key) :
    s.entries.Perm t.entries := by
  refine (List.perm_ext_iff_of_nodup s.nodup.of_map t.nodup.of_map).mpr ?_
  rintro ⟨key, slot⟩
  rw [Dict.mem_entries, Dict.mem_entries, h key]

theorem sorted_congr {s t : Slots} (h : ∀ key, s.get? key = t.get? key) :
    s.entries.insertionSort bySlot = t.entries.insertionSort bySlot := by
  have hperm := ((List.perm_insertionSort bySlot s.entries).trans (perm_entries h)).trans
    (List.perm_insertionSort bySlot t.entries).symm
  refine hperm.eq_of_pairwise ?_ (List.pairwise_insertionSort _ _)
    (List.pairwise_insertionSort _ _)
  rintro ⟨a, x⟩ ⟨b, y⟩ ha hb hab hba
  obtain rfl : a = b := SlotKey.le_antisymm hab hba
  have hx := Dict.mem_entries.mp ((List.mem_insertionSort bySlot).mp ha)
  have hy := Dict.mem_entries.mp ((List.mem_insertionSort bySlot).mp hb)
  rw [h a, hy] at hx
  rw [Option.some.inj hx]

theorem notifications_congr {s t : Slots} (h : ∀ key, s.get? key = t.get? key) :
    notificationsFromPlatformSlots s = notificationsFromPlatformSlots t := by
  unfold notificationsFromPlatformSlots
  rw [sorted_congr h]

/-- The banners of a map are those of the slots that show. -/
theorem mem_notifications {s : Slots} {b : Banner} :
    b ∈ notificationsFromPlatformSlots s ↔
      ∃ key slot, s.get? key = some slot ∧ slot.shouldShow = true ∧ b = slot.banner key := by
  unfold notificationsFromPlatformSlots
  rw [List.mem_filterMap]
  constructor
  · rintro ⟨⟨key, slot⟩, hmem, hb⟩
    unfold slotToNotification at hb
    split at hb
    · next hshow =>
      obtain rfl := Option.some.inj hb
      exact ⟨key, slot, Dict.mem_entries.mp ((List.mem_insertionSort bySlot).mp hmem), hshow, rfl⟩
    · cases hb
  · rintro ⟨key, slot, hget, hshow, rfl⟩
    refine ⟨(key, slot), (List.mem_insertionSort bySlot).mpr (Dict.mem_entries.mpr hget), ?_⟩
    unfold slotToNotification
    rw [if_pos hshow]

/-! ## Simultaneous updates -/

/-- The fields of a slot that an update sets. -/
abbrev Update := PlatformField → Option Value

/-- The value an update gives a field, read by `f`, or what the field was. -/
def Update.read {α : Type} (u : Update) (field : PlatformField) (f : Value → α) (old : α) : α :=
  match u field with
  | some value => f value
  | none => old

/-- No valid time other than the last one. -/
def Update.keepsTime (u : Update) (slot : Slot) : Bool :=
  ((u .dateTime).bind eventDatetime).all fun next => slot.lastValidDateTime = some next

/-- From active to inactive. -/
def Update.withdraws (u : Update) (slot : Slot) : Bool :=
  (u .active).bind asBool = some false && slot.active = some true

def Update.keepsDismissal (u : Update) (slot : Slot) : Bool := u.keepsTime slot && !u.withdraws slot

/-- All fields of an update at once. -/
def Slot.merge (slot : Slot) (u : Update) : Slot where
  description := u.read .description asStr slot.description
  deviceName := u.read .deviceName asStr slot.deviceName
  service := u.read .service asStr slot.service
  dateTime := u.read .dateTime eventDatetime slot.dateTime
  lastValidDateTime := (((u .dateTime).bind eventDatetime).map some).getD slot.lastValidDateTime
  notifType := u.read .type asI64 slot.notifType
  pushTypeKnown := u.read .type explicitType slot.pushTypeKnown
  active := u.read .active asBool slot.active
  acknowledged := u.read .acknowledged asBool slot.acknowledged
  silenced := u.read .silenced asBool slot.silenced
  userDismissed := slot.userDismissed && u.keepsDismissal slot

/-- An update with one field more. -/
def Update.with (u : Update) (field : PlatformField) (value : Value) : Update := fun f =>
  if f = field then some value else u f

theorem merge_empty (slot : Slot) : slot.merge (fun _ => none) = slot := by
  simp [Slot.merge, Update.read, Update.keepsDismissal, Update.keepsTime, Update.withdraws]

/-- Setting a field and then the others of an update is one update. -/
theorem put_merge (slot : Slot) (u : Update) (field : PlatformField) (value : Value)
    (h : u field = none) : (slot.put field value).merge u = slot.merge (u.with field value) := by
  cases field with
  | dateTime =>
    cases hdate : eventDatetime value with
    | none =>
      simp [Slot.merge, Slot.put, Slot.applyDatetime, Update.read, Update.with,
        Update.keepsDismissal, Update.keepsTime, Update.withdraws, h, hdate]
    | some next =>
      simp [Slot.merge, Slot.put, Slot.applyDatetime, Update.read, Update.with,
        Update.keepsDismissal, Update.keepsTime, Update.withdraws, h, hdate, Bool.and_assoc]
  | active =>
    simp [Slot.merge, Slot.put, Update.read, Update.with, Update.keepsDismissal, Update.keepsTime,
      Update.withdraws, h, Bool.and_assoc, Bool.and_comm]
  | _ =>
    simp [Slot.merge, Slot.put, Update.read, Update.with, Update.keepsDismissal, Update.keepsTime,
      Update.withdraws, h]
    rfl

/-! ## Leaves -/

/-- Leaves applied one after the other. -/
def feed (slots : Slots) (leaves : List (Str × Value)) : Slots :=
  leaves.foldl (fun slots e => applyPlatformField slots e.1 e.2) slots

/-- The leaves of a snapshot with the values they stand for. -/
def unwrapped (snapshot : Object) : List (Str × Value) :=
  snapshot.entries.map fun e => (e.1, unwrap e.2)

/-- A rebuilt map is fed the unwrapped leaves. -/
theorem rebuild_eq (snapshot : Object) :
    rebuild snapshot = feed Dict.empty (unwrapped snapshot) := by
  unfold rebuild feed unwrapped
  rw [List.foldl_map]

/-- The slot and the field that the key of a leaf names. -/
def leafName (e : Str × Value) : Option (SlotKey × PlatformField) := parsePlatformLeafKey e.1

/-- A leaf whose key names a field, with a value the field accepts. -/
def LeafValid (e : Str × Value) : Prop :=
  ((leafName e).any fun name => validPlatformValue name.2 e.2) = true

instance : DecidablePred LeafValid := fun e =>
  inferInstanceAs (Decidable (((leafName e).any fun name => validPlatformValue name.2 e.2) = true))

theorem LeafValid.named {e : Str × Value} (h : LeafValid e) :
    ∃ key field, leafName e = some (key, field) ∧ validPlatformValue field e.2 = true := by
  unfold LeafValid at h
  cases hname : leafName e with
  | none =>
    rw [hname] at h
    cases h
  | some name =>
    rw [hname] at h
    exact ⟨name.1, name.2, rfl, h⟩

/-- What leaves say about a slot. -/
def updateOf (leaves : List (Str × Value)) (key : SlotKey) : Update := fun field =>
  (leaves.find? fun e => leafName e = some (key, field)).map Prod.snd

theorem apply_valid {slots : Slots} {e : Str × Value} {key : SlotKey} {field : PlatformField}
    (hname : leafName e = some (key, field)) (hvalid : validPlatformValue field e.2 = true) :
    applyPlatformField slots e.1 e.2 = slots.set key ((slots.record key).put field e.2) := by
  unfold applyPlatformField
  unfold leafName at hname
  rw [hname]
  exact if_pos hvalid

theorem record_set (slots : Slots) (key k : SlotKey) (slot : Slot) :
    Slots.record (slots.set key slot) k = if k = key then slot else slots.record k := by
  unfold Slots.record
  rw [Dict.get?_set]
  split
  · rfl
  · rfl

/-- A leaf in front of others, for its own slot and for every other one. -/
theorem updateOf_cons {e : Str × Value} {leaves : List (Str × Value)} {key : SlotKey}
    {field : PlatformField} (hname : leafName e = some (key, field)) (k : SlotKey) :
    updateOf (e :: leaves) k =
      if k = key then (updateOf leaves k).with field e.2 else updateOf leaves k := by
  funext f
  unfold updateOf
  rw [List.find?_cons, hname]
  by_cases hk : k = key
  · subst hk
    rw [if_pos rfl]
    unfold Update.with
    by_cases hf : f = field
    · subst hf
      simp
    · simp [hf, Ne.symm hf]
  · rw [if_neg hk]
    simp [Ne.symm hk]

theorem updateOf_notMem {leaves : List (Str × Value)} {key : SlotKey} {field : PlatformField}
    (h : some (key, field) ∉ leaves.map leafName) : updateOf leaves key field = none := by
  unfold updateOf
  rw [Option.map_eq_none_iff, List.find?_eq_none]
  intro e he hname
  exact h (List.mem_map.mpr ⟨e, he, of_decide_eq_true hname⟩)

/-- **One update.** Leaves that name different fields update each slot at once. -/
theorem record_feed {leaves : List (Str × Value)} (hvalid : ∀ e ∈ leaves, LeafValid e)
    (hnames : (leaves.map leafName).Nodup) (slots : Slots) (key : SlotKey) :
    Slots.record (feed slots leaves) key = (slots.record key).merge (updateOf leaves key) := by
  induction leaves generalizing slots with
  | nil => exact (merge_empty _).symm
  | cons e leaves ih =>
    obtain ⟨k, field, hname, hv⟩ := (hvalid e List.mem_cons_self).named
    rw [List.map_cons, List.nodup_cons] at hnames
    have hrest := ih (fun x hx => hvalid x (List.mem_cons_of_mem _ hx)) hnames.2
      (applyPlatformField slots e.1 e.2)
    have hfeed : feed slots (e :: leaves) = feed (applyPlatformField slots e.1 e.2) leaves := rfl
    rw [hfeed, hrest, apply_valid hname hv, record_set, updateOf_cons hname]
    by_cases hk : key = k
    · subst hk
      rw [if_pos rfl, if_pos rfl]
      exact put_merge _ _ _ _ (updateOf_notMem (hname ▸ hnames.1))
    · rw [if_neg hk, if_neg hk]

/-- The slots after leaves: those there were, and those the leaves name. -/
theorem has_feed {leaves : List (Str × Value)} (hvalid : ∀ e ∈ leaves, LeafValid e)
    (slots : Slots) (key : SlotKey) :
    (feed slots leaves).has key = true ↔
      slots.has key = true ∨ ∃ field, some (key, field) ∈ leaves.map leafName := by
  induction leaves generalizing slots with
  | nil => simp [feed]
  | cons e leaves ih =>
    obtain ⟨k, field, hname, hv⟩ := (hvalid e List.mem_cons_self).named
    have hfeed : feed slots (e :: leaves) = feed (applyPlatformField slots e.1 e.2) leaves := rfl
    rw [hfeed, ih (fun x hx => hvalid x (List.mem_cons_of_mem _ hx)), apply_valid hname hv]
    unfold Dict.has
    rw [Dict.get?_set, List.map_cons, hname]
    by_cases hk : key = k
    · subst hk
      simp
    · simp [hk]

/-- What leaves say does not depend on their order. -/
theorem updateOf_perm {xs ys : List (Str × Value)} (h : xs.Perm ys)
    (hnames : (xs.map leafName).Nodup) (key : SlotKey) : updateOf xs key = updateOf ys key := by
  have hmem : ∀ {zs : List (Str × Value)}, (zs.map leafName).Nodup → ∀ {field value},
      updateOf zs key field = some value ↔ ∃ e ∈ zs, leafName e = some (key, field) ∧ e.2 = value := by
    intro zs hzs field value
    unfold updateOf
    rw [Option.map_eq_some_iff]
    constructor
    · rintro ⟨e, he, rfl⟩
      have hname := List.find?_some he
      exact ⟨e, List.mem_of_find?_eq_some he, by simpa using hname, rfl⟩
    · rintro ⟨e, he, hname, rfl⟩
      have hsome : (zs.find? fun e => leafName e = some (key, field)).isSome := by
        rw [List.find?_isSome]
        exact ⟨e, he, by simpa using hname⟩
      obtain ⟨x, hx⟩ := Option.isSome_iff_exists.mp hsome
      have hxname : leafName x = some (key, field) := by simpa using List.find?_some hx
      have hxe : x = e := List.inj_on_of_nodup_map hzs (List.mem_of_find?_eq_some hx) he
        (hxname.trans hname.symm)
      exact ⟨x, hx, by rw [hxe]⟩
  funext field
  refine Option.ext fun value => ?_
  rw [hmem hnames, hmem ((h.map leafName).nodup_iff.mp hnames)]
  simp only [h.mem_iff]

end InverterDashboard.Notifications
