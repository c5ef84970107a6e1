import InverterDashboard.Notifications.Changes
import InverterDashboard.Notifications.Merging

/-
  Whose banners an edit touches.

  The ids of the platform are those of its slots (`platformId_inj`), so the entry of such an id is
  looked up in the slots (`lookup_notifications`); the edits of alarms touch raw ids only
  (`rawEdit_report`).
-/

namespace InverterDashboard.Notifications

open Python Cerbo Bounded

/-! ## Ids -/

/-- A key that a leaf can name. -/
def SlotKey.Named (key : SlotKey) : Prop := isAsciiDecimal key.1 = true ∧ key.2 ≤ 20

theorem named_of_parse {s : Str} {key : SlotKey} {field : PlatformField}
    (h : parsePlatformLeafKey s = some (key, field)) : key.Named := by
  unfold parsePlatformLeafKey at h
  split at h
  · split at h
    · next hguard =>
      simp only [Option.bind_eq_some_iff, Option.map_eq_some_iff, Option.filter_eq_some_iff] at h
      obtain ⟨field', -, n, ⟨-, hn⟩, heq⟩ := h
      obtain ⟨rfl, -⟩ := Prod.mk.inj heq
      simp only [Bool.and_eq_true] at hguard
      exact ⟨hguard.1.2, by simpa using hn⟩
    · cases h
  · cases h

theorem dash_notMem {s : Str} (h : isAsciiDecimal s = true) : dash ∉ s := by
  intro hmem
  unfold isAsciiDecimal at h
  rw [Bool.and_eq_true, List.all_eq_true] at h
  have hdigit := h.2 dash hmem
  revert hdigit
  decide

theorem natStr_injective : Function.Injective natStr := by
  intro m n h
  have hdigits := List.map_injective_iff.mpr CodePoint.ofChar_injective h
  rw [← Nat.ofDigitChars_ten_toDigits (n := m), hdigits, Nat.ofDigitChars_ten_toDigits]

/-- What precedes the first dash, and what follows it. -/
theorem append_dash_inj {a b s t : Str} (ha : dash ∉ a) (hb : dash ∉ b)
    (h : a ++ [dash] ++ s = b ++ [dash] ++ t) : a = b ∧ s = t := by
  induction a generalizing b with
  | nil =>
    cases b with
    | nil => exact ⟨rfl, by simpa using h⟩
    | cons c b =>
      have hc : dash = c := (List.cons.inj h).1
      exact absurd (hc ▸ List.mem_cons_self) hb
  | cons c a ih =>
    cases b with
    | nil =>
      have hc : c = dash := (List.cons.inj h).1
      exact absurd (hc ▸ List.mem_cons_self) ha
    | cons d b =>
      obtain ⟨rfl, htail⟩ := List.cons.inj h
      obtain ⟨rfl, hst⟩ := ih (fun hm => ha (List.mem_cons_of_mem _ hm))
        (fun hm => hb (List.mem_cons_of_mem _ hm)) htail
      exact ⟨rfl, hst⟩

theorem platformId_inj {a b : SlotKey} (ha : a.Named) (hb : b.Named)
    (h : platformId a = platformId b) : a = b := by
  unfold platformId at h
  rw [List.append_assoc, List.append_assoc, List.append_assoc, List.append_assoc] at h
  have htail := List.append_cancel_left h
  rw [← List.append_assoc, ← List.append_assoc] at htail
  obtain ⟨hinst, hslot⟩ := append_dash_inj (dash_notMem ha.1) (dash_notMem hb.1) htail
  exact Prod.ext hinst (natStr_injective hslot)

theorem isPlatformId_platformId (key : SlotKey) : isPlatformId (platformId key) = true := by
  unfold isPlatformId platformId
  rw [List.isPrefixOf_iff_prefix, List.append_assoc]
  exact List.prefix_append _ _

theorem not_raw_of_platform {id : Str} (h : isPlatformId id = true) : isRawId id = false := by
  unfold isPlatformId at h
  rw [List.isPrefixOf_iff_prefix] at h
  obtain ⟨rest, rfl⟩ := h
  rfl

/-! ## Slots -/

/-- Only keys that a leaf can name have a slot. -/
def Slots.Named (slots : Slots) : Prop := ∀ key slot, slots.get? key = some slot → SlotKey.Named key

theorem Slots.Named.set {slots : Slots} (h : slots.Named) {key : SlotKey} (hkey : key.Named)
    (slot : Slot) : Slots.Named (Dict.set slots key slot) := by
  intro k s hget
  rw [Dict.get?_set] at hget
  split at hget
  · next hk => exact hk ▸ hkey
  · exact h k s hget

theorem Slots.Named.apply {slots : Slots} (h : slots.Named) (leaf : Str) (value : Value) :
    (applyPlatformField slots leaf value).Named := by
  unfold applyPlatformField
  split
  · next hparse =>
    split
    · exact h.set (named_of_parse hparse) _
    · exact h
  · exact h

theorem Slots.Named.dismiss {slots : Slots} (h : slots.Named) (nid : Str) :
    (slots.dismiss nid).Named := by
  unfold Slots.dismiss
  split
  · split
    · split
      · next hget => exact h.set (h _ _ hget) _
      · exact h
    · exact h
  · exact h

theorem named_rebuild (leaves : Object) : (rebuild leaves).Named := by
  have hfold : ∀ (es : List (Str × Value)) (slots : Slots), slots.Named →
      Slots.Named (es.foldl (fun slots e => applyPlatformField slots e.1 (unwrap e.2)) slots) := by
    intro es
    induction es with
    | nil => exact fun _ h => h
    | cons e es ih => exact fun slots h => ih _ (h.apply _ _)
  exact hfold _ _ fun key slot hget => by cases hget

theorem named_sync (slots : Slots) (leaves : Object) : (syncPlatformMap slots leaves).Named := by
  intro key slot hget
  unfold syncPlatformMap at hget
  rw [Dict.get?_mapValues, Option.map_eq_some_iff] at hget
  obtain ⟨built, hbuilt, -⟩ := hget
  exact named_rebuild leaves key built hbuilt

/-- What a dismissal does to a slot. -/
theorem get?_dismiss (slots : Slots) (nid : Str) (key : SlotKey) :
    (slots.dismiss nid).get? key =
      if isPlatformId nid = true ∧ dismissedSlot nid = some key then
        (slots.get? key).map fun slot => { slot with userDismissed := true }
      else slots.get? key := by
  unfold Slots.dismiss isPlatformId
  by_cases hplatform : platformPrefix.isPrefixOf nid = true
  · rw [if_pos hplatform]
    cases hslot : dismissedSlot nid with
    | none => simp
    | some k =>
      dsimp only
      by_cases hk : k = key
      · subst hk
        rw [if_pos ⟨hplatform, rfl⟩]
        cases hget : slots.get? k with
        | none => exact hget
        | some slot => simp
      · rw [if_neg fun hboth => hk (Option.some.inj hboth.2)]
        cases hget : slots.get? k with
        | none => rfl
        | some slot => exact Dict.get?_set_ne _ _ (Ne.symm hk)
  · rw [if_neg hplatform, if_neg fun hboth => hplatform hboth.1]

/-- The slots that stay when a session ends. -/
theorem get?_retained (slots : Slots) (key : SlotKey) :
    (Board.retainedSlots slots).get? key =
      ((slots.get? key).filter Slot.userDismissed).map Board.retainedSlot := by
  unfold Board.retainedSlots
  rw [Dict.get?_mapValues]
  congr 1
  refine Option.ext fun slot => ?_
  rw [← Dict.mem_entries, Option.filter_eq_some_iff, ← Dict.mem_entries]
  exact List.mem_filter

theorem named_after {b : Board} (h : b.platformSlots.Named) (op : BoardOp) :
    (slotsAfter b op).Named := by
  cases op with
  | platform topic body =>
    unfold slotsAfter
    dsimp only
    split
    · exact h.apply _ _
    · exact h
  | snapshot snapshot =>
    unfold slotsAfter
    dsimp only
    split
    · exact named_sync _ _
    · exact h
  | dismiss nid forgotten => exact h.dismiss nid
  | clear =>
    intro key slot hget
    unfold slotsAfter at hget
    dsimp only at hget
    rw [get?_retained, Option.map_eq_some_iff] at hget
    obtain ⟨old, hold, -⟩ := hget
    exact h key old (Option.filter_eq_some_iff.mp hold).1
  | _ => exact h

/-! ## Banners of slots -/

theorem id_of_mem {slots : Slots} {banner : Banner} (h : banner ∈ notificationsFromPlatformSlots slots) :
    isPlatformId banner.id = true := by
  obtain ⟨key, slot, -, -, rfl⟩ := mem_notifications.mp h
  exact isPlatformId_platformId key

theorem nodup_notifications {slots : Slots} (h : slots.Named) :
    ((notificationsFromPlatformSlots slots).map Banner.id).Nodup := by
  unfold notificationsFromPlatformSlots List.Nodup
  rw [List.pairwise_map]
  have hkeys : ((slots.entries.insertionSort bySlot).map Prod.fst).Nodup :=
    ((List.perm_insertionSort bySlot slots.entries).map Prod.fst).nodup_iff.mpr slots.nodup
  unfold List.Nodup at hkeys
  rw [List.pairwise_map] at hkeys
  have hpair : (slots.entries.insertionSort bySlot).Pairwise
      fun a b => SlotKey.Named a.1 ∧ SlotKey.Named b.1 ∧ a.1 ≠ b.1 := by
    refine hkeys.imp_of_mem ?_
    intro a b ha hb hne
    have hget := fun {e} (he : e ∈ slots.entries.insertionSort bySlot) =>
      h e.1 e.2 (Dict.mem_entries.mp ((List.mem_insertionSort bySlot).mp he))
    exact ⟨hget ha, hget hb, hne⟩
  refine List.Pairwise.filterMap _ ?_ hpair
  rintro a b ⟨ha, hb, hne⟩ x hx y hy hid
  have hbanner : ∀ {e : SlotKey × Slot} {z : Banner}, slotToNotification e.1 e.2 = some z →
      z.id = platformId e.1 := by
    intro e z hz
    unfold slotToNotification at hz
    split at hz
    · rw [← Option.some.inj hz]
      rfl
    · cases hz
  rw [hbanner hx, hbanner hy] at hid
  exact hne (platformId_inj ha hb hid)

theorem lookup_some_iff {slots : Slots} (h : slots.Named) {id : Str} {banner : Banner} :
    lookup Banner.id id (notificationsFromPlatformSlots slots) = some banner ↔
      ∃ key slot, slots.get? key = some slot ∧ slot.shouldShow = true ∧ banner = slot.banner key ∧
        platformId key = id := by
  constructor
  · intro hlookup
    have hid := key_of_lookup hlookup
    obtain ⟨key, slot, hget, hshow, rfl⟩ := mem_notifications.mp (List.mem_of_find?_eq_some hlookup)
    exact ⟨key, slot, hget, hshow, rfl, hid⟩
  · rintro ⟨key, slot, hget, hshow, rfl, rfl⟩
    exact (mem_iff_lookup (nodup_notifications h)).mp
      (mem_notifications.mpr ⟨key, slot, hget, hshow, rfl⟩)

/-- The banner of a slot in the banners of all. -/
theorem lookup_notifications {slots : Slots} (h : slots.Named) {key : SlotKey} (hkey : key.Named) :
    lookup Banner.id (platformId key) (notificationsFromPlatformSlots slots) =
      (slots.get? key).bind (slotToNotification key) := by
  refine Option.ext fun banner => ?_
  rw [lookup_some_iff h, Option.bind_eq_some_iff]
  constructor
  · rintro ⟨k, slot, hget, hshow, rfl, hid⟩
    obtain rfl : k = key := platformId_inj (h k slot hget) hkey hid
    exact ⟨slot, hget, if_pos hshow⟩
  · rintro ⟨slot, hget, hslot⟩
    unfold slotToNotification at hslot
    split at hslot
    · next hshow => exact ⟨key, slot, hget, hshow, (Option.some.inj hslot).symm, rfl⟩
    · cases hslot

/-- Showing slots replaces the banners of the platform, and leaves the others alone. -/
theorem lookup_show {slots : Slots} (h : slots.Named) (l : List Banner) (id : Str) :
    lookup Banner.id id (edits Banner.id uncut l (showEdits slots)) =
      if isPlatformId id then lookup Banner.id id (notificationsFromPlatformSlots slots)
      else lookup Banner.id id l := by
  unfold showEdits
  rw [edits_cons, lookup_puts _ _ _ (nodup_notifications h), lookup_edit]
  show (lookup Banner.id id _).or (if !isPlatformId id then lookup Banner.id id l else none) = _
  cases hid : isPlatformId id with
  | true => simp
  | false =>
    have hnone : lookup Banner.id id (notificationsFromPlatformSlots slots) = none := by
      unfold Bounded.lookup
      rw [List.find?_eq_none]
      intro banner hmem hb
      rw [decide_eq_true_eq] at hb
      rw [← hb, id_of_mem hmem] at hid
      cases hid
    rw [hnone]
    rfl

theorem lookup_platformEdits {slots : Slots} (h : slots.Named) (active : Bool) (l : List Banner)
    {id : Str} (hid : isPlatformId id = true) :
    lookup Banner.id id (edits Banner.id uncut l (platformEdits active slots)) =
      lookup Banner.id id (notificationsFromPlatformSlots slots) := by
  unfold platformEdits
  rw [edits_append, lookup_show h, if_pos hid]

/-- The banner of an id depends on the slots of that id. -/
theorem lookup_shown_congr {s t : Slots} (hs : s.Named) (ht : t.Named) {id : Str}
    (h : ∀ key, platformId key = id → s.get? key = t.get? key) :
    lookup Banner.id id (notificationsFromPlatformSlots s) =
      lookup Banner.id id (notificationsFromPlatformSlots t) := by
  refine Option.ext fun banner => ?_
  rw [lookup_some_iff hs, lookup_some_iff ht]
  constructor
  · rintro ⟨key, slot, hget, hshow, hbanner, hid⟩
    exact ⟨key, slot, h key hid ▸ hget, hshow, hbanner, hid⟩
  · rintro ⟨key, slot, hget, hshow, hbanner, hid⟩
    exact ⟨key, slot, (h key hid).symm ▸ hget, hshow, hbanner, hid⟩

/-! ## Banners of alarms -/

/-- The fronts of the ids of raw alarms. -/
def rawFronts : List Str := [Str.lit "victron-N/", Str.lit "victron-alarm-"]

theorem isRawId_front {front : Str} (h : front ∈ rawFronts) (rest : Str) :
    isRawId (front ++ rest) = true := by
  unfold isRawId
  rw [Bool.or_eq_true, List.isPrefixOf_iff_prefix, List.isPrefixOf_iff_prefix]
  rcases List.mem_pair.mp h with rfl | rfl
  · exact Or.inl (List.prefix_append _ _)
  · exact Or.inr (List.prefix_append _ _)

theorem strip_front {front : Str} (h : front ∈ rawFronts) (rest : Str) :
    Str.strip (front ++ rest) = front ++ Str.rstrip rest := by
  rcases List.mem_pair.mp h with rfl | rfl
  · exact Str.strip_append (by decide) (by decide) rest
  · exact Str.strip_append (by decide) (by decide) rest

/-- A report whose banner is one of a raw alarm. -/
structure Board.AlarmReport.Raw (u : Unicode) (r : Board.AlarmReport) : Prop where
  id : ∃ front ∈ rawFronts, ∃ rest, r.nid = front ++ rest
  data : ∃ title name, r.data = Board.alarmData u r.nid title name r.value

variable {u : Unicode}

/-- A notification with an id. -/
theorem normalize_id {es : List (Str × Value)} {nid : Str}
    (hid : ((Value.member (Str.lit "id") es).textOr u (Str.lit "")).strip = nid)
    (hne : nid.isEmpty = false) : ∃ banner, normalizeNotification u (.dict es) = some banner ∧
      banner.id = nid ∧ banner.level =
        levelOf ((Value.member (Str.lit "level") es).textOr u (Str.lit "info")).strip.lower := by
  subst hid
  refine ⟨_, if_neg (by rw [hne]; simp), ?_, rfl⟩
  dsimp only
  rw [hne]
  rfl

/-- The banner of an alarm. -/
theorem normalize_alarm {r : Board.AlarmReport} (h : r.Raw u) :
    ∃ banner, normalizeNotification u r.data = some banner ∧ banner.id = r.nid.strip ∧
      isRawId banner.id = true ∧
      banner.level = if r.value = 2 then Level.alarm else Level.warning := by
  obtain ⟨front, hfront, rest, hnid⟩ := h.id
  obtain ⟨title, name, hdata⟩ := h.data
  have hstrip : Str.strip r.nid = front ++ Str.rstrip rest := by rw [hnid, strip_front hfront]
  have hnonempty : r.nid.isEmpty = false ∧ r.nid.strip.isEmpty = false := by
    rw [hstrip, hnid]
    rcases List.mem_pair.mp hfront with rfl | rfl
    · exact ⟨rfl, rfl⟩
    · exact ⟨rfl, rfl⟩
  have htext : ∀ fields, (Value.member (Str.lit "id")
      ((Str.lit "id", .str r.nid) :: fields)).textOr u (Str.lit "") = r.nid := by
    intro fields
    unfold Value.textOr Value.truthy
    simp [Value.member, Dict.find, hnonempty.1, Value.text]
  rw [hdata]
  obtain ⟨banner, hbanner, hid, hlevel⟩ := normalize_id (u := u)
    (congrArg Str.strip (htext _)) hnonempty.2
  refine ⟨banner, hbanner, hid, ?_, ?_⟩
  · rw [hid, hstrip]
    exact isRawId_front hfront _
  · rw [hlevel]
    by_cases hv : r.value = 2
    · rw [hv]
      rfl
    · simp only [if_neg hv]
      rfl

theorem raw_messageReport {topic : Str} {body : Body} {r : Board.AlarmReport}
    (htopic : (Str.lit "N/").isPrefixOf topic = true)
    (h : Board.messageReport u topic body = some r) : r.Raw u := by
  unfold Board.messageReport at h
  obtain ⟨value, -, rfl⟩ := Option.map_eq_some_iff.mp h
  rw [List.isPrefixOf_iff_prefix] at htopic
  obtain ⟨rest, rfl⟩ := htopic
  exact ⟨⟨Str.lit "victron-N/", List.mem_cons_self, rest, rfl⟩, ⟨_, _, rfl⟩⟩

theorem snapshotAlarmId_front (parsed : Str × Str) :
    ∃ front ∈ rawFronts, ∃ rest, Board.snapshotAlarmId parsed = front ++ rest := by
  refine ⟨Str.lit "victron-alarm-", by simp [rawFronts], parsed.1 ++ [dash] ++ parsed.2, ?_⟩
  unfold Board.snapshotAlarmId
  simp

theorem raw_leafReport {bucket : Str} {leaf : Str × Value} {r : Board.AlarmReport}
    (h : Board.leafReport u bucket leaf = some r) : r.Raw u := by
  unfold Board.leafReport at h
  obtain ⟨parsed, -, h⟩ := Option.bind_eq_some_iff.mp h
  obtain ⟨value, -, rfl⟩ := Option.map_eq_some_iff.mp h
  exact ⟨snapshotAlarmId_front parsed, ⟨_, _, rfl⟩⟩

/-- An edit that touches raw ids only. -/
def RawEdit (e : BannerEdit) : Prop :=
  ∀ id, isRawId id = false → ∀ old, e.at Banner.id id old = old

theorem rawEdit_removal {nid : Str} (h : ∃ front ∈ rawFronts, ∃ rest, nid = front ++ rest) :
    RawEdit (.keep (· ≠ nid)) := by
  obtain ⟨front, hfront, rest, rfl⟩ := h
  intro id hid old
  refine if_pos ?_
  rw [decide_eq_true_eq]
  rintro rfl
  rw [isRawId_front hfront] at hid
  cases hid

theorem rawEdit_report {r : Board.AlarmReport} (h : r.Raw u) (dismissed : List Str)
    (values : Dict Str Nat) : ∀ e ∈ reportEdits u dismissed values r, RawEdit e := by
  intro e he
  unfold reportEdits at he
  split at he
  · cases he
  · split at he
    · unfold pushEdits at he
      obtain ⟨banner, hbanner, -, hraw, -⟩ := normalize_alarm h
      rw [hbanner] at he
      dsimp only at he
      split at he
      · cases he
      · rw [List.mem_singleton] at he
        subst he
        intro id hid old
        refine if_neg ?_
        rintro rfl
        rw [hraw] at hid
        cases hid
    · rw [List.mem_singleton] at he
      subst he
      exact rawEdit_removal h.id

/-- The edits of an alarm message touch raw banners only. -/
theorem rawEdit_message {b : Board} {topic : Str} {body : Body}
    (h : (Str.lit "N/").isPrefixOf topic = true) :
    ∀ e ∈ opEdits u b (.alarm topic body), RawEdit e := by
  intro e he
  unfold opEdits at he
  dsimp only at he
  split at he
  · cases he
  · split at he
    · next r hreport => exact rawEdit_report (raw_messageReport h hreport) _ _ e he
    · cases he

/-- A dismissal removes the banner of its id. -/
theorem lookup_dismissEdits (b : Board) (nid : Str) (forgotten : Nat) (id : Str) (l : List Banner) :
    lookup Banner.id id (edits Banner.id uncut l (opEdits u b (.dismiss nid forgotten))) =
      if nid.isEmpty = false ∧ id = nid then none else lookup Banner.id id l := by
  unfold opEdits
  dsimp only
  cases nid.isEmpty with
  | true => rfl
  | false =>
    show lookup Banner.id id (edit Banner.id uncut l (.keep (· ≠ nid))) = _
    rw [lookup_edit]
    by_cases hnid : id = nid <;> simp [Edit.at, hnid]

end InverterDashboard.Notifications
