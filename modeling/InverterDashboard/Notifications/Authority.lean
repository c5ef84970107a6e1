import InverterDashboard.Notifications.Alarms

/-
  What the banner list shows, over every run of a source.

  Always: distinct ids, at most `NOTIFICATIONS_MAX` of them, no raw alarm once the platform has
  reported, and only current banners of the platform. While few banners are live also the converse:
  every slot that shows has its banner, and the raw alarms follow the last accepted values.

  Two things break this (`authority_differs`). `int` reads other texts as the number of a slot, and
  then the slot is dismissed while its banner stays. And a snapshot lists its new alarms before it
  takes away those that are gone, so that the list can be cut although few banners are live before
  and after: a banner that is cut does not come back, as its alarm does not change.
-/

namespace InverterDashboard.Notifications

open Python Cerbo Bounded Temporal

variable (u : Unicode)

/-! ## What is promised -/

/-- Alarm topics start with `N/`, and the controller's notifications have ids of their own. -/
def Admitted : BoardOp → Prop
  | .alarm topic _ => (Str.lit "N/").isPrefixOf topic = true
  | .push data => (normalizeNotification u data).all
      (fun banner => !isRawId banner.id && !isPlatformId banner.id) = true
  | _ => True

instance : DecidablePred (Admitted u) := fun
  | .alarm topic _ => inferInstanceAs (Decidable ((Str.lit "N/").isPrefixOf topic = true))
  | .push data => inferInstanceAs (Decidable ((normalizeNotification u data).all
      (fun banner => !isRawId banner.id && !isPlatformId banner.id) = true))
  | .platform _ _ => isTrue trivial
  | .snapshot _ => isTrue trivial
  | .dismiss _ _ => isTrue trivial
  | .clear => isTrue trivial

/-- An id that is read as a slot that shows is the id of that slot. -/
def exactDismissal (b : Board) : BoardOp → Bool
  | .dismiss nid _ => !isPlatformId nid || (dismissedSlot nid).all fun key =>
      (b.platformSlots.get? key).all fun slot => !slot.shouldShow || nid = platformId key
  | _ => true

/-- The ids dismissed in a run. -/
def dismissedIn (ops : List BoardOp) : List Str :=
  ops.filterMap fun
    | .dismiss nid _ => some nid
    | _ => none

/-- The view of the messages of a run. -/
def view (ops : List BoardOp) : View := replay (viewStep u) View.init ops

/-- A banner is taken away, and its slot dismissed; nothing else changes. -/
structure HidesOne (banner : Banner) (b b' : Board) : Prop where
  banners : b'.notifications = b.notifications.filter (·.id ≠ banner.id)
  slots : ∃ key slot, platformId key = banner.id ∧ b.platformSlots.get? key = some slot ∧
    ∀ k, b'.platformSlots.get? k =
      if k = key then some { slot with userDismissed := true } else b.platformSlots.get? k
  rest : b' = { b with notifications := b'.notifications, platformSlots := b'.platformSlots }

/-- What always holds after a run. -/
structure Authoritative (ops : List BoardOp) (b : Board) : Prop where
  distinct : (b.notifications.map Banner.id).Nodup
  bounded : b.notifications.length ≤ notificationsMax
  raw : (view u ops).seen = true → ∀ banner ∈ b.notifications, isRawId banner.id = false
  platform : ∀ banner ∈ b.notifications, isPlatformId banner.id = true →
    ∃ key slot, b.platformSlots.get? key = some slot ∧ slot.shouldShow = true ∧
      banner = slot.banner key
  dismissal : ∀ banner ∈ b.notifications, isPlatformId banner.id = true → ∀ forgotten,
    HidesOne banner b (boardStep u .program b (.dismiss banner.id forgotten))

/-- What holds as long as few banners are live. -/
structure AllShown (ops : List BoardOp) (b : Board) : Prop where
  slots : ∀ key slot, b.platformSlots.get? key = some slot → slot.shouldShow = true →
    slot.banner key ∈ b.notifications
  alarms : (view u ops).seen = false → ∀ topic nid, PlainAlarm topic nid →
    (lookup Banner.id nid b.notifications).map Banner.level =
      if nid ∈ dismissedIn ops then none else alarmLevel ((view u ops).value topic)

/-! ## Ids of slots -/

theorem platform_ne {id : Str} (h : isPlatformId id = true) : id.isEmpty = false := by
  rw [List.isEmpty_eq_false_iff]
  rintro rfl
  cases h

theorem slot_number : ∀ n : Fin 21,
    Str.toInt? (natStr n) = some (n : Int) ∧ dash ∉ natStr n := by
  decide +kernel

/-- The id of a slot is read as that slot. -/
theorem dismissedSlot_platformId {key : SlotKey} (h : key.Named) :
    dismissedSlot (platformId key) = some key := by
  obtain ⟨hint, hdash⟩ := slot_number ⟨key.2, Nat.lt_succ_of_le h.2⟩
  dsimp only at hint hdash
  have hrest : (platformId key).drop platformPrefix.length = key.1 ++ [dash] ++ natStr key.2 := by
    unfold platformId
    rw [List.append_assoc, List.append_assoc, List.drop_left, List.append_assoc]
  have hdigits : ∀ c ∈ (natStr key.2).reverse, decide (c ≠ dash) = true := by
    intro c hc
    rw [decide_eq_true_eq]
    rintro rfl
    exact hdash (List.mem_reverse.mp hc)
  have hcut : Str.cutLastDash (key.1 ++ [dash] ++ natStr key.2) = some (key.1, natStr key.2) := by
    have hreverse : (key.1 ++ [dash] ++ natStr key.2).reverse =
        (natStr key.2).reverse ++ dash :: key.1.reverse := by simp
    have hdrop : ((natStr key.2).reverse ++ dash :: key.1.reverse).dropWhile (· ≠ dash) =
        dash :: key.1.reverse := by
      rw [List.dropWhile_append_of_pos hdigits]
      simp
    have htake : ((natStr key.2).reverse ++ dash :: key.1.reverse).takeWhile (· ≠ dash) =
        (natStr key.2).reverse := by
      rw [List.takeWhile_append_of_pos hdigits]
      simp
    unfold Str.cutLastDash
    rw [hreverse, hdrop, htake]
    simp
  unfold dismissedSlot
  rw [hrest, hcut]
  dsimp only [Option.bind_some]
  rw [hint]
  simp

/-! ## What always holds -/

section Safe

variable {u}

theorem raw_of_put {banner : Banner} (h : RawEdit (.put banner)) : isRawId banner.id = true := by
  cases hid : isRawId banner.id with
  | true => rfl
  | false => exact absurd (h banner.id hid none) (by simp [Edit.at])

theorem rawEdit_reports {rs : List Board.AlarmReport} (h : ∀ r ∈ rs, r.Raw u)
    (dismissed : List Str) (values : Dict Str Nat) :
    ∀ e ∈ reportsEdits u dismissed values rs, RawEdit e := by
  induction rs generalizing values with
  | nil =>
    intro e he
    cases he
  | cons r rs ih =>
    intro e he
    rw [reportsEdits_cons] at he
    rcases List.mem_append.mp he with he | he
    · exact rawEdit_report (h r List.mem_cons_self) _ _ e he
    · exact ih (fun x hx => h x (List.mem_cons_of_mem _ hx)) _ e he

theorem rawEdit_prune (topics : List Str) : ∀ e ∈ pruneEdits topics, RawEdit e := by
  intro e he
  unfold pruneEdits at he
  obtain ⟨topic, -, he⟩ := List.mem_flatMap.mp he
  split at he
  · next parsed _ =>
    rw [List.mem_singleton] at he
    subst he
    exact rawEdit_removal (snapshotAlarmId_front parsed)
  · cases he

theorem rawEdit_snapshotAlarms (b : Board) (snapshot : Object) :
    ∀ e ∈ snapshotAlarmEdits u b snapshot, RawEdit e := by
  intro e he
  rcases List.mem_append.mp he with he | he
  · refine rawEdit_reports ?_ _ _ e he
    intro r hr
    obtain ⟨leaf, -, hreport⟩ := List.mem_filterMap.mp hr
    exact raw_leafReport hreport
  · exact rawEdit_prune _ e he

/-- What a platform that reports leaves on the list. -/
theorem mem_platformEdits {cut : List Banner → List Banner} (hcut : ∀ l, (cut l).Sublist l)
    {l : List Banner} {active : Bool} {slots : Slots} {banner : Banner}
    (h : banner ∈ edits Banner.id cut l (platformEdits active slots)) :
    banner ∈ notificationsFromPlatformSlots slots ∨
      banner ∈ l ∧ isPlatformId banner.id = false ∧ (active = true → isRawId banner.id = false) := by
  unfold platformEdits showEdits at h
  rw [edits_append, edits_cons] at h
  rcases mem_edits hcut h with hold | hput
  · obtain ⟨hold, hplatform⟩ := mem_edit (e := .keep fun id => !isPlatformId id) hcut hold
    refine Or.inr ?_
    have hplatform : isPlatformId banner.id = false := by simpa using hplatform
    cases active with
    | false => exact ⟨hold, hplatform, fun h => by cases h⟩
    | true =>
      obtain ⟨hold, hraw⟩ := mem_edit (e := .keep fun id => !isRawId id) hcut hold
      exact ⟨hold, hplatform, fun _ => by simpa using hraw⟩
  · exact Or.inl (by simpa using hput)

theorem program_cut (l : List Banner) : (Limits.program.cut l).Sublist l := newest_sublist l

theorem platform_none {topic : Str} {body : Body} (h : Board.platformLeaf topic body = none)
    (b : Board) : opEdits u b (.platform topic body) = [] ∧
      slotsAfter b (.platform topic body) = b.platformSlots := by
  simp [opEdits, accepts, slotsAfter, h]

theorem platform_some {topic : Str} {body : Body} {leaf : Str × Value}
    (h : Board.platformLeaf topic body = some leaf) (b : Board) :
    opEdits u b (.platform topic body) =
      platformEdits true (slotsAfter b (.platform topic body)) := by
  simp [opEdits, accepts, h]

/-- The platform part and the alarm part of a snapshot. -/
theorem snapshot_edits (b : Board) (snapshot : Object) :
    ∃ front back, opEdits u b (.snapshot snapshot) = front ++ back ∧ (∀ e ∈ back, RawEdit e) ∧
      (front = [] ∧ slotsAfter b (.snapshot snapshot) = b.platformSlots ∧
          accepts b (.snapshot snapshot) = false ∨
        front = platformEdits (accepts b (.snapshot snapshot)) (slotsAfter b (.snapshot snapshot))) ∧
      back = if seenAfter b (.snapshot snapshot) then [] else snapshotAlarmEdits u b snapshot := by
  refine ⟨_, _, rfl, ?_, ?_, rfl⟩
  · split
    · intro e he
      cases he
    · exact rawEdit_snapshotAlarms b snapshot
  · cases hpart : platformPart snapshot with
    | none => exact Or.inl (by simp [slotsAfter, accepts, hpart])
    | some leaves => exact Or.inr (by simp)

/-- What the controller pushes has an id of its own. -/
theorem put_push {b : Board} {data : Value} {banner : Banner} (hop : Admitted u (.push data))
    (h : .put banner ∈ opEdits u b (.push data)) :
    isRawId banner.id = false ∧ isPlatformId banner.id = false := by
  unfold opEdits pushEdits at h
  unfold Admitted at hop
  dsimp only at h hop
  cases hdata : normalizeNotification u data with
  | none =>
    rw [hdata] at h
    cases h
  | some x =>
    rw [hdata] at h hop
    dsimp only at h
    split at h
    · cases h
    · rw [List.mem_singleton, Edit.put.injEq] at h
      subst h
      simpa using hop

/-- The banners of the platform stay where they are, but for one that is dismissed. -/
inductive Stays (b : Board) : BoardOp → Str → Prop where
  | step {op : BoardOp} {id : Str} (hslots : slotsAfter b op = b.platformSlots) : Stays b op id
  | dismiss {nid : Str} {forgotten : Nat} {id : Str} (hne : id ≠ nid) : Stays b (.dismiss nid forgotten) id

theorem mem_raw_edits {cut : List Banner → List Banner} (hcut : ∀ l, (cut l).Sublist l)
    {es : List BannerEdit} {l : List Banner} {banner : Banner} (hes : ∀ e ∈ es, RawEdit e)
    (hraw : isRawId banner.id = false) (h : banner ∈ edits Banner.id cut l es) : banner ∈ l := by
  rcases mem_edits hcut h with hold | hput
  · exact hold
  · rw [raw_of_put (hes _ hput)] at hraw
    cases hraw

/-- A banner of the platform after a step: one of a slot, or one that was there and stays. -/
theorem mem_step {b : Board} {op : BoardOp} (hop : Admitted u op) {banner : Banner}
    (hplatform : isPlatformId banner.id = true)
    (h : banner ∈ edits Banner.id Limits.program.cut b.notifications (opEdits u b op)) :
    banner ∈ notificationsFromPlatformSlots (slotsAfter b op) ∨
      banner ∈ b.notifications ∧ Stays b op banner.id := by
  have hraw : isRawId banner.id = false := not_raw_of_platform hplatform
  cases op with
  | platform topic body =>
    cases hleaf : Board.platformLeaf topic body with
    | none =>
      rw [(platform_none hleaf b).1] at h
      exact Or.inr ⟨h, .step (platform_none (u := u) hleaf b).2⟩
    | some leaf =>
      rw [platform_some hleaf] at h
      rcases mem_platformEdits program_cut h with hshown | ⟨-, hnot, -⟩
      · exact Or.inl hshown
      · rw [hplatform] at hnot
        cases hnot
  | alarm topic body =>
    exact Or.inr ⟨mem_raw_edits program_cut (rawEdit_message hop) hraw h, .step rfl⟩
  | snapshot snapshot =>
    obtain ⟨front, back, hedits, hback, hfront, -⟩ := snapshot_edits (u := u) b snapshot
    rw [hedits, edits_append] at h
    have hbefore := mem_raw_edits program_cut hback hraw h
    rcases hfront with ⟨rfl, hslots, -⟩ | rfl
    · exact Or.inr ⟨hbefore, .step hslots⟩
    · rcases mem_platformEdits program_cut hbefore with hshown | ⟨-, hnot, -⟩
      · exact Or.inl hshown
      · rw [hplatform] at hnot
        cases hnot
  | push data =>
    rcases mem_edits program_cut h with hold | hput
    · exact Or.inr ⟨hold, .step rfl⟩
    · exact absurd hplatform (by simp [(put_push hop hput).2])
  | dismiss nid forgotten =>
    unfold opEdits at h
    dsimp only at h
    cases hempty : nid.isEmpty with
    | true =>
      rw [hempty] at h
      refine Or.inr ⟨h, .dismiss ?_⟩
      rintro heq
      rw [heq, List.isEmpty_iff.mp hempty] at hplatform
      cases hplatform
    | false =>
      rw [hempty] at h
      obtain ⟨hold, hne⟩ := mem_edit (e := .keep (· ≠ nid)) program_cut h
      exact Or.inr ⟨hold, .dismiss (by simpa using hne)⟩
  | clear =>
    obtain ⟨-, hkept⟩ :=
      mem_edit (e := .keep fun id => !isRawId id && !isPlatformId id) program_cut h
    simp [hplatform] at hkept

/-- The invariant of the list. -/
structure Safe (b : Board) : Prop where
  distinct : (b.notifications.map Banner.id).Nodup
  bounded : b.notifications.length ≤ notificationsMax
  named : b.platformSlots.Named
  raw : b.platformSeen = true → ∀ banner ∈ b.notifications, isRawId banner.id = false
  platform : ∀ banner ∈ b.notifications, isPlatformId banner.id = true →
    ∃ key slot, b.platformSlots.get? key = some slot ∧ slot.shouldShow = true ∧
      banner = slot.banner key

theorem safe_init : Safe Board.init where
  distinct := List.nodup_nil
  bounded := Nat.zero_le _
  named key slot hget := by cases hget
  raw h := by cases h
  platform banner hmem := by cases hmem

/-- No raw alarm comes once the platform has reported. -/
theorem raw_step {b : Board} (h : Safe b) {op : BoardOp} (hop : Admitted u op)
    (hseen : seenAfter b op = true) {banner : Banner}
    (hmem : banner ∈ edits Banner.id Limits.program.cut b.notifications (opEdits u b op)) :
    isRawId banner.id = false := by
  cases op with
  | platform topic body =>
    cases hleaf : Board.platformLeaf topic body with
    | none =>
      have hbefore : b.platformSeen = true := by
        simpa [seenAfter, accepts, hleaf] using hseen
      rw [(platform_none hleaf b).1] at hmem
      exact h.raw hbefore banner hmem
    | some leaf =>
      rw [platform_some hleaf] at hmem
      rcases mem_platformEdits program_cut hmem with hshown | ⟨-, -, hraw⟩
      · exact not_raw_of_platform (id_of_mem hshown)
      · exact hraw rfl
  | alarm topic body =>
    have hbefore : b.platformSeen = true := by simpa [seenAfter, accepts] using hseen
    have hnone : opEdits u b (.alarm topic body) = [] := by simp [opEdits, hbefore]
    rw [hnone] at hmem
    exact h.raw hbefore banner hmem
  | snapshot snapshot =>
    obtain ⟨front, back, hedits, -, hfront, hback⟩ := snapshot_edits (u := u) b snapshot
    rw [hback, if_pos hseen, List.append_nil] at hedits
    rw [hedits] at hmem
    have hwhen : b.platformSeen = true ∨ accepts b (.snapshot snapshot) = true := by
      simpa [seenAfter] using hseen
    rcases hfront with ⟨rfl, -, hnone⟩ | rfl
    · rcases hwhen with hbefore | haccepts
      · exact h.raw hbefore banner hmem
      · rw [hnone] at haccepts
        cases haccepts
    · rcases mem_platformEdits program_cut hmem with hshown | ⟨hold, -, hraw⟩
      · exact not_raw_of_platform (id_of_mem hshown)
      · rcases hwhen with hbefore | haccepts
        · exact h.raw hbefore banner hold
        · exact hraw haccepts
  | push data =>
    have hbefore : b.platformSeen = true := by simpa [seenAfter, accepts] using hseen
    rcases mem_edits program_cut hmem with hold | hput
    · exact h.raw hbefore banner hold
    · exact (put_push hop hput).1
  | dismiss nid forgotten =>
    have hbefore : b.platformSeen = true := by simpa [seenAfter, accepts] using hseen
    rcases mem_edits program_cut hmem with hold | hput
    · exact h.raw hbefore banner hold
    · unfold opEdits at hput
      dsimp only at hput
      split at hput
      · cases hput
      · simp at hput
  | clear => cases hseen

/-- The slot that a banner shows is still there, and shows, unless the banner goes. -/
theorem stays_slot {b : Board} {op : BoardOp} (hexact : exactDismissal b op = true) {key : SlotKey}
    {slot : Slot} (hget : b.platformSlots.get? key = some slot) (hshow : slot.shouldShow = true)
    (hstays : Stays b op (platformId key)) : (slotsAfter b op).get? key = some slot := by
  cases hstays with
  | step hslots => rwa [hslots]
  | dismiss hne =>
    next nid forgotten =>
    show Dict.get? (b.platformSlots.dismiss nid) key = some slot
    rw [get?_dismiss]
    split
    · next hnames =>
      unfold exactDismissal at hexact
      dsimp only at hexact
      rw [hnames.1, hnames.2] at hexact
      simp only [Bool.not_true, Bool.false_or, Option.all_some, hget, hshow,
        decide_eq_true_eq] at hexact
      exact absurd hexact.symm hne
    · exact hget

theorem safe_step {b : Board} (h : Safe b) {op : BoardOp} (hop : Admitted u op)
    (hexact : exactDismissal b op = true) : Safe (boardStep u .program b op) := by
  rw [boardStep_eq]
  constructor
  case distinct => exact nodup_edits program_cut h.distinct _
  case bounded => exact length_edits h.bounded _
  case named => exact named_after h.named op
  case raw =>
    intro hseen banner hmem
    exact raw_step h hop hseen hmem
  case platform =>
    intro banner hmem hplatform
    rcases mem_step hop hplatform hmem with hshown | ⟨hold, hstays⟩
    · exact mem_notifications.mp hshown
    · obtain ⟨key, slot, hget, hshow, rfl⟩ := h.platform banner hold hplatform
      exact ⟨key, slot, stays_slot hexact hget hshow hstays, hshow, rfl⟩

/-- Dismissing a banner of the platform hides it, and nothing else. -/
theorem dismissal_hides {b : Board} (h : Safe b) {banner : Banner} (hmem : banner ∈ b.notifications)
    (hplatform : isPlatformId banner.id = true) (forgotten : Nat) :
    HidesOne banner b (boardStep u .program b (.dismiss banner.id forgotten)) := by
  obtain ⟨key, slot, hget, -, rfl⟩ := h.platform banner hmem hplatform
  have hnames : dismissedSlot (platformId key) = some key :=
    dismissedSlot_platformId (h.named key slot hget)
  have hne : (platformId key).isEmpty = false := platform_ne (isPlatformId_platformId key)
  have hid : (slot.banner key).id = platformId key := rfl
  rw [boardStep_eq, hid]
  refine ⟨?_, ⟨key, slot, rfl, hget, fun k => ?_⟩, ?_⟩
  · show edits Banner.id _ _ (if (platformId key).isEmpty then [] else _) = _
    rw [hne]
    rfl
  · show Dict.get? (b.platformSlots.dismiss (platformId key)) k = _
    rw [get?_dismiss, hnames]
    by_cases hk : k = key
    · subst hk
      rw [if_pos ⟨isPlatformId_platformId k, rfl⟩, if_pos rfl, hget]
      rfl
    · rw [if_neg fun hboth => hk (Option.some.inj hboth.2).symm, if_neg hk]
  · simp [seenAfter, accepts, valuesAfter, dismissedAfter, isPlatformId_platformId]

end Safe

/-! ## What holds while nothing is cut -/

section Whole

variable {u}

/-- The invariant of the list without limits, after the operations `ops`. -/
structure Whole (ops : List BoardOp) (b : Board) : Prop where
  named : b.platformSlots.Named
  shown : ∀ id, isPlatformId id = true →
    lookup Banner.id id b.notifications =
      lookup Banner.id id (notificationsFromPlatformSlots b.platformSlots)
  tracked : ∀ topic, (b.alarmValues.get? topic).isSome = true → ∃ nid, PlainAlarm topic nid
  dismissed : ∀ nid, isRawId nid = true → (nid ∈ b.dismissedIds ↔ nid ∈ dismissedIn ops)
  alarms : b.platformSeen = false → ∀ topic nid, PlainAlarm topic nid →
    AlarmShown b.notifications b.alarmValues b.dismissedIds topic nid

theorem whole_init : Whole [] Board.init where
  named key slot hget := by cases hget
  shown id _ := rfl
  tracked topic htopic := by cases htopic
  dismissed nid _ := by simp [Board.init, dismissedIn]
  alarms _ topic nid _ := by simp [AlarmShown, Board.init, Bounded.lookup, alarmLevel]

theorem raw_ne {id : Str} (h : isRawId id = true) : id.isEmpty = false ∧ isPlatformId id = false := by
  refine ⟨?_, ?_⟩
  · rw [List.isEmpty_eq_false_iff]
    rintro rfl
    cases h
  · cases hplatform : isPlatformId id with
    | false => rfl
    | true =>
      rw [not_raw_of_platform hplatform] at h
      cases h

/-- The controller's notifications touch neither the alarms nor the platform. -/
theorem push_other {b : Board} {data : Value} (hop : Admitted u (.push data)) {e : BannerEdit}
    (he : e ∈ opEdits u b (.push data)) {id : Str}
    (hid : isRawId id = true ∨ isPlatformId id = true) (old : Option Banner) :
    e.at Banner.id id old = old := by
  cases e with
  | put banner =>
    refine if_neg ?_
    rintro rfl
    obtain ⟨hraw, hplatform⟩ := put_push hop he
    rw [hraw, hplatform] at hid
    rcases hid with h | h <;> cases h
  | keep p =>
    unfold opEdits pushEdits at he
    dsimp only at he
    split at he
    · split at he
      · cases he
      · simp at he
    · cases he

/-- The banners of the slots after a dismissal. -/
theorem lookup_dismissed {b : Board} (hnamed : b.platformSlots.Named) {nid : Str} {forgotten : Nat}
    (hexact : exactDismissal b (.dismiss nid forgotten) = true) {id : Str} :
    lookup Banner.id id (notificationsFromPlatformSlots (b.platformSlots.dismiss nid)) =
      if id = nid then none
      else lookup Banner.id id (notificationsFromPlatformSlots b.platformSlots) := by
  have hafter := hnamed.dismiss nid
  refine Option.ext fun banner => ?_
  rw [lookup_some_iff hafter]
  split
  · next hid =>
    subst hid
    refine ⟨?_, fun h => by cases h⟩
    rintro ⟨key, slot, hget, hshow, -, rfl⟩
    have hkey := hafter key slot hget
    rw [get?_dismiss, dismissedSlot_platformId hkey,
      if_pos ⟨isPlatformId_platformId key, rfl⟩] at hget
    obtain ⟨old, -, rfl⟩ := Option.map_eq_some_iff.mp hget
    cases hshow
  · next hne =>
    rw [lookup_some_iff hnamed]
    constructor
    · rintro ⟨key, slot, hget, hshow, hbanner, hid⟩
      refine ⟨key, slot, ?_, hshow, hbanner, hid⟩
      rw [get?_dismiss] at hget
      split at hget
      · obtain ⟨old, -, rfl⟩ := Option.map_eq_some_iff.mp hget
        cases hshow
      · exact hget
    · rintro ⟨key, slot, hget, hshow, hbanner, rfl⟩
      exact ⟨key, slot, stays_slot hexact hget hshow (.dismiss hne), hshow, hbanner, rfl⟩

theorem shown_step {ops : List BoardOp} {b : Board} (h : Whole ops b) {op : BoardOp}
    (hop : Admitted u op) (hexact : exactDismissal b op = true) {id : Str}
    (hid : isPlatformId id = true) :
    lookup Banner.id id (edits Banner.id uncut b.notifications (opEdits u b op)) =
      lookup Banner.id id (notificationsFromPlatformSlots (slotsAfter b op)) := by
  have hnamed := named_after h.named op
  have hraw := not_raw_of_platform hid
  cases op with
  | platform topic body =>
    cases hleaf : Board.platformLeaf topic body with
    | none =>
      rw [(platform_none hleaf b).1, (platform_none (u := u) hleaf b).2]
      exact h.shown id hid
    | some leaf =>
      rw [platform_some hleaf]
      exact lookup_platformEdits hnamed true _ hid
  | alarm topic body =>
    rw [lookup_edits_same fun e he => rawEdit_message hop e he id hraw]
    exact h.shown id hid
  | snapshot snapshot =>
    obtain ⟨front, back, hedits, hback, hfront, -⟩ := snapshot_edits (u := u) b snapshot
    rw [hedits, edits_append, lookup_edits_same fun e he => hback e he id hraw]
    rcases hfront with ⟨rfl, hslots, -⟩ | rfl
    · rw [hslots]
      exact h.shown id hid
    · exact lookup_platformEdits hnamed _ _ hid
  | push data =>
    rw [lookup_edits_same fun e he old => push_other hop he (Or.inr hid) old]
    exact h.shown id hid
  | dismiss nid forgotten =>
    show _ = lookup Banner.id id (notificationsFromPlatformSlots (b.platformSlots.dismiss nid))
    rw [lookup_dismissed h.named hexact, ← h.shown id hid, lookup_dismissEdits]
    by_cases hnid : id = nid
    · rw [if_pos ⟨hnid ▸ (platform_ne hid), hnid⟩, if_pos hnid]
    · rw [if_neg fun hboth => hnid hboth.2, if_neg hnid]
  | clear =>
    have hnone : lookup Banner.id id
        (notificationsFromPlatformSlots (Board.retainedSlots b.platformSlots)) = none := by
      refine Option.eq_none_iff_forall_ne_some.mpr fun banner hbanner => ?_
      obtain ⟨key, slot, hget, hshow, -, -⟩ := (lookup_some_iff hnamed).mp hbanner
      have hget : (Board.retainedSlots b.platformSlots).get? key = some slot := hget
      rw [get?_retained] at hget
      obtain ⟨old, -, rfl⟩ := Option.map_eq_some_iff.mp hget
      cases hshow
    show lookup Banner.id id (edit Banner.id uncut b.notifications
      (.keep fun id => !isRawId id && !isPlatformId id)) =
        lookup Banner.id id (notificationsFromPlatformSlots (Board.retainedSlots b.platformSlots))
    rw [hnone, lookup_edit]
    simp [Edit.at, hid]

theorem tracked_report {values : Dict Str Nat}
    (h : ∀ topic, (values.get? topic).isSome = true → ∃ nid, PlainAlarm topic nid)
    {r : Board.AlarmReport} (hr : PlainAlarm r.topic r.nid) :
    ∀ topic, ((reportValues values r).get? topic).isSome = true → ∃ nid, PlainAlarm topic nid := by
  intro topic hsome
  unfold reportValues at hsome
  split at hsome
  · exact h topic hsome
  · rw [Dict.get?_set] at hsome
    split at hsome
    · next htopic => exact ⟨r.nid, htopic ▸ hr⟩
    · exact h topic hsome

theorem tracked_reports {values : Dict Str Nat}
    (h : ∀ topic, (values.get? topic).isSome = true → ∃ nid, PlainAlarm topic nid)
    {rs : List Board.AlarmReport} (hrs : ∀ r ∈ rs, PlainAlarm r.topic r.nid) :
    ∀ topic, ((rs.foldl reportValues values).get? topic).isSome = true →
      ∃ nid, PlainAlarm topic nid := by
  induction rs generalizing values with
  | nil => exact h
  | cons r rs ih =>
    exact ih (tracked_report h (hrs r List.mem_cons_self)) fun x hx =>
      hrs x (List.mem_cons_of_mem _ hx)

theorem tracked_step {ops : List BoardOp} {b : Board} (h : Whole ops b) {op : BoardOp}
    (hplain : PlainAlarms op) :
    ∀ topic, ((valuesAfter u b op).get? topic).isSome = true → ∃ nid, PlainAlarm topic nid := by
  cases op with
  | alarm topic body =>
    unfold valuesAfter
    dsimp only
    split
    · exact h.tracked
    · cases hreport : Board.messageReport u topic body with
      | none => exact h.tracked
      | some r => exact tracked_report h.tracked (plain_message hplain hreport).2
  | snapshot snapshot =>
    unfold valuesAfter
    dsimp only
    split
    · exact h.tracked
    · intro topic hsome
      unfold prunedValues at hsome
      rw [get_foldl_erase] at hsome
      split at hsome
      · cases hsome
      · exact tracked_reports h.tracked (fun r hr => (plain_snapshot hplain r hr).2) topic hsome
  | clear =>
    intro topic hsome
    cases hsome
  | _ => exact h.tracked

theorem mem_dismissedAfter (b : Board) (op : BoardOp) {id : Str} (hraw : isRawId id = true) :
    id ∈ dismissedAfter .none b op ↔ id ∈ b.dismissedIds ∨ id ∈ dismissedIn [op] := by
  cases op with
  | dismiss nid forgotten =>
    show id ∈ (if nid.isEmpty || isPlatformId nid || nid ∈ b.dismissedIds then b.dismissedIds
      else b.dismissedIds ++ [nid]) ↔ id ∈ b.dismissedIds ∨ id ∈ [nid]
    rw [List.mem_singleton]
    split
    · next hskip =>
      refine ⟨Or.inl, ?_⟩
      rintro (hold | rfl)
      · exact hold
      · obtain ⟨hne, hplatform⟩ := raw_ne hraw
        simpa [hne, hplatform] using hskip
    · rw [List.mem_append, List.mem_singleton]
  | _ =>
    show id ∈ b.dismissedIds ↔ id ∈ b.dismissedIds ∨ id ∈ []
    simp

/-- The alarms after a snapshot of a source whose platform has not reported. -/
theorem snapshot_shown {ops : List BoardOp} {b : Board} (h : Whole ops b) {snapshot : Object}
    (hplain : PlainAlarms (.snapshot snapshot))
    (hseen : seenAfter b (.snapshot snapshot) = false) {topic nid : Str}
    (halarm : PlainAlarm topic nid) :
    AlarmShown (edits Banner.id uncut b.notifications (opEdits u b (.snapshot snapshot)))
      (valuesAfter u b (.snapshot snapshot)) b.dismissedIds topic nid := by
  have hparts : b.platformSeen = false ∧ accepts b (.snapshot snapshot) = false := by
    simpa [seenAfter] using hseen
  have hplatform := (raw_ne halarm.raw).2
  obtain ⟨front, back, hedits, -, hfront, hback⟩ := snapshot_edits (u := u) b snapshot
  rw [hseen, if_neg (by simp)] at hback
  have hbefore : AlarmShown (edits Banner.id uncut b.notifications front) b.alarmValues
      b.dismissedIds topic nid := by
    have hold := h.alarms hparts.1 topic nid halarm
    unfold AlarmShown at hold ⊢
    rcases hfront with ⟨rfl, -, -⟩ | rfl
    · exact hold
    · have hfirst : platformEdits false (slotsAfter b (.snapshot snapshot)) =
          showEdits (slotsAfter b (.snapshot snapshot)) := rfl
      rw [hparts.2, hfirst, lookup_show (named_after h.named _), hplatform,
        if_neg (by simp), hold]
  have hvalues : valuesAfter u b (.snapshot snapshot) =
      (pruned (snapshotValues u b.alarmValues snapshot) snapshot).foldl Dict.erase
        (snapshotValues u b.alarmValues snapshot) := by
    unfold valuesAfter
    dsimp only
    rw [hseen, if_neg (by simp)]
    rfl
  rw [hedits, edits_append, hback, hvalues]
  unfold snapshotAlarmEdits
  rw [edits_append]
  have hreports := plain_snapshot (u := u) hplain
  refine prune_shown ?_ halarm (reports_shown hreports halarm hbefore)
  intro t ht
  unfold pruned at ht
  obtain ⟨hkey, hover⟩ := List.mem_filter.mp ht
  rw [Bool.and_eq_true] at hover
  exact ⟨hover.1, tracked_reports h.tracked (fun r hr => (hreports r hr).2) t (Dict.mem_keys.mp hkey)⟩

theorem alarms_step {ops : List BoardOp} {b : Board} (h : Whole ops b) {op : BoardOp}
    (hop : Admitted u op) (hplain : PlainAlarms op) (hseen : seenAfter b op = false)
    {topic nid : Str} (halarm : PlainAlarm topic nid) :
    AlarmShown (edits Banner.id uncut b.notifications (opEdits u b op)) (valuesAfter u b op)
      (dismissedAfter .none b op) topic nid := by
  cases op with
  | platform topic' body =>
    have hparts : b.platformSeen = false ∧ Board.platformLeaf topic' body = none := by
      simpa [seenAfter, accepts] using hseen
    rw [(platform_none hparts.2 b).1]
    exact h.alarms hparts.1 topic nid halarm
  | alarm topic' body =>
    have hbefore : b.platformSeen = false := by simpa [seenAfter, accepts] using hseen
    have hold := h.alarms hbefore topic nid halarm
    unfold opEdits valuesAfter
    dsimp only
    rw [hbefore, if_neg (by simp), if_neg (by simp)]
    cases hreport : Board.messageReport u topic' body with
    | none => exact hold
    | some r =>
      obtain ⟨hraw, hr⟩ := plain_message hplain hreport
      exact report_shown hold halarm hraw hr
  | snapshot snapshot => exact snapshot_shown h hplain hseen halarm
  | push data =>
    have hbefore : b.platformSeen = false := by simpa [seenAfter, accepts] using hseen
    have hold := h.alarms hbefore topic nid halarm
    unfold AlarmShown at hold ⊢
    rw [lookup_edits_same fun e he old => push_other hop he (Or.inl halarm.raw) old]
    exact hold
  | dismiss nid' forgotten =>
    have hbefore : b.platformSeen = false := by simpa [seenAfter, accepts] using hseen
    have hold := h.alarms hbefore topic nid halarm
    have hmem := mem_dismissedAfter b (.dismiss nid' forgotten) halarm.raw
    have hlast : dismissedIn [.dismiss nid' forgotten] = [nid'] := rfl
    rw [hlast, List.mem_singleton] at hmem
    unfold AlarmShown at hold ⊢
    rw [lookup_dismissEdits]
    by_cases hnid : nid = nid'
    · rw [if_pos ⟨hnid ▸ (raw_ne halarm.raw).1, hnid⟩, if_pos (hmem.mpr (Or.inr hnid))]
      rfl
    · rw [if_neg fun hboth => hnid hboth.2, hold]
      by_cases hgone : nid ∈ b.dismissedIds
      · rw [if_pos hgone, if_pos (hmem.mpr (Or.inl hgone))]
      · rw [if_neg hgone, if_neg fun hnew => (hmem.mp hnew).elim hgone hnid]
        rfl
  | clear =>
    show AlarmShown (edit Banner.id uncut b.notifications
      (.keep fun id => !isRawId id && !isPlatformId id)) Dict.empty b.dismissedIds topic nid
    unfold AlarmShown
    rw [lookup_edit]
    simp [Edit.at, halarm.raw, alarmLevel]

theorem whole_step {ops : List BoardOp} {b : Board} (h : Whole ops b) {op : BoardOp}
    (hop : Admitted u op) (hexact : exactDismissal b op = true) (hplain : PlainAlarms op) :
    Whole (ops ++ [op]) (boardStep u .none b op) := by
  rw [boardStep_eq]
  constructor
  case named => exact named_after h.named op
  case shown =>
    intro id hid
    exact shown_step h hop hexact hid
  case tracked => exact tracked_step h hplain
  case dismissed =>
    intro nid hraw
    unfold dismissedIn
    rw [List.filterMap_append, List.mem_append]
    exact (mem_dismissedAfter b op hraw).trans (or_congr_left (h.dismissed nid hraw))
  case alarms =>
    intro hseen topic nid halarm
    exact alarms_step h hop hplain hseen halarm

end Whole

/-! ## Runs -/

section Runs

variable {u}

theorem safe_replay {ops : List BoardOp} (hadmitted : ∀ op ∈ ops, Admitted u op)
    (hexact : ∀ x ∈ trace (boardStep u .program) Board.init ops, exactDismissal x.1 x.2 = true) :
    Safe (replay (boardStep u .program) Board.init ops) := by
  induction ops using List.reverseRecOn with
  | nil => exact safe_init
  | append_singleton ops op ih =>
    rw [trace_concat] at hexact
    rw [replay_append]
    refine safe_step (ih ?_ ?_) (hadmitted op (by simp))
      (hexact (replay (boardStep u .program) Board.init ops, op) (by simp))
    · exact fun x hx => hadmitted x (List.mem_append_left _ hx)
    · exact fun x hx => hexact x (List.mem_append_left _ hx)

theorem whole_replay {ops : List BoardOp} (hadmitted : ∀ op ∈ ops, Admitted u op)
    (hexact : ∀ x ∈ trace (boardStep u .none) Board.init ops, exactDismissal x.1 x.2 = true)
    (hplain : ∀ op ∈ ops, PlainAlarms op) :
    Whole ops (replay (boardStep u .none) Board.init ops) := by
  induction ops using List.reverseRecOn with
  | nil => exact whole_init
  | append_singleton ops op ih =>
    rw [trace_concat] at hexact
    rw [replay_append]
    refine whole_step (ih ?_ ?_ ?_) (hadmitted op (by simp))
      (hexact (replay (boardStep u .none) Board.init ops, op) (by simp)) (hplain op (by simp))
    · exact fun x hx => hadmitted x (List.mem_append_left _ hx)
    · exact fun x hx => hexact x (List.mem_append_left _ hx)
    · exact fun x hx => hplain x (List.mem_append_left _ hx)

theorem refines_replay (limits : Limits) (ops : List BoardOp) :
    Refines (replay (boardStep u limits) Board.init ops) (view u ops) := by
  induction ops using List.reverseRecOn with
  | nil => exact ⟨rfl, fun _ => rfl⟩
  | append_singleton ops op ih =>
    unfold view
    rw [replay_append, replay_append]
    exact refines_step ih limits op

/-- **The banner list.** Over every run in which an id read as a slot that shows is the id of that
    slot the list is sound. As long as few banners are live, the alarms of a snapshot fit also
    between its leaves, and alarms are told apart, it is complete. -/
theorem banners_authoritative (ops : List BoardOp) (hadmitted : ∀ op ∈ ops, Admitted u op)
    (hexact : ∀ x ∈ trace (boardStep u .program) Board.init ops, exactDismissal x.1 x.2 = true) :
    Authoritative u ops (replay (boardStep u .program) Board.init ops) ∧
      (FewLive u ops → (∀ x ∈ trace (boardStep u .program) Board.init ops, LeavesFit u x.1 x.2) →
        (∀ op ∈ ops, PlainAlarms op) →
          AllShown u ops (replay (boardStep u .program) Board.init ops)) := by
  have hsafe := safe_replay hadmitted hexact
  have hview := refines_replay (u := u) .program ops
  refine ⟨⟨hsafe.distinct, hsafe.bounded, ?_, hsafe.platform, ?_⟩, fun hfew hfit hplain => ?_⟩
  · intro hseen
    exact hsafe.raw (hview.seen.trans hseen)
  · intro banner hmem hplatform forgotten
    exact dismissal_hides hsafe hmem hplatform forgotten
  · have hwithin := within_of_fewLive hfew hfit
    have hrun := replay_program hwithin
    have htrace : trace (boardStep u .program) Board.init ops =
        trace (boardStep u .none) Board.init ops :=
      (run_congr fun x hx => boardStep_program (hwithin x hx)).2
    rw [htrace] at hexact
    have hwhole := whole_replay hadmitted hexact hplain
    rw [← hrun] at hwhole
    refine ⟨?_, ?_⟩
    · intro key slot hget hshow
      rw [mem_iff_lookup hsafe.distinct]
      have hid : (slot.banner key).id = platformId key := rfl
      rw [hid, hwhole.shown _ (isPlatformId_platformId key)]
      exact (lookup_some_iff hsafe.named).mpr ⟨key, slot, hget, hshow, rfl, rfl⟩
    · intro hseen topic nid halarm
      have hshown := hwhole.alarms (hview.seen.trans hseen) topic nid halarm
      unfold AlarmShown at hshown
      rw [hshown, hview.value]
      by_cases hgone : nid ∈ dismissedIn ops
      · rw [if_pos hgone, if_pos ((hwhole.dismissed nid halarm.raw).mpr hgone)]
      · rw [if_neg hgone, if_neg fun h => hgone ((hwhole.dismissed nid halarm.raw).mp h)]

/-- An alarm, its end, and a platform notification that is dismissed. -/
def exactRun : List BoardOp :=
  [.alarm (Str.lit "N/p/battery/1/Alarms/High") (.object (some (.value (.int 2)))),
    .push (.dict [(Str.lit "id", .str (Str.lit "note"))]),
    .snapshot (Dict.ofList [(Str.lit "battery", .dict [(Str.lit "1/Alarms/Low", .int 1)])]),
    .platform (Str.lit "N/p/platform/0/Notifications/1/Description")
      (.object (some (.value (.str (Str.lit "low"))))),
    .dismiss (Str.lit "victron-platform-0-1") 0]

theorem banners_authoritative_dismissed :
    let ops := exactRun
    let b := replay (boardStep .ascii .program) Board.init ops
    Authoritative .ascii ops b ∧ AllShown .ascii ops b := by
  have hfit : ∀ x ∈ trace (boardStep .ascii .program) Board.init exactRun,
      x.1.notifications.length + (opEdits .ascii x.1 x.2).length ≤ notificationsMax := by
    decide +kernel
  obtain ⟨hsound, hcomplete⟩ :=
    banners_authoritative (u := Unicode.ascii) exactRun (by decide +kernel) (by decide +kernel)
  exact ⟨hsound, hcomplete (by decide +kernel) (fun x hx => leavesFit_of_few (hfit x hx))
    (by decide +kernel)⟩

/-! ## Lists that differ -/

/-- `int` reads the text `01` as the number of the slot: the slot is dismissed, its banner stays. -/
def aliasRun : List BoardOp :=
  [.platform (Str.lit "N/p/platform/0/Notifications/1/Description")
      (.object (some (.value (.str (Str.lit "low"))))),
    .dismiss (Str.lit "victron-platform-0-01") 0]

theorem aliasRun_differs :
    ∃ banner ∈ (replay (boardStep .ascii .program) Board.init aliasRun).notifications,
      isPlatformId banner.id = true ∧ ∀ key slot,
        (replay (boardStep .ascii .program) Board.init aliasRun).platformSlots.get? key =
          some slot → slot.shouldShow = true → banner ≠ slot.banner key := by
  have hnone : notificationsFromPlatformSlots
      (replay (boardStep .ascii .program) Board.init aliasRun).platformSlots = [] := by
    decide +kernel
  refine ⟨(Slot.banner (Str.lit "0", 1) { Slot.blank with description := some (Str.lit "low") }),
    by decide +kernel, by decide, ?_⟩
  intro key slot hget hshow _
  have hmem : slot.banner key ∈ notificationsFromPlatformSlots
      (replay (boardStep .ascii .program) Board.init aliasRun).platformSlots :=
    mem_notifications.mpr ⟨key, slot, hget, hshow, rfl⟩
  rw [hnone] at hmem
  cases hmem

/-- A snapshot of two battery alarms. -/
def twoAlarms (a b : Str) : BoardOp :=
  .snapshot (Dict.ofList [(Str.lit "battery", .dict
    [(Str.lit "1/Alarms/" ++ a, .int 2), (Str.lit "1/Alarms/" ++ b, .int 2)])])

/-- Two alarms and 98 notifications fill the list; then the second alarm is gone and a third is
    there. The third is listed first, and the first alarm is cut. -/
def crowdedRun : List BoardOp :=
  twoAlarms (Str.lit "A") (Str.lit "B") ::
    (List.range 98).map (fun n => .push (.dict [(Str.lit "id", .str (natStr n))])) ++
      [twoAlarms (Str.lit "A") (Str.lit "C")]

theorem crowdedRun_differs :
    ¬ AllShown .ascii crowdedRun (replay (boardStep .ascii .program) Board.init crowdedRun) := by
  intro h
  have hplain : PlainAlarm (Str.lit "igw/battery/1/Alarms/A") (Str.lit "victron-alarm-battery_1-A") :=
    .snapshot (Str.lit "battery") (Str.lit "1/Alarms/A") (Str.lit "battery_1", Str.lit "A")
      List.mem_cons_self (by decide +kernel) (by decide) (by decide)
  have hshown := h.alarms (by decide +kernel) _ _ hplain
  have hlive : (alarmLevel ((view .ascii crowdedRun).value
      (Str.lit "igw/battery/1/Alarms/A"))).isSome = true := by decide +kernel
  have hgone : (lookup Banner.id (Str.lit "victron-alarm-battery_1-A")
      (replay (boardStep .ascii .program) Board.init crowdedRun).notifications).isSome = false := by
    decide +kernel
  rw [if_neg (by decide +kernel)] at hshown
  rw [← hshown, Option.isSome_map, hgone] at hlive
  cases hlive

/-- Neither run has more than few live banners, and both lists are wrong: a banner of the platform
    stays that no slot shows, and a live alarm has no banner. -/
theorem authority_differs :
    ((∀ op ∈ aliasRun, Admitted .ascii op ∧ PlainAlarms op) ∧ FewLive .ascii aliasRun ∧
      ∃ banner ∈ (replay (boardStep .ascii .program) Board.init aliasRun).notifications,
        isPlatformId banner.id = true ∧ ∀ key slot,
          (replay (boardStep .ascii .program) Board.init aliasRun).platformSlots.get? key =
            some slot → slot.shouldShow = true → banner ≠ slot.banner key) ∧
    ((∀ op ∈ crowdedRun, Admitted .ascii op ∧ PlainAlarms op) ∧ FewLive .ascii crowdedRun ∧
      ¬ AllShown .ascii crowdedRun (replay (boardStep .ascii .program) Board.init crowdedRun)) := by
  exact ⟨⟨by decide +kernel, by decide +kernel, aliasRun_differs⟩,
    by decide +kernel, by decide +kernel, crowdedRun_differs⟩

end Runs

end InverterDashboard.Notifications
