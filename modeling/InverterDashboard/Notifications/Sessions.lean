import InverterDashboard.Notifications.Rendering

/-
  A new MQTT session on a source.

  After `mqtt_clear_native_state` a run does what it does on a new source, except that ids
  dismissed earlier get no banner, and that the slots dismissed when the old session ended stay
  hidden until an event of the new session ends their dismissal (`session_fresh`). The two runs
  follow each other step by step (`Follows`); that nothing is cut on the way is assumed for both.
-/

namespace InverterDashboard.Notifications

open Python Cerbo Bounded Temporal

/-! ## Sessions -/

/-- What happens to a source in an MQTT session. -/
inductive SessionOp where
  | platform (topic : Str) (body : Body)
  /-- An alarm topic, which starts with `N/`. -/
  | alarm (rest : Str) (body : Body)
  | dismiss (nid : Str) (forgotten : Nat)

def SessionOp.op : SessionOp → BoardOp
  | .platform topic body => .platform topic body
  | .alarm rest body => .alarm (Str.lit "N/" ++ rest) body
  | .dismiss nid forgotten => .dismiss nid forgotten

variable (u : Unicode)

def sessionStep (limits : Limits) (b : Board) (op : SessionOp) : Board := boardStep u limits b op.op

/-- What a slot shows, without its dismissal and the last valid time that the dismissal is for. -/
def Slot.face (slot : Slot) : Slot := { slot with userDismissed := false, lastValidDateTime := none }

/-- The slot is dismissed. -/
def Hidden (b : Board) (key : SlotKey) : Prop :=
  ∃ slot, b.platformSlots.get? key = some slot ∧ slot.userDismissed = true

/-- A leaf of the slot that ends a dismissal for the event of the time `last`: another valid time,
    or the slot goes from active to inactive. -/
def renews (key : SlotKey) (last : Option Nat) (b : Board) : SessionOp → Bool
  | .platform topic body =>
    (Board.platformLeaf topic body).any fun leaf => (leafName leaf).any fun name =>
      name.1 = key && match name.2 with
        | .dateTime => (eventDatetime leaf.2).any fun next => last ≠ some next
        | .active => asBool leaf.2 = some false && (b.platformSlots.record key).active = some true
        | _ => false
  | _ => false

/-- The board `a` of a source whose last session ended with `old` shows what the board `f` of a new
    source does. -/
structure Fresh (old a f : Board) : Prop where
  seen : a.platformSeen = f.platformSeen
  alarmValues : a.alarmValues = f.alarmValues
  slots : ∀ key, ¬ Hidden old key → a.platformSlots.get? key = f.platformSlots.get? key
  /-- Nothing but the dismissal of a slot is left of the old session. -/
  faces : ∀ key, (a.platformSlots.record key).face = (f.platformSlots.record key).face
  banners : ∀ id, isPlatformId id = true → (∀ key, Hidden old key → id ≠ platformId key) →
    lookup Banner.id id a.notifications = lookup Banner.id id f.notifications
  raw : a.notifications.filter (fun banner => isRawId banner.id) =
    f.notifications.filter fun banner => isRawId banner.id && !(banner.id ∈ old.dismissedIds)
  /-- Every other banner is one that a slot of the new source would show if it were not dismissed. -/
  content : ∀ banner ∈ a.notifications, isRawId banner.id = false →
    ∃ key, (f.platformSlots.record key).face.shouldShow = true ∧
      banner = (f.platformSlots.record key).banner key

/-! ## Slots -/

theorem banner_face (slot : Slot) (key : SlotKey) : slot.face.banner key = slot.banner key := rfl

theorem face_put {slot slot' : Slot} (h : slot.face = slot'.face) (field : PlatformField)
    (value : Value) : (slot.put field value).face = (slot'.put field value).face := by
  unfold Slot.face at h ⊢
  rw [Slot.mk.injEq] at h
  obtain ⟨hdesc, hname, hservice, hdate, -, htype, hknown, hactive, hack, hsilenced, -⟩ := h
  cases field with
  | dateTime =>
    unfold Slot.put Slot.applyDatetime
    cases eventDatetime value <;>
      simp [hdesc, hname, hservice, htype, hknown, hactive, hack, hsilenced]
  | _ => simp [Slot.put, hdesc, hname, hservice, hdate, htype, hknown, hactive, hack, hsilenced]

theorem platformLeaf_valid {topic : Str} {body : Body} {leaf : Str × Value}
    (h : Board.platformLeaf topic body = some leaf) :
    ∃ key field, leafName leaf = some (key, field) ∧ validPlatformValue field leaf.2 = true := by
  unfold Board.platformLeaf at h
  obtain ⟨named, htopic, h⟩ := Option.bind_eq_some_iff.mp h
  obtain ⟨value, -, h⟩ := Option.bind_eq_some_iff.mp h
  split at h
  · next hvalid =>
    obtain rfl := Option.some.inj h
    unfold Board.platformTopic at htopic
    split at htopic
    · split at htopic
      · obtain ⟨name, hname, rfl⟩ := Option.map_eq_some_iff.mp htopic
        exact ⟨name.1, name.2, hname, hvalid⟩
      · cases htopic
    · cases htopic
  · cases h

/-- A dismissal does the same to slots that are the same. -/
theorem dismiss_congr {s t : Slots} {key : SlotKey} (h : s.get? key = t.get? key) (nid : Str) :
    (s.dismiss nid).get? key = (t.dismiss nid).get? key := by
  rw [get?_dismiss, get?_dismiss, h]

theorem face_dismiss (slots : Slots) (nid : Str) (key : SlotKey) :
    (Slots.record (slots.dismiss nid) key).face = (slots.record key).face := by
  unfold Slots.record
  rw [get?_dismiss]
  split
  · cases slots.get? key with
    | none => rfl
    | some slot => rfl
  · rfl

/-! ## Two runs -/

/-- A raw banner whose id was not dismissed in the old session. -/
def rawSince (old : Board) (id : Str) : Bool := isRawId id && !(id ∈ old.dismissedIds)

/-- What holds while the same messages reach the source with an old session and a new one, without
    limits. -/
structure Follows (old a f : Board) : Prop where
  distinct : (a.notifications.map Banner.id).Nodup
  named : a.platformSlots.Named
  namedFresh : f.platformSlots.Named
  seen : a.platformSeen = f.platformSeen
  alarmValues : a.alarmValues = f.alarmValues
  dismissed : ∀ id, id ∈ a.dismissedIds ↔ id ∈ old.dismissedIds ∨ id ∈ f.dismissedIds
  slots : ∀ key, ¬ Hidden old key → a.platformSlots.get? key = f.platformSlots.get? key
  faces : ∀ key, (a.platformSlots.record key).face = (f.platformSlots.record key).face
  banners : ∀ id, isPlatformId id = true → (∀ key, Hidden old key → id ≠ platformId key) →
    lookup Banner.id id a.notifications = lookup Banner.id id f.notifications
  raw : a.notifications.filter (fun banner => rawSince old banner.id) =
    f.notifications.filter fun banner => rawSince old banner.id
  clean : ∀ banner ∈ a.notifications, isRawId banner.id = true → banner.id ∉ old.dismissedIds
  content : ∀ banner ∈ a.notifications, isRawId banner.id = false →
    ∃ key, (f.platformSlots.record key).face.shouldShow = true ∧
      banner = (f.platformSlots.record key).banner key

section Step

variable {u} {old a f : Board}

theorem record_congr {s t : Slots} {key : SlotKey} (h : s.get? key = t.get? key) :
    s.record key = t.record key := by
  unfold Slots.record
  rw [h]

theorem slotsAfter_none {topic : Str} {body : Body} (h : Board.platformLeaf topic body = none)
    (b : Board) : slotsAfter b (.platform topic body) = b.platformSlots := by
  unfold slotsAfter
  dsimp only
  rw [h]

theorem slotsAfter_leaf {topic : Str} {body : Body} {leaf : Str × Value}
    (h : Board.platformLeaf topic body = some leaf) (b : Board) :
    slotsAfter b (.platform topic body) = applyPlatformField b.platformSlots leaf.1 leaf.2 := by
  unfold slotsAfter
  dsimp only
  rw [h]

/-- A session operation leaves a slot of both boards the same, if it was. -/
theorem slotsAfter_congr (op : SessionOp) {key : SlotKey}
    (h : a.platformSlots.get? key = f.platformSlots.get? key) :
    (slotsAfter a op.op).get? key = (slotsAfter f op.op).get? key := by
  cases op with
  | platform topic body =>
    unfold SessionOp.op
    cases hleaf : Board.platformLeaf topic body with
    | none =>
      rw [slotsAfter_none hleaf, slotsAfter_none hleaf]
      exact h
    | some leaf =>
      obtain ⟨k, field, hname, hvalid⟩ := platformLeaf_valid hleaf
      rw [slotsAfter_leaf hleaf, slotsAfter_leaf hleaf]
      rw [apply_valid hname hvalid, apply_valid hname hvalid, Dict.get?_set, Dict.get?_set]
      split
      · next hk => rw [record_congr (hk ▸ h)]
      · exact h
  | alarm rest body => exact h
  | dismiss nid forgotten => exact dismiss_congr h nid

theorem faces_after (op : SessionOp) {key : SlotKey}
    (h : (a.platformSlots.record key).face = (f.platformSlots.record key).face) :
    (Slots.record (slotsAfter a op.op) key).face = (Slots.record (slotsAfter f op.op) key).face := by
  cases op with
  | platform topic body =>
    unfold SessionOp.op
    cases hleaf : Board.platformLeaf topic body with
    | none =>
      rw [slotsAfter_none hleaf, slotsAfter_none hleaf]
      exact h
    | some leaf =>
      obtain ⟨k, field, hname, hvalid⟩ := platformLeaf_valid hleaf
      rw [slotsAfter_leaf hleaf, slotsAfter_leaf hleaf]
      rw [apply_valid hname hvalid, apply_valid hname hvalid, record_set, record_set]
      split
      · next hk => exact face_put (hk ▸ h) field leaf.2
      · exact h
  | alarm rest body => exact h
  | dismiss nid forgotten =>
    show (Slots.record (a.platformSlots.dismiss nid) key).face = _
    rw [face_dismiss, h]
    exact (face_dismiss _ _ _).symm

theorem rawEdit_alarm (b : Board) (rest : Str) (body : Body) :
    ∀ e ∈ opEdits u b (SessionOp.alarm rest body).op, RawEdit e := by
  refine rawEdit_message ?_
  rw [List.isPrefixOf_iff_prefix]
  exact List.prefix_append _ _

/-- What an operation puts on the list: a banner of a slot, or one of a raw alarm that is not
    dismissed. -/
theorem put_cases {b : Board} {op : SessionOp} {banner : Banner}
    (h : .put banner ∈ opEdits u b op.op) :
    isPlatformId banner.id = true ∨ isRawId banner.id = true ∧ banner.id ∉ b.dismissedIds := by
  cases op with
  | platform topic body =>
    unfold SessionOp.op opEdits at h
    dsimp only at h
    split at h
    · have hput : banner ∈ notificationsFromPlatformSlots (slotsAfter b (.platform topic body)) := by
        simpa [platformEdits, showEdits] using h
      exact Or.inl (id_of_mem hput)
    · cases h
  | alarm rest body =>
    have hraw := rawEdit_alarm b rest body _ h banner.id
    refine Or.inr ⟨?_, ?_⟩
    · cases hid : isRawId banner.id with
      | true => rfl
      | false => exact absurd (hraw hid none) (by simp [Edit.at])
    · unfold SessionOp.op opEdits at h
      dsimp only at h
      split at h
      · cases h
      · split at h
        · unfold reportEdits pushEdits at h
          split at h
          · cases h
          · split at h
            · split at h
              · split at h
                · cases h
                · next hnew =>
                  rw [List.mem_singleton, Edit.put.injEq] at h
                  exact h ▸ hnew
              · cases h
            · simp at h
        · cases h
  | dismiss nid forgotten =>
    unfold SessionOp.op opEdits at h
    dsimp only at h
    split at h
    · cases h
    · simp at h

/-- Of the edits of a platform only the removals touch other banners than its own. -/
theorem within_platformEdits {q : Str → Bool} (hq : ∀ id, isPlatformId id = true → q id = false)
    (active : Bool) (s t : Slots) :
    (platformEdits active s).flatMap (Edit.within Banner.id q) =
      (platformEdits active t).flatMap (Edit.within Banner.id q) := by
  have hputs : ∀ slots : Slots, ((notificationsFromPlatformSlots slots).map .put).flatMap
      (Edit.within Banner.id q) = [] := by
    intro slots
    rw [List.flatMap_eq_nil_iff]
    intro e he
    obtain ⟨banner, hbanner, rfl⟩ := List.mem_map.mp he
    exact if_neg (by rw [hq _ (id_of_mem hbanner)]; simp)
  unfold platformEdits showEdits
  rw [List.flatMap_append, List.flatMap_append, List.flatMap_cons, List.flatMap_cons, hputs, hputs]

theorem within_pushEdits {da df : List Str}
    (h : ∀ id, id ∈ da ↔ id ∈ old.dismissedIds ∨ id ∈ df) (data : Value) :
    (pushEdits u da data).flatMap (Edit.within Banner.id (rawSince old)) =
      (pushEdits u df data).flatMap (Edit.within Banner.id (rawSince old)) := by
  unfold pushEdits
  cases normalizeNotification u data with
  | none => rfl
  | some banner =>
    dsimp only
    by_cases hold : banner.id ∈ old.dismissedIds
    · rw [if_pos ((h _).mpr (Or.inl hold))]
      split
      · rfl
      · simp [Edit.within, rawSince, hold]
    · have hsame : banner.id ∈ da ↔ banner.id ∈ df := (h _).trans (or_iff_right hold)
      by_cases hdf : banner.id ∈ df
      · rw [if_pos hdf, if_pos (hsame.mpr hdf)]
      · rw [if_neg hdf, if_neg fun hda => hdf (hsame.mp hda)]

/-- Both boards edit their raw banners in the same way. -/
theorem within_opEdits (h : Follows old a f) (op : SessionOp) :
    (opEdits u a op.op).flatMap (Edit.within Banner.id (rawSince old)) =
      (opEdits u f op.op).flatMap (Edit.within Banner.id (rawSince old)) := by
  cases op with
  | platform topic body =>
    show (if (Board.platformLeaf topic body).isSome then platformEdits true _ else []).flatMap _ =
      (if (Board.platformLeaf topic body).isSome then platformEdits true _ else []).flatMap _
    split
    · refine within_platformEdits ?_ true _ _
      intro id hid
      unfold rawSince
      rw [not_raw_of_platform hid]
      rfl
    · rfl
  | alarm rest body =>
    unfold SessionOp.op opEdits
    dsimp only
    rw [h.seen]
    split
    · rfl
    · cases Board.messageReport u (Str.lit "N/" ++ rest) body with
      | none => rfl
      | some r =>
        dsimp only
        unfold reportEdits
        rw [h.alarmValues]
        split
        · rfl
        · split
          · exact within_pushEdits h.dismissed r.data
          · rfl
  | dismiss nid forgotten => rfl

theorem face_shouldShow {slot : Slot} (h : slot.shouldShow = true) : slot.face.shouldShow = true := by
  unfold Slot.shouldShow Slot.face at *
  simp only [Bool.and_eq_true, Bool.not_eq_true', Bool.or_eq_false_iff] at h ⊢
  exact ⟨⟨trivial, h.1.2⟩, h.2⟩

theorem record_of_get? {slots : Slots} {key : SlotKey} {slot : Slot} (h : slots.get? key = some slot) :
    slots.record key = slot := by
  unfold Slots.record
  rw [h]
  rfl

theorem lookup_raw_edits {b : Board} {rest : Str} {body : Body} {id : Str}
    (hid : isPlatformId id = true) (l : List Banner) :
    lookup Banner.id id (edits Banner.id uncut l (opEdits u b (SessionOp.alarm rest body).op)) =
      lookup Banner.id id l :=
  lookup_edits_same (fun e he => rawEdit_alarm b rest body e he id (not_raw_of_platform hid)) l

/-- The banner of a platform id after a step. -/
theorem lookup_after {b : Board} (hb : b.platformSlots.Named) (op : SessionOp) {id : Str}
    (hid : isPlatformId id = true) :
    lookup Banner.id id (sessionStep u .none b op).notifications =
      match op with
      | .platform topic body =>
        if (Board.platformLeaf topic body).isSome then
          lookup Banner.id id (notificationsFromPlatformSlots (slotsAfter b op.op))
        else lookup Banner.id id b.notifications
      | .alarm _ _ => lookup Banner.id id b.notifications
      | .dismiss nid _ =>
        if nid.isEmpty = false ∧ id = nid then none else lookup Banner.id id b.notifications := by
  unfold sessionStep
  rw [boardStep_eq]
  cases op with
  | platform topic body =>
    show lookup Banner.id id (edits Banner.id uncut b.notifications
      (if (Board.platformLeaf topic body).isSome then platformEdits true _ else [])) = _
    split
    · next hsome => exact (lookup_platformEdits (named_after hb _) true _ hid).trans (if_pos hsome).symm
    · next hnone => exact (if_neg hnone).symm
  | alarm rest body => exact lookup_raw_edits hid _
  | dismiss nid forgotten => exact lookup_dismissEdits b nid forgotten id _

/-- **One step.** The boards still follow each other after the same operation. -/
theorem follows_step (h : Follows old a f) (op : SessionOp) :
    Follows old (sessionStep u .none a op) (sessionStep u .none f op) := by
  have hlist : ∀ b : Board, (sessionStep u .none b op).notifications =
      edits Banner.id uncut b.notifications (opEdits u b op.op) := fun b => by
    unfold sessionStep
    rw [boardStep_eq]
    rfl
  have hslots : ∀ b : Board, (sessionStep u .none b op).platformSlots = slotsAfter b op.op :=
    fun b => by
      unfold sessionStep
      rw [boardStep_eq]
  have hdistinct : ((sessionStep u .none a op).notifications.map Banner.id).Nodup := by
    rw [hlist]
    exact nodup_edits (fun l => List.Sublist.refl l) h.distinct _
  have hfaces : ∀ key, (Slots.record (slotsAfter a op.op) key).face =
      (Slots.record (slotsAfter f op.op) key).face := fun key => faces_after op (h.faces key)
  -- A banner that is on the list was there or was put, and so is raw or of the platform.
  have hkinds : ∀ banner ∈ (sessionStep u .none a op).notifications,
      isRawId banner.id = true ∧ banner.id ∉ old.dismissedIds ∨ isPlatformId banner.id = true := by
    intro banner hmem
    rw [hlist] at hmem
    rcases mem_edits (fun l => List.Sublist.refl l) hmem with hold | hput
    · cases hraw : isRawId banner.id with
      | true => exact Or.inl ⟨rfl, h.clean banner hold hraw⟩
      | false =>
        obtain ⟨key, -, rfl⟩ := h.content banner hold hraw
        exact Or.inr (isPlatformId_platformId key)
    · rcases put_cases hput with hplatform | ⟨hraw, hnew⟩
      · exact Or.inr hplatform
      · exact Or.inl ⟨hraw, fun hold => hnew ((h.dismissed _).mpr (Or.inl hold))⟩
  constructor
  case distinct => exact hdistinct
  case named =>
    rw [hslots]
    exact named_after h.named op.op
  case namedFresh =>
    rw [hslots]
    exact named_after h.namedFresh op.op
  case seen =>
    unfold sessionStep
    rw [boardStep_eq, boardStep_eq]
    cases op with
    | platform topic body => simp [seenAfter, accepts, SessionOp.op, h.seen]
    | alarm rest body => simp [seenAfter, accepts, SessionOp.op, h.seen]
    | dismiss nid forgotten => simp [seenAfter, accepts, SessionOp.op, h.seen]
  case alarmValues =>
    unfold sessionStep
    rw [boardStep_eq, boardStep_eq]
    cases op with
    | platform topic body => exact h.alarmValues
    | alarm rest body => simp [valuesAfter, SessionOp.op, h.seen, h.alarmValues]
    | dismiss nid forgotten => exact h.alarmValues
  case dismissed =>
    intro id
    unfold sessionStep
    rw [boardStep_eq, boardStep_eq]
    have hid := h.dismissed id
    cases op with
    | platform topic body => exact hid
    | alarm rest body => exact hid
    | dismiss nid forgotten =>
      have hnid := h.dismissed nid
      have hmem : ∀ b : Board, id ∈ dismissedAfter .none b (SessionOp.dismiss nid forgotten).op ↔
          id ∈ b.dismissedIds ∨ nid.isEmpty = false ∧ isPlatformId nid = false ∧ id = nid := by
        intro b
        unfold SessionOp.op dismissedAfter Limits.none
        dsimp only
        by_cases hdone : nid ∈ b.dismissedIds
        · simp only [hdone, decide_true, Bool.or_true, if_true]
          constructor
          · exact Or.inl
          · rintro (hb | ⟨-, -, rfl⟩)
            · exact hb
            · exact hdone
        · cases nid.isEmpty <;> cases isPlatformId nid <;> simp [hdone]
      rw [hmem, hmem, hid]
      tauto
  case slots =>
    intro key hkey
    rw [hslots, hslots]
    exact slotsAfter_congr op (h.slots key hkey)
  case faces =>
    intro key
    rw [hslots, hslots]
    exact hfaces key
  case banners =>
    intro id hid hhidden
    have hold := h.banners id hid hhidden
    rw [lookup_after h.named op hid, lookup_after h.namedFresh op hid]
    cases op with
    | platform topic body =>
      dsimp only
      split
      · refine lookup_shown_congr (named_after h.named _) (named_after h.namedFresh _) ?_
        intro key hkey
        refine slotsAfter_congr _ (h.slots key fun hk => hhidden key hk hkey.symm)
      · exact hold
    | alarm rest body => exact hold
    | dismiss nid forgotten =>
      dsimp only
      rw [hold]
  case raw =>
    rw [hlist, hlist, filter_edits, filter_edits, within_opEdits h, h.raw]
  case clean =>
    intro banner hmem hraw
    rcases hkinds banner hmem with ⟨-, hnew⟩ | hplatform
    · exact hnew
    · rw [not_raw_of_platform hplatform] at hraw
      cases hraw
  case content =>
    intro banner hmem hraw
    rw [hslots]
    have hplatform : isPlatformId banner.id = true := by
      rcases hkinds banner hmem with ⟨htrue, -⟩ | hplatform
      · rw [htrue] at hraw
        cases hraw
      · exact hplatform
    -- It shows a slot of the source, or it was there and no leaf came.
    have hshown : banner ∈ notificationsFromPlatformSlots (slotsAfter a op.op) ∨
        banner ∈ a.notifications ∧
          ∀ key, (Slots.record (slotsAfter f op.op) key).face = (f.platformSlots.record key).face := by
      have hlookup := (mem_iff_lookup hdistinct).mp hmem
      rw [lookup_after h.named op hplatform] at hlookup
      cases op with
      | platform topic body =>
        dsimp only at hlookup
        cases hleaf : Board.platformLeaf topic body with
        | some leaf =>
          rw [hleaf] at hlookup
          exact Or.inl (List.mem_of_find?_eq_some hlookup)
        | none =>
          rw [hleaf] at hlookup
          refine Or.inr ⟨List.mem_of_find?_eq_some hlookup, fun key => ?_⟩
          simp [SessionOp.op, slotsAfter, hleaf]
      | alarm rest body => exact Or.inr ⟨List.mem_of_find?_eq_some hlookup, fun key => rfl⟩
      | dismiss nid forgotten =>
        dsimp only at hlookup
        split at hlookup
        · cases hlookup
        · exact Or.inr ⟨List.mem_of_find?_eq_some hlookup, fun key => face_dismiss _ _ _⟩
    rcases hshown with hshown | ⟨hold, hsame⟩
    · obtain ⟨key, slot, hget, hshow, rfl⟩ := mem_notifications.mp hshown
      have hface : slot.face = (Slots.record (slotsAfter f op.op) key).face := by
        rw [← hfaces key, record_of_get? hget]
      refine ⟨key, hface ▸ face_shouldShow hshow, ?_⟩
      rw [← banner_face, hface, banner_face]
    · obtain ⟨key, hshow, hbanner⟩ := h.content banner hold hraw
      refine ⟨key, (hsame key).symm ▸ hshow, ?_⟩
      rw [hbanner, ← banner_face, ← hsame key, banner_face]

theorem follows_replay (h : Follows old a f) (ops : List SessionOp) :
    Follows old (replay (sessionStep u .none) a ops) (replay (sessionStep u .none) f ops) := by
  induction ops generalizing a f with
  | nil => exact h
  | cons op ops ih => exact ih (follows_step h op)

/-! ## The start of a session -/

theorem follows_init : Follows Board.init Board.init Board.init where
  distinct := List.nodup_nil
  named key slot hget := by cases hget
  namedFresh key slot hget := by cases hget
  seen := rfl
  alarmValues := rfl
  dismissed id := by simp [Board.init]
  slots _ _ := rfl
  faces _ := rfl
  banners _ _ _ := rfl
  raw := rfl
  clean banner hmem := by cases hmem
  content banner hmem := by cases hmem

/-- A run from a new source leaves only banners that the end of its session takes away. -/
theorem cleared_nil {b : Board} (h : Follows Board.init b b) : b.clearNativeState.notifications = [] := by
  show b.notifications.filter (fun banner => !isRawId banner.id && !isPlatformId banner.id) = []
  rw [List.filter_eq_nil_iff]
  intro banner hmem
  cases hraw : isRawId banner.id with
  | true => simp
  | false =>
    obtain ⟨key, -, rfl⟩ := h.content banner hmem hraw
    simp [Slot.banner, isPlatformId_platformId]

theorem record_cleared (slots : Slots) (key : SlotKey) :
    Slots.record (Board.retainedSlots slots) key =
      ((slots.get? key).filter Slot.userDismissed).elim .blank Board.retainedSlot := by
  unfold Slots.record
  rw [get?_retained]
  cases (slots.get? key).filter Slot.userDismissed with
  | none => rfl
  | some slot => rfl

theorem follows_clear (h : Follows Board.init old old) :
    Follows old old.clearNativeState Board.init := by
  have hnil := cleared_nil h
  constructor
  case distinct =>
    rw [hnil]
    exact List.nodup_nil
  case named => exact named_after h.named .clear
  case namedFresh =>
    intro key slot hget
    cases hget
  case seen => rfl
  case alarmValues => rfl
  case dismissed =>
    intro id
    exact (or_iff_left (by simp [Board.init])).symm
  case slots =>
    intro key hkey
    show Dict.get? (Board.retainedSlots old.platformSlots) key = none
    rw [get?_retained, Option.map_eq_none_iff, Option.filter_eq_none_iff]
    intro slot hget hdismissed
    exact hkey ⟨slot, hget, hdismissed⟩
  case faces =>
    intro key
    show (Slots.record (Board.retainedSlots old.platformSlots) key).face = _
    rw [record_cleared]
    cases (old.platformSlots.get? key).filter Slot.userDismissed with
    | none => rfl
    | some slot => rfl
  case banners =>
    intro id _ _
    rw [hnil]
    rfl
  case raw =>
    rw [hnil]
    rfl
  case clean =>
    intro banner hmem
    rw [hnil] at hmem
    cases hmem
  case content =>
    intro banner hmem
    rw [hnil] at hmem
    cases hmem

/-! ## Dismissed slots -/

/-- The slot stays dismissed for the event it was dismissed for, and has no banner. -/
structure Hides (key : SlotKey) (last : Option Nat) (a : Board) : Prop where
  dismissed : (a.platformSlots.record key).userDismissed = true
  last : (a.platformSlots.record key).lastValidDateTime = last
  absent : lookup Banner.id (platformId key) a.notifications = none

/-- A leaf that does not renew the slot. -/
theorem put_hides {slot : Slot} {field : PlatformField} {value : Value} {last : Option Nat}
    (hdismissed : slot.userDismissed = true) (hlast : slot.lastValidDateTime = last)
    (hdate : field = .dateTime → ∀ next, eventDatetime value = some next → last = some next)
    (hactive : field = .active → asBool value = some false → slot.active ≠ some true) :
    (slot.put field value).userDismissed = true ∧ (slot.put field value).lastValidDateTime = last := by
  cases field with
  | dateTime =>
    unfold Slot.put Slot.applyDatetime
    cases hnext : eventDatetime value with
    | none => exact ⟨hdismissed, hlast⟩
    | some next =>
      have hsame : last = some next := hdate rfl next hnext
      simp [hdismissed, hlast, hsame]
  | active =>
    have hstays := hactive rfl
    unfold Slot.put
    refine ⟨?_, hlast⟩
    simpa [hdismissed, imp_iff_not_or] using hstays
  | _ => exact ⟨hdismissed, hlast⟩

theorem record_dismiss_again {slots : Slots} {key : SlotKey}
    (h : (slots.record key).userDismissed = true) (nid : Str) :
    Slots.record (slots.dismiss nid) key = slots.record key := by
  unfold Slots.record at h ⊢
  rw [get?_dismiss]
  split
  · cases hget : slots.get? key with
    | none => rfl
    | some slot =>
      rw [hget] at h
      have hslot : { slot with userDismissed := true } = slot :=
        Slot.ext rfl rfl rfl rfl rfl rfl rfl rfl rfl rfl h.symm
      exact hslot
  · rfl

theorem unshown_of_dismissed {slots : Slots} {key : SlotKey}
    (h : (slots.record key).userDismissed = true) :
    (slots.get? key).bind (slotToNotification key) = none := by
  unfold Slots.record at h
  cases hget : slots.get? key with
  | none => rfl
  | some slot =>
    rw [hget] at h
    have hslot : slot.userDismissed = true := h
    refine if_neg ?_
    simp [Slot.shouldShow, hslot]

theorem hides_step (h : Follows old a f) {key : SlotKey} (hkey : key.Named) {last : Option Nat}
    (hhides : Hides key last a) {op : SessionOp} (hop : renews key last f op = false) :
    Hides key last (sessionStep u .none a op) := by
  have hslots : (sessionStep u .none a op).platformSlots = slotsAfter a op.op := by
    unfold sessionStep
    rw [boardStep_eq]
  have hrecord : (Slots.record (slotsAfter a op.op) key).userDismissed = true ∧
      (Slots.record (slotsAfter a op.op) key).lastValidDateTime = last := by
    cases op with
    | platform topic body =>
      cases hleaf : Board.platformLeaf topic body with
      | none => simpa [SessionOp.op, slotsAfter, hleaf] using ⟨hhides.dismissed, hhides.last⟩
      | some leaf =>
        obtain ⟨k, field, hname, hvalid⟩ := platformLeaf_valid hleaf
        have hafter : slotsAfter a (SessionOp.platform topic body).op =
            applyPlatformField a.platformSlots leaf.1 leaf.2 := by
          simp [SessionOp.op, slotsAfter, hleaf]
        rw [hafter, apply_valid hname hvalid, record_set]
        split
        · next hk =>
          subst hk
          have hactive : (a.platformSlots.record key).face.active =
            (f.platformSlots.record key).face.active := by rw [h.faces key]
          have hactive : (a.platformSlots.record key).active =
            (f.platformSlots.record key).active := hactive
          unfold renews at hop
          dsimp only at hop
          rw [hleaf, Option.any_some, hname, Option.any_some] at hop
          refine put_hides hhides.dismissed hhides.last ?_ ?_
          · rintro rfl next hnext
            simpa [hnext] using hop
          · rintro rfl hoff
            rw [hactive]
            simpa [hoff] using hop
        · exact ⟨hhides.dismissed, hhides.last⟩
    | alarm rest body => exact ⟨hhides.dismissed, hhides.last⟩
    | dismiss nid forgotten =>
      have hsame : Slots.record (a.platformSlots.dismiss nid) key = a.platformSlots.record key :=
        record_dismiss_again hhides.dismissed nid
      show (Slots.record (a.platformSlots.dismiss nid) key).userDismissed = true ∧
        (Slots.record (a.platformSlots.dismiss nid) key).lastValidDateTime = last
      rw [hsame]
      exact ⟨hhides.dismissed, hhides.last⟩
  refine ⟨?_, ?_, ?_⟩
  · rw [hslots]
    exact hrecord.1
  · rw [hslots]
    exact hrecord.2
  · rw [lookup_after h.named op (isPlatformId_platformId key)]
    cases op with
    | platform topic body =>
      dsimp only
      split
      · rw [lookup_notifications (named_after h.named _) hkey]
        exact unshown_of_dismissed hrecord.1
      · exact hhides.absent
    | alarm rest body => exact hhides.absent
    | dismiss nid forgotten =>
      dsimp only
      split
      · rfl
      · exact hhides.absent

theorem hides_replay (h : Follows old a f) {key : SlotKey} (hkey : key.Named) {last : Option Nat}
    (hhides : Hides key last a) {ops : List SessionOp}
    (hops : ∀ x ∈ trace (sessionStep u .none) f ops, renews key last x.1 x.2 = false) :
    Hides key last (replay (sessionStep u .none) a ops) := by
  induction ops generalizing a f with
  | nil => exact hhides
  | cons op ops ih =>
    have hone : Hides key last (sessionStep u .none a op) :=
      hides_step h hkey hhides (hops (f, op) List.mem_cons_self)
    exact ih (follows_step h op) hone fun x hx => hops x (List.mem_cons_of_mem _ hx)

theorem hides_clear (h : Follows Board.init old old) {key : SlotKey} {slot : Slot}
    (hget : old.platformSlots.get? key = some slot) (hdismissed : slot.userDismissed = true) :
    Hides key slot.lastValidDateTime old.clearNativeState := by
  have hrecord : Slots.record (Board.retainedSlots old.platformSlots) key =
      Board.retainedSlot slot := by
    rw [record_cleared, hget, Option.filter_some, if_pos hdismissed]
    rfl
  have hlast : (Slots.record (Board.retainedSlots old.platformSlots) key).lastValidDateTime =
      slot.lastValidDateTime := by
    rw [hrecord]
    rfl
  refine ⟨?_, hlast, ?_⟩
  · exact congrArg Slot.userDismissed hrecord
  · rw [cleared_nil h]
    rfl

end Step

/-! ## Sessions of the program -/

/-- Nothing is cut in the session. -/
def SessionWithin (b : Board) (ops : List SessionOp) : Prop := Within u b (ops.map SessionOp.op)

variable {u}

theorem session_program {b : Board} {ops : List SessionOp} (h : SessionWithin u b ops) :
    replay (sessionStep u .program) b ops = replay (sessionStep u .none) b ops ∧
      trace (sessionStep u .program) b ops = trace (sessionStep u .none) b ops := by
  refine run_congr fun x hx => boardStep_program (h (x.1, x.2.op) ?_)
  clear h
  induction ops generalizing b with
  | nil => cases hx
  | cons op ops ih =>
    rcases List.mem_cons.mp hx with rfl | hx
    · exact List.mem_cons_self
    · exact List.mem_cons_of_mem _ (ih hx)

/-- **A new session.** What it shows is what the same messages show on a new source, and a slot
    dismissed when the old session ended stays hidden until the new one renews it. -/
theorem session_fresh (r₁ r₂ : List SessionOp) (h₁ : SessionWithin u Board.init r₁)
    (h₂ : SessionWithin u (replay (sessionStep u .program) Board.init r₁).clearNativeState r₂)
    (hf : SessionWithin u Board.init r₂) :
    let old := replay (sessionStep u .program) Board.init r₁
    let a := replay (sessionStep u .program) old.clearNativeState r₂
    let f := replay (sessionStep u .program) Board.init r₂
    Fresh old a f ∧
      ∀ key slot, old.platformSlots.get? key = some slot → slot.userDismissed = true →
        (∀ x ∈ trace (sessionStep u .program) Board.init r₂,
          renews key slot.lastValidDateTime x.1 x.2 = false) →
        Hides key slot.lastValidDateTime a := by
  intro old a f
  have hinit : Follows Board.init old old := by
    have hold : old = replay (sessionStep u .none) Board.init r₁ := (session_program h₁).1
    rw [hold]
    exact follows_replay follows_init r₁
  have hstart := follows_clear hinit
  have ha : a = replay (sessionStep u .none) old.clearNativeState r₂ := (session_program h₂).1
  have hnew : f = replay (sessionStep u .none) Board.init r₂ := (session_program hf).1
  have hend : Follows old a f := by
    rw [ha, hnew]
    exact follows_replay hstart r₂
  refine ⟨⟨hend.seen, hend.alarmValues, hend.slots, hend.faces, hend.banners, ?_, hend.content⟩, ?_⟩
  · have hclean : a.notifications.filter (fun banner => isRawId banner.id) =
        a.notifications.filter fun banner => rawSince old banner.id := by
      refine List.filter_congr fun banner hmem => ?_
      unfold rawSince
      cases hraw : isRawId banner.id with
      | false => rfl
      | true => simp [hend.clean banner hmem hraw]
    rw [hclean, hend.raw]
    rfl
  · intro key slot hget hdismissed hops
    rw [ha]
    refine hides_replay hstart (hinit.named key slot hget) (hides_clear hinit hget hdismissed) ?_
    rwa [(session_program hf).2] at hops

/-- A slot dismissed in one session, and the messages of the next one. -/
def firstSession : List SessionOp :=
  [.platform (Str.lit "N/p/platform/0/Notifications/1/Description")
      (.object (some (.value (.str (Str.lit "low"))))),
    .platform (Str.lit "N/p/platform/0/Notifications/1/DateTime")
      (.object (some (.value (.int 1700000000)))),
    .dismiss (Str.lit "victron-platform-0-1") 0]

def secondSession : List SessionOp :=
  [.alarm (Str.lit "p/battery/1/Alarms/High") (.object (some (.value (.int 2)))),
    .platform (Str.lit "N/p/platform/0/Notifications/1/Description")
      (.object (some (.value (.str (Str.lit "low"))))),
    .platform (Str.lit "N/p/platform/0/Notifications/2/Description")
      (.object (some (.value (.str (Str.lit "high")))))]

theorem session_fresh_reconnected :
    let step := sessionStep Unicode.ascii .program
    let old := replay step Board.init firstSession
    let a := replay step old.clearNativeState secondSession
    Fresh old a (replay step Board.init secondSession) ∧ Hides (Str.lit "0", 1) (some 1700000000) a := by
  obtain ⟨hfresh, hhides⟩ := session_fresh (u := Unicode.ascii) firstSession secondSession
    (within_of_few (by decide +kernel)) (within_of_few (by decide +kernel))
    (within_of_few (by decide +kernel))
  exact ⟨hfresh, hhides (Str.lit "0", 1) _ (Option.some_get (by decide +kernel)).symm
    (by decide +kernel) (by decide +kernel)⟩

end InverterDashboard.Notifications
