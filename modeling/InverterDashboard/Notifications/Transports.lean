import InverterDashboard.Notifications.Rendering
import InverterDashboard.Temporal.Trace

/-
  The same platform states over both transports: a gateway source rebuilds its slots from every
  snapshot, an MQTT source updates them leaf by leaf.

  A dismissal lasts as long as the event it is about: until the slot is active no more, or has
  another valid time. Both sources keep to that, and show the same, until a dismissed slot goes
  from active to inactive: the update in place ends the dismissal then, the rebuilt slot never saw
  the slot active and inherits it (`transports_agree_iff`).
-/

namespace InverterDashboard.Notifications

open Python Cerbo Temporal

/-! ## Both maps -/

/-- What happens to both sources: a complete platform state, as a snapshot and as leaves in the
    order of their arrival, or a dismissal. -/
inductive Poll where
  | state (snapshot : Object) (leaves : List (Str × Value))
  | dismiss (nid : Str)

/-- The slots of a gateway source and of an MQTT source. -/
abbrev Both := Slots × Slots

def pollStep (both : Both) : Poll → Both
  | .state snapshot leaves => (syncPlatformMap both.1 snapshot, feed both.2 leaves)
  | .dismiss nid => (both.1.dismiss nid, both.2.dismiss nid)

/-- A complete state: exactly the fields of the layout, each with a value it accepts. The values of
    a snapshot may be wrapped, the leaves bring what is inside. -/
structure Complete (layout : List (SlotKey × PlatformField)) (snapshot : Object)
    (leaves : List (Str × Value)) : Prop where
  names : ((unwrapped snapshot).map leafName).Perm (layout.map some)
  valid : ∀ e ∈ unwrapped snapshot, LeafValid e
  order : leaves.Perm (unwrapped snapshot)

def Poll.Complete (layout : List (SlotKey × PlatformField)) : Poll → Prop
  | .state snapshot leaves => Notifications.Complete layout snapshot leaves
  | .dismiss _ => True

/-- The same banners, and the same dismissals. -/
structure Agree (both : Both) : Prop where
  banners : notificationsFromPlatformSlots both.1 = notificationsFromPlatformSlots both.2
  dismissed : ∀ key, (both.1.get? key).map Slot.userDismissed = (both.2.get? key).map Slot.userDismissed

/-! ## How long a dismissal lasts -/

/-- What a poll says of a slot. -/
def Poll.update (key : SlotKey) : Poll → Update
  | .state snapshot _ => updateOf (unwrapped snapshot) key
  | .dismiss _ => fun _ => none

/-- The last valid time that a slot was given. -/
def lastTime (key : SlotKey) (polls : List Poll) : Option Nat :=
  (polls.filterMap fun poll => (poll.update key .dateTime).bind eventDatetime).getLast?

/-- Whether a slot was active when that was last said. -/
def lastActive (key : SlotKey) (polls : List Poll) : Option Bool :=
  (polls.filterMap fun poll => poll.update key .active).getLast?.bind asBool

/-- After the polls `before` a poll ends the event of a slot: it is active no more, or has another
    valid time. -/
def EndsEvent (key : SlotKey) (before : List Poll) (poll : Poll) : Prop :=
  ((poll.update key .active).bind asBool = some false ∧ lastActive key before = some true) ∨
    ∃ time, (poll.update key .dateTime).bind eventDatetime = some time ∧
      lastTime key before ≠ some time

/-- After the polls `before` the user dismisses a slot, which a state has named. -/
def DismissesSlot (key : SlotKey) (before : List Poll) : Poll → Prop
  | .dismiss nid => isPlatformId nid = true ∧ dismissedSlot nid = some key ∧
      ∃ poll ∈ before, ∃ field, poll.update key field ≠ none
  | .state _ _ => False

/-- Every poll with those before it. -/
def histories (polls : List Poll) : List (List Poll × Poll) :=
  trace (fun before poll => before ++ [poll]) [] polls

/-- The user has dismissed a slot, and its event has not ended since. -/
def Dismissed (key : SlotKey) (polls : List Poll) : Prop :=
  Since (fun x => ¬ EndsEvent key x.1 x.2) (fun x => DismissesSlot key x.1 x.2) (histories polls)

/-- The dismissed slots are those whose dismissal lasts. -/
def Sticky (polls : List Poll) (slots : Slots) : Prop :=
  ∀ key, (slots.get? key).any Slot.userDismissed = true ↔ Dismissed key polls

/-- After these polls both sources show the same, and keep the dismissals that last. -/
structure InStep (polls : List Poll) : Prop where
  agree : Agree (replay pollStep (Dict.empty, Dict.empty) polls)
  gateway : Sticky polls (replay pollStep (Dict.empty, Dict.empty) polls).1
  mqtt : Sticky polls (replay pollStep (Dict.empty, Dict.empty) polls).2

/-- A dismissed slot goes from active to inactive, and has no valid time other than its last. -/
def Withdraws (slots : Slots) : Poll → Prop
  | .state snapshot _ => ∃ key slot, slots.get? key = some slot ∧ slot.userDismissed = true ∧
      (updateOf (unwrapped snapshot) key).keepsTime slot = true ∧
      (updateOf (unwrapped snapshot) key).withdraws slot = true
  | .dismiss _ => False

/-! ## Records -/

theorem get?_of_has {slots : Slots} {key : SlotKey} (h : slots.has key = true) :
    slots.get? key = some (slots.record key) := by
  obtain ⟨slot, hslot⟩ := Option.isSome_iff_exists.mp h
  unfold Slots.record
  rw [hslot]
  rfl

theorem get?_of_not_has {slots : Slots} {key : SlotKey} (h : slots.has key = false) :
    slots.get? key = none := Option.isNone_iff_eq_none.mp (by simpa [Dict.has] using h)

/-- Nothing outside these fields is set. -/
structure Slot.Only (fields : PlatformField → Prop) (slot : Slot) : Prop where
  description : ¬ fields .description → slot.description = none
  deviceName : ¬ fields .deviceName → slot.deviceName = none
  service : ¬ fields .service → slot.service = none
  dateTime : ¬ fields .dateTime → slot.dateTime = none
  notifType : ¬ fields .type → slot.notifType = none
  pushTypeKnown : ¬ fields .type → slot.pushTypeKnown = false
  active : ¬ fields .active → slot.active = none
  acknowledged : ¬ fields .acknowledged → slot.acknowledged = none
  silenced : ¬ fields .silenced → slot.silenced = none

theorem Slot.Only.blank (fields : PlatformField → Prop) : Slot.blank.Only fields := by
  constructor <;> exact fun _ => rfl

theorem read_none {α : Type} {u : Update} {field : PlatformField} (h : u field = none)
    (f : Value → α) (old : α) : u.read field f old = old := by
  unfold Update.read
  rw [h]

theorem Slot.Only.merge {fields : PlatformField → Prop} {slot : Slot} (h : slot.Only fields)
    {u : Update} (hu : ∀ field, ¬ fields field → u field = none) : (slot.merge u).Only fields where
  description hf := (read_none (hu _ hf) _ _).trans (h.description hf)
  deviceName hf := (read_none (hu _ hf) _ _).trans (h.deviceName hf)
  service hf := (read_none (hu _ hf) _ _).trans (h.service hf)
  dateTime hf := (read_none (hu _ hf) _ _).trans (h.dateTime hf)
  notifType hf := (read_none (hu _ hf) _ _).trans (h.notifType hf)
  pushTypeKnown hf := (read_none (hu _ hf) _ _).trans (h.pushTypeKnown hf)
  active hf := (read_none (hu _ hf) _ _).trans (h.active hf)
  acknowledged hf := (read_none (hu _ hf) _ _).trans (h.acknowledged hf)
  silenced hf := (read_none (hu _ hf) _ _).trans (h.silenced hf)

/-- A field that an update sets, or that was not set, is the same whatever was there before. -/
theorem read_congr {α : Type} {u : Update} {field : PlatformField} {f : Value → α} {old new : α}
    (h : u field = none → old = new) : u.read field f old = u.read field f new := by
  unfold Update.read
  cases hu : u field with
  | none => exact h hu
  | some value => rfl

/-- A rebuilt slot is the updated one, but for the rule that ends a dismissal. -/
theorem inherit_rebuilt {slot : Slot} {u : Update} (h : slot.Only fun field => u field ≠ none) :
    (Slot.blank.merge u).inherit (some slot) =
      { slot.merge u with userDismissed := slot.userDismissed && u.keepsTime slot } := by
  have hset : ∀ {field}, u field = none → ¬ u field ≠ none := fun hnone hsome => hsome hnone
  have hdate : (Slot.blank.merge u).dateTime = (u .dateTime).bind eventDatetime := by
    unfold Slot.merge Update.read Slot.blank
    cases u .dateTime with
    | none => rfl
    | some value => rfl
  have hdesc : (Slot.blank.merge u).description = (slot.merge u).description :=
    read_congr fun hnone => (h.description (hset hnone)).symm
  have hname : (Slot.blank.merge u).deviceName = (slot.merge u).deviceName :=
    read_congr fun hnone => (h.deviceName (hset hnone)).symm
  have hservice : (Slot.blank.merge u).service = (slot.merge u).service :=
    read_congr fun hnone => (h.service (hset hnone)).symm
  have htime : (Slot.blank.merge u).dateTime = (slot.merge u).dateTime :=
    read_congr fun hnone => (h.dateTime (hset hnone)).symm
  have htype : (Slot.blank.merge u).notifType = (slot.merge u).notifType :=
    read_congr fun hnone => (h.notifType (hset hnone)).symm
  have hknown : (Slot.blank.merge u).pushTypeKnown = (slot.merge u).pushTypeKnown :=
    read_congr fun hnone => (h.pushTypeKnown (hset hnone)).symm
  have hactive : (Slot.blank.merge u).active = (slot.merge u).active :=
    read_congr fun hnone => (h.active (hset hnone)).symm
  have hack : (Slot.blank.merge u).acknowledged = (slot.merge u).acknowledged :=
    read_congr fun hnone => (h.acknowledged (hset hnone)).symm
  have hsilenced : (Slot.blank.merge u).silenced = (slot.merge u).silenced :=
    read_congr fun hnone => (h.silenced (hset hnone)).symm
  have hlast : (slot.merge u).lastValidDateTime =
      (((u .dateTime).bind eventDatetime).map some).getD slot.lastValidDateTime := rfl
  have hlast' : (Slot.blank.merge u).lastValidDateTime =
      (((u .dateTime).bind eventDatetime).map some).getD none := rfl
  have hud : (Slot.blank.merge u).userDismissed = false := rfl
  unfold Slot.inherit Update.keepsTime
  cases hnext : (u .dateTime).bind eventDatetime with
  | none =>
    rw [hnext] at hdate hlast
    cases hd : slot.userDismissed <;>
      simp [hdate, hd, hdesc, hname, hservice, htype, hknown, hactive, hack, hsilenced, hlast, hud,
        ← htime]
  | some next =>
    rw [hnext] at hdate hlast hlast'
    cases hd : slot.userDismissed <;>
      simp [hdate, hd, Slot.ext_iff, hdesc, hname, hservice, htype, hknown, hactive, hack, hsilenced,
        hlast, hlast', hud, ← htime]

/-! ## One state -/

section State

variable {layout : List (SlotKey × PlatformField)} {snapshot : Object} {leaves : List (Str × Value)}

namespace Complete

theorem nodup (h : Complete layout snapshot leaves) (hlayout : layout.Nodup) :
    ((unwrapped snapshot).map leafName).Nodup :=
  h.names.nodup_iff.mpr (hlayout.map (Option.some_injective _))

theorem mem_names (h : Complete layout snapshot leaves) {key : SlotKey} {field : PlatformField} :
    some (key, field) ∈ (unwrapped snapshot).map leafName ↔ (key, field) ∈ layout := by
  rw [h.names.mem_iff, List.mem_map]
  simp

/-- A state says something about exactly the fields of the layout. -/
theorem updateOf_ne_none (h : Complete layout snapshot leaves) {key : SlotKey}
    {field : PlatformField} :
    updateOf (unwrapped snapshot) key field ≠ none ↔ (key, field) ∈ layout := by
  rw [← h.mem_names]
  unfold updateOf
  rw [ne_eq, Option.map_eq_none_iff, List.find?_eq_none, List.mem_map]
  simp

/-- The slots after the leaves of a state arrived, in any order. -/
theorem get?_feed (h : Complete layout snapshot leaves) (hlayout : layout.Nodup)
    {arrived : List (Str × Value)} (harrived : arrived.Perm (unwrapped snapshot)) {slots : Slots}
    (hknown : ∀ key, slots.has key = true → key ∈ layout.map Prod.fst) (key : SlotKey) :
    (feed slots arrived).get? key =
      if key ∈ layout.map Prod.fst then
        some ((slots.record key).merge (updateOf (unwrapped snapshot) key))
      else none := by
  have hvalid : ∀ e ∈ arrived, LeafValid e := fun e he => h.valid e (harrived.mem_iff.mp he)
  have hperm := harrived.map leafName
  have hnodup : (arrived.map leafName).Nodup := hperm.nodup_iff.mpr (h.nodup hlayout)
  have hhas : (feed slots arrived).has key = true ↔
      slots.has key = true ∨ key ∈ layout.map Prod.fst := by
    rw [has_feed hvalid slots key]
    simp [hperm.mem_iff, h.mem_names]
  split
  · next hnamed =>
    rw [get?_of_has (hhas.mpr (Or.inr hnamed)), record_feed hvalid hnodup,
      updateOf_perm harrived hnodup]
  · next hnamed =>
    refine get?_of_not_has (Bool.eq_false_iff.mpr fun hin => ?_)
    exact (hhas.mp hin).elim (fun hold => hnamed (hknown key hold)) hnamed

end Complete

end State

/-! ## Runs -/

/-- The maps hold the same slots, which are those of the layout with its fields. -/
structure Same (layout : List (SlotKey × PlatformField)) (both : Both) : Prop where
  slots : ∀ key, both.1.get? key = both.2.get? key
  known : ∀ key, both.2.has key = true → key ∈ layout.map Prod.fst
  only : ∀ key, (Slots.record both.2 key).Only fun field => (key, field) ∈ layout

namespace Same

variable {layout : List (SlotKey × PlatformField)} {both : Both}

theorem empty : Same layout (Dict.empty, Dict.empty) where
  slots _ := rfl
  known _ h := by cases h
  only _ := Slot.Only.blank _

theorem agree (h : Same layout both) : Agree both where
  banners := notifications_congr h.slots
  dismissed key := by rw [h.slots key]

/-- The slots of both maps after a state. -/
theorem get?_state (h : Same layout both) (hlayout : layout.Nodup) {snapshot : Object}
    {leaves : List (Str × Value)} (hc : Complete layout snapshot leaves) (key : SlotKey) :
    let u := updateOf (unwrapped snapshot) key
    let slot := Slots.record both.2 key
    (syncPlatformMap both.1 snapshot).get? key = (if key ∈ layout.map Prod.fst then
      some { slot.merge u with userDismissed := slot.userDismissed && u.keepsTime slot } else none) ∧
    (feed both.2 leaves).get? key =
      if key ∈ layout.map Prod.fst then some (slot.merge u) else none := by
  intro u slot
  refine ⟨?_, hc.get?_feed hlayout hc.order h.known key⟩
  have hempty : ∀ key, (Dict.empty : Slots).has key = true → key ∈ layout.map Prod.fst :=
    fun _ hin => by cases hin
  have honly : slot.Only fun field => u field ≠ none := by
    have := h.only key
    simp only [← hc.updateOf_ne_none] at this
    exact this
  unfold syncPlatformMap
  rw [Dict.get?_mapValues, rebuild_eq,
    hc.get?_feed hlayout (List.Perm.refl _) hempty key, h.slots key]
  split
  · have hrecord : Slots.record Dict.empty key = Slot.blank := rfl
    rw [hrecord, Option.map_some]
    cases hget : both.2.get? key with
    | some old =>
      have hslot : slot = old := by
        show Slots.record both.2 key = old
        unfold Slots.record
        rw [hget]
        rfl
      rw [← hslot]
      exact congrArg some (inherit_rebuilt honly)
    | none =>
      have hslot : slot = Slot.blank := by
        show Slots.record both.2 key = Slot.blank
        unfold Slots.record
        rw [hget]
        rfl
      have hinherit : (Slot.blank.merge u).inherit none = (Slot.blank.merge u).inherit (some .blank) :=
        rfl
      show some ((Slot.blank.merge u).inherit none) = _
      rw [hinherit, inherit_rebuilt (Slot.Only.blank _), hslot]
  · rfl

theorem dismiss (h : Same layout both) (nid : Str) :
    Same layout (both.1.dismiss nid, both.2.dismiss nid) := by
  unfold Slots.dismiss
  split
  · split
    · next key _ =>
      rw [h.slots key]
      cases hget : both.2.get? key with
      | none => exact h
      | some slot =>
        have hrecord : Slots.record both.2 key = slot := by
          unfold Slots.record
          rw [hget]
          rfl
        constructor
        · intro k
          dsimp only
          rw [Dict.get?_set, Dict.get?_set, h.slots k]
        · intro k hin
          unfold Dict.has at hin
          dsimp only at hin
          rw [Dict.get?_set] at hin
          split at hin
          · next hk => exact h.known k (by rw [hk]; exact Option.isSome_iff_exists.mpr ⟨slot, hget⟩)
          · exact h.known k hin
        · intro k
          dsimp only
          rw [record_set]
          split
          · next hk =>
            subst hk
            have hold := h.only k
            rw [hrecord] at hold
            exact ⟨hold.1, hold.2, hold.3, hold.4, hold.5, hold.6, hold.7, hold.8, hold.9⟩
          · exact h.only k
    · exact h
  · exact h

/-- A state that withdraws no dismissed slot keeps the maps the same. -/
theorem state (h : Same layout both) (hlayout : layout.Nodup) {snapshot : Object}
    {leaves : List (Str × Value)} (hc : Complete layout snapshot leaves)
    (hkept : ¬ Withdraws both.2 (.state snapshot leaves)) :
    Same layout (syncPlatformMap both.1 snapshot, feed both.2 leaves) := by
  have hget := h.get?_state hlayout hc
  constructor
  · intro key
    obtain ⟨hsnapshot, hfeed⟩ := hget key
    dsimp only
    rw [hsnapshot, hfeed]
    split
    · -- The dismissals differ only where the slot is withdrawn.
      refine congrArg some (Slot.ext rfl rfl rfl rfl rfl rfl rfl rfl rfl rfl ?_)
      unfold Slot.merge Update.keepsDismissal
      dsimp only
      cases hslot : both.2.get? key with
      | none =>
        unfold Slots.record
        rw [hslot]
        rfl
      | some slot =>
        have hrecord : Slots.record both.2 key = slot := by
          unfold Slots.record
          rw [hslot]
          rfl
        rw [hrecord]
        cases hdismissed : slot.userDismissed with
        | false => rfl
        | true =>
          cases htime : (updateOf (unwrapped snapshot) key).keepsTime slot with
          | false => rfl
          | true =>
            cases hw : (updateOf (unwrapped snapshot) key).withdraws slot with
            | false => rfl
            | true => exact absurd ⟨key, slot, hslot, hdismissed, htime, hw⟩ hkept
    · rfl
  · intro key hin
    unfold Dict.has at hin
    dsimp only at hin
    rw [(hget key).2] at hin
    split at hin
    · next hnamed => exact hnamed
    · cases hin
  · intro key
    dsimp only
    unfold Slots.record
    rw [(hget key).2]
    split
    · refine (h.only key).merge fun field hfield => ?_
      by_contra hne
      exact hfield (hc.updateOf_ne_none.mp hne)
    · exact Slot.Only.blank _

/-- A state that withdraws a dismissed slot makes the maps differ on its dismissal. -/
theorem differ (h : Same layout both) (hlayout : layout.Nodup) {snapshot : Object}
    {leaves : List (Str × Value)} (hc : Complete layout snapshot leaves)
    (hw : Withdraws both.2 (.state snapshot leaves)) :
    ¬ Agree (syncPlatformMap both.1 snapshot, feed both.2 leaves) := by
  obtain ⟨key, slot, hslot, hdismissed, htime, hactive⟩ := hw
  intro hagree
  have hbits := hagree.dismissed key
  have hnamed := h.known key (Option.isSome_iff_exists.mpr ⟨slot, hslot⟩)
  have hrecord : Slots.record both.2 key = slot := by
    unfold Slots.record
    rw [hslot]
    rfl
  obtain ⟨hsnapshot, hfeed⟩ := h.get?_state hlayout hc key
  dsimp only at hbits hsnapshot
  rw [hsnapshot, hfeed, if_pos hnamed, if_pos hnamed, hrecord] at hbits
  unfold Slot.merge Update.keepsDismissal at hbits
  simp [hdismissed, htime, hactive] at hbits

end Same

/-! ## The dismissals that last -/

/-- What is known of a slot that is updated in place, after these polls. -/
structure Remembers (polls : List Poll) (slots : Slots) (key : SlotKey) : Prop where
  known : slots.has key = true ↔ ∃ poll ∈ polls, ∃ field, poll.update key field ≠ none
  time : (slots.record key).lastValidDateTime = lastTime key polls
  active : (slots.record key).active = lastActive key polls
  dismissed : (slots.record key).userDismissed = true ↔ Dismissed key polls

theorem histories_concat (polls : List Poll) (poll : Poll) :
    histories (polls ++ [poll]) = histories polls ++ [(polls, poll)] := by
  have hreplay : replay (fun before poll => before ++ [poll]) [] polls = polls :=
    replay_induction _ (I := fun es before => before = es) rfl
      (fun _ _ h => congrArg (· ++ [_]) h) polls
  unfold histories
  rw [trace_concat, hreplay]

theorem dismissed_concat {key : SlotKey} {polls : List Poll} {poll : Poll} :
    Dismissed key (polls ++ [poll]) ↔
      DismissesSlot key polls poll ∨ ¬ EndsEvent key polls poll ∧ Dismissed key polls := by
  unfold Dismissed
  rw [histories_concat, since_concat]

theorem lastTime_concat (key : SlotKey) (polls : List Poll) (poll : Poll) :
    lastTime key (polls ++ [poll]) =
      (((poll.update key .dateTime).bind eventDatetime).map some).getD (lastTime key polls) := by
  unfold lastTime
  rw [List.filterMap_append]
  cases h : (poll.update key .dateTime).bind eventDatetime with
  | none => simp [h]
  | some time => simp [h]

theorem lastActive_concat (key : SlotKey) (polls : List Poll) (poll : Poll) :
    lastActive key (polls ++ [poll]) =
      (poll.update key).read .active asBool (lastActive key polls) := by
  unfold lastActive Update.read
  rw [List.filterMap_append]
  cases h : poll.update key .active with
  | none => simp [h]
  | some value => simp [h]

namespace Remembers

variable {polls : List Poll} {slots : Slots} {key : SlotKey}

theorem empty (key : SlotKey) : Remembers [] Dict.empty key where
  known := by simp [Dict.has]
  time := rfl
  active := rfl
  dismissed := iff_of_false (by simp [Slots.record, Slot.blank]) not_since_nil

theorem dismiss (h : Remembers polls slots key) (nid : Str) :
    Remembers (polls ++ [.dismiss nid]) (slots.dismiss nid) key := by
  have hget := get?_dismiss slots nid key
  have hends : ¬ EndsEvent key polls (.dismiss nid) := by
    rintro (⟨hactive, -⟩ | ⟨time, htime, -⟩)
    · cases hactive
    · cases htime
  have hknown : (slots.dismiss nid).has key = slots.has key := by
    unfold Dict.has
    rw [hget]
    split
    · exact Option.isSome_map
    · rfl
  have hrecord : (slots.dismiss nid).record key = { slots.record key with
      userDismissed := (slots.record key).userDismissed ||
        ((isPlatformId nid && dismissedSlot nid = some key) && slots.has key) } := by
    unfold Slots.record Dict.has
    rw [hget]
    by_cases hnames : isPlatformId nid = true ∧ dismissedSlot nid = some key
    · rw [if_pos hnames]
      cases slots.get? key with
      | none => simp
      | some slot => simp [hnames.1, hnames.2]
    · have hno : (isPlatformId nid && decide (dismissedSlot nid = some key)) = false := by
        simpa using hnames
      rw [if_neg hnames, hno]
      simp
  constructor
  case known =>
    rw [hknown, h.known]
    simp [Poll.update]
  case time =>
    rw [hrecord, lastTime_concat]
    exact h.time
  case active =>
    rw [hrecord, lastActive_concat]
    exact h.active
  case dismissed =>
    rw [hrecord, dismissed_concat, ← h.dismissed]
    unfold DismissesSlot
    dsimp only
    rw [← h.known]
    simp [hends, and_assoc, or_comm]

theorem state (h : Remembers polls slots key) {layout : List (SlotKey × PlatformField)}
    (hlayout : layout.Nodup) {snapshot : Object} {leaves : List (Str × Value)}
    (hc : Complete layout snapshot leaves) :
    Remembers (polls ++ [.state snapshot leaves]) (feed slots leaves) key := by
  have hvalid : ∀ e ∈ leaves, LeafValid e := fun e he => hc.valid e (hc.order.mem_iff.mp he)
  have hnames : (leaves.map leafName).Nodup :=
    (hc.order.map leafName).nodup_iff.mpr (hc.nodup hlayout)
  have hupdate : updateOf leaves key = (Poll.state snapshot leaves).update key :=
    updateOf_perm hc.order hnames key
  have hrecord : (feed slots leaves).record key =
      (slots.record key).merge ((Poll.state snapshot leaves).update key) := by
    rw [record_feed hvalid hnames, hupdate]
  have hends : EndsEvent key polls (.state snapshot leaves) ↔
      ((Poll.state snapshot leaves).update key).keepsDismissal (slots.record key) = false := by
    unfold EndsEvent Update.keepsDismissal Update.keepsTime Update.withdraws
    rw [← h.time, ← h.active, Bool.and_eq_false_iff, or_comm]
    refine or_congr ?_ (by simp)
    cases ((Poll.state snapshot leaves).update key .dateTime).bind eventDatetime <;> simp
  constructor
  case known =>
    have hfields : ∀ field, some (key, field) ∈ leaves.map leafName ↔
        (Poll.state snapshot leaves).update key field ≠ none := by
      intro field
      rw [(hc.order.map leafName).mem_iff, hc.mem_names]
      exact hc.updateOf_ne_none.symm
    rw [has_feed hvalid, h.known]
    simp only [hfields, List.mem_append, List.mem_singleton, or_and_right, exists_or, exists_eq_left]
  case time =>
    rw [hrecord, lastTime_concat, ← h.time]
    rfl
  case active =>
    rw [hrecord, lastActive_concat, ← h.active]
    rfl
  case dismissed =>
    rw [hrecord, dismissed_concat, ← h.dismissed, hends]
    simp [Slot.merge, DismissesSlot, and_comm]

theorem sticky (h : ∀ key, Remembers polls slots key) : Sticky polls slots := by
  intro key
  rw [← (h key).dismissed]
  unfold Slots.record
  cases slots.get? key with
  | none => simp [Slot.blank]
  | some slot => simp

end Remembers

/-- The source that updates in place keeps the dismissals that last. -/
theorem sticky_mqtt {layout : List (SlotKey × PlatformField)} (hlayout : layout.Nodup)
    {polls : List Poll} (hcomplete : ∀ poll ∈ polls, poll.Complete layout) :
    Sticky polls (replay pollStep (Dict.empty, Dict.empty) polls).2 := by
  refine Remembers.sticky fun key => ?_
  induction polls using List.reverseRecOn with
  | nil => exact .empty key
  | append_singleton polls poll ih =>
    have hbefore := ih fun p hp => hcomplete p (List.mem_append_left _ hp)
    have hc := hcomplete poll (by simp)
    rw [replay_append]
    cases poll with
    | dismiss nid => exact hbefore.dismiss nid
    | state snapshot leaves => exact hbefore.state hlayout hc

/-- Sources that agree keep the same dismissals. -/
theorem Agree.sticky {both : Both} (h : Agree both) {polls : List Poll}
    (hmqtt : Sticky polls both.2) : Sticky polls both.1 := by
  intro key
  have hany : ∀ slots : Slots, (slots.get? key).any Slot.userDismissed =
      ((slots.get? key).map Slot.userDismissed).any id := by
    intro slots
    cases slots.get? key <;> rfl
  rw [← hmqtt key, hany, hany, h.dismissed key]

/-- In a run of complete states the maps are the same after every poll until a state withdraws a
    dismissed slot, and differ after that state. -/
theorem agree_trace_iff {layout : List (SlotKey × PlatformField)} (hlayout : layout.Nodup)
    {polls : List Poll} (hcomplete : ∀ poll ∈ polls, poll.Complete layout) {both : Both}
    (h : Same layout both) : (∀ x ∈ trace pollStep both polls, Agree (pollStep x.1 x.2)) ↔
      ∀ x ∈ trace pollStep both polls, ¬ Withdraws x.1.2 x.2 := by
  induction polls generalizing both with
  | nil => simp [trace]
  | cons poll polls ih =>
    have hc := hcomplete poll List.mem_cons_self
    have hrest := @ih fun p hp => hcomplete p (List.mem_cons_of_mem _ hp)
    unfold trace
    rw [List.forall_mem_cons, List.forall_mem_cons]
    cases poll with
    | dismiss nid =>
      have hsame := h.dismiss nid
      exact and_congr (iff_of_true hsame.agree id) (hrest hsame)
    | state snapshot leaves =>
      by_cases hw : Withdraws both.2 (.state snapshot leaves)
      · constructor
        · exact fun hall => absurd hall.1 (h.differ hlayout hc hw)
        · exact fun hall => absurd hw hall.1
      · have hsame := h.state hlayout hc hw
        exact and_congr (iff_of_true hsame.agree hw) (hrest hsame)

/-- **Transports.** Complete states over one layout, and dismissals between them, leave the same
    banners on both transports after each of them, and dismissals that last as long as their
    events, exactly when no state withdraws a dismissed slot. -/
theorem transports_agree_iff (layout : List (SlotKey × PlatformField)) (hlayout : layout.Nodup)
    (polls : List Poll) (hcomplete : ∀ poll ∈ polls, poll.Complete layout) :
    (∀ before, before <+: polls → InStep before) ↔
      ∀ x ∈ trace pollStep (Dict.empty, Dict.empty) polls, ¬ Withdraws x.1.2 x.2 := by
  have hstart : Same layout (Dict.empty, Dict.empty) := Same.empty
  rw [← agree_trace_iff hlayout hcomplete hstart,
    ← forall_prefix_iff pollStep (P := Agree) hstart.agree]
  refine forall₂_congr fun before hbefore => ⟨InStep.agree, fun hagree => ?_⟩
  have hmqtt := sticky_mqtt hlayout fun poll hpoll => hcomplete poll (hbefore.subset hpoll)
  exact ⟨hagree, hagree.sticky hmqtt, hmqtt⟩

/-! ## A warning that clears -/

def warningLayout : List (SlotKey × PlatformField) :=
  [((Str.lit "0", 1), .description), ((Str.lit "0", 1), .active)]

/-- A warning in slot 1, active or not. -/
def warningState (active : Bool) : Poll :=
  let snapshot : Object := Dict.ofList
    [(Str.lit "0/Notifications/1/Description", .str (Str.lit "Low battery")),
     (Str.lit "0/Notifications/1/Active", .dict [(Str.lit "value", .bool active)])]
  .state snapshot (unwrapped snapshot)

/-- The same active warning again after its dismissal. -/
def repolledWarning : List Poll :=
  [warningState true, .dismiss (Str.lit "victron-platform-0-1"), warningState true]

/-- The warning clears after its dismissal. -/
def clearedWarning : List Poll :=
  [warningState true, .dismiss (Str.lit "victron-platform-0-1"), warningState false]

theorem complete_warning (active : Bool) : (warningState active).Complete warningLayout where
  names := by cases active <;> decide +kernel
  valid := by cases active <;> decide +kernel
  order := List.Perm.refl _

/-- A warning that is active withdraws nothing. -/
theorem not_withdraws_warning (slots : Slots) : ¬ Withdraws slots (warningState true) := by
  rintro ⟨key, slot, -, -, -, hactive⟩
  unfold Update.withdraws at hactive
  rw [Bool.and_eq_true, decide_eq_true_eq] at hactive
  obtain ⟨value, hvalue, hfalse⟩ := Option.bind_eq_some_iff.mp hactive.1
  obtain ⟨e, he, rfl⟩ := Option.map_eq_some_iff.mp hvalue
  have hall : ∀ e ∈ unwrapped (Dict.ofList
      [(Str.lit "0/Notifications/1/Description", .str (Str.lit "Low battery")),
       (Str.lit "0/Notifications/1/Active", .dict [(Str.lit "value", .bool true)])]),
      asBool e.2 ≠ some false := by decide +kernel
  exact hall e (List.mem_of_find?_eq_some he) hfalse

/-- The dismissed warning stays away on both transports. -/
theorem transports_agree_repolled : InStep repolledWarning := by
  refine (transports_agree_iff warningLayout (by decide) repolledWarning ?_).mpr ?_ _ List.prefix_rfl
  · intro poll hpoll
    rcases List.mem_cons.mp hpoll with rfl | hpoll
    · exact complete_warning true
    rcases List.mem_cons.mp hpoll with rfl | hpoll
    · trivial
    rw [List.mem_singleton.mp hpoll]
    exact complete_warning true
  · intro x hx
    rcases List.mem_cons.mp hx with rfl | hx
    · exact not_withdraws_warning _
    rcases List.mem_cons.mp hx with rfl | hx
    · exact id
    rw [List.mem_singleton.mp hx]
    exact not_withdraws_warning _

/-- Over MQTT the cleared warning is back, through the gateway it stays dismissed. -/
theorem cleared_warning_differs : (∀ poll ∈ clearedWarning, poll.Complete warningLayout) ∧
    ¬ Agree (replay pollStep (Dict.empty, Dict.empty) clearedWarning) := by
  refine ⟨fun poll hpoll => ?_, fun h => ?_⟩
  · rcases List.mem_cons.mp hpoll with rfl | hpoll
    · exact complete_warning true
    rcases List.mem_cons.mp hpoll with rfl | hpoll
    · trivial
    rw [List.mem_singleton.mp hpoll]
    exact complete_warning false
  · exact absurd h.banners (by decide +kernel)

end InverterDashboard.Notifications
