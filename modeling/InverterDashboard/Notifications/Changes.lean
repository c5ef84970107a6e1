import InverterDashboard.Notifications.Banners
import InverterDashboard.Temporal.Trace

/-
  What an operation does to a board, said once: the tables it leaves, and the edits it makes to
  the list (`boardStep_eq`).

  The edits depend on the tables only. The limits of the program matter where an edit cuts the
  list or a dismissed id is forgotten; a run in which neither happens is the run without limits
  (`replay_program`).
-/

namespace InverterDashboard.Notifications

open Python Cerbo Bounded Temporal

abbrev BannerEdit := Edit Banner Str

variable (u : Unicode)

/-! ## Edits and tables -/

/-- The edits of a pushed notification. -/
def pushEdits (dismissed : List Str) (data : Value) : List BannerEdit :=
  match normalizeNotification u data with
  | some banner => if banner.id ∈ dismissed then [] else [.put banner]
  | none => []

/-- The alarm values after a report. -/
def reportValues (values : Dict Str Nat) (r : Board.AlarmReport) : Dict Str Nat :=
  if (values.get? r.topic).getD 0 = r.value then values else values.set r.topic r.value

/-- The edits of a report. -/
def reportEdits (dismissed : List Str) (values : Dict Str Nat) (r : Board.AlarmReport) :
    List BannerEdit :=
  if (values.get? r.topic).getD 0 = r.value then []
  else if r.value = 1 ∨ r.value = 2 then pushEdits u dismissed r.data
  else [.keep (· ≠ r.nid)]

/-- The edits of reports one after the other. -/
def reportsEdits (dismissed : List Str) : Dict Str Nat → List Board.AlarmReport → List BannerEdit
  | _, [] => []
  | values, r :: rs =>
    reportEdits u dismissed values r ++ reportsEdits dismissed (reportValues values r) rs

theorem reportsEdits_cons (dismissed : List Str) (values : Dict Str Nat) (r : Board.AlarmReport)
    (rs : List Board.AlarmReport) :
    reportsEdits u dismissed values (r :: rs) = reportEdits u dismissed values r ++
      reportsEdits u dismissed (reportValues values r) rs := rfl

/-- The edits that show slots. -/
def showEdits (slots : Slots) : List BannerEdit :=
  .keep (fun id => !isPlatformId id) :: (notificationsFromPlatformSlots slots).map .put

/-- The edits of a platform that reports these slots. -/
def platformEdits (active : Bool) (slots : Slots) : List BannerEdit :=
  (if active then [.keep fun id => !isRawId id] else []) ++ showEdits slots

/-- The topics a snapshot prunes. -/
def pruned (values : Dict Str Nat) (snapshot : Object) : List Str :=
  values.keys.filter fun topic => (Str.lit "igw/").isPrefixOf topic && !Board.present snapshot topic

/-- The alarm values a snapshot leaves. -/
def prunedValues (values : Dict Str Nat) (snapshot : Object) : Dict Str Nat :=
  (pruned values snapshot).foldl Dict.erase values

/-- The edits of the pruned topics. -/
def pruneEdits (topics : List Str) : List BannerEdit :=
  topics.flatMap fun topic => match Board.snapshotAlarm topic with
    | some parsed => [.keep (· ≠ Board.snapshotAlarmId parsed)]
    | none => []

theorem pruneEdits_cons (topic : Str) (topics : List Str) :
    pruneEdits (topic :: topics) = (match Board.snapshotAlarm topic with
      | some parsed => [.keep (· ≠ Board.snapshotAlarmId parsed)]
      | none => []) ++ pruneEdits topics := rfl

/-- What the alarm leaves of a snapshot report. -/
def snapshotReports (snapshot : Object) : List Board.AlarmReport :=
  (Board.alarmLeaves snapshot).filterMap fun leaf => Board.leafReport u leaf.1 leaf.2

/-- The alarm values after the reports of a snapshot. -/
def snapshotValues (values : Dict Str Nat) (snapshot : Object) : Dict Str Nat :=
  (snapshotReports u snapshot).foldl reportValues values

/-- The platform leaves of a snapshot, unless they are malformed. -/
def platformPart (snapshot : Object) : Option Object :=
  (((snapshot.get? (Str.lit "platform")).getD (.dict [])).dict?).map Dict.ofList

def slotsAfter (b : Board) : BoardOp → Slots
  | .platform topic body => match Board.platformLeaf topic body with
    | some leaf => applyPlatformField b.platformSlots leaf.1 leaf.2
    | none => b.platformSlots
  | .snapshot snapshot => match platformPart snapshot with
    | some leaves => syncPlatformMap b.platformSlots leaves
    | none => b.platformSlots
  | .dismiss nid _ => b.platformSlots.dismiss nid
  | .clear => Board.retainedSlots b.platformSlots
  | _ => b.platformSlots

/-- The operation accepts a leaf of the platform. -/
def accepts (b : Board) : BoardOp → Bool
  | .platform topic body => (Board.platformLeaf topic body).isSome
  | .snapshot snapshot => (platformPart snapshot).any fun leaves =>
    !(syncPlatformMap b.platformSlots leaves).isEmpty
  | _ => false

def seenAfter (b : Board) (op : BoardOp) : Bool :=
  match op with
  | .clear => false
  | op => b.platformSeen || accepts b op

def valuesAfter (b : Board) (op : BoardOp) : Dict Str Nat :=
  match op with
  | .alarm topic body =>
    if b.platformSeen then b.alarmValues
    else match Board.messageReport u topic body with
      | some r => reportValues b.alarmValues r
      | none => b.alarmValues
  | .snapshot snapshot =>
    if seenAfter b op then b.alarmValues
    else prunedValues (snapshotValues u b.alarmValues snapshot) snapshot
  | .clear => Dict.empty
  | _ => b.alarmValues

def dismissedAfter (limits : Limits) (b : Board) : BoardOp → List Str
  | .dismiss nid forgotten =>
    if nid.isEmpty || isPlatformId nid || nid ∈ b.dismissedIds then b.dismissedIds
    else limits.forget forgotten (b.dismissedIds ++ [nid])
  | _ => b.dismissedIds

/-- The edits of the alarm part of a snapshot. -/
def snapshotAlarmEdits (b : Board) (snapshot : Object) : List BannerEdit :=
  reportsEdits u b.dismissedIds b.alarmValues (snapshotReports u snapshot) ++
    pruneEdits (pruned (snapshotValues u b.alarmValues snapshot) snapshot)

/-- The edits an operation makes to the list. -/
def opEdits (b : Board) (op : BoardOp) : List BannerEdit :=
  match op with
  | .platform _ _ => if accepts b op then platformEdits true (slotsAfter b op) else []
  | .alarm topic body =>
    if b.platformSeen then []
    else match Board.messageReport u topic body with
      | some r => reportEdits u b.dismissedIds b.alarmValues r
      | none => []
  | .snapshot snapshot =>
    (if (platformPart snapshot).isSome then platformEdits (accepts b op) (slotsAfter b op) else []) ++
      if seenAfter b op then [] else snapshotAlarmEdits u b snapshot
  | .push data => pushEdits u b.dismissedIds data
  | .dismiss nid _ => if nid.isEmpty then [] else [.keep (· ≠ nid)]
  | .clear => [.keep fun id => !isRawId id && !isPlatformId id]

/-! ## Operations are edits -/

/-- The board with other tables and an edited list. -/
def Board.edited (limits : Limits) (b : Board) (es : List BannerEdit) : Board :=
  { b with notifications := edits Banner.id limits.cut b.notifications es }

section Edits

variable (limits : Limits) (b : Board)

theorem edited_append (es fs : List BannerEdit) :
    (b.edited limits es).edited limits fs = b.edited limits (es ++ fs) := by
  unfold Board.edited
  rw [edits_append]

theorem pushNotification_eq (data : Value) :
    b.pushNotification u limits data = b.edited limits (pushEdits u b.dismissedIds data) := by
  unfold Board.pushNotification pushEdits
  cases normalizeNotification u data with
  | none => rfl
  | some banner =>
    dsimp only
    split
    · rfl
    · rfl

theorem foldl_upsert (banners : List Banner) :
    banners.foldl (Board.upsert limits) b = b.edited limits (banners.map .put) := by
  induction banners generalizing b with
  | nil => rfl
  | cons banner banners ih =>
    rw [List.foldl_cons, ih]
    rfl

theorem showSlots_eq : b.showSlots limits = b.edited limits (showEdits b.platformSlots) := by
  unfold Board.showSlots
  rw [foldl_upsert]
  rfl

theorem activate_eq :
    b.activatePlatform = { b with platformSeen := true }.edited limits [.keep fun id => !isRawId id] :=
  rfl

theorem setAlarm_eq (r : Board.AlarmReport) :
    b.setAlarm u limits r = { b with alarmValues := reportValues b.alarmValues r }.edited limits
      (reportEdits u b.dismissedIds b.alarmValues r) := by
  unfold Board.setAlarm reportValues reportEdits
  split
  · rfl
  · dsimp only
    split
    · rw [pushNotification_eq]
    · rfl

theorem foldl_setAlarm (rs : List Board.AlarmReport) :
    rs.foldl (Board.setAlarm u limits) b =
      { b with alarmValues := rs.foldl reportValues b.alarmValues }.edited limits
        (reportsEdits u b.dismissedIds b.alarmValues rs) := by
  induction rs generalizing b with
  | nil => rfl
  | cons r rs ih =>
    rw [List.foldl_cons, ih, setAlarm_eq, reportsEdits_cons, ← edited_append]
    rfl

theorem foldl_prune (topics : List Str) :
    topics.foldl Board.pruneAlarm b =
      { b with alarmValues := topics.foldl Dict.erase b.alarmValues }.edited limits
        (pruneEdits topics) := by
  induction topics generalizing b with
  | nil => rfl
  | cons topic topics ih =>
    rw [List.foldl_cons, ih, pruneEdits_cons, ← edited_append]
    unfold Board.pruneAlarm
    cases Board.snapshotAlarm topic with
    | none => rfl
    | some parsed => rfl

theorem foldl_leaves (leaves : List (Str × (Str × Value))) :
    leaves.foldl (fun b leaf => b.syncAlarmLeaf u limits leaf.1 leaf.2) b =
      (leaves.filterMap fun leaf => Board.leafReport u leaf.1 leaf.2).foldl (Board.setAlarm u limits) b := by
  induction leaves generalizing b with
  | nil => rfl
  | cons leaf leaves ih =>
    rw [List.foldl_cons, ih, List.filterMap_cons]
    unfold Board.syncAlarmLeaf
    cases Board.leafReport u leaf.1 leaf.2 with
    | none => rfl
    | some r => rfl

/-- The alarm part of a snapshot. -/
theorem syncAlarms_eq (snapshot : Object) :
    b.syncAlarmsFromSnapshot u limits snapshot =
      if b.platformSeen then b
      else { b with alarmValues := prunedValues (snapshotValues u b.alarmValues snapshot) snapshot
        }.edited limits (snapshotAlarmEdits u b snapshot) := by
  unfold Board.syncAlarmsFromSnapshot
  split
  · rfl
  · rw [foldl_leaves, foldl_setAlarm]
    unfold Board.pruneSnapshotAlarms
    rw [foldl_prune limits]
    unfold snapshotAlarmEdits Board.edited
    rw [edits_append]
    rfl

/-- The platform part of a snapshot. -/
theorem syncPlatform_eq (value : Value) :
    b.syncPlatformFromSnapshot limits value =
      match value.dict?.map Dict.ofList with
      | some leaves =>
        let slots := syncPlatformMap b.platformSlots leaves
        { b with
          platformSlots := slots
          platformSeen := b.platformSeen || !slots.isEmpty }.edited limits
            (platformEdits (!slots.isEmpty) slots)
      | none => b := by
  cases value with
  | dict es =>
    show Board.syncPlatformFromSnapshot limits b (.dict es) = _
    unfold Board.syncPlatformFromSnapshot
    dsimp only [Value.dict?, Option.map_some]
    cases hempty : (syncPlatformMap b.platformSlots (Dict.ofList es)).isEmpty with
    | true =>
      rw [if_pos rfl, showSlots_eq]
      simp [platformEdits]
    | false =>
      rw [if_neg (by simp), activate_eq limits, showSlots_eq, edited_append]
      simp [platformEdits, Board.edited]
  | _ => rfl

end Edits

/-- **One step.** The tables that an operation leaves, and its edits to the list. -/
theorem boardStep_eq (limits : Limits) (b : Board) (op : BoardOp) :
    boardStep u limits b op =
      { notifications := edits Banner.id limits.cut b.notifications (opEdits u b op)
        alarmValues := valuesAfter u b op
        platformSlots := slotsAfter b op
        platformSeen := seenAfter b op
        dismissedIds := dismissedAfter limits b op } := by
  obtain ⟨list, values, slots, seen, dismissed⟩ := b
  cases op with
  | platform topic body =>
    show Board.handlePlatformNotification limits _ topic body = _
    unfold Board.handlePlatformNotification
    cases hleaf : Board.platformLeaf topic body with
    | none => simp [opEdits, valuesAfter, slotsAfter, seenAfter, accepts, dismissedAfter, hleaf]
    | some leaf =>
      dsimp only
      rw [activate_eq limits, showSlots_eq]
      simp [Board.edited, platformEdits, opEdits, valuesAfter, slotsAfter, seenAfter, accepts,
        dismissedAfter, hleaf, edits_cons]
  | alarm topic body =>
    show (if seen = true then _ else Board.handleAlarm u limits _ topic body) = _
    unfold Board.handleAlarm
    cases seen with
    | true => simp [opEdits, valuesAfter, slotsAfter, seenAfter, accepts, dismissedAfter]
    | false =>
      cases hreport : Board.messageReport u topic body with
      | none =>
        simp [opEdits, valuesAfter, slotsAfter, seenAfter, accepts, dismissedAfter, hreport]
      | some r =>
        rw [if_neg (by simp)]
        dsimp only
        rw [setAlarm_eq]
        simp [Board.edited, opEdits, valuesAfter, slotsAfter, seenAfter, accepts, dismissedAfter,
          hreport]
  | snapshot snapshot =>
    show Board.applySnapshot u limits _ snapshot = _
    unfold Board.applySnapshot
    rw [syncAlarms_eq, syncPlatform_eq]
    have hpart : (((snapshot.get? (Str.lit "platform")).getD (.dict [])).dict?).map Dict.ofList =
      platformPart snapshot := rfl
    rw [hpart]
    cases hleaves : platformPart snapshot with
    | none =>
      cases seen with
      | true =>
        simp [opEdits, valuesAfter, slotsAfter, seenAfter, accepts, dismissedAfter, hleaves]
      | false =>
        simp [Board.edited, opEdits, valuesAfter, slotsAfter, seenAfter, accepts, dismissedAfter,
          hleaves]
    | some leaves =>
      cases hseen : seen || !(syncPlatformMap slots leaves).isEmpty with
      | true =>
        simp [Board.edited, opEdits, valuesAfter, slotsAfter, seenAfter, accepts, dismissedAfter,
          hseen, hleaves]
      | false =>
        simp [Board.edited, opEdits, valuesAfter, slotsAfter, seenAfter, accepts, dismissedAfter,
          hseen, hleaves, snapshotAlarmEdits, edits_append]
  | push data =>
    show Board.pushNotification u limits _ data = _
    rw [pushNotification_eq]
    simp [Board.edited, opEdits, valuesAfter, slotsAfter, seenAfter, accepts, dismissedAfter]
  | dismiss nid forgotten =>
    show Board.dismiss limits _ nid forgotten = _
    unfold Board.dismiss
    cases hempty : nid.isEmpty with
    | true =>
      have hslots : slots.dismiss nid = slots := by
        rw [List.isEmpty_iff.mp hempty]
        rfl
      simp [opEdits, valuesAfter, slotsAfter, seenAfter, accepts, dismissedAfter, hempty, hslots]
    | false =>
      cases hplatform : isPlatformId nid with
      | true =>
        simp [Board.removeId, Board.keep, opEdits, valuesAfter, slotsAfter, seenAfter, accepts,
          dismissedAfter, hempty, hplatform, edits_cons, edit]
      | false =>
        have hslots : slots.dismiss nid = slots := if_neg (by rw [← isPlatformId, hplatform]; simp)
        by_cases hmem : nid ∈ dismissed
        · simp [Board.removeId, Board.keep, Board.dismissId, opEdits, valuesAfter, slotsAfter,
            seenAfter, accepts, dismissedAfter, hempty, hplatform, hslots, hmem, edits_cons, edit]
        · simp [Board.removeId, Board.keep, Board.dismissId, opEdits, valuesAfter, slotsAfter,
            seenAfter, accepts, dismissedAfter, hempty, hplatform, hslots, hmem, edits_cons, edit]
  | clear => rfl

/-! ## Runs within the limits -/

/-- A step at which nothing has to be cut or forgotten: the list without limits never has more than
    `NOTIFICATIONS_MAX` banners, also between the edits, and no more than `dismissedMax` ids are
    dismissed. -/
structure Roomy (b : Board) (op : BoardOp) : Prop where
  banners : Fits Banner.id notificationsMax b.notifications (opEdits u b op)
  dismissed : (boardStep u .none b op).dismissedIds.length ≤ dismissedMax

/-- Every step of the run without limits. -/
def Within (b : Board) (ops : List BoardOp) : Prop :=
  ∀ x ∈ trace (boardStep u .none) b ops, Roomy u x.1 x.2

variable {u}

theorem Within.append {b : Board} {ops ops' : List BoardOp} (h : Within u b (ops ++ ops')) :
    Within u b ops ∧ Within u (replay (boardStep u .none) b ops) ops' := by
  unfold Within at h ⊢
  rw [trace_append] at h
  exact ⟨fun x hx => h x (List.mem_append_left _ hx), fun x hx => h x (List.mem_append_right _ hx)⟩

/-- A few banners and a few edits are within the limits. -/
theorem within_of_few {b : Board} {ops : List BoardOp}
    (h : ∀ x ∈ trace (boardStep u .none) b ops,
      x.1.notifications.length + (opEdits u x.1 x.2).length ≤ notificationsMax ∧
        (boardStep u .none x.1 x.2).dismissedIds.length ≤ dismissedMax) : Within u b ops :=
  fun x hx => ⟨fits_of_few (h x hx).1, (h x hx).2⟩

theorem dismissed_none (b : Board) (op : BoardOp) :
    (boardStep u .none b op).dismissedIds = dismissedAfter .none b op := by
  rw [boardStep_eq]

theorem boardStep_program {b : Board} {op : BoardOp} (h : Roomy u b op) :
    boardStep u .program b op = boardStep u .none b op := by
  have hlist : edits Banner.id Limits.program.cut b.notifications (opEdits u b op) =
      edits Banner.id Limits.none.cut b.notifications (opEdits u b op) := edits_newest h.banners
  have hdismissed : dismissedAfter .program b op = dismissedAfter .none b op := by
    have hroom := h.dismissed
    rw [dismissed_none] at hroom
    cases op with
    | dismiss nid forgotten =>
      unfold dismissedAfter at hroom ⊢
      dsimp only at hroom ⊢
      split
      · rfl
      · next hnew =>
        rw [if_neg hnew] at hroom
        exact if_neg (Nat.not_lt.mpr hroom)
    | _ => rfl
  rw [boardStep_eq, boardStep_eq, hlist, hdismissed]

/-- Within the limits the program does what it would do without them. -/
theorem replay_program {b : Board} {ops : List BoardOp} (h : Within u b ops) :
    replay (boardStep u .program) b ops = replay (boardStep u .none) b ops :=
  (run_congr fun x hx => boardStep_program (h x hx)).1

/-! ## Few live banners -/

/-- No more banners than the list holds, and no more dismissed ids. -/
structure Board.Few (b : Board) : Prop where
  banners : b.notifications.length ≤ notificationsMax
  dismissed : b.dismissedIds.length ≤ dismissedMax

instance (b : Board) : Decidable b.Few :=
  decidable_of_iff (b.notifications.length ≤ notificationsMax ∧ b.dismissedIds.length ≤ dismissedMax)
    ⟨fun h => ⟨h.1, h.2⟩, fun h => ⟨h.1, h.2⟩⟩

variable (u) in
/-- Few banners are live after every step: this is the run without limits. -/
def FewLive (ops : List BoardOp) : Prop :=
  ∀ x ∈ trace (boardStep u .none) Board.init ops, (boardStep u .none x.1 x.2).Few

instance (ops : List BoardOp) : Decidable (FewLive u ops) :=
  inferInstanceAs (Decidable (∀ x ∈ trace (boardStep u .none) Board.init ops,
    (boardStep u .none x.1 x.2).Few))

variable (u) in
/-- The alarms of a snapshot fit also between its leaves. The new ones are listed before those that
    are gone are taken away. -/
def LeavesFit (b : Board) : BoardOp → Prop
  | .snapshot snapshot => seenAfter b (.snapshot snapshot) = false →
      Fits Banner.id notificationsMax b.notifications (opEdits u b (.snapshot snapshot))
  | _ => True

theorem leavesFit_of_few {b : Board} {op : BoardOp}
    (h : b.notifications.length + (opEdits u b op).length ≤ notificationsMax) :
    LeavesFit u b op := by
  cases op with
  | snapshot snapshot => exact fun _ => fits_of_few h
  | _ => trivial

theorem fits_platform {l : List Banner} {active : Bool} {slots : Slots}
    (h : l.length ≤ notificationsMax)
    (h' : (edits Banner.id uncut l (platformEdits active slots)).length ≤ notificationsMax) :
    Fits Banner.id notificationsMax l (platformEdits active slots) := by
  obtain ⟨ps, hps⟩ : ∃ ps : List (Str → Bool), platformEdits active slots =
      ps.map .keep ++ (notificationsFromPlatformSlots slots).map .put := by
    unfold platformEdits showEdits
    cases active with
    | false => exact ⟨[_], rfl⟩
    | true => exact ⟨[_, _], rfl⟩
  rw [hps] at h' ⊢
  rw [edits_append] at h'
  exact (fits_keeps h ps).append (fits_puts h')

theorem length_pushEdits (dismissed : List Str) (data : Value) :
    (pushEdits u dismissed data).length ≤ 1 := by
  unfold pushEdits
  split
  · split <;> simp
  · simp

theorem length_reportEdits (dismissed : List Str) (values : Dict Str Nat) (r : Board.AlarmReport) :
    (reportEdits u dismissed values r).length ≤ 1 := by
  unfold reportEdits
  split
  · simp
  · split
    · exact length_pushEdits _ _
    · simp

/-- Only a snapshot of alarms can overflow between its edits. -/
theorem roomy_of_few {b : Board} {op : BoardOp} (h : b.Few) (h' : (boardStep u .none b op).Few)
    (hfit : LeavesFit u b op) : Roomy u b op := by
  refine ⟨?_, h'.dismissed⟩
  have hbefore := h.banners
  have hafter : (edits Banner.id uncut b.notifications (opEdits u b op)).length ≤ notificationsMax := by
    have := h'.banners
    rw [boardStep_eq] at this
    exact this
  cases op with
  | platform topic body =>
    unfold opEdits at hafter ⊢
    dsimp only at hafter ⊢
    split
    · next haccepts =>
      rw [if_pos haccepts] at hafter
      exact fits_platform hbefore hafter
    · exact fits_one (by simp) hbefore hbefore
  | alarm topic body =>
    refine fits_one ?_ hbefore hafter
    unfold opEdits
    dsimp only
    split
    · simp
    · split
      · exact length_reportEdits _ _ _
      · simp
  | snapshot snapshot =>
    cases hseen : seenAfter b (.snapshot snapshot) with
    | false => exact hfit hseen
    | true =>
      have hedits : opEdits u b (.snapshot snapshot) = if (platformPart snapshot).isSome then
          platformEdits (accepts b (.snapshot snapshot)) (slotsAfter b (.snapshot snapshot))
          else [] := by
        unfold opEdits
        dsimp only
        rw [hseen, if_pos rfl, List.append_nil]
      rw [hedits] at hafter ⊢
      split
      · next hpart =>
        rw [if_pos hpart] at hafter
        exact fits_platform hbefore hafter
      · exact fits_one (by simp) hbefore hbefore
  | push data => exact fits_one (length_pushEdits _ _) hbefore hafter
  | dismiss nid forgotten =>
    refine fits_one ?_ hbefore hafter
    unfold opEdits
    dsimp only
    split
    · simp
    · simp
  | clear => exact fits_one (by simp [opEdits]) hbefore hafter

/-- Few live banners, and snapshots whose alarms fit, keep a run within the limits. -/
theorem within_of_fewLive {ops : List BoardOp} (hfew : FewLive u ops)
    (hfit : ∀ x ∈ trace (boardStep u .program) Board.init ops, LeavesFit u x.1 x.2) :
    Within u Board.init ops := by
  have hrun : ∀ b : Board, b.Few →
      (∀ x ∈ trace (boardStep u .none) b ops, (boardStep u .none x.1 x.2).Few) →
      (∀ x ∈ trace (boardStep u .program) b ops, LeavesFit u x.1 x.2) → Within u b ops := by
    clear hfew hfit
    induction ops with
    | nil => exact fun b _ _ _ x hx => nomatch hx
    | cons op ops ih =>
      intro b hb hfew hfit
      unfold trace at hfew hfit
      rw [List.forall_mem_cons] at hfew hfit
      have hroomy : Roomy u b op := roomy_of_few hb hfew.1 hfit.1
      have hrest := hfit.2
      rw [boardStep_program hroomy] at hrest
      intro x hx
      rcases List.mem_cons.mp hx with rfl | hx
      · exact hroomy
      · exact ih _ hfew.1 hfew.2 hrest x hx
  exact hrun Board.init ⟨Nat.zero_le _, Nat.zero_le _⟩ hfew hfit

end InverterDashboard.Notifications
