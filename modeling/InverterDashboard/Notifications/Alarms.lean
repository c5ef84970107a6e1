import InverterDashboard.Notifications.Rendering

/-
  Raw alarms and their banners.

  A view of the messages alone says which alarms are raised: the last accepted value of every topic
  (`View`). The table of the program refines it, and the banner of an alarm follows the table
  (`AlarmShown`), as long as no two alarms share an id and no id changes when it is stripped
  (`PlainAlarm`).
-/

namespace InverterDashboard.Notifications

open Python Cerbo Bounded

/-! ## Alarms -/

/-- An alarm with its topic and the id of its banner. A service instance has no dash, as a numeric
    one has none, and no alarm name ends in a blank. -/
inductive PlainAlarm : Str → Str → Prop where
  | message (rest : Str) (hstrip : rest.rstrip = rest) :
      PlainAlarm (Str.lit "N/" ++ rest) (Board.alarmId (Str.lit "N/" ++ rest))
  | snapshot (bucket key : Str) (parsed : Str × Str) (hbucket : bucket ∈ Board.alarmBuckets)
      (hparsed : Board.parseAlarmLeafKey bucket key = some parsed) (hdash : dash ∉ parsed.1)
      (hstrip : parsed.2.rstrip = parsed.2) :
      PlainAlarm (Board.snapshotTopic bucket key) (Board.snapshotAlarmId parsed)

theorem rstrip_append {s t : Str} (h : t.rstrip = t) (hne : t ≠ []) : (s ++ t).rstrip = s ++ t := by
  have hback : t.reverse.dropWhile isspace = t.reverse := by
    unfold Str.rstrip at h
    rw [← List.reverse_inj, List.reverse_reverse, h]
  unfold Str.rstrip
  rw [List.reverse_append, List.dropWhile_append, hback, List.isEmpty_eq_false_iff.mpr (by simpa),
    if_neg (by simp)]
  simp

/-- What a key of an alarm leaf is made of. -/
theorem parseAlarmLeafKey_eq {bucket key : Str} {parsed : Str × Str}
    (h : Board.parseAlarmLeafKey bucket key = some parsed) :
    ∃ inst, parsed.1 = bucket ++ [underscore] ++ inst ∧ parsed.2 ≠ [] ∧
      key = inst ++ [slash] ++ Str.lit "Alarms" ++ [slash] ++ parsed.2 := by
  unfold Board.parseAlarmLeafKey at h
  split at h
  · next inst mark name rest hsplit =>
    dsimp only at h
    split at h
    · cases h
    · next hguard =>
      obtain rfl := Option.some.inj h
      rw [not_or, not_or, not_not] at hguard
      obtain ⟨rfl, -, hname⟩ := hguard
      refine ⟨inst, rfl, by simpa using hname, ?_⟩
      have hjoin : Str.joinSlash key.splitSlash = key := List.intercalate_splitOn slash
      rw [hsplit] at hjoin
      rw [← hjoin]
      simp [Str.joinSlash]
  · cases h

theorem slash_notMem_bucket {bucket : Str} (h : bucket ∈ Board.alarmBuckets) : slash ∉ bucket := by
  rcases List.mem_pair.mp h with rfl | rfl <;> decide

/-- The topic of a leaf names the alarm of the leaf. -/
theorem snapshotAlarm_topic {bucket : Str} (h : bucket ∈ Board.alarmBuckets) (key : Str) :
    Board.snapshotAlarm (Board.snapshotTopic bucket key) = Board.parseAlarmLeafKey bucket key := by
  have hsplit : (Board.snapshotTopic bucket key).splitSlash =
      Str.lit "igw" :: bucket :: key.splitSlash := by
    have htopic : Board.snapshotTopic bucket key = Str.lit "igw" ++ slash :: (bucket ++ slash :: key) := by
      unfold Board.snapshotTopic
      simp [Str.lit, slash]
    unfold Str.splitSlash
    rw [htopic, List.splitOn_append_cons_self_of_not_mem (by decide) _,
      List.splitOn_append_cons_self_of_not_mem (slash_notMem_bucket h) _]
  have hjoin : Str.joinSlash key.splitSlash = key := List.intercalate_splitOn slash
  have hmax : (Board.snapshotTopic bucket key).splitSlashMax 2 = [Str.lit "igw", bucket, key] := by
    unfold Str.splitSlashMax
    dsimp only
    rw [hsplit]
    split
    · next hlen =>
      cases hk : key.splitSlash with
      | nil => exact absurd hk (by simp [Str.splitSlash])
      | cons part parts =>
        cases parts with
        | nil =>
          rw [hk] at hjoin
          have hpart : part = key := by simpa [Str.joinSlash] using hjoin
          rw [hpart]
        | cons part' parts =>
          rw [hk] at hlen
          simp only [List.length_cons] at hlen
          omega
    · simp [hjoin]
  unfold Board.snapshotAlarm
  rw [hmax]

theorem bucket_inj {a b s t : Str} (ha : a ∈ Board.alarmBuckets) (hb : b ∈ Board.alarmBuckets)
    (h : a ++ [underscore] ++ s = b ++ [underscore] ++ t) : a = b ∧ s = t := by
  rcases List.mem_pair.mp ha with rfl | rfl <;> rcases List.mem_pair.mp hb with rfl | rfl
  · exact ⟨rfl, List.append_cancel_left h⟩
  · have hhead : CodePoint.ofChar 'b' = CodePoint.ofChar 'v' := (List.cons.inj h).1
    exact absurd hhead (by decide)
  · have hhead : CodePoint.ofChar 'v' = CodePoint.ofChar 'b' := (List.cons.inj h).1
    exact absurd hhead (by decide)
  · exact ⟨rfl, List.append_cancel_left h⟩

/-- Messages and snapshots share neither topics nor ids. -/
theorem message_ne_snapshot (rest bucket key : Str) (parsed : Str × Str) :
    Str.lit "N/" ++ rest ≠ Board.snapshotTopic bucket key ∧
      Board.alarmId (Str.lit "N/" ++ rest) ≠ Board.snapshotAlarmId parsed := by
  refine ⟨fun heq => ?_, fun heq => ?_⟩
  · have hhead : CodePoint.ofChar 'N' = CodePoint.ofChar 'i' := (List.cons.inj heq).1
    exact absurd hhead (by decide)
  · have hmark : some (CodePoint.ofChar 'N') = some (CodePoint.ofChar 'a') :=
      congrArg (fun s : Str => s[8]?) heq
    exact absurd hmark (by decide)

/-- Alarms are told apart by their ids. -/
theorem PlainAlarm.inj {topic topic' nid nid' : Str} (h : PlainAlarm topic nid)
    (h' : PlainAlarm topic' nid') : topic = topic' ↔ nid = nid' := by
  cases h with
  | message rest hstrip =>
    cases h' with
    | message rest' hstrip' =>
      unfold Board.alarmId
      simp
    | snapshot bucket key parsed hbucket hparsed hdash hstrip' =>
      have hne := message_ne_snapshot rest bucket key parsed
      exact ⟨fun heq => absurd heq hne.1, fun heq => absurd heq hne.2⟩
  | snapshot bucket key parsed hbucket hparsed hdash hstrip =>
    cases h' with
    | message rest' hstrip' =>
      have hne := message_ne_snapshot rest' bucket key parsed
      exact ⟨fun heq => absurd heq.symm hne.1, fun heq => absurd heq.symm hne.2⟩
    | snapshot bucket' key' parsed' hbucket' hparsed' hdash' hstrip' =>
      constructor
      · intro heq
        have hsame := snapshotAlarm_topic hbucket key
        rw [heq, snapshotAlarm_topic hbucket' key', hparsed, hparsed'] at hsame
        rw [Option.some.inj hsame]
      · intro heq
        unfold Board.snapshotAlarmId at heq
        rw [List.append_assoc, List.append_assoc, List.append_assoc, List.append_assoc] at heq
        have htail := List.append_cancel_left heq
        rw [← List.append_assoc, ← List.append_assoc] at htail
        obtain ⟨hservice, halarm⟩ := append_dash_inj hdash hdash' htail
        obtain ⟨inst, hinst, -, rfl⟩ := parseAlarmLeafKey_eq hparsed
        obtain ⟨inst', hinst', -, rfl⟩ := parseAlarmLeafKey_eq hparsed'
        rw [hinst, hinst'] at hservice
        obtain ⟨rfl, rfl⟩ := bucket_inj hbucket hbucket' hservice
        rw [halarm]

theorem PlainAlarm.front {topic nid : Str} (h : PlainAlarm topic nid) :
    ∃ front ∈ rawFronts, ∃ rest, nid = front ++ rest := by
  cases h with
  | message rest hstrip => exact ⟨Str.lit "victron-N/", List.mem_cons_self, rest, rfl⟩
  | snapshot bucket key parsed hbucket hparsed hdash hstrip => exact snapshotAlarmId_front parsed

theorem PlainAlarm.raw {topic nid : Str} (h : PlainAlarm topic nid) : isRawId nid = true := by
  obtain ⟨front, hfront, rest, rfl⟩ := h.front
  exact isRawId_front hfront rest

/-- The id of an alarm is the id of its banner. -/
theorem PlainAlarm.strip {topic nid : Str} (h : PlainAlarm topic nid) : nid.strip = nid := by
  cases h with
  | message rest hstrip =>
    show Str.strip (Str.lit "victron-N/" ++ rest) = _
    rw [strip_front List.mem_cons_self, hstrip]
    rfl
  | snapshot bucket key parsed hbucket hparsed hdash hstrip =>
    obtain ⟨inst, -, hne, -⟩ := parseAlarmLeafKey_eq hparsed
    have hfront : Str.lit "victron-alarm-" ∈ rawFronts := by simp [rawFronts]
    unfold Board.snapshotAlarmId
    rw [List.append_assoc, List.append_assoc,
      strip_front hfront,
      ← List.append_assoc parsed.1, rstrip_append hstrip hne]

/-! ## The view of the messages -/

/-- Whether the platform has reported in this session, and the last accepted value of every alarm
    topic. -/
structure View where
  seen : Bool
  value : Str → Nat

def View.init : View := ⟨false, fun _ => 0⟩

def View.report (v : View) (r : Board.AlarmReport) : View :=
  { v with value := fun topic => if topic = r.topic then r.value else v.value topic }

/-- A snapshot is complete: alarms it does not vouch for are over. -/
def View.prune (v : View) (snapshot : Object) : View :=
  { v with value := fun topic =>
      if (Str.lit "igw/").isPrefixOf topic && !Board.present snapshot topic then 0
      else v.value topic }

/-- A valid leaf of the platform is in the operation. -/
def acceptsLeaf : BoardOp → Bool
  | .platform topic body => (Board.platformLeaf topic body).isSome
  | .snapshot snapshot => (platformPart snapshot).any fun leaves =>
    leaves.entries.any fun e => LeafValid (e.1, unwrap e.2)
  | _ => false

variable (u : Unicode)

def viewStep (v : View) (op : BoardOp) : View :=
  match op with
  | .alarm topic body =>
    if v.seen then v
    else match Board.messageReport u topic body with
      | some r => v.report r
      | none => v
  | .snapshot snapshot =>
    let v := { v with seen := v.seen || acceptsLeaf op }
    if v.seen then v else ((snapshotReports u snapshot).foldl View.report v).prune snapshot
  | .clear => View.init
  | op => { v with seen := v.seen || acceptsLeaf op }

/-- The tables of the program hold the view. -/
structure Refines (b : Board) (v : View) : Prop where
  seen : b.platformSeen = v.seen
  value : ∀ topic, (b.alarmValues.get? topic).getD 0 = v.value topic

section View

theorem rebuild_isEmpty (leaves : Object) :
    (rebuild leaves).isEmpty = !(leaves.entries.any fun e => LeafValid (e.1, unwrap e.2)) := by
  have hfold : ∀ (es : List (Str × Value)) (slots : Slots),
      Dict.isEmpty (es.foldl (fun slots e => applyPlatformField slots e.1 (unwrap e.2)) slots) =
        (slots.isEmpty && !(es.any fun e => LeafValid (e.1, unwrap e.2))) := by
    intro es
    induction es with
    | nil => intro slots; simp
    | cons e es ih =>
      intro slots
      rw [List.foldl_cons, ih, List.any_cons]
      by_cases hvalid : LeafValid (e.1, unwrap e.2)
      · obtain ⟨key, field, hname, hv⟩ := hvalid.named
        have happly : applyPlatformField slots e.1 (unwrap e.2) =
            Dict.set slots key ((slots.record key).put field (unwrap e.2)) := apply_valid hname hv
        rw [happly, Dict.isEmpty_set]
        simp [hvalid]
      · have hsame : applyPlatformField slots e.1 (unwrap e.2) = slots := by
          unfold LeafValid leafName at hvalid
          unfold applyPlatformField
          cases hparse : parsePlatformLeafKey e.1 with
          | none => rfl
          | some name =>
            rw [hparse] at hvalid
            exact if_neg hvalid
        rw [hsame]
        simp [hvalid]
  exact (hfold leaves.entries Dict.empty).trans (Bool.true_and _)

theorem accepts_eq (b : Board) (op : BoardOp) : accepts b op = acceptsLeaf op := by
  cases op with
  | snapshot snapshot =>
    show ((platformPart snapshot).any fun leaves =>
      !(syncPlatformMap b.platformSlots leaves).isEmpty) = _
    have hempty : ∀ leaves, (syncPlatformMap b.platformSlots leaves).isEmpty =
        (rebuild leaves).isEmpty := by
      intro leaves
      unfold syncPlatformMap Dict.isEmpty Dict.mapValues
      simp
    unfold acceptsLeaf
    congr 1
    funext leaves
    rw [hempty, rebuild_isEmpty, Bool.not_not]
  | _ => rfl

theorem get_reportValues (values : Dict Str Nat) (r : Board.AlarmReport) (topic : Str) :
    ((reportValues values r).get? topic).getD 0 =
      if topic = r.topic then r.value else (values.get? topic).getD 0 := by
  unfold reportValues
  split
  · next hsame =>
    split
    · next htopic => rw [htopic, hsame]
    · rfl
  · rw [Dict.get?_set]
    split
    · rfl
    · rfl

theorem get_foldl_report {values : Dict Str Nat} {v : View}
    (h : ∀ topic, (values.get? topic).getD 0 = v.value topic) (rs : List Board.AlarmReport)
    (topic : Str) :
    ((rs.foldl reportValues values).get? topic).getD 0 = (rs.foldl View.report v).value topic := by
  induction rs generalizing values v with
  | nil => exact h topic
  | cons r rs ih =>
    refine ih fun t => ?_
    rw [get_reportValues, h t]
    rfl

theorem get_foldl_erase (topics : List Str) (values : Dict Str Nat) (topic : Str) :
    (topics.foldl Dict.erase values).get? topic =
      if topic ∈ topics then none else values.get? topic := by
  induction topics generalizing values with
  | nil => rfl
  | cons t topics ih =>
    rw [List.foldl_cons, ih, Dict.get?_erase]
    by_cases ht : topic = t
    · simp [ht]
    · simp [ht]

theorem get_prunedValues (values : Dict Str Nat) (snapshot : Object) (topic : Str) :
    ((prunedValues values snapshot).get? topic).getD 0 =
      if (Str.lit "igw/").isPrefixOf topic && !Board.present snapshot topic then 0
      else (values.get? topic).getD 0 := by
  unfold prunedValues
  rw [get_foldl_erase]
  have hmem : topic ∈ pruned values snapshot ↔ (values.get? topic).isSome = true ∧
      ((Str.lit "igw/").isPrefixOf topic && !Board.present snapshot topic) = true := by
    unfold pruned
    rw [List.mem_filter, Dict.mem_keys]
  by_cases hover : ((Str.lit "igw/").isPrefixOf topic && !Board.present snapshot topic) = true
  · rw [if_pos hover]
    by_cases hsome : (values.get? topic).isSome = true
    · rw [if_pos (hmem.mpr ⟨hsome, hover⟩)]
      rfl
    · rw [if_neg fun h => hsome (hmem.mp h).1, Option.not_isSome_iff_eq_none.mp hsome]
      rfl
  · rw [if_neg hover, if_neg fun h => hover (hmem.mp h).2]

variable {u}

/-- **The tables refine the view.** -/
theorem refines_step {b : Board} {v : View} (h : Refines b v) (limits : Limits) (op : BoardOp) :
    Refines (boardStep u limits b op) (viewStep u v op) := by
  rw [boardStep_eq]
  cases op with
  | platform topic body =>
    refine ⟨?_, h.value⟩
    show (b.platformSeen || accepts b _) = (v.seen || acceptsLeaf _)
    rw [h.seen, accepts_eq]
  | alarm topic body =>
    unfold viewStep valuesAfter seenAfter
    dsimp only
    rw [h.seen]
    cases hseen : v.seen with
    | true => exact ⟨hseen.symm, h.value⟩
    | false =>
      cases Board.messageReport u topic body with
      | none => exact ⟨hseen.symm, h.value⟩
      | some r =>
        refine ⟨hseen.symm, fun t => ?_⟩
        show ((reportValues b.alarmValues r).get? t).getD 0 = _
        rw [get_reportValues, h.value]
        rfl
  | snapshot snapshot =>
    have hafter : seenAfter b (.snapshot snapshot) = (v.seen || acceptsLeaf (.snapshot snapshot)) := by
      show (b.platformSeen || accepts b _) = _
      rw [h.seen, accepts_eq]
    unfold viewStep valuesAfter
    dsimp only
    rw [hafter]
    cases hseen : v.seen || acceptsLeaf (.snapshot snapshot) with
    | true => exact ⟨rfl, h.value⟩
    | false =>
      have hkeeps : ∀ (rs : List Board.AlarmReport) (v : View),
          (rs.foldl View.report v).seen = v.seen := by
        intro rs
        induction rs with
        | nil => exact fun _ => rfl
        | cons r rs ih => exact fun v => ih _
      refine ⟨(hkeeps _ ⟨false, v.value⟩).symm, fun t => ?_⟩
      show ((prunedValues _ snapshot).get? t).getD 0 = _
      rw [get_prunedValues]
      unfold snapshotValues View.prune
      rw [get_foldl_report (v := { v with seen := false }) h.value]
      rfl
  | push data => exact ⟨congrArg (· || false) h.seen, h.value⟩
  | dismiss nid forgotten => exact ⟨congrArg (· || false) h.seen, h.value⟩
  | clear => exact ⟨rfl, fun _ => rfl⟩

end View

/-! ## Banners -/

/-- The level of an alarm that is raised. -/
def alarmLevel (value : Nat) : Option Level :=
  if value = 2 then some .alarm else if value = 1 then some .warning else none

/-- The alarm has its banner, unless its id is dismissed. -/
def AlarmShown (l : List Banner) (values : Dict Str Nat) (dismissed : List Str) (topic nid : Str) :
    Prop :=
  (lookup Banner.id nid l).map Banner.level =
    if nid ∈ dismissed then none else alarmLevel ((values.get? topic).getD 0)

/-- The alarm messages and the alarms of the snapshots are told apart. -/
def PlainAlarms : BoardOp → Prop
  | .alarm topic _ => (Str.lit "N/").isPrefixOf topic = true ∧ topic.rstrip = topic
  | .snapshot snapshot => ∀ leaf ∈ Board.alarmLeaves snapshot,
      (Board.parseAlarmLeafKey leaf.1 leaf.2.1).all
        (fun parsed => !(dash ∈ parsed.1) && parsed.2.rstrip = parsed.2) = true
  | _ => True

instance : DecidablePred PlainAlarms := fun
  | .alarm topic _ =>
    inferInstanceAs (Decidable ((Str.lit "N/").isPrefixOf topic = true ∧ topic.rstrip = topic))
  | .snapshot snapshot => inferInstanceAs (Decidable (∀ leaf ∈ Board.alarmLeaves snapshot,
      (Board.parseAlarmLeafKey leaf.1 leaf.2.1).all
        (fun parsed => !(dash ∈ parsed.1) && parsed.2.rstrip = parsed.2) = true))
  | .platform _ _ => isTrue trivial
  | .push _ => isTrue trivial
  | .dismiss _ _ => isTrue trivial
  | .clear => isTrue trivial

section Shown

variable {u} {l : List Banner} {values : Dict Str Nat} {dismissed : List Str} {topic nid : Str}

theorem plain_message {topic : Str} {body : Body} {r : Board.AlarmReport}
    (hplain : PlainAlarms (.alarm topic body)) (h : Board.messageReport u topic body = some r) :
    r.Raw u ∧ PlainAlarm r.topic r.nid := by
  obtain ⟨htopic, hstrip⟩ := hplain
  refine ⟨raw_messageReport htopic h, ?_⟩
  unfold Board.messageReport at h
  obtain ⟨value, -, rfl⟩ := Option.map_eq_some_iff.mp h
  rw [List.isPrefixOf_iff_prefix] at htopic
  obtain ⟨rest, rfl⟩ := htopic
  rw [Str.rstrip_append (by decide)] at hstrip
  exact .message rest (List.append_cancel_left hstrip)

theorem plain_snapshot {snapshot : Object} (hplain : PlainAlarms (.snapshot snapshot)) :
    ∀ r ∈ snapshotReports u snapshot, r.Raw u ∧ PlainAlarm r.topic r.nid := by
  intro r hr
  unfold snapshotReports at hr
  obtain ⟨leaf, hleaf, hreport⟩ := List.mem_filterMap.mp hr
  refine ⟨raw_leafReport hreport, ?_⟩
  have hok := hplain leaf hleaf
  have hbucket : leaf.1 ∈ Board.alarmBuckets := by
    unfold Board.alarmLeaves at hleaf
    obtain ⟨bucket, hbucket, hmem⟩ := List.mem_flatMap.mp hleaf
    obtain ⟨entry, -, rfl⟩ := List.mem_map.mp hmem
    exact hbucket
  unfold Board.leafReport at hreport
  obtain ⟨parsed, hparsed, hreport⟩ := Option.bind_eq_some_iff.mp hreport
  obtain ⟨value, -, rfl⟩ := Option.map_eq_some_iff.mp hreport
  rw [hparsed] at hok
  have hboth : dash ∉ parsed.1 ∧ parsed.2.rstrip = parsed.2 := by simpa using hok
  exact .snapshot leaf.1 leaf.2.1 parsed hbucket hparsed hboth.1 hboth.2

/-- A report does not touch the banner of another id. -/
theorem report_other {r : Board.AlarmReport} (hraw : r.Raw u) (hr : PlainAlarm r.topic r.nid)
    (hne : nid ≠ r.nid) : ∀ e ∈ reportEdits u dismissed values r, ∀ old,
      e.at Banner.id nid old = old := by
  intro e he old
  obtain ⟨banner, hbanner, hid, -, -⟩ := normalize_alarm hraw
  rw [hr.strip] at hid
  unfold reportEdits pushEdits at he
  rw [hbanner] at he
  dsimp only at he
  split at he
  · cases he
  · split at he
    · split at he
      · cases he
      · rw [List.mem_singleton] at he
        subst he
        exact if_neg fun heq => hne (heq.symm.trans hid)
    · rw [List.mem_singleton] at he
      subst he
      exact if_pos (by simpa using hne)

/-- The banner of an alarm that reports a new value. -/
theorem report_own {r : Board.AlarmReport} (hraw : r.Raw u) (hr : PlainAlarm r.topic r.nid)
    (hnew : (values.get? r.topic).getD 0 ≠ r.value)
    (h : r.nid ∈ dismissed → lookup Banner.id r.nid l = none) :
    (lookup Banner.id r.nid (edits Banner.id uncut l (reportEdits u dismissed values r))).map
      Banner.level = if r.nid ∈ dismissed then none else alarmLevel r.value := by
  obtain ⟨banner, hbanner, hid, -, hlevel⟩ := normalize_alarm hraw
  rw [hr.strip] at hid
  unfold reportEdits pushEdits
  rw [if_neg hnew, hbanner]
  dsimp only
  by_cases hraised : r.value = 1 ∨ r.value = 2
  · rw [if_pos hraised, hid]
    by_cases hgone : r.nid ∈ dismissed
    · rw [if_pos hgone, if_pos hgone, edits_nil, h hgone]
      rfl
    · rw [if_neg hgone, if_neg hgone, edits_cons, edits_nil, lookup_edit]
      show (if banner.id = r.nid then some banner else _).map Banner.level = _
      rw [if_pos hid, Option.map_some, hlevel]
      unfold alarmLevel
      rcases hraised with hv | hv <;> simp [hv]
  · rw [if_neg hraised, edits_cons, edits_nil, lookup_edit]
    have hlevel : alarmLevel r.value = none := by
      rw [not_or] at hraised
      unfold alarmLevel
      rw [if_neg hraised.2, if_neg hraised.1]
    rw [hlevel, ite_self]
    simp [Edit.at]

/-- **One report.** -/
theorem report_shown (h : AlarmShown l values dismissed topic nid) (halarm : PlainAlarm topic nid)
    {r : Board.AlarmReport} (hraw : r.Raw u) (hr : PlainAlarm r.topic r.nid) :
    AlarmShown (edits Banner.id uncut l (reportEdits u dismissed values r)) (reportValues values r)
      dismissed topic nid := by
  unfold AlarmShown at h ⊢
  rw [get_reportValues]
  by_cases htopic : topic = r.topic
  · obtain rfl : nid = r.nid := (halarm.inj hr).mp htopic
    subst htopic
    rw [if_pos rfl]
    by_cases hnew : (values.get? r.topic).getD 0 = r.value
    · have hnone : reportEdits u dismissed values r = [] := if_pos hnew
      rw [hnone, edits_nil, h, hnew]
    · refine report_own hraw hr hnew fun hgone => ?_
      rw [if_pos hgone] at h
      simpa using h
  · have hne : nid ≠ r.nid := fun heq => htopic ((halarm.inj hr).mpr heq)
    rw [if_neg htopic, lookup_edits_same (report_other hraw hr hne), h]

theorem reports_shown {rs : List Board.AlarmReport}
    (hrs : ∀ r ∈ rs, r.Raw u ∧ PlainAlarm r.topic r.nid) (halarm : PlainAlarm topic nid)
    (h : AlarmShown l values dismissed topic nid) :
    AlarmShown (edits Banner.id uncut l (reportsEdits u dismissed values rs))
      (rs.foldl reportValues values) dismissed topic nid := by
  induction rs generalizing l values with
  | nil => exact h
  | cons r rs ih =>
    obtain ⟨hraw, hr⟩ := hrs r List.mem_cons_self
    rw [reportsEdits_cons, edits_append]
    exact ih (fun x hx => hrs x (List.mem_cons_of_mem _ hx)) (report_shown h halarm hraw hr)

/-- The topics of a snapshot's alarms are the plain ones. -/
theorem PlainAlarm.snapshotAlarm_eq (halarm : PlainAlarm topic nid)
    (h : (Str.lit "igw/").isPrefixOf topic = true) :
    ∃ parsed, Board.snapshotAlarm topic = some parsed ∧ nid = Board.snapshotAlarmId parsed := by
  cases halarm with
  | message rest hstrip => exact absurd h (by simp [Str.lit, CodePoint.ofChar])
  | snapshot bucket key parsed hbucket hparsed hdash hstrip =>
    exact ⟨parsed, (snapshotAlarm_topic hbucket key).trans hparsed, rfl⟩

/-- Pruning ends the alarms it prunes, and no others. -/
theorem prune_shown {topics : List Str}
    (htopics : ∀ t ∈ topics, (Str.lit "igw/").isPrefixOf t = true ∧ ∃ id, PlainAlarm t id)
    (halarm : PlainAlarm topic nid) (h : AlarmShown l values dismissed topic nid) :
    AlarmShown (edits Banner.id uncut l (pruneEdits topics)) (topics.foldl Dict.erase values)
      dismissed topic nid := by
  induction topics generalizing l values with
  | nil => exact h
  | cons t topics ih =>
    obtain ⟨higw, id, hid⟩ := htopics t List.mem_cons_self
    obtain ⟨parsed, hparsed, rfl⟩ := hid.snapshotAlarm_eq higw
    rw [pruneEdits_cons, edits_append, hparsed]
    refine ih (fun x hx => htopics x (List.mem_cons_of_mem _ hx)) ?_
    unfold AlarmShown at h ⊢
    dsimp only
    rw [edits_cons, edits_nil, lookup_edit, Dict.get?_erase]
    by_cases ht : topic = t
    · have hsame := (halarm.inj hid).mp ht
      simp [Edit.at, ht, hsame, alarmLevel]
    · have hne : nid ≠ Board.snapshotAlarmId parsed := fun heq => ht ((halarm.inj hid).mpr heq)
      rw [if_neg ht, ← h]
      simp [Edit.at, hne]

end Shown

end InverterDashboard.Notifications
