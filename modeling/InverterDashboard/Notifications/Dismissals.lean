import InverterDashboard.Bounded.Recent
import InverterDashboard.Notifications.Changes
import Mathlib.Tactic.Convert

/-
  How long a dismissal lasts.

  The program keeps at most 200 dismissed ids in a set, and cuts it by its iteration order. A
  dismissal lasts for 200 later ones exactly when each cut happens to drop the id that was not
  dismissed for the longest time (`dismissals_last_iff`); it can drop the one just dismissed
  (`dismissal_forgotten_at_once`).
-/

namespace InverterDashboard.Notifications

open Python Cerbo Bounded Temporal

/-! ## Dismissals -/

/-- The dismissals that are recorded: those of ids that are not the platform's. -/
def recordedDismissal : BoardOp → Option (Str × Nat)
  | .dismiss nid forgotten =>
    if nid.isEmpty || isPlatformId nid then none else some (nid, forgotten)
  | _ => none

def dismissals (ops : List BoardOp) : List (Str × Nat) := ops.filterMap recordedDismissal

variable (u : Unicode)

/-- What a run promises about its dismissals. -/
structure DismissalsLast (ops : List BoardOp) (b : Board) : Prop where
  bounded : b.dismissedIds.length ≤ dismissedMax
  /-- A dismissed id is suppressed until 200 others were dismissed. -/
  suppressed : ∀ before nid forgotten after, ops = before ++ .dismiss nid forgotten :: after →
    nid.isEmpty = false → isPlatformId nid = false →
    (others nid (given (dismissals after))).length < dismissedMax →
      nid ∈ b.dismissedIds ∧ ∀ data banner, normalizeNotification u data = some banner →
        banner.id = nid → b.pushNotification u .program data = b
  /-- The ids kept are those dismissed last. -/
  newest : ∀ nid, nid ∈ b.dismissedIds ↔
    nid ∈ newest dismissedMax (recent (given (dismissals ops)))

/-- The cut of a full set drops the id that was not dismissed for the longest time. -/
def DropsOldest (before : List BoardOp) (b : Board) : BoardOp → Prop
  | .dismiss nid forgotten => nid.isEmpty = false → isPlatformId nid = false →
      nid ∉ b.dismissedIds → b.dismissedIds.length = dismissedMax →
        (b.dismissedIds ++ [nid])[forgotten % (dismissedMax + 1)]? =
          (recent (given (dismissals before))).find? (· ∈ b.dismissedIds)
  | _ => True

/-! ## Runs -/

section Runs

variable {u}

theorem dismissals_concat (ops : List BoardOp) (op : BoardOp) :
    dismissals (ops ++ [op]) = dismissals ops ++ (recordedDismissal op).toList := by
  unfold dismissals
  rw [List.filterMap_append]
  cases h : recordedDismissal op <;> simp [h]

theorem recordedDismissal_some {op : BoardOp} {e : Str × Nat} (h : recordedDismissal op = some e) :
    op = .dismiss e.1 e.2 ∧ e.1.isEmpty = false ∧ isPlatformId e.1 = false := by
  cases op with
  | dismiss nid forgotten =>
    unfold recordedDismissal at h
    dsimp only at h
    split at h
    · cases h
    · next hskip =>
      obtain rfl := Option.some.inj h
      rw [Bool.or_eq_true, not_or, Bool.not_eq_true, Bool.not_eq_true] at hskip
      exact ⟨rfl, hskip⟩
  | _ => cases h

theorem dismissed_step (b : Board) (op : BoardOp) :
    (boardStep u .program b op).dismissedIds =
      match recordedDismissal op with
      | some e => remember dismissedMax b.dismissedIds e
      | none => b.dismissedIds := by
  rw [boardStep_eq]
  cases op with
  | dismiss nid forgotten =>
    unfold dismissedAfter recordedDismissal
    dsimp only
    cases hskip : nid.isEmpty || isPlatformId nid with
    | true => rw [Bool.true_or, if_pos rfl, if_pos rfl]
    | false =>
      rw [Bool.false_or, if_neg Bool.false_ne_true]
      unfold remember Limits.program
      by_cases hmem : nid ∈ b.dismissedIds
      · simp only [hmem, decide_true, if_true]
      · simp only [hmem, decide_false, Bool.false_eq_true, if_false]
  | _ => rfl

/-- The set of dismissed ids after a run. -/
theorem dismissed_replay (ops : List BoardOp) :
    (replay (boardStep u .program) Board.init ops).dismissedIds =
      remembered dismissedMax (dismissals ops) := by
  induction ops using List.reverseRecOn with
  | nil => rfl
  | append_singleton ops op ih =>
    rw [replay_append, replay_singleton, dismissed_step, dismissals_concat, ih]
    cases recordedDismissal op with
    | none => simp
    | some e => exact (remembered_concat _ _).symm

theorem given_dismissals_split {before after : List BoardOp} {e : Str × Nat} {op : BoardOp}
    (h : recordedDismissal op = some e) :
    given (dismissals (before ++ op :: after)) =
      given (dismissals before) ++ e.1 :: given (dismissals after) := by
  unfold dismissals given
  rw [List.filterMap_append, List.filterMap_cons, h]
  simp

/-- A run whose dismissals last is one whose set keeps the ids dismissed last. -/
theorem dismissalsLast_iff (ops : List BoardOp) :
    DismissalsLast u ops (replay (boardStep u .program) Board.init ops) ↔
      KeepsRecent dismissedMax (dismissals ops) := by
  have hids := dismissed_replay (u := u) ops
  constructor
  · intro h a ha
    rw [← hids]
    exact (h.newest a).mpr ha
  · intro h
    have hmem : ∀ nid, nid ∈ (replay (boardStep u .program) Board.init ops).dismissedIds ↔
        nid ∈ newest dismissedMax (recent (given (dismissals ops))) := by
      rw [hids]
      exact h.mem_iff
    refine ⟨?_, ?_, hmem⟩
    · rw [hids]
      exact length_remembered _
    · rintro before nid forgotten after rfl hne hplatform hfew
      have hrecorded : recordedDismissal (.dismiss nid forgotten) = some (nid, forgotten) := by
        unfold recordedDismissal
        simp [hne, hplatform]
      have hkept := (hmem nid).mpr (mem_newest_recent.mpr
        ⟨_, _, given_dismissals_split hrecorded, hfew⟩)
      refine ⟨hkept, fun data banner hbanner hid => ?_⟩
      unfold Board.pushNotification
      rw [hbanner]
      exact if_pos (hid ▸ hkept)

/-- The condition on a cut, in terms of the set. -/
theorem dropsOldest_iff (ops : List BoardOp) (op : BoardOp) :
    DropsOldest ops (replay (boardStep u .program) Board.init ops) op ↔
      ∀ e, recordedDismissal op = some e → ForgetsOldest dismissedMax (dismissals ops) e := by
  have hids := dismissed_replay (u := u) ops
  constructor
  · intro h e he
    obtain ⟨rfl, hne, hplatform⟩ := recordedDismissal_some he
    unfold ForgetsOldest
    rw [← hids]
    convert h hne hplatform
  · intro h
    cases op with
    | dismiss nid forgotten =>
      intro hne hplatform
      have hforgets := h (nid, forgotten) (by unfold recordedDismissal; simp [hne, hplatform])
      unfold ForgetsOldest at hforgets
      rw [← hids] at hforgets
      convert hforgets
    | _ => trivial

/-- One operation more. -/
theorem keepsRecent_step {ops : List BoardOp} (h : KeepsRecent dismissedMax (dismissals ops))
    (op : BoardOp) : KeepsRecent dismissedMax (dismissals (ops ++ [op])) ↔
      DropsOldest ops (replay (boardStep u .program) Board.init ops) op := by
  rw [dropsOldest_iff, dismissals_concat]
  cases hop : recordedDismissal op with
  | none => simp [h]
  | some e =>
    rw [Option.toList_some, keepsRecent_concat (by decide) h]
    simp

end Runs

/-- Dismissals last, throughout a run, exactly when every cut of a full set drops the id that was
    not dismissed for the longest time. -/
theorem dismissals_last_iff (ops : List BoardOp) :
    (∀ k, DismissalsLast u (ops.take k)
        (replay (boardStep u .program) Board.init (ops.take k))) ↔
      ∀ k op, ops[k]? = some op →
        DropsOldest (ops.take k) (replay (boardStep u .program) Board.init (ops.take k)) op := by
  simp only [dismissalsLast_iff]
  constructor
  · intro h k op hop
    rw [← keepsRecent_step (h k)]
    obtain ⟨hk, rfl⟩ := List.getElem?_eq_some_iff.mp hop
    rw [← List.take_succ_eq_append_getElem hk]
    exact h (k + 1)
  · intro h k
    induction k with
    | zero =>
      intro a ha
      exact absurd (newest_sublist _ |>.subset ha) (by simp [dismissals, given, recent])
    | succ k ih =>
      rcases Nat.lt_or_ge k ops.length with hk | hk
      · rw [List.take_succ_eq_append_getElem hk, keepsRecent_step ih]
        exact h k _ (List.getElem?_eq_getElem hk)
      · rw [List.take_of_length_le (by omega)]
        rw [List.take_of_length_le hk] at ih
        exact ih

/-- The ids of 201 alerts, dismissed one after the other; the set has the last one first when it is
    cut. -/
def alertId (i : Fin 201) : Str := [i.castLE (by decide)]

def dismissedAlerts : List BoardOp := (List.finRange 201).map fun i => .dismiss (alertId i) 200

theorem dismissal_forgotten_at_once :
    let b := replay (boardStep .ascii .program) Board.init dismissedAlerts
    dismissedAlerts[200]? = some (.dismiss (alertId 200) 200) ∧
      isPlatformId (alertId 200) = false ∧ alertId 200 ∉ b.dismissedIds ∧
        ¬ DismissalsLast .ascii dismissedAlerts b := by
  have hgone : alertId 200 ∉
      (replay (boardStep .ascii .program) Board.init dismissedAlerts).dismissedIds := by
    decide +kernel
  have hlast : dismissedAlerts =
      (List.finRange 200).map (fun i => .dismiss (alertId i.castSucc) 200) ++
        .dismiss (alertId 200) 200 :: [] := by
    unfold dismissedAlerts
    rw [List.finRange_succ_last]
    simp
  refine ⟨rfl, by decide, hgone, fun h => ?_⟩
  exact hgone (h.suppressed _ _ _ _ hlast (by decide) (by decide) (by decide)).1

end InverterDashboard.Notifications
