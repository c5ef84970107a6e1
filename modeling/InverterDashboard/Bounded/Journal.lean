import Mathlib.Data.List.Sort
import Mathlib.Data.List.DropRight
import Mathlib.Data.List.Dedup
import InverterDashboard.Temporal.Trace

/-
  Journals: tables that record each key once and keep the `n` rows of the best rank.

  `retain` drops what is ranked after the first `n` rows, and `record` adds a row unless its key
  is there. A key is safe for `n` later recordings when rows go in the order in which they came.
  `lasting_iff` says that this is the only way: in a run every recorded key lasts that long
  exactly when each recording into a full table drops the oldest row.
-/

namespace Bounded

open Temporal

variable {α κ : Type} [DecidableEq α] [DecidableEq κ]

/-! ## Retention -/

section Retain

variable (r : α → α → Prop) [DecidableRel r] (n : Nat)

/-- The rows without those ranked after the first `n`. -/
def retain (rows : List α) : List α := rows.filter fun a => a ∉ (rows.insertionSort r).drop n

variable {r n} {rows : List α}

theorem retain_sublist : (retain r n rows).Sublist rows := List.filter_sublist

theorem retain_of_length_le (h : rows.length ≤ n) : retain r n rows = rows := by
  unfold retain
  rw [List.drop_of_length_le (by rw [List.length_insertionSort]; exact h)]
  simp

/-- One row too many: the last in rank goes. -/
theorem retain_full [Std.Total r] [IsTrans α r] (hlen : rows.length = n + 1) :
    ∃ v ∈ rows, (∀ x ∈ rows, r x v) ∧ retain r n rows = rows.filter (· ≠ v) := by
  have hsorted : (rows.insertionSort r).Pairwise r := List.pairwise_insertionSort r rows
  have hmem : ∀ x, x ∈ rows.insertionSort r ↔ x ∈ rows := fun x => List.mem_insertionSort r
  have hsize : (rows.insertionSort r).length = n + 1 := by
    rw [List.length_insertionSort, hlen]
  unfold retain
  generalize rows.insertionSort r = sorted at hsorted hmem hsize
  have hn : n < sorted.length := by omega
  refine ⟨sorted[n], (hmem _).mp (List.getElem_mem hn), ?_, ?_⟩
  · intro x hx
    obtain ⟨i, hi, rfl⟩ := List.mem_iff_getElem.mp ((hmem x).mpr hx)
    rcases Nat.lt_or_ge i n with h | h
    · exact List.pairwise_iff_getElem.mp hsorted i n hi hn h
    · obtain rfl : i = n := by omega
      rcases Std.Total.total (r := r) sorted[i] sorted[i] with h | h <;> exact h
  · have hdrop : sorted.drop n = [sorted[n]] := by
      rw [List.drop_eq_getElem_cons hn, List.drop_of_length_le (by omega)]
    rw [hdrop]
    simp

end Retain

/-! ## Recording -/

section Record

variable (r : α → α → Prop) [DecidableRel r] (n : Nat) (key : α → κ)

/-- Adds a row unless its key is there, and drops what is one too many. -/
def record (rows : List α) (a : α) : List α :=
  if key a ∈ rows.map key then retain r n rows else retain r n (rows ++ [a])

/-- A table within its bound, no key twice. -/
structure Within (rows : List α) : Prop where
  bound : rows.length ≤ n
  nodup : (rows.map key).Nodup

variable {r n key} {rows : List α} {a : α}

omit [DecidableEq α] [DecidableEq κ] in
theorem Within.nil : Within n key ([] : List α) := ⟨Nat.zero_le n, List.nodup_nil⟩

theorem record_known (h : Within n key rows) (ha : key a ∈ rows.map key) :
    record r n key rows a = rows := by
  unfold record
  rw [if_pos ha, retain_of_length_le h.bound]

omit [DecidableEq α] [DecidableEq κ] in
theorem nodup_concat (h : Within n key rows) (ha : key a ∉ rows.map key) :
    ((rows ++ [a]).map key).Nodup := by
  rw [List.map_append, List.nodup_append]
  refine ⟨h.nodup, List.nodup_singleton _, ?_⟩
  intro x hx y hy
  rw [List.map_singleton, List.mem_singleton] at hy
  rintro rfl
  exact ha (hy ▸ hx)

/-- A new key: the row is added, and when the table was full one row goes. -/
theorem record_new [Std.Total r] [IsTrans α r] (h : Within n key rows)
    (ha : key a ∉ rows.map key) :
    (rows.length < n ∧ record r n key rows a = rows ++ [a]) ∨
    (rows.length = n ∧ ∃ v ∈ rows ++ [a], (∀ x ∈ rows ++ [a], r x v) ∧
      record r n key rows a = (rows ++ [a]).filter (· ≠ v)) := by
  unfold record
  rw [if_neg ha]
  rcases Nat.lt_or_ge rows.length n with hlt | hge
  · exact Or.inl ⟨hlt, retain_of_length_le (by simp; omega)⟩
  · have hlen : rows.length = n := le_antisymm h.bound hge
    exact Or.inr ⟨hlen, retain_full (by simp [hlen])⟩

theorem Within.record [Std.Total r] [IsTrans α r] (h : Within n key rows) (a : α) :
    Within n key (record r n key rows a) := by
  by_cases ha : key a ∈ rows.map key
  · rw [record_known h ha]
    exact h
  · have hnodup := nodup_concat h ha
    rcases record_new (r := r) h ha with ⟨hlt, hrec⟩ | ⟨hlen, v, hv, -, hrec⟩
    · rw [hrec]
      exact ⟨by simp; omega, hnodup⟩
    · rw [hrec]
      refine ⟨?_, hnodup.sublist (List.filter_sublist.map key)⟩
      have hdrop : ((rows ++ [a]).filter (· ≠ v)).length < (rows ++ [a]).length :=
        List.length_filter_lt_length_iff_exists.mpr ⟨v, hv, by simp⟩
      rw [List.length_append, hlen, List.length_singleton] at hdrop
      omega

end Record

/-! ## Runs -/

section Run

variable {σ ε : Type} (step : σ → ε → σ) (rows : σ → List α) (attempt : σ → ε → Option α)
  (r : α → α → Prop) [DecidableRel r] (n : Nat) (key : α → κ)

/-- A system with a table that changes only by recordings. -/
def Records : Prop :=
  ∀ s e, rows (step s e) = match attempt s e with
    | some a => record r n key (rows s) a
    | none => rows s

/-- The row that an event records: the one it attempts, when its key is new. -/
def recorded (x : σ × ε) : Option α :=
  (attempt x.1 x.2).filter fun a => key a ∉ (rows x.1).map key

/-- The rows that a run records, in order. -/
def recordings (s : σ) (es : List ε) : List α :=
  (trace step s es).filterMap (recorded rows attempt key)

/-- A recording into a full table drops the oldest row: every other one ranks before it. -/
def DropsOldest (x : σ × ε) : Prop :=
  ∀ a ∈ recorded rows attempt key x, (rows x.1).length = n →
    ∀ oldest ∈ (rows x.1).head?, ∀ b ∈ rows x.1 ++ [a], r b oldest

/-- Every recorded key is in the table from then on, until `n` other keys have been recorded
    after it. -/
def Lasting (s : σ) (es : List ε) : Prop :=
  ∀ before e after rest, es = before ++ e :: (after ++ rest) →
    ∀ a ∈ recorded rows attempt key (replay step s before, e),
      (((recordings step rows attempt key (step (replay step s before) e) after).map key).filter
        (· ≠ key a)).dedup.length < n →
      key a ∈ (rows (replay step s (before ++ e :: after))).map key

variable {step rows attempt r n key}

omit [DecidableEq α] in
theorem mem_recorded {x : σ × ε} {a : α} :
    a ∈ recorded rows attempt key x ↔ attempt x.1 x.2 = some a ∧ key a ∉ (rows x.1).map key := by
  unfold recorded
  rw [Option.mem_def, Option.filter_eq_some_iff, decide_eq_true_iff]

omit [DecidableEq α] in
theorem recordings_append (s : σ) (es fs : List ε) :
    recordings step rows attempt key s (es ++ fs) = recordings step rows attempt key s es ++
      recordings step rows attempt key (replay step s es) fs := by
  unfold recordings
  rw [trace_append, List.filterMap_append]

omit [DecidableEq α] in
theorem recordings_cons (s : σ) (e : ε) (es : List ε) :
    recordings step rows attempt key s (e :: es) = (recorded rows attempt key (s, e)).toList ++
      recordings step rows attempt key (step s e) es := by
  unfold recordings
  rw [trace, List.filterMap_cons]
  cases recorded rows attempt key (s, e) <;> rfl

/-- Without a recording the table stays as it is. -/
theorem Records.same (hr : Records step rows attempt r n key) {s : σ} {e : ε}
    (h : Within n key (rows s)) (hno : recorded rows attempt key (s, e) = none) :
    rows (step s e) = rows s := by
  rw [hr]
  unfold recorded at hno
  split
  · next a ha =>
    refine record_known h ?_
    by_contra hnew
    rw [ha] at hno
    simp [Option.filter, hnew] at hno
  · rfl

variable [Std.Total r] [IsTrans α r]

theorem Records.within (hr : Records step rows attempt r n key) {s : σ}
    (h : Within n key (rows s)) (e : ε) : Within n key (rows (step s e)) := by
  rw [hr]
  split
  · exact h.record _
  · exact h

theorem Records.within_replay (hr : Records step rows attempt r n key) {s : σ}
    (h : Within n key (rows s)) (es : List ε) : Within n key (rows (replay step s es)) :=
  replay_invariant step (I := fun s => Within n key (rows s)) h (fun _ e hs => hr.within hs e) es

/-- What a recording does to the table. -/
theorem Records.added (hr : Records step rows attempt r n key) {s : σ} {e : ε} {a : α}
    (h : Within n key (rows s)) (ha : a ∈ recorded rows attempt key (s, e)) :
    key a ∉ (rows s).map key ∧
    (((rows s).length < n ∧ rows (step s e) = rows s ++ [a]) ∨
    ((rows s).length = n ∧ ∃ v ∈ rows s ++ [a], (∀ x ∈ rows s ++ [a], r x v) ∧
      rows (step s e) = (rows s ++ [a]).filter (· ≠ v))) := by
  obtain ⟨hatt, hnew⟩ := mem_recorded.mp ha
  refine ⟨hnew, ?_⟩
  rw [hr, hatt]
  exact record_new h hnew

/-! ### Recordings in order -/

omit [DecidableEq α] in
theorem rtake_of_length_le {l : List α} (h : l.length ≤ n) : l.rtake n = l := by
  rw [List.rtake, Nat.sub_eq_zero_of_le h, List.drop_zero]

omit [DecidableEq α] in
theorem rtake_rtake_concat (l : List α) (a : α) :
    (l.rtake n ++ [a]).rtake n = (l ++ [a]).rtake n := by
  cases n with
  | zero => rw [List.rtake_zero, List.rtake_zero]
  | succ m =>
    rw [List.rtake_concat_succ, List.rtake_concat_succ]
    simp [List.rtake_eq_reverse_take_reverse, List.take_take]

omit [DecidableEq κ] [DecidableRel r] [Std.Total r] [IsTrans α r] in
/-- Nothing but the oldest row ranks last, when every row ranks before it. -/
theorem oldest_drops [Std.Antisymm r] {l : List α} {oldest : α} {v : α} (hl : l.Nodup)
    (hhead : oldest ∈ l.head?) (hv : v ∈ l) (hlast : ∀ x ∈ l, r x v)
    (hold : ∀ x ∈ l, r x oldest) : l.filter (· ≠ v) = l.tail := by
  obtain ⟨tail, rfl⟩ : ∃ tail, l = oldest :: tail := by
    cases l with
    | nil => cases hhead
    | cons x tail => exact ⟨tail, by rw [Option.some.inj hhead]⟩
  obtain rfl : v = oldest :=
    Std.Antisymm.antisymm v oldest (hold v hv) (hlast oldest List.mem_cons_self)
  rw [List.nodup_cons] at hl
  rw [List.filter_cons_of_neg (by simp), List.tail_cons, List.filter_eq_self]
  intro x hx
  have : x ≠ v := fun h => hl.1 (h ▸ hx)
  simpa using this

/-- A recording in order: the table keeps the latest `n` rows. -/
theorem Records.in_order [Std.Antisymm r] (hr : Records step rows attempt r n key) {s : σ} {e : ε}
    {a : α} (h : Within n key (rows s)) (ha : a ∈ recorded rows attempt key (s, e))
    (hord : DropsOldest rows attempt r n key (s, e)) :
    rows (step s e) = (rows s ++ [a]).rtake n := by
  obtain ⟨hnew, ⟨hlt, hrows⟩ | ⟨hlen, v, hv, hlast, hrows⟩⟩ := hr.added h ha
  · rw [hrows, rtake_of_length_le (by simp; omega)]
  · have hnodup : (rows s ++ [a]).Nodup := List.Nodup.of_map key (nodup_concat h hnew)
    rw [hrows]
    cases hs : rows s with
    | nil =>
      rw [hs] at hv hlen
      obtain rfl : n = 0 := hlen.symm
      obtain rfl : v = a := by simpa using hv
      simp
    | cons oldest tail =>
      have hhead : oldest ∈ (rows s ++ [a]).head? := by simp [hs]
      have hold : ∀ x ∈ rows s ++ [a], r x oldest := hord a ha hlen oldest (by simp [hs])
      rw [← hs, oldest_drops hnodup hhead hv hlast hold, List.rtake, List.length_append, hlen,
        List.length_singleton, Nat.add_sub_cancel_left, List.drop_one]

/-- **Recordings in order.** The table of a run is the latest `n` rows it recorded. -/
theorem Records.rows_replay [Std.Antisymm r] (hr : Records step rows attempt r n key) {s : σ}
    (h0 : rows s = []) (es : List ε)
    (hord : ∀ x ∈ trace step s es, DropsOldest rows attempt r n key x) :
    rows (replay step s es) = (recordings step rows attempt key s es).rtake n := by
  have hnil : Within n key (rows s) := h0 ▸ Within.nil
  induction es using List.reverseRecOn with
  | nil => simp [recordings, trace, h0]
  | append_singleton es e ih =>
    rw [trace_concat] at hord
    have ih := ih fun x hx => hord x (List.mem_append_left _ hx)
    have hwithin := hr.within_replay hnil es
    rw [recordings_append, recordings_cons, replay_append, replay_singleton]
    cases hrec : recorded rows attempt key (replay step s es, e) with
    | none =>
      rw [hr.same hwithin hrec, ih]
      simp [recordings, trace]
    | some a =>
      rw [hr.in_order hwithin hrec (hord _ (by simp)), ih, rtake_rtake_concat]
      simp [recordings, trace]

/-! ### Lasting keys -/

omit [DecidableEq α] in
/-- A recorded row comes from some event of the run. -/
theorem recordings_split {s : σ} {es : List ε} {p q : List α} {v : α}
    (h : recordings step rows attempt key s es = p ++ v :: q) :
    ∃ before e after, es = before ++ e :: after ∧
      v ∈ recorded rows attempt key (replay step s before, e) ∧
      recordings step rows attempt key (step (replay step s before) e) after = q := by
  induction es generalizing s p with
  | nil => simp [recordings, trace] at h
  | cons e es ih =>
    have hlater : ∀ {p}, recordings step rows attempt key (step s e) es = p ++ v :: q →
        ∃ before e' after, e :: es = before ++ e' :: after ∧
          v ∈ recorded rows attempt key (replay step s before, e') ∧
          recordings step rows attempt key (step (replay step s before) e') after = q := by
      intro p hp
      obtain ⟨before, e', after, rfl, hv, hq⟩ := ih hp
      exact ⟨e :: before, e', after, rfl, hv, hq⟩
    rw [recordings_cons] at h
    cases hrec : recorded rows attempt key (s, e) with
    | none =>
      rw [hrec] at h
      exact hlater h
    | some a =>
      rw [hrec, Option.toList_some, List.singleton_append] at h
      cases p with
      | nil =>
        obtain ⟨rfl, hq⟩ := List.cons.inj h
        exact ⟨[], e, es, rfl, hrec, hq⟩
      | cons b p => exact hlater (List.cons.inj h).2

omit [DecidableEq κ] in
/-- A dropped row takes its key along. -/
theorem key_not_mem_filter {l : List α} (hl : (l.map key).Nodup) {v : α} (hv : v ∈ l) :
    key v ∉ (l.filter (· ≠ v)).map key := by
  intro hmem
  obtain ⟨x, hx, hkey⟩ := List.mem_map.mp hmem
  obtain ⟨hxl, hne⟩ := List.mem_filter.mp hx
  have hne : x ≠ v := by simpa using hne
  exact hne (List.inj_on_of_nodup_map hl hxl hv hkey)

theorem lasting_of_order [Std.Antisymm r] (hr : Records step rows attempt r n key) {s : σ}
    (h0 : rows s = []) {es : List ε}
    (hord : ∀ x ∈ trace step s es, DropsOldest rows attempt r n key x) :
    Lasting step rows attempt n key s es := by
  have hnil : Within n key (rows s) := h0 ▸ Within.nil
  rintro before e after rest rfl a ha hfew
  have hprefix : ∀ x ∈ trace step s (before ++ e :: after), DropsOldest rows attempt r n key x := by
    intro x hx
    refine hord x ?_
    rw [show before ++ e :: (after ++ rest) = (before ++ e :: after) ++ rest by simp, trace_append]
    exact List.mem_append_left _ hx
  have hrows := hr.rows_replay h0 _ hprefix
  have hwithin := hr.within_replay hnil (before ++ e :: after)
  rw [recordings_append, recordings_cons, Option.mem_def.mp ha, Option.toList_some] at hrows
  generalize recordings step rows attempt key s before = earlier at hrows
  generalize recordings step rows attempt key (step (replay step s before) e) after = later
    at hrows hfew
  by_contra hgone
  rw [List.rtake] at hrows
  rcases Nat.lt_or_ge later.length n with hlt | hge
  · -- The row is still among the latest.
    rw [List.drop_append_of_le_length (by simp; omega)] at hrows
    rw [hrows] at hgone
    simp at hgone
  · -- Every row of the table came after it, and no two have the same key.
    have htable : rows (replay step s (before ++ e :: after)) = later.drop (later.length - n) := by
      rw [hrows, ← List.append_assoc,
        show (earlier ++ [a] ++ later).length - n = (earlier ++ [a]).length + (later.length - n) by
          simp; omega, List.drop_append]
      simp
    have hsub : (rows (replay step s (before ++ e :: after))).map key ⊆
        ((later.map key).filter (· ≠ key a)).dedup := by
      intro k hk
      have hne : k ≠ key a := by
        rintro rfl
        exact hgone hk
      rw [List.mem_dedup, List.mem_filter]
      refine ⟨?_, by simpa using hne⟩
      rw [htable] at hk
      exact (List.drop_sublist _ _).map key |>.subset hk
    have hlen := (List.subperm_of_subset hwithin.nodup hsub).length_le
    rw [List.length_map, htable, List.length_drop] at hlen
    omega

theorem order_of_lasting [Std.Antisymm r] (hr : Records step rows attempt r n key) {s : σ}
    (h0 : rows s = []) {es : List ε} (h : Lasting step rows attempt n key s es) :
    ∀ x ∈ trace step s es, DropsOldest rows attempt r n key x := by
  have hnil : Within n key (rows s) := h0 ▸ Within.nil
  induction es using List.reverseRecOn with
  | nil => simp [trace]
  | append_singleton es e ih =>
    have ih := ih (by
      intro before e' after rest hsplit
      exact h before e' after (rest ++ [e]) (by rw [hsplit]; simp))
    intro x hx
    rw [trace_concat] at hx
    rcases List.mem_append.mp hx with hx | hx
    · exact ih x hx
    obtain rfl := List.mem_singleton.mp hx
    intro a ha hlen oldest hold b hb
    dsimp only at hlen hold hb
    have hwithin := hr.within_replay hnil es
    obtain ⟨hnew, ⟨hlt, -⟩ | ⟨-, v, hv, hlast, hrows⟩⟩ := hr.added hwithin ha
    · omega
    have hgone : key v ∉ (rows (replay step s (es ++ [e]))).map key := by
      rw [replay_append, replay_singleton, hrows]
      exact key_not_mem_filter (nodup_concat hwithin hnew) hv
    by_cases hvo : v = oldest
    · exact hvo ▸ hlast b hb
    exfalso
    have hpos : 0 < n := by
      rw [← hlen]
      exact List.length_pos_of_mem (List.mem_of_mem_head? hold)
    rcases List.mem_append.mp hv with hv | hv
    · -- A later row than the oldest was dropped: fewer than `n` recordings came after it.
      obtain ⟨tail, htail⟩ : ∃ tail, rows (replay step s es) = oldest :: tail := by
        cases hrow : rows (replay step s es) with
        | nil => rw [hrow] at hold; cases hold
        | cons y tail =>
          rw [hrow] at hold
          exact ⟨tail, by rw [Option.some.inj hold]⟩
      rw [htail] at hv hlen
      obtain ⟨t₁, t₂, rfl⟩ := List.append_of_mem ((List.mem_cons.mp hv).resolve_left hvo)
      have hrec : recordings step rows attempt key s es =
          ((recordings step rows attempt key s es).take
            ((recordings step rows attempt key s es).length - n) ++ oldest :: t₁) ++ v :: t₂ := by
        have hdrop := hr.rows_replay h0 es ih
        rw [htail, List.rtake] at hdrop
        conv_lhs => rw [← List.take_append_drop ((recordings step rows attempt key s es).length - n)
          (recordings step rows attempt key s es), ← hdrop]
        simp
      obtain ⟨before, e', after, rfl, hv', hq⟩ := recordings_split hrec
      have := h before e' (after ++ [e]) [] (by simp) v hv' ?_
      · exact hgone (by simpa using this)
      · rw [recordings_append, hq, recordings_cons]
        have hstep : replay step (step (replay step s before) e') after =
            replay step s (before ++ e' :: after) := by simp [replay]
        rw [hstep, Option.mem_def.mp ha]
        refine lt_of_le_of_lt (List.dedup_sublist _).length_le ?_
        refine lt_of_le_of_lt (List.length_filter_le _ _) ?_
        simp [recordings, trace] at hlen ⊢
        omega
    · -- The new row itself was dropped.
      obtain rfl := List.mem_singleton.mp hv
      exact hgone (h es e [] [] rfl v ha (by simpa [recordings, trace] using hpos))

/-- **Lasting keys.** In a run from an empty table every recorded key lasts for `n` later
    recordings, exactly when every recording into a full table drops the oldest row. -/
theorem lasting_iff [Std.Antisymm r] (hr : Records step rows attempt r n key) {s : σ}
    (h0 : rows s = []) (es : List ε) :
    Lasting step rows attempt n key s es ↔
      ∀ x ∈ trace step s es, DropsOldest rows attempt r n key x :=
  ⟨order_of_lasting hr h0, lasting_of_order hr h0⟩

end Run

end Bounded
