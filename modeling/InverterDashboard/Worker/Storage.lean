import Mathlib.Data.List.Sort
import Mathlib.Data.List.Count
import InverterDashboard.Cerbo.Listing

/-
  The two object stores of the notification worker, and the transactions on them.

  IndexedDB runs the transactions of a store one after the other, for all tabs and all push events.
  A transaction here is a function on the store; whether it commits is up to the caller. The clock
  is read once for a new record and once for each record that a cursor visits.
-/

namespace InverterDashboard.Worker

open Python Cerbo

def maxEvents : Nat := 4096

/-- Milliseconds. -/
def retentionMs : Int := 30 * 24 * 60 * 60 * 1000

/-- `Number.MAX_SAFE_INTEGER`. -/
def maxSafeInteger : Int := 2 ^ 53 - 1

/-- `Number.isSafeInteger`, with the integer; JSON numbers are floats in the browser. -/
def safeInteger? (v : Value) : Option Int :=
  let x : Float64 := match v with
    | .int i => Float64.ofRat i
    | .float x => x
    | _ => .nan
  match x with
  | .fin q => if q.den = 1 ∧ q.num.natAbs ≤ maxSafeInteger.natAbs then some q.num else none
  | _ => none

/-- A safe integer is the same number in the browser. -/
theorem safeInteger?_int {i : Int} (h : i.natAbs ≤ maxSafeInteger.natAbs) :
    safeInteger? (.int i) = some i := by
  have hlt : i.natAbs < 2 ^ 53 := by
    have : maxSafeInteger.natAbs = 2 ^ 53 - 1 := rfl
    omega
  unfold safeInteger?
  dsimp only
  rw [Float64.ofRat_int hlt]
  dsimp only
  rw [Rat.num_intCast, Rat.den_intCast, if_pos ⟨rfl, h⟩]

/-! ## Settings -/

structure Settings where
  enabled : Bool
  generation : Int
  deriving DecidableEq

/-- `DEFAULT_SETTINGS`. -/
def Settings.default : Settings := ⟨false, 0⟩

/-- A message that changes the settings. -/
inductive Request where
  /-- `notification-settings-begin`. -/
  | begin (generation : Value)
  /-- `notification-settings-set`; a request without a boolean is not passed on. -/
  | set (enabled : Bool) (generation : Value)

namespace Request

/-- Whether the request names the generation it was made for, and that has to be the current one. -/
def needsCurrent : Request → Bool
  | .begin _ => true
  | .set enabled _ => enabled

def generation : Request → Value
  | .begin generation => generation
  | .set _ generation => generation

/-- Whether the request retires the generation. -/
def retires : Request → Bool
  | .begin _ => true
  | .set enabled _ => !enabled

end Request

/-- The update of `changeSettings`; `none` when it is not applied. -/
def changeSettings (r : Request) (current : Settings) : Option Settings :=
  if r.needsCurrent && safeInteger? r.generation ≠ some current.generation then none
  else if r.retires then
    if maxSafeInteger ≤ current.generation then none
    else some ⟨false, current.generation + 1⟩
  else some ⟨true, current.generation⟩

/-- An applied request keeps the generation and enables, or retires it and disables. -/
theorem changeSettings_some {r : Request} {current next : Settings}
    (h : changeSettings r current = some next) :
    (r.retires = true ∧ next = ⟨false, current.generation + 1⟩) ∨
      (r.retires = false ∧ next = ⟨true, current.generation⟩ ∧
        safeInteger? r.generation = some current.generation) := by
  unfold changeSettings at h
  split at h
  · cases h
  · next hcurrent =>
    split at h
    · next hretires =>
      split at h
      · cases h
      · exact Or.inl ⟨hretires, (Option.some.inj h).symm⟩
    · next hkeeps =>
      rw [Bool.not_eq_true] at hkeeps
      refine Or.inr ⟨hkeeps, (Option.some.inj h).symm, ?_⟩
      have hneeds : r.needsCurrent = true := by
        cases r with
        | begin generation => rfl
        | set enabled generation => simpa [Request.retires, Request.needsCurrent] using hkeeps
      rw [hneeds, Bool.true_and, decide_eq_true_eq, not_not] at hcurrent
      exact hcurrent

/-! ## Events -/

/-- A record of `events`. -/
structure Claim where
  key : Str
  expires : Int
  deriving DecidableEq

/-- The order of the index on `expires`; equal times are ordered by key. -/
def Claim.before (a b : Claim) : Prop :=
  a.expires < b.expires ∨ (a.expires = b.expires ∧ leText a.key b.key)

instance : DecidableRel Claim.before :=
  fun a b => inferInstanceAs (Decidable (a.expires < b.expires ∨ (a.expires = b.expires ∧ _)))

/-- The keys of the records. -/
def keysOf (claims : List Claim) : List Str := claims.map Claim.key

/-- What the cursor of `pruneEvents` deletes, from its `i`-th record on. -/
def doomed (clock : Nat → Int) : Nat → Nat → List Claim → List Claim
  | _, _, [] => []
  | i, excess, claim :: claims =>
    if 0 < excess ∨ claim.expires ≤ clock i then
      claim :: doomed clock (i + 1) (excess - 1) claims
    else []

/-- The records that `pruneEvents` deletes. -/
def prunedClaims (clock : Nat → Int) (claims : List Claim) : List Claim :=
  doomed clock 0 (claims.length - maxEvents) (claims.insertionSort Claim.before)

/-- `pruneEvents`. -/
def pruneEvents (clock : Nat → Int) (claims : List Claim) : List Claim :=
  claims.filter fun c => c ∉ prunedClaims clock claims

/-- The records of `claimEvent` before it prunes: a new key is put in. -/
def putClaim (key : Str) (now : Int) (claims : List Claim) : List Claim :=
  if key ∈ keysOf claims then claims else claims ++ [⟨key, now + retentionMs⟩]

/-- The transaction of `claimEvent`: whether the key was claimed, and the records. -/
def claimEvent (key : Str) (clock : Nat → Int) (claims : List Claim) : Bool × List Claim :=
  (key ∉ keysOf claims, pruneEvents (fun i => clock (i + 1)) (putClaim key (clock 0) claims))

/-- The transaction of `releaseClaim`. -/
def releaseClaim (key : Str) (claims : List Claim) : List Claim := claims.filter (·.key ≠ key)

/-! ### Pruning -/

instance : Std.Total Claim.before where
  total a b := by
    have htext := leText_total a.key b.key
    unfold Claim.before
    rcases lt_trichotomy a.expires b.expires with h | h | h
    · exact Or.inl (Or.inl h)
    · exact htext.imp (fun ht => Or.inr ⟨h, ht⟩) fun ht => Or.inr ⟨h.symm, ht⟩
    · exact Or.inr (Or.inl h)

instance : IsTrans Claim Claim.before where
  trans a b c hab hbc := by
    unfold Claim.before at hab hbc ⊢
    rcases hab with hab | ⟨hab, htext⟩
    · rcases hbc with hbc | ⟨hbc, -⟩
      · exact Or.inl (hab.trans hbc)
      · exact Or.inl (hbc ▸ hab)
    · rcases hbc with hbc | ⟨hbc, htext'⟩
      · exact Or.inl (hab ▸ hbc)
      · exact Or.inr ⟨hab.trans hbc, leText_trans htext htext'⟩

theorem doomed_initial (clock : Nat → Int) (i excess : Nat) (l : List Claim) :
    doomed clock i excess l <+: l := by
  induction l generalizing i excess with
  | nil => exact List.prefix_refl _
  | cons c l ih =>
    unfold doomed
    split
    · exact (List.prefix_cons_inj c).mpr (ih _ _)
    · exact List.nil_prefix

/-- A doomed record is expired, or in the way. -/
theorem mem_doomed {clock : Nat → Int} {i excess : Nat} {l : List Claim} {c : Claim}
    (h : c ∈ doomed clock i excess l) : (∃ j, c.expires ≤ clock j) ∨ c ∈ l.take excess := by
  induction l generalizing i excess with
  | nil => cases h
  | cons d l ih =>
    unfold doomed at h
    split at h
    · next hdoomed =>
      rcases List.mem_cons.mp h with rfl | h
      · rcases hdoomed with hexcess | hexpired
        · obtain ⟨e, rfl⟩ := Nat.exists_eq_succ_of_ne_zero (Nat.pos_iff_ne_zero.mp hexcess)
          simp
        · exact Or.inl ⟨i, hexpired⟩
      · refine (ih h).imp id fun htake => ?_
        cases excess with
        | zero => simp at htake
        | succ e =>
          rw [List.take_succ_cons]
          exact List.mem_cons_of_mem _ htake
    · cases h

theorem length_doomed {clock : Nat → Int} {i excess : Nat} {l : List Claim}
    (h : excess ≤ l.length) : excess ≤ (doomed clock i excess l).length := by
  induction l generalizing i excess with
  | nil => exact h.trans (Nat.zero_le _)
  | cons c l ih =>
    rcases Nat.eq_zero_or_pos excess with hzero | hpos
    · omega
    · unfold doomed
      rw [if_pos (Or.inl hpos), List.length_cons]
      have := @ih (i + 1) (excess - 1) (by simp at h; omega)
      omega

section Prune

variable (clock : Nat → Int) {claims : List Claim}

theorem prunedClaims_subset : prunedClaims clock claims ⊆ claims := fun _ h =>
  (List.perm_insertionSort _ _).mem_iff.mp ((doomed_initial _ _ _ _).subset h)

theorem nodup_prunedClaims (hn : claims.Nodup) : (prunedClaims clock claims).Nodup :=
  ((List.perm_insertionSort _ _).nodup_iff.mpr hn).sublist (doomed_initial _ _ _ _).sublist

/-- A record is pruned because it is expired, or because it is among the first to expire of too
    many. -/
theorem mem_prunedClaims {c : Claim} (h : c ∈ prunedClaims clock claims) :
    (∃ j, c.expires ≤ clock j) ∨
      c ∈ (claims.insertionSort Claim.before).take (claims.length - maxEvents) :=
  mem_doomed h

/-- What is pruned and what is left. -/
theorem countP_pruneEvents (hn : claims.Nodup) (p : Claim → Bool) :
    (pruneEvents clock claims).countP p + (prunedClaims clock claims).countP p =
      claims.countP p := by
  have hperm : (claims.filter fun c => c ∈ prunedClaims clock claims).Perm
      (prunedClaims clock claims) := by
    refine (List.perm_ext_iff_of_nodup (hn.filter _) (nodup_prunedClaims clock hn)).mpr fun c => ?_
    rw [List.mem_filter, decide_eq_true_eq]
    exact ⟨fun h => h.2, fun h => ⟨prunedClaims_subset clock h, h⟩⟩
  have hsplit := List.countP_eq_countP_filter_add claims p fun c => c ∈ prunedClaims clock claims
  rw [hperm.countP_eq] at hsplit
  unfold pruneEvents
  simp only [decide_not] at hsplit ⊢
  omega

theorem length_pruneEvents (hn : claims.Nodup) : (pruneEvents clock claims).length ≤ maxEvents := by
  have hcount := countP_pruneEvents clock hn fun _ => true
  simp only [List.countP_true] at hcount
  have hexcess : claims.length - maxEvents ≤ (prunedClaims clock claims).length :=
    length_doomed (by rw [List.length_insertionSort]; omega)
  omega

end Prune

/-! ### Records -/

/-- The records of a key. -/
def records (key : Str) (claims : List Claim) : Nat := claims.countP fun c => c.key = key

theorem records_le_one {claims : List Claim} (h : (keysOf claims).Nodup) (key : Str) :
    records key claims ≤ 1 := by
  have hcount : records key claims = (keysOf claims).count key := by
    unfold records keysOf
    rw [List.count, List.countP_map]
    exact List.countP_congr fun c _ => by simp
  rw [hcount]
  exact List.nodup_iff_count_le_one.mp h key

theorem nodup_of_keys {claims : List Claim} (h : (keysOf claims).Nodup) : claims.Nodup :=
  List.Nodup.of_map _ h

theorem nodup_putClaim {claims : List Claim} (h : (keysOf claims).Nodup) (key : Str) (now : Int) :
    (keysOf (putClaim key now claims)).Nodup := by
  unfold putClaim
  split
  · exact h
  · next hnew =>
    unfold keysOf at hnew ⊢
    rw [List.map_append]
    refine List.nodup_append.mpr ⟨h, by simp, ?_⟩
    rintro a ha b hb rfl
    rw [List.map_singleton, List.mem_singleton] at hb
    have hkey : a = key := hb
    exact hnew (hkey ▸ ha)

theorem records_putClaim (key k : Str) (now : Int) (claims : List Claim) :
    records key (putClaim k now claims) =
      records key claims + if k = key ∧ k ∉ keysOf claims then 1 else 0 := by
  unfold putClaim records
  split
  · next h => simp [h]
  · next h =>
    rcases eq_or_ne k key with rfl | hk
    · simp [h]
    · simp [hk]

/-- A claim adds the record of its key unless there is one; what is pruned is gone. -/
theorem records_claimEvent {claims : List Claim} (h : (keysOf claims).Nodup) (key k : Str)
    (clock : Nat → Int) :
    records key (claimEvent k clock claims).2 +
        records key (prunedClaims (fun j => clock (j + 1)) (putClaim k (clock 0) claims)) =
      records key claims + if k = key ∧ (claimEvent k clock claims).1 = true then 1 else 0 := by
  have hprune := countP_pruneEvents (fun j => clock (j + 1))
    (nodup_of_keys (nodup_putClaim h k (clock 0))) fun c => c.key = key
  have hput := records_putClaim key k (clock 0) claims
  unfold claimEvent
  unfold records at hput ⊢
  simp only [decide_eq_true_eq]
  omega

theorem records_releaseClaim (key k : Str) (claims : List Claim) :
    records key (releaseClaim k claims) = if k = key then 0 else records key claims := by
  unfold records releaseClaim
  rw [List.countP_filter]
  split
  · next h =>
    rw [List.countP_eq_zero]
    intro c _
    simp [h]
  · next h =>
    refine List.countP_congr fun c _ => ?_
    simp only [Bool.and_eq_true, decide_eq_true_eq, and_iff_left_iff_imp]
    exact fun hc heq => h (heq.symm.trans hc)

theorem nodup_filter {claims : List Claim} (h : (keysOf claims).Nodup) (p : Claim → Bool) :
    (keysOf (claims.filter p)).Nodup :=
  h.sublist (List.filter_sublist.map _)

end InverterDashboard.Worker
