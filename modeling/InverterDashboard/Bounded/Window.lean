import Mathlib.Data.List.Basic
import Mathlib.Data.List.TakeWhile
import Mathlib.Data.List.Induction
import Mathlib.Order.Lattice
import InverterDashboard.Temporal.Trace

/-
  Sliding windows: a queue of the times at which requests were admitted, from the front of which
  expired times are dropped.

  `Admits` says that a queue stands for a history: it holds all of it but expired times, and each
  time of it was admitted below the limit. A system whose steps only drop the expired front and
  admit below the limit (`Guards`) keeps it in every run. `Admits.prune_eq` reads the history off
  the queue, and `Limited.window_le` bounds what any moment has seen.
-/

namespace Bounded

open Temporal

universe u v

/-- When a time has expired. It stays so, and what is before it has expired too. -/
structure Span (τ : Type u) [LinearOrder τ] where
  expired : τ → τ → Bool
  expired_later {now later t : τ} : now ≤ later → expired now t = true → expired later t = true
  expired_earlier {now s t : τ} : s ≤ t → expired now t = true → expired now s = true

namespace Span

variable {τ : Type u} [LinearOrder τ] (w : Span τ)

/-- A queue without its expired front. -/
def prune (now : τ) (times : List τ) : List τ := times.dropWhile (w.expired now)

/-- The times that have not expired. -/
def live (now : τ) (times : List τ) : List τ := times.filter fun t => !w.expired now t

variable {w} {n : Nat} {now next t : τ} {queue history : List τ}

theorem live_append (before after : List τ) :
    w.live now (before ++ after) = w.live now before ++ w.live now after :=
  List.filter_append before after

theorem live_eq_nil (h : ∀ t ∈ history, w.expired now t = true) : w.live now history = [] := by
  simpa [live] using h

/-- Later fewer times are live. -/
theorem live_length_le (h : now ≤ next) :
    (w.live next history).length ≤ (w.live now history).length := by
  refine (List.monotone_filter_right history ?_).length_le
  intro t hlive
  cases hnow : w.expired now t with
  | false => rfl
  | true => simp [w.expired_later h hnow] at hlive

/-- In order of time, what is left of a queue are its live times. -/
theorem prune_eq_live (h : queue.Pairwise (· ≤ ·)) : w.prune now queue = w.live now queue := by
  induction queue with
  | nil => rfl
  | cons t queue ih =>
    have hprune := ih h.of_cons
    unfold prune live at hprune ⊢
    cases ht : w.expired now t with
    | true => simp [ht, hprune]
    | false =>
      have hlater : ∀ x ∈ queue, w.expired now x = false := by
        intro x hx
        by_contra hexpired
        have := w.expired_earlier (List.rel_of_pairwise_cons h hx) (by simpa using hexpired)
        simp [ht] at this
      have hall : queue.filter (fun t => !w.expired now t) = queue := by simpa using hlater
      simp [ht, hall]

/-! ## Queues of a history -/

/-- Each time of a history was admitted when fewer than `n` earlier ones were live. -/
def Limited (w : Span τ) (n : Nat) (history : List τ) : Prop :=
  ∀ before t after, history = before ++ t :: after → (w.live t before).length < n

theorem Limited.concat (h : w.Limited n history) (hlt : (w.live t history).length < n) :
    w.Limited n (history ++ [t]) := by
  intro before x after heq
  rcases List.eq_nil_or_concat after with rfl | ⟨after, y, rfl⟩
  · obtain ⟨rfl, hx⟩ := List.append_inj' heq rfl
    obtain rfl : t = x := by simpa using hx
    exact hlt
  · rw [List.concat_eq_append, ← List.cons_append, ← List.append_assoc] at heq
    exact h before x after (List.append_inj' heq rfl).1

/-- No moment has seen more than `n` live times. -/
theorem Limited.window_le (h : w.Limited n history) (hsorted : history.Pairwise (· ≤ ·)) (now : τ) :
    (w.live now (history.filter (· ≤ now))).length ≤ n := by
  induction history using List.reverseRecOn with
  | nil => simp [live]
  | append_singleton history t ih =>
    have hearlier : w.Limited n history := by
      intro before x after heq
      exact h before x (after ++ [t]) (by simp [heq])
    obtain ⟨hinit, -, hle⟩ := List.pairwise_append.mp hsorted
    by_cases ht : t ≤ now
    · have hall : (history ++ [t]).filter (· ≤ now) = history ++ [t] := by
        simp only [List.filter_eq_self, List.mem_append, List.mem_singleton, decide_eq_true_eq]
        rintro x (hx | rfl)
        · exact le_trans (hle x hx t (by simp)) ht
        · exact ht
      -- what is live now was live when the last time was admitted
      have hlast : (w.live t history).length < n := h history t [] rfl
      have hlive : (w.live now history).length ≤ (w.live t history).length := live_length_le ht
      have hone : (w.live now [t]).length ≤ 1 := List.length_filter_le _ _
      rw [hall, live_append, List.length_append]
      omega
    · have hdrop : (history ++ [t]).filter (· ≤ now) = history.filter (· ≤ now) := by
        simp [List.filter_append, ht]
      rw [hdrop]
      exact ih hearlier hinit

/-- A queue at some time, and the history of what was admitted until then. -/
structure Admits (w : Span τ) (n : Nat) (now : τ) (queue history : List τ) : Prop where
  holds : ∃ old, history = old ++ queue ∧ ∀ t ∈ old, w.expired now t = true
  sorted : history.Pairwise (· ≤ ·)
  past : ∀ t ∈ history, t ≤ now
  limited : w.Limited n history

namespace Admits

theorem nil : w.Admits n now [] [] :=
  ⟨⟨[], rfl, by simp⟩, .nil, by simp, fun before t after h => by simp at h⟩

theorem later (h : w.Admits n now queue history) (hle : now ≤ next) :
    w.Admits n next queue history := by
  obtain ⟨old, rfl, hold⟩ := h.holds
  refine ⟨⟨old, rfl, ?_⟩, h.sorted, ?_, h.limited⟩
  · exact fun t ht => w.expired_later hle (hold t ht)
  · exact fun t ht => le_trans (h.past t ht) hle

theorem prune (h : w.Admits n now queue history) : w.Admits n now (w.prune now queue) history := by
  obtain ⟨old, rfl, hold⟩ := h.holds
  refine ⟨⟨old ++ queue.takeWhile (w.expired now), ?_, ?_⟩, h.sorted, h.past, h.limited⟩
  · rw [List.append_assoc, Span.prune, List.takeWhile_append_dropWhile]
  · intro t ht
    rcases List.mem_append.mp ht with ht | ht
    · exact hold t ht
    · exact List.mem_takeWhile_imp ht

/-- What is left of the queue is what is live of the history. -/
theorem prune_eq (h : w.Admits n now queue history) : w.prune now queue = w.live now history := by
  obtain ⟨old, rfl, hold⟩ := h.holds
  rw [live_append, live_eq_nil hold, List.nil_append]
  exact prune_eq_live (List.pairwise_append.mp h.sorted).2.1

theorem add (h : w.Admits n now queue history) (hlt : (w.prune now queue).length < n) :
    w.Admits n now (w.prune now queue ++ [now]) (history ++ [now]) := by
  have hlive : (w.live now history).length < n := h.prune_eq ▸ hlt
  obtain ⟨old, hhistory, hold⟩ := h.prune.holds
  refine ⟨⟨old, ?_, hold⟩, ?_, ?_, h.limited.concat hlive⟩
  · rw [hhistory, List.append_assoc]
  · rw [List.pairwise_append]
    refine ⟨h.sorted, List.pairwise_singleton _ _, ?_⟩
    exact fun t ht x hx => List.mem_singleton.mp hx ▸ h.past t ht
  · intro t ht
    rcases List.mem_append.mp ht with ht | ht
    · exact h.past t ht
    · exact le_of_eq (List.mem_singleton.mp ht)

end Admits

/-! ## Runs -/

/-- A system that limits what it admits: `time` is when an event asks, `admitted` when it was let
    through. -/
structure Guards {σ ε : Type v} (w : Span τ) (n : Nat) (step : σ → ε → σ) (queue : σ → List τ)
    (time : ε → Option τ) (admitted : σ × ε → Option τ) : Prop where
  idle : ∀ s e, time e = none → admitted (s, e) = none ∧ queue (step s e) = queue s
  asked : ∀ s e t, time e = some t →
    admitted (s, e) = some t ∧ (w.prune t (queue s)).length < n ∧
        queue (step s e) = w.prune t (queue s) ++ [t] ∨
      admitted (s, e) = none ∧
        (queue (step s e) = w.prune t (queue s) ∨ queue (step s e) = queue s)

/-- While times do not go back, the queue stands for what the run admitted. -/
theorem Guards.run {σ ε : Type v} {step : σ → ε → σ} {queue : σ → List τ} {time : ε → Option τ}
    {admitted : σ × ε → Option τ} (h : w.Guards n step queue time admitted) {s : σ}
    (h0 : queue s = []) (es : List ε) (hclock : (es.filterMap time).Pairwise (· ≤ ·))
    (hnow : ∀ t ∈ es.filterMap time, t ≤ now) :
    w.Admits n now (queue (replay step s es)) ((trace step s es).filterMap admitted) := by
  induction es using List.reverseRecOn generalizing now with
  | nil => exact h0 ▸ .nil
  | append_singleton es e ih =>
    rw [replay_append, replay_singleton, trace_concat, List.filterMap_append]
    rw [List.filterMap_append] at hclock hnow
    obtain ⟨hinit, -, hlater⟩ := List.pairwise_append.mp hclock
    cases htime : time e with
    | none =>
      obtain ⟨hnone, hqueue⟩ := h.idle (replay step s es) e htime
      rw [hqueue, List.filterMap_cons_none hnone, List.filterMap_nil, List.append_nil]
      exact ih hinit fun t ht => hnow t (List.mem_append_left _ ht)
    | some t =>
      rw [List.filterMap_cons_some htime] at hlater hnow
      have hbefore := ih hinit fun x hx => hlater x hx t (by simp)
      have hle : t ≤ now := hnow t (by simp)
      rcases h.asked (replay step s es) e t htime with
        ⟨hadmitted, hlt, hqueue⟩ | ⟨hnone, hqueue | hqueue⟩
      · rw [hqueue, List.filterMap_cons_some hadmitted]
        exact (hbefore.add hlt).later hle
      · rw [hqueue, List.filterMap_cons_none hnone, List.filterMap_nil, List.append_nil]
        exact hbefore.prune.later hle
      · rw [hqueue, List.filterMap_cons_none hnone, List.filterMap_nil, List.append_nil]
        exact hbefore.later hle

end Span

end Bounded
