import Mathlib.Logic.Function.Basic

/-
  A fair lock: who holds it, and who waits for it, first come, first served.

  A lock that is free with someone waiting has been handed on: whoever comes now waits behind.
-/

namespace Async

structure FairLock (α : Type) where
  holder : Option α
  waiting : List α
  deriving DecidableEq

namespace FairLock

variable {α : Type}

/-- A new lock. -/
def free : FairLock α := ⟨none, []⟩

/-- Nobody holds it, and nobody waits. -/
def isFree (l : FairLock α) : Bool := l.holder.isNone && l.waiting.isEmpty

/-- Takes the lock if it is free; waits for it otherwise. -/
def acquire (l : FairLock α) (a : α) : FairLock α :=
  if l.isFree then ⟨some a, []⟩ else ⟨l.holder, l.waiting ++ [a]⟩

/-- The first to wait takes the lock. -/
def grant (l : FairLock α) : FairLock α := ⟨l.waiting.head?, l.waiting.tail⟩

/-- A lock that is held stays with its holder, whoever comes. -/
theorem acquire_holder {l : FairLock α} {a b : α} (h : l.holder = some a) :
    (l.acquire b).holder = some a := by
  have hheld : l.isFree = false := by
    unfold isFree
    rw [h]
    rfl
  unfold acquire
  rw [hheld]
  exact h

theorem acquire_free {l : FairLock α} {a : α} (h : l.isFree = true) :
    (l.acquire a).holder = some a := by
  unfold acquire
  rw [if_pos h]

theorem holder_of_isFree {l : FairLock α} (h : l.isFree = true) : l.holder = none := by
  unfold isFree at h
  rw [Bool.and_eq_true, Option.isNone_iff_eq_none] at h
  exact h.1

variable [DecidableEq α]

/-- It is the turn of `a`: nobody holds the lock, and `a` waits first. -/
def isTurn (l : FairLock α) (a : α) : Bool := l.holder.isNone && l.waiting.head? = some a

/-- Gives the lock back, or gives up waiting. -/
def leave (l : FairLock α) (a : α) : FairLock α :=
  ⟨if l.holder = some a then none else l.holder, l.waiting.filter (· ≠ a)⟩

theorem leave_holder {l : FairLock α} {a b : α} (h : l.holder = some a) (hne : a ≠ b) :
    (l.leave b).holder = some a := by
  unfold leave
  rw [h]
  exact if_neg fun e => hne (Option.some.inj e)

theorem grant_holder {l : FairLock α} {a : α} (h : l.isTurn a = true) :
    l.holder = none ∧ l.grant.holder = some a := by
  unfold isTurn at h
  rw [Bool.and_eq_true, Option.isNone_iff_eq_none, decide_eq_true_eq] at h
  exact h

end FairLock

end Async
