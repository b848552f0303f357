import Mathlib.Tactic.Basic

/-!
# Recursive mutexes

The task that holds a recursive mutex may take it again and has to give it back as
often as it has taken it. A mutex without a holder has no count, so that an
inconsistent pair of holder and count cannot be built.
-/

namespace PicoHost

universe u

/-- A recursive mutex: free, or held by a task that has taken it `again` times more. -/
inductive RecursiveMutex (τ : Type u) where
  | free
  | held (task : τ) (again : Nat)
deriving DecidableEq, Repr

namespace RecursiveMutex

variable {τ : Type u} [DecidableEq τ]

/-- Take the mutex. `none`: another task holds it. -/
def take (task : τ) : RecursiveMutex τ → Option (RecursiveMutex τ)
  | free => some (held task 0)
  | held holder again => if holder = task then some (held holder (again + 1)) else none

/-- Give the mutex back. This fails for a task that does not hold it. -/
def give (task : τ) : RecursiveMutex τ → RecursiveMutex τ
  | free => free
  | held holder 0 => if holder = task then free else held holder 0
  | held holder (again + 1) =>
    if holder = task then held holder again else held holder (again + 1)

def holder : RecursiveMutex τ → Option τ
  | free => none
  | held task _ => some task

variable {task : τ}

theorem take_held_other {other : τ} (h : other ≠ task) (n : Nat) :
    take task (held other n) = none := if_neg h

/-- To give back what has just been taken changes nothing. -/
theorem give_of_take {m m' : RecursiveMutex τ} (h : m.take task = some m') : m'.give task = m := by
  cases m with
  | free =>
    cases h
    simp [give]
  | held holder again =>
    rw [take] at h
    split at h
    next heq =>
      cases h
      simp [give, heq]
    next => cases h

end RecursiveMutex

end PicoHost
