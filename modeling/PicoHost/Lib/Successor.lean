import Mathlib.Data.List.Nodup

/-!
# Walking a list by asking for the element after the last one

A list can be walked from outside by asking for its first element, and then for the element
after the one that was answered last (`next`). If no element occurs twice, this walk meets every
element once (`visits_eq`).
-/

namespace PicoHost.Successor

universe u

variable {α : Type u} [DecidableEq α]

/-- The element after the first occurrence of `x` -/
def after (x : α) : List α → Option α
  | [] => none
  | y :: l => if y = x then l.head? else after x l

/-- The first element, or the one after the element given -/
def next (l : List α) : Option α → Option α
  | none => l.head?
  | some x => after x l

/-- What a loop that asks for the next element until there is none meets, from `x` on and in at
most so many turns -/
def visits (l : List α) : Nat → Option α → List α
  | 0, _ => []
  | _ + 1, none => []
  | fuel + 1, some x => x :: visits l fuel (after x l)

@[simp] theorem visits_none (l : List α) (fuel : Nat) : visits l fuel none = [] := by
  cases fuel <;> rfl

/-- The successor of an element is the head of what follows it. -/
theorem after_append {x : α} {l : List α} (hx : x ∉ l) (m : List α) :
    after x (l ++ x :: m) = m.head? := by
  induction l with
  | nil => exact if_pos rfl
  | cons y l ih =>
    obtain ⟨hne, hl⟩ := not_or.mp (List.mem_cons.not.mp hx)
    rw [List.cons_append, after, if_neg (Ne.symm hne)]
    exact ih hl

/-- From any element on, the walk meets the rest of the list. -/
theorem visits_suffix {l m : List α} (h : (l ++ m).Nodup) {fuel : Nat} (hfuel : m.length ≤ fuel) :
    visits (l ++ m) fuel m.head? = m := by
  induction m generalizing l fuel with
  | nil => exact visits_none _ _
  | cons x m ih =>
    cases fuel with
    | zero => exact absurd hfuel (Nat.not_succ_le_zero _)
    | succ fuel =>
      have hx : x ∉ l := fun hx =>
        (List.nodup_append.mp h).2.2 x hx x (List.mem_cons_self ..) rfl
      have happend : l ++ x :: m = (l ++ [x]) ++ m := by simp
      rw [List.head?_cons, visits, after_append hx, happend]
      rw [happend] at h
      rw [ih h (Nat.le_of_succ_le_succ hfuel)]

/-- The walk meets every element of the list once, in order. -/
theorem visits_eq {l : List α} (h : l.Nodup) {fuel : Nat} (hfuel : l.length ≤ fuel) :
    visits l fuel (next l none) = l :=
  visits_suffix (l := []) h hfuel

end PicoHost.Successor
