import Mathlib.Data.List.Basic

/-!
# The last match in a list

`splitLast p l` splits `l` around its last element that satisfies `p`. A search
loop that overwrites its result at every match and does not stop finds that
element.
-/

namespace PicoHost.LastMatch

universe u

variable {α : Type u}

/-- The last element that satisfies `p`, with what stands before and after it. -/
def splitLast (p : α → Bool) : List α → Option (List α × α × List α)
  | [] => none
  | x :: xs =>
    match splitLast p xs with
    | some (pre, y, post) => some (x :: pre, y, post)
    | none => if p x then some ([], x, xs) else none

/-- Nothing satisfies `p`. -/
theorem splitLast_eq_none {p : α → Bool} {l : List α} (h : splitLast p l = none) :
    ∀ x ∈ l, p x = false := by
  induction l with
  | nil =>
    intro x hx
    cases hx
  | cons x xs ih =>
    rw [splitLast] at h
    split at h
    case h_1 => cases h
    case h_2 hxs =>
      split at h
      case isTrue => cases h
      case isFalse hx =>
        intro y hy
        rcases List.mem_cons.mp hy with rfl | hy
        · exact Bool.eq_false_iff.mpr hx
        · exact ih hxs y hy

/-- The element found satisfies `p`, and none after it does. -/
theorem splitLast_eq_some {p : α → Bool} {l pre post : List α} {x : α}
    (h : splitLast p l = some (pre, x, post)) :
    l = pre ++ x :: post ∧ p x = true ∧ ∀ y ∈ post, p y = false := by
  induction l generalizing pre with
  | nil => cases h
  | cons y ys ih =>
    rw [splitLast] at h
    split at h
    case h_1 pre' z post' hys =>
      cases h
      obtain ⟨hl, hx, hpost⟩ := ih hys
      exact ⟨by rw [hl]; rfl, hx, hpost⟩
    case h_2 hys =>
      split at h
      case isTrue hy =>
        cases h
        exact ⟨rfl, hy, splitLast_eq_none hys⟩
      case isFalse => cases h

/-- One more element is the last match if it is one. -/
theorem splitLast_concat (p : α → Bool) (l : List α) (x : α) :
    splitLast p (l ++ [x]) = if p x then some (l, x, []) else
      (splitLast p l).map fun found => (found.1, found.2.1, found.2.2 ++ [x]) := by
  induction l with
  | nil => simp [splitLast]
  | cons y ys ih =>
    rw [List.cons_append, splitLast, ih]
    by_cases hx : p x
    · simp [hx]
    · simp only [hx, splitLast]
      cases splitLast p ys with
      | none => by_cases hy : p y <;> simp [hy]
      | some found => simp

end PicoHost.LastMatch
