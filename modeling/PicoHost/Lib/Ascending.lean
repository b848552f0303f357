import Mathlib.Data.List.Pairwise

/-!
# The first free number above a bound

`firstFree a l` runs once through `l` and moves `a` past every element it meets.
On an ascending list this one pass finds the least number from `a` upwards that
is not in the list, which is what first-fit and next-fit searches rely on.
-/

namespace PicoHost.Ascending

/-- One pass over `l`: step over an element equal to the candidate. -/
def firstFree : Nat → List Nat → Nat
  | a, [] => a
  | a, x :: l => if x = a then firstFree (a + 1) l else firstFree a l

theorem le_firstFree (a : Nat) (l : List Nat) : a ≤ firstFree a l := by
  induction l generalizing a with
  | nil => exact Nat.le_refl a
  | cons x l ih =>
    rw [firstFree]
    split
    · exact Nat.le_of_succ_le (ih (a + 1))
    · exact ih a

/-- A candidate below the whole list is free. -/
theorem firstFree_of_lt {a : Nat} {l : List Nat} (h : ∀ x ∈ l, a < x) :
    firstFree a l = a := by
  induction l with
  | nil => rfl
  | cons x l ih =>
    have hx : a < x := h x (List.mem_cons_self ..)
    rw [firstFree, if_neg (by omega)]
    exact ih fun y hy => h y (List.mem_cons_of_mem x hy)

/-- The number found is free. -/
theorem firstFree_notMem {a : Nat} {l : List Nat} (hl : l.Pairwise (· < ·)) :
    firstFree a l ∉ l := by
  induction l generalizing a with
  | nil => exact List.not_mem_nil
  | cons x l ih =>
    obtain ⟨hx, hl⟩ := List.pairwise_cons.mp hl
    rw [firstFree]
    split
    case isTrue hxa =>
      have hle := le_firstFree (a + 1) l
      rw [List.mem_cons]
      rintro (heq | hmem)
      · omega
      · exact ih hl hmem
    case isFalse hxa =>
      rw [List.mem_cons]
      rintro (heq | hmem)
      · -- the candidate moved up to `x`, though all later elements are above `x`
        by_cases hlt : a < x
        · rw [firstFree_of_lt fun y hy => Nat.lt_trans hlt (hx y hy)] at heq
          omega
        · have := le_firstFree a l
          omega
      · exact ih hl hmem

/-- Everything passed over is taken. -/
theorem mem_of_lt_firstFree {a b : Nat} {l : List Nat} (hab : a ≤ b)
    (hb : b < firstFree a l) : b ∈ l := by
  induction l generalizing a with
  | nil => exact absurd hb (Nat.not_lt.mpr hab)
  | cons x l ih =>
    rw [firstFree] at hb
    split at hb
    case isTrue hxa =>
      by_cases hb' : b = x
      · exact hb' ▸ List.mem_cons_self ..
      · exact List.mem_cons_of_mem x (ih (a := a + 1) (by omega) hb)
    case isFalse hxa => exact List.mem_cons_of_mem x (ih hab hb)

/-- The search stops at the latest at a bound on the list. -/
theorem firstFree_le {a m : Nat} {l : List Nat} (ha : a ≤ m) (hl : ∀ x ∈ l, x < m) :
    firstFree a l ≤ m := by
  by_contra h
  have hm : m ∈ l := mem_of_lt_firstFree ha (by omega)
  exact Nat.lt_irrefl m (hl m hm)

end PicoHost.Ascending
