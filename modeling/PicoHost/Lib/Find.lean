import Mathlib.Data.List.Basic
import Mathlib.Data.List.Infix

/-!
# The first place of a pattern in a list

`find pat l i` is the first place from `i` on where `l` has `pat`. What has been found stays
found when the list gets longer, and what is found in a longer list is there already once the
shorter one reaches behind it: a search can be repeated while a stream arrives piece by piece.
-/

namespace PicoHost.Find

variable {α : Type*}

/-- `l` has `pat` at the place `j`. -/
def At (pat l : List α) (j : Nat) : Prop := pat <+: l.drop j

instance [DecidableEq α] (pat l : List α) (j : Nat) : Decidable (At pat l j) :=
  inferInstanceAs (Decidable (pat <+: l.drop j))

/-- The first place from `i` on, up to the end of the list -/
def find [DecidableEq α] (pat l : List α) (i : Nat) : Option Nat :=
  (List.range (l.length + 1)).find? fun j => decide (i ≤ j ∧ At pat l j)

/-! ## Places -/

section At

variable {pat l m : List α} {j : Nat}

/-- The pattern stands at a place if what follows begins with it. -/
theorem at_iff : At pat l j ↔ ∃ rest, l.drop j = pat ++ rest := by
  constructor
  · rintro ⟨rest, h⟩
    exact ⟨rest, h.symm⟩
  · rintro ⟨rest, h⟩
    exact ⟨rest, h.symm⟩

/-- A pattern that stands at a place ends within the list. -/
theorem At.le_length (h : At pat l j) (hpat : pat ≠ []) : j + pat.length ≤ l.length := by
  have hlen := h.length_le
  rw [List.length_drop] at hlen
  have hpos := List.length_pos_iff.mpr hpat
  omega

/-- What follows a list does not matter to what stands within it. -/
theorem at_append_of_le (m : List α) (hle : j + pat.length ≤ l.length) :
    At pat (l ++ m) j ↔ At pat l j := by
  have hdrop : (l ++ m).drop j = l.drop j ++ m := List.drop_append_of_le_length (by omega)
  show pat <+: _ ↔ pat <+: _
  rw [hdrop]
  constructor
  · intro h
    refine List.prefix_of_prefix_length_le h (List.prefix_append _ _) ?_
    rw [List.length_drop]
    omega
  · exact fun h => h.trans (List.prefix_append _ _)

/-- A pattern stays where it stands. -/
theorem At.append (h : At pat l j) (hpat : pat ≠ []) (m : List α) : At pat (l ++ m) j :=
  (at_append_of_le m (h.le_length hpat)).mpr h

/-- The pattern as the places of the list -/
theorem At.getElem? (h : At pat l j) {k : Nat} (hk : k < pat.length) :
    l[j + k]? = pat[k]? := by
  obtain ⟨rest, hrest⟩ := at_iff.mp h
  rw [← List.getElem?_drop, hrest, List.getElem?_append_left hk]

/-- What comes before shifts the place. -/
theorem at_append_right (l : List α) : At pat (l ++ m) (l.length + j) ↔ At pat m j := by
  show pat <+: _ ↔ pat <+: _
  rw [← List.drop_drop, List.drop_left]

end At

/-! ## The search -/

section Search

variable [DecidableEq α] {pat l m : List α} {i j : Nat}

/-- The first place at which the pattern stands -/
theorem find_eq_some (hpat : pat ≠ []) :
    find pat l i = some j ↔ i ≤ j ∧ At pat l j ∧ ∀ k, i ≤ k → k < j → ¬ At pat l k := by
  rw [find, List.find?_range_eq_some]
  constructor
  · rintro ⟨hj, -, hmin⟩
    obtain ⟨hij, hat⟩ := of_decide_eq_true hj
    refine ⟨hij, hat, fun k hik hkj hk => ?_⟩
    have hnot := hmin k hkj
    rw [decide_eq_true ⟨hik, hk⟩] at hnot
    cases hnot
  · rintro ⟨hij, hat, hmin⟩
    refine ⟨decide_eq_true ⟨hij, hat⟩, ?_, fun k hkj => ?_⟩
    · have hle := hat.le_length hpat
      exact List.mem_range.mpr (by omega)
    · have hk : ¬ (i ≤ k ∧ At pat l k) := fun ⟨hik, hk⟩ => hmin k hik hkj hk
      rw [decide_eq_false hk]
      rfl

/-- The pattern stands nowhere. -/
theorem find_eq_none (hpat : pat ≠ []) :
    find pat l i = none ↔ ∀ k, i ≤ k → ¬ At pat l k := by
  rw [find, List.find?_eq_none]
  constructor
  · intro h k hik hk
    have hle := hk.le_length hpat
    exact h k (List.mem_range.mpr (by omega)) (decide_eq_true ⟨hik, hk⟩)
  · intro h k _ hk
    obtain ⟨hik, hat⟩ := of_decide_eq_true hk
    exact h k hik hat

/-- What is found ends within the list. -/
theorem find_le_length (hpat : pat ≠ []) (h : find pat l i = some j) :
    j + pat.length ≤ l.length :=
  ((find_eq_some hpat).mp h).2.1.le_length hpat

/-- What has been found stays found. -/
theorem find_append_of_some (hpat : pat ≠ []) (h : find pat l i = some j) (m : List α) :
    find pat (l ++ m) i = some j := by
  obtain ⟨hij, hat, hmin⟩ := (find_eq_some hpat).mp h
  have hle := hat.le_length hpat
  refine (find_eq_some hpat).mpr ⟨hij, hat.append hpat m, fun k hik hkj hk => ?_⟩
  exact hmin k hik hkj ((at_append_of_le m (by omega)).mp hk)

/-- What is found in a longer list is found in the shorter one once that reaches behind it. -/
theorem find_of_append (hpat : pat ≠ []) (h : find pat (l ++ m) i = some j)
    (hle : j + pat.length ≤ l.length) : find pat l i = some j := by
  obtain ⟨hij, hat, hmin⟩ := (find_eq_some hpat).mp h
  refine (find_eq_some hpat).mpr ⟨hij, (at_append_of_le m hle).mp hat, fun k hik hkj hk => ?_⟩
  exact hmin k hik hkj (hk.append hpat m)

/-- Where the pattern does not begin, the search goes on behind. -/
theorem find_skip (hpat : pat ≠ []) (h : ∀ k < l.length, ¬ At pat (l ++ m) k) :
    find pat (l ++ m) 0 = (find pat m 0).map (l.length + ·) := by
  cases hfind : find pat m 0 with
  | none =>
    refine (find_eq_none hpat).mpr fun k _ hk => ?_
    by_cases hlt : k < l.length
    · exact h k hlt hk
    · obtain ⟨i, rfl⟩ := Nat.exists_eq_add_of_le (Nat.le_of_not_lt hlt)
      exact (find_eq_none hpat).mp hfind i (Nat.zero_le _) ((at_append_right l).mp hk)
  | some j =>
    obtain ⟨-, hat, hmin⟩ := (find_eq_some hpat).mp hfind
    refine (find_eq_some hpat).mpr ⟨Nat.zero_le _, (at_append_right l).mpr hat, fun k _ hk hkat => ?_⟩
    by_cases hlt : k < l.length
    · exact h k hlt hkat
    · obtain ⟨i, rfl⟩ := Nat.exists_eq_add_of_le (Nat.le_of_not_lt hlt)
      exact hmin i (Nat.zero_le _) (Nat.lt_of_add_lt_add_left hk) ((at_append_right l).mp hkat)

end Search

end PicoHost.Find
