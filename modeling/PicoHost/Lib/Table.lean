import Mathlib.Data.List.Basic
import Mathlib.Data.List.Perm.Basic
import Mathlib.Data.List.Pairwise
import Mathlib.Data.List.Forall2

/-!
# Tables

A table is a list whose entries are replaced in place. Replacing one splits the list
around it (`exists_split`). What the entries hold all together changes by what the one
entry takes in and gives away (`perm_replace`). Two tables whose entries belong together
are related by `List.Forall₂`.
-/

namespace PicoHost.Table

universe u v

variable {α : Type u} {β : Type v}

/-- The list around an entry, without it, and with another one in its place. -/
theorem exists_split {l : List α} {i : Nat} {x : α} (h : l[i]? = some x) :
    ∃ pre post, l = pre ++ x :: post ∧ l.eraseIdx i = pre ++ post ∧
      ∀ y, l.set i y = pre ++ y :: post := by
  obtain ⟨hi, rfl⟩ := List.getElem?_eq_some_iff.mp h
  refine ⟨l.take i, l.drop (i + 1), ?_, List.eraseIdx_eq_take_drop_succ .., fun y => ?_⟩
  · rw [← List.drop_eq_getElem_cons hi, List.take_append_drop]
  · exact List.set_eq_take_append_cons_drop.trans (if_pos hi)

/-- At most one entry has the property. -/
theorem filter_length_le_one {p : α → Bool} {l : List α} :
    (l.filter p).length ≤ 1 ↔ l.Pairwise fun a b => ¬ (p a = true ∧ p b = true) := by
  induction l with
  | nil => simp
  | cons x rest ih =>
    rw [List.pairwise_cons, ← ih]
    by_cases hx : p x = true
    · rw [List.filter_cons_of_pos hx, List.length_cons, Nat.succ_le_succ_iff, Nat.le_zero,
        List.length_eq_zero_iff, List.filter_eq_nil_iff]
      constructor
      · intro h
        refine ⟨fun y hy hxy => h y hy hxy.2, ?_⟩
        rw [List.filter_eq_nil_iff.mpr h]
        exact Nat.zero_le 1
      · exact fun h y hy hpy => h.1 y hy ⟨hx, hpy⟩
    · rw [List.filter_cons_of_neg hx]
      exact ⟨fun h => ⟨fun y _ hxy => hx hxy.1, h⟩, fun h => h.2⟩

/-- One entry gives away `out` and takes in `new`: so does the table. -/
theorem perm_replace [DecidableEq β] {f : α → List β} {pre post : List α} {x y : α}
    {done all out new : List β} (h : (done ++ (pre ++ x :: post).flatMap f).Perm all)
    (hxy : (out ++ f y).Perm (new ++ f x)) :
    ((out ++ done) ++ (pre ++ y :: post).flatMap f).Perm (new ++ all) := by
  rw [List.perm_iff_count] at h hxy ⊢
  intro b
  have hb := h b
  have hxyb := hxy b
  simp only [List.flatMap_append, List.flatMap_cons, List.count_append] at hb hxyb ⊢
  omega

/-! ## Two tables side by side -/

section Forall₂

variable {R : α → β → Prop} {l : List α} {m : List β}

theorem forall₂_getElem? (h : List.Forall₂ R l m) {i : Nat} {x : α} (hx : l[i]? = some x) :
    ∃ y, m[i]? = some y ∧ R x y := by
  induction h generalizing i with
  | nil => cases hx
  | cons hR _ ih =>
    cases i with
    | zero =>
      cases hx
      exact ⟨_, rfl, hR⟩
    | succ i => exact ih hx

/-- An entry is replaced in both tables. -/
theorem forall₂_set (h : List.Forall₂ R l m) (i : Nat) {x : α} {y : β} (hxy : R x y) :
    List.Forall₂ R (l.set i x) (m.set i y) := by
  induction h generalizing i with
  | nil => exact .nil
  | cons hR hrest ih =>
    cases i with
    | zero => exact .cons hxy hrest
    | succ i => exact .cons hR (ih i)

/-- An entry is replaced in one of them. -/
theorem forall₂_set_left (h : List.Forall₂ R l m) {i : Nat} {x : α} {y : β} (hy : m[i]? = some y)
    (hxy : R x y) : List.Forall₂ R (l.set i x) m := by
  have hset := forall₂_set h i hxy
  obtain ⟨hi, rfl⟩ := List.getElem?_eq_some_iff.mp hy
  rwa [List.set_getElem_self] at hset

/-- The entries of one table change, each to one that still belongs to its partner. -/
theorem forall₂_change {S : α → α → Prop} (h : List.Forall₂ R l m) {l' : List α}
    (hl : List.Forall₂ S l l') (hRS : ∀ x x' y, R x y → S x x' → R x' y) :
    List.Forall₂ R l' m := by
  induction hl generalizing m with
  | nil => exact h
  | cons hS _ ih =>
    cases h with
    | cons hR hrest => exact .cons (hRS _ _ _ hR hS) (ih hrest)

end Forall₂

end PicoHost.Table
