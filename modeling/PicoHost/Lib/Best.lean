import Mathlib.Data.Set.Insert
import Mathlib.Order.Defs.LinearOrder

/-!
# A best element, if there is one

`IsBest f s o` says that `o` is an element of `s` at which `f` is greatest, or `none` because `s`
is empty. Such an `o` can be kept while elements come and go, and it can be found by a scan over
a list.
-/

namespace PicoHost.Best

universe u v

variable {α : Type u} {β : Type v} [LinearOrder β]

/-- An element of `s` where `f` is greatest; `none` if there is no element. -/
def IsBest (f : α → β) (s : Set α) : Option α → Prop
  | none => s = ∅
  | some a => a ∈ s ∧ ∀ b ∈ s, f b ≤ f a

variable {f g : α → β} {s t : Set α} {o : Option α} {x : α}

/-- Only the values on the set matter. -/
theorem IsBest.congr (h : IsBest f s o) (hst : t = s) (hfg : ∀ a ∈ s, g a = f a) :
    IsBest g t o := by
  subst hst
  cases o with
  | none => exact h
  | some a =>
    refine ⟨h.1, fun b hb => ?_⟩
    rw [hfg a h.1, hfg b hb]
    exact h.2 b hb

/-- The best element is one of the set. -/
theorem IsBest.mem {a : α} (h : IsBest f s (some a)) : a ∈ s := h.1

/-- An element that comes in and is not worse than the best one becomes the best one. -/
theorem IsBest.insert_self (h : IsBest f s o) (hx : ∀ a ∈ o, f a ≤ f x) :
    IsBest f (insert x s) (some x) := by
  refine ⟨Set.mem_insert x s, fun b hb => ?_⟩
  rcases Set.mem_insert_iff.mp hb with rfl | hb
  · exact le_refl _
  · cases o with
    | none => exact absurd hb (h ▸ Set.notMem_empty b)
    | some a => exact le_trans (h.2 b hb) (hx a rfl)

/-- One that is not better changes nothing. -/
theorem IsBest.insert_le {a : α} (h : IsBest f s (some a)) (hx : f x ≤ f a) :
    IsBest f (insert x s) (some a) := by
  refine ⟨Set.mem_insert_of_mem x h.1, fun b hb => ?_⟩
  rcases Set.mem_insert_iff.mp hb with rfl | hb
  · exact hx
  · exact h.2 b hb

/-- The best one stays the best when another one goes. -/
theorem IsBest.diff (h : IsBest f s o) (hx : o ≠ some x) : IsBest f (s \ {x}) o := by
  cases o with
  | none =>
    have hs : s = ∅ := h
    exact Set.eq_empty_of_forall_notMem fun y hy => Set.notMem_empty y (hs ▸ hy.1)
  | some a => exact ⟨⟨h.1, fun ha => hx (congrArg some ha)⟩, fun b hb => h.2 b hb.1⟩

/-! ## The scan -/

/-- One turn of a scan for the best element that meets `p` -/
def scan (p : α → Bool) (f : α → β) (o : Option α) (x : α) : Option α :=
  if p x then
    match o with
    | none => some x
    | some a => if f a < f x then some x else some a
  else o

variable {p : α → Bool}

/-- One element more is compared with the best so far. -/
theorem IsBest.scan (h : IsBest f s o) (x : α) :
    IsBest f (s ∪ {y | y = x ∧ p y}) (scan p f o x) := by
  unfold Best.scan
  by_cases hx : p x
  · have hset : s ∪ {y | y = x ∧ p y} = insert x s := by
      ext y
      constructor
      · rintro (hy | ⟨rfl, -⟩)
        · exact Set.mem_insert_of_mem x hy
        · exact Set.mem_insert y s
      · intro hy
        rcases Set.mem_insert_iff.mp hy with rfl | hy
        · exact .inr ⟨rfl, hx⟩
        · exact .inl hy
    rw [if_pos hx, hset]
    cases o with
    | none => exact h.insert_self nofun
    | some a =>
      dsimp only
      split
      · rename_i hlt
        refine h.insert_self fun b hb => ?_
        cases hb
        exact le_of_lt hlt
      · rename_i hlt
        exact h.insert_le (not_lt.mp hlt)
  · have hset : s ∪ {y | y = x ∧ p y} = s := by
      ext y
      constructor
      · rintro (hy | ⟨rfl, hy⟩)
        · exact hy
        · exact absurd hy hx
      · exact .inl
    rw [if_neg hx, hset]
    exact h

/-- A scan over a list finds the best of the elements that meet the condition. -/
theorem isBest_foldl_scan (p : α → Bool) (f : α → β) (l : List α) :
    IsBest f {y | y ∈ l ∧ p y} (l.foldl (scan p f) none) := by
  have hfold : ∀ (l : List α) (s : Set α) (o : Option α), IsBest f s o →
      IsBest f (s ∪ {y | y ∈ l ∧ p y}) (l.foldl (scan p f) o) := by
    intro l
    induction l with
    | nil =>
      intro s o h
      exact h.congr (by simp) fun _ _ => rfl
    | cons x l ih =>
      intro s o h
      refine (ih _ _ (h.scan x)).congr ?_ fun _ _ => rfl
      ext y
      simp only [Set.mem_union, Set.mem_ofPred_eq, List.mem_cons, or_and_right, or_assoc]
  exact (hfold l ∅ none rfl).congr (by simp) fun _ _ => rfl

end PicoHost.Best
