import Mathlib.Data.List.Basic
import Mathlib.Tactic.Basic

/-!
# Regions of a memory

A memory is a function of the offset. `store` writes a list from an offset on, `load` reads one;
`storeAll` makes several writes in order, of which the last one to a place counts.
-/

namespace PicoHost.Region

variable {α : Type*}

def store (m : Nat → α) (off : Nat) (l : List α) : Nat → α := fun i =>
  if off ≤ i then l.getD (i - off) (m i) else m i

def load (m : Nat → α) (off len : Nat) : List α := (List.range len).map fun i => m (off + i)

def storeAll (m : Nat → α) (stores : List (Nat × List α)) : Nat → α :=
  stores.foldl (fun m s => store m s.1 s.2) m

/-- The regions do not overlap. -/
def Apart (p n q k : Nat) : Prop := p + n ≤ q ∨ q + k ≤ p

instance (p n q k : Nat) : Decidable (Apart p n q k) :=
  inferInstanceAs (Decidable (p + n ≤ q ∨ q + k ≤ p))

section

variable {m : Nat → α} {off p n : Nat} {l : List α}

@[simp] theorem load_length : (load m off n).length = n := by simp [load]

/-- A load depends on the bytes that it reads. -/
theorem load_congr {m' : Nat → α} (h : ∀ i < n, m' (off + i) = m (off + i)) :
    load m' off n = load m off n := by
  refine List.map_congr_left ?_
  intro i hi
  exact h i (List.mem_range.mp hi)

/-- A load in two parts -/
theorem load_append (k : Nat) : load m off (n + k) = load m off n ++ load m (off + n) k := by
  simp only [load, List.range_add, List.map_append, List.map_map]
  congr 1
  refine List.map_congr_left ?_
  intro i hi
  simp [Nat.add_assoc]

/-- A piece of what is loaded -/
theorem load_slice {len : Nat} (h : p + len ≤ n) : ((load m off n).drop p).take len =
    load m (off + p) len := by
  obtain ⟨k, rfl⟩ := Nat.exists_eq_add_of_le h
  rw [load_append, load_append, List.append_assoc, List.drop_left' load_length,
    List.take_left' load_length]

/-- What was stored is read back. -/
theorem load_store_self : load (store m off l) off l.length = l := by
  refine List.ext_getElem load_length ?_
  intro i hi hi'
  simp [load, store, hi']

/-- A store apart from a load does not matter to it. -/
theorem load_store_of_apart (h : Apart p n off l.length) :
    load (store m off l) p n = load m p n := by
  refine load_congr ?_
  intro i hi
  show (if off ≤ p + i then _ else _) = m (p + i)
  split
  · rw [List.getD_eq_getElem?_getD, List.getElem?_eq_none]
    · rfl
    · rcases h with h | h <;> omega
  · rfl

/-! ## Several writes -/

variable {stores : List (Nat × List α)}

/-- What no write touches stays. -/
theorem load_storeAll_of_apart (h : ∀ s ∈ stores, Apart p n s.1 s.2.length) :
    load (storeAll m stores) p n = load m p n := by
  induction stores generalizing m with
  | nil => rfl
  | cons s stores ih =>
    have hrest := @ih (store m s.1 s.2) fun t ht => h t (List.mem_cons_of_mem s ht)
    exact hrest.trans (load_store_of_apart (h s (List.mem_cons_self ..)))

/-- What is written last stays. -/
theorem load_storeAll_last (pre : List (Nat × List α)) (h : ∀ s ∈ stores,
    Apart off l.length s.1 s.2.length) :
    load (storeAll m (pre ++ (off, l) :: stores)) off l.length = l := by
  rw [storeAll, List.foldl_append, List.foldl_cons]
  exact (load_storeAll_of_apart h).trans load_store_self

end

end PicoHost.Region
