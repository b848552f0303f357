import PicoHost.Lib.Heap
import Mathlib.Data.List.Pairwise

/-!
# Chains: singly linked lists of blocks

A chain is a list of nodes, each with a block of its own, `self`. `cells` adds the
`next` field to every node, and `read` follows a pointer. A chain that only grows at
its end is `Ascending`: the nodes are in the order of their allocation. Then the
nodes that a walk has still to visit are told by serial numbers alone, `From`.
-/

namespace PicoHost.Chain

universe u

variable {α : Type u} {self : α → Block} {l l' : List α}

/-- Two elements of a list stand in one order or the other. -/
theorem rel_or_rel {R : α → α → Prop} (h : l.Pairwise R) {x y : α} (hx : x ∈ l) (hy : y ∈ l)
    (hne : x ≠ y) : R x y ∨ R y x := by
  have hsymm : Std.Symm fun a b => R a b ∨ R b a := ⟨fun _ _ => Or.symm⟩
  exact (h.imp (S := fun a b => R a b ∨ R b a) Or.inl).forall hx hy hne

/-! ## Ascending chains -/

/-- Nodes in the order of their allocation. -/
def Ascending (self : α → Block) (l : List α) : Prop :=
  l.Pairwise fun a b => (self a).serial < (self b).serial

/-- A list ascends if the serial numbers of its blocks do. -/
theorem ascending_iff :
    Ascending self l ↔ (l.map self).Pairwise fun a b => a.serial < b.serial :=
  (List.pairwise_map (R := fun a b : Block => a.serial < b.serial)).symm

/-- Only the blocks matter. -/
theorem Ascending.congr (h : Ascending self l) (hself : l'.map self = l.map self) :
    Ascending self l' := by
  rw [ascending_iff] at h ⊢
  rwa [hself]

/-- A new element goes to the end of the list. -/
theorem Ascending.append_new {n : Nat} {x : α} (h : Ascending self l)
    (hlt : ∀ y ∈ l, (self y).serial < n) (hx : n ≤ (self x).serial) :
    Ascending self (l ++ [x]) := by
  refine List.pairwise_append.mpr ⟨h, List.pairwise_singleton _ x, fun y hy z hz => ?_⟩
  rw [List.mem_singleton.mp hz]
  exact Nat.lt_of_lt_of_le (hlt y hy) hx

/-- The block tells the node. -/
theorem Ascending.inj (h : Ascending self l) {x y : α} (hx : x ∈ l) (hy : y ∈ l)
    (heq : self x = self y) : x = y := by
  have hnd : (l.map self).Nodup := (ascending_iff.mp h).imp fun hlt heq =>
    Nat.ne_of_lt hlt (congrArg Block.serial heq)
  exact List.inj_on_of_nodup_map hnd hx hy heq

/-! ## The next fields -/

/-- The nodes of a chain, each with its `next` field. -/
def cells (self : α → Block) : List α → List (α × Option Block)
  | [] => []
  | it :: rest => (it, rest.head?.map self) :: cells self rest

/-- Read the node at `p`. `none`: it is not there any more. -/
def read (self : α → Block) (memory : List (α × Option Block)) (p : Block) :
    Option (α × Option Block) :=
  memory.find? fun cell => decide (self cell.1 = p)

/-- A cell holds an element of the list. -/
theorem mem_of_mem_cells {it : α} {next : Option Block} (h : (it, next) ∈ cells self l) :
    it ∈ l := by
  induction l with
  | nil => cases h
  | cons x rest ih =>
    rcases List.mem_cons.mp h with h | h
    · cases h
      exact List.mem_cons_self ..
    · exact List.mem_cons_of_mem x (ih h)

/-- Every element has its cell. -/
theorem exists_cell (self : α → Block) {it : α} (h : it ∈ l) : ∃ next, (it, next) ∈ cells self l := by
  induction l with
  | nil => cases h
  | cons x rest ih =>
    rcases List.mem_cons.mp h with rfl | h
    · exact ⟨_, List.mem_cons_self ..⟩
    · obtain ⟨next, hnext⟩ := ih h
      exact ⟨next, List.mem_cons_of_mem _ hnext⟩

section Read

variable {memory : List (α × Option Block)} {p : Block} {it : α} {next : Option Block}

/-- A read returns the cell at its address. -/
theorem read_some (h : read self memory p = some (it, next)) :
    (it, next) ∈ memory ∧ self it = p := by
  have hfound := List.find?_some h
  exact ⟨List.mem_of_find?_eq_some h, of_decide_eq_true hfound⟩

/-- A pointer to a node that is there can be read. -/
theorem read_of_mem (h : (it, next) ∈ memory) :
    ∃ it' next', read self memory (self it) = some (it', next') := by
  have hsome : (read self memory (self it)).isSome := by
    unfold read
    rw [List.find?_isSome]
    exact ⟨_, h, decide_eq_true rfl⟩
  obtain ⟨cell, hcell⟩ := Option.isSome_iff_exists.mp hsome
  exact ⟨cell.1, cell.2, hcell⟩

end Read

/-! ## The nodes from a pointer on -/

/-- `b` is the node that `p` points to or a later one. -/
def From : Option Block → Option Block → Prop
  | some p, some b => p.serial ≤ b.serial
  | _, _ => False

instance : ∀ p b, Decidable (From p b)
  | some p, some b => inferInstanceAs (Decidable (p.serial ≤ b.serial))
  | some _, none => inferInstanceAs (Decidable False)
  | none, some _ => inferInstanceAs (Decidable False)
  | none, none => inferInstanceAs (Decidable False)

@[simp] theorem not_from_none {b : Option Block} : ¬ From none b := by
  cases b <;> exact id

@[simp] theorem not_from_of_none {p : Option Block} : ¬ From p none := by
  cases p <;> exact id

/-- A place is from itself on. -/
theorem from_of_eq {b : Block} {p : Option Block} (h : p = some b) : From (some b) p := by
  rw [h]
  exact Nat.le_refl _

/-- What is from somewhere on is somewhere. -/
theorem exists_of_from {p b : Option Block} (h : From p b) : ∃ c, b = some c := by
  cases b with
  | none => exact absurd h not_from_of_none
  | some c => exact ⟨c, rfl⟩

section From

variable {it x : α} {next : Option Block}

/-- The whole chain is from its head on. -/
theorem Ascending.from_head (h : Ascending self l) (hx : x ∈ l) :
    From (l.head?.map self) (some (self x)) := by
  cases l with
  | nil => cases hx
  | cons y rest =>
    rcases List.mem_cons.mp hx with rfl | hx
    · exact Nat.le_refl _
    · exact Nat.le_of_lt ((List.pairwise_cons.mp h).1 x hx)

/-- What the next field of a node points to is later. -/
theorem Ascending.next_lt (h : Ascending self l) (hc : (it, next) ∈ cells self l) {b : Block}
    (hb : next = some b) : (self it).serial < b.serial ∧ ∃ y ∈ l, self y = b := by
  induction l with
  | nil => cases hc
  | cons y rest ih =>
    obtain ⟨hy, hrest⟩ := List.pairwise_cons.mp h
    rcases List.mem_cons.mp hc with hc | hc
    · cases hc
      obtain ⟨z, hz, rfl⟩ := Option.map_eq_some_iff.mp hb
      have hmem := List.mem_of_mem_head? hz
      exact ⟨hy z hmem, z, List.mem_cons_of_mem _ hmem, rfl⟩
    · obtain ⟨hlt, z, hz, rfl⟩ := ih hrest hc
      exact ⟨hlt, z, List.mem_cons_of_mem y hz, rfl⟩

/-- From a node on: the node, and from its next field on. -/
theorem Ascending.from_next (h : Ascending self l) (hc : (it, next) ∈ cells self l)
    (hx : x ∈ l) :
    From (some (self it)) (some (self x)) ↔ x = it ∨ From next (some (self x)) := by
  induction l with
  | nil => cases hc
  | cons y rest ih =>
    obtain ⟨hy, hrest⟩ := List.pairwise_cons.mp h
    rcases List.mem_cons.mp hc with hc' | hc'
    · cases hc'
      rcases List.mem_cons.mp hx with rfl | hx
      · exact ⟨fun _ => .inl rfl, fun _ => Nat.le_refl _⟩
      · exact ⟨fun _ => .inr (Ascending.from_head hrest hx), fun _ => Nat.le_of_lt (hy x hx)⟩
    · rcases List.mem_cons.mp hx with rfl | hx
      · -- a node before it
        have hlt := hy it (mem_of_mem_cells hc')
        refine ⟨fun hle => absurd hle (Nat.not_le_of_lt hlt), ?_⟩
        rintro (rfl | hfrom)
        · exact absurd hlt (Nat.lt_irrefl _)
        · cases hnext : next with
          | none =>
            rw [hnext] at hfrom
            exact absurd hfrom not_from_none
          | some b =>
            rw [hnext] at hfrom
            have := (Ascending.next_lt hrest hc' hnext).1
            exact absurd (Nat.lt_trans hlt this) (Nat.not_lt_of_le hfrom)
      · exact ih hrest hc' hx

/-- The node itself is not from its next field on. -/
theorem Ascending.not_from_next (h : Ascending self l) (hc : (it, next) ∈ cells self l) :
    ¬ From next (some (self it)) := by
  cases hnext : next with
  | none => exact not_from_none
  | some b => exact Nat.not_le_of_lt (h.next_lt hc hnext).1

end From

end PicoHost.Chain
