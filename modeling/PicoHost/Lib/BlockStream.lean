import Mathlib.Data.List.Basic
import Mathlib.Algebra.Group.Nat.Defs

/-!
# Functions that read a message block by block

A state takes blocks of `n` elements. A message is read up to its last whole block, and what is
left waits for more (`absorb`, `residue`): it is read together with what comes next, the next piece
of the message or its padding (`absorb_append`).
-/

namespace PicoHost.BlockStream

universe u v

variable {α : Type u} {σ : Type v}

/-- Read `k` blocks. -/
def absorbBlocks (n : Nat) (compress : σ → List α → σ) : Nat → σ → List α → σ
  | 0, s, _ => s
  | k + 1, s, l => absorbBlocks n compress k (compress s (l.take n)) (l.drop n)

/-- Read all whole blocks. -/
def absorb (n : Nat) (compress : σ → List α → σ) (s : σ) (l : List α) : σ :=
  absorbBlocks n compress (l.length / n) s l

/-- What is left behind the last whole block -/
def residue (n : Nat) (l : List α) : List α := l.drop (n * (l.length / n))

variable {n : Nat} {compress : σ → List α → σ} {s : σ} {l m : List α}

/-- Blocks are absorbed one after the other. -/
theorem absorbBlocks_add (j k : Nat) (s : σ) (l : List α) :
    absorbBlocks n compress (j + k) s l =
      absorbBlocks n compress k (absorbBlocks n compress j s l) (l.drop (n * j)) := by
  induction j generalizing s l with
  | zero => rw [Nat.zero_add, Nat.mul_zero, List.drop_zero]; rfl
  | succ j ih =>
    rw [Nat.add_right_comm, absorbBlocks, ih, absorbBlocks, List.drop_drop, Nat.mul_succ,
      Nat.add_comm n]

/-- Blocks that are there are read the same when more follows. -/
theorem absorbBlocks_append {k : Nat} (h : n * k ≤ l.length) :
    absorbBlocks n compress k s (l ++ m) = absorbBlocks n compress k s l := by
  induction k generalizing s l with
  | zero => rfl
  | succ k ih =>
    rw [Nat.mul_succ] at h
    rw [absorbBlocks, absorbBlocks, List.take_append_of_le_length (by omega),
      List.drop_append_of_le_length (by omega), ih]
    rw [List.length_drop]
    omega

/-- What is left behind the last whole block is shorter than a block. -/
theorem residue_length (hn : 0 < n) (l : List α) : (residue n l).length = l.length % n := by
  rw [residue, List.length_drop]
  have hdiv := Nat.div_add_mod l.length n
  have hlt := Nat.mod_lt l.length hn
  omega

/-- A list shorter than a block is left as it is. -/
theorem residue_of_lt (h : l.length < n) : residue n l = l := by
  rw [residue, Nat.div_eq_of_lt h, Nat.mul_zero, List.drop_zero]

/-- A list shorter than a block absorbs nothing. -/
theorem absorb_of_lt (h : l.length < n) : absorb n compress s l = s := by
  rw [absorb, Nat.div_eq_of_lt h]
  rfl

/-- What is left is read together with what follows. -/
theorem absorb_append (hn : 0 < n) :
    absorb n compress s (l ++ m) = absorb n compress (absorb n compress s l) (residue n l ++ m) := by
  have hle : n * (l.length / n) ≤ l.length := Nat.mul_div_le ..
  have hlen : (l ++ m).length / n = l.length / n + (residue n l ++ m).length / n := by
    rw [List.length_append, List.length_append, residue_length hn]
    conv_lhs => rw [← Nat.div_add_mod l.length n, Nat.add_assoc, Nat.mul_add_div hn]
  rw [absorb, hlen, absorbBlocks_add, absorbBlocks_append hle, List.drop_append_of_le_length hle]
  rfl

/-- What is left of two lists -/
theorem residue_append (hn : 0 < n) : residue n (l ++ m) = residue n (residue n l ++ m) := by
  have hle : n * (l.length / n) ≤ l.length := Nat.mul_div_le ..
  have hlen : (l ++ m).length / n = l.length / n + (residue n l ++ m).length / n := by
    rw [List.length_append, List.length_append, residue_length hn]
    conv_lhs => rw [← Nat.div_add_mod l.length n, Nat.add_assoc, Nat.mul_add_div hn]
  rw [residue, hlen, Nat.mul_add, ← List.drop_drop, List.drop_append_of_le_length hle]
  rfl

/-- A first block -/
theorem absorb_cons_block (h : l.length = n) (hn : 0 < n) :
    absorb n compress s (l ++ m) = absorb n compress (compress s l) m := by
  have hres : residue n l = [] := by
    rw [← List.length_eq_zero_iff, residue_length hn, h, Nat.mod_self]
  rw [absorb_append hn, hres, List.nil_append]
  congr 1
  rw [absorb, h, Nat.div_self hn, absorbBlocks, absorbBlocks, ← h, List.take_length]

/-- A whole block in front leaves nothing. -/
theorem residue_cons_block (h : l.length = n) (hn : 0 < n) :
    residue n (l ++ m) = residue n m := by
  have hres : residue n l = [] := by
    rw [← List.length_eq_zero_iff, residue_length hn, h, Nat.mod_self]
  rw [residue_append hn, hres, List.nil_append]

/-- One block -/
theorem absorb_block (h : l.length = n) (hn : 0 < n) :
    absorb n compress s l = compress s l := by
  have hnil : absorb n compress s (l ++ []) = absorb n compress (compress s l) [] :=
    absorb_cons_block h hn
  have hempty : ([] : List α).length < n := hn
  rwa [List.append_nil, absorb_of_lt hempty] at hnil

end PicoHost.BlockStream
