import Mathlib.Algebra.Group.Nat.Defs
import Mathlib.Data.List.Nodup
import Mathlib.Tactic.Basic

/-!
# A list threaded through memory

Byte-addressed memory with 32-bit little-endian pointers, and singly linked lists whose links
are the first word of their entries. The list is what the memory says: `IsList m head l` when
following the links from `head` visits `l` and ends at 0. Writes elsewhere keep it
(`IsList.frame`), `IsList.push` links a new entry in front, and `IsList.pop` is the read of
the first link.
-/

namespace PicoHost.FreeList

/-- The contents of the memory. -/
abbrev Memory := Nat → UInt8

/-- The bytes that a pointer takes. -/
def ptrSize : Nat := 4

/-! ## Words -/

/-- The pointer at an address. -/
def load (m : Memory) (a : Nat) : Nat :=
  (m a).toNat + 256 * (m (a + 1)).toNat + 65536 * (m (a + 2)).toNat +
    16777216 * (m (a + 3)).toNat

/-- The memory with a pointer stored at an address. -/
def store (m : Memory) (a v : Nat) : Memory := fun x =>
  if a ≤ x ∧ x < a + ptrSize then UInt8.ofNat (v / 256 ^ (x - a)) else m x

/-- The memory with `n` zeros from an address on. -/
def zero (m : Memory) (a n : Nat) : Memory := fun x =>
  if a ≤ x ∧ x < a + n then 0 else m x

/-- A store leaves what lies before it. -/
theorem store_of_lt {m : Memory} {a v x : Nat} (h : x < a) : store m a v x = m x :=
  if_neg fun hx => Nat.not_le_of_lt h hx.1

/-- A store leaves what lies behind it. -/
theorem store_of_le {m : Memory} {a v x : Nat} (h : a + ptrSize ≤ x) : store m a v x = m x :=
  if_neg fun hx => Nat.not_le_of_lt hx.2 h

/-- The bytes of a stored address -/
theorem store_byte (m : Memory) (a v i : Nat) (hi : i < ptrSize) :
    store m a v (a + i) = UInt8.ofNat (v / 256 ^ i) := by
  rw [store, if_pos ⟨Nat.le_add_right a i, Nat.add_lt_add_left hi a⟩, Nat.add_sub_cancel_left]

/-- What was stored is loaded. -/
theorem load_store (m : Memory) {a v : Nat} (hv : v < 2 ^ 32) : load (store m a v) a = v := by
  have h0 := store_byte m a v 0 (by decide)
  have h1 := store_byte m a v 1 (by decide)
  have h2 := store_byte m a v 2 (by decide)
  have h3 := store_byte m a v 3 (by decide)
  rw [Nat.add_zero] at h0
  rw [load, h0, h1, h2, h3]
  simp only [UInt8.toNat_ofNat']
  omega

/-- A load sees the four bytes only. -/
theorem load_congr {m m' : Memory} {a : Nat} (h : ∀ i < ptrSize, m' (a + i) = m (a + i)) :
    load m' a = load m a := by
  have h0 := h 0 (by decide)
  rw [Nat.add_zero] at h0
  rw [load, load, h0, h 1 (by decide), h 2 (by decide), h 3 (by decide)]

/-- Zeroed bytes are zero. -/
theorem zero_of_mem {m : Memory} {a n i : Nat} (hi : i < n) : zero m a n (a + i) = 0 :=
  if_pos ⟨Nat.le_add_right a i, Nat.add_lt_add_left hi a⟩

/-- Zeroing leaves the other bytes. -/
theorem zero_of_notMem {m : Memory} {a n x : Nat} (hx : ¬ (a ≤ x ∧ x < a + n)) :
    zero m a n x = m x :=
  if_neg hx

/-! ## Lists -/

/-- The links from `head` on visit these entries, and end. -/
def IsList (m : Memory) : Nat → List Nat → Prop
  | head, [] => head = 0
  | head, a :: l => head = a ∧ a ≠ 0 ∧ IsList m (load m a) l

instance decidableIsList (m : Memory) : ∀ head l, Decidable (IsList m head l)
  | _, [] => inferInstanceAs (Decidable (_ = _))
  | _, a :: l =>
    have := decidableIsList m (load m a) l
    inferInstanceAs (Decidable (_ ∧ _ ∧ IsList m (load m a) l))

section IsList

variable {m m' : Memory} {head : Nat} {l : List Nat}

/-- Writes outside the links keep the list. -/
theorem IsList.frame (h : IsList m head l)
    (hsame : ∀ a ∈ l, ∀ i < ptrSize, m' (a + i) = m (a + i)) : IsList m' head l := by
  induction l generalizing head with
  | nil => exact h
  | cons a l ih =>
    obtain ⟨hhead, hne, hrest⟩ := h
    refine ⟨hhead, hne, ?_⟩
    rw [load_congr (hsame a (List.mem_cons_self ..))]
    exact ih hrest fun b hb => hsame b (List.mem_cons_of_mem a hb)

/-- An empty list is a null head. -/
theorem IsList.eq_nil (h : IsList m head l) (hhead : head = 0) : l = [] := by
  cases l with
  | nil => rfl
  | cons a l =>
    obtain ⟨heq, hne, -⟩ := h
    exact absurd (heq.symm.trans hhead) hne

/-- The first entry, and the list after it. -/
theorem IsList.pop (h : IsList m head l) (hhead : head ≠ 0) :
    ∃ rest, l = head :: rest ∧ IsList m (load m head) rest := by
  cases l with
  | nil => exact absurd h hhead
  | cons a rest =>
    obtain ⟨rfl, -, hrest⟩ := h
    exact ⟨rest, rfl, hrest⟩

/-- A new entry in front, none of whose bytes is in a link. -/
theorem IsList.push (h : IsList m head l) {a : Nat} (ha : a ≠ 0) (hhead : head < 2 ^ 32)
    (hapart : ∀ b ∈ l, b + ptrSize ≤ a ∨ a + ptrSize ≤ b) :
    IsList (store m a head) a (a :: l) := by
  refine ⟨rfl, ha, ?_⟩
  rw [load_store m hhead]
  refine h.frame fun b hb i hi => ?_
  rcases hapart b hb with hle | hle
  · exact store_of_lt (by omega)
  · exact store_of_le (by omega)

end IsList

end PicoHost.FreeList
