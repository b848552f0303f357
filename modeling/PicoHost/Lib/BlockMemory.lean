import PicoHost.Lib.FreeList
import PicoHost.Lib.Heap
import Mathlib.Logic.Function.Basic

/-!
# Blocks with a size and bytes

A heap whose blocks have a size and contents. A pointer is a block and an offset. What lies past
the end of a block is memory too, with some content, and an access to it is recorded like any
other (`accesses`).
-/

namespace PicoHost

structure BlockMemory where
  heap : Heap
  size : Block → Nat
  byte : Block → Nat → UInt8
  accesses : List (Block × Nat)

namespace BlockMemory

/-- Nothing is allocated yet. -/
def empty : BlockMemory := ⟨Heap.empty, fun _ => 0, fun _ _ => 0, []⟩

/-- The bytes from the offset `off` on -/
def span (b : Block) (off len : Nat) : List (Block × Nat) :=
  (List.range len).map fun i => (b, off + i)

/-- The bytes of a span -/
theorem mem_span {b c : Block} {off len i : Nat} :
    (c, i) ∈ span b off len ↔ c = b ∧ off ≤ i ∧ i < off + len := by
  unfold span
  rw [List.mem_map]
  constructor
  · rintro ⟨k, hk, heq⟩
    have hk := List.mem_range.mp hk
    cases heq
    exact ⟨rfl, by omega, by omega⟩
  · rintro ⟨rfl, hle, hlt⟩
    refine ⟨i - off, List.mem_range.mpr (by omega), ?_⟩
    rw [Nat.add_sub_cancel' hle]

section

variable (m : BlockMemory)

/-- A request for `n` bytes; the allocator sees how many. -/
def malloc (A : Nat → Allocator) (n : Nat) : Option Block × BlockMemory :=
  match (A n).calloc m.heap with
  | (none, h) => (none, { m with heap := h })
  | (some b, h) => (some b, { m with heap := h, size := Function.update m.size b n })

/-- After a request that is refused -/
def refuse : BlockMemory := { m with heap := { m.heap with serial := m.heap.serial + 1 } }

/-- After a request for `n` bytes that is granted at the address `a` -/
def grant (a n : Nat) : BlockMemory :=
  { m with heap := (m.heap.malloc a).2, size := Function.update m.size (m.heap.malloc a).1 n }

def free (b : Block) : BlockMemory := { m with heap := m.heap.free b }

/-- Store `f 0`, `f 1`, … from the offset `off` on. -/
def write (b : Block) (off len : Nat) (f : Nat → UInt8) : BlockMemory :=
  { m with
    byte := fun c i => if c = b ∧ off ≤ i ∧ i < off + len then f (i - off) else m.byte c i
    accesses := m.accesses ++ span b off len }

def memset (b : Block) (v : UInt8) (len : Nat) : BlockMemory := m.write b 0 len fun _ => v

def memcpy (dest src : Block) (len : Nat) : BlockMemory :=
  { m with accesses := m.accesses ++ span src 0 len }.write dest 0 len (m.byte src)

end

variable {m : BlockMemory} {A : Nat → Allocator} {n : Nat}

/-- What a request can do: it is refused, or it returns a block of that size. -/
theorem malloc_cases (m : BlockMemory) (A : Nat → Allocator) (n : Nat) :
    (A n).place m.heap = none ∧ m.malloc A n = (none, m.refuse) ∨
      ∃ a, (A n).place m.heap = some a ∧
        m.malloc A n = (some (m.heap.malloc a).1, m.grant a n) := by
  unfold malloc Allocator.calloc
  cases h : (A n).place m.heap with
  | none => exact .inl ⟨rfl, rfl⟩
  | some a => exact .inr ⟨a, rfl, rfl⟩

@[simp] theorem grant_size (m : BlockMemory) (a n : Nat) :
    (m.grant a n).size (m.heap.malloc a).1 = n := Function.update_self ..

section Write

variable {b c : Block} {off len i : Nat} {f : Nat → UInt8}

/-- A byte that was written -/
theorem write_byte (h : i < len) : (m.write b off len f).byte b (off + i) = f i := by
  show (if _ then _ else _) = _
  rw [if_pos ⟨rfl, by omega, by omega⟩, Nat.add_sub_cancel_left]

/-- The other bytes stay. -/
theorem write_byte_of_not (h : ¬ (c = b ∧ off ≤ i ∧ i < off + len)) :
    (m.write b off len f).byte c i = m.byte c i := if_neg h

/-- After `memset` the bytes are the value. -/
theorem memset_byte {v : UInt8} (h : i < len) : (m.memset b v len).byte b i = v := by
  have hwrite : (m.memset b v len).byte b (0 + i) = v := write_byte h
  rwa [Nat.zero_add] at hwrite

/-- After `memcpy` the bytes are those of the source. -/
theorem memcpy_byte (h : i < len) : (m.memcpy b c len).byte b i = m.byte c i := by
  have hwrite : (m.memcpy b c len).byte b (0 + i) = m.byte c i := write_byte h
  rwa [Nat.zero_add] at hwrite

/-- `memcpy` reads its source and writes its destination. -/
theorem memcpy_accesses : (m.memcpy b c len).accesses =
    m.accesses ++ (span c 0 len ++ span b 0 len) := List.append_assoc ..

/-- The word at the offset `off`, little-endian -/
def loadWord (m : BlockMemory) (b : Block) (off : Nat) : UInt32 :=
  .ofNat (FreeList.load (m.byte b) off)

def storeWord (m : BlockMemory) (b : Block) (off : Nat) (v : UInt32) : BlockMemory :=
  m.write b off FreeList.ptrSize fun i => .ofNat (v.toNat / 256 ^ i)

/-- A word that was stored is read back. -/
theorem loadWord_storeWord {v : UInt32} : (m.storeWord b off v).loadWord b off = v := by
  have hbytes : FreeList.load ((m.storeWord b off v).byte b) off =
      FreeList.load (FreeList.store (m.byte b) off v.toNat) off := by
    refine FreeList.load_congr fun i hi => ?_
    rw [FreeList.store_byte _ _ _ _ hi]
    exact write_byte hi
  rw [loadWord, hbytes, FreeList.load_store _ v.toNat_lt, UInt32.ofNat_toNat]

/-- Words do not overlap. -/
theorem loadWord_storeWord_of_le {v : UInt32} {i : Nat} (h : i + FreeList.ptrSize ≤ off) :
    (m.storeWord b off v).loadWord b i = m.loadWord b i := by
  refine congrArg UInt32.ofNat (FreeList.load_congr fun k hk => write_byte_of_not ?_)
  omega

end Write

end BlockMemory

end PicoHost
