import Mathlib.Data.List.Nodup
import Mathlib.Data.List.Perm.Subperm

/-!
# A heap of allocated blocks

A heap records which blocks are live and which have been freed, in the order of
the frees. A block is an address together with the serial number of the request
that returned it: the address may be handed out again after a free, the serial
number tells the two objects apart. A second free of one object shows as a
second entry of `freed`, a leak as a block that stays in `live`.

`Heap.Ok` is the invariant of every heap built by `malloc` and by frees of live
blocks: each object is live or freed, never both, and never freed twice.
-/

namespace PicoHost

/-- An allocated object: its address and the serial number of its request. -/
structure Block where
  addr : Nat
  serial : Nat
deriving DecidableEq, Repr

/-- The allocation state. -/
structure Heap where
  serial : Nat
  live : List Block
  freed : List Block
deriving DecidableEq, Repr

namespace Heap

/-- The heap before the first request. -/
def empty : Heap := ⟨0, [], []⟩

/-- Hand out a block at `addr`. -/
def malloc (h : Heap) (addr : Nat) : Block × Heap :=
  (⟨addr, h.serial⟩,
    { h with serial := h.serial + 1, live := ⟨addr, h.serial⟩ :: h.live })

/-- Release one block. -/
def free (h : Heap) (b : Block) : Heap :=
  { h with live := h.live.erase b, freed := b :: h.freed }

/-- Release several blocks, first to last. -/
def freeAll (h : Heap) (bs : List Block) : Heap := bs.foldl free h

/-- Every object was handed out once and freed at most once, after which it is
no longer live. -/
structure Ok (h : Heap) : Prop where
  nodup : ((h.live ++ h.freed).map Block.serial).Nodup
  lt : ∀ b ∈ h.live ++ h.freed, b.serial < h.serial

/-- The empty heap is well formed. -/
theorem ok_empty : Ok empty := ⟨List.nodup_nil, fun _ h => nomatch h⟩

/-! ## `malloc` -/

@[simp] theorem malloc_live (h : Heap) (a : Nat) :
    (h.malloc a).2.live = (h.malloc a).1 :: h.live := rfl

@[simp] theorem malloc_freed (h : Heap) (a : Nat) : (h.malloc a).2.freed = h.freed := rfl

@[simp] theorem malloc_block_serial (h : Heap) (a : Nat) :
    (h.malloc a).1.serial = h.serial := rfl

@[simp] theorem malloc_block_addr (h : Heap) (a : Nat) : (h.malloc a).1.addr = a := rfl

/-- A new block has a serial number of its own, so the heap stays well formed. -/
theorem Ok.malloc {h : Heap} (ok : h.Ok) (a : Nat) : (h.malloc a).2.Ok := by
  refine ⟨?_, ?_⟩
  · simp only [malloc_live, malloc_freed, List.cons_append, List.map_cons,
      malloc_block_serial]
    refine List.nodup_cons.mpr ⟨fun hmem => ?_, ok.nodup⟩
    obtain ⟨b, hb, hs⟩ := List.mem_map.mp hmem
    exact Nat.lt_irrefl _ (hs ▸ ok.lt b hb)
  · intro b hb
    simp only [malloc_live, malloc_freed, List.cons_append, List.mem_cons] at hb
    rcases hb with rfl | hb
    · exact Nat.lt_succ_self _
    · exact Nat.lt_succ_of_lt (ok.lt b hb)

/-- A request that is refused uses up its serial number. -/
theorem Ok.refuse {h : Heap} (ok : h.Ok) : Ok { h with serial := h.serial + 1 } :=
  ⟨ok.nodup, fun b hb => Nat.lt_succ_of_lt (ok.lt b hb)⟩

/-- A new block is none of the blocks known so far. -/
theorem Ok.malloc_notMem {h : Heap} (ok : h.Ok) (a : Nat) : (h.malloc a).1 ∉ h.live :=
  fun hb => Nat.lt_irrefl _ (ok.lt _ (List.mem_append_left _ hb))

/-- No block is live twice. -/
theorem Ok.live_nodup {h : Heap} (ok : h.Ok) : h.live.Nodup :=
  (List.nodup_append.mp (List.Nodup.of_map _ ok.nodup)).1

/-- No block was freed twice. -/
theorem Ok.freed_nodup {h : Heap} (ok : h.Ok) : h.freed.Nodup :=
  (List.nodup_append.mp (List.Nodup.of_map _ ok.nodup)).2.1

/-- A live object has not been freed. -/
theorem Ok.notMem_freed {h : Heap} (ok : h.Ok) {b : Block} (hb : b ∈ h.live) : b ∉ h.freed :=
  fun hfreed => (List.nodup_append.mp (List.Nodup.of_map _ ok.nodup)).2.2 b hb b hfreed rfl

/-! ## `free` -/

@[simp] theorem free_live (h : Heap) (b : Block) : (h.free b).live = h.live.erase b := rfl

@[simp] theorem free_freed (h : Heap) (b : Block) : (h.free b).freed = b :: h.freed := rfl

/-- Freeing a live block moves it from one list to the other. -/
theorem perm_free {h : Heap} {b : Block} (hb : b ∈ h.live) :
    ((h.free b).live ++ (h.free b).freed).Perm (h.live ++ h.freed) := by
  rw [free_live, free_freed]
  refine List.perm_middle.trans ?_
  rw [← List.cons_append]
  exact (List.perm_cons_erase hb).symm.append_right _

/-- Freeing a live block keeps the heap well formed. -/
theorem Ok.free {h : Heap} (ok : h.Ok) {b : Block} (hb : b ∈ h.live) : (h.free b).Ok where
  nodup := ((perm_free hb).map Block.serial).nodup_iff.mpr ok.nodup
  lt c hc := ok.lt c ((perm_free hb).mem_iff.mp hc)

/-- What lives after a `free` is what lived before, without the block. -/
theorem Ok.mem_free {h : Heap} (ok : h.Ok) {b c : Block} :
    c ∈ (h.free b).live ↔ c ≠ b ∧ c ∈ h.live := by
  rw [free_live]
  exact ok.live_nodup.mem_erase_iff

/-! ## `freeAll` -/

@[simp] theorem freeAll_nil (h : Heap) : h.freeAll [] = h := rfl

@[simp] theorem freeAll_cons (h : Heap) (b : Block) (bs : List Block) :
    h.freeAll (b :: bs) = (h.free b).freeAll bs := rfl

/-- Two lists are freed one after the other. -/
theorem freeAll_append (h : Heap) (bs cs : List Block) :
    h.freeAll (bs ++ cs) = (h.freeAll bs).freeAll cs := List.foldl_append

/-- Every block of the list is freed, the last of them most recently. -/
theorem freeAll_freed (h : Heap) (bs : List Block) :
    (h.freeAll bs).freed = bs.reverse ++ h.freed := by
  induction bs generalizing h with
  | nil => rfl
  | cons b bs ih => simp [ih]

/-- A loop that frees some blocks for each element frees all of them. -/
theorem foldl_freeAll {α : Type} {step : Heap → α → Heap} {blocks : α → List Block}
    (hstep : ∀ h x, step h x = h.freeAll (blocks x)) (h : Heap) (l : List α) :
    l.foldl step h = h.freeAll (l.flatMap blocks) := by
  induction l generalizing h with
  | nil => rfl
  | cons x l ih => rw [List.foldl_cons, ih, hstep, List.flatMap_cons, freeAll_append]

/-- Freeing distinct live blocks frees exactly these. -/
theorem Ok.freeAll {h : Heap} (ok : h.Ok) {bs : List Block} (hnd : bs.Nodup)
    (hbs : ∀ b ∈ bs, b ∈ h.live) :
    (h.freeAll bs).Ok ∧ ∀ c, c ∈ (h.freeAll bs).live ↔ c ∉ bs ∧ c ∈ h.live := by
  induction bs generalizing h with
  | nil => exact ⟨ok, fun c => by simp⟩
  | cons b bs ih =>
    obtain ⟨hb, hnd⟩ := List.nodup_cons.mp hnd
    have hblive : b ∈ h.live := hbs b (List.mem_cons_self ..)
    have hrest : ∀ c ∈ bs, c ∈ (h.free b).live := fun c hc =>
      ok.mem_free.mpr ⟨fun heq => hb (heq ▸ hc), hbs c (List.mem_cons_of_mem b hc)⟩
    obtain ⟨hok, hmem⟩ := ih (ok.free hblive) hnd hrest
    refine ⟨hok, fun c => ?_⟩
    rw [freeAll_cons, hmem, ok.mem_free, List.mem_cons]
    tauto

end Heap

namespace Heap

/-! ## Ownership -/

/-- The live blocks are exactly these, at different addresses. A function is
specified by how it changes the owned blocks in any frame:
`∀ F, Owns h (bs ++ F) → Owns h' (bs' ++ F)`. -/
structure Owns (h : Heap) (bs : List Block) : Prop where
  ok : h.Ok
  live : h.live.Perm bs
  apart : (h.live.map Block.addr).Nodup

/-- Nothing owns the empty heap. -/
theorem owns_empty : Owns empty [] := ⟨ok_empty, List.Perm.refl _, List.nodup_nil⟩

section Owns

variable {h : Heap} {b : Block} {bs cs : List Block}

/-- The order of the owned blocks does not matter. -/
theorem Owns.perm (o : Owns h bs) (hp : bs.Perm cs) : Owns h cs :=
  ⟨o.ok, o.live.trans hp, o.apart⟩

/-- An owner holds each of its blocks once. -/
theorem Owns.nodup (o : Owns h bs) : bs.Nodup := o.live.nodup_iff.mp o.ok.live_nodup

/-- The live blocks are the owned ones. -/
theorem Owns.mem_iff (o : Owns h bs) : b ∈ h.live ↔ b ∈ bs := o.live.mem_iff

/-- An owned block is older than the next one. -/
theorem Owns.serial_lt (o : Owns h bs) (hb : b ∈ bs) : b.serial < h.serial :=
  o.ok.lt b (List.mem_append_left _ (o.mem_iff.mpr hb))

/-- A block at an unused address is added to what is owned. -/
theorem Owns.malloc (o : Owns h bs) {a : Nat} (ha : ∀ c ∈ h.live, c.addr ≠ a) :
    Owns (h.malloc a).2 ((h.malloc a).1 :: bs) := by
  refine ⟨o.ok.malloc a, o.live.cons _, ?_⟩
  rw [malloc_live, List.map_cons, malloc_block_addr]
  refine List.nodup_cons.mpr ⟨fun hmem => ?_, o.apart⟩
  obtain ⟨c, hc, heq⟩ := List.mem_map.mp hmem
  exact ha c hc heq

/-- A freed block is owned no longer. -/
theorem Owns.free (o : Owns h (b :: bs)) : Owns (h.free b) bs := by
  have hb : b ∈ h.live := o.mem_iff.mpr (List.mem_cons_self ..)
  refine ⟨o.ok.free hb, ?_, ?_⟩
  · rw [free_live]
    exact ((List.perm_cons_erase hb).symm.trans o.live).cons_inv
  · rw [free_live]
    exact o.apart.sublist (List.erase_sublist.map _)

/-- Freeing a part leaves the other part owned. -/
theorem Owns.freeAll (o : Owns h (bs ++ cs)) : Owns (h.freeAll bs) cs := by
  induction bs generalizing h with
  | nil => exact o
  | cons b bs ih => exact ih o.free

/-- Frees lose no block: each is live or freed as before. -/
theorem Owns.freeAll_perm (o : Owns h (bs ++ cs)) :
    ((h.freeAll bs).live ++ (h.freeAll bs).freed).Perm (h.live ++ h.freed) := by
  have hlive : ((h.freeAll bs).live ++ (bs.reverse ++ h.freed)).Perm (cs ++ (bs ++ h.freed)) :=
    o.freeAll.live.append ((List.reverse_perm bs).append_right _)
  rw [freeAll_freed]
  refine hlive.trans ?_
  rw [← List.append_assoc]
  exact (List.perm_append_comm.trans o.live.symm).append_right _

/-- Nothing is owned any more: every object has been freed, once. -/
theorem Owns.all_freed (o : Owns h []) : h.live = [] ∧ h.freed.Nodup :=
  ⟨List.perm_nil.mp o.live, o.ok.freed_nodup⟩

end Owns

end Heap

/-! ## Allocators that may fail -/

/-- An allocator: it refuses a request or names an address that no live block
has. It sees the whole heap, so any pattern of failures and any reuse of freed
addresses is the behaviour of some allocator. -/
structure Allocator where
  place : Heap → Option Nat
  place_fresh : ∀ h a, place h = some a → ∀ b ∈ h.live, b.addr ≠ a

namespace Allocator

/-- One request. A refused request uses up its serial number too. -/
def calloc (A : Allocator) (h : Heap) : Option Block × Heap :=
  match A.place h with
  | none => (none, { h with serial := h.serial + 1 })
  | some a => (some (h.malloc a).1, (h.malloc a).2)

/-- A refused allocation costs a serial number only. -/
theorem calloc_refused {A : Allocator} {h : Heap} (hp : A.place h = none) :
    A.calloc h = (none, { h with serial := h.serial + 1 }) := by
  rw [calloc, hp]

/-- A granted allocation is `malloc` at the place that the allocator chose. -/
theorem calloc_granted {A : Allocator} {h : Heap} {a : Nat} (hp : A.place h = some a) :
    A.calloc h = (some (h.malloc a).1, (h.malloc a).2) := by
  rw [calloc, hp]

/-- What one request can do. -/
theorem calloc_cases (A : Allocator) (h : Heap) :
    A.calloc h = (none, { h with serial := h.serial + 1 }) ∨
      ∃ a, A.calloc h = (some (h.malloc a).1, (h.malloc a).2) ∧
        ∀ b ∈ h.live, b.addr ≠ a := by
  cases hp : A.place h with
  | none => exact .inl (calloc_refused hp)
  | some a => exact .inr ⟨a, calloc_granted hp, A.place_fresh h a hp⟩

/-- A request frees nothing. -/
@[simp] theorem calloc_freed (A : Allocator) (h : Heap) : (A.calloc h).2.freed = h.freed := by
  rcases A.calloc_cases h with hc | ⟨a, hc, -⟩
  · rw [hc]
  · rw [hc]
    rfl

/-- The new block is live, and the others still are. -/
theorem calloc_live {A : Allocator} {h h' : Heap} {b : Block} (hc : A.calloc h = (some b, h')) :
    h'.live = b :: h.live := by
  rcases A.calloc_cases h with hnone | ⟨a, hsome, -⟩
  · rw [hnone] at hc
    cases hc
  · rw [hsome] at hc
    cases hc
    rfl

/-- What one request does to the owned blocks. -/
theorem owns_calloc (A : Allocator) {h : Heap} {bs : List Block} (o : h.Owns bs) :
    (∃ h', A.calloc h = (none, h') ∧ h'.Owns bs ∧ h.serial ≤ h'.serial) ∨
      ∃ b h', A.calloc h = (some b, h') ∧ h'.Owns (b :: bs) ∧ b.serial = h.serial ∧
        h.serial ≤ h'.serial := by
  rcases A.calloc_cases h with hc | ⟨a, hc, ha⟩
  · exact .inl ⟨_, hc, ⟨o.ok.refuse, o.live, o.apart⟩, Nat.le_succ _⟩
  · exact .inr ⟨_, _, hc, o.malloc ha, rfl, Nat.le_succ _⟩

/-- The allocator that never fails and never reuses an address. -/
def unbounded : Allocator where
  place h := some ((h.live.map Block.addr).foldr max h.serial + 1)
  place_fresh h a ha b hb := by
    have hle : ∀ (l : List Nat) (n : Nat), ∀ x ∈ l, x ≤ l.foldr max n := by
      intro l n
      induction l with
      | nil => exact fun x hx => nomatch hx
      | cons y l ih =>
        intro x hx
        rw [List.foldr_cons]
        rcases List.mem_cons.mp hx with rfl | hx
        · exact Nat.le_max_left _ _
        · exact Nat.le_trans (ih x hx) (Nat.le_max_right _ _)
    have := hle (h.live.map Block.addr) h.serial b.addr (List.mem_map_of_mem hb)
    rw [Option.some.injEq] at ha
    omega

/-- The same with memory for `n` requests only. -/
def limited (n : Nat) : Allocator where
  place h := if h.serial < n then unbounded.place h else none
  place_fresh h a ha := by
    split at ha
    · exact unbounded.place_fresh h a ha
    · cases ha

end Allocator

/-! ## Allocations that are given back -/

namespace Heap

/-- A call that gives back what it has allocated: the same blocks are live as
before, and it has freed, once each, only objects that it was handed itself. -/
structure Restored (h h' : Heap) : Prop where
  live : h'.live = h.live
  serial : h.serial ≤ h'.serial
  freed : ∃ own : List Block, h'.freed = own ++ h.freed ∧ (own.map Block.serial).Nodup ∧
    ∀ b ∈ own, h.serial ≤ b.serial

/-- A heap that nothing happened to is restored. -/
theorem Restored.refl (h : Heap) : Restored h h :=
  ⟨rfl, Nat.le_refl _, [], rfl, List.nodup_nil, nofun⟩

/-- A refused request leaves nothing to give back. -/
theorem restored_refused {A : Allocator} {h h' : Heap} (hc : A.calloc h = (none, h')) :
    Restored h h' := by
  rcases A.calloc_cases h with hnone | ⟨a, hsome, -⟩
  · rw [hnone] at hc
    cases hc
    exact ⟨rfl, Nat.le_succ _, [], rfl, List.nodup_nil, nofun⟩
  · rw [hsome] at hc
    cases hc

/-- A block is allocated, what follows gives its own blocks back, and then the
block is freed. -/
theorem Restored.free {A : Allocator} {h h₁ h₂ : Heap} {b : Block}
    (hc : A.calloc h = (some b, h₁)) (hr : Restored h₁ h₂) : Restored h (h₂.free b) := by
  rcases A.calloc_cases h with hnone | ⟨a, hsome, -⟩
  · rw [hnone] at hc
    cases hc
  · rw [hsome] at hc
    cases hc
    obtain ⟨own, hfreed, hnd, hown⟩ := hr.freed
    have hserial : h.serial + 1 ≤ h₂.serial := hr.serial
    refine ⟨?_, by show h.serial ≤ h₂.serial; omega, (h.malloc a).1 :: own, ?_, ?_, ?_⟩
    · rw [free_live, hr.live, malloc_live, List.erase_cons_head]
    · rw [free_freed, hfreed, malloc_freed, List.cons_append]
    · refine List.nodup_cons.mpr ⟨fun hmem => ?_, hnd⟩
      -- what was handed out later has a later serial number
      obtain ⟨c, hcmem, heq⟩ := List.mem_map.mp hmem
      have hlater : h.serial + 1 ≤ c.serial := hown c hcmem
      rw [heq, malloc_block_serial] at hlater
      exact Nat.lt_irrefl _ hlater
    · intro c hmem
      rcases List.mem_cons.mp hmem with rfl | hmem
      · exact Nat.le_refl _
      · exact Nat.le_of_succ_le (hown c hmem)

end Heap

end PicoHost
