import PicoHost.Lib.ByteOrder
import PicoHost.Lib.Chain
import PicoHost.Lib.FreeList
import PicoHost.Lib.Run

/-!
# The memory pool

`mempool_create`, `mempool_alloc` and `mempool_free` (mempool.c, with `H_USE_MEMPOOL`), over
byte-addressed memory. A freed block keeps the link to the next one in its first word, and
`mempool_alloc` takes the first block of this list, or a new one of `MEMPOOL_ALIGNED` of the
already aligned block size.

Between two calls the clients write into the blocks they hold, and anybody into the memory
that the pool did not allocate. `Inv` says that the blocks of the list and those of the
clients together are the allocated blocks, each once (`pool_ok`).
-/

namespace PicoHost.Mempool

open FreeList

/-! ## Sizes -/

/-- `MEMPOOL_ALIGNMENT_BYTES` -/
def alignmentBytes : UInt32 := 4

/-- `MEMPOOL_ALIGNED` on an unsigned value (mempool.h:26); an aligned value grows, too. -/
def mempoolAligned (val : UInt32) : UInt32 :=
  val + alignmentBytes - (val &&& (alignmentBytes - 1))

/-- The size that `MEM_ALLOC` requests (os_wrapper.h). -/
def memAllocSize (x : UInt32) : UInt32 := (x + 3) &&& ~~~3

/-- `MEMPOOL_ALIGNED` goes to the next multiple of four, and from the last one to zero. -/
theorem mempoolAligned_toNat (val : UInt32) :
    (mempoolAligned val).toNat = (val.toNat - val.toNat % 4 + 4) % 2 ^ 32 := by
  have hlt := val.toNat_lt
  have hmask : (val &&& (alignmentBytes - 1)).toNat = val.toNat % 4 := by
    rw [UInt32.toNat_and]
    exact Nat.and_two_pow_sub_one_eq_mod _ 2
  rw [mempoolAligned, UInt32.toNat_sub, UInt32.toNat_add, hmask]
  show (2 ^ 32 - val.toNat % 4 + (val.toNat + 4) % 2 ^ 32) % 2 ^ 32 = _
  omega

/-- `MEM_ALLOC` keeps a multiple of four. -/
theorem memAllocSize_toNat {x : UInt32} (h : x.toNat % 4 = 0) :
    (memAllocSize x).toNat = x.toNat := by
  have hlt := x.toNat_lt
  have hmask : (~~~3 : UInt32).toNat = (2 ^ 30 - 1) <<< 2 := by decide
  have hadd : (x + 3).toNat = x.toNat + 3 := by
    rw [UInt32.toNat_add]
    refine Nat.mod_eq_of_lt ?_
    show x.toNat + 3 < 2 ^ 32
    omega
  rw [memAllocSize, UInt32.toNat_and, hmask, ByteOrder.land_mask (by exact (x + 3).toNat_lt), hadd]
  omega

/-! ## The pool and its surroundings -/

/-- `struct mempool`; the first link of the list is `head`. -/
structure Pool where
  head : Nat
  blockSize : UInt32
deriving DecidableEq, Repr

/-- A block that `MEM_ALLOC` returned. -/
structure PoolBlock where
  addr : Nat
  size : Nat
deriving DecidableEq, Repr

/-- The bytes of a block. -/
def PoolBlock.Contains (b : PoolBlock) (x : Nat) : Prop := b.addr ≤ x ∧ x < b.addr + b.size

instance (b : PoolBlock) (x : Nat) : Decidable (b.Contains x) :=
  inferInstanceAs (Decidable (_ ∧ _))

/-- No byte in common. -/
def PoolBlock.Apart (b c : PoolBlock) : Prop :=
  b.addr + b.size ≤ c.addr ∨ c.addr + c.size ≤ b.addr

instance (b c : PoolBlock) : Decidable (b.Apart c) := inferInstanceAs (Decidable (_ ∨ _))

/-- The pool, the memory, the blocks allocated for the pool, and those that the clients
hold. -/
structure State where
  pool : Pool
  memory : Memory
  allocated : List PoolBlock
  held : List Nat

/-- `mempool_create`: the memory for the pool is asked for a second time when the first is
not aligned, `none` for a request that fails. -/
def mempoolCreate (first second : Option Nat) (blockSize : UInt32) : Option Pool :=
  let pool : Pool := ⟨0, mempoolAligned blockSize⟩
  match first with
  | none => none
  | some addr =>
    if addr % alignmentBytes.toNat = 0 then some pool else second.map fun _ => pool

/-- `mempool_alloc` (mempool.c:86–131): the buffer, 0 for `NULL`, and the pool and the memory
after the call. `fresh` is what `MEM_ALLOC` would return. -/
def mempoolAlloc (mp : Pool) (memory : Memory) (nbytes : Int32) (needMemset : Bool)
    (fresh : Nat) : Nat × Pool × Memory :=
  -- the signed request is converted to unsigned
  if mp.blockSize < nbytes.toUInt32 then (0, mp, memory)
  else
    let (buf, mp) :=
      if mp.head ≠ 0 then (mp.head, { mp with head := load memory mp.head })
      else (fresh, mp)
    if buf ≠ 0 ∧ needMemset then (buf, mp, zero memory buf nbytes.toUInt32.toNat)
    else (buf, mp, memory)

/-- `mempool_free` (mempool.c:133–156) -/
def mempoolFree (mp : Pool) (memory : Memory) (mem : Nat) : Pool × Memory :=
  if mem = 0 then (mp, memory)
  else ({ mp with head := mem }, store memory mem mp.head)

/-! ## Runs -/

/-- The block of a fresh allocation of this pool. -/
def Pool.freshBlock (mp : Pool) (addr : Nat) : PoolBlock :=
  ⟨addr, (memAllocSize (mempoolAligned mp.blockSize)).toNat⟩

inductive Action where
  | alloc (nbytes : Int32) (needMemset : Bool) (fresh : Nat)
  | free (mem : Nat)
  | write (addr : Nat) (byte : UInt8)
deriving DecidableEq, Repr

/-- What the allocator promises of an address, unless it is `NULL`: the block lies in the
address space and is apart from those it has handed out. -/
def State.Placed (s : State) (fresh : Nat) : Prop :=
  fresh + (s.pool.freshBlock fresh).size ≤ 2 ^ 32 ∧
    ∀ b ∈ s.allocated, (s.pool.freshBlock fresh).Apart b

instance (s : State) (fresh : Nat) : Decidable (s.Placed fresh) :=
  inferInstanceAs (Decidable (_ ∧ ∀ b ∈ s.allocated, _))

/-- `MEM_ALLOC` is reached. -/
def State.AllocatesFresh (s : State) (nbytes : Int32) : Prop :=
  ¬ s.pool.blockSize < nbytes.toUInt32 ∧ s.pool.head = 0

instance (s : State) (nbytes : Int32) : Decidable (s.AllocatesFresh nbytes) :=
  inferInstanceAs (Decidable (_ ∧ _))

/-- One action. A client frees `NULL` or a block that it holds; nobody writes into a block
that no client holds. -/
def State.step (s : State) : Action → Option State
  | .alloc nbytes needMemset fresh =>
    let (buf, pool, memory) := mempoolAlloc s.pool s.memory nbytes needMemset fresh
    let held := if buf ≠ 0 then buf :: s.held else s.held
    if s.AllocatesFresh nbytes ∧ fresh ≠ 0 then
      if s.Placed fresh then
        some ⟨pool, memory, s.pool.freshBlock fresh :: s.allocated, held⟩
      else none
    else some ⟨pool, memory, s.allocated, held⟩
  | .free mem =>
    if mem = 0 ∨ mem ∈ s.held then
      let (pool, memory) := mempoolFree s.pool s.memory mem
      some ⟨pool, memory, s.allocated, s.held.erase mem⟩
    else none
  | .write addr byte =>
    if ∀ b ∈ s.allocated, b.Contains addr → b.addr ∈ s.held then
      some { s with memory := fun x => if x = addr then byte else s.memory x }
    else none

/-- After `mempool_create`, with any contents of the memory. -/
def State.init (pool : Pool) (memory : Memory) : State := ⟨pool, memory, [], []⟩

/-! ## The invariant -/

/-- `capacity` is the size of every block; `entries` the free list. -/
structure Inv (capacity : Nat) (s : State) (entries : List Nat) : Prop where
  list : IsList s.memory s.pool.head entries
  perm : (entries ++ s.held).Perm (s.allocated.map PoolBlock.addr)
  size : ∀ b ∈ s.allocated, b.size = capacity
  bounds : ∀ b ∈ s.allocated, b.addr ≠ 0 ∧ b.addr + capacity ≤ 2 ^ 32
  apart : s.allocated.Pairwise PoolBlock.Apart
  blockSize : (memAllocSize (mempoolAligned s.pool.blockSize)).toNat = capacity
  fits : s.pool.blockSize.toNat ≤ capacity
  link : ptrSize ≤ capacity

/-- A new pool has an empty free list and aligned blocks. -/
theorem mempoolCreate_eq {first second : Option Nat} {blockSize : UInt32} {pool : Pool}
    (h : mempoolCreate first second blockSize = some pool) :
    pool = ⟨0, mempoolAligned blockSize⟩ := by
  unfold mempoolCreate at h
  dsimp only at h
  split at h
  · cases h
  · split at h
    · exact (Option.some.inj h).symm
    · obtain ⟨_, -, heq⟩ := Option.map_eq_some_iff.mp h
      exact heq.symm

/-- A block is allocated one alignment larger than the aligned block size. -/
theorem freshBlock_size (blockSize : UInt32) (addr : Nat) :
    (Pool.freshBlock ⟨0, mempoolAligned blockSize⟩ addr).size =
      ((mempoolAligned blockSize).toNat + 4) % 2 ^ 32 := by
  have hblock := mempoolAligned_toNat blockSize
  have halloc := mempoolAligned_toNat (mempoolAligned blockSize)
  show (memAllocSize (mempoolAligned (mempoolAligned blockSize))).toNat = _
  rw [memAllocSize_toNat (by omega)]
  omega

/-- A new pool, unless its blocks have no bytes -/
theorem inv_init {first second : Option Nat} {blockSize : UInt32} {pool : Pool}
    (hcreate : mempoolCreate first second blockSize = some pool)
    (hsize : (pool.freshBlock 0).size ≠ 0) (memory : Memory) :
    Inv (pool.freshBlock 0).size (State.init pool memory) [] := by
  have hpool := mempoolCreate_eq hcreate
  have hfresh := freshBlock_size blockSize 0
  have hblock := mempoolAligned_toNat blockSize
  rw [← hpool] at hfresh
  constructor
  · show pool.head = 0
    rw [hpool]
  · exact List.Perm.refl _
  · exact nofun
  · exact nofun
  · exact List.Pairwise.nil
  · rfl
  · show pool.blockSize.toNat ≤ _
    rw [hfresh, hpool]
    show (mempoolAligned blockSize).toNat ≤ _
    omega
  · show 4 ≤ _
    omega

section Inv

variable {capacity : Nat} {s s' : State} {entries : List Nat}

/-- No block is free and held, or held twice. -/
theorem Inv.nodup (inv : Inv capacity s entries) : (entries ++ s.held).Nodup := by
  refine inv.perm.nodup_iff.mpr (List.pairwise_map.mpr ?_)
  refine inv.apart.imp_of_mem fun {b c} hb _ hapart heq => ?_
  have hlink := inv.link
  have hsize := inv.size b hb
  have hsize' := inv.size c ‹_›
  rw [PoolBlock.Apart] at hapart
  rw [ptrSize] at hlink
  omega

/-- Free and held blocks were allocated by the pool. -/
theorem Inv.mem_allocated (inv : Inv capacity s entries) {a : Nat}
    (ha : a ∈ entries ++ s.held) : ⟨a, capacity⟩ ∈ s.allocated := by
  obtain ⟨b, hb, rfl⟩ := List.mem_map.mp (inv.perm.mem_iff.mp ha)
  rw [← inv.size b hb]
  exact hb

/-- Different blocks have no byte in common. -/
theorem Inv.apart_of_ne (inv : Inv capacity s entries) {a c : Nat}
    (ha : a ∈ entries ++ s.held) (hc : c ∈ entries ++ s.held) (hne : a ≠ c) :
    a + capacity ≤ c ∨ c + capacity ≤ a := by
  have hblocks : (⟨a, capacity⟩ : PoolBlock) ≠ ⟨c, capacity⟩ := fun heq =>
    hne (congrArg PoolBlock.addr heq)
  rcases Chain.rel_or_rel inv.apart (inv.mem_allocated ha) (inv.mem_allocated hc) hblocks
    with h | h
  · exact h
  · exact h.symm

/-- The head of the free list is an address. -/
theorem Inv.head_lt (inv : Inv capacity s entries) : s.pool.head < 2 ^ 32 := by
  cases entries with
  | nil =>
    rw [show s.pool.head = 0 from inv.list]
    decide
  | cons a rest =>
    obtain ⟨hhead, -, -⟩ := inv.list
    have hmem := inv.mem_allocated (a := a) (List.mem_append_left _ (List.mem_cons_self ..))
    have hbounds := (inv.bounds _ hmem).2
    have hlink := inv.link
    rw [ptrSize] at hlink
    dsimp only at hbounds
    omega

/-! ## One call -/

/-- What `mempool_alloc` does once the block is chosen. -/
def memsetIf (memory : Memory) (buf : Nat) (nbytes : Int32) (needMemset : Bool) : Memory :=
  if buf ≠ 0 ∧ needMemset then zero memory buf nbytes.toUInt32.toNat else memory

/-- A request larger than the blocks is refused. -/
theorem mempoolAlloc_refused {mp : Pool} {nbytes : Int32} (h : mp.blockSize < nbytes.toUInt32)
    (memory : Memory) (needMemset : Bool) (fresh : Nat) :
    mempoolAlloc mp memory nbytes needMemset fresh = (0, mp, memory) :=
  if_pos h

/-- The first block of the list. -/
theorem mempoolAlloc_reuse {mp : Pool} {nbytes : Int32} (h : ¬ mp.blockSize < nbytes.toUInt32)
    (hhead : mp.head ≠ 0) (memory : Memory) (needMemset : Bool) (fresh : Nat) :
    mempoolAlloc mp memory nbytes needMemset fresh =
      (mp.head, { mp with head := load memory mp.head },
        memsetIf memory mp.head nbytes needMemset) := by
  unfold mempoolAlloc memsetIf
  rw [if_neg h, if_pos hhead]
  dsimp only
  split <;> rfl

/-- A fresh block, or `NULL`. -/
theorem mempoolAlloc_fresh {mp : Pool} {nbytes : Int32} (h : ¬ mp.blockSize < nbytes.toUInt32)
    (hhead : mp.head = 0) (memory : Memory) (needMemset : Bool) (fresh : Nat) :
    mempoolAlloc mp memory nbytes needMemset fresh =
      (fresh, mp, memsetIf memory fresh nbytes needMemset) := by
  unfold mempoolAlloc memsetIf
  rw [if_neg h, if_neg (not_not_intro hhead)]
  dsimp only
  split <;> rfl

/-- `memset` leaves the bytes outside the block. -/
theorem memsetIf_other {memory : Memory} {buf : Nat} {nbytes : Int32} {needMemset : Bool}
    {x n : Nat} (hn : nbytes.toUInt32.toNat ≤ n) (hx : x < buf ∨ buf + n ≤ x) :
    memsetIf memory buf nbytes needMemset x = memory x := by
  rw [memsetIf]
  split
  · exact zero_of_notMem (by omega)
  · rfl

/-- The block is zeroed as far as asked for. -/
theorem memsetIf_zero {memory : Memory} {buf : Nat} {nbytes : Int32} (hbuf : buf ≠ 0) {i : Nat}
    (hi : i < nbytes.toUInt32.toNat) : memsetIf memory buf nbytes true (buf + i) = 0 := by
  rw [memsetIf, if_pos ⟨hbuf, rfl⟩]
  exact zero_of_mem hi

/-- What a client may rely on when `mempool_alloc` returns `buf`: no client holds it, no byte of
it is in a block that a client holds, it has the requested size, and the bytes are zero when
this was asked for. -/
structure Returned (s s' : State) (nbytes : Int32) (needMemset : Bool) (buf : Nat) : Prop where
  notHeld : buf ∉ s.held
  block : ∃ b ∈ s'.allocated, b.addr = buf ∧ nbytes.toUInt32.toNat ≤ b.size ∧
    nbytes.toInt ≤ b.size ∧ ∀ c ∈ s.allocated, c.addr ∈ s.held → b.Apart c
  zeroed : needMemset → ∀ i < nbytes.toUInt32.toNat, s'.memory (buf + i) = 0

/-- The request as the comparison and `memset` see it is at least the signed one. -/
theorem toInt_le (n : Int32) : n.toInt ≤ n.toUInt32.toNat := by
  show n.toBitVec.toInt ≤ n.toBitVec.toNat
  rw [BitVec.toInt_eq_toNat_cond]
  split <;> omega

/-- The blocks of the list are distinct and have no byte in common with each other or with
those that the clients hold. -/
structure ListOk (s : State) (entries : List Nat) : Prop where
  list : IsList s.memory s.pool.head entries
  nodup : entries.Nodup
  notHeld : ∀ a ∈ entries, a ∉ s.held
  apart : ∀ b ∈ s.allocated, ∀ c ∈ s.allocated, b.addr ∈ entries → b ≠ c →
    c.addr ∈ entries ∨ c.addr ∈ s.held → b.Apart c

/-- The invariant gives what is asked of the free list. -/
theorem Inv.listOk (inv : Inv capacity s entries) : ListOk s entries where
  list := inv.list
  nodup := (List.nodup_append.mp inv.nodup).1
  notHeld a ha hheld := (List.nodup_append.mp inv.nodup).2.2 a ha a hheld rfl
  apart b hb c hc _ hne _ := by
    rcases Chain.rel_or_rel inv.apart hb hc hne with h | h
    · exact h
    · exact h.symm

/-- A block of the free list is handed out again. -/
theorem Inv.reuse (inv : Inv capacity s entries) (nbytes : Int32) (needMemset : Bool)
    (hfits : ¬ s.pool.blockSize < nbytes.toUInt32) (hhead : s.pool.head ≠ 0) :
    ∃ rest, entries = s.pool.head :: rest ∧
      Inv capacity ⟨{ s.pool with head := load s.memory s.pool.head },
        memsetIf s.memory s.pool.head nbytes needMemset, s.allocated,
        s.pool.head :: s.held⟩ rest := by
  obtain ⟨rest, rfl, hrest⟩ := inv.list.pop hhead
  have hn : nbytes.toUInt32.toNat ≤ capacity := by
    have := inv.fits
    rw [UInt32.lt_iff_toNat_lt] at hfits
    omega
  have hlink := inv.link
  refine ⟨rest, rfl, ?_, ?_, inv.size, inv.bounds, inv.apart, inv.blockSize, inv.fits, inv.link⟩
  · -- the links of the other entries are outside the block
    refine hrest.frame fun a ha i hi => memsetIf_other hn ?_
    have hne : a ≠ s.pool.head := fun heq => by
      have hnd := (List.nodup_append.mp inv.nodup).1
      exact (List.nodup_cons.mp hnd).1 (heq ▸ ha)
    have := inv.apart_of_ne (List.mem_append_left _ (List.mem_cons_of_mem _ ha))
      (List.mem_append_left _ (List.mem_cons_self ..)) hne
    omega
  · exact List.perm_middle.trans inv.perm

/-- With an empty free list, a new block is allocated. -/
theorem Inv.fresh (inv : Inv capacity s entries) (nbytes : Int32) (needMemset : Bool)
    {fresh : Nat} (hhead : s.pool.head = 0) (hfresh : fresh ≠ 0) (hplaced : s.Placed fresh) :
    Inv capacity ⟨s.pool, memsetIf s.memory fresh nbytes needMemset,
      s.pool.freshBlock fresh :: s.allocated, fresh :: s.held⟩ [] := by
  have hnil := inv.list.eq_nil hhead
  subst hnil
  have hsize : (s.pool.freshBlock fresh).size = capacity := inv.blockSize
  constructor
  · exact hhead
  · exact inv.perm.cons fresh
  · intro b hb
    rcases List.mem_cons.mp hb with rfl | hb
    · exact hsize
    · exact inv.size b hb
  · intro b hb
    rcases List.mem_cons.mp hb with rfl | hb
    · refine ⟨hfresh, ?_⟩
      rw [← hsize]
      exact hplaced.1
    · exact inv.bounds b hb
  · exact List.pairwise_cons.mpr ⟨hplaced.2, inv.apart⟩
  · exact inv.blockSize
  · exact inv.fits
  · exact inv.link

/-- A block that is freed goes to the head of the free list. -/
theorem Inv.free (inv : Inv capacity s entries) {mem : Nat} (hmem : mem ∈ s.held) :
    Inv capacity ⟨{ s.pool with head := mem }, store s.memory mem s.pool.head, s.allocated,
      s.held.erase mem⟩ (mem :: entries) := by
  have hin : mem ∈ entries ++ s.held := List.mem_append_right _ hmem
  have hlink := inv.link
  refine ⟨?_, ?_, inv.size, inv.bounds, inv.apart, inv.blockSize, inv.fits, inv.link⟩
  · -- the new link is written into `mem`, which is no entry
    refine inv.list.push (inv.bounds _ (inv.mem_allocated hin)).1 inv.head_lt fun b hb => ?_
    have hne : b ≠ mem := fun heq =>
      (List.nodup_append.mp inv.nodup).2.2 b hb mem hmem heq
    have := inv.apart_of_ne (List.mem_append_left _ hb) hin hne
    omega
  · refine List.Perm.trans ?_ inv.perm
    rw [List.cons_append]
    exact List.perm_middle.symm.trans ((List.perm_cons_erase hmem).symm.append_left entries)

/-- Holders write into their own blocks. -/
theorem Inv.write (inv : Inv capacity s entries) {addr : Nat} {byte : UInt8}
    (hheld : ∀ b ∈ s.allocated, b.Contains addr → b.addr ∈ s.held) :
    Inv capacity { s with memory := fun x => if x = addr then byte else s.memory x } entries := by
  refine ⟨?_, inv.perm, inv.size, inv.bounds, inv.apart, inv.blockSize, inv.fits, inv.link⟩
  refine inv.list.frame fun a ha i hi => if_neg fun heq => ?_
  have hmem := inv.mem_allocated (List.mem_append_left s.held ha)
  have hlink := inv.link
  refine inv.listOk.notHeld a ha (hheld _ hmem ?_)
  show a ≤ addr ∧ addr < a + capacity
  omega

/-- One call of `mempool_alloc`. -/
theorem Inv.alloc (inv : Inv capacity s entries) {nbytes : Int32} {needMemset : Bool}
    {fresh : Nat} (h : s.step (.alloc nbytes needMemset fresh) = some s') :
    (∃ entries', Inv capacity s' entries') ∧
      ((mempoolAlloc s.pool s.memory nbytes needMemset fresh).1 = 0 ∨
        Returned s s' nbytes needMemset
          (mempoolAlloc s.pool s.memory nbytes needMemset fresh).1) := by
  rw [State.step] at h
  dsimp only at h
  by_cases hfits : s.pool.blockSize < nbytes.toUInt32
  · rw [mempoolAlloc_refused hfits] at h ⊢
    dsimp only at h
    rw [if_neg fun hfresh => hfresh.1.1 hfits] at h
    cases h
    exact ⟨⟨entries, inv⟩, .inl rfl⟩
  have hn : nbytes.toUInt32.toNat ≤ capacity := by
    have := inv.fits
    rw [UInt32.lt_iff_toNat_lt] at hfits
    omega
  -- the request as a signed number is no larger than as an unsigned one
  have hint : nbytes.toInt ≤ capacity := by
    have := toInt_le nbytes
    omega
  by_cases hhead : s.pool.head = 0
  · rw [mempoolAlloc_fresh hfits hhead] at h ⊢
    dsimp only at h ⊢
    by_cases hfresh : fresh = 0
    · -- `MEM_ALLOC` has failed
      subst hfresh
      rw [if_neg fun hf => hf.2 rfl] at h
      cases h
      refine ⟨⟨entries, ?_⟩, .inl rfl⟩
      exact inv
    rw [if_pos ⟨⟨hfits, hhead⟩, hfresh⟩] at h
    split at h
    · -- the block is apart from the ones there are
      rename_i hplaced
      cases h
      have hinv := inv.fresh nbytes needMemset hhead hfresh hplaced
      have hsize : (s.pool.freshBlock fresh).size = capacity := inv.blockSize
      refine ⟨⟨[], hinv⟩, .inr ⟨?_, ?_, ?_⟩⟩
      · exact (List.nodup_cons.mp hinv.nodup).1
      · refine ⟨s.pool.freshBlock fresh, List.mem_cons_self .., rfl, ?_, ?_, ?_⟩
        · rwa [hsize]
        · rwa [hsize]
        · exact fun c hc _ => hplaced.2 c hc
      · rintro rfl i hi
        exact memsetIf_zero hfresh hi
    · cases h
  · -- the first entry of the free list
    obtain ⟨rest, rfl, hinv⟩ := inv.reuse nbytes needMemset hfits hhead
    rw [mempoolAlloc_reuse hfits hhead] at h ⊢
    dsimp only at h ⊢
    rw [if_neg fun hfresh => hhead hfresh.1.2, if_pos hhead] at h
    cases h
    have hmem : s.pool.head ∈ (s.pool.head :: rest) ++ s.held :=
      List.mem_append_left _ (List.mem_cons_self ..)
    have hnotHeld := inv.listOk.notHeld s.pool.head (List.mem_cons_self ..)
    refine ⟨⟨rest, hinv⟩, .inr ⟨hnotHeld, ?_, ?_⟩⟩
    · refine ⟨_, inv.mem_allocated hmem, rfl, hn, hint, fun c hc hheld => ?_⟩
      have hne : s.pool.head ≠ c.addr := fun heq => hnotHeld (heq ▸ hheld)
      have hapart := inv.apart_of_ne hmem (List.mem_append_right _ hheld) hne
      have hsize := inv.size c hc
      rw [PoolBlock.Apart]
      dsimp only
      omega
    · rintro rfl i hi
      exact memsetIf_zero hhead hi

/-- Every step keeps the invariant. -/
theorem Inv.step {a : Action} (inv : Inv capacity s entries) (h : s.step a = some s') :
    ∃ entries', Inv capacity s' entries' := by
  cases a with
  | alloc nbytes needMemset fresh => exact (inv.alloc h).1
  | free mem =>
    rw [State.step] at h
    dsimp only at h
    split at h
    · rename_i hguard
      by_cases hzero : mem = 0
      · -- nothing is freed, and no client holds `NULL`
        subst hzero
        have hnotHeld : 0 ∉ s.held := fun hheld =>
          (inv.bounds _ (inv.mem_allocated (List.mem_append_right _ hheld))).1 rfl
        rw [mempoolFree, if_pos rfl, List.erase_of_not_mem hnotHeld] at h
        cases h
        exact ⟨entries, inv⟩
      · rw [mempoolFree, if_neg hzero] at h
        cases h
        exact ⟨_, inv.free (hguard.resolve_left hzero)⟩
    · cases h
  | write addr byte =>
    unfold State.step at h
    dsimp only at h
    split at h
    · rename_i hheld
      cases h
      exact ⟨entries, inv.write hheld⟩
    · cases h

end Inv

/-! ## Every run -/

/-- Every run from a new pool keeps the invariant. -/
theorem exec_inv {first second : Option Nat} {blockSize : UInt32} {pool : Pool}
    (hsize : blockSize.toNat < 2 ^ 31)
    (hcreate : mempoolCreate first second blockSize = some pool) {memory : Memory}
    {actions : List Action} {s : State}
    (h : Machine.exec State.step (State.init pool memory) actions = some s) :
    ∃ capacity entries, Inv capacity s entries := by
  have hne : (pool.freshBlock 0).size ≠ 0 := by
    have hblock := mempoolAligned_toNat blockSize
    rw [mempoolCreate_eq hcreate, freshBlock_size]
    omega
  exact ⟨_, Machine.exec_inv (P := fun s => ∃ entries, Inv _ s entries)
    (fun _ _ _ h ⟨_, inv⟩ => inv.step h) h ⟨[], inv_init hcreate hne memory⟩⟩

/-- In every state of every run the free list is sound, and every block that `mempool_alloc`
returns is new to the clients, large enough, and zeroed when asked for. -/
theorem pool_ok (blockSize : UInt32) (hsize : blockSize.toNat < 2 ^ 31)
    (first second : Option Nat) (pool : Pool)
    (hcreate : mempoolCreate first second blockSize = some pool) (memory : Memory)
    (actions : List Action) (s : State)
    (h : Machine.exec State.step (State.init pool memory) actions = some s) :
    (∃ entries, ListOk s entries) ∧
      ∀ nbytes needMemset fresh s', s.step (.alloc nbytes needMemset fresh) = some s' →
        (mempoolAlloc s.pool s.memory nbytes needMemset fresh).1 = 0 ∨
          Returned s s' nbytes needMemset
            (mempoolAlloc s.pool s.memory nbytes needMemset fresh).1 := by
  obtain ⟨capacity, entries, inv⟩ := exec_inv hsize hcreate h
  exact ⟨⟨entries, inv.listOk⟩, fun _ _ _ _ hstep => (inv.alloc hstep).2⟩

/-- Two blocks are allocated and freed, and one of them is handed out again. -/
def reuse : List Action :=
  [.alloc 5 true 0x100, .alloc 3 false 0x200, .free 0x100, .free 0x200, .alloc 5 true 0]

/-- The run of `reuse`, in which a freed block is handed out again -/
theorem pool_ok_reuse : ∃ s,
    Machine.exec State.step (State.init ⟨0, 8⟩ fun _ => 0xFF) reuse = some s ∧
      ∃ entries, ListOk s entries := by
  obtain ⟨s, hs⟩ := Option.isSome_iff_exists.mp (show (Machine.exec State.step
    (State.init ⟨0, 8⟩ fun _ => 0xFF) reuse).isSome by decide +kernel)
  exact ⟨s, hs, (pool_ok 5 (by decide) (some 0x80) none ⟨0, 8⟩ rfl _ reuse s hs).1⟩

end PicoHost.Mempool
