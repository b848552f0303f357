import PicoHost.Lib.BlockMemory

/-!
# Allocation in `os_wrapper.c`

`hosted_malloc`, `hosted_calloc`, `hosted_memcpy` and `hosted_realloc`, which the rest of the host
calls through `g_h.funcs`, and `_calloc_r`, which the C library calls. `pvPortMalloc` is any
allocator; `size_t` has 32 bits. `ndebug` says whether assertions are compiled out; the result is
`none` where one of them aborts.
-/

namespace PicoHost.OsWrapper

variable (ndebug : Bool) (A : Nat → Allocator)

/-- `hosted_malloc` (os_wrapper.c:78–90) -/
def hostedMalloc (size : UInt32) (m : BlockMemory) : Option (Option Block × BlockMemory) :=
  let r := m.malloc A size.toNat
  if r.1.isSome || ndebug then some r else none

/-- `hosted_calloc` (os_wrapper.c:92–105) -/
def hostedCalloc (blkNo size : UInt32) (m : BlockMemory) : Option (Option Block × BlockMemory) :=
  (hostedMalloc ndebug A (blkNo * size) m).map fun r =>
    match r.1 with
    | none => (none, r.2)
    | some ptr => (some ptr, r.2.memset ptr 0 (blkNo * size).toNat)

/-- `_calloc_r` (os_wrapper.c:873–885); `__builtin_mul_overflow` multiplies the numbers. -/
def callocR (nmemb size : UInt32) (m : BlockMemory) : Option Block × BlockMemory :=
  if nmemb.toNat * size.toNat < 2 ^ 32 then
    let r := m.malloc A (nmemb.toNat * size.toNat)
    match r.1 with
    | none => (none, r.2)
    | some ptr => (some ptr, r.2.memset ptr 0 (nmemb.toNat * size.toNat))
  else (none, m)

/-- `hosted_memcpy` (os_wrapper.c:57–71) -/
def hostedMemcpy (dest src : Option Block) (size : UInt32) (m : BlockMemory) :
    Option (Option Block × BlockMemory) :=
  match dest, src with
  | some d, some s => some (some d, m.memcpy d s size.toNat)
  | _, _ =>
    if size ≠ 0 then if ndebug then some (none, m) else none
    else some (dest, m)

/-- `HOSTED_FREE` -/
def hostedFree (buff : Option Block) (m : BlockMemory) : BlockMemory :=
  match buff with
  | none => m
  | some b => m.free b

/-- `hosted_realloc` (os_wrapper.c:118–142) -/
def hostedRealloc (mem : Option Block) (newsize : UInt32) (m : BlockMemory) :
    Option (Option Block × BlockMemory) :=
  if newsize = 0 then some (none, hostedFree mem m)
  else (hostedMalloc ndebug A newsize m).bind fun r =>
    match r.1 with
    | none => some (none, r.2)
    | some p =>
      if mem.isSome then
        (hostedMemcpy ndebug (some p) mem newsize r.2).map fun c => (some p, hostedFree mem c.2)
      else some (some p, r.2)

/-! ## The contracts -/

/-- The call returns `NULL` or a new block of at least `n` bytes, all of them zero. -/
def ZeroedOrNull (n : Nat) (m : BlockMemory) (p : Option Block) (m' : BlockMemory) : Prop :=
  ∀ b ∈ p, b ∉ m.heap.live ∧ b ∈ m'.heap.live ∧ n ≤ m'.size b ∧ ∀ i < n, m'.byte b i = 0

/-- What `hosted_calloc` is to return, if it returns -/
def CallocOk (blkNo size : UInt32) (m : BlockMemory)
    (r : Option (Option Block × BlockMemory)) : Prop :=
  ∀ p m', r = some (p, m') → ZeroedOrNull (blkNo.toNat * size.toNat) m p m'

/-- The block `b` is still there, as it was, and nothing has been freed. -/
structure Intact (m m' : BlockMemory) (b : Block) : Prop where
  live : b ∈ m'.heap.live
  freed : m'.heap.freed = m.heap.freed
  size : m'.size b = m.size b
  byte : ∀ i, m'.byte b i = m.byte b i

/-- The contents of `mem` are in the new block `p` of `newsize` bytes, as far as they fit; `mem` has
been freed, and not been accessed past its end. -/
structure Moved (m m' : BlockMemory) (mem p : Block) (newsize : Nat) : Prop where
  fresh : p ∉ m.heap.live
  live : m'.heap.live = p :: m.heap.live.erase mem
  freed : m'.heap.freed = mem :: m.heap.freed
  size : m'.size p = newsize
  byte : ∀ i < min (m.size mem) newsize, m'.byte p i = m.byte mem i
  within : ∀ i, (mem, i) ∈ m'.accesses.drop m.accesses.length → i < m.size mem

/-- What `hosted_realloc` is to do to the live block `mem`, if it returns -/
def ReallocOk (mem : Block) (newsize : UInt32) (m : BlockMemory)
    (r : Option (Option Block × BlockMemory)) : Prop :=
  ∀ p m', r = some (p, m') → match p with
    | none => if newsize = 0 then m' = m.free mem else Intact m m' mem
    | some b => Moved m m' mem b newsize.toNat

/-! ## What the functions do -/

variable {ndebug A}

/-- What `hosted_malloc` can do: its request is refused, or it returns a block of that size. -/
theorem hostedMalloc_cases (size : UInt32) (m : BlockMemory) :
    (A size.toNat).place m.heap = none ∧
        hostedMalloc ndebug A size m = (if ndebug then some (none, m.refuse) else none) ∨
      ∃ a, (A size.toNat).place m.heap = some a ∧
        hostedMalloc ndebug A size m = some (some (m.heap.malloc a).1, m.grant a size.toNat) := by
  unfold hostedMalloc
  rcases m.malloc_cases A size.toNat with ⟨hplace, h⟩ | ⟨a, hplace, h⟩
  · rw [h]
    exact .inl ⟨hplace, rfl⟩
  · rw [h]
    exact .inr ⟨a, hplace, rfl⟩

variable {m : BlockMemory}

/-- `hosted_calloc` keeps its contract if the product of its arguments fits 32 bits, or if it fails.
-/
theorem hostedCalloc_ok_iff (ok : m.heap.Ok) (blkNo size : UInt32) :
    CallocOk blkNo size m (hostedCalloc ndebug A blkNo size m) ↔
      blkNo.toNat * size.toNat < 2 ^ 32 ∨ (A (blkNo * size).toNat).place m.heap = none := by
  unfold hostedCalloc
  rcases @hostedMalloc_cases ndebug A (blkNo * size) m with
    ⟨hplace, h⟩ | ⟨a, hplace, h⟩
  · rw [h]
    refine ⟨fun _ => .inr hplace, fun _ p m' hr => ?_⟩
    cases ndebug with
    | false => cases hr
    | true =>
      cases hr
      exact nofun
  · rw [h]
    have hmul : (blkNo * size).toNat = blkNo.toNat * size.toNat % 2 ^ 32 := UInt32.toNat_mul ..
    have hsize := m.grant_size a (blkNo * size).toNat
    constructor
    · intro hok
      obtain ⟨-, -, hle, -⟩ := hok _ _ rfl _ rfl
      have hle : blkNo.toNat * size.toNat ≤
          (m.grant a (blkNo * size).toNat).size (m.heap.malloc a).1 := hle
      rw [hsize, hmul] at hle
      exact .inl (Nat.lt_of_le_of_lt hle (Nat.mod_lt _ (by decide)))
    · rintro (hlt | hnone) p m' hr
      · rw [Nat.mod_eq_of_lt hlt] at hmul
        cases hr
        intro b hb
        cases hb
        refine ⟨ok.malloc_notMem a, List.mem_cons_self .., ?_, fun i hi => ?_⟩
        · exact Nat.le_of_eq (hsize.trans hmul).symm
        · exact BlockMemory.memset_byte (hmul ▸ hi)
      · exact absurd (hplace.symm.trans hnone) (Option.some_ne_none a)

/-- What `hosted_realloc` does to the block `mem` if its request for another one is granted -/
theorem hostedRealloc_granted {mem : Block} {newsize : UInt32} {a : Nat} (hnew : newsize ≠ 0)
    (hplace : (A newsize.toNat).place m.heap = some a) :
    hostedRealloc ndebug A (some mem) newsize m = some (some (m.heap.malloc a).1,
      ((m.grant a newsize.toNat).memcpy (m.heap.malloc a).1 mem newsize.toNat).free mem) := by
  rcases @hostedMalloc_cases ndebug A newsize m with ⟨hnone, -⟩ | ⟨b, hb, h⟩
  · exact absurd (hplace.symm.trans hnone) (Option.some_ne_none a)
  · cases hplace.symm.trans hb
    rw [hostedRealloc, if_neg hnew, h]
    rfl

/-- And if it is refused -/
theorem hostedRealloc_refused {mem : Block} {newsize : UInt32} (hnew : newsize ≠ 0)
    (hplace : (A newsize.toNat).place m.heap = none) :
    hostedRealloc ndebug A (some mem) newsize m =
      if ndebug then some (none, m.refuse) else none := by
  rcases @hostedMalloc_cases ndebug A newsize m with ⟨-, h⟩ | ⟨b, hb, -⟩
  · rw [hostedRealloc, if_neg hnew, h]
    cases ndebug <;> rfl
  · exact absurd (hb.symm.trans hplace) (Option.some_ne_none b)

/-- `hosted_realloc` keeps its contract if the block does not grow, or if it fails. -/
theorem hostedRealloc_ok_iff (ok : m.heap.Ok) {mem : Block} (hmem : mem ∈ m.heap.live)
    (newsize : UInt32) :
    ReallocOk mem newsize m (hostedRealloc ndebug A (some mem) newsize m) ↔
      newsize.toNat ≤ m.size mem ∨ (A newsize.toNat).place m.heap = none := by
  by_cases hnew : newsize = 0
  · subst hnew
    refine ⟨fun _ => .inl (Nat.zero_le _), fun _ p m' hr => ?_⟩
    cases hr
    rfl
  cases hplace : (A newsize.toNat).place m.heap with
  | none =>
    rw [hostedRealloc_refused hnew hplace]
    refine ⟨fun _ => .inr rfl, fun _ p m' hr => ?_⟩
    cases ndebug with
    | false => cases hr
    | true =>
      cases hr
      show if newsize = 0 then _ else _
      rw [if_neg hnew]
      exact ⟨hmem, rfl, rfl, fun _ => rfl⟩
  | some a =>
    rw [hostedRealloc_granted hnew hplace]
    have hne : (m.heap.malloc a).1 ≠ mem := fun heq => ok.malloc_notMem a (heq ▸ hmem)
    -- the bytes that are read of `mem`
    have hread : ∀ i, (mem, i) ∈ (((m.grant a newsize.toNat).memcpy (m.heap.malloc a).1 mem
        newsize.toNat).free mem).accesses.drop m.accesses.length ↔ i < newsize.toNat := by
      intro i
      show (mem, i) ∈ ((m.grant a newsize.toNat).memcpy _ _ _).accesses.drop _ ↔ _
      rw [BlockMemory.memcpy_accesses]
      show (mem, i) ∈ (m.accesses ++ _).drop _ ↔ _
      rw [List.drop_left, List.mem_append, BlockMemory.mem_span, BlockMemory.mem_span, Nat.zero_add]
      constructor
      · rintro (⟨-, -, hlt⟩ | ⟨heq, -⟩)
        · exact hlt
        · exact absurd heq.symm hne
      · exact fun hlt => .inl ⟨rfl, Nat.zero_le i, hlt⟩
    constructor
    · intro hok
      have hmoved : Moved m _ mem (m.heap.malloc a).1 newsize.toNat := hok _ _ rfl
      refine .inl (Nat.not_lt.mp fun hlt => ?_)
      exact Nat.lt_irrefl _ (hmoved.within _ ((hread _).mpr hlt))
    · rintro (hle | hnone) p m' hr
      · cases hr
        exact {
          fresh := ok.malloc_notMem a
          live := List.erase_cons_tail fun heq => hne (eq_of_beq heq)
          freed := rfl
          size := m.grant_size a _
          byte := fun i hi => BlockMemory.memcpy_byte (by omega)
          within := fun i hi => Nat.lt_of_lt_of_le ((hread i).mp hi) hle }
      · cases hnone

/-- `_calloc_r` looks at the product, and meets the contract for every request. -/
theorem callocR_ok (ok : m.heap.Ok) (nmemb size : UInt32) :
    ZeroedOrNull (nmemb.toNat * size.toNat) m (callocR A nmemb size m).1
      (callocR A nmemb size m).2 := by
  rw [callocR]
  split
  · rcases m.malloc_cases A (nmemb.toNat * size.toNat) with ⟨-, h⟩ | ⟨a, -, h⟩
    · rw [h]
      exact nofun
    · rw [h]
      intro b hb
      cases hb
      refine ⟨ok.malloc_notMem a, List.mem_cons_self .., ?_, fun i hi => BlockMemory.memset_byte hi⟩
      exact Nat.le_of_eq (m.grant_size a _).symm
  · exact nofun

/-- Both contracts, for every call: the block of `hosted_calloc` is large enough unless the product
overflows, and `hosted_realloc` stays within the old block unless it grows. -/
theorem alloc_contracts_iff (ndebug : Bool) (A : Nat → Allocator) (m : BlockMemory)
    (ok : m.heap.Ok) :
    (∀ blkNo size, CallocOk blkNo size m (hostedCalloc ndebug A blkNo size m) ↔
      blkNo.toNat * size.toNat < 2 ^ 32 ∨ (A (blkNo * size).toNat).place m.heap = none) ∧
    ∀ mem ∈ m.heap.live, ∀ newsize,
      ReallocOk mem newsize m (hostedRealloc ndebug A (some mem) newsize m) ↔
        newsize.toNat ≤ m.size mem ∨ (A newsize.toNat).place m.heap = none :=
  ⟨hostedCalloc_ok_iff ok, fun _ hmem => hostedRealloc_ok_iff ok hmem⟩

/-- An allocator that never fails, and a memory with one block of four bytes -/
def plenty : Nat → Allocator := fun _ => .unbounded

def fourBytes : BlockMemory := BlockMemory.empty.grant 1 4

/-- The heap with a block of four bytes is well formed. -/
theorem fourBytes_ok : fourBytes.heap.Ok := Heap.ok_empty.malloc 1

/-- A block of fifteen bytes, and one of four bytes made smaller -/
theorem alloc_contracts_fourBytes :
    CallocOk 3 5 fourBytes (hostedCalloc true plenty 3 5 fourBytes) ∧
      ReallocOk ⟨1, 0⟩ 2 fourBytes (hostedRealloc true plenty (some ⟨1, 0⟩) 2 fourBytes) := by
  obtain ⟨hcalloc, hrealloc⟩ := alloc_contracts_iff true plenty fourBytes fourBytes_ok
  exact ⟨(hcalloc 3 5).mpr (by decide), (hrealloc ⟨1, 0⟩ (by decide) 2).mpr (by decide)⟩

/-- `hosted_calloc(0x10001, 0x10000)` returns a block of 0x10000 bytes, and `hosted_realloc` of
four bytes to eight reads eight. -/
theorem not_alloc_contracts :
    ¬ CallocOk 0x10001 0x10000 fourBytes (hostedCalloc true plenty 0x10001 0x10000 fourBytes) ∧
      ¬ ReallocOk ⟨1, 0⟩ 8 fourBytes (hostedRealloc true plenty (some ⟨1, 0⟩) 8 fourBytes) :=
  ⟨(hostedCalloc_ok_iff fourBytes_ok 0x10001 0x10000).not.mpr (by decide),
    (hostedRealloc_ok_iff fourBytes_ok (by decide) 8).not.mpr (by decide)⟩

end PicoHost.OsWrapper
