import PicoHost.Lib.Heap
import PicoHost.Mempool.Pool

/-!
# What a memory pool gives back

The objects that a pool obtains (mempool.c): the structure, what `hosted_create_lock_mempool`
allocates, and the blocks, some of which are on the free list and some with the clients.
`mempool_destroy` frees the entries of the list and the structure. The heap says which objects are
live; assertions are compiled out, and `pvPortMalloc` returns `NULL` for a request of no bytes.
-/

namespace PicoHost.Mempool

open FreeList

/-- `vPortFree`; `none` where the address is not that of a live object. -/
def vPortFree (h : Heap) (addr : Nat) : Option Heap :=
  (h.live.find? fun b => b.addr == addr).map h.free

/-- `mutex_handle_t`; the mutex itself is an object of FreeRTOS. -/
structure MutexHandle where
  handle : Block
  mHl : Block

/-- `hosted_create_mutex` (os_wrapper.c:373–396): its handle stays behind where there is no memory
for the mutex. -/
def hostedCreateMutex (A : Allocator) (h : Heap) : Option MutexHandle × Heap :=
  match A.calloc h with
  | (none, h) => (none, h)
  | (some mutId, h) => match A.calloc h with
    | (none, h) => (none, h)
    | (some mHl, h) => (some ⟨mutId, mHl⟩, h)

/-- `hosted_create_lock_mempool` -/
def hostedCreateLockMempool : Allocator → Heap → Option MutexHandle × Heap := hostedCreateMutex

/-- A pool, what its structure and its lock are on the heap, and the heap -/
structure Owner where
  self : Block
  spinlock : Option MutexHandle
  state : State
  heap : Heap

/-- The structure of a new pool: a block that is not aligned is given back, and another one asked
for. -/
def obtainPool (A : Allocator) (h : Heap) : Option Block × Heap :=
  match A.calloc h with
  | (none, h) => (none, h)
  | (some new, h) =>
    if new.addr % alignmentBytes.toNat = 0 then (some new, h) else A.calloc (h.free new)

/-- `mempool_create` (mempool.c:30–60), with the heap where it returns `NULL` -/
def create (A : Allocator) (blockSize : UInt32) (memory : Memory) (h : Heap) :
    Except Heap Owner :=
  match obtainPool A h with
  | (none, h) => .error h
  | (some new, h) =>
    let lock := hostedCreateLockMempool A h
    .ok ⟨new, lock.1, State.init ⟨0, mempoolAligned blockSize⟩ memory, lock.2⟩

/-- One action. A block that `MEM_ALLOC` returns has bytes, and an address of its own. -/
def Owner.step (o : Owner) (a : Action) : Option Owner :=
  (o.state.step a).bind fun state =>
    match a with
    | .alloc nbytes _ fresh =>
      if o.state.AllocatesFresh nbytes ∧ fresh ≠ 0 then
        if (o.state.pool.freshBlock fresh).size ≠ 0 ∧ ∀ b ∈ o.heap.live, b.addr ≠ fresh then
          some { o with state, heap := (o.heap.malloc fresh).2 }
        else none
      else some { o with state }
    | _ => some { o with state }

/-- A block that is freed is live no longer. -/
theorem vPortFree_length {h h' : Heap} {addr : Nat} (hfree : vPortFree h addr = some h') :
    h'.live.length < h.live.length := by
  obtain ⟨b, hb, rfl⟩ := Option.map_eq_some_iff.mp hfree
  have hmem := List.mem_of_find?_eq_some hb
  rw [Heap.free_live, List.length_erase_of_mem hmem]
  exact Nat.sub_lt (List.length_pos_of_mem hmem) Nat.one_pos

/-- The loop of `mempool_destroy` -/
def destroyList (memory : Memory) (head : Nat) (h : Heap) : Option Heap :=
  if head = 0 then some h
  else match _hfree : vPortFree h head with
    | none => none
    | some h' => destroyList memory (load memory head) h'
termination_by h.live.length
decreasing_by exact vPortFree_length _hfree

/-- `mempool_destroy` (mempool.c:62–84) -/
def Owner.destroy (o : Owner) : Option Heap :=
  (destroyList o.state.memory o.state.pool.head o.heap).bind fun h => vPortFree h o.self.addr

/-! ## What is released -/

/-- Every object that was obtained since `h` has been freed, once; what was live there still is. -/
structure Released (h h' : Heap) : Prop where
  once : ∀ b ∈ h'.live ++ h'.freed, h.serial ≤ b.serial → h'.freed.count b = 1
  kept : ∀ b ∈ h.live, b ∈ h'.live

/-- The allocator refuses the request for the handle of the lock. -/
def LockRefused (A : Allocator) (h : Heap) : Prop :=
  (obtainPool A h).1.isSome → A.place (obtainPool A h).2 = none

/-! ## The calls on the heap -/

/-- Where the same blocks are owned as before, everything was released. -/
theorem released_of_owns {h h' : Heap} (own : h.Owns h.live) (own' : h'.Owns h.live) :
    Released h h' where
  once b hb hlater := by
    rcases List.mem_append.mp hb with hlive | hfreed
    · have hlt := own.serial_lt (own'.mem_iff.mp hlive)
      exact absurd hlater (Nat.not_le_of_lt hlt)
    · exact List.count_eq_one_of_mem own'.ok.freed_nodup hfreed
  kept b hb := own'.mem_iff.mpr hb

/-- A new object that is still live has not been freed. -/
theorem not_released {h h' : Heap} {b : Block} (ok : h'.Ok) (hb : b ∈ h'.live)
    (hlater : h.serial ≤ b.serial) : ¬ Released h h' := by
  intro released
  have hcount := released.once b (List.mem_append_left _ hb) hlater
  have hfreed : b ∈ h'.freed := List.count_pos_iff.mp (by omega)
  exact ok.notMem_freed hb hfreed

/-- A block that is owned can be freed. -/
theorem vPortFree_owns {h : Heap} {b : Block} {bs : List Block} (own : h.Owns (b :: bs)) :
    vPortFree h b.addr = some (h.free b) := by
  have hb : b ∈ h.live := own.mem_iff.mpr (List.mem_cons_self ..)
  have hsome : (h.live.find? fun c => c.addr == b.addr).isSome :=
    List.find?_isSome.mpr ⟨b, hb, beq_self_eq_true _⟩
  obtain ⟨c, hc⟩ := Option.isSome_iff_exists.mp hsome
  -- live objects have different addresses
  have haddr := List.find?_some hc
  have heq := List.inj_on_of_nodup_map own.apart (List.mem_of_find?_eq_some hc) hb (eq_of_beq haddr)
  rw [vPortFree, hc, heq]
  rfl

/-- The loop frees the entries of the list. -/
theorem destroyList_owns {memory : Memory} {entries : List Nat} {head : Nat} {h : Heap}
    {bs cs : List Block} (list : IsList memory head entries)
    (addrs : entries.Perm (bs.map Block.addr)) (own : h.Owns (bs ++ cs)) :
    ∃ h', destroyList memory head h = some h' ∧ h'.Owns cs := by
  induction entries generalizing head h bs with
  | nil =>
    have hnil : bs = [] := List.map_eq_nil_iff.mp (List.nil_perm.mp addrs)
    subst hnil
    have hhead : head = 0 := list
    rw [destroyList, if_pos hhead]
    exact ⟨h, rfl, own⟩
  | cons a entries ih =>
    obtain ⟨rfl, hne, hrest⟩ := list
    obtain ⟨b, hb, rfl⟩ := List.mem_map.mp (addrs.mem_iff.mp (List.mem_cons_self ..))
    have hperm := List.perm_cons_erase hb
    have own : h.Owns (b :: (bs.erase b ++ cs)) := own.perm (hperm.append_right cs)
    have addrs : entries.Perm ((bs.erase b).map Block.addr) :=
      (addrs.trans (hperm.map Block.addr)).cons_inv
    obtain ⟨h', hh', own'⟩ := ih hrest addrs own.free
    refine ⟨h', ?_, own'⟩
    rw [destroyList, if_neg hne]
    split
    · rename_i hnone
      rw [vPortFree_owns own] at hnone
      cases hnone
    · rename_i h₁ hsome
      rw [vPortFree_owns own] at hsome
      cases hsome
      exact hh'

/-! ## Runs -/

/-- The free list is sound; where a block would have no bytes, there are none. -/
inductive Sound (s : State) : Prop
  | listed (capacity : Nat) (entries : List Nat) (inv : Inv capacity s entries)
  | unused (size : (s.pool.freshBlock 0).size = 0) (head : s.pool.head = 0)
      (allocated : s.allocated = []) (held : s.held = [])

section Steps

variable {s s' : State} {a : Action}

/-- The entries of the list, once the clients hold no block -/
theorem Sound.entries (sound : Sound s) (hheld : s.held = []) :
    ∃ entries, IsList s.memory s.pool.head entries ∧
      entries.Perm (s.allocated.map PoolBlock.addr) := by
  cases sound with
  | listed capacity entries inv =>
    have hperm := inv.perm
    rw [hheld, List.append_nil] at hperm
    exact ⟨entries, inv.list, hperm⟩
  | unused size head allocated held =>
    rw [allocated]
    exact ⟨[], head, List.Perm.refl _⟩

/-- A call of `mempool_alloc` that gets a block from `MEM_ALLOC` -/
theorem step_alloc_fresh {nbytes : Int32} {needMemset : Bool} {fresh : Nat}
    (hfresh : s.AllocatesFresh nbytes ∧ fresh ≠ 0)
    (h : s.step (.alloc nbytes needMemset fresh) = some s') :
    s'.allocated = s.pool.freshBlock fresh :: s.allocated := by
  rw [State.step] at h
  dsimp only at h
  rw [if_pos hfresh] at h
  split at h
  · cases h
    rfl
  · cases h

/-- An allocation from the free list allocates nothing. -/
theorem step_alloc_other {nbytes : Int32} {needMemset : Bool} {fresh : Nat}
    (hfresh : ¬ (s.AllocatesFresh nbytes ∧ fresh ≠ 0))
    (h : s.step (.alloc nbytes needMemset fresh) = some s') : s'.allocated = s.allocated := by
  rw [State.step] at h
  dsimp only at h
  rw [if_neg hfresh] at h
  cases h
  rfl

/-- `mempool_free` keeps the block allocated. -/
theorem step_free {mem : Nat} (h : s.step (.free mem) = some s') : s'.allocated = s.allocated := by
  rw [State.step] at h
  split at h
  · cases h
    rfl
  · cases h

/-- A write changes the memory only. -/
theorem step_write {addr : Nat} {byte : UInt8} (h : s.step (.write addr byte) = some s') :
    s' = { s with memory := s'.memory } := by
  rw [State.step] at h
  split at h
  · cases h
    rfl
  · cases h

/-- Every step keeps the pool sound. -/
theorem Sound.step (sound : Sound s) (h : s.step a = some s')
    (hsize : ∀ nbytes needMemset fresh, a = .alloc nbytes needMemset fresh →
      s.AllocatesFresh nbytes ∧ fresh ≠ 0 → (s.pool.freshBlock fresh).size ≠ 0) : Sound s' := by
  cases sound with
  | listed capacity entries inv =>
    obtain ⟨entries', inv'⟩ := inv.step h
    exact .listed capacity entries' inv'
  | unused size head allocated held =>
    cases a with
    | alloc nbytes needMemset fresh =>
      have hnot : ¬ (s.AllocatesFresh nbytes ∧ fresh ≠ 0) := fun hfresh =>
        hsize nbytes needMemset fresh rfl hfresh size
      rw [State.step] at h
      dsimp only at h
      rw [if_neg hnot] at h
      by_cases hfits : s.pool.blockSize < nbytes.toUInt32
      · rw [mempoolAlloc_refused hfits] at h
        cases h
        exact .unused size head allocated held
      · -- what `MEM_ALLOC` returns is `NULL`
        have hzero : fresh = 0 := by
          by_contra hne
          exact hnot ⟨⟨hfits, head⟩, hne⟩
        rw [mempoolAlloc_fresh hfits head, hzero] at h
        cases h
        exact .unused size head allocated held
    | free mem =>
      rw [State.step, held] at h
      split at h
      · rename_i hguard
        have hzero : mem = 0 := hguard.resolve_right List.not_mem_nil
        rw [mempoolFree, if_pos hzero] at h
        cases h
        exact .unused size head allocated rfl
      · cases h
    | write addr byte =>
      rw [step_write h]
      exact .unused size head allocated held

end Steps

/-- `blocks` are the blocks that were allocated; `leaked` is what nobody will free. -/
structure Accounts (leaked others : List Block) (o : Owner) (blocks : List Block) : Prop where
  owns : o.heap.Owns (blocks ++ o.self :: (leaked ++ others))
  addrs : blocks.map Block.addr = o.state.allocated.map PoolBlock.addr
  sound : Sound o.state

section Accounts

variable {leaked others blocks : List Block} {o o' : Owner} {a : Action}

/-- Every step of the owner accounts for its blocks. -/
theorem Accounts.step (acc : Accounts leaked others o blocks) (h : o.step a = some o') :
    ∃ blocks', Accounts leaked others o' blocks' := by
  obtain ⟨state, hstate, h⟩ := Option.bind_eq_some_iff.mp h
  cases a with
  | alloc nbytes needMemset fresh =>
    dsimp only at h
    by_cases hfresh : o.state.AllocatesFresh nbytes ∧ fresh ≠ 0
    · have haddrs := step_alloc_fresh hfresh hstate
      rw [if_pos hfresh] at h
      split at h
      · rename_i hplaced
        cases h
        refine ⟨(o.heap.malloc fresh).1 :: blocks, acc.owns.malloc hplaced.2, ?_, ?_⟩
        · show fresh :: blocks.map Block.addr = state.allocated.map PoolBlock.addr
          rw [haddrs, acc.addrs]
          rfl
        · refine acc.sound.step hstate fun _ _ _ heq _ => ?_
          cases heq
          exact hplaced.1
      · cases h
    · have haddrs := step_alloc_other hfresh hstate
      rw [if_neg hfresh] at h
      cases h
      refine ⟨blocks, acc.owns, acc.addrs.trans ?_, acc.sound.step hstate fun _ _ _ heq hf => ?_⟩
      · rw [haddrs]
      · cases heq
        exact absurd hf hfresh
  | free mem =>
    cases h
    refine ⟨blocks, acc.owns, acc.addrs.trans ?_, acc.sound.step hstate nofun⟩
    rw [step_free hstate]
  | write addr byte =>
    cases h
    refine ⟨blocks, acc.owns, acc.addrs.trans ?_, acc.sound.step hstate nofun⟩
    rw [step_write hstate]

/-- `mempool_destroy` frees the blocks and the structure. -/
theorem Accounts.destroy (acc : Accounts leaked others o blocks) (hheld : o.state.held = []) :
    ∃ h, o.destroy = some h ∧ h.Owns (leaked ++ others) := by
  obtain ⟨entries, list, hperm⟩ := acc.sound.entries hheld
  rw [← acc.addrs] at hperm
  obtain ⟨h, hh, own⟩ := destroyList_owns list hperm acc.owns
  refine ⟨h.free o.self, ?_, own.free⟩
  rw [Owner.destroy, hh]
  exact vPortFree_owns own

end Accounts

/-! ## From the creation on -/

section Create

variable {A : Allocator} {h : Heap} {others : List Block}

/-- The allocations of a create are blocks of their own. -/
theorem obtainPool_owns (own : h.Owns others) :
    h.serial ≤ (obtainPool A h).2.serial ∧
      (obtainPool A h).2.Owns ((obtainPool A h).1.toList ++ others) := by
  unfold obtainPool
  rcases A.owns_calloc own with ⟨h₁, hc, own₁, hle⟩ | ⟨new, h₁, hc, own₁, -, hle⟩
  · rw [hc]
    exact ⟨hle, own₁⟩
  · rw [hc]
    dsimp only
    split
    · exact ⟨hle, own₁⟩
    · -- the structure is not aligned
      have hle : h.serial ≤ (h₁.free new).serial := hle
      rcases A.owns_calloc own₁.free with ⟨h₂, hc, own₂, hle'⟩ | ⟨_, h₂, hc, own₂, -, hle'⟩
      · rw [hc]
        exact ⟨Nat.le_trans hle hle', own₂⟩
      · rw [hc]
        exact ⟨Nat.le_trans hle hle', own₂⟩

/-- The lock takes up something, unless the request for its handle is refused. -/
theorem hostedCreateMutex_owns (own : h.Owns others) :
    ∃ leaked, (hostedCreateMutex A h).2.Owns (leaked ++ others) ∧
      (leaked = [] ↔ A.place h = none) ∧ ∀ b ∈ leaked, h.serial ≤ b.serial := by
  have hplace : (A.calloc h).1 = none ↔ A.place h = none := by
    unfold Allocator.calloc
    cases A.place h <;> simp
  unfold hostedCreateMutex
  rcases A.owns_calloc own with ⟨h₁, hc, own₁, -⟩ | ⟨mutId, h₁, hc, own₁, hserial, hle⟩
  · rw [hc] at hplace ⊢
    exact ⟨[], own₁, ⟨fun _ => hplace.mp rfl, fun _ => rfl⟩, nofun⟩
  · rw [hc] at hplace ⊢
    have hgranted : A.place h ≠ none := hplace.not.mp nofun
    have hmutId : ∀ b ∈ [mutId], h.serial ≤ b.serial := by
      intro b hb
      rw [List.mem_singleton.mp hb, hserial]
    rcases A.owns_calloc own₁ with ⟨h₂, hc, own₂, -⟩ | ⟨mHl, h₂, hc, own₂, hserial, -⟩
    · dsimp only
      rw [hc]
      exact ⟨[mutId], own₂, ⟨nofun, fun hnone => absurd hnone hgranted⟩, hmutId⟩
    · dsimp only
      rw [hc]
      refine ⟨[mHl, mutId], own₂, ⟨nofun, fun hnone => absurd hnone hgranted⟩, fun b hb => ?_⟩
      rcases List.mem_cons.mp hb with rfl | hb
      · rw [hserial]
        exact hle
      · exact hmutId b hb

/-- A new pool is sound. -/
theorem sound_init (blockSize : UInt32) (memory : Memory) :
    Sound (State.init ⟨0, mempoolAligned blockSize⟩ memory) := by
  by_cases hsize : (Pool.freshBlock ⟨0, mempoolAligned blockSize⟩ 0).size = 0
  · exact .unused hsize rfl rfl rfl
  · have hcreate : mempoolCreate (some 0) none blockSize = some ⟨0, mempoolAligned blockSize⟩ := rfl
    exact .listed _ [] (inv_init hcreate hsize memory)

/-- What `mempool_create` can do: it returns `NULL` and has given everything back, or the pool has
its structure and what belongs to the lock. -/
theorem create_cases (own : h.Owns others) (A : Allocator) (blockSize : UInt32)
    (memory : Memory) :
    (∃ h', create A blockSize memory h = .error h' ∧ h'.Owns others) ∨
      ∃ o leaked, create A blockSize memory h = .ok o ∧ Accounts leaked others o [] ∧
        (leaked = [] ↔ LockRefused A h) ∧ ∀ b ∈ leaked, h.serial ≤ b.serial := by
  obtain ⟨hle, own₁⟩ := obtainPool_owns (A := A) own
  rw [create, LockRefused]
  rcases hobtain : obtainPool A h with ⟨new, h₁⟩
  rw [hobtain] at hle own₁
  cases new with
  | none => exact .inl ⟨h₁, rfl, own₁⟩
  | some new =>
    obtain ⟨leaked, own₂, hiff, hlater⟩ := hostedCreateMutex_owns (A := A) own₁
    refine .inr ⟨_, leaked, rfl, ⟨own₂.perm List.perm_middle, rfl, sound_init ..⟩, ?_, ?_⟩
    · exact hiff.trans ⟨fun hnone _ => hnone, fun hnone => hnone rfl⟩
    · exact fun b hb => Nat.le_trans hle (hlater b hb)

end Create

/-- After `mempool_destroy` everything has been released, but for what the lock has taken up. -/
theorem Accounts.released_iff {h : Heap} {leaked blocks : List Block} {o : Owner}
    (own : h.Owns h.live) (acc : Accounts leaked h.live o blocks) (hheld : o.state.held = [])
    (hlater : ∀ b ∈ leaked, h.serial ≤ b.serial) :
    ∃ h', o.destroy = some h' ∧ (Released h h' ↔ leaked = []) := by
  obtain ⟨h', hh', own'⟩ := acc.destroy hheld
  refine ⟨h', hh', ?_⟩
  constructor
  · intro released
    refine List.eq_nil_iff_forall_not_mem.mpr fun b hb => ?_
    have hlive := own'.mem_iff.mpr (List.mem_append_left h.live hb)
    exact not_released own'.ok hlive (hlater b hb) released
  · rintro rfl
    exact released_of_owns own own'

/-- What every run from a new pool keeps -/
theorem exec_accounts {leaked others : List Block} {o t : Owner} {actions : List Action}
    (acc : Accounts leaked others o []) (ht : Machine.exec Owner.step o actions = some t) :
    ∃ blocks, Accounts leaked others t blocks :=
  Machine.exec_inv (P := fun t => ∃ bs, Accounts leaked others t bs)
    (fun _ _ _ hstep ⟨_, acc⟩ => acc.step hstep) ht ⟨[], acc⟩

/-- A failed `mempool_create` has released everything. After a successful one, any run that leaves
the clients without blocks, and `mempool_destroy`, this holds exactly when the pool got no handle
for its lock. -/
theorem released_iff_lockRefused (A : Allocator) (h : Heap) (own : h.Owns h.live)
    (blockSize : UInt32) (memory : Memory) :
    match create A blockSize memory h with
    | .error h' => Released h h'
    | .ok o => ∀ actions t, Machine.exec Owner.step o actions = some t → t.state.held = [] →
        ∃ h', t.destroy = some h' ∧ (Released h h' ↔ LockRefused A h) := by
  rcases create_cases own A blockSize memory with
    ⟨h', hcreate, own'⟩ | ⟨o, leaked, hcreate, acc, hiff, hlater⟩
  · rw [hcreate]
    exact released_of_owns own own'
  · rw [hcreate]
    intro actions t ht hheld
    obtain ⟨blocks, acc⟩ := exec_accounts acc ht
    rw [← hiff]
    exact acc.released_iff own hheld hlater

/-- An allocator that serves the requests before the `n`th, at multiples of eight -/
def eights (n : Nat) : Allocator where
  place h :=
    if h.serial < n ∧ ∀ b ∈ h.live, b.addr ≠ 8 * (h.serial + 1) then some (8 * (h.serial + 1))
    else none
  place_fresh h a ha := by
    split at ha
    · rename_i hfresh
      cases ha
      exact hfresh.2
    · cases ha

/-- A client gets a block and frees it. -/
def borrow : List Action := [.alloc 5 true 0x100, .free 0x100]

/-- There is memory for the structure only, and the pool is used without a lock. -/
theorem released_iff_lockRefused_withoutLock : ∃ o t h',
    create (eights 1) 5 (fun _ => 0xFF) .empty = .ok o ∧
      Machine.exec Owner.step o borrow = some t ∧ t.destroy = some h' ∧ Released .empty h' := by
  have hiff := released_iff_lockRefused (eights 1) .empty Heap.owns_empty 5 fun _ => 0xFF
  let o : Owner := ⟨⟨8, 0⟩, none, State.init ⟨0, 8⟩ fun _ => 0xFF, ⟨2, [⟨8, 0⟩], []⟩⟩
  have hcreate : create (eights 1) 5 (fun _ => 0xFF) .empty = .ok o := rfl
  rw [hcreate] at hiff
  have hrun : (Machine.exec Owner.step o borrow).any fun t => t.state.held == [] := by
    decide +kernel
  obtain ⟨t, ht, hheld⟩ := (Option.any_eq_true _ _).mp hrun
  obtain ⟨h', hh', hreleased⟩ := hiff borrow t ht (eq_of_beq hheld)
  exact ⟨o, t, h', hcreate, ht, hh', hreleased.mpr fun _ => rfl⟩

/-- With a handle for its lock, a pool leaks it. -/
theorem not_released_of_granted {A : Allocator} {o : Owner}
    (hcreate : create A 5 (fun _ => 0xFF) .empty = .ok o) (hlock : ¬ LockRefused A .empty)
    (hrun : (Machine.exec Owner.step o borrow).any fun t => t.state.held == []) :
    ∃ t h', Machine.exec Owner.step o borrow = some t ∧ t.state.held = [] ∧
      t.destroy = some h' ∧ ¬ Released .empty h' := by
  obtain ⟨t, ht, hheld⟩ := (Option.any_eq_true _ _).mp hrun
  have hheld := eq_of_beq hheld
  rcases create_cases Heap.owns_empty A 5 fun _ => 0xFF with
    ⟨h', herror, -⟩ | ⟨o', leaked, ho, acc, hiff, hlater⟩
  · cases hcreate.symm.trans herror
  · cases hcreate.symm.trans ho
    obtain ⟨blocks, acc⟩ := exec_accounts acc ht
    obtain ⟨h', hh', hreleased⟩ := acc.released_iff Heap.owns_empty hheld hlater
    exact ⟨t, h', ht, hheld, hh', (hreleased.trans hiff).not.mpr hlock⟩

/-- With memory for the handle of the lock, or for its mutex too, these stay live. -/
theorem not_released_lock :
    (∃ o t h', create (eights 2) 5 (fun _ => 0xFF) .empty = .ok o ∧
      Machine.exec Owner.step o borrow = some t ∧ t.state.held = [] ∧ t.destroy = some h' ∧
        ¬ Released .empty h') ∧
    ∃ o t h', create (eights 3) 5 (fun _ => 0xFF) .empty = .ok o ∧
      Machine.exec Owner.step o borrow = some t ∧ t.state.held = [] ∧ t.destroy = some h' ∧
        ¬ Released .empty h' := by
  have handle : ¬ LockRefused (eights 2) .empty := fun h => absurd (h rfl) (by decide)
  have mutex : ¬ LockRefused (eights 3) .empty := fun h => absurd (h rfl) (by decide)
  constructor
  · obtain ⟨t, h', ht⟩ := not_released_of_granted rfl handle (by decide +kernel)
    exact ⟨_, t, h', rfl, ht⟩
  · obtain ⟨t, h', ht⟩ := not_released_of_granted rfl mutex (by decide +kernel)
    exact ⟨_, t, h', rfl, ht⟩

end PicoHost.Mempool
