import PicoHost.Mempool.Release

/-!
# Handles of kernel objects

The tasks, queues, mutexes and semaphores of `os_wrapper.c`. Each constructor pairs a handle from
`hosted_malloc` with an object of FreeRTOS, and each destructor takes the two back. `pvPortMalloc`
and the creation calls of FreeRTOS are any allocators; assertions are compiled out, and `NULL` is
`none`.

`CreatedOrRestored` is what the callers rely on: nothing is left to clean up where a constructor
returns `NULL`. `hosted_thread_create` frees its handle where there is no task; the other three keep
theirs.
-/

namespace PicoHost.OsWrapper

/-- `RET_OK` -/
def retOk : Int := 0

/-- `RET_INVALID` -/
def retInvalid : Int := -2

/-- FreeRTOS: each call returns `NULL` or a new object. The addresses that a task is given are
numbers here. -/
structure Kernel where
  xTaskCreate (startRoutine tname : Nat) (stackSize : UInt32) (srArg : Nat) (prio : UInt32) :
    Allocator
  xQueueCreate (qnumElem qitemSize : UInt32) : Allocator
  xSemaphoreCreateMutex : Allocator
  xSemaphoreCreateCounting (maxCount initialCount : Int32) : Allocator
  xSemaphoreCreateBinary : Allocator

/-- `thread_handle_t`, `queue_handle_t`, `mutex_handle_t` and `semaphore_handle_t`: the block of the
handle, and its only field -/
structure Handle where
  self : Block
  hl : Option Block
deriving DecidableEq, Repr

/-! ## Threads -/

/-- `hosted_thread_create` (os_wrapper.c:146–184); `garbage` is what the memory of the handle holds
when it is new. -/
def hostedThreadCreate (K : Kernel) (A : Allocator) (tname : Nat) (tprio tstackSize : UInt32)
    (startRoutine srArg : Nat) (garbage : Option Block) (h : Heap) : Option Handle × Heap :=
  if startRoutine = 0 then (none, h)
  else match A.calloc h with
    | (none, h) => (none, h)
    | (some threadHandle, h) =>
      let r := (K.xTaskCreate startRoutine tname tstackSize srArg tprio).calloc h
      -- the field is written only where there is a task
      let tHl := if r.1.isSome then r.1 else garbage
      if tHl.isNone then (none, r.2.free threadHandle)
      else if r.1.isNone then (none, r.2.free threadHandle)
      else (some ⟨threadHandle, tHl⟩, r.2)

/-! ## Queues, mutexes and semaphores -/

/-- A handle, and the object that goes into it. Where there is no object, the handle stays. -/
def createHandle (A object : Allocator) (h : Heap) : Option Handle × Heap :=
  match A.calloc h with
  | (none, h) => (none, h)
  | (some self, h) => match object.calloc h with
    | (none, h) => (none, h)
    | (some hl, h) => (some ⟨self, some hl⟩, h)

/-- `hosted_create_queue` (os_wrapper.c:253–274) -/
def hostedCreateQueue (K : Kernel) (A : Allocator) (qnumElem qitemSize : UInt32) :
    Heap → Option Handle × Heap :=
  createHandle A (K.xQueueCreate qnumElem qitemSize)

/-- `hosted_create_mutex` (os_wrapper.c:373–396) -/
def hostedCreateMutex (K : Kernel) (A : Allocator) : Heap → Option Handle × Heap :=
  createHandle A K.xSemaphoreCreateMutex

/-- The semaphore that `hosted_create_semaphore` asks for -/
def Kernel.semaphore (K : Kernel) (maxCount : Int32) : Allocator :=
  if maxCount > 1 then K.xSemaphoreCreateCounting maxCount 0 else K.xSemaphoreCreateBinary

/-- `hosted_create_semaphore` (os_wrapper.c:484–511) -/
def hostedCreateSemaphore (K : Kernel) (A : Allocator) (maxCount : Int32) :
    Heap → Option Handle × Heap :=
  createHandle A (K.semaphore maxCount)

/-- The object is deleted, and the handle freed. -/
def destroyHandle (arg : Option Handle) (h : Heap) : Int × Heap :=
  match arg with
  | none => (retInvalid, h)
  | some handle => match handle.hl with
    | none => (retInvalid, h)
    | some hl => (retOk, (h.free hl).free handle.self)

/-- `hosted_thread_cancel` (os_wrapper.c:186–205) -/
def hostedThreadCancel : Option Handle → Heap → Int × Heap := destroyHandle

/-- `hosted_destroy_queue` (os_wrapper.c:314–334) -/
def hostedDestroyQueue : Option Handle → Heap → Int × Heap := destroyHandle

/-- `hosted_destroy_mutex` (os_wrapper.c:422–440) -/
def hostedDestroyMutex : Option Handle → Heap → Int × Heap := destroyHandle

/-- `hosted_destroy_semaphore` (os_wrapper.c:551–570) -/
def hostedDestroySemaphore : Option Handle → Heap → Int × Heap := destroyHandle

/-- The lock of a memory pool is a mutex of this kind; one allocator serves both requests there. -/
theorem hostedCreateMutex_eq (K : Kernel) (h : Heap) :
    hostedCreateMutex K K.xSemaphoreCreateMutex h =
      let r := Mempool.hostedCreateMutex K.xSemaphoreCreateMutex h
      (r.1.map fun mutex => ⟨mutex.handle, some mutex.mHl⟩, r.2) := by
  rw [hostedCreateMutex, createHandle, Mempool.hostedCreateMutex]
  rcases K.xSemaphoreCreateMutex.calloc h with ⟨handle, h₁⟩
  cases handle with
  | none => rfl
  | some handle =>
    dsimp only
    rcases K.xSemaphoreCreateMutex.calloc h₁ with ⟨hl, h₂⟩
    cases hl with
    | none => rfl
    | some hl => rfl

/-! ## Created, or as before -/

/-- `NULL` leaves the heap as it was. A handle has everything that was allocated: in any later heap
in which this is still live, the destroy call releases it, and nothing else. -/
def CreatedOrRestored (destroy : Option Handle → Heap → Int × Heap) (h : Heap)
    (r : Option Handle × Heap) : Prop :=
  match r.1 with
  | none => h.Restored r.2
  | some handle => ∃ own, r.2.live = own ++ h.live ∧ r.2.freed = h.freed ∧
      ∀ later others, Heap.Owns later (own ++ others) →
        ∃ last, destroy (some handle) later = (retOk, last) ∧ last.Owns others

/-- Where there is memory for the handle, there is an object for it too. -/
def ObjectGranted (A object : Allocator) (h : Heap) : Prop :=
  ∀ a, A.place h = some a → (object.place (h.malloc a).2).isSome

/-! ## The constructors -/

section Create

variable {A object : Allocator} {h h₁ h₂ : Heap} {self hl : Block}

/-- A handle with its object can be destroyed, whenever that is. -/
theorem createdOrRestored_both (hself : A.calloc h = (some self, h₁))
    (hobject : object.calloc h₁ = (some hl, h₂)) :
    CreatedOrRestored destroyHandle h (some ⟨self, some hl⟩, h₂) := by
  have hfreed₁ := A.calloc_freed h
  have hfreed₂ := object.calloc_freed h₁
  rw [hself] at hfreed₁
  rw [hobject] at hfreed₂
  refine ⟨[hl, self], ?_, hfreed₂.trans hfreed₁, ?_⟩
  · show h₂.live = _
    rw [Allocator.calloc_live hobject, Allocator.calloc_live hself]
    rfl
  · intro later others own
    exact ⟨_, rfl, own.free.free⟩

/-- The three constructors create or restore unless the object is refused after the handle. -/
theorem createHandle_iff (A object : Allocator) (h : Heap) :
    CreatedOrRestored destroyHandle h (createHandle A object h) ↔ ObjectGranted A object h := by
  rw [createHandle]
  cases hself : A.place h with
  | none =>
    have hc := Allocator.calloc_refused hself
    rw [hc]
    constructor
    · intro _ a ha
      cases hself.symm.trans ha
    · intro _
      exact Heap.restored_refused hc
  | some a =>
    have hc := Allocator.calloc_granted hself
    rw [hc]
    dsimp only
    cases hobject : object.place (h.malloc a).2 with
    | none =>
      rw [Allocator.calloc_refused hobject]
      constructor
      · -- the handle is still live
        intro restored
        have hlive : (h.malloc a).1 :: h.live = h.live := restored.live
        exact absurd hlive (List.cons_ne_self _ _)
      · intro granted
        have hsome := granted a hself
        rw [hobject] at hsome
        cases hsome
    | some b =>
      have hc' := Allocator.calloc_granted hobject
      rw [hc']
      constructor
      · intro _ a' ha'
        cases hself.symm.trans ha'
        rw [hobject]
        rfl
      · intro _
        exact createdOrRestored_both hc hc'

/-- `hosted_thread_create` creates or restores, whatever is refused. -/
theorem hostedThreadCreate_created (K : Kernel) (A : Allocator) (tname : Nat)
    (tprio tstackSize : UInt32) (startRoutine srArg : Nat) (garbage : Option Block) (h : Heap) :
    CreatedOrRestored hostedThreadCancel h
      (hostedThreadCreate K A tname tprio tstackSize startRoutine srArg garbage h) := by
  rw [hostedThreadCreate]
  split
  · exact Heap.Restored.refl h
  rcases hc : A.calloc h with ⟨threadHandle, h₁⟩
  cases threadHandle with
  | none => exact Heap.restored_refused hc
  | some threadHandle =>
    dsimp only
    rcases hc' : (K.xTaskCreate startRoutine tname tstackSize srArg tprio).calloc h₁ with ⟨hl, h₂⟩
    cases hl with
    | none =>
      -- one of the two checks frees the handle, whatever its memory holds
      have restored : h.Restored (h₂.free threadHandle) :=
        Heap.Restored.free hc (Heap.restored_refused hc')
      cases garbage with
      | none => exact restored
      | some g => exact restored
    | some hl => exact createdOrRestored_both hc hc'

end Create

/-- Whatever is refused, `hosted_thread_create` returns a handle whose destroy call releases
everything, or `NULL` with the heap as before. The other three do so exactly when the kernel object
is not refused after the handle has been allocated. -/
theorem createdOrRestored_iff_objectGranted (K : Kernel) (A : Allocator) (h : Heap) :
    (∀ tname tprio tstackSize startRoutine srArg garbage,
      CreatedOrRestored hostedThreadCancel h
        (hostedThreadCreate K A tname tprio tstackSize startRoutine srArg garbage h)) ∧
    (∀ qnumElem qitemSize,
      CreatedOrRestored hostedDestroyQueue h (hostedCreateQueue K A qnumElem qitemSize h) ↔
        ObjectGranted A (K.xQueueCreate qnumElem qitemSize) h) ∧
    (CreatedOrRestored hostedDestroyMutex h (hostedCreateMutex K A h) ↔
      ObjectGranted A K.xSemaphoreCreateMutex h) ∧
    ∀ maxCount, CreatedOrRestored hostedDestroySemaphore h (hostedCreateSemaphore K A maxCount h) ↔
      ObjectGranted A (K.semaphore maxCount) h := by
  refine ⟨?_, ?_, ?_, ?_⟩
  · intro tname tprio tstackSize startRoutine srArg garbage
    exact hostedThreadCreate_created K A tname tprio tstackSize startRoutine srArg garbage h
  · intro qnumElem qitemSize
    exact createHandle_iff A (K.xQueueCreate qnumElem qitemSize) h
  · exact createHandle_iff A K.xSemaphoreCreateMutex h
  · intro maxCount
    exact createHandle_iff A (K.semaphore maxCount) h

/-- The kernel on a heap with memory for `n` requests -/
def Kernel.limited (n : Nat) : Kernel where
  xTaskCreate _ _ _ _ _ := .limited n
  xQueueCreate _ _ := .limited n
  xSemaphoreCreateMutex := .limited n
  xSemaphoreCreateCounting _ _ := .limited n
  xSemaphoreCreateBinary := .limited n

/-- There is memory for the handle only: it is lost. -/
theorem not_createdOrRestored :
    ¬ CreatedOrRestored hostedDestroyQueue .empty
        (hostedCreateQueue (.limited 1) (.limited 1) 3 4 .empty) ∧
    ¬ CreatedOrRestored hostedDestroyMutex .empty
        (hostedCreateMutex (.limited 1) (.limited 1) .empty) ∧
    ¬ CreatedOrRestored hostedDestroySemaphore .empty
        (hostedCreateSemaphore (.limited 1) (.limited 1) 1 .empty) := by
  refine ⟨?_, ?_, ?_⟩
  · intro restored
    exact absurd restored.live (by decide)
  · intro restored
    exact absurd restored.live (by decide)
  · intro restored
    exact absurd restored.live (by decide)

end PicoHost.OsWrapper
