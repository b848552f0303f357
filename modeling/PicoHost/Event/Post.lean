import PicoHost.Event.Types
import Mathlib.Logic.Function.Basic

/-!
# Posts and copies of event data

A post in the queue carries its data in a union: a pointer to a copy on the heap
(`esp_event_post_to`), or the data itself in the four bytes of `val`
(`esp_event_isr_post_to`). The flags `data_allocated` and `data_set` tell which. The
union is read by the flags alone, so a post with wrong flags would pass its data to
`free` as a pointer: `Memory.words` records such calls.
-/

namespace PicoHost.Event

/-! ## Types -/

/-- `sizeof(post.data.val)` -/
abbrev valSize : Nat := 4

/-- `esp_event_post_data_t` -/
inductive PostData where
  | val (bytes : Vector UInt8 valSize)
  | ptr (copy : Option Block)
deriving DecidableEq, Repr

/-- `esp_event_post_instance_t` -/
structure Post where
  dataAllocated : Bool
  dataSet : Bool
  base : EventBase
  id : Int32
  data : PostData
deriving DecidableEq, Repr

/-- The arguments `event_data` and `event_data_size`: `NULL` with any size, or the bytes
that `event_data` points to. -/
inductive EventData where
  | null (size : Nat)
  | bytes (data : List UInt8)
deriving DecidableEq, Repr

def EventData.size : EventData → Nat
  | .null size => size
  | .bytes data => data.length

/-- The bytes that the caller passes. -/
def EventData.toBytes : EventData → List UInt8
  | .null _ => []
  | .bytes data => data

/-- The heap of the copies, their bytes, and the words that were passed to `free`. -/
structure Memory where
  heap : Heap
  bytes : Block → List UInt8
  words : List (Vector UInt8 valSize)

def Memory.empty : Memory := ⟨Heap.empty, fun _ => [], []⟩

/-! ## Building a post -/

/-- `memset(&post, 0, sizeof(post))` -/
def Post.zero : Post := ⟨false, false, none, 0, .val (.replicate valSize 0)⟩

/-- `calloc` and `memcpy` of a copy of the event data (esp_event.c:887–893). -/
def Memory.copy (A : Allocator) (memory : Memory) (data : List UInt8) : Option Block × Memory :=
  match A.calloc memory.heap with
  | (none, heap) => (none, { memory with heap })
  | (some p, heap) => (some p, { memory with heap, bytes := Function.update memory.bytes p data })

/-- The post that `esp_event_post_to` builds (esp_event.c:882–903); `none` if there is no
memory for the copy. -/
def newPost (A : Allocator) (memory : Memory) (base : EventBase) (id : Int32) (data : EventData) :
    Option Post × Memory :=
  match data with
  | .null _ | .bytes [] => (some { Post.zero with base, id }, memory)
  | .bytes (byte :: rest) =>
    match memory.copy A (byte :: rest) with
    | (none, memory) => (none, memory)
    | (some p, memory) =>
      (some { dataAllocated := true, dataSet := true, base, id, data := .ptr (some p) }, memory)

/-- `memcpy` to `val`, which is zero. -/
def inlineVal (data : List UInt8) : Vector UInt8 valSize :=
  .ofFn fun i => data.getD i 0

/-- The post that `esp_event_isr_post_to` builds (esp_event.c:969–983); `none` if the data
does not fit. -/
def newIsrPost (base : EventBase) (id : Int32) (data : EventData) : Option Post :=
  if data.size > valSize then none
  else match data with
    | .null _ | .bytes [] => some { Post.zero with base, id }
    | .bytes (byte :: rest) =>
      some { dataAllocated := false, dataSet := true, base, id,
             data := .val (inlineVal (byte :: rest)) }

/-! ## Using and deleting a post -/

/-- `free(post->data.ptr)`, if `post->data.ptr` is not `NULL`. -/
def Memory.freeData (memory : Memory) : PostData → Memory
  | .ptr none => memory
  | .ptr (some p) => { memory with heap := memory.heap.free p }
  | .val bytes =>
    if bytes = .replicate valSize 0 then memory
    else { memory with words := bytes :: memory.words }

/-- `post_instance_delete` (esp_event.c:433–445). The `memset` is of a local variable
that the callers do not read again. -/
def postInstanceDelete (memory : Memory) (post : Post) : Memory :=
  if post.dataAllocated then memory.freeData post.data else memory

/-- What a handler reads at the pointer that it gets from `handler_execute`
(esp_event.c:134–146), `none` for `NULL`. No post mixes the flags with the other member
of the union, see `Post.Ok`. -/
def Memory.eventData (memory : Memory) (post : Post) : Option (List UInt8) :=
  if post.dataSet then
    if post.dataAllocated then
      match post.data with
      | .ptr p => p.map memory.bytes
      | .val _ => none
    else
      match post.data with
      | .val bytes => some bytes.toList
      | .ptr _ => none
  else none

/-! ## Posts in use -/

/-- The posts that are built: without data, with a copy, and with the data in `val`. -/
inductive Post.Ok : Post → Prop
  | empty (base : EventBase) (id : Int32) : Ok { Post.zero with base, id }
  | copied (base : EventBase) (id : Int32) (p : Block) :
    Ok ⟨true, true, base, id, .ptr (some p)⟩
  | inlined (base : EventBase) (id : Int32) (bytes : Vector UInt8 valSize) :
    Ok ⟨false, true, base, id, .val bytes⟩

/-- The copies that a post owns. -/
def Post.copies (post : Post) : List Block :=
  if post.dataAllocated then
    match post.data with
    | .ptr p => p.toList
    | .val _ => []
  else []

/-- To delete a post frees what it owns, and nothing else. -/
theorem postInstanceDelete_eq {post : Post} (ok : post.Ok) (memory : Memory) :
    postInstanceDelete memory post = { memory with heap := memory.heap.freeAll post.copies } := by
  cases ok with
  | empty | copied | inlined => rfl

/-- The data of a post depends on the bytes of its own copy alone. -/
theorem eventData_congr {memory memory' : Memory} {post : Post}
    (h : ∀ p ∈ post.copies, memory'.bytes p = memory.bytes p) :
    memory'.eventData post = memory.eventData post := by
  unfold Memory.eventData
  unfold Post.copies at h
  split
  · split
    · rename_i hallocated
      rw [if_pos hallocated] at h
      split
      · rename_i p hdata
        rw [hdata] at h
        cases p with
        | none => rfl
        | some p => exact congrArg some (h p (List.mem_singleton_self p))
      · rfl
    · rfl
  · rfl

/-! ## Events -/

/-- An event that a caller posts. -/
structure Posted where
  base : EventBase
  id : Int32
  bytes : List UInt8
deriving DecidableEq, Repr

/-- What a dispatch hands to the handlers, and the copies of the post. -/
structure Delivery where
  base : EventBase
  id : Int32
  data : Option (List UInt8)
  copies : List Block
deriving DecidableEq, Repr

/-- What the handlers get if the post is dispatched now. -/
def Memory.delivery (memory : Memory) (post : Post) : Delivery :=
  ⟨post.base, post.id, memory.eventData post, post.copies⟩

/-- The handlers get the event: its base and id, and its bytes at the pointer to the data.
The pointer is `NULL` only if there are no bytes. -/
def Posted.DeliveredBy (event : Posted) (delivery : Delivery) : Prop :=
  delivery.base = event.base ∧ delivery.id = event.id ∧
    match delivery.data with
    | none => event.bytes = []
    | some bytes => event.bytes <+: bytes

instance (event : Posted) (delivery : Delivery) : Decidable (event.DeliveredBy delivery) := by
  unfold Posted.DeliveredBy
  cases delivery.data <;> exact inferInstance

theorem delivery_congr {memory memory' : Memory} {post : Post}
    (h : ∀ p ∈ post.copies, memory'.bytes p = memory.bytes p) :
    memory'.delivery post = memory.delivery post := by
  unfold Memory.delivery
  rw [eventData_congr h]

theorem inlineVal_prefix {data : List UInt8} (h : data.length ≤ valSize) :
    data <+: (inlineVal data).toList := by
  rw [List.prefix_iff_getElem?]
  intro i hi
  have hi' : i < valSize := Nat.lt_of_lt_of_le hi h
  simp [inlineVal, hi, hi']

/-- What `esp_event_post_to` builds. -/
theorem newPost_cases (A : Allocator) (memory : Memory) (base : EventBase) (id : Int32)
    (data : EventData) :
    (∃ heap, A.calloc memory.heap = (none, heap) ∧
      newPost A memory base id data = (none, { memory with heap })) ∨
    (∃ post, newPost A memory base id data = (some post, memory) ∧ post.Ok ∧ post.copies = [] ∧
      Posted.DeliveredBy ⟨base, id, data.toBytes⟩ (memory.delivery post)) ∨
    ∃ p heap post, A.calloc memory.heap = (some p, heap) ∧ post.Ok ∧ post.copies = [p] ∧
      newPost A memory base id data = (some post,
        { memory with heap, bytes := Function.update memory.bytes p data.toBytes }) ∧
      ∀ memory' : Memory, memory'.bytes p = data.toBytes →
        Posted.DeliveredBy ⟨base, id, data.toBytes⟩ (memory'.delivery post) := by
  unfold newPost
  split
  · exact .inr (.inl ⟨_, rfl, .empty base id, rfl, rfl, rfl, rfl⟩)
  · exact .inr (.inl ⟨_, rfl, .empty base id, rfl, rfl, rfl, rfl⟩)
  · rename_i byte rest
    unfold Memory.copy
    rcases hcalloc : A.calloc memory.heap with ⟨_ | p, heap⟩
    · exact .inl ⟨heap, rfl, rfl⟩
    · refine .inr (.inr ⟨p, heap, _, rfl, .copied base id p, rfl, rfl, fun memory' h => ?_⟩)
      refine ⟨rfl, rfl, ?_⟩
      show (byte :: rest) <+: memory'.bytes p
      rw [h]
      exact List.prefix_refl _

/-- What `esp_event_isr_post_to` builds. -/
theorem newIsrPost_spec {base : EventBase} {id : Int32} {data : EventData} {post : Post}
    (h : newIsrPost base id data = some post) :
    post.Ok ∧ post.copies = [] ∧
      ∀ memory : Memory, Posted.DeliveredBy ⟨base, id, data.toBytes⟩ (memory.delivery post) := by
  unfold newIsrPost at h
  split at h
  · cases h
  · rename_i hsize
    split at h
    · cases h
      exact ⟨.empty base id, rfl, fun _ => ⟨rfl, rfl, rfl⟩⟩
    · cases h
      exact ⟨.empty base id, rfl, fun _ => ⟨rfl, rfl, rfl⟩⟩
    · cases h
      refine ⟨.inlined base id _, rfl, fun _ => ⟨rfl, rfl, ?_⟩⟩
      exact inlineVal_prefix (Nat.le_of_not_lt hsize)

end PicoHost.Event
