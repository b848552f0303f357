import PicoHost.Event.Loop
import PicoHost.Lib.Emit
import PicoHost.Lib.HoldCount

/-!
# The operations with what they do to the mutex

The functions of `esp_event.c` once more, as code that emits what it does to the mutex of
the loop and to the registration lists, in the order of the source and with its early
exits. An access is one step of a walk through the lists: the pointer to the first node, or
the `next` field of a node, is read or written, or a list is asked whether it is empty.

What the functions return is what the functions without events return (`value_…`).
-/

namespace PicoHost.Event

open LastMatch

/-- What a task does besides taking, giving and walking: `xSemaphoreGive` on the recursive
mutex, and `free` of the loop. -/
inductive LoopEvent where
  | giveOnce | delete
deriving DecidableEq, Repr

/-- What a task does with a loop, first to last. -/
abbrev Trace := List (HoldCount.Event LoopEvent)

/-- Code that works on a loop. -/
abbrev Traced (α : Type) := Emit (HoldCount.Event LoopEvent) α

namespace Traced

open Emit

/-- `xSemaphoreTakeRecursive(loop->mutex, portMAX_DELAY)` -/
def take : Traced Unit := emit .take

/-- `xSemaphoreGiveRecursive(loop->mutex)` -/
def give : Traced Unit := emit .give

/-- One step of a walk. -/
def access : Traced Unit := emit .access

section Walks

variable {α β : Type}

/-- `SLIST_FOREACH` around a body that remembers the last match. -/
def splitLast (p : α → Bool) : List α → Traced (Option (List α × α × List α))
  | [] => do
    access
    pure none
  | it :: rest => do
    access
    match ← splitLast p rest with
    | some (pre, last, post) => pure (some (it :: pre, last, post))
    | none => pure (if p it then some ([], it, rest) else none)

/-- `SLIST_FOREACH_SAFE` around a body that goes on in any case. -/
def forEach (body : β → α → Traced β) (b : β) : List α → Traced β
  | [] => do
    access
    pure b
  | it :: rest => do
    access
    let b ← body b it
    forEach body b rest

/-- `SLIST_FOREACH` around a body that may jump out. -/
def any (found : α → Traced Bool) : List α → Traced Bool
  | [] => do
    access
    pure false
  | it :: rest => do
    access
    if ← found it then pure true else any found rest

end Walks

/-! ## Registration -/

section Register

variable (A : Allocator)

/-- The loop of `handler_instances_add`; only a `legacy` registration looks for its
handler. -/
def overwriteArg (handler : Handler) (arg : Arg) (legacy : Bool) :
    List HandlerNode → Traced (Option (List HandlerNode))
  | [] => do
    access
    pure none
  | it :: rest => do
    access
    if legacy ∧ it.ctx.handler = handler then
      pure (some ({ it with ctx := { it.ctx with arg := arg } } :: rest))
    else
      let found ← overwriteArg handler arg legacy rest
      pure (found.map (it :: ·))

/-- `handler_instances_add` (esp_event.c:163–209) -/
def handlerInstancesAdd (heap : Heap) (handlers : List HandlerNode) (handler : Handler)
    (arg : Arg) (legacy : Bool) : Traced (Added (List HandlerNode)) :=
  match A.calloc heap with
  | (none, heap) => pure ⟨handlers, heap, .noMem, none⟩
  | (some instance_, heap) =>
    match A.calloc heap with
    | (none, heap) => pure ⟨handlers, heap.free instance_, .noMem, none⟩
    | (some context, heap) => do
      match ← overwriteArg handler arg legacy handlers with
      | some handlers => pure ⟨handlers, (heap.free instance_).free context, .ok, none⟩
      | none =>
        let ctx : HandlerCtx := ⟨context, handler, arg⟩
        access
        pure ⟨handlers ++ [⟨instance_, ctx⟩], heap, .ok, some ctx⟩

/-- `base_node_add_handler` (esp_event.c:211–261) -/
def baseNodeAddHandler (heap : Heap) (baseNode : BaseNode) (id : Int32) (handler : Handler)
    (arg : Arg) (legacy : Bool) : Traced (Added BaseNode) :=
  if id = anyId then do
    let r ← handlerInstancesAdd A heap baseNode.handlers handler arg legacy
    pure { r with node := { baseNode with handlers := r.node } }
  else do
    match ← splitLast (fun it => decide (it.id = id)) baseNode.idNodes with
    | none =>
      match A.calloc heap with
      | (none, heap) => pure ⟨baseNode, heap, .noMem, none⟩
      | (some idNode, heap) =>
        let r ← handlerInstancesAdd A heap [] handler arg legacy
        if r.err = .ok then
          access
          pure { r with node := { baseNode with
              idNodes := baseNode.idNodes ++ [⟨idNode, id, r.node⟩] } }
        else pure ⟨baseNode, r.heap.free idNode, r.err, none⟩
    | some (pre, idNode, post) =>
      let r ← handlerInstancesAdd A heap idNode.handlers handler arg legacy
      pure { r with node := { baseNode with
          idNodes := pre ++ { idNode with handlers := r.node } :: post } }

/-- Append a new base node with one handler (esp_event.c:290–316). -/
def openBaseNode (heap : Heap) (loopNode : LoopNode) (base : EventBase) (id : Int32)
    (handler : Handler) (arg : Arg) (legacy : Bool) : Traced (Added LoopNode) :=
  match A.calloc heap with
  | (none, heap) => pure ⟨loopNode, heap, .noMem, none⟩
  | (some baseNode, heap) => do
    let r ← baseNodeAddHandler A heap ⟨baseNode, base, [], []⟩ id handler arg legacy
    if r.err = .ok then
      access
      pure { r with node := { loopNode with baseNodes := loopNode.baseNodes ++ [r.node] } }
    else pure ⟨loopNode, r.heap.free baseNode, r.err, none⟩

/-- `loop_node_add_handler` (esp_event.c:263–321) -/
def loopNodeAddHandler (heap : Heap) (loopNode : LoopNode) (base : EventBase) (id : Int32)
    (handler : Handler) (arg : Arg) (legacy : Bool) : Traced (Added LoopNode) :=
  if base = anyBase ∧ id = anyId then do
    let r ← handlerInstancesAdd A heap loopNode.handlers handler arg legacy
    pure { r with node := { loopNode with handlers := r.node } }
  else do
    match ← splitLast (fun it => decide (it.base = base)) loopNode.baseNodes with
    | none => openBaseNode A heap loopNode base id handler arg legacy
    | some (pre, baseNode, post) =>
      access
      if opensBaseNode loopNode.baseNodes baseNode base id then
        openBaseNode A heap loopNode base id handler arg legacy
      else
        let r ← baseNodeAddHandler A heap baseNode id handler arg legacy
        pure { r with node := { loopNode with baseNodes := pre ++ r.node :: post } }

/-- The label `on_err` (esp_event.c:784–790), which the function falls through to as well. -/
def onErr {α : Type} (r : Added α) : Traced (Added α) := do
  give
  pure r

/-- Append a new loop node with one handler, and return (esp_event.c:755–779). -/
def openLoopNode (t : Registry) (base : EventBase) (id : Int32) (handler : Handler) (arg : Arg)
    (legacy : Bool) : Traced (Added (List LoopNode)) :=
  match A.calloc t.heap with
  | (none, heap) => onErr ⟨t.loopNodes, heap, .noMem, none⟩
  | (some loopNode, heap) => do
    let r ← loopNodeAddHandler A heap ⟨loopNode, [], []⟩ base id handler arg legacy
    if r.err = .ok then
      access
      onErr { r with node := t.loopNodes ++ [r.node] }
    else onErr ⟨t.loopNodes, r.heap.free loopNode, r.err, none⟩

/-- `esp_event_handler_register_with_internal` (esp_event.c:722–793) -/
def registerWithInternal (t : Registry) (base : EventBase) (id : Int32) (handler : Handler)
    (arg : Arg) (legacy : Bool) : Traced (Added (List LoopNode)) :=
  if base = anyBase ∧ id ≠ anyId then pure ⟨t.loopNodes, t.heap, .invalidArg, none⟩
  else do
    take
    match ← splitLast (fun _ => true) t.loopNodes with
    | none => openLoopNode A t base id handler arg legacy
    | some (pre, last, _) =>
      access
      if !last.baseNodes.isEmpty && decide (base = anyBase ∧ id = anyId) then
        openLoopNode A t base id handler arg legacy
      else
        let r ← loopNodeAddHandler A t.heap last base id handler arg legacy
        onErr { r with node := pre ++ [r.node] }

end Register

/-! ## Removal -/

section Unregister

/-- `handler_instances_remove` (esp_event.c:323–346) -/
def handlerInstancesRemove (heap : Heap) (target : Target) :
    List HandlerNode → Traced (Removed (List HandlerNode))
  | [] => do
    access
    pure ⟨[], heap, false⟩
  | it :: rest => do
    access
    if target.is it then
      access
      pure ⟨rest, freeHandler heap it, true⟩
    else
      let r ← handlerInstancesRemove heap target rest
      pure { r with node := it :: r.node }

/-- Whether a removal has found something and has emptied the node. -/
def emptied {α : Type} (isEmpty : α → Bool) (r : Removed α) : Traced Bool :=
  if r.found then do
    access
    pure (isEmpty r.node)
  else pure false

/-- The loop over a list of nodes in the functions above `handler_instances_remove`, which
ends at the first node that `remove` has emptied. -/
def removeLoop {α : Type} (self : α → Block) (wanted isEmpty : α → Bool)
    (remove : Heap → α → Traced (Removed α)) (heap : Heap) :
    List α → Traced (Removed (List α))
  | [] => do
    access
    pure ⟨[], heap, false⟩
  | it :: rest => do
    access
    if wanted it then
      let r ← remove heap it
      if ← emptied isEmpty r then
        access
        pure ⟨rest, r.heap.free (self it), true⟩
      else
        let r' ← removeLoop self wanted isEmpty remove r.heap rest
        pure { r' with node := r.node :: r'.node }
    else
      let r' ← removeLoop self wanted isEmpty remove heap rest
      pure { r' with node := it :: r'.node }

/-- The handlers of an id node (esp_event.c:358). -/
def idNodeRemove (target : Target) (heap : Heap) (idNode : IdNode) : Traced (Removed IdNode) := do
  let r ← handlerInstancesRemove heap target idNode.handlers
  pure { r with node := { idNode with handlers := r.node } }

/-- `base_node_remove_handler` (esp_event.c:349–372) -/
def baseNodeRemoveHandler (id : Int32) (target : Target) (heap : Heap) (baseNode : BaseNode) :
    Traced (Removed BaseNode) :=
  if id = anyId then do
    let r ← handlerInstancesRemove heap target baseNode.handlers
    pure { r with node := { baseNode with handlers := r.node } }
  else do
    let r ← removeLoop IdNode.self (fun it => decide (it.id = id)) IdNode.isEmpty
      (idNodeRemove target) heap baseNode.idNodes
    pure { r with node := { baseNode with idNodes := r.node } }

/-- `loop_node_remove_handler` (esp_event.c:374–397) -/
def loopNodeRemoveHandler (base : EventBase) (id : Int32) (target : Target) (heap : Heap)
    (loopNode : LoopNode) : Traced (Removed LoopNode) :=
  if base = anyBase ∧ id = anyId then do
    let r ← handlerInstancesRemove heap target loopNode.handlers
    pure { r with node := { loopNode with handlers := r.node } }
  else do
    let r ← removeLoop BaseNode.self (fun it => decide (it.base = base)) BaseNode.isEmpty
      (baseNodeRemoveHandler id target) heap loopNode.baseNodes
    pure { r with node := { loopNode with baseNodes := r.node } }

/-- `esp_event_handler_unregister_with_internal` (esp_event.c:808–849) -/
def unregisterWithInternal (t : Registry) (base : EventBase) (id : Int32) (target : Target) :
    Traced (Registry × EspErr) :=
  if base = anyBase ∧ id ≠ anyId then pure (t, .fail)
  else do
    take
    let r ← removeLoop LoopNode.self (fun _ => true) LoopNode.isEmpty
      (loopNodeRemoveHandler base id target) t.heap t.loopNodes
    give
    pure (⟨r.node, r.heap⟩, .ok)

end Unregister

/-! ## The registration API -/

section Api

variable (A : Allocator) (t : Registry)

/-- `esp_event_handler_register_with` (esp_event.c:795–799) -/
def handlerRegisterWith (key : EventId) (handler : Handler) (arg : Arg) : Traced Outcome := do
  let r ← registerWithInternal A t key.base key.id handler arg true
  pure ⟨⟨r.node, r.heap⟩, r.err, none⟩

/-- `esp_event_handler_instance_register_with` (esp_event.c:801–806) -/
def handlerInstanceRegisterWith (key : EventId) (handler : Handler) (arg : Arg) :
    Traced Outcome := do
  let r ← registerWithInternal A t key.base key.id handler arg false
  pure ⟨⟨r.node, r.heap⟩, r.err, r.ctx⟩

/-- `esp_event_handler_unregister_with` (esp_event.c:851–859) -/
def handlerUnregisterWith (key : EventId) (handler : Handler) : Traced Outcome := do
  let r ← unregisterWithInternal t key.base key.id (.handler handler)
  pure ⟨r.1, r.2, none⟩

/-- `esp_event_handler_instance_unregister_with` (esp_event.c:861–867) -/
def handlerInstanceUnregisterWith (key : EventId) (handle : Option Nat) : Traced Outcome :=
  match handle with
  | none => pure ⟨t, .invalidArg, none⟩
  | some ctx => do
    let r ← unregisterWithInternal t key.base key.id (.instance_ ctx)
    pure ⟨r.1, r.2, none⟩

/-- A call of the API. -/
def apply : Call → Traced Outcome
  | .handler (.register key handler arg) => handlerRegisterWith A t key handler arg
  | .handler (.unregister key handler) => handlerUnregisterWith t key handler
  | .instance_ (.register key handler arg) => handlerInstanceRegisterWith A t key handler arg
  | .instance_ (.unregister key handle) => handlerInstanceUnregisterWith t key handle

end Api

/-! ## Deletion -/

section Delete

/-- `handler_instances_remove_all` (esp_event.c:399–407) -/
def handlerInstancesRemoveAll (heap : Heap) (handlers : List HandlerNode) : Traced Heap :=
  forEach (fun heap it => do
    access
    pure (freeHandler heap it)) heap handlers

/-- `base_node_remove_all_handler` (esp_event.c:409–419) -/
def baseNodeRemoveAllHandler (heap : Heap) (baseNode : BaseNode) : Traced Heap := do
  let heap ← handlerInstancesRemoveAll heap baseNode.handlers
  forEach (fun heap it => do
    let heap ← handlerInstancesRemoveAll heap it.handlers
    access
    pure (heap.free it.self)) heap baseNode.idNodes

/-- `loop_node_remove_all_handler` (esp_event.c:421–431) -/
def loopNodeRemoveAllHandler (heap : Heap) (loopNode : LoopNode) : Traced Heap := do
  let heap ← handlerInstancesRemoveAll heap loopNode.handlers
  forEach (fun heap it => do
    let heap ← baseNodeRemoveAllHandler heap it
    access
    pure (heap.free it.self)) heap loopNode.baseNodes

/-- `esp_event_loop_delete` (esp_event.c:660–720): the registrations and the copies of
the data in the queue. The mutex is given when the loop has been freed. -/
def espEventLoopDelete (t : Registry) (memory : Memory) (queue : List Post) :
    Traced (Registry × Memory) := do
  take
  let heap ← forEach (fun heap it => do
    let heap ← loopNodeRemoveAllHandler heap it
    access
    pure (heap.free it.self)) t.heap t.loopNodes
  let memory := queue.foldl postInstanceDelete memory
  emit (.other .delete)
  give
  pure (⟨[], heap⟩, memory)

end Delete

/-! ## Posting -/

/-- What a call of `esp_event_post_to` gets from the kernel and reads in the loop: whether
it gets the mutex in time, who runs the loop, and whether the queue takes the event in
time, for the wait that is asked for. -/
structure PostAnswers where
  taken : Bool
  runningTask : Option Task
  sent : Ticks → Bool

/-- What stands around the call of `xQueueSendToBack` (esp_event.c:905–937), and its
result. -/
def sendToBack (args : LoopArgs) (o : PostAnswers) (task : Task) (ticksToWait : Ticks) :
    Traced Bool :=
  match args.task with
  | none =>
    if o.taken then do
      take
      if o.runningTask ≠ some task then do
        give
        pure (o.sent ticksToWait)
      else do
        give
        pure (o.sent 0)
    else pure false
  | some loopTask => pure (o.sent (if loopTask ≠ task then ticksToWait else 0))

/-- `esp_event_post_to` (esp_event.c:869–956) -/
def espEventPostTo (A : Allocator) (args : LoopArgs) (o : PostAnswers) (memory : Memory)
    (task : Task) (event : EventId) (data : EventData) (ticksToWait : Ticks) :
    Traced (Memory × EspErr) :=
  if event.base = anyBase ∨ event.id = anyId then pure (memory, .invalidArg)
  else match newPost A memory event.base event.id data with
    | (none, memory) => pure (memory, .noMem)
    | (some post, memory) => do
      let result ← sendToBack args o task ticksToWait
      pure (if result then (memory, .ok) else (postInstanceDelete memory post, .timeout))

/-! ## The search -/

section Search

variable (key : EventId) (handler : Handler)

def idNodeSearch (it : IdNode) : Traced Bool :=
  if it.id = key.id then
    any (fun it => pure (decide (it.ctx.handler = handler))) it.handlers
  else pure false

def baseNodeSearch (it : BaseNode) : Traced Bool :=
  if it.base = key.base then do
    if ← any (fun it => pure (decide (key.id = anyId) && decide (it.ctx.handler = handler)))
        it.handlers then
      pure true
    else any (idNodeSearch key handler) it.idNodes
  else pure false

def loopNodeSearch (it : LoopNode) : Traced Bool := do
  if ← any (fun it => pure (decide (key.base = anyBase) && decide (key.id = anyId) &&
      decide (it.ctx.handler = handler))) it.handlers then
    pure true
  else any (baseNodeSearch key handler) it.baseNodes

/-- `esp_event_is_handler_registered` (esp_event_private.c:20–68). All its ways lead to the
label `out`, and to an `xSemaphoreGive`. -/
def isHandlerRegistered (loopNodes : List LoopNode) : Traced Bool := do
  let result ← any (loopNodeSearch key handler) loopNodes
  emit (.other .giveOnce)
  pure result

end Search

/-! ## What they return -/

section Value

/-- The traced search finds what the search of the embedding finds. -/
theorem value_splitLast {α : Type} (p : α → Bool) (l : List α) :
    (splitLast p l).value = LastMatch.splitLast p l := by
  induction l with
  | nil => rfl
  | cons it rest ih =>
    rw [splitLast, LastMatch.splitLast]
    simp only [value_bind, ih]
    rcases LastMatch.splitLast p rest with _ | ⟨pre, last, post⟩ <;> rfl

/-- A traced loop computes the fold of its body's values. -/
theorem value_forEach {α β : Type} (body : β → α → Traced β) (b : β) (l : List α) :
    (forEach body b l).value = l.foldl (fun b it => (body b it).value) b := by
  induction l generalizing b with
  | nil => rfl
  | cons it rest ih => exact ih _

variable (A : Allocator)

/-- The search for a duplicate, with its accesses, decides as before. -/
theorem value_overwriteArg (handler : Handler) (arg : Arg) (legacy : Bool)
    (handlers : List HandlerNode) :
    (overwriteArg handler arg legacy handlers).value =
      if legacy then Event.overwriteArg handler arg handlers else none := by
  induction handlers with
  | nil => cases legacy <;> rfl
  | cons it rest ih =>
    rw [overwriteArg, Event.overwriteArg]
    cases legacy with
    | false => simp [ih]
    | true =>
      by_cases h : it.ctx.handler = handler
      · simp [h]
      · simp [h, ih]

/-- The traced `handler_instances_add` computes that of the embedding. -/
theorem value_handlerInstancesAdd (heap : Heap) (handlers : List HandlerNode)
    (handler : Handler) (arg : Arg) (legacy : Bool) :
    (handlerInstancesAdd A heap handlers handler arg legacy).value =
      Event.handlerInstancesAdd A heap handlers handler arg legacy := by
  rw [handlerInstancesAdd, Event.handlerInstancesAdd]
  rcases A.calloc heap with ⟨_ | instance_, heap⟩
  · rfl
  · dsimp only
    rcases A.calloc heap with ⟨_ | context, heap⟩
    · rfl
    · dsimp only
      rw [value_bind, value_overwriteArg]
      rcases (if legacy then Event.overwriteArg handler arg handlers else none) with _ | handlers
        <;> rfl

/-- The traced `base_node_add_handler` computes that of the embedding. -/
theorem value_baseNodeAddHandler (heap : Heap) (baseNode : BaseNode) (id : Int32)
    (handler : Handler) (arg : Arg) (legacy : Bool) :
    (baseNodeAddHandler A heap baseNode id handler arg legacy).value =
      Event.baseNodeAddHandler A heap baseNode id handler arg legacy := by
  rw [baseNodeAddHandler, Event.baseNodeAddHandler]
  split
  next => simp [value_handlerInstancesAdd]
  next =>
    rw [value_bind, value_splitLast]
    generalize LastMatch.splitLast _ baseNode.idNodes = found
    rcases found with _ | ⟨pre, idNode, post⟩
    · dsimp only
      rcases A.calloc heap with ⟨_ | idNode, heap⟩
      · rfl
      · dsimp only
        rw [value_bind, value_handlerInstancesAdd]
        split <;> rfl
    · simp [value_handlerInstancesAdd]

/-- The new base node is the one of the embedding. -/
theorem value_openBaseNode (heap : Heap) (loopNode : LoopNode) (base : EventBase) (id : Int32)
    (handler : Handler) (arg : Arg) (legacy : Bool) :
    (openBaseNode A heap loopNode base id handler arg legacy).value =
      Event.openBaseNode A heap loopNode base id handler arg legacy := by
  rw [openBaseNode, Event.openBaseNode]
  rcases A.calloc heap with ⟨_ | baseNode, heap⟩
  · rfl
  · dsimp only
    rw [value_bind, value_baseNodeAddHandler]
    split <;> rfl

/-- The traced `loop_node_add_handler` computes that of the embedding. -/
theorem value_loopNodeAddHandler (heap : Heap) (loopNode : LoopNode) (base : EventBase)
    (id : Int32) (handler : Handler) (arg : Arg) (legacy : Bool) :
    (loopNodeAddHandler A heap loopNode base id handler arg legacy).value =
      Event.loopNodeAddHandler A heap loopNode base id handler arg legacy := by
  rw [loopNodeAddHandler, Event.loopNodeAddHandler]
  split
  next => simp [value_handlerInstancesAdd]
  next =>
    rw [value_bind, value_splitLast]
    generalize LastMatch.splitLast _ loopNode.baseNodes = found
    rcases found with _ | ⟨pre, baseNode, post⟩
    · exact value_openBaseNode ..
    · dsimp only
      rw [value_bind]
      split
      next => exact value_openBaseNode ..
      next => simp [value_baseNodeAddHandler]

/-- The new loop node is the one of the embedding. -/
theorem value_openLoopNode (t : Registry) (base : EventBase) (id : Int32) (handler : Handler)
    (arg : Arg) (legacy : Bool) :
    (openLoopNode A t base id handler arg legacy).value =
      Event.openLoopNode A t base id handler arg legacy := by
  rw [openLoopNode, Event.openLoopNode]
  rcases A.calloc t.heap with ⟨_ | loopNode, heap⟩
  · rfl
  · dsimp only
    rw [value_bind, value_loopNodeAddHandler]
    split <;> rfl

/-- Without its lock events, the traced registration is the registration of the embedding. -/
theorem value_registerWithInternal (t : Registry) (base : EventBase) (id : Int32)
    (handler : Handler) (arg : Arg) (legacy : Bool) :
    (registerWithInternal A t base id handler arg legacy).value =
      Event.registerWithInternal A t base id handler arg legacy := by
  rw [registerWithInternal, Event.registerWithInternal]
  split
  next => rfl
  next =>
    rw [value_bind, value_bind, value_splitLast]
    rcases LastMatch.splitLast (fun _ => true) t.loopNodes with _ | ⟨pre, last, post⟩
    · exact value_openLoopNode ..
    · dsimp only
      rw [value_bind]
      split
      next => exact value_openLoopNode ..
      next => simp [onErr, value_loopNodeAddHandler]

/-- The traced `handler_instances_remove` computes that of the embedding. -/
theorem value_handlerInstancesRemove (heap : Heap) (target : Target)
    (handlers : List HandlerNode) :
    (handlerInstancesRemove heap target handlers).value =
      Event.handlerInstancesRemove heap target handlers := by
  induction handlers with
  | nil => rfl
  | cons it rest ih =>
    rw [handlerInstancesRemove, Event.handlerInstancesRemove, value_bind]
    split
    next => rfl
    next => simp [ih]

/-- A node is released only if something was removed from it and nothing is left in it. -/
theorem value_emptied {α : Type} (isEmpty : α → Bool) (r : Removed α) :
    (emptied isEmpty r).value = (r.found && isEmpty r.node) := by
  rw [emptied]
  cases r.found <;> rfl

/-- The traced loop over nodes agrees with the loop of the embedding if the bodies agree. -/
theorem value_removeLoop {α : Type} (self : α → Block) (wanted isEmpty : α → Bool)
    {remove : Heap → α → Traced (Removed α)} {remove' : Heap → α → Removed α}
    (hremove : ∀ heap it, (remove heap it).value = remove' heap it) (heap : Heap) (l : List α) :
    (removeLoop self wanted isEmpty remove heap l).value =
      Event.removeLoop self wanted isEmpty remove' heap l := by
  induction l generalizing heap with
  | nil => rfl
  | cons it rest ih =>
    rw [removeLoop, Event.removeLoop, value_bind]
    split
    next =>
      rw [value_bind, value_bind, value_emptied, hremove]
      dsimp only
      split
      next => rfl
      next => simp [ih]
    next => simp [ih]

/-- The loop over id nodes agrees with the embedding. -/
theorem value_idNodeRemove (target : Target) (heap : Heap) (it : IdNode) :
    (idNodeRemove target heap it).value = Event.idNodeRemove target heap it := by
  rw [idNodeRemove, Event.idNodeRemove, value_bind, value_handlerInstancesRemove]
  rfl

/-- The traced `base_node_remove_handler` computes that of the embedding. -/
theorem value_baseNodeRemoveHandler (id : Int32) (target : Target) (heap : Heap)
    (it : BaseNode) :
    (baseNodeRemoveHandler id target heap it).value =
      Event.baseNodeRemoveHandler id target heap it := by
  rw [baseNodeRemoveHandler, Event.baseNodeRemoveHandler]
  split
  next => simp [value_handlerInstancesRemove]
  next => simp [value_removeLoop _ _ _ (value_idNodeRemove target)]

/-- The traced `loop_node_remove_handler` computes that of the embedding. -/
theorem value_loopNodeRemoveHandler (base : EventBase) (id : Int32) (target : Target)
    (heap : Heap) (it : LoopNode) :
    (loopNodeRemoveHandler base id target heap it).value =
      Event.loopNodeRemoveHandler base id target heap it := by
  rw [loopNodeRemoveHandler, Event.loopNodeRemoveHandler]
  split
  next => simp [value_handlerInstancesRemove]
  next => simp [value_removeLoop _ _ _ (value_baseNodeRemoveHandler id target)]

/-- Without its lock events, the traced removal is the removal of the embedding. -/
theorem value_unregisterWithInternal (t : Registry) (base : EventBase) (id : Int32)
    (target : Target) :
    (unregisterWithInternal t base id target).value =
      Event.unregisterWithInternal t base id target := by
  rw [unregisterWithInternal, Event.unregisterWithInternal]
  split
  next => rfl
  next => simp [value_removeLoop _ _ _ (value_loopNodeRemoveHandler base id target)]

/-- The calls of the API do to the registrations what they do without events. -/
theorem value_apply (t : Registry) (call : Call) : (apply A t call).value = call.apply A t := by
  match call with
  | .handler (.register key handler arg) =>
    rw [apply, handlerRegisterWith, value_bind, value_registerWithInternal]
    rfl
  | .handler (.unregister key handler) =>
    rw [apply, handlerUnregisterWith, value_bind, value_unregisterWithInternal]
    rfl
  | .instance_ (.register key handler arg) =>
    rw [apply, handlerInstanceRegisterWith, value_bind, value_registerWithInternal]
    rfl
  | .instance_ (.unregister key none) => rfl
  | .instance_ (.unregister key (some ctx)) =>
    rw [apply, handlerInstanceUnregisterWith, value_bind, value_unregisterWithInternal]
    rfl

/-- Emptying a list of handlers agrees with the embedding. -/
theorem value_handlerInstancesRemoveAll (heap : Heap) (handlers : List HandlerNode) :
    (handlerInstancesRemoveAll heap handlers).value =
      Event.handlerInstancesRemoveAll heap handlers :=
  value_forEach ..

/-- Emptying a base node agrees with the embedding. -/
theorem value_baseNodeRemoveAllHandler (heap : Heap) (it : BaseNode) :
    (baseNodeRemoveAllHandler heap it).value = Event.baseNodeRemoveAllHandler heap it := by
  rw [baseNodeRemoveAllHandler, value_bind, value_forEach, Event.baseNodeRemoveAllHandler]
  simp only [value_bind, value_handlerInstancesRemoveAll, value_pure]

/-- Emptying a loop node agrees with the embedding. -/
theorem value_loopNodeRemoveAllHandler (heap : Heap) (it : LoopNode) :
    (loopNodeRemoveAllHandler heap it).value = Event.loopNodeRemoveAllHandler heap it := by
  rw [loopNodeRemoveAllHandler, value_bind, value_forEach, Event.loopNodeRemoveAllHandler]
  simp only [value_bind, value_handlerInstancesRemoveAll, value_baseNodeRemoveAllHandler,
    value_pure]

/-- A deletion leaves no registrations, and no post in the queue. -/
theorem value_espEventLoopDelete (t : Registry) (memory : Memory) (queue : List Post) :
    (espEventLoopDelete t memory queue).value =
      (loopNodesRemoveAll t, queue.foldl postInstanceDelete memory) := by
  rw [espEventLoopDelete, loopNodesRemoveAll]
  simp only [value_bind, value_forEach, value_loopNodeRemoveAllHandler, value_pure]

end Value

/-! ## Walks -/

section Only

/-- The code walks through the lists and does not touch the mutex. -/
abbrev Walks {α : Type} (x : Traced α) : Prop := Only .access x

/-- One access to the lists is an access and nothing else. -/
theorem walks_access : Walks access := Only.emit _

/-- Searching a list takes and gives nothing. -/
theorem walks_splitLast {α : Type} (p : α → Bool) (l : List α) : Walks (splitLast p l) := by
  induction l with
  | nil => exact walks_access.bind fun _ => .pure _
  | cons it rest ih =>
    refine walks_access.bind fun _ => ih.bind fun found => ?_
    rcases found with _ | ⟨pre, last, post⟩
    · exact .pure _
    · exact .pure _

/-- A loop only walks the lists if its body does. -/
theorem walks_forEach {α β : Type} {body : β → α → Traced β} (h : ∀ b it, Walks (body b it))
    (b : β) (l : List α) : Walks (forEach body b l) := by
  induction l generalizing b with
  | nil => exact walks_access.bind fun _ => .pure _
  | cons it rest ih => exact walks_access.bind fun _ => (h b it).bind fun b => ih b

/-- A loop that stops at the first hit only walks the lists if its test does. -/
theorem walks_any {α : Type} {found : α → Traced Bool} (h : ∀ it, Walks (found it))
    (l : List α) : Walks (any found l) := by
  induction l with
  | nil => exact walks_access.bind fun _ => .pure _
  | cons it rest ih =>
    refine walks_access.bind fun _ => (h it).bind fun r => ?_
    cases r with
    | true => exact .pure _
    | false => exact ih

variable (A : Allocator)

/-- The search for a duplicate takes and gives nothing. -/
theorem walks_overwriteArg (handler : Handler) (arg : Arg) (legacy : Bool)
    (handlers : List HandlerNode) : Walks (overwriteArg handler arg legacy handlers) := by
  induction handlers with
  | nil => exact walks_access.bind fun _ => .pure _
  | cons it rest ih =>
    refine walks_access.bind fun _ => ?_
    dsimp only
    split
    · exact .pure _
    · exact ih.bind fun _ => .pure _

/-- `handler_instances_add` never touches the mutex, whichever exit it takes. -/
theorem walks_handlerInstancesAdd (heap : Heap) (handlers : List HandlerNode)
    (handler : Handler) (arg : Arg) (legacy : Bool) :
    Walks (handlerInstancesAdd A heap handlers handler arg legacy) := by
  rw [handlerInstancesAdd]
  split
  next => exact .pure _
  next =>
    split
    next => exact .pure _
    next =>
      refine (walks_overwriteArg ..).bind fun found => ?_
      cases found with
      | some handlers => exact .pure _
      | none => exact walks_access.bind fun _ => .pure _

/-- `base_node_add_handler` never touches the mutex, whichever exit it takes. -/
theorem walks_baseNodeAddHandler (heap : Heap) (baseNode : BaseNode) (id : Int32)
    (handler : Handler) (arg : Arg) (legacy : Bool) :
    Walks (baseNodeAddHandler A heap baseNode id handler arg legacy) := by
  rw [baseNodeAddHandler]
  split
  next => exact (walks_handlerInstancesAdd ..).bind fun _ => .pure _
  next =>
    refine (walks_splitLast ..).bind fun found => ?_
    rcases found with _ | ⟨pre, idNode, post⟩
    · dsimp only
      split
      next => exact .pure _
      next =>
        refine (walks_handlerInstancesAdd ..).bind fun r => ?_
        split
        next => exact walks_access.bind fun _ => .pure _
        next => exact .pure _
    · exact (walks_handlerInstancesAdd ..).bind fun _ => .pure _

/-- Nor does the failed or successful creation of a base node. -/
theorem walks_openBaseNode (heap : Heap) (loopNode : LoopNode) (base : EventBase) (id : Int32)
    (handler : Handler) (arg : Arg) (legacy : Bool) :
    Walks (openBaseNode A heap loopNode base id handler arg legacy) := by
  rw [openBaseNode]
  split
  next => exact .pure _
  next =>
    refine (walks_baseNodeAddHandler ..).bind fun r => ?_
    split
    next => exact walks_access.bind fun _ => .pure _
    next => exact .pure _

/-- `loop_node_add_handler` never touches the mutex, whichever exit it takes. -/
theorem walks_loopNodeAddHandler (heap : Heap) (loopNode : LoopNode) (base : EventBase)
    (id : Int32) (handler : Handler) (arg : Arg) (legacy : Bool) :
    Walks (loopNodeAddHandler A heap loopNode base id handler arg legacy) := by
  rw [loopNodeAddHandler]
  split
  next => exact (walks_handlerInstancesAdd ..).bind fun _ => .pure _
  next =>
    refine (walks_splitLast ..).bind fun found => ?_
    rcases found with _ | ⟨pre, baseNode, post⟩
    · exact walks_openBaseNode ..
    · refine walks_access.bind fun _ => ?_
      split
      next => exact walks_openBaseNode ..
      next => exact (walks_baseNodeAddHandler ..).bind fun _ => .pure _

/-- `handler_instances_remove` never touches the mutex, found or not. -/
theorem walks_handlerInstancesRemove (heap : Heap) (target : Target)
    (handlers : List HandlerNode) : Walks (handlerInstancesRemove heap target handlers) := by
  induction handlers with
  | nil => exact walks_access.bind fun _ => .pure _
  | cons it rest ih =>
    refine walks_access.bind fun _ => ?_
    split
    · exact walks_access.bind fun _ => .pure _
    · exact ih.bind fun _ => .pure _

/-- Looking whether a node is empty takes and gives nothing. -/
theorem walks_emptied {α : Type} (isEmpty : α → Bool) (r : Removed α) :
    Walks (emptied isEmpty r) := by
  rw [emptied]
  split
  · exact walks_access.bind fun _ => .pure _
  · exact .pure _

/-- The loop over nodes leaves the mutex alone if its body does. -/
theorem walks_removeLoop {α : Type} (self : α → Block) (wanted isEmpty : α → Bool)
    {remove : Heap → α → Traced (Removed α)} (hremove : ∀ heap it, Walks (remove heap it))
    (heap : Heap) (l : List α) : Walks (removeLoop self wanted isEmpty remove heap l) := by
  induction l generalizing heap with
  | nil => exact walks_access.bind fun _ => .pure _
  | cons it rest ih =>
    refine walks_access.bind fun _ => ?_
    split
    · refine (hremove heap it).bind fun r => (walks_emptied isEmpty r).bind fun emptied => ?_
      cases emptied with
      | true => exact walks_access.bind fun _ => .pure _
      | false => exact (ih r.heap).bind fun _ => .pure _
    · exact (ih heap).bind fun _ => .pure _

/-- `base_node_remove_handler` never touches the mutex. -/
theorem walks_baseNodeRemoveHandler (id : Int32) (target : Target) (heap : Heap)
    (it : BaseNode) : Walks (baseNodeRemoveHandler id target heap it) := by
  rw [baseNodeRemoveHandler]
  split
  · exact (walks_handlerInstancesRemove ..).bind fun _ => .pure _
  · have hremove : ∀ heap it, Walks (idNodeRemove target heap it) := fun _ _ =>
      (walks_handlerInstancesRemove ..).bind fun _ => .pure _
    exact (walks_removeLoop _ _ _ hremove _ _).bind fun _ => .pure _

/-- `loop_node_remove_handler` never touches the mutex. -/
theorem walks_loopNodeRemoveHandler (base : EventBase) (id : Int32) (target : Target)
    (heap : Heap) (it : LoopNode) : Walks (loopNodeRemoveHandler base id target heap it) := by
  rw [loopNodeRemoveHandler]
  split
  · exact (walks_handlerInstancesRemove ..).bind fun _ => .pure _
  · have hremove := walks_baseNodeRemoveHandler id target
    exact (walks_removeLoop _ _ _ hremove _ _).bind fun _ => .pure _

/-- Emptying a list of handlers never touches the mutex. -/
theorem walks_handlerInstancesRemoveAll (heap : Heap) (handlers : List HandlerNode) :
    Walks (handlerInstancesRemoveAll heap handlers) :=
  walks_forEach (fun _ _ => walks_access.bind fun _ => .pure _) ..

/-- Emptying a base node never touches the mutex. -/
theorem walks_baseNodeRemoveAllHandler (heap : Heap) (it : BaseNode) :
    Walks (baseNodeRemoveAllHandler heap it) :=
  (walks_handlerInstancesRemoveAll ..).bind fun _ =>
    walks_forEach (fun _ _ => (walks_handlerInstancesRemoveAll ..).bind fun _ =>
      walks_access.bind fun _ => .pure _) ..

/-- Emptying a loop node never touches the mutex. -/
theorem walks_loopNodeRemoveAllHandler (heap : Heap) (it : LoopNode) :
    Walks (loopNodeRemoveAllHandler heap it) :=
  (walks_handlerInstancesRemoveAll ..).bind fun _ =>
    walks_forEach (fun _ _ => (walks_baseNodeRemoveAllHandler ..).bind fun _ =>
      walks_access.bind fun _ => .pure _) ..

/-- Looking for a registered handler takes and gives nothing. -/
theorem walks_loopNodeSearch (key : EventId) (handler : Handler) (it : LoopNode) :
    Walks (loopNodeSearch key handler it) := by
  have hid : ∀ it, Walks (idNodeSearch key handler it) := by
    intro it
    rw [idNodeSearch]
    split
    · exact walks_any (fun _ => .pure _) _
    · exact .pure _
  have hbase : ∀ it, Walks (baseNodeSearch key handler it) := by
    intro it
    rw [baseNodeSearch]
    split
    · refine (walks_any (fun _ => .pure _) _).bind fun found => ?_
      cases found with
      | true => exact .pure _
      | false => exact walks_any hid _
    · exact .pure _
  refine (walks_any (fun _ => .pure _) _).bind fun found => ?_
  cases found with
  | true => exact .pure _
  | false => exact walks_any hbase _

end Only

end Traced

end PicoHost.Event
