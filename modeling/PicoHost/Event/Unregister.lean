import PicoHost.Event.Types

/-!
# Removal of registrations (`esp_event.c`)

`esp_event_handler_unregister_with_internal` and the functions below it, and the
functions that `esp_event_loop_delete` empties the lists with.

Below the API the result is `ESP_OK` or `ESP_ERR_NOT_FOUND`; `found` is `ESP_OK`.
A base or id node reports `ESP_OK` only when the removal has emptied it, so the
loops above go on after a removal that has not.
-/

namespace PicoHost.Event

/-- What an unregistration looks for: a handler (`legacy`), or the context that is
the handle of an instance. -/
inductive Target where
  | handler (handler : Handler)
  | instance_ (ctx : Nat)
deriving DecidableEq, Repr

/-- The comparison in `handler_instances_remove`. -/
def Target.is (target : Target) (it : HandlerNode) : Bool :=
  match target with
  | .handler h => decide (it.ctx.handler = h)
  | .instance_ ctx => decide (it.ctx.self.addr = ctx)

/-- What a removal returns at any level of the tree. -/
structure Removed (α : Type) where
  node : α
  heap : Heap
  found : Bool

/-- Free the context of a node, then the node. -/
def freeHandler (heap : Heap) (it : HandlerNode) : Heap :=
  (heap.free it.ctx.self).free it.self

/-- `handler_instances_remove` (esp_event.c:323–346) -/
def handlerInstancesRemove (heap : Heap) (target : Target) :
    List HandlerNode → Removed (List HandlerNode)
  | [] => ⟨[], heap, false⟩
  | it :: rest =>
    if target.is it then ⟨rest, freeHandler heap it, true⟩
    else
      let r := handlerInstancesRemove heap target rest
      { r with node := it :: r.node }

/-- The loop over a list of nodes in the functions above `handler_instances_remove`:
it visits the nodes that `wanted` selects, and it ends at the first one that
`remove` has emptied. -/
def removeLoop {α : Type} (self : α → Block) (wanted isEmpty : α → Bool)
    (remove : Heap → α → Removed α) (heap : Heap) : List α → Removed (List α)
  | [] => ⟨[], heap, false⟩
  | it :: rest =>
    if wanted it then
      let r := remove heap it
      if r.found && isEmpty r.node then ⟨rest, r.heap.free (self it), true⟩
      else
        let r' := removeLoop self wanted isEmpty remove r.heap rest
        { r' with node := r.node :: r'.node }
    else
      let r' := removeLoop self wanted isEmpty remove heap rest
      { r' with node := it :: r'.node }

/-- The handlers of an id node (esp_event.c:358). -/
def idNodeRemove (target : Target) (heap : Heap) (idNode : IdNode) : Removed IdNode :=
  let r := handlerInstancesRemove heap target idNode.handlers
  { r with node := { idNode with handlers := r.node } }

def IdNode.isEmpty (it : IdNode) : Bool := it.handlers.isEmpty

def BaseNode.isEmpty (it : BaseNode) : Bool := it.handlers.isEmpty && it.idNodes.isEmpty

def LoopNode.isEmpty (it : LoopNode) : Bool := it.baseNodes.isEmpty && it.handlers.isEmpty

/-- `base_node_remove_handler` (esp_event.c:349–372) -/
def baseNodeRemoveHandler (id : Int32) (target : Target) (heap : Heap) (baseNode : BaseNode) :
    Removed BaseNode :=
  if id = anyId then
    let r := handlerInstancesRemove heap target baseNode.handlers
    { r with node := { baseNode with handlers := r.node } }
  else
    let r := removeLoop IdNode.self (fun it => decide (it.id = id)) IdNode.isEmpty
      (idNodeRemove target) heap baseNode.idNodes
    { r with node := { baseNode with idNodes := r.node } }

/-- `loop_node_remove_handler` (esp_event.c:374–397) -/
def loopNodeRemoveHandler (base : EventBase) (id : Int32) (target : Target) (heap : Heap)
    (loopNode : LoopNode) : Removed LoopNode :=
  if base = anyBase ∧ id = anyId then
    let r := handlerInstancesRemove heap target loopNode.handlers
    { r with node := { loopNode with handlers := r.node } }
  else
    let r := removeLoop BaseNode.self (fun it => decide (it.base = base)) BaseNode.isEmpty
      (baseNodeRemoveHandler id target) heap loopNode.baseNodes
    { r with node := { loopNode with baseNodes := r.node } }

/-- `esp_event_handler_unregister_with_internal` (esp_event.c:808–849), under the
loop's mutex. It visits every loop node up to the first it has emptied, and it
reports `ESP_OK` whether or not it has found anything. -/
def unregisterWithInternal (t : Registry) (base : EventBase) (id : Int32) (target : Target) :
    Registry × EspErr :=
  if base = anyBase ∧ id ≠ anyId then (t, .fail)
  else
    let r := removeLoop LoopNode.self (fun _ => true) LoopNode.isEmpty
      (loopNodeRemoveHandler base id target) t.heap t.loopNodes
    (⟨r.node, r.heap⟩, .ok)

/-! ## Removal of everything -/

/-- `handler_instances_remove_all` (esp_event.c:399–407) -/
def handlerInstancesRemoveAll (heap : Heap) (handlers : List HandlerNode) : Heap :=
  handlers.foldl freeHandler heap

/-- `base_node_remove_all_handler` (esp_event.c:409–419) -/
def baseNodeRemoveAllHandler (heap : Heap) (baseNode : BaseNode) : Heap :=
  baseNode.idNodes.foldl
    (fun heap it => (handlerInstancesRemoveAll heap it.handlers).free it.self)
    (handlerInstancesRemoveAll heap baseNode.handlers)

/-- `loop_node_remove_all_handler` (esp_event.c:421–431) -/
def loopNodeRemoveAllHandler (heap : Heap) (loopNode : LoopNode) : Heap :=
  loopNode.baseNodes.foldl
    (fun heap it => (baseNodeRemoveAllHandler heap it).free it.self)
    (handlerInstancesRemoveAll heap loopNode.handlers)

/-- The loop of `esp_event_loop_delete` over the loop nodes (esp_event.c:689–694). -/
def loopNodesRemoveAll (t : Registry) : Registry :=
  ⟨[], t.loopNodes.foldl (fun heap it => (loopNodeRemoveAllHandler heap it).free it.self) t.heap⟩

end PicoHost.Event
