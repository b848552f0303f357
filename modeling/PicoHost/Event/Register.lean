import PicoHost.Event.Types
import PicoHost.Lib.LastMatch

/-!
# Registration (`esp_event.c`)

`esp_event_handler_register_with_internal` and the functions below it. Every
allocation may fail; a call that fails gives back what it has allocated and leaves
the lists as they were. Each function returns the node it was given, changed, and
`ctx`, the context that `*handler_ctx` is set to.
-/

namespace PicoHost.Event

open LastMatch

/-- What a registration returns at any level of the tree. -/
structure Added (α : Type) where
  node : α
  heap : Heap
  err : EspErr
  ctx : Option HandlerCtx

/-- The `legacy` part of the loop of `handler_instances_add`: the first node with
this handler gets the new argument. `none` if there is none. -/
def overwriteArg (handler : Handler) (arg : Arg) : List HandlerNode → Option (List HandlerNode)
  | [] => none
  | it :: rest =>
    if it.ctx.handler = handler then some ({ it with ctx := { it.ctx with arg := arg } } :: rest)
    else (overwriteArg handler arg rest).map (it :: ·)

section Add

variable (A : Allocator)

/-- `handler_instances_add` (esp_event.c:163–209) -/
def handlerInstancesAdd (heap : Heap) (handlers : List HandlerNode) (handler : Handler)
    (arg : Arg) (legacy : Bool) : Added (List HandlerNode) :=
  match A.calloc heap with
  | (none, heap) => ⟨handlers, heap, .noMem, none⟩
  | (some instance_, heap) =>
    match A.calloc heap with
    | (none, heap) => ⟨handlers, heap.free instance_, .noMem, none⟩
    | (some context, heap) =>
      match if legacy then overwriteArg handler arg handlers else none with
      | some handlers => ⟨handlers, (heap.free instance_).free context, .ok, none⟩
      | none =>
        let ctx : HandlerCtx := ⟨context, handler, arg⟩
        ⟨handlers ++ [⟨instance_, ctx⟩], heap, .ok, some ctx⟩

/-- `base_node_add_handler` (esp_event.c:211–261) -/
def baseNodeAddHandler (heap : Heap) (baseNode : BaseNode) (id : Int32) (handler : Handler)
    (arg : Arg) (legacy : Bool) : Added BaseNode :=
  if id = anyId then
    let r := handlerInstancesAdd A heap baseNode.handlers handler arg legacy
    { r with node := { baseNode with handlers := r.node } }
  else
    match splitLast (fun it => decide (it.id = id)) baseNode.idNodes with
    | none =>
      match A.calloc heap with
      | (none, heap) => ⟨baseNode, heap, .noMem, none⟩
      | (some idNode, heap) =>
        let r := handlerInstancesAdd A heap [] handler arg legacy
        if r.err = .ok then
          { r with node := { baseNode with
              idNodes := baseNode.idNodes ++ [⟨idNode, id, r.node⟩] } }
        else ⟨baseNode, r.heap.free idNode, r.err, none⟩
    | some (pre, idNode, post) =>
      let r := handlerInstancesAdd A heap idNode.handlers handler arg legacy
      { r with node := { baseNode with
          idNodes := pre ++ { idNode with handlers := r.node } :: post } }

/-- Whether `loop_node_add_handler` opens a new base node although the last one
for `base`, `baseNode`, exists (esp_event.c:286–289): a base-level handler goes
behind the id nodes of its base and of the last base node. -/
def opensBaseNode (baseNodes : List BaseNode) (baseNode : BaseNode) (base : EventBase)
    (id : Int32) : Bool :=
  (!baseNode.idNodes.isEmpty && decide (id = anyId)) ||
    baseNodes.getLast?.any fun last =>
      decide (last.base ≠ base) && !last.idNodes.isEmpty && decide (id = anyId)

/-- Append a new base node with one handler (esp_event.c:290–316). -/
def openBaseNode (heap : Heap) (loopNode : LoopNode) (base : EventBase) (id : Int32)
    (handler : Handler) (arg : Arg) (legacy : Bool) : Added LoopNode :=
  match A.calloc heap with
  | (none, heap) => ⟨loopNode, heap, .noMem, none⟩
  | (some baseNode, heap) =>
    let r := baseNodeAddHandler A heap ⟨baseNode, base, [], []⟩ id handler arg legacy
    if r.err = .ok then
      { r with node := { loopNode with baseNodes := loopNode.baseNodes ++ [r.node] } }
    else ⟨loopNode, r.heap.free baseNode, r.err, none⟩

/-- `loop_node_add_handler` (esp_event.c:263–321) -/
def loopNodeAddHandler (heap : Heap) (loopNode : LoopNode) (base : EventBase) (id : Int32)
    (handler : Handler) (arg : Arg) (legacy : Bool) : Added LoopNode :=
  if base = anyBase ∧ id = anyId then
    let r := handlerInstancesAdd A heap loopNode.handlers handler arg legacy
    { r with node := { loopNode with handlers := r.node } }
  else
    match splitLast (fun it => decide (it.base = base)) loopNode.baseNodes with
    | none => openBaseNode A heap loopNode base id handler arg legacy
    | some (pre, baseNode, post) =>
      if opensBaseNode loopNode.baseNodes baseNode base id then
        openBaseNode A heap loopNode base id handler arg legacy
      else
        let r := baseNodeAddHandler A heap baseNode id handler arg legacy
        { r with node := { loopNode with baseNodes := pre ++ r.node :: post } }

/-- Append a new loop node with one handler (esp_event.c:755–779). -/
def openLoopNode (t : Registry) (base : EventBase) (id : Int32) (handler : Handler) (arg : Arg)
    (legacy : Bool) : Added (List LoopNode) :=
  match A.calloc t.heap with
  | (none, heap) => ⟨t.loopNodes, heap, .noMem, none⟩
  | (some loopNode, heap) =>
    let r := loopNodeAddHandler A heap ⟨loopNode, [], []⟩ base id handler arg legacy
    if r.err = .ok then { r with node := t.loopNodes ++ [r.node] }
    else ⟨t.loopNodes, r.heap.free loopNode, r.err, none⟩

/-- `esp_event_handler_register_with_internal` (esp_event.c:722–793), under the
loop's mutex. A loop-level handler goes behind the base nodes of the last loop
node. -/
def registerWithInternal (t : Registry) (base : EventBase) (id : Int32) (handler : Handler)
    (arg : Arg) (legacy : Bool) : Added (List LoopNode) :=
  if base = anyBase ∧ id ≠ anyId then ⟨t.loopNodes, t.heap, .invalidArg, none⟩
  else
    match splitLast (fun _ => true) t.loopNodes with
    | none => openLoopNode A t base id handler arg legacy
    | some (pre, last, _) =>
      if !last.baseNodes.isEmpty && decide (base = anyBase ∧ id = anyId) then
        openLoopNode A t base id handler arg legacy
      else
        let r := loopNodeAddHandler A t.heap last base id handler arg legacy
        { r with node := pre ++ [r.node] }

end Add

end PicoHost.Event
