import PicoHost.Event.Calls
import PicoHost.Lib.Chain

/-!
# A dispatch as a walk over the nodes

The nested `SLIST_FOREACH_SAFE` loops of `esp_event_loop_run` (esp_event.c:590–617)
as a machine. Its locals are pointers, and a handler that runs may register and
unregister, so that a pointer may be to a node that has been freed: reading through
such a pointer is the state `fault`. `SLIST_FOREACH_SAFE` reads the `next` field of a
node before the body runs and not again.
-/

namespace PicoHost.Event

open Chain

/-! ## Memory -/

section Memory

variable (loopNodes : List LoopNode)

def loopCells : List (LoopNode × Option Block) := cells LoopNode.self loopNodes

def baseCells : List (BaseNode × Option Block) :=
  loopNodes.flatMap fun it => cells BaseNode.self it.baseNodes

def idCells : List (IdNode × Option Block) :=
  loopNodes.flatMap fun it => it.baseNodes.flatMap fun it => cells IdNode.self it.idNodes

def handlerCells : List (HandlerNode × Option Block) :=
  loopNodes.flatMap fun it => cells HandlerNode.self it.handlers ++
    it.baseNodes.flatMap fun it => cells HandlerNode.self it.handlers ++
      it.idNodes.flatMap fun it => cells HandlerNode.self it.handlers

end Memory

/-! ## The machine -/

/-- Where the walk is, with its locals: `loop_node`, `temp_node`, `base_node`,
`temp_base`, `id_node`, and the node that the innermost loop is about to visit. -/
inductive Pc where
  | loopNode (loopNode : Option Block)
  | loopHandler (loopNode : Block) (tempNode handler : Option Block)
  | baseNode (loopNode : Block) (tempNode baseNode : Option Block)
  | baseHandler (loopNode : Block) (tempNode : Option Block) (baseNode : Block)
      (tempBase handler : Option Block)
  | idNode (loopNode : Block) (tempNode : Option Block) (baseNode : Block)
      (tempBase idNode : Option Block)
  | idHandler (loopNode : Block) (tempNode : Option Block) (baseNode : Block)
      (tempBase : Option Block) (idNode : Block) (handler : Option Block)
  | done
  | fault
deriving DecidableEq, Repr

/-- The handler node that the walk is about to run, and where it goes on after it
with the next one. -/
def Pc.handler : Pc → Option (Block × (Option Block → Pc))
  | .loopHandler loop tempNode (some h) => some (h, .loopHandler loop tempNode)
  | .baseHandler loop tempNode base tempBase (some h) =>
    some (h, .baseHandler loop tempNode base tempBase)
  | .idHandler loop tempNode base tempBase id (some h) =>
    some (h, .idHandler loop tempNode base tempBase id)
  | _ => none

/-- A step that runs no handler. -/
def Pc.next (loopNodes : List LoopNode) (e : EventId) : Pc → Pc
  | .loopNode none => .done
  | .loopNode (some p) =>
    match read LoopNode.self (loopCells loopNodes) p with
    | none => .fault
    | some (it, tempNode) => .loopHandler p tempNode (it.handlers.head?.map HandlerNode.self)
  | .loopHandler loop tempNode _ =>
    match read LoopNode.self (loopCells loopNodes) loop with
    | none => .fault
    | some (it, _) => .baseNode loop tempNode (it.baseNodes.head?.map BaseNode.self)
  | .baseNode _ tempNode none => .loopNode tempNode
  | .baseNode loop tempNode (some p) =>
    match read BaseNode.self (baseCells loopNodes) p with
    | none => .fault
    | some (it, tempBase) =>
      if it.base = e.base then
        .baseHandler loop tempNode p tempBase (it.handlers.head?.map HandlerNode.self)
      else .baseNode loop tempNode tempBase
  | .baseHandler loop tempNode base tempBase _ =>
    match read BaseNode.self (baseCells loopNodes) base with
    | none => .fault
    | some (it, _) => .idNode loop tempNode base tempBase (it.idNodes.head?.map IdNode.self)
  | .idNode loop tempNode _ tempBase none => .baseNode loop tempNode tempBase
  | .idNode loop tempNode base tempBase (some p) =>
    match read IdNode.self (idCells loopNodes) p with
    | none => .fault
    | some (it, tempIdNode) =>
      if it.id = e.id then
        .idHandler loop tempNode base tempBase p (it.handlers.head?.map HandlerNode.self)
      else .idNode loop tempNode base tempBase tempIdNode
  -- `break`: on to the next base node
  | .idHandler loop tempNode _ tempBase _ _ => .baseNode loop tempNode tempBase
  | .done => .done
  | .fault => .fault

/-- The registrations during a dispatch, where the walk is, and the handler nodes it
has run, first to last. -/
structure Walk where
  registry : Registry
  pc : Pc
  executed : List HandlerNode
deriving DecidableEq, Repr

/-- The walk at the start of the dispatch. -/
def Walk.start (t : Registry) : Walk :=
  ⟨t, .loopNode (t.loopNodes.head?.map LoopNode.self), []⟩

/-- One step of the walk; `calls` are what the handler calls if the step runs one. -/
def Walk.step (A : Allocator) (e : EventId) (w : Walk) (calls : List Call) : Walk :=
  match w.pc.handler with
  | none => { w with pc := w.pc.next w.registry.loopNodes e }
  | some (h, continue_) =>
    match read HandlerNode.self (handlerCells w.registry.loopNodes) h with
    | none => { w with pc := .fault }
    | some (it, tempHandler) =>
      ⟨applyAll A w.registry calls, continue_ tempHandler, w.executed ++ [it]⟩

/-- The walk after `n` steps, where a handler that runs in step `i` makes the calls
`behaviour i`. -/
def Walk.after (A : Allocator) (e : EventId) (t : Registry) (behaviour : Nat → List Call) :
    Nat → Walk
  | 0 => Walk.start t
  | n + 1 => (Walk.after A e t behaviour n).step A e (behaviour n)

end PicoHost.Event
