import PicoHost.Lib.Heap

/-!
# Data model of the event loop (`esp_event_internal.h`, `esp_event.h`)

The registrations of a loop are a tree of four levels: loop nodes, base nodes, id
nodes and handler nodes. Every node is a heap block, `self`; a handler node points
to a context, a block of its own, whose address is the handle of an instance
registration.

Pointers that are only compared (`esp_event_base_t`, `esp_event_handler_t`, the
`void *` argument) are numbers. `NULL` and `esp_event_any_base`, by which a
registration replaces it, are both `none`: no caller has the latter.
-/

namespace PicoHost.Event

/-- `esp_event_base_t` -/
abbrev EventBase := Option Nat

/-- `esp_event_handler_t` -/
abbrev Handler := Nat

/-- `void *event_handler_arg` -/
abbrev Arg := Nat

/-- `ESP_EVENT_ANY_BASE`, and `esp_event_any_base` -/
def anyBase : EventBase := none

/-- `ESP_EVENT_ANY_ID` -/
def anyId : Int32 := -1

/-- `esp_err_t` -/
inductive EspErr where
  | ok | fail | noMem | invalidArg | notFound | timeout
deriving DecidableEq, Repr

/-- `esp_event_handler_instance_context_t` -/
structure HandlerCtx where
  self : Block
  handler : Handler
  arg : Arg
deriving DecidableEq, Repr

/-- `esp_event_handler_node_t` -/
structure HandlerNode where
  self : Block
  ctx : HandlerCtx
deriving DecidableEq, Repr

/-- `esp_event_id_node_t` -/
structure IdNode where
  self : Block
  id : Int32
  handlers : List HandlerNode
deriving DecidableEq, Repr

/-- `esp_event_base_node_t` -/
structure BaseNode where
  self : Block
  base : EventBase
  handlers : List HandlerNode
  idNodes : List IdNode
deriving DecidableEq, Repr

/-- `esp_event_loop_node_t` -/
structure LoopNode where
  self : Block
  handlers : List HandlerNode
  baseNodes : List BaseNode
deriving DecidableEq, Repr

/-- The registrations of a loop, `loop_nodes`, and the heap. -/
structure Registry where
  loopNodes : List LoopNode
  heap : Heap
deriving DecidableEq, Repr

/-- No registrations yet. -/
def Registry.empty : Registry := ⟨[], Heap.empty⟩

/-- Base and id of an event. -/
structure EventId where
  base : EventBase
  id : Int32
deriving DecidableEq, Repr

end PicoHost.Event
