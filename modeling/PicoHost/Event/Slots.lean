import PicoHost.Event.Register
import PicoHost.Event.Unregister
import PicoHost.Lib.Chain
import Mathlib.Data.List.Flatten

/-!
# The tree as a list

`slots` lists the registrations of a loop in the order in which a dispatch meets
them, each with its key and its place in the tree. `dispatch` is the loop of
`esp_event_loop_run` over registrations that do not change meanwhile, and
`dispatch_eq` says that it runs the matching slots in order.

`Wf` is the well-formedness of a registry that every call keeps: lists ascend in
the order of allocation, no node is empty, the ids of a base node differ, and the
nodes and contexts are exactly the live blocks.
-/

namespace PicoHost.Event

open Chain

/-! ## Slots -/

/-- A handler node and where it is: the nodes above it and the base and id it is
registered for. -/
structure Slot where
  loop : Block
  base : Option Block
  idNode : Option Block
  key : EventId
  node : HandlerNode
deriving DecidableEq, Repr

/-- The key of loop-level handlers. -/
def anyEvent : EventId := ⟨anyBase, anyId⟩

def IdNode.slots (loop base : Block) (eventBase : EventBase) (it : IdNode) : List Slot :=
  it.handlers.map (Slot.mk loop (some base) (some it.self) ⟨eventBase, it.id⟩)

def BaseNode.slots (loop : Block) (it : BaseNode) : List Slot :=
  it.handlers.map (Slot.mk loop (some it.self) none ⟨it.base, anyId⟩) ++
    it.idNodes.flatMap (IdNode.slots loop it.self it.base)

def LoopNode.slots (it : LoopNode) : List Slot :=
  it.handlers.map (Slot.mk it.self none none anyEvent) ++
    it.baseNodes.flatMap (BaseNode.slots it.self)

/-- The registrations below an id node are for its base and id. -/
theorem IdNode.key_of_mem {loop base : Block} {eventBase : EventBase} {it : IdNode} {s : Slot}
    (h : s ∈ it.slots loop base eventBase) : s.key = ⟨eventBase, it.id⟩ := by
  obtain ⟨_, -, rfl⟩ := List.mem_map.mp h
  rfl

/-- The registrations below a base node are for its base. -/
theorem BaseNode.key_of_mem {loop : Block} {it : BaseNode} {s : Slot} (h : s ∈ it.slots loop) :
    s.key.base = it.base := by
  rcases List.mem_append.mp h with h | h
  · obtain ⟨_, -, rfl⟩ := List.mem_map.mp h
    rfl
  · obtain ⟨idNode, -, h⟩ := List.mem_flatMap.mp h
    rw [idNode.key_of_mem h]

/-- All registrations, in the order of a dispatch. -/
def slots (loopNodes : List LoopNode) : List Slot := loopNodes.flatMap LoopNode.slots

@[simp] theorem slots_nil : slots [] = [] := rfl

@[simp] theorem slots_cons (it : LoopNode) (rest : List LoopNode) :
    slots (it :: rest) = it.slots ++ slots rest := rfl

@[simp] theorem slots_append (l l' : List LoopNode) : slots (l ++ l') = slots l ++ slots l' :=
  List.flatMap_append

/-! ## Matching -/

/-- A registration for `key` is invoked for the event `e`: any event, any event of
the base, or this event. -/
def Matches (e key : EventId) : Prop :=
  key = anyEvent ∨ (key.base = e.base ∧ (key.id = anyId ∨ key.id = e.id))

instance (e key : EventId) : Decidable (Matches e key) := inferInstanceAs (Decidable (_ ∨ _))

/-- No event matches both. -/
def Apart (key key' : EventId) : Prop := ∀ e, Matches e key → ¬ Matches e key'

/-- The two wildcards match every event. -/
theorem matches_anyEvent (e : EventId) : Matches e anyEvent := .inl rfl

/-- A base with the id wildcard matches the events of the base. -/
theorem matches_base {e : EventId} {base : EventBase} (hb : base ≠ anyBase) :
    Matches e ⟨base, anyId⟩ ↔ base = e.base := by
  constructor
  · rintro (h | ⟨h, -⟩)
    · exact absurd (congrArg EventId.base h) hb
    · exact h
  · exact fun h => .inr ⟨h, .inl rfl⟩

/-- A base with an id matches that event. -/
theorem matches_id {e : EventId} {base : EventBase} {id : Int32} (hb : base ≠ anyBase)
    (hi : id ≠ anyId) : Matches e ⟨base, id⟩ ↔ base = e.base ∧ id = e.id := by
  constructor
  · rintro (h | ⟨h, h' | h'⟩)
    · exact absurd (congrArg EventId.base h) hb
    · exact absurd h' hi
    · exact ⟨h, h'⟩
  · exact fun h => .inr ⟨h.1, .inr h.2⟩

/-- Two ids of one base. -/
theorem apart_of_id_ne {base : EventBase} {id id' : Int32} (hb : base ≠ anyBase)
    (hi : id ≠ anyId) (hi' : id' ≠ anyId) (hne : id ≠ id') : Apart ⟨base, id⟩ ⟨base, id'⟩ := by
  intro e h h'
  rw [matches_id hb hi] at h
  rw [matches_id hb hi'] at h'
  exact hne (h.2.trans h'.2.symm)

/-- Two bases. -/
theorem apart_of_base_ne {key key' : EventId} (hb : key.base ≠ anyBase)
    (hb' : key'.base ≠ anyBase) (hne : key.base ≠ key'.base) : Apart key key' := by
  rintro e (h | ⟨h, -⟩)
  · exact absurd (congrArg EventId.base h) hb
  · rintro (h' | ⟨h', -⟩)
    · exact hb' (congrArg EventId.base h')
    · exact hne (h.trans h'.symm)

/-! ## Dispatch -/

/-- The id-level part of a dispatch: the first id node of the event's id, then
`break` (esp_event.c:603–613). -/
def idNodesDispatch (e : EventId) : List IdNode → List HandlerNode
  | [] => []
  | it :: rest => if it.id = e.id then it.handlers else idNodesDispatch e rest

/-- The handlers that `esp_event_loop_run` runs for an event, in order
(esp_event.c:590–617), when they leave the registrations alone. -/
def dispatch (loopNodes : List LoopNode) (e : EventId) : List HandlerNode :=
  loopNodes.flatMap fun loopNode =>
    loopNode.handlers ++ loopNode.baseNodes.flatMap fun baseNode =>
      if baseNode.base = e.base then baseNode.handlers ++ idNodesDispatch e baseNode.idNodes
      else []

/-! ## Well-formed trees -/

structure IdNode.Ok (it : IdNode) : Prop where
  notAny : it.id ≠ anyId
  nonempty : it.handlers ≠ []
  ascending : Ascending HandlerNode.self it.handlers

/-- What holds of a base node even while it is empty. -/
structure BaseNode.Shape (it : BaseNode) : Prop where
  notAny : it.base ≠ anyBase
  ascending : Ascending HandlerNode.self it.handlers
  ascendingIds : Ascending IdNode.self it.idNodes
  distinct : (it.idNodes.map IdNode.id).Nodup
  idNodes : ∀ idNode ∈ it.idNodes, idNode.Ok

structure BaseNode.Ok (it : BaseNode) : Prop extends it.Shape where
  nonempty : it.handlers ≠ [] ∨ it.idNodes ≠ []

/-- What holds of a loop node even while it is empty. -/
structure LoopNode.Shape (it : LoopNode) : Prop where
  ascending : Ascending HandlerNode.self it.handlers
  ascendingBases : Ascending BaseNode.self it.baseNodes
  baseNodes : ∀ baseNode ∈ it.baseNodes, baseNode.Ok

structure LoopNode.Ok (it : LoopNode) : Prop extends it.Shape where
  nonempty : it.handlers ≠ [] ∨ it.baseNodes ≠ []

def HandlerNode.blocks (it : HandlerNode) : List Block := [it.ctx.self, it.self]

def IdNode.blocks (it : IdNode) : List Block :=
  it.handlers.flatMap HandlerNode.blocks ++ [it.self]

def BaseNode.blocks (it : BaseNode) : List Block :=
  it.handlers.flatMap HandlerNode.blocks ++ it.idNodes.flatMap IdNode.blocks ++ [it.self]

def LoopNode.blocks (it : LoopNode) : List Block :=
  it.handlers.flatMap HandlerNode.blocks ++ it.baseNodes.flatMap BaseNode.blocks ++ [it.self]

/-- The nodes and contexts of a registry, in the order in which the deletion of
the loop frees them. -/
def Registry.blocks (t : Registry) : List Block := t.loopNodes.flatMap LoopNode.blocks

structure Wf (t : Registry) : Prop where
  ascending : Ascending LoopNode.self t.loopNodes
  loopNodes : ∀ loopNode ∈ t.loopNodes, loopNode.Ok
  owns : t.heap.Owns t.blocks

/-- The empty registry is well formed. -/
theorem wf_empty : Wf Registry.empty := ⟨List.Pairwise.nil, nofun, Heap.owns_empty⟩

/-! ## The blocks of the slots -/

section Blocks

/-- The blocks of a list of handlers are among those of their node. -/
theorem handlers_blocks_sublist (loop : Block) (base idNode : Option Block) (key : EventId)
    (handlers : List HandlerNode) (rest : List Block) :
    (((handlers.map (Slot.mk loop base idNode key)).flatMap fun s => s.node.blocks)).Sublist
      (handlers.flatMap HandlerNode.blocks ++ rest) := by
  rw [List.flatMap_map]
  exact List.sublist_append_left ..

/-- The blocks of a base node's registrations are among those of the node. -/
theorem BaseNode.blocks_sublist (loop : Block) (it : BaseNode) :
    ((it.slots loop).flatMap fun s => s.node.blocks).Sublist it.blocks := by
  rw [BaseNode.slots, List.flatMap_append, BaseNode.blocks, List.append_assoc]
  refine List.Sublist.append ?_ (List.Sublist.trans ?_ (List.sublist_append_left ..))
  · simpa using handlers_blocks_sublist loop (some it.self) none ⟨it.base, anyId⟩ it.handlers []
  · rw [List.flatMap_assoc]
    exact List.Sublist.flatMap_right _ fun idNode _ => handlers_blocks_sublist ..

/-- The blocks of a loop node's registrations are among those of the node. -/
theorem LoopNode.blocks_sublist (it : LoopNode) :
    (it.slots.flatMap fun s => s.node.blocks).Sublist it.blocks := by
  rw [LoopNode.slots, List.flatMap_append, LoopNode.blocks, List.append_assoc]
  refine List.Sublist.append ?_ (List.Sublist.trans ?_ (List.sublist_append_left ..))
  · simpa using handlers_blocks_sublist it.self none none anyEvent it.handlers []
  · rw [List.flatMap_assoc]
    exact List.Sublist.flatMap_right _ fun baseNode _ => baseNode.blocks_sublist it.self

/-- The blocks of all registrations are among those of the tree. -/
theorem slots_blocks_sublist (l : List LoopNode) :
    ((slots l).flatMap fun s => s.node.blocks).Sublist (l.flatMap LoopNode.blocks) := by
  rw [slots, List.flatMap_assoc]
  exact List.Sublist.flatMap_right _ fun loopNode _ => loopNode.blocks_sublist

/-- One of the two blocks of every slot, in order, are blocks of the tree. -/
theorem slots_map_sublist (block : Slot → Block) (h : ∀ s, block s ∈ s.node.blocks)
    (l : List LoopNode) : ((slots l).map block).Sublist (l.flatMap LoopNode.blocks) := by
  refine List.Sublist.trans ?_ (slots_blocks_sublist l)
  rw [← List.flatMap_singleton' ((slots l).map block), List.flatMap_map]
  exact List.Sublist.flatMap_right _ fun s _ => List.singleton_sublist.mpr (h s)

variable {t : Registry}

/-- The contexts of live registrations are at different addresses. -/
theorem Wf.ctx_addr_nodup (wf : Wf t) :
    ((slots t.loopNodes).map fun s => s.node.ctx.self.addr).Nodup := by
  have hsub := slots_map_sublist (fun s => s.node.ctx.self)
    (fun _ => List.mem_cons_self ..) t.loopNodes
  have haddr : (t.blocks.map Block.addr).Nodup :=
    ((wf.owns.live.map Block.addr).nodup_iff).mp wf.owns.apart
  have h := haddr.sublist (hsub.map Block.addr)
  rwa [List.map_map] at h

/-- No two registrations share a handler node. -/
theorem Wf.node_nodup (wf : Wf t) : ((slots t.loopNodes).map fun s => s.node.self).Nodup :=
  wf.owns.nodup.sublist (slots_map_sublist (fun s => s.node.self)
    (fun _ => List.mem_cons_of_mem _ (List.mem_cons_self ..)) t.loopNodes)

/-- The node of a registration is allocated. -/
theorem Wf.node_live (wf : Wf t) {s : Slot} (hs : s ∈ slots t.loopNodes) :
    s.node.self ∈ t.heap.live := by
  refine wf.owns.mem_iff.mpr ((slots_map_sublist (fun s => s.node.self)
    (fun _ => List.mem_cons_of_mem _ (List.mem_cons_self ..)) t.loopNodes).subset ?_)
  exact List.mem_map.mpr ⟨s, hs, rfl⟩

end Blocks

/-! ## Dispatch runs the matching slots -/

section Dispatch

variable {e : EventId}

/-- The matching slots among some of them. -/
def matching (e : EventId) (l : List Slot) : List Slot :=
  l.filter fun s => decide (Matches e s.key)

/-- The registrations that match, node by node -/
theorem matching_append (l l' : List Slot) :
    matching e (l ++ l') = matching e l ++ matching e l' := List.filter_append ..

/-- One list of handlers matches as a whole. -/
theorem matching_handlers (loop : Block) (base idNode : Option Block) (key : EventId)
    (handlers : List HandlerNode) :
    (matching e (handlers.map (Slot.mk loop base idNode key))).map Slot.node =
      if Matches e key then handlers else [] := by
  unfold matching
  rw [List.filter_map, List.map_map]
  show (handlers.filter fun _ => decide (Matches e key)).map (fun it => it) = _
  by_cases h : Matches e key
  · rw [if_pos h, List.filter_eq_self.mpr fun it _ => decide_eq_true h]
    exact List.map_id _
  · rw [if_neg h, List.filter_eq_nil_iff.mpr fun it _ => by simpa using h]
    rfl

/-- Without a node for the id, no id node is dispatched to. -/
theorem idNodesDispatch_eq_nil {l : List IdNode} (h : e.id ∉ l.map IdNode.id) :
    idNodesDispatch e l = [] := by
  induction l with
  | nil => rfl
  | cons it rest ih =>
    obtain ⟨hne, hrest⟩ := not_or.mp fun hmem => h (List.mem_cons.mpr hmem)
    rw [idNodesDispatch, if_neg (Ne.symm hne), ih hrest]

/-- Below a base, the handlers of the id are those that match. -/
theorem idNodesDispatch_eq {loop base : Block} {eventBase : EventBase}
    (hb : eventBase ≠ anyBase) {l : List IdNode} (hok : ∀ it ∈ l, it.Ok)
    (hnd : (l.map IdNode.id).Nodup) :
    (if eventBase = e.base then idNodesDispatch e l else []) =
      (matching e (l.flatMap (IdNode.slots loop base eventBase))).map Slot.node := by
  induction l with
  | nil => exact ite_self []
  | cons it rest ih =>
    obtain ⟨hit, hnd⟩ := List.nodup_cons.mp hnd
    have hrest := ih (fun x hx => hok x (List.mem_cons_of_mem it hx)) hnd
    have hmatch := matches_id (e := e) hb (hok it (List.mem_cons_self ..)).notAny
    rw [List.flatMap_cons, matching_append, List.map_append, ← hrest, IdNode.slots,
      matching_handlers, idNodesDispatch]
    by_cases hbase : eventBase = e.base
    · rw [if_pos hbase, if_pos hbase]
      by_cases hid : it.id = e.id
      · -- the ids behind the first match are different
        rw [if_pos hid, if_pos (hmatch.mpr ⟨hbase, hid⟩),
          idNodesDispatch_eq_nil (hid ▸ hit), List.append_nil]
      · rw [if_neg hid, if_neg fun h => hid (hmatch.mp h).2]
        rfl
    · rw [if_neg hbase, if_neg hbase, if_neg fun h => hbase (hmatch.mp h).1]
      rfl

/-- A base node dispatches to its registrations that match. -/
theorem BaseNode.dispatch_eq (loop : Block) {it : BaseNode} (hok : it.Ok) :
    (if it.base = e.base then it.handlers ++ idNodesDispatch e it.idNodes else []) =
      (matching e (it.slots loop)).map Slot.node := by
  rw [BaseNode.slots, matching_append, List.map_append, matching_handlers,
    ← idNodesDispatch_eq hok.notAny hok.idNodes hok.distinct]
  by_cases hbase : it.base = e.base
  · rw [if_pos hbase, if_pos hbase, if_pos ((matches_base hok.notAny).mpr hbase)]
  · rw [if_neg hbase, if_neg hbase, if_neg fun h => hbase ((matches_base hok.notAny).mp h)]
    rfl

/-- A list of base nodes dispatches to its registrations that match. -/
theorem baseNodesDispatch_eq (loop : Block) {l : List BaseNode} (hok : ∀ it ∈ l, it.Ok) :
    (l.flatMap fun it =>
        if it.base = e.base then it.handlers ++ idNodesDispatch e it.idNodes else []) =
      (matching e (l.flatMap (BaseNode.slots loop))).map Slot.node := by
  induction l with
  | nil => rfl
  | cons it rest ih =>
    rw [List.flatMap_cons, List.flatMap_cons, matching_append, List.map_append,
      ← ih fun x hx => hok x (List.mem_cons_of_mem it hx),
      ← BaseNode.dispatch_eq loop (hok it (List.mem_cons_self ..))]

/-- A dispatch runs the slots that match the event, in order. -/
theorem dispatch_eq {l : List LoopNode} (hok : ∀ it ∈ l, it.Ok) :
    dispatch l e = (matching e (slots l)).map Slot.node := by
  induction l with
  | nil => rfl
  | cons it rest ih =>
    have hrest := ih fun x hx => hok x (List.mem_cons_of_mem it hx)
    unfold dispatch at hrest ⊢
    rw [List.flatMap_cons, slots_cons, matching_append, List.map_append, ← hrest,
      LoopNode.slots, matching_append, List.map_append, matching_handlers,
      if_pos (matches_anyEvent e),
      baseNodesDispatch_eq it.self (hok it (List.mem_cons_self ..)).baseNodes]

end Dispatch

end PicoHost.Event
