import PicoHost.Event.Calls
import Mathlib.Data.List.Flatten

/-!
# The nodes of the tree and their places

`places` lists all blocks of a registry with the nodes above them. A call never
moves a block: whatever of the tree after it is older than the call was at the same
place before (`Evolves`).
-/

namespace PicoHost.Event

/-! ## Places -/

/-- A block of the tree: the loop node, and below it the base node, the id node, the
handler node and the context, as far down as the block is. `key` is the base and id
of the block, or wildcards. -/
structure Place where
  loop : Block
  base : Option Block
  idNode : Option Block
  node : Option Block
  ctx : Option Block
  key : EventId
deriving DecidableEq, Repr

/-- The lowest node of the place. -/
def Place.block (p : Place) : Block :=
  p.ctx.getD (p.node.getD (p.idNode.getD (p.base.getD p.loop)))

def HandlerNode.places (loop : Block) (base idNode : Option Block) (key : EventId)
    (it : HandlerNode) : List Place :=
  [⟨loop, base, idNode, some it.self, some it.ctx.self, key⟩,
    ⟨loop, base, idNode, some it.self, none, key⟩]

def IdNode.places (loop base : Block) (eventBase : EventBase) (it : IdNode) : List Place :=
  it.handlers.flatMap (HandlerNode.places loop (some base) (some it.self) ⟨eventBase, it.id⟩) ++
    [⟨loop, some base, some it.self, none, none, ⟨eventBase, it.id⟩⟩]

def BaseNode.places (loop : Block) (it : BaseNode) : List Place :=
  it.handlers.flatMap (HandlerNode.places loop (some it.self) none ⟨it.base, anyId⟩) ++
    it.idNodes.flatMap (IdNode.places loop it.self it.base) ++
    [⟨loop, some it.self, none, none, none, ⟨it.base, anyId⟩⟩]

def LoopNode.places (it : LoopNode) : List Place :=
  it.handlers.flatMap (HandlerNode.places it.self none none anyEvent) ++
    it.baseNodes.flatMap (BaseNode.places it.self) ++
    [⟨it.self, none, none, none, none, anyEvent⟩]

def places (loopNodes : List LoopNode) : List Place := loopNodes.flatMap LoopNode.places

/-- The place of a handler node. -/
def Slot.place (s : Slot) : Place := ⟨s.loop, s.base, s.idNode, some s.node.self, none, s.key⟩

/-! ## Places and blocks -/

/-- If each node's places give its blocks, so do those of a list of nodes. -/
theorem map_flatMap_places {α : Type} {f : α → List Place} {g : α → List Block}
    (h : ∀ x, (f x).map Place.block = g x) (l : List α) :
    (l.flatMap f).map Place.block = l.flatMap g := by
  rw [List.map_flatMap]
  exact List.flatMap_congr fun x _ => h x

/-- The places of a handler node are its block and its context's. -/
theorem HandlerNode.places_block (loop : Block) (base idNode : Option Block) (key : EventId)
    (it : HandlerNode) : (it.places loop base idNode key).map Place.block = it.blocks := rfl

/-- The places of an id node give its blocks. -/
theorem IdNode.places_block (loop base : Block) (eventBase : EventBase) (it : IdNode) :
    (it.places loop base eventBase).map Place.block = it.blocks := by
  rw [IdNode.places, List.map_append, map_flatMap_places (HandlerNode.places_block _ _ _ _)]
  rfl

/-- The places of a base node give its blocks. -/
theorem BaseNode.places_block (loop : Block) (it : BaseNode) :
    (it.places loop).map Place.block = it.blocks := by
  rw [BaseNode.places, List.map_append, List.map_append,
    map_flatMap_places (HandlerNode.places_block _ _ _ _),
    map_flatMap_places (IdNode.places_block _ _ _)]
  rfl

/-- The places of a loop node give its blocks. -/
theorem LoopNode.places_block (it : LoopNode) : it.places.map Place.block = it.blocks := by
  rw [LoopNode.places, List.map_append, List.map_append,
    map_flatMap_places (HandlerNode.places_block _ _ _ _),
    map_flatMap_places (BaseNode.places_block _)]
  rfl

/-- The places are those of the blocks of the registry, in the same order. -/
theorem places_block (l : List LoopNode) :
    (places l).map Place.block = l.flatMap LoopNode.blocks :=
  map_flatMap_places LoopNode.places_block l

section Wf

variable {t : Registry} {p p' : Place}

/-- The live blocks are those of the tree. -/
theorem Wf.place_live (wf : Wf t) : p.block ∈ t.heap.live ↔
    ∃ p' ∈ places t.loopNodes, p'.block = p.block := by
  rw [wf.owns.mem_iff, Registry.blocks, ← places_block, List.mem_map]

/-- A block has one place. -/
theorem Wf.place_unique (wf : Wf t) (hp : p ∈ places t.loopNodes) (hp' : p' ∈ places t.loopNodes)
    (h : p.block = p'.block) : p = p' := by
  have hnd := wf.owns.nodup
  rw [Registry.blocks, ← places_block] at hnd
  exact List.inj_on_of_nodup_map hnd hp hp' h

/-- Every block of the tree is older than the next one. -/
theorem Wf.place_lt (wf : Wf t) (hp : p ∈ places t.loopNodes) : p.block.serial < t.heap.serial := by
  refine wf.owns.serial_lt ?_
  rw [Registry.blocks, ← places_block]
  exact List.mem_map_of_mem hp

end Wf

/-! ## Places below a list -/

/-- What a call makes of the places: those that are older than `n` were there. -/
def Old (n : Nat) (l l' : List Place) : Prop := ∀ p ∈ l', p ∈ l ∨ n ≤ p.block.serial

section Old

variable {n : Nat} {l l' m m' : List Place}

/-- All places of a list were there before. -/
theorem Old.refl (l : List Place) : Old n l l := fun _ hp => .inl hp

/-- Two lists of places, side by side -/
theorem Old.append (h : Old n l l') (hm : Old n m m') : Old n (l ++ m) (l' ++ m') := by
  intro p hp
  rcases List.mem_append.mp hp with hp | hp
  · exact (h p hp).imp_left fun hp => List.mem_append_left m hp
  · exact (hm p hp).imp_left fun hp => List.mem_append_right l hp

/-- Places with new blocks are not old. -/
theorem Old.fresh (h : ∀ p ∈ l', n ≤ p.block.serial) : Old n l l' := fun p hp => .inr (h p hp)

/-- Where places are only removed, all that are left were there. -/
theorem Old.of_subset (h : l' ⊆ l) : Old n l l' := fun _ hp => .inl (h hp)

/-- Fewer blocks count as old below a smaller serial number. -/
theorem Old.mono {k : Nat} (h : Old n l l') (hk : k ≤ n) : Old k l l' :=
  fun p hp => (h p hp).imp_right (Nat.le_trans hk)

end Old

/-! ## Registration -/

section Register

variable (A : Allocator) (heap : Heap) (handler : Handler) (arg : Arg) (legacy : Bool)

open LastMatch

/-- `handler_instances_add` adds new blocks to a list of handlers and moves none. -/
theorem handlerInstancesAdd_old (loop : Block) (base idNode : Option Block) (key : EventId)
    (handlers : List HandlerNode) :
    Old heap.serial (handlers.flatMap (HandlerNode.places loop base idNode key))
      ((handlerInstancesAdd A heap handlers handler arg legacy).node.flatMap
        (HandlerNode.places loop base idNode key)) := by
  rw [handlerInstancesAdd]
  rcases A.calloc_cases heap with hc | ⟨a, hc, -⟩ <;> rw [hc]
  · exact Old.refl _
  · dsimp only
    rcases A.calloc_cases (heap.malloc a).2 with hc | ⟨c, hc, -⟩ <;> rw [hc]
    · exact Old.refl _
    · dsimp only
      cases hover : (if legacy = true then overwriteArg handler arg handlers else none) with
      | none =>
        -- the node and its context are new
        dsimp only
        intro p hp
        rw [List.flatMap_append] at hp
        refine (List.mem_append.mp hp).imp_right fun hp => ?_
        rw [List.flatMap_singleton, HandlerNode.places, List.mem_pair] at hp
        rcases hp with rfl | rfl
        · exact Nat.le_succ _
        · exact Nat.le_refl _
      | some handlers' =>
        split at hover
        · obtain ⟨pre, it, post, rfl, rfl, -⟩ := overwriteArg_eq_some hover
          dsimp only
          rw [List.flatMap_append, List.flatMap_append]
          exact Old.refl _
        · cases hover

/-- `base_node_add_handler` adds new blocks and moves none. -/
theorem baseNodeAddHandler_old (loop : Block) (it : BaseNode) (id : Int32) :
    Old heap.serial (it.places loop)
      ((baseNodeAddHandler A heap it id handler arg legacy).node.places loop) := by
  rw [baseNodeAddHandler]
  by_cases hid : id = anyId
  · rw [if_pos hid]
    exact ((handlerInstancesAdd_old A heap handler arg legacy _ _ _ _ _).append (Old.refl _)).append
      (Old.refl _)
  rw [if_neg hid]
  cases hsplit : splitLast (fun it => decide (it.id = id)) it.idNodes with
  | none =>
    dsimp only
    rcases A.calloc_cases heap with hc | ⟨a, hc, -⟩ <;> rw [hc]
    · exact Old.refl _
    · dsimp only
      split
      · -- a new id node behind the others, with new handlers in it
        refine ((Old.refl _).append ?_).append (Old.refl _)
        dsimp only
        rw [List.flatMap_append]
        nth_rewrite 1 [← List.append_nil (it.idNodes.flatMap _)]
        refine (Old.refl _).append (Old.fresh fun p hp => ?_)
        rw [List.flatMap_singleton, IdNode.places] at hp
        rcases List.mem_append.mp hp with hp | hp
        · have hnew := handlerInstancesAdd_old A (heap.malloc a).2 handler arg legacy loop
            (some it.self) (some (heap.malloc a).1) ⟨it.base, id⟩ [] p hp
          exact Nat.le_of_succ_le (hnew.resolve_left nofun)
        · rw [List.mem_singleton.mp hp]
          exact Nat.le_refl _
      · exact Old.refl _
  | some found =>
    obtain ⟨pre, idNode, post⟩ := found
    obtain ⟨hl, -, -⟩ := splitLast_eq_some hsplit
    refine ((Old.refl _).append ?_).append (Old.refl _)
    dsimp only
    rw [hl, List.flatMap_append, List.flatMap_append, List.flatMap_cons, List.flatMap_cons]
    refine (Old.refl _).append (Old.append ?_ (Old.refl _))
    exact (handlerInstancesAdd_old A heap handler arg legacy _ _ _ _ _).append (Old.refl _)

/-- A new base node consists of new blocks. -/
theorem openBaseNode_old (it : LoopNode) (base : EventBase) (id : Int32) :
    Old heap.serial it.places (openBaseNode A heap it base id handler arg legacy).node.places := by
  rw [openBaseNode]
  rcases A.calloc_cases heap with hc | ⟨a, hc, -⟩ <;> rw [hc]
  · exact Old.refl _
  · dsimp only
    split
    · refine ((Old.refl _).append ?_).append (Old.refl _)
      dsimp only
      rw [List.flatMap_append]
      nth_rewrite 1 [← List.append_nil (it.baseNodes.flatMap _)]
      refine (Old.refl _).append (Old.fresh fun p hp => ?_)
      rw [List.flatMap_singleton] at hp
      rcases baseNodeAddHandler_old A (heap.malloc a).2 handler arg legacy it.self _ id p hp
        with hold | hnew
      · rw [List.mem_singleton.mp hold]
        exact Nat.le_refl _
      · exact Nat.le_of_succ_le hnew
    · exact Old.refl _

/-- `loop_node_add_handler` adds new blocks and moves none. -/
theorem loopNodeAddHandler_old (it : LoopNode) (base : EventBase) (id : Int32) :
    Old heap.serial it.places
      (loopNodeAddHandler A heap it base id handler arg legacy).node.places := by
  rw [loopNodeAddHandler]
  by_cases hany : base = anyBase ∧ id = anyId
  · rw [if_pos hany]
    exact ((handlerInstancesAdd_old A heap handler arg legacy _ _ _ _ _).append (Old.refl _)).append
      (Old.refl _)
  rw [if_neg hany]
  cases hsplit : splitLast (fun it => decide (it.base = base)) it.baseNodes with
  | none => exact openBaseNode_old A heap handler arg legacy it base id
  | some found =>
    obtain ⟨pre, baseNode, post⟩ := found
    obtain ⟨hl, -, -⟩ := splitLast_eq_some hsplit
    dsimp only
    split
    · exact openBaseNode_old A heap handler arg legacy it base id
    · refine ((Old.refl _).append ?_).append (Old.refl _)
      dsimp only
      rw [hl, List.flatMap_append, List.flatMap_append, List.flatMap_cons, List.flatMap_cons]
      exact (Old.refl _).append ((baseNodeAddHandler_old A heap handler arg legacy _ _ _).append
        (Old.refl _))

/-- A new loop node consists of new blocks. -/
theorem openLoopNode_old (t : Registry) (base : EventBase) (id : Int32) :
    Old t.heap.serial (places t.loopNodes)
      (places (openLoopNode A t base id handler arg legacy).node) := by
  rw [openLoopNode]
  rcases A.calloc_cases t.heap with hc | ⟨a, hc, -⟩ <;> rw [hc]
  · exact Old.refl _
  · dsimp only
    split
    · unfold places
      dsimp only
      rw [List.flatMap_append]
      nth_rewrite 1 [← List.append_nil (t.loopNodes.flatMap _)]
      refine (Old.refl _).append (Old.fresh fun p hp => ?_)
      rw [List.flatMap_singleton] at hp
      rcases loopNodeAddHandler_old A (t.heap.malloc a).2 handler arg legacy _ base id p hp
        with hold | hnew
      · rw [List.mem_singleton.mp hold]
        exact Nat.le_refl _
      · exact Nat.le_of_succ_le hnew
    · exact Old.refl _

/-- A registration moves no node: what is old stands where it stood. -/
theorem registerWithInternal_old (t : Registry) (base : EventBase) (id : Int32) :
    Old t.heap.serial (places t.loopNodes)
      (places (registerWithInternal A t base id handler arg legacy).node) := by
  rw [registerWithInternal]
  by_cases hinvalid : base = anyBase ∧ id ≠ anyId
  · rw [if_pos hinvalid]
    exact Old.refl _
  rw [if_neg hinvalid]
  cases hsplit : splitLast (fun _ => true) t.loopNodes with
  | none => exact openLoopNode_old A handler arg legacy t base id
  | some found =>
    obtain ⟨pre, last, post⟩ := found
    obtain ⟨hl, -, -⟩ := splitLast_eq_some hsplit
    dsimp only
    split
    · exact openLoopNode_old A handler arg legacy t base id
    · unfold places
      dsimp only
      rw [hl, List.flatMap_append, List.flatMap_append, List.flatMap_cons, List.flatMap_cons]
      refine (Old.refl _).append ((loopNodeAddHandler_old A t.heap handler arg legacy _ _ _).append
        (Old.of_subset (List.nil_subset _)))

end Register

/-! ## Unregistration -/

section Unregister

/-- A removal in a list of nodes takes places away, if the removal in a node does. -/
theorem removeLoop_places {α : Type} {self : α → Block} {wanted isEmpty : α → Bool}
    {remove : Heap → α → Removed α} {places : α → List Place}
    (hremove : ∀ heap x, (places (remove heap x).node).Sublist (places x)) (heap : Heap)
    (l : List α) :
    ((removeLoop self wanted isEmpty remove heap l).node.flatMap places).Sublist
      (l.flatMap places) := by
  induction l generalizing heap with
  | nil => exact List.Sublist.refl _
  | cons it rest ih =>
    rw [removeLoop]
    by_cases hwanted : wanted it = true
    · rw [if_pos hwanted]
      dsimp only
      split
      · exact List.sublist_append_right ..
      · exact (hremove heap it).append (ih _)
    · rw [if_neg hwanted]
      exact (List.Sublist.refl _).append (ih heap)

/-- `base_node_remove_handler` only takes places away. -/
theorem baseNodeRemoveHandler_places (id : Int32) (target : Target) (loop : Block) (heap : Heap)
    (it : BaseNode) :
    ((baseNodeRemoveHandler id target heap it).node.places loop).Sublist (it.places loop) := by
  rw [baseNodeRemoveHandler]
  split
  · exact (((handlerInstancesRemove_sublist ..).flatMap _).append_right _).append_right _
  · refine ((List.Sublist.refl _).append (removeLoop_places (fun heap idNode => ?_) heap _)).append
      (List.Sublist.refl _)
    exact ((handlerInstancesRemove_sublist ..).flatMap _).append_right _

/-- `loop_node_remove_handler` only takes places away. -/
theorem loopNodeRemoveHandler_places (base : EventBase) (id : Int32) (target : Target)
    (heap : Heap) (it : LoopNode) :
    (loopNodeRemoveHandler base id target heap it).node.places.Sublist it.places := by
  rw [loopNodeRemoveHandler]
  split
  · exact (((handlerInstancesRemove_sublist ..).flatMap _).append_right _).append_right _
  · refine ((List.Sublist.refl _).append (removeLoop_places (fun heap x => ?_) heap _)).append
      (List.Sublist.refl _)
    exact baseNodeRemoveHandler_places id target it.self heap x

/-- Unregistering a handler only takes places away. -/
theorem unregisterWithInternal_places (t : Registry) (base : EventBase) (id : Int32)
    (target : Target) :
    (places (unregisterWithInternal t base id target).1.loopNodes).Sublist
      (places t.loopNodes) := by
  rw [unregisterWithInternal]
  split
  · exact List.Sublist.refl _
  · exact removeLoop_places (fun heap x => loopNodeRemoveHandler_places base id target heap x) _ _

end Unregister

/-! ## Calls -/

/-- From a registry to a later one. -/
structure Evolves (t t' : Registry) : Prop where
  serial : t.heap.serial ≤ t'.heap.serial
  old : Old t.heap.serial (places t.loopNodes) (places t'.loopNodes)

section Evolves

variable {t t' t'' : Registry}

/-- Every registry evolves into itself. -/
theorem Evolves.refl (t : Registry) : Evolves t t := ⟨Nat.le_refl _, Old.refl _⟩

/-- Two steps of evolution make one. -/
theorem Evolves.trans (h : Evolves t t') (h' : Evolves t' t'') : Evolves t t'' := by
  refine ⟨Nat.le_trans h.serial h'.serial, fun p hp => ?_⟩
  rcases h'.old p hp with hp | hp
  · exact h.old p hp
  · exact .inr (Nat.le_trans h.serial hp)

/-- A block that was there before is where it was. -/
theorem Evolves.place (h : Evolves t t') {p : Place} (hp : p ∈ places t'.loopNodes)
    (hlt : p.block.serial < t.heap.serial) : p ∈ places t.loopNodes :=
  (h.old p hp).resolve_right (Nat.not_le_of_lt hlt)

/-- A block that is still live is still where it was. -/
theorem Evolves.stays (h : Evolves t t') (wf : Wf t) (wf' : Wf t') {p : Place}
    (hp : p ∈ places t.loopNodes) (hlive : p.block ∈ t'.heap.live) : p ∈ places t'.loopNodes := by
  obtain ⟨p', hp', hblock⟩ := wf'.place_live.mp hlive
  have hlt : p'.block.serial < t.heap.serial := hblock ▸ wf.place_lt hp
  rw [wf.place_unique hp (h.place hp' hlt) hblock.symm]
  exact hp'

/-- Unregistering a handler evolves the registry. -/
theorem unregister_evolves (wf : Wf t) (key : EventId) (target : Target) :
    Evolves t (unregisterWithInternal t key.base key.id target).1 := by
  refine ⟨?_, Old.of_subset (unregisterWithInternal_places ..).subset⟩
  rcases unregister_cases wf key target with h | h
  · have hsame := congrArg (fun r => r.1.heap.serial) h
    exact Nat.le_of_eq hsame.symm
  · exact Nat.le_of_eq h.2.serial.symm

/-- Registering a handler evolves the registry. -/
theorem register_evolves (A : Allocator) (wf : Wf t) (q : Request) :
    Evolves t ⟨(registerWithInternal A t q.key.base q.key.id q.handler q.arg q.legacy).node,
      (registerWithInternal A t q.key.base q.key.id q.handler q.arg q.legacy).heap⟩ :=
  ⟨(registerWithInternal_spec A wf q).serial, registerWithInternal_old A q.handler q.arg q.legacy
    t q.key.base q.key.id⟩

/-- A call of either kind evolves the registry. -/
theorem Call.apply_evolves (A : Allocator) (wf : Wf t) (call : Call) :
    Evolves t (call.apply A t).registry := by
  cases call with
  | handler call =>
    cases call with
    | register key handler arg => exact register_evolves A wf ⟨key, handler, arg, true⟩
    | unregister key handler => exact unregister_evolves wf key (.handler handler)
  | instance_ call =>
    cases call with
    | register key handler arg => exact register_evolves A wf ⟨key, handler, arg, false⟩
    | unregister key handle =>
      cases handle with
      | none => exact Evolves.refl t
      | some ctx => exact unregister_evolves wf key (.instance_ ctx)

/-- So does any list of calls, by induction on the list. -/
theorem applyAll_evolves (A : Allocator) (wf : Wf t) (calls : List Call) :
    Evolves t (applyAll A t calls) := by
  induction calls generalizing t with
  | nil => exact Evolves.refl t
  | cons call calls ih => exact (call.apply_evolves A wf).trans (ih (call.apply_wf A wf))

end Evolves

end PicoHost.Event
