import PicoHost.Event.Calls

/-!
# Registrations that fail

Every level of a registration may run out of memory and hands the error to the
level above, which frees its own new node. `Failed` says what is left behind: the
node as it was, a heap that has been given everything back, and a handle that has
not been set. It needs nothing of the registry, so it holds of any lists, whether
or not earlier calls have built them.
-/

namespace PicoHost.Event

open LastMatch

/-- What a failed registration leaves of the heap and the node it was called with. -/
structure Failed {α : Type} (heap : Heap) (x : α) (r : Added α) : Prop where
  node : r.node = x
  heap : heap.Restored r.heap
  ctx : r.ctx = none

section Failed

variable {α β : Type} {heap : Heap} {x : α} {r : Added α}

/-- A registration below a node, which holds the changed part among its own. -/
theorem Failed.lift (h : Failed heap x r) (wrap : α → β) :
    Failed heap (wrap x) { r with node := wrap r.node } :=
  ⟨congrArg wrap h.node, h.heap, h.ctx⟩

/-- A registration in a new node, which is freed if the registration fails. -/
theorem Failed.opened {A : Allocator} {heap₁ : Heap} {b : Block} (z : β) (append : α → β)
    (hc : A.calloc heap = (some b, heap₁)) (h : r.err ≠ .ok → Failed heap₁ x r)
    (herr : (if r.err = .ok then { r with node := append r.node }
      else ⟨z, r.heap.free b, r.err, none⟩ : Added β).err ≠ .ok) :
    Failed heap z (if r.err = .ok then { r with node := append r.node }
      else ⟨z, r.heap.free b, r.err, none⟩) := by
  by_cases hok : r.err = .ok
  · rw [if_pos hok] at herr
    exact absurd hok herr
  · rw [if_neg hok]
    exact ⟨rfl, Heap.Restored.free hc (h hok).heap, rfl⟩

end Failed

section Add

variable (A : Allocator) {heap : Heap} {handler : Handler} {arg : Arg} {legacy : Bool}

/-- A failed `handler_instances_add` changes nothing. -/
theorem handlerInstancesAdd_failed (handlers : List HandlerNode)
    (herr : (handlerInstancesAdd A heap handlers handler arg legacy).err ≠ .ok) :
    Failed heap handlers (handlerInstancesAdd A heap handlers handler arg legacy) := by
  revert herr
  rw [handlerInstancesAdd]
  rcases hnode : A.calloc heap with ⟨_ | instance_, heap₁⟩
  · intro _
    exact ⟨rfl, Heap.restored_refused hnode, rfl⟩
  · dsimp only
    rcases hctx : A.calloc heap₁ with ⟨_ | context, heap₂⟩
    · intro _
      exact ⟨rfl, Heap.Restored.free hnode (Heap.restored_refused hctx), rfl⟩
    · -- with both blocks at hand the call succeeds
      dsimp only
      intro herr
      split at herr
      · exact absurd rfl herr
      · exact absurd rfl herr

variable {id : Int32}

/-- A failed `base_node_add_handler` changes nothing. -/
theorem baseNodeAddHandler_failed (baseNode : BaseNode)
    (herr : (baseNodeAddHandler A heap baseNode id handler arg legacy).err ≠ .ok) :
    Failed heap baseNode (baseNodeAddHandler A heap baseNode id handler arg legacy) := by
  revert herr
  rw [baseNodeAddHandler]
  by_cases hid : id = anyId
  · rw [if_pos hid]
    intro herr
    exact (handlerInstancesAdd_failed A _ herr).lift
      fun handlers => { baseNode with handlers := handlers }
  · rw [if_neg hid]
    cases hsplit : splitLast (fun it => decide (it.id = id)) baseNode.idNodes with
    | none =>
      -- a new id node, which is freed if the handler cannot be added to it
      dsimp only
      rcases hc : A.calloc heap with ⟨_ | idNode, heap₁⟩
      · intro _
        exact ⟨rfl, Heap.restored_refused hc, rfl⟩
      · intro herr
        exact Failed.opened baseNode
          (fun handlers => { baseNode with idNodes := baseNode.idNodes ++ [⟨idNode, id, handlers⟩] })
          hc (handlerInstancesAdd_failed A []) herr
    | some found =>
      -- the handlers of the id node that is there already
      obtain ⟨pre, idNode, post⟩ := found
      intro herr
      have hl : { baseNode with idNodes := pre ++ { idNode with handlers := idNode.handlers } :: post }
          = baseNode := by
        have hsplit := (splitLast_eq_some hsplit).1
        rw [← hsplit]
      exact hl ▸ (handlerInstancesAdd_failed A _ herr).lift fun handlers =>
        { baseNode with idNodes := pre ++ { idNode with handlers := handlers } :: post }

variable {base : EventBase}

/-- A base node that cannot be opened is taken back. -/
theorem openBaseNode_failed (loopNode : LoopNode)
    (herr : (openBaseNode A heap loopNode base id handler arg legacy).err ≠ .ok) :
    Failed heap loopNode (openBaseNode A heap loopNode base id handler arg legacy) := by
  revert herr
  rw [openBaseNode]
  rcases hc : A.calloc heap with ⟨_ | baseNode, heap₁⟩
  · intro _
    exact ⟨rfl, Heap.restored_refused hc, rfl⟩
  · intro herr
    exact Failed.opened loopNode
      (fun it => { loopNode with baseNodes := loopNode.baseNodes ++ [it] })
      hc (baseNodeAddHandler_failed A ⟨baseNode, base, [], []⟩) herr

/-- A failed `loop_node_add_handler` changes nothing. -/
theorem loopNodeAddHandler_failed (loopNode : LoopNode)
    (herr : (loopNodeAddHandler A heap loopNode base id handler arg legacy).err ≠ .ok) :
    Failed heap loopNode (loopNodeAddHandler A heap loopNode base id handler arg legacy) := by
  revert herr
  rw [loopNodeAddHandler]
  split
  · intro herr
    exact (handlerInstancesAdd_failed A _ herr).lift
      fun handlers => { loopNode with handlers := handlers }
  · cases hsplit : splitLast (fun it => decide (it.base = base)) loopNode.baseNodes with
    | none => exact openBaseNode_failed A loopNode
    | some found =>
      obtain ⟨pre, baseNode, post⟩ := found
      dsimp only
      by_cases hopens : opensBaseNode loopNode.baseNodes baseNode base id = true
      · rw [if_pos hopens]
        exact openBaseNode_failed A loopNode
      · rw [if_neg hopens]
        intro herr
        have hl : { loopNode with baseNodes := pre ++ baseNode :: post } = loopNode := by
          have hsplit := (splitLast_eq_some hsplit).1
          rw [← hsplit]
        exact hl ▸ (baseNodeAddHandler_failed A baseNode herr).lift fun it =>
          { loopNode with baseNodes := pre ++ it :: post }

/-- A loop node that cannot be opened is taken back. -/
theorem openLoopNode_failed (t : Registry)
    (herr : (openLoopNode A t base id handler arg legacy).err ≠ .ok) :
    Failed t.heap t.loopNodes (openLoopNode A t base id handler arg legacy) := by
  revert herr
  rw [openLoopNode]
  rcases hc : A.calloc t.heap with ⟨_ | loopNode, heap₁⟩
  · intro _
    exact ⟨rfl, Heap.restored_refused hc, rfl⟩
  · intro herr
    exact Failed.opened t.loopNodes (fun it => t.loopNodes ++ [it]) hc
      (loopNodeAddHandler_failed A ⟨loopNode, [], []⟩) herr

/-- A failed registration changes nothing. -/
theorem registerWithInternal_failed (t : Registry)
    (herr : (registerWithInternal A t base id handler arg legacy).err ≠ .ok) :
    Failed t.heap t.loopNodes (registerWithInternal A t base id handler arg legacy) := by
  revert herr
  rw [registerWithInternal]
  split
  · -- a specific id of any base is refused before anything is done
    intro _
    exact ⟨rfl, Heap.Restored.refl _, rfl⟩
  · cases hsplit : splitLast (fun _ : LoopNode => true) t.loopNodes with
    | none => exact openLoopNode_failed A t
    | some found =>
      obtain ⟨pre, last, post⟩ := found
      dsimp only
      split
      · exact openLoopNode_failed A t
      · intro herr
        -- nothing stands behind the last loop node
        have hl : pre ++ [last] = t.loopNodes := by
          obtain ⟨hl, -, hpost⟩ := splitLast_eq_some hsplit
          cases post with
          | nil => exact hl.symm
          | cons it post => exact absurd (hpost it (List.mem_cons_self ..)) nofun
        exact hl ▸ (loopNodeAddHandler_failed A last herr).lift fun it => pre ++ [it]

end Add

/-! ## The functions of the API -/

/-- A call that has changed nothing: the tree, the heap and the caller's handle are
what they were. -/
structure Unchanged (t : Registry) (o : Outcome) : Prop where
  loopNodes : o.registry.loopNodes = t.loopNodes
  heap : t.heap.Restored o.registry.heap
  handle : o.ctx = none

/-- A registration that does not return `ESP_OK` has changed nothing, whatever the
lists hold and whichever of its allocations fails. -/
theorem registration_unchanged (A : Allocator) (t : Registry) (key : EventId) (handler : Handler)
    (arg : Arg) {o : Outcome} (ho : o = handlerRegisterWith A t key handler arg ∨
      o = handlerInstanceRegisterWith A t key handler arg) (herr : o.err ≠ .ok) :
    Unchanged t o := by
  rcases ho with rfl | rfl
  · have hfailed := registerWithInternal_failed A t herr
    exact ⟨hfailed.node, hfailed.heap, rfl⟩
  · have hfailed := registerWithInternal_failed A t herr
    exact ⟨hfailed.node, hfailed.heap, hfailed.ctx⟩

/-- The context is the fifth allocation of a first registration. -/
theorem registration_unchanged_limited :
    Unchanged Registry.empty
      (handlerInstanceRegisterWith (Allocator.limited 4) Registry.empty ⟨some 3, 7⟩ 1 2) :=
  registration_unchanged (Allocator.limited 4) Registry.empty ⟨some 3, 7⟩ 1 2 (Or.inr rfl) (by decide)

end PicoHost.Event
