import PicoHost.Event.RegisterSpec

/-!
# A registration keeps the tree well-formed

New nodes go to the end of their lists and have the highest serial number, and a
node is new only with a handler in it.
-/

namespace PicoHost.Event

open LastMatch Chain

/-- All blocks have a serial number below `n`. -/
def Older (n : Nat) (blocks : List Block) : Prop := ∀ b ∈ blocks, b.serial < n

/-- Blocks that are older than a block are older than a later one. -/
theorem Older.mono {n m : Nat} {blocks : List Block} (h : Older n blocks) (hm : n ≤ m) :
    Older m blocks := fun b hb => Nat.lt_of_lt_of_le (h b hb) hm

/-- Older blocks, node by node -/
theorem Older.flatMap {α : Type} {n : Nat} {l : List α} {blocks : α → List Block}
    (h : Older n (l.flatMap blocks)) : ∀ x ∈ l, Older n (blocks x) :=
  fun x hx b hb => h b (List.mem_flatMap.mpr ⟨x, hx, hb⟩)

/-- The node itself is among its blocks. -/
theorem Older.self {α : Type} {n : Nat} {l : List α} {blocks : α → List Block}
    {self : α → Block} (h : Older n (l.flatMap blocks)) (hself : ∀ x, self x ∈ blocks x) :
    ∀ x ∈ l, (self x).serial < n := fun x hx => h.flatMap x hx (self x) (hself x)

/-- A handler node's own block is one of its blocks. -/
theorem HandlerNode.self_mem (it : HandlerNode) : it.self ∈ it.blocks :=
  List.mem_cons_of_mem _ (List.mem_cons_self ..)

/-- An id node's own block is one of its blocks. -/
theorem IdNode.self_mem (it : IdNode) : it.self ∈ it.blocks :=
  List.mem_append_right _ (List.mem_cons_self ..)

/-- A base node's own block is one of its blocks. -/
theorem BaseNode.self_mem (it : BaseNode) : it.self ∈ it.blocks :=
  List.mem_append_right _ (List.mem_cons_self ..)

/-- A loop node's own block is one of its blocks. -/
theorem LoopNode.self_mem (it : LoopNode) : it.self ∈ it.blocks :=
  List.mem_append_right _ (List.mem_cons_self ..)

/-! ## One level after the other -/

/-- A registration that gives back a well-formed list, and no empty one if it
succeeds. -/
structure HandlersKept (handlers : List HandlerNode) (r : Added (List HandlerNode)) : Prop where
  ascending : Ascending HandlerNode.self r.node
  nonempty : r.err = .ok ∨ handlers ≠ [] → r.node ≠ []

structure BaseNode.Kept (it : BaseNode) (r : Added BaseNode) : Prop where
  shape : r.node.Shape
  self : r.node.self = it.self
  base : r.node.base = it.base
  nonempty : r.err = .ok ∨ it.handlers ≠ [] ∨ it.idNodes ≠ [] →
    r.node.handlers ≠ [] ∨ r.node.idNodes ≠ []

structure LoopNode.Kept (it : LoopNode) (r : Added LoopNode) : Prop where
  shape : r.node.Shape
  self : r.node.self = it.self
  nonempty : r.err = .ok ∨ it.handlers ≠ [] ∨ it.baseNodes ≠ [] →
    r.node.handlers ≠ [] ∨ r.node.baseNodes ≠ []

section Add

variable (A : Allocator) (heap : Heap) (handler : Handler) (arg : Arg) (legacy : Bool)

/-- `handler_instances_add` keeps the list in order. -/
theorem handlerInstancesAdd_kept (handlers : List HandlerNode)
    (hasc : Ascending HandlerNode.self handlers)
    (hold : Older heap.serial (handlers.flatMap HandlerNode.blocks)) :
    HandlersKept handlers (handlerInstancesAdd A heap handlers handler arg legacy) := by
  unfold handlerInstancesAdd
  rcases A.calloc_cases heap with hc | ⟨a, hc, -⟩ <;> rw [hc]
  · exact ⟨hasc, fun h => h.resolve_left nofun⟩
  · dsimp only
    rcases A.calloc_cases (heap.malloc a).2 with hc | ⟨c, hc, -⟩ <;> rw [hc]
    · exact ⟨hasc, fun h => h.resolve_left nofun⟩
    · dsimp only
      cases hover : (if legacy = true then overwriteArg handler arg handlers else none) with
      | none =>
        exact ⟨hasc.append_new (hold.self HandlerNode.self_mem) (Nat.le_refl _), fun _ => by simp⟩
      | some handlers' =>
        split at hover
        · obtain ⟨pre, it, post, rfl, rfl, -⟩ := overwriteArg_eq_some hover
          refine ⟨hasc.congr ?_, fun _ => by simp⟩
          rw [List.map_append, List.map_append]
          rfl
        · cases hover

/-- `base_node_add_handler` keeps the shape of the node. -/
theorem baseNodeAddHandler_kept (it : BaseNode) (hshape : it.Shape)
    (hold : Older heap.serial it.blocks) (id : Int32) :
    it.Kept (baseNodeAddHandler A heap it id handler arg legacy) := by
  have holdHandlers : Older heap.serial (it.handlers.flatMap HandlerNode.blocks) :=
    fun b hb => hold b (by simp [BaseNode.blocks, hb])
  have holdIds : Older heap.serial (it.idNodes.flatMap IdNode.blocks) := by
    intro b hb
    exact hold b (List.mem_append_left _ (List.mem_append_right _ hb))
  unfold baseNodeAddHandler
  by_cases hid : id = anyId
  · rw [if_pos hid]
    have kept := handlerInstancesAdd_kept A heap handler arg legacy _ hshape.ascending holdHandlers
    refine ⟨{ hshape with ascending := kept.ascending }, rfl, rfl, ?_⟩
    rintro (h | h | h)
    · exact .inl (kept.nonempty (.inl h))
    · exact .inl (kept.nonempty (.inr h))
    · exact .inr h
  rw [if_neg hid]
  cases hsplit : splitLast (fun it => decide (it.id = id)) it.idNodes with
  | none =>
    dsimp only
    rcases A.calloc_cases heap with hc | ⟨a, hc, -⟩ <;> rw [hc]
    · exact ⟨hshape, rfl, rfl, fun h => h.resolve_left (by simp)⟩
    · dsimp only
      have kept := handlerInstancesAdd_kept A (heap.malloc a).2 handler arg legacy []
        List.Pairwise.nil (fun b hb => by cases hb)
      by_cases herr : (handlerInstancesAdd A (heap.malloc a).2 [] handler arg legacy).err = .ok
      · rw [if_pos herr]
        refine ⟨⟨hshape.notAny, hshape.ascending, ?_, ?_, ?_⟩, rfl, rfl, fun _ => .inr (by simp)⟩
        · exact hshape.ascendingIds.append_new (holdIds.self IdNode.self_mem) (Nat.le_refl _)
        · -- no id node had this id
          rw [List.map_append, List.map_singleton]
          refine List.nodup_append.mpr ⟨hshape.distinct, List.nodup_singleton _, ?_⟩
          intro x hx y hy heq
          obtain ⟨idNode, hmem, rfl⟩ := List.mem_map.mp hx
          exact of_decide_eq_false (splitLast_eq_none hsplit idNode hmem)
            (heq.trans (List.mem_singleton.mp hy))
        · intro idNode hmem
          rcases List.mem_append.mp hmem with hmem | hmem
          · exact hshape.idNodes idNode hmem
          · rw [List.mem_singleton.mp hmem]
            exact ⟨hid, kept.nonempty (.inl herr), kept.ascending⟩
      · rw [if_neg herr]
        exact ⟨hshape, rfl, rfl, fun h => h.resolve_left herr⟩
  | some found =>
    obtain ⟨pre, idNode, post⟩ := found
    obtain ⟨hl, -, -⟩ := splitLast_eq_some hsplit
    have hmem : idNode ∈ it.idNodes := by simp [hl]
    have hok := hshape.idNodes idNode hmem
    have kept := handlerInstancesAdd_kept A heap handler arg legacy _ hok.ascending
      fun b hb => holdIds.flatMap idNode hmem b (List.mem_append_left _ hb)
    refine ⟨⟨hshape.notAny, hshape.ascending, hshape.ascendingIds.congr ?_, ?_, ?_⟩, rfl, rfl,
      fun _ => .inr (by simp)⟩
    · simp [hl]
    · have hdistinct := hshape.distinct
      rw [hl] at hdistinct
      simpa using hdistinct
    · intro other hother
      rcases List.mem_append.mp hother with hother | hother
      · exact hshape.idNodes other (by simp [hl, hother])
      rcases List.mem_cons.mp hother with rfl | hother
      · exact ⟨hok.notAny, kept.nonempty (.inr hok.nonempty), kept.ascending⟩
      · exact hshape.idNodes other (by simp [hl, hother])

/-- A new base node keeps the shape of its loop node. -/
theorem openBaseNode_kept (it : LoopNode) (hshape : it.Shape) (hold : Older heap.serial it.blocks)
    {base : EventBase} (hbase : base ≠ anyBase) (id : Int32) :
    it.Kept (openBaseNode A heap it base id handler arg legacy) := by
  unfold openBaseNode
  rcases A.calloc_cases heap with hc | ⟨a, hc, -⟩ <;> rw [hc]
  · exact ⟨hshape, rfl, fun h => h.resolve_left nofun⟩
  · dsimp only
    have kept := baseNodeAddHandler_kept A (heap.malloc a).2 handler arg legacy
      ⟨(heap.malloc a).1, base, [], []⟩
      ⟨hbase, List.Pairwise.nil, List.Pairwise.nil, List.nodup_nil, nofun⟩
      (by
        intro b hb
        rw [List.mem_singleton.mp hb]
        exact Nat.lt_succ_self _) id
    generalize hr : baseNodeAddHandler A (heap.malloc a).2 ⟨(heap.malloc a).1, base, [], []⟩ id
      handler arg legacy = r at kept ⊢
    by_cases herr : r.err = .ok
    · rw [if_pos herr]
      refine ⟨⟨hshape.ascending, ?_, ?_⟩, rfl, fun _ => .inr (by simp)⟩
      · refine hshape.ascendingBases.append_new (n := heap.serial) ?_ ?_
        · exact Older.self (fun b hb => hold b (by simp [LoopNode.blocks, hb])) BaseNode.self_mem
        · rw [kept.self]
          exact Nat.le_refl _
      · intro baseNode hmem
        rcases List.mem_append.mp hmem with hmem | hmem
        · exact hshape.baseNodes baseNode hmem
        · rw [List.mem_singleton.mp hmem]
          exact ⟨kept.shape, kept.nonempty (.inl herr)⟩
    · rw [if_neg herr]
      exact ⟨hshape, rfl, fun h => h.resolve_left herr⟩

/-- `loop_node_add_handler` keeps the shape of the node. -/
theorem loopNodeAddHandler_kept (it : LoopNode) (hshape : it.Shape)
    (hold : Older heap.serial it.blocks) {base : EventBase} {id : Int32}
    (hkey : base = anyBase → id = anyId) :
    it.Kept (loopNodeAddHandler A heap it base id handler arg legacy) := by
  have holdBases : Older heap.serial (it.baseNodes.flatMap BaseNode.blocks) := by
    intro b hb
    exact hold b (List.mem_append_left _ (List.mem_append_right _ hb))
  unfold loopNodeAddHandler
  by_cases hany : base = anyBase ∧ id = anyId
  · rw [if_pos hany]
    have kept := handlerInstancesAdd_kept A heap handler arg legacy _ hshape.ascending
      fun b hb => hold b (by simp [LoopNode.blocks, hb])
    refine ⟨{ hshape with ascending := kept.ascending }, rfl, ?_⟩
    rintro (h | h | h)
    · exact .inl (kept.nonempty (.inl h))
    · exact .inl (kept.nonempty (.inr h))
    · exact .inr h
  rw [if_neg hany]
  have hbase : base ≠ anyBase := fun h => hany ⟨h, hkey h⟩
  cases hsplit : splitLast (fun it => decide (it.base = base)) it.baseNodes with
  | none => exact openBaseNode_kept A heap handler arg legacy it hshape hold hbase id
  | some found =>
    obtain ⟨pre, baseNode, post⟩ := found
    obtain ⟨hl, -, -⟩ := splitLast_eq_some hsplit
    dsimp only
    by_cases hopens : opensBaseNode it.baseNodes baseNode base id = true
    · rw [if_pos hopens]
      exact openBaseNode_kept A heap handler arg legacy it hshape hold hbase id
    rw [if_neg hopens]
    have hmem : baseNode ∈ it.baseNodes := by simp [hl]
    have hok := hshape.baseNodes baseNode hmem
    have kept := baseNodeAddHandler_kept A heap handler arg legacy _ hok.toShape
      (holdBases.flatMap baseNode hmem) id
    refine ⟨⟨hshape.ascending, hshape.ascendingBases.congr ?_, ?_⟩, rfl, fun _ => .inr (by simp)⟩
    · simp [hl, kept.self]
    · intro other hother
      rcases List.mem_append.mp hother with hother | hother
      · exact hshape.baseNodes other (by simp [hl, hother])
      rcases List.mem_cons.mp hother with rfl | hother
      · exact ⟨kept.shape, kept.nonempty (.inr hok.nonempty)⟩
      · exact hshape.baseNodes other (by simp [hl, hother])

/-- The loop nodes after a registration. -/
structure LoopNodesKept (r : Added (List LoopNode)) : Prop where
  ascending : Ascending LoopNode.self r.node
  loopNodes : ∀ loopNode ∈ r.node, loopNode.Ok

/-- A new loop node keeps the shape of the tree. -/
theorem openLoopNode_kept {t : Registry} (wf : Wf t) {base : EventBase} {id : Int32}
    (hkey : base = anyBase → id = anyId) :
    LoopNodesKept (openLoopNode A t base id handler arg legacy) := by
  unfold openLoopNode
  rcases A.calloc_cases t.heap with hc | ⟨a, hc, -⟩ <;> rw [hc]
  · exact ⟨wf.ascending, wf.loopNodes⟩
  · dsimp only
    have kept := loopNodeAddHandler_kept A (t.heap.malloc a).2 handler arg legacy
      ⟨(t.heap.malloc a).1, [], []⟩ ⟨List.Pairwise.nil, List.Pairwise.nil, nofun⟩
      (by
        intro b hb
        rw [List.mem_singleton.mp hb]
        exact Nat.lt_succ_self _) hkey
    generalize hr : loopNodeAddHandler A (t.heap.malloc a).2 ⟨(t.heap.malloc a).1, [], []⟩ base id
      handler arg legacy = r at kept ⊢
    by_cases herr : r.err = .ok
    · rw [if_pos herr]
      refine ⟨?_, ?_⟩
      · refine wf.ascending.append_new (n := t.heap.serial) ?_ ?_
        · exact Older.self (fun b hb => wf.owns.serial_lt hb) LoopNode.self_mem
        · rw [kept.self]
          exact Nat.le_refl _
      · intro loopNode hmem
        rcases List.mem_append.mp hmem with hmem | hmem
        · exact wf.loopNodes loopNode hmem
        · rw [List.mem_singleton.mp hmem]
          exact ⟨kept.shape, kept.nonempty (.inl herr)⟩
    · rw [if_neg herr]
      exact ⟨wf.ascending, wf.loopNodes⟩

/-- A registration keeps the shape of the tree, whichever allocation fails. -/
theorem registerWithInternal_kept {t : Registry} (wf : Wf t) (base : EventBase) (id : Int32) :
    LoopNodesKept (registerWithInternal A t base id handler arg legacy) := by
  unfold registerWithInternal
  by_cases hinvalid : base = anyBase ∧ id ≠ anyId
  · rw [if_pos hinvalid]
    exact ⟨wf.ascending, wf.loopNodes⟩
  rw [if_neg hinvalid]
  have hkey : base = anyBase → id = anyId := fun hb => not_not.mp fun hi => hinvalid ⟨hb, hi⟩
  cases hsplit : splitLast (fun _ => true) t.loopNodes with
  | none => exact openLoopNode_kept A handler arg legacy wf hkey
  | some found =>
    obtain ⟨pre, last, post⟩ := found
    obtain ⟨hl, -, hpost⟩ := splitLast_eq_some hsplit
    have hpost : post = [] := List.eq_nil_iff_forall_not_mem.mpr fun y hy => nomatch hpost y hy
    subst hpost
    dsimp only
    split
    · exact openLoopNode_kept A handler arg legacy wf hkey
    · have hmem : last ∈ t.loopNodes := by simp [hl]
      have hok := wf.loopNodes last hmem
      have hold : Older t.heap.serial t.blocks := fun b hb => wf.owns.serial_lt hb
      have kept := loopNodeAddHandler_kept A t.heap handler arg legacy _ hok.toShape
        (hold.flatMap last hmem) hkey
      refine ⟨wf.ascending.congr ?_, fun other hother => ?_⟩
      · simp [hl, kept.self]
      · rcases List.mem_append.mp hother with hother | hother
        · exact wf.loopNodes other (by simp [hl, hother])
        · rw [List.mem_singleton.mp hother]
          exact ⟨kept.shape, kept.nonempty (.inr hok.nonempty)⟩

/-- A registration keeps the registry well-formed. -/
theorem registerWithInternal_wf {t : Registry} (wf : Wf t) (base : EventBase) (id : Int32) :
    Wf ⟨(registerWithInternal A t base id handler arg legacy).node,
      (registerWithInternal A t base id handler arg legacy).heap⟩ := by
  have kept := registerWithInternal_kept A handler arg legacy wf base id
  have owns := (registerWithInternal_spec A wf ⟨⟨base, id⟩, handler, arg, legacy⟩).owns
  rw [List.append_nil] at owns
  exact ⟨kept.ascending, kept.loopNodes, owns⟩

end Add

end PicoHost.Event
