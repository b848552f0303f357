import PicoHost.Event.Slots
import PicoHost.Event.Unregister

/-!
# What an unregistration does

`Pruned q` says what an unregistration does to the list of slots, at every level of
the tree: it drops some of the slots that satisfy `q`, at least one if there is
one. Where at most one slot satisfies `q`, that is the list without it.

`removeLoop_spec` carries a specification of the removal from a node over to the
list of such nodes, once for the three levels.
-/

namespace PicoHost.Event

open Chain

/-! ## The effect on the slots -/

/-- From one list of slots to another: some that satisfy `q` are dropped. -/
structure Pruned (q : Slot → Bool) (l l' : List Slot) : Prop where
  sublist : l'.Sublist l
  kept : l'.filter (fun s => !q s) = l.filter fun s => !q s
  progress : l.any q = true → l'.countP q < l.countP q

section Pruned

variable {q : Slot → Bool} {l l' m m' : List Slot}

/-- No slot satisfies `q`. -/
theorem Pruned.refl (h : l.any q = false) : Pruned q l l :=
  ⟨List.Sublist.refl l, rfl, fun hany => absurd hany (by rw [h]; decide)⟩

/-- Two lists that are pruned, side by side -/
theorem Pruned.append (h : Pruned q l l') (hm : Pruned q m m') :
    Pruned q (l ++ m) (l' ++ m') where
  sublist := h.sublist.append hm.sublist
  kept := by rw [List.filter_append, List.filter_append, h.kept, hm.kept]
  progress hany := by
    rw [List.any_append, Bool.or_eq_true] at hany
    rw [List.countP_append, List.countP_append]
    have hle := h.sublist.countP_le (p := q)
    have hle' := hm.sublist.countP_le (p := q)
    rcases hany with hany | hany
    · have := h.progress hany
      omega
    · have := hm.progress hany
      omega

/-- A removal that ends at the first of two parts, where it has found something. -/
theorem Pruned.append_left (h : Pruned q l l') (hany : l.any q = true) (m : List Slot) :
    Pruned q (l ++ m) (l' ++ m) where
  sublist := h.sublist.append_right m
  kept := by rw [List.filter_append, List.filter_append, h.kept]
  progress _ := by
    rw [List.countP_append, List.countP_append]
    exact Nat.add_lt_add_right (h.progress hany) _

/-- A registration that is selected may go. -/
theorem Pruned.drop {s : Slot} (hs : q s = true) (l : List Slot) : Pruned q (s :: l) l where
  sublist := List.sublist_cons_self s l
  kept := by rw [List.filter_cons_of_neg (by simp [hs])]
  progress _ := by
    rw [List.countP_cons_of_pos hs]
    exact Nat.lt_succ_self _

/-- A registration that is not selected stays. -/
theorem Pruned.cons {s : Slot} (hs : q s = false) (h : Pruned q l l') :
    Pruned q (s :: l) (s :: l') :=
  (Pruned.refl (l := [s]) (by simp [hs])).append h

/-- Where one slot at most satisfies `q`, the others are left. -/
theorem Pruned.eq_filter (h : Pruned q l l') (hone : l.countP q ≤ 1) :
    l' = l.filter fun s => !q s := by
  have hnone : l'.countP q = 0 := by
    cases hany : l.any q with
    | true =>
      have := h.progress hany
      omega
    | false =>
      have hzero : l.countP q = 0 := List.countP_eq_zero.mpr (by simpa using hany)
      have := h.sublist.countP_le (p := q)
      omega
  rw [← h.kept, eq_comm, List.filter_eq_self]
  intro s hs
  simpa using List.countP_eq_zero.mp hnone s hs

end Pruned

/-- The specification of a removal at a level whose nodes own `blocks` and hold
`slots`. -/
structure RemoveSpec {α : Type} (q : Slot → Bool) (blocks : α → List Block)
    (slots : α → List Slot) (heap : Heap) (x : α) (r : Removed α) : Prop where
  owns : ∀ frame, heap.Owns (blocks x ++ frame) → r.heap.Owns (blocks r.node ++ frame)
  serial : r.heap.serial = heap.serial
  pruned : Pruned q (slots x) (slots r.node)
  found : r.found = true → (slots x).any q = true

section Lift

variable {α β : Type} {q : Slot → Bool} {blocks : α → List Block} {slots : α → List Slot}
  {blocks' : β → List Block} {slots' : β → List Slot} {heap : Heap} {x : α} {r : Removed α}

/-- A removal below a node, which holds the changed part among its own. -/
theorem RemoveSpec.lift (spec : RemoveSpec q blocks slots heap x r) (wrap : α → β)
    (own : List Block) (before behind : List Slot)
    (hblocks : ∀ y, (blocks y ++ own).Perm (blocks' (wrap y)))
    (hslots : ∀ y, slots' (wrap y) = before ++ (slots y ++ behind))
    (hbefore : before.any q = false) (hbehind : behind.any q = false) :
    RemoveSpec q blocks' slots' heap (wrap x) ⟨wrap r.node, r.heap, r.found⟩ where
  owns frame o := by
    have o' := o.perm ((hblocks x).symm.append_right frame)
    rw [List.append_assoc] at o'
    have o'' := spec.owns _ o'
    rw [← List.append_assoc] at o''
    exact o''.perm ((hblocks r.node).append_right frame)
  serial := spec.serial
  pruned := by
    rw [hslots, hslots]
    exact (Pruned.refl hbefore).append (spec.pruned.append (Pruned.refl hbehind))
  found h := by
    rw [hslots, List.any_append, List.any_append, spec.found h, Bool.true_or, Bool.or_true]

end Lift

/-! ## The loop over a list of nodes -/

section Loop

variable {α : Type} {self : α → Block} {wanted isEmpty : α → Bool}
  {remove : Heap → α → Removed α} {q : Slot → Bool} (blocks : α → List Block)
  (slots : α → List Slot)

/-- A removal in a list of nodes does what the removal in its nodes does. -/
theorem removeLoop_spec {l : List α}
    (hremove : ∀ heap, ∀ x ∈ l, wanted x = true →
      RemoveSpec q blocks slots heap x (remove heap x))
    (hself : ∀ heap x, self (remove heap x).node = self x)
    (hother : ∀ x ∈ l, wanted x = false → (slots x).any q = false)
    (hblocks : ∀ x, isEmpty x = true → blocks x = [self x])
    (hslots : ∀ x, isEmpty x = true → slots x = []) (heap : Heap) :
    RemoveSpec q (List.flatMap blocks) (List.flatMap slots) heap l
      (removeLoop self wanted isEmpty remove heap l) := by
  induction l generalizing heap with
  | nil => exact ⟨fun _ o => o, rfl, Pruned.refl rfl, nofun⟩
  | cons it rest ih =>
    have hrest := ih (fun heap x hx => hremove heap x (List.mem_cons_of_mem it hx))
      fun x hx => hother x (List.mem_cons_of_mem it hx)
    rw [removeLoop]
    by_cases hwanted : wanted it = true
    · have hit := hremove heap it (List.mem_cons_self ..) hwanted
      rw [if_pos hwanted]
      dsimp only
      by_cases hend : ((remove heap it).found && isEmpty (remove heap it).node) = true
      · -- emptied: the node goes, and the loop ends
        rw [if_pos hend]
        obtain ⟨hfound, hempty⟩ := Bool.and_eq_true_iff.mp hend
        refine ⟨fun frame o => ?_, hit.serial, ?_, fun _ => ?_⟩
        · rw [List.flatMap_cons, List.append_assoc] at o
          have o' := hit.owns _ o
          rw [hblocks _ hempty, hself] at o'
          exact o'.free
        · have hpruned := hit.pruned.append_left (hit.found hfound) (rest.flatMap slots)
          rw [hslots _ hempty, List.nil_append] at hpruned
          exact hpruned
        · rw [List.flatMap_cons, List.any_append, hit.found hfound, Bool.true_or]
      · -- visited: the loop goes on in the heap after it
        rw [if_neg hend]
        have hrest := hrest (remove heap it).heap
        refine ⟨fun frame o => ?_, hrest.serial.trans hit.serial, hit.pruned.append hrest.pruned,
          fun h => ?_⟩
        · rw [List.flatMap_cons, List.append_assoc] at o
          have hperm := List.perm_append_comm_assoc (blocks (remove heap it).node)
            (rest.flatMap blocks) frame
          have o' := hrest.owns _ ((hit.owns _ o).perm hperm)
          have hperm' := List.perm_append_comm_assoc
            ((removeLoop self wanted isEmpty remove (remove heap it).heap rest).node.flatMap blocks)
            (blocks (remove heap it).node) frame
          rw [List.flatMap_cons, List.append_assoc]
          exact o'.perm hperm'
        · rw [List.flatMap_cons, List.any_append, hrest.found h, Bool.or_true]
    · -- passed over
      rw [if_neg hwanted]
      have hrest := hrest heap
      have hnone := hother it (List.mem_cons_self ..) (Bool.eq_false_iff.mpr hwanted)
      refine ⟨fun frame o => ?_, hrest.serial, (Pruned.refl hnone).append hrest.pruned,
        fun h => ?_⟩
      · rw [List.flatMap_cons, List.append_assoc] at o ⊢
        have o' := hrest.owns _ (o.perm (List.perm_append_comm_assoc ..))
        exact o'.perm (List.perm_append_comm_assoc ..)
      · rw [List.flatMap_cons, List.any_append, hrest.found h, Bool.or_true]

end Loop

/-! ## The levels -/

/-- The slots that an unregistration looks for. -/
def Target.selects (target : Target) (key : EventId) (s : Slot) : Bool :=
  decide (s.key = key) && target.is s.node

section Remove

variable {target : Target} {key : EventId}

/-- No slot under another key is looked for. -/
theorem any_selects_eq_false {l : List Slot} (h : ∀ s ∈ l, s.key ≠ key) :
    l.any (target.selects key) = false := by
  rw [List.any_eq_false]
  intro s hs
  simp [Target.selects, h s hs]

/-- A base node keeps its block. -/
theorem baseNodeRemoveHandler_self (id : Int32) (target : Target) (heap : Heap) (it : BaseNode) :
    (baseNodeRemoveHandler id target heap it).node.self = it.self := by
  unfold baseNodeRemoveHandler
  split <;> rfl

/-- A loop node keeps its block. -/
theorem loopNodeRemoveHandler_self (base : EventBase) (id : Int32) (target : Target) (heap : Heap)
    (it : LoopNode) : (loopNodeRemoveHandler base id target heap it).node.self = it.self := by
  unfold loopNodeRemoveHandler
  split <;> rfl

/-- `handler_instances_remove` removes a handler that is selected and frees its blocks. -/
theorem handlerInstancesRemove_spec (loop : Block) (base idNode : Option Block) (heap : Heap)
    (handlers : List HandlerNode) :
    RemoveSpec (target.selects key) (List.flatMap HandlerNode.blocks)
      (List.map (Slot.mk loop base idNode key)) heap handlers
      (handlerInstancesRemove heap target handlers) := by
  induction handlers with
  | nil => exact ⟨fun _ o => o, rfl, Pruned.refl rfl, nofun⟩
  | cons it rest ih =>
    have hselects : target.selects key ⟨loop, base, idNode, key, it⟩ = target.is it := by
      simp [Target.selects]
    rw [handlerInstancesRemove]
    by_cases his : target.is it = true
    · rw [if_pos his]
      refine ⟨fun frame o => ?_, rfl, Pruned.drop (hselects.trans his) _, fun _ => ?_⟩
      · -- the context goes first, then the node
        exact o.free.free
      · rw [List.map_cons, List.any_cons, hselects, his, Bool.true_or]
    · rw [if_neg his]
      have his : target.is it = false := Bool.eq_false_iff.mpr his
      refine ⟨fun frame o => ?_, ih.serial, ih.pruned.cons (hselects.trans his), fun h => ?_⟩
      · rw [List.flatMap_cons, List.append_assoc] at o ⊢
        exact (ih.owns _ (o.perm (List.perm_append_comm_assoc ..))).perm
          (List.perm_append_comm_assoc ..)
      · rw [List.map_cons, List.any_cons, ih.found h, Bool.or_true]

/-- The removal in an id node -/
theorem idNodeRemove_spec (loop base : Block) (heap : Heap) {it : IdNode} (hid : it.id = key.id) :
    RemoveSpec (target.selects key) IdNode.blocks (IdNode.slots loop base key.base) heap it
      (idNodeRemove target heap it) := by
  refine (handlerInstancesRemove_spec loop (some base) (some it.self) heap it.handlers).lift
    (fun handlers => { it with handlers := handlers }) [it.self] [] [] (fun handlers => ?_)
    (fun handlers => ?_) rfl rfl
  · exact List.Perm.refl _
  · rw [List.append_nil, List.nil_append, IdNode.slots, hid]

/-- `base_node_remove_handler` removes only what is selected, and nodes that are empty then. -/
theorem baseNodeRemoveHandler_spec (loop : Block) (heap : Heap) {it : BaseNode} (hok : it.Ok)
    (hbase : it.base = key.base) :
    RemoveSpec (target.selects key) BaseNode.blocks (BaseNode.slots loop) heap it
      (baseNodeRemoveHandler key.id target heap it) := by
  unfold baseNodeRemoveHandler
  by_cases hid : key.id = anyId
  · -- base level: the id nodes are under other keys
    rw [if_pos hid]
    refine (handlerInstancesRemove_spec loop (some it.self) none heap it.handlers).lift
      (fun handlers => { it with handlers := handlers })
      (it.idNodes.flatMap IdNode.blocks ++ [it.self]) []
      (it.idNodes.flatMap (IdNode.slots loop it.self it.base))
      (fun handlers => ?_) (fun handlers => ?_) rfl (any_selects_eq_false fun s hs => ?_)
    · rw [BaseNode.blocks, ← List.append_assoc]
    · rw [List.nil_append, BaseNode.slots, hbase, ← hid]
    · obtain ⟨idNode, hmem, hs⟩ := List.mem_flatMap.mp hs
      rw [idNode.key_of_mem hs]
      exact fun h => (hok.idNodes idNode hmem).notAny ((congrArg EventId.id h).trans hid)
  · rw [if_neg hid]
    refine (removeLoop_spec IdNode.blocks (IdNode.slots loop it.self key.base)
      (fun heap x _ hx => ?_) (fun heap x => ?_) (fun x hx hne => ?_) (fun x hx => ?_)
      (fun x hx => ?_) heap).lift (fun idNodes => { it with idNodes := idNodes })
      (it.handlers.flatMap HandlerNode.blocks ++ [it.self])
      (it.handlers.map (Slot.mk loop (some it.self) none ⟨it.base, anyId⟩)) []
      (fun idNodes => ?_) (fun idNodes => ?_) (any_selects_eq_false fun s hs => ?_) rfl
    · exact idNodeRemove_spec loop it.self heap (of_decide_eq_true hx)
    · rfl
    · refine any_selects_eq_false fun s hs => ?_
      rw [x.key_of_mem hs]
      exact fun h => of_decide_eq_false hne (congrArg EventId.id h)
    · rw [IdNode.blocks, List.isEmpty_iff.mp hx, List.flatMap_nil, List.nil_append]
    · rw [IdNode.slots, List.isEmpty_iff.mp hx, List.map_nil]
    · rw [BaseNode.blocks, List.append_assoc]
      exact List.perm_append_comm_assoc ..
    · rw [List.append_nil, BaseNode.slots, hbase]
    · obtain ⟨_, -, rfl⟩ := List.mem_map.mp hs
      exact fun h => hid (congrArg EventId.id h).symm

/-- `loop_node_remove_handler` removes only what is selected, and nodes that are empty then. -/
theorem loopNodeRemoveHandler_spec (heap : Heap) {it : LoopNode} (hok : it.Ok)
    (hkey : key.base = anyBase → key.id = anyId) :
    RemoveSpec (target.selects key) LoopNode.blocks LoopNode.slots heap it
      (loopNodeRemoveHandler key.base key.id target heap it) := by
  unfold loopNodeRemoveHandler
  by_cases hany : key.base = anyBase ∧ key.id = anyId
  · -- loop level: the base nodes are under other keys
    have hkey : key = anyEvent := by rw [anyEvent, ← hany.1, ← hany.2]
    rw [if_pos hany]
    refine (handlerInstancesRemove_spec it.self none none heap it.handlers).lift
      (fun handlers => { it with handlers := handlers })
      (it.baseNodes.flatMap BaseNode.blocks ++ [it.self]) []
      (it.baseNodes.flatMap (BaseNode.slots it.self))
      (fun handlers => ?_) (fun handlers => ?_) rfl (any_selects_eq_false fun s hs => ?_)
    · rw [LoopNode.blocks, ← List.append_assoc]
    · rw [List.nil_append, LoopNode.slots, hkey]
    · obtain ⟨baseNode, hmem, hs⟩ := List.mem_flatMap.mp hs
      intro h
      apply (hok.baseNodes baseNode hmem).notAny
      rw [← baseNode.key_of_mem hs, h, hany.1]
  · have hbase : key.base ≠ anyBase := fun h => hany ⟨h, hkey h⟩
    rw [if_neg hany]
    refine (removeLoop_spec BaseNode.blocks (BaseNode.slots it.self)
      (fun heap x hmem hx => ?_) (fun heap x => ?_) (fun x hx hne => ?_)
      (fun x hx => ?_) (fun x hx => ?_) heap).lift
      (fun baseNodes => { it with baseNodes := baseNodes })
      (it.handlers.flatMap HandlerNode.blocks ++ [it.self])
      (it.handlers.map (Slot.mk it.self none none anyEvent)) []
      (fun baseNodes => ?_) (fun baseNodes => ?_) (any_selects_eq_false fun s hs => ?_) rfl
    · exact baseNodeRemoveHandler_spec it.self heap (hok.baseNodes x hmem) (of_decide_eq_true hx)
    · exact baseNodeRemoveHandler_self ..
    · refine any_selects_eq_false fun s hs => ?_
      intro h
      apply of_decide_eq_false hne
      rw [← x.key_of_mem hs, h]
    · obtain ⟨hhandlers, hids⟩ := Bool.and_eq_true_iff.mp hx
      rw [BaseNode.blocks, List.isEmpty_iff.mp hhandlers, List.isEmpty_iff.mp hids]
      rfl
    · obtain ⟨hhandlers, hids⟩ := Bool.and_eq_true_iff.mp hx
      rw [BaseNode.slots, List.isEmpty_iff.mp hhandlers, List.isEmpty_iff.mp hids]
      rfl
    · rw [LoopNode.blocks, List.append_assoc]
      exact List.perm_append_comm_assoc ..
    · rw [List.append_nil, LoopNode.slots]
    · obtain ⟨_, -, rfl⟩ := List.mem_map.mp hs
      exact fun h => hbase (congrArg EventId.base h).symm

end Remove

/-! ## Well-formed nodes -/

section Kept

variable {α β : Type} {self : α → Block} {wanted isEmpty : α → Bool}
  {remove : Heap → α → Removed α}

/-- The nodes that are left are nodes of the list. -/
theorem removeLoop_sublist {view : α → β} (hview : ∀ heap x, view (remove heap x).node = view x)
    (heap : Heap) (l : List α) :
    ((removeLoop self wanted isEmpty remove heap l).node.map view).Sublist (l.map view) := by
  induction l generalizing heap with
  | nil => exact List.Sublist.refl _
  | cons it rest ih =>
    rw [removeLoop]
    by_cases hwanted : wanted it = true
    · rw [if_pos hwanted]
      dsimp only
      split
      · exact List.sublist_cons_self ..
      · rw [List.map_cons, List.map_cons, hview]
        exact (ih _).cons_cons _
    · rw [if_neg hwanted]
      exact (ih heap).cons_cons _

/-- What a removal that does not end the loop keeps of a node, the loop keeps of
the nodes that are left. -/
theorem removeLoop_forall {P : α → Prop}
    (hremove : ∀ heap x, P x →
      ((remove heap x).found && isEmpty (remove heap x).node) = false → P (remove heap x).node)
    (heap : Heap) {l : List α} (hl : ∀ x ∈ l, P x) :
    ∀ x ∈ (removeLoop self wanted isEmpty remove heap l).node, P x := by
  induction l generalizing heap with
  | nil => exact hl
  | cons it rest ih =>
    have hrest := fun x hx => hl x (List.mem_cons_of_mem it hx)
    rw [removeLoop]
    by_cases hwanted : wanted it = true
    · rw [if_pos hwanted]
      dsimp only
      split
      · exact hrest
      case isFalse hend =>
        refine List.forall_mem_cons.mpr ⟨?_, ih _ hrest⟩
        exact hremove heap it (hl it (List.mem_cons_self ..)) (Bool.eq_false_iff.mpr hend)
    · rw [if_neg hwanted]
      exact List.forall_mem_cons.mpr ⟨hl it (List.mem_cons_self ..), ih heap hrest⟩

/-- A loop that ends without `ESP_OK` leaves no list empty. -/
theorem removeLoop_nonempty {heap : Heap} {l : List α}
    (hfound : (removeLoop self wanted isEmpty remove heap l).found = false) (hl : l ≠ []) :
    (removeLoop self wanted isEmpty remove heap l).node ≠ [] := by
  cases l with
  | nil => exact hl
  | cons it rest =>
    rw [removeLoop] at hfound ⊢
    by_cases hwanted : wanted it = true
    · rw [if_pos hwanted] at hfound ⊢
      dsimp only at hfound ⊢
      split at hfound
      · cases hfound
      case isFalse hend =>
        rw [if_neg hend]
        exact List.cons_ne_nil _ _
    · rw [if_neg hwanted]
      exact List.cons_ne_nil _ _

/-- The handlers that stay keep their order. -/
theorem handlerInstancesRemove_sublist (heap : Heap) (target : Target)
    (handlers : List HandlerNode) :
    (handlerInstancesRemove heap target handlers).node.Sublist handlers := by
  induction handlers with
  | nil => exact List.Sublist.refl _
  | cons it rest ih =>
    rw [handlerInstancesRemove]
    split
    · exact List.sublist_cons_self ..
    · exact ih.cons_cons it

/-- Where no handler is found, the list is unchanged. -/
theorem handlerInstancesRemove_unchanged {heap : Heap} {target : Target}
    {handlers : List HandlerNode} (h : (handlerInstancesRemove heap target handlers).found = false) :
    (handlerInstancesRemove heap target handlers).node = handlers := by
  induction handlers with
  | nil => rfl
  | cons it rest ih =>
    rw [handlerInstancesRemove] at h ⊢
    split at h
    · cases h
    case isFalse his =>
      rw [if_neg his]
      exact congrArg (it :: ·) (ih h)

/-- An id node that is not released is still well formed. -/
theorem idNodeRemove_ok {target : Target} (heap : Heap) {it : IdNode} (hok : it.Ok)
    (hend : ((idNodeRemove target heap it).found && (idNodeRemove target heap it).node.isEmpty) =
      false) : (idNodeRemove target heap it).node.Ok := by
  refine ⟨hok.notAny, ?_, hok.ascending.sublist (handlerInstancesRemove_sublist ..)⟩
  cases hfound : (idNodeRemove target heap it).found with
  | true =>
    rw [hfound, Bool.true_and] at hend
    exact List.isEmpty_eq_false_iff.mp hend
  | false =>
    show (handlerInstancesRemove heap target it.handlers).node ≠ []
    rw [handlerInstancesRemove_unchanged hfound]
    exact hok.nonempty

/-- A base node that is not released is still well formed. -/
theorem baseNodeRemoveHandler_ok {id : Int32} {target : Target} (heap : Heap) {it : BaseNode}
    (hok : it.Ok) (hend : ((baseNodeRemoveHandler id target heap it).found &&
      (baseNodeRemoveHandler id target heap it).node.isEmpty) = false) :
    (baseNodeRemoveHandler id target heap it).node.Ok := by
  have hnonempty : (baseNodeRemoveHandler id target heap it).found = true →
      (baseNodeRemoveHandler id target heap it).node.handlers ≠ [] ∨
        (baseNodeRemoveHandler id target heap it).node.idNodes ≠ [] := by
    intro hfound
    rw [hfound, Bool.true_and, BaseNode.isEmpty, Bool.and_eq_false_iff] at hend
    simpa using hend
  unfold baseNodeRemoveHandler at hnonempty ⊢
  by_cases hid : id = anyId
  · rw [if_pos hid] at hnonempty ⊢
    refine ⟨⟨hok.notAny, hok.ascending.sublist (handlerInstancesRemove_sublist ..),
      hok.ascendingIds, hok.distinct, hok.idNodes⟩, ?_⟩
    cases hfound : (handlerInstancesRemove heap target it.handlers).found with
    | true => exact hnonempty hfound
    | false =>
      show (handlerInstancesRemove heap target it.handlers).node ≠ [] ∨ it.idNodes ≠ []
      rw [handlerInstancesRemove_unchanged hfound]
      exact hok.nonempty
  · rw [if_neg hid] at hnonempty ⊢
    refine ⟨⟨hok.notAny, hok.ascending, ?_, ?_, ?_⟩, ?_⟩
    · exact ascending_iff.mpr ((ascending_iff.mp hok.ascendingIds).sublist
        (removeLoop_sublist (fun _ _ => rfl) ..))
    · exact hok.distinct.sublist (removeLoop_sublist (fun _ _ => rfl) ..)
    · exact removeLoop_forall (fun heap x hx hend => idNodeRemove_ok heap hx hend) heap hok.idNodes
    · generalize hr : removeLoop IdNode.self (fun it => decide (it.id = id)) IdNode.isEmpty
        (idNodeRemove target) heap it.idNodes = r at hnonempty ⊢
      cases hfound : r.found with
      | true => exact hnonempty hfound
      | false =>
        rcases hok.nonempty with h | h
        · exact .inl h
        · exact .inr (hr ▸ removeLoop_nonempty (hr ▸ hfound) h)

/-- A loop node that is not released is still well formed. -/
theorem loopNodeRemoveHandler_ok {base : EventBase} {id : Int32} {target : Target} (heap : Heap)
    {it : LoopNode} (hok : it.Ok) (hend : ((loopNodeRemoveHandler base id target heap it).found &&
      (loopNodeRemoveHandler base id target heap it).node.isEmpty) = false) :
    (loopNodeRemoveHandler base id target heap it).node.Ok := by
  have hnonempty : (loopNodeRemoveHandler base id target heap it).found = true →
      (loopNodeRemoveHandler base id target heap it).node.handlers ≠ [] ∨
        (loopNodeRemoveHandler base id target heap it).node.baseNodes ≠ [] := by
    intro hfound
    rw [hfound, Bool.true_and, LoopNode.isEmpty, Bool.and_comm, Bool.and_eq_false_iff] at hend
    simpa using hend
  unfold loopNodeRemoveHandler at hnonempty ⊢
  by_cases hany : base = anyBase ∧ id = anyId
  · rw [if_pos hany] at hnonempty ⊢
    refine ⟨⟨hok.ascending.sublist (handlerInstancesRemove_sublist ..), hok.ascendingBases,
      hok.baseNodes⟩, ?_⟩
    cases hfound : (handlerInstancesRemove heap target it.handlers).found with
    | true => exact hnonempty hfound
    | false =>
      show (handlerInstancesRemove heap target it.handlers).node ≠ [] ∨ it.baseNodes ≠ []
      rw [handlerInstancesRemove_unchanged hfound]
      exact hok.nonempty
  · rw [if_neg hany] at hnonempty ⊢
    refine ⟨⟨hok.ascending, ?_, ?_⟩, ?_⟩
    · exact ascending_iff.mpr ((ascending_iff.mp hok.ascendingBases).sublist
        (removeLoop_sublist (fun _ _ => baseNodeRemoveHandler_self ..) ..))
    · exact removeLoop_forall (fun heap x hx hend => baseNodeRemoveHandler_ok heap hx hend) heap
        hok.baseNodes
    · generalize hr : removeLoop BaseNode.self (fun it => decide (it.base = base)) BaseNode.isEmpty
        (baseNodeRemoveHandler id target) heap it.baseNodes = r at hnonempty ⊢
      cases hfound : r.found with
      | true => exact hnonempty hfound
      | false =>
        rcases hok.nonempty with h | h
        · exact .inl h
        · exact .inr (hr ▸ removeLoop_nonempty (hr ▸ hfound) h)

end Kept

/-! ## `esp_event_handler_unregister_with_internal` -/

section Internal

variable {t : Registry} {base : EventBase} {id : Int32} {target : Target}

/-- The specification of an unregistration: what it does to the slots, and that the
registry stays well-formed. -/
structure Unregistered (t t' : Registry) (q : Slot → Bool) : Prop where
  wf : Wf t'
  serial : t'.heap.serial = t.heap.serial
  pruned : Pruned q (slots t.loopNodes) (slots t'.loopNodes)

/-- The wildcard base with an id is refused. -/
theorem unregisterWithInternal_refused (h : base = anyBase ∧ id ≠ anyId) :
    unregisterWithInternal t base id target = (t, .fail) := if_pos h

/-- Any other call removes what is selected and returns `ESP_OK`. -/
theorem unregisterWithInternal_spec (wf : Wf t) (h : ¬ (base = anyBase ∧ id ≠ anyId)) :
    (unregisterWithInternal t base id target).2 = .ok ∧
      Unregistered t (unregisterWithInternal t base id target).1 (target.selects ⟨base, id⟩) := by
  unfold unregisterWithInternal
  rw [if_neg h]
  have hkey : base = anyBase → id = anyId := fun hb => not_not.mp fun hi => h ⟨hb, hi⟩
  have hempty : ∀ x : LoopNode, x.isEmpty = true → x.blocks = [x.self] ∧ x.slots = [] := by
    intro x hx
    obtain ⟨hbases, hhandlers⟩ := Bool.and_eq_true_iff.mp hx
    rw [LoopNode.blocks, LoopNode.slots, List.isEmpty_iff.mp hbases, List.isEmpty_iff.mp hhandlers]
    exact ⟨rfl, rfl⟩
  have spec : RemoveSpec (target.selects ⟨base, id⟩) (List.flatMap LoopNode.blocks)
      (List.flatMap LoopNode.slots) t.heap t.loopNodes
      (removeLoop LoopNode.self (fun _ => true) LoopNode.isEmpty
        (loopNodeRemoveHandler base id target) t.heap t.loopNodes) :=
    removeLoop_spec LoopNode.blocks LoopNode.slots
      (fun heap x hx _ => loopNodeRemoveHandler_spec heap (wf.loopNodes x hx) hkey)
      (fun heap x => loopNodeRemoveHandler_self base id target heap x)
      (fun _ _ h => Bool.noConfusion h)
      (fun x hx => (hempty x hx).1) (fun x hx => (hempty x hx).2) t.heap
  refine ⟨rfl, ⟨?_, ?_, ?_⟩, spec.serial, spec.pruned⟩
  · exact ascending_iff.mpr ((ascending_iff.mp wf.ascending).sublist
      (removeLoop_sublist (fun _ _ => loopNodeRemoveHandler_self ..) ..))
  · exact removeLoop_forall (fun heap x hx hend => loopNodeRemoveHandler_ok heap hx hend) t.heap
      wf.loopNodes
  · have owns := spec.owns []
    rw [List.append_nil, List.append_nil] at owns
    exact owns wf.owns

end Internal

end PicoHost.Event
