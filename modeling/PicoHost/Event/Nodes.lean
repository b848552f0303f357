import PicoHost.Event.Places
import PicoHost.Event.Walk

/-!
# Reading the nodes of a well-formed tree

`HandlersAt` locates the lists of handlers in the tree. In a well-formed tree a
pointer to a node that is there reads that node and its successor in its own list.
-/

namespace PicoHost.Event

open Chain

/-! ## Lists of handlers -/

/-- A list of handlers of the tree, with the nodes above it and its key. -/
inductive HandlersAt (l : List LoopNode) :
    Block → Option Block → Option Block → EventId → List HandlerNode → Prop
  | loop {n : LoopNode} (hn : n ∈ l) : HandlersAt l n.self none none anyEvent n.handlers
  | base {n : LoopNode} {b : BaseNode} (hn : n ∈ l) (hb : b ∈ n.baseNodes) :
      HandlersAt l n.self (some b.self) none ⟨b.base, anyId⟩ b.handlers
  | id {n : LoopNode} {b : BaseNode} {i : IdNode} (hn : n ∈ l) (hb : b ∈ n.baseNodes)
      (hi : i ∈ b.idNodes) :
      HandlersAt l n.self (some b.self) (some i.self) ⟨b.base, i.id⟩ i.handlers

section Inversion

variable {l : List LoopNode} {loop base id : Block} {key : EventId} {handlers : List HandlerNode}

/-- A list of handlers below a base node, but no id node, is that base node's. -/
theorem HandlersAt.base_inv (h : HandlersAt l loop (some base) none key handlers) :
    ∃ n ∈ l, n.self = loop ∧ ∃ b ∈ n.baseNodes, b.self = base ∧ b.handlers = handlers := by
  cases h with
  | @base n b hn hb => exact ⟨n, hn, rfl, b, hb, rfl, rfl⟩

/-- A list of handlers below an id node is that id node's. -/
theorem HandlersAt.id_inv (h : HandlersAt l loop (some base) (some id) key handlers) :
    ∃ n ∈ l, n.self = loop ∧ ∃ b ∈ n.baseNodes, b.self = base ∧
      ∃ i ∈ b.idNodes, i.self = id ∧ i.handlers = handlers := by
  cases h with
  | @id n b i hn hb hi => exact ⟨n, hn, rfl, b, hb, rfl, i, hi, rfl, rfl⟩

end Inversion

/-! ## Places and nodes -/

section Places

variable {l : List LoopNode} {p : Place}

/-- A place of a handler names the nodes above its list. -/
theorem mem_handlers_places {loop : Block} {base idNode : Option Block} {key : EventId}
    {handlers : List HandlerNode}
    (h : p ∈ handlers.flatMap (HandlerNode.places loop base idNode key)) :
    p.loop = loop ∧ p.base = base ∧ p.idNode = idNode ∧ p.key = key ∧
      ∃ x ∈ handlers, p.node = some x.self := by
  obtain ⟨x, hx, h⟩ := List.mem_flatMap.mp h
  rcases List.mem_pair.mp h with rfl | rfl <;> exact ⟨rfl, rfl, rfl, rfl, x, hx, rfl⟩

/-- A place of an id node names the node, and the node of the handler if it is one. -/
theorem IdNode.mem_places {loop base : Block} {eventBase : EventBase} {it : IdNode}
    (h : p ∈ it.places loop base eventBase) :
    p.loop = loop ∧ p.base = some base ∧ p.idNode = some it.self ∧ p.key = ⟨eventBase, it.id⟩ ∧
      ∀ b, p.node = some b → ∃ x ∈ it.handlers, x.self = b := by
  rcases List.mem_append.mp h with h | h
  · obtain ⟨hl, hb, hi, hk, x, hx, hnode⟩ := mem_handlers_places h
    exact ⟨hl, hb, hi, hk, fun b hb => ⟨x, hx, Option.some.inj (hnode.symm.trans hb)⟩⟩
  · rw [List.mem_singleton.mp h]
    exact ⟨rfl, rfl, rfl, rfl, nofun⟩

/-- A place of a base node is its own, one of its handlers', or one of its id nodes'. -/
theorem BaseNode.mem_places {loop : Block} {it : BaseNode} (h : p ∈ it.places loop) :
    p.loop = loop ∧ p.base = some it.self ∧ p.key.base = it.base ∧
      ((p.idNode = none ∧ p.key.id = anyId ∧
          ∀ b, p.node = some b → ∃ x ∈ it.handlers, x.self = b) ∨
        ∃ i ∈ it.idNodes, p ∈ i.places loop it.self it.base) := by
  rcases List.mem_append.mp h with h | h
  · rcases List.mem_append.mp h with h | h
    · obtain ⟨hl, hb, hi, hk, x, hx, hnode⟩ := mem_handlers_places h
      refine ⟨hl, hb, by rw [hk], .inl ⟨hi, by rw [hk], fun b hb => ⟨x, hx, ?_⟩⟩⟩
      exact Option.some.inj (hnode.symm.trans hb)
    · obtain ⟨i, hi, h⟩ := List.mem_flatMap.mp h
      obtain ⟨hl, hb, -, hk, -⟩ := i.mem_places h
      exact ⟨hl, hb, by rw [hk], .inr ⟨i, hi, h⟩⟩
  · rw [List.mem_singleton.mp h]
    exact ⟨rfl, rfl, rfl, .inl ⟨rfl, rfl, nofun⟩⟩

/-- A place of a loop node is its own, one of its handlers', or one of its base nodes'. -/
theorem LoopNode.mem_places {it : LoopNode} (h : p ∈ it.places) :
    p.loop = it.self ∧
      ((p.base = none ∧ p.idNode = none ∧ p.key = anyEvent ∧
          ∀ b, p.node = some b → ∃ x ∈ it.handlers, x.self = b) ∨
        ∃ b ∈ it.baseNodes, p ∈ b.places it.self) := by
  rcases List.mem_append.mp h with h | h
  · rcases List.mem_append.mp h with h | h
    · obtain ⟨hl, hb, hi, hk, x, hx, hnode⟩ := mem_handlers_places h
      refine ⟨hl, .inl ⟨hb, hi, hk, fun b hb => ⟨x, hx, ?_⟩⟩⟩
      exact Option.some.inj (hnode.symm.trans hb)
    · obtain ⟨b, hb, h⟩ := List.mem_flatMap.mp h
      exact ⟨(b.mem_places h).1, .inr ⟨b, hb, h⟩⟩
  · rw [List.mem_singleton.mp h]
    exact ⟨rfl, .inl ⟨rfl, rfl, rfl, nofun⟩⟩

/-- A handler node is in the list of handlers of its place. -/
theorem handlersAt_of_place (h : p ∈ places l) {b : Block} (hb : p.node = some b) :
    ∃ handlers, HandlersAt l p.loop p.base p.idNode p.key handlers ∧
      ∃ x ∈ handlers, x.self = b := by
  obtain ⟨n, hn, h⟩ := List.mem_flatMap.mp h
  obtain ⟨hloop, ⟨hbase, hid, hkey, hnode⟩ | ⟨baseNode, hbn, h⟩⟩ := n.mem_places h
  · refine ⟨n.handlers, ?_, hnode b hb⟩
    rw [hloop, hbase, hid, hkey]
    exact .loop hn
  obtain ⟨-, hbase, hkbase, ⟨hid, hkid, hnode⟩ | ⟨idNode, hin, h⟩⟩ := baseNode.mem_places h
  · refine ⟨baseNode.handlers, ?_, hnode b hb⟩
    have hkey : p.key = ⟨baseNode.base, anyId⟩ := by rw [← hkbase, ← hkid]
    rw [hloop, hbase, hid, hkey]
    exact .base hn hbn
  · obtain ⟨-, -, hid, hkey, hnode⟩ := idNode.mem_places h
    refine ⟨idNode.handlers, ?_, hnode b hb⟩
    rw [hloop, hbase, hid, hkey]
    exact .id hn hbn hin

/-- Every handler of a list of the tree has its place in the tree. -/
theorem place_of_handlersAt {loop : Block} {base idNode : Option Block} {key : EventId}
    {handlers : List HandlerNode} (h : HandlersAt l loop base idNode key handlers)
    {x : HandlerNode} (hx : x ∈ handlers) :
    (⟨loop, base, idNode, some x.self, none, key⟩ : Place) ∈ places l := by
  have hmem : ∀ loop base idNode key, (⟨loop, base, idNode, some x.self, none, key⟩ : Place) ∈
      x.places loop base idNode key := fun _ _ _ _ => List.mem_cons_of_mem _ (List.mem_cons_self ..)
  cases h with
  | @loop n hn =>
    refine List.mem_flatMap.mpr ⟨n, hn, List.mem_append_left _ (List.mem_append_left _ ?_)⟩
    exact List.mem_flatMap.mpr ⟨x, hx, hmem ..⟩
  | @base n b hn hb =>
    refine List.mem_flatMap.mpr ⟨n, hn, List.mem_append_left _ (List.mem_append_right _ ?_)⟩
    refine List.mem_flatMap.mpr ⟨b, hb, List.mem_append_left _ (List.mem_append_left _ ?_)⟩
    exact List.mem_flatMap.mpr ⟨x, hx, hmem ..⟩
  | @id n b i hn hb hi =>
    refine List.mem_flatMap.mpr ⟨n, hn, List.mem_append_left _ (List.mem_append_right _ ?_)⟩
    refine List.mem_flatMap.mpr ⟨b, hb, List.mem_append_left _ (List.mem_append_right _ ?_)⟩
    refine List.mem_flatMap.mpr ⟨i, hi, List.mem_append_left _ ?_⟩
    exact List.mem_flatMap.mpr ⟨x, hx, hmem ..⟩

/-- The places of the nodes above the handlers. -/
theorem loop_place_mem {n : LoopNode} (hn : n ∈ l) :
    (⟨n.self, none, none, none, none, anyEvent⟩ : Place) ∈ places l :=
  List.mem_flatMap.mpr ⟨n, hn, List.mem_append_right _ (List.mem_cons_self ..)⟩

/-- Every base node has its place in the tree. -/
theorem base_place_mem {n : LoopNode} {b : BaseNode} (hn : n ∈ l) (hb : b ∈ n.baseNodes) :
    (⟨n.self, some b.self, none, none, none, ⟨b.base, anyId⟩⟩ : Place) ∈ places l := by
  refine List.mem_flatMap.mpr ⟨n, hn, List.mem_append_left _ (List.mem_append_right _ ?_)⟩
  exact List.mem_flatMap.mpr ⟨b, hb, List.mem_append_right _ (List.mem_cons_self ..)⟩

/-- Every id node has its place in the tree. -/
theorem id_place_mem {n : LoopNode} {b : BaseNode} {i : IdNode} (hn : n ∈ l)
    (hb : b ∈ n.baseNodes) (hi : i ∈ b.idNodes) :
    (⟨n.self, some b.self, some i.self, none, none, ⟨b.base, i.id⟩⟩ : Place) ∈ places l := by
  refine List.mem_flatMap.mpr ⟨n, hn, List.mem_append_left _ (List.mem_append_right _ ?_)⟩
  refine List.mem_flatMap.mpr ⟨b, hb, List.mem_append_left _ (List.mem_append_right _ ?_)⟩
  exact List.mem_flatMap.mpr ⟨i, hi, List.mem_append_right _ (List.mem_cons_self ..)⟩

/-- Above every place there is its loop node. -/
theorem loop_of_place (h : p ∈ places l) : ∃ n ∈ l, n.self = p.loop := by
  obtain ⟨n, hn, h⟩ := List.mem_flatMap.mp h
  exact ⟨n, hn, (n.mem_places h).1.symm⟩

/-- A place below a base node leads to that node. -/
theorem base_of_place (h : p ∈ places l) {B : Block} (hB : p.base = some B) :
    ∃ n ∈ l, n.self = p.loop ∧ ∃ b ∈ n.baseNodes, b.self = B ∧ b.base = p.key.base := by
  obtain ⟨n, hn, h⟩ := List.mem_flatMap.mp h
  obtain ⟨hloop, ⟨hnone, -⟩ | ⟨b, hb, h⟩⟩ := n.mem_places h
  · rw [hnone] at hB
    cases hB
  · obtain ⟨-, hbase, hkey, -⟩ := b.mem_places h
    exact ⟨n, hn, hloop.symm, b, hb, Option.some.inj (hbase.symm.trans hB), hkey.symm⟩

/-- A place below an id node leads to that node. -/
theorem id_of_place (h : p ∈ places l) {I : Block} (hI : p.idNode = some I) :
    ∃ n ∈ l, n.self = p.loop ∧ ∃ b ∈ n.baseNodes, p.base = some b.self ∧
      ∃ i ∈ b.idNodes, i.self = I ∧ p.key = ⟨b.base, i.id⟩ := by
  obtain ⟨n, hn, h⟩ := List.mem_flatMap.mp h
  obtain ⟨hloop, ⟨-, hnone, -⟩ | ⟨b, hb, h⟩⟩ := n.mem_places h
  · rw [hnone] at hI
    cases hI
  obtain ⟨-, hbase, -, ⟨hnone, -⟩ | ⟨i, hi, h⟩⟩ := b.mem_places h
  · rw [hnone] at hI
    cases hI
  · obtain ⟨-, -, hid, hkey, -⟩ := i.mem_places h
    exact ⟨n, hn, hloop.symm, b, hb, hbase, i, hi, Option.some.inj (hid.symm.trans hI), hkey⟩

/-- The slots are the handlers of the lists. -/
theorem mem_slots_iff {s : Slot} : s ∈ slots l ↔
    ∃ handlers, HandlersAt l s.loop s.base s.idNode s.key handlers ∧ s.node ∈ handlers := by
  constructor
  · intro hs
    obtain ⟨n, hn, hs⟩ := List.mem_flatMap.mp hs
    rcases List.mem_append.mp hs with hs | hs
    · obtain ⟨x, hx, rfl⟩ := List.mem_map.mp hs
      exact ⟨n.handlers, .loop hn, hx⟩
    obtain ⟨b, hb, hs⟩ := List.mem_flatMap.mp hs
    rcases List.mem_append.mp hs with hs | hs
    · obtain ⟨x, hx, rfl⟩ := List.mem_map.mp hs
      exact ⟨b.handlers, .base hn hb, hx⟩
    · obtain ⟨i, hi, hs⟩ := List.mem_flatMap.mp hs
      obtain ⟨x, hx, rfl⟩ := List.mem_map.mp hs
      exact ⟨i.handlers, .id hn hb hi, hx⟩
  · rintro ⟨handlers, hat, hx⟩
    obtain ⟨loop, base, idNode, key, x⟩ := s
    cases hat with
    | @loop n hn =>
      refine List.mem_flatMap.mpr ⟨n, hn, List.mem_append_left _ ?_⟩
      exact List.mem_map.mpr ⟨x, hx, rfl⟩
    | @base n b hn hb =>
      refine List.mem_flatMap.mpr ⟨n, hn, List.mem_append_right _ ?_⟩
      refine List.mem_flatMap.mpr ⟨b, hb, List.mem_append_left _ ?_⟩
      exact List.mem_map.mpr ⟨x, hx, rfl⟩
    | @id n b i hn hb hi =>
      refine List.mem_flatMap.mpr ⟨n, hn, List.mem_append_right _ ?_⟩
      refine List.mem_flatMap.mpr ⟨b, hb, List.mem_append_right _ ?_⟩
      refine List.mem_flatMap.mpr ⟨i, hi, ?_⟩
      exact List.mem_map.mpr ⟨x, hx, rfl⟩

/-- The slot of a place of a handler node. -/
theorem slot_of_place (h : p ∈ places l) (hctx : p.ctx = none) (hnode : p.node.isSome) :
    ∃ s ∈ slots l, s.place = p := by
  obtain ⟨b, hb⟩ := Option.isSome_iff_exists.mp hnode
  obtain ⟨handlers, hat, x, hx, rfl⟩ := handlersAt_of_place h hb
  refine ⟨⟨p.loop, p.base, p.idNode, p.key, x⟩, mem_slots_iff.mpr ⟨handlers, hat, hx⟩, ?_⟩
  obtain ⟨loop, base, idNode, node, ctx, key⟩ := p
  cases hctx
  cases hb
  rfl

/-- Every registration has its place in the tree. -/
theorem slot_place_mem {s : Slot} (hs : s ∈ slots l) : s.place ∈ places l := by
  obtain ⟨handlers, hat, hx⟩ := mem_slots_iff.mp hs
  exact place_of_handlersAt hat hx

end Places

/-! ## A block tells its node -/

section Unique

variable {t : Registry}

/-- Two loop nodes at one address are the same node. -/
theorem Wf.loop_unique (wf : Wf t) {n n' : LoopNode} (hn : n ∈ t.loopNodes)
    (hn' : n' ∈ t.loopNodes) (h : n.self = n'.self) : n = n' := wf.ascending.inj hn hn' h

/-- Two base nodes at one address are the same node of the same loop node. -/
theorem Wf.base_unique (wf : Wf t) {n n' : LoopNode} {b b' : BaseNode} (hn : n ∈ t.loopNodes)
    (hb : b ∈ n.baseNodes) (hn' : n' ∈ t.loopNodes) (hb' : b' ∈ n'.baseNodes)
    (h : b.self = b'.self) : n = n' ∧ b = b' := by
  have hplace := wf.place_unique (base_place_mem hn hb) (base_place_mem hn' hb') h
  have hloop := wf.loop_unique hn hn' (congrArg Place.loop hplace)
  subst hloop
  exact ⟨rfl, (wf.loopNodes n hn).ascendingBases.inj hb hb' h⟩

/-- Two id nodes at one address are the same node of the same base node. -/
theorem Wf.id_unique (wf : Wf t) {n n' : LoopNode} {b b' : BaseNode} {i i' : IdNode}
    (hn : n ∈ t.loopNodes) (hb : b ∈ n.baseNodes) (hi : i ∈ b.idNodes) (hn' : n' ∈ t.loopNodes)
    (hb' : b' ∈ n'.baseNodes) (hi' : i' ∈ b'.idNodes) (h : i.self = i'.self) :
    n = n' ∧ b = b' ∧ i = i' := by
  have hplace := wf.place_unique (id_place_mem hn hb hi) (id_place_mem hn' hb' hi') h
  have hbase : b.self = b'.self := Option.some.inj (congrArg Place.base hplace)
  obtain ⟨rfl, rfl⟩ := wf.base_unique hn hb hn' hb' hbase
  exact ⟨rfl, rfl, ((wf.loopNodes n hn).baseNodes b hb).ascendingIds.inj hi hi' h⟩

/-- The handlers of a list stand in the order of their creation. -/
theorem HandlersAt.ascending (wf : Wf t) {loop : Block} {base idNode : Option Block}
    {key : EventId} {handlers : List HandlerNode}
    (h : HandlersAt t.loopNodes loop base idNode key handlers) :
    Ascending HandlerNode.self handlers := by
  cases h with
  | loop hn => exact (wf.loopNodes _ hn).ascending
  | base hn hb => exact ((wf.loopNodes _ hn).baseNodes _ hb).ascending
  | id hn hb hi => exact (((wf.loopNodes _ hn).baseNodes _ hb).idNodes _ hi).ascending

/-- A list of handlers is told by the nodes above it. -/
theorem HandlersAt.unique (wf : Wf t) {loop loop' : Block} {base base' idNode idNode' : Option Block}
    {key key' : EventId} {handlers handlers' : List HandlerNode}
    (h : HandlersAt t.loopNodes loop base idNode key handlers)
    (h' : HandlersAt t.loopNodes loop' base' idNode' key' handlers') (hloop : loop = loop')
    (hbase : base = base') (hid : idNode = idNode') : key = key' ∧ handlers = handlers' := by
  cases h with
  | loop hn =>
    cases h' with
    | loop hn' =>
      obtain rfl := wf.loop_unique hn hn' hloop
      exact ⟨rfl, rfl⟩
    | base => cases hbase
    | id => cases hbase
  | base hn hb =>
    cases h' with
    | loop => cases hbase
    | base hn' hb' =>
      obtain ⟨rfl, rfl⟩ := wf.base_unique hn hb hn' hb' (Option.some.inj hbase)
      exact ⟨rfl, rfl⟩
    | id => cases hid
  | id hn hb hi =>
    cases h' with
    | loop => cases hbase
    | base => cases hid
    | id hn' hb' hi' =>
      obtain ⟨rfl, rfl, rfl⟩ := wf.id_unique hn hb hi hn' hb' hi' (Option.some.inj hid)
      exact ⟨rfl, rfl⟩

/-- A place below the nodes of a list is a place of that list. -/
theorem HandlersAt.of_place (wf : Wf t) {loop : Block} {base idNode : Option Block}
    {key : EventId} {handlers : List HandlerNode}
    (h : HandlersAt t.loopNodes loop base idNode key handlers) {p : Place}
    (hp : p ∈ places t.loopNodes) (hloop : p.loop = loop) (hbase : p.base = base)
    (hid : p.idNode = idNode) {b : Block} (hb : p.node = some b) :
    p.key = key ∧ ∃ x ∈ handlers, x.self = b := by
  obtain ⟨handlers', h', x, hx, hxb⟩ := handlersAt_of_place hp hb
  obtain ⟨hkey, rfl⟩ := h'.unique wf h hloop hbase hid
  exact ⟨hkey, x, hx, hxb⟩

/-- The handler nodes directly below a loop node. -/
theorem handlers_of_loop (wf : Wf t) {n : LoopNode} (hn : n ∈ t.loopNodes) {p : Place}
    (hp : p ∈ places t.loopNodes) (hloop : p.loop = n.self) (hbase : p.base = none) {b : Block}
    (hb : p.node = some b) : p.key = anyEvent ∧ ∃ x ∈ n.handlers, x.self = b := by
  have hid : p.idNode = none := by
    obtain ⟨m, -, h⟩ := List.mem_flatMap.mp hp
    obtain ⟨-, ⟨-, hid, -⟩ | ⟨c, -, h⟩⟩ := m.mem_places h
    · exact hid
    · rw [(c.mem_places h).2.1] at hbase
      cases hbase
  exact (HandlersAt.loop hn).of_place wf hp hloop hbase hid hb

/-- A base node belongs to one loop node. -/
theorem loop_of_base (wf : Wf t) {n : LoopNode} {b : BaseNode} (hn : n ∈ t.loopNodes)
    (hbn : b ∈ n.baseNodes) {p : Place} (hp : p ∈ places t.loopNodes)
    (hbase : p.base = some b.self) : p.loop = n.self ∧ p.key.base = b.base := by
  obtain ⟨n', hn', hloop, b', hb', hself, hkey⟩ := base_of_place hp hbase
  obtain ⟨rfl, rfl⟩ := wf.base_unique hn' hb' hn hbn hself
  exact ⟨hloop.symm, hkey.symm⟩

/-- The handler nodes directly below a base node. -/
theorem handlers_of_base (wf : Wf t) {n : LoopNode} {b : BaseNode} (hn : n ∈ t.loopNodes)
    (hbn : b ∈ n.baseNodes) {p : Place} (hp : p ∈ places t.loopNodes)
    (hbase : p.base = some b.self) (hid : p.idNode = none) {c : Block} (hc : p.node = some c) :
    p.key = ⟨b.base, anyId⟩ ∧ ∃ x ∈ b.handlers, x.self = c :=
  (HandlersAt.base hn hbn).of_place wf hp (loop_of_base wf hn hbn hp hbase).1 hbase hid hc

/-- An id node belongs to one base node. -/
theorem base_of_id (wf : Wf t) {n : LoopNode} {b : BaseNode} {i : IdNode} (hn : n ∈ t.loopNodes)
    (hbn : b ∈ n.baseNodes) (hin : i ∈ b.idNodes) {p : Place} (hp : p ∈ places t.loopNodes)
    (hid : p.idNode = some i.self) :
    p.loop = n.self ∧ p.base = some b.self ∧ p.key = ⟨b.base, i.id⟩ := by
  obtain ⟨n', hn', hloop, b', hb', hbase, i', hi', hself, hkey⟩ := id_of_place hp hid
  obtain ⟨rfl, rfl, rfl⟩ := wf.id_unique hn' hb' hi' hn hbn hin hself
  exact ⟨hloop.symm, hbase, hkey⟩

/-- The handler nodes below an id node. -/
theorem handlers_of_id (wf : Wf t) {n : LoopNode} {b : BaseNode} {i : IdNode}
    (hn : n ∈ t.loopNodes) (hbn : b ∈ n.baseNodes) (hin : i ∈ b.idNodes) {p : Place}
    (hp : p ∈ places t.loopNodes) (hid : p.idNode = some i.self) {c : Block}
    (hc : p.node = some c) : ∃ x ∈ i.handlers, x.self = c := by
  obtain ⟨hloop, hbase, -⟩ := base_of_id wf hn hbn hin hp hid
  exact ((HandlersAt.id hn hbn hin).of_place wf hp hloop hbase hid hc).2

end Unique

/-! ## Reading -/

section Read

variable {t : Registry}

/-- The loop node at a pointer, and its successor. -/
theorem read_loop (wf : Wf t) {n : LoopNode} (hn : n ∈ t.loopNodes) :
    ∃ next, read LoopNode.self (loopCells t.loopNodes) n.self = some (n, next) ∧
      (n, next) ∈ cells LoopNode.self t.loopNodes := by
  obtain ⟨next, hcell⟩ := exists_cell LoopNode.self hn
  obtain ⟨n', next', hread⟩ := read_of_mem hcell
  obtain ⟨hmem, hself⟩ := read_some hread
  obtain rfl := wf.loop_unique (mem_of_mem_cells hmem) hn hself
  exact ⟨next', hread, hmem⟩

/-- Reading a base node through its address gives the node and its successor. -/
theorem read_base (wf : Wf t) {n : LoopNode} {b : BaseNode} (hn : n ∈ t.loopNodes)
    (hb : b ∈ n.baseNodes) :
    ∃ next, read BaseNode.self (baseCells t.loopNodes) b.self = some (b, next) ∧
      (b, next) ∈ cells BaseNode.self n.baseNodes := by
  obtain ⟨next, hcell⟩ := exists_cell BaseNode.self hb
  have hcell : (b, next) ∈ baseCells t.loopNodes := List.mem_flatMap.mpr ⟨n, hn, hcell⟩
  obtain ⟨b', next', hread⟩ := read_of_mem hcell
  obtain ⟨hmem, hself⟩ := read_some hread
  obtain ⟨n', hn', hmem⟩ := List.mem_flatMap.mp hmem
  obtain ⟨rfl, rfl⟩ := wf.base_unique hn' (mem_of_mem_cells hmem) hn hb hself
  exact ⟨next', hread, hmem⟩

/-- Reading an id node through its address gives the node and its successor. -/
theorem read_id (wf : Wf t) {n : LoopNode} {b : BaseNode} {i : IdNode} (hn : n ∈ t.loopNodes)
    (hb : b ∈ n.baseNodes) (hi : i ∈ b.idNodes) :
    ∃ next, read IdNode.self (idCells t.loopNodes) i.self = some (i, next) ∧
      (i, next) ∈ cells IdNode.self b.idNodes := by
  obtain ⟨next, hcell⟩ := exists_cell IdNode.self hi
  have hcell : (i, next) ∈ idCells t.loopNodes :=
    List.mem_flatMap.mpr ⟨n, hn, List.mem_flatMap.mpr ⟨b, hb, hcell⟩⟩
  obtain ⟨i', next', hread⟩ := read_of_mem hcell
  obtain ⟨hmem, hself⟩ := read_some hread
  obtain ⟨n', hn', hmem⟩ := List.mem_flatMap.mp hmem
  obtain ⟨b', hb', hmem⟩ := List.mem_flatMap.mp hmem
  obtain ⟨rfl, rfl, rfl⟩ := wf.id_unique hn' hb' (mem_of_mem_cells hmem) hn hb hi hself
  exact ⟨next', hread, hmem⟩

/-- The handler nodes of the memory are those of the lists. -/
theorem mem_handlerCells {l : List LoopNode} {x : HandlerNode} {next : Option Block} :
    (x, next) ∈ handlerCells l ↔ ∃ loop base idNode key handlers,
      HandlersAt l loop base idNode key handlers ∧
        (x, next) ∈ cells HandlerNode.self handlers := by
  constructor
  · intro h
    obtain ⟨n, hn, h⟩ := List.mem_flatMap.mp h
    rcases List.mem_append.mp h with h | h
    · exact ⟨_, _, _, _, _, .loop hn, h⟩
    obtain ⟨b, hb, h⟩ := List.mem_flatMap.mp h
    rcases List.mem_append.mp h with h | h
    · exact ⟨_, _, _, _, _, .base hn hb, h⟩
    · obtain ⟨i, hi, h⟩ := List.mem_flatMap.mp h
      exact ⟨_, _, _, _, _, .id hn hb hi, h⟩
  · rintro ⟨loop, base, idNode, key, handlers, hat, h⟩
    cases hat with
    | @loop n hn => exact List.mem_flatMap.mpr ⟨n, hn, List.mem_append_left _ h⟩
    | @base n b hn hb =>
      refine List.mem_flatMap.mpr ⟨n, hn, List.mem_append_right _ ?_⟩
      exact List.mem_flatMap.mpr ⟨b, hb, List.mem_append_left _ h⟩
    | @id n b i hn hb hi =>
      refine List.mem_flatMap.mpr ⟨n, hn, List.mem_append_right _ ?_⟩
      refine List.mem_flatMap.mpr ⟨b, hb, List.mem_append_right _ ?_⟩
      exact List.mem_flatMap.mpr ⟨i, hi, h⟩

/-- Reading a handler node through its address gives the node and its successor. -/
theorem read_handler (wf : Wf t) {loop : Block} {base idNode : Option Block} {key : EventId}
    {handlers : List HandlerNode} (h : HandlersAt t.loopNodes loop base idNode key handlers)
    {x : HandlerNode} (hx : x ∈ handlers) :
    ∃ next, read HandlerNode.self (handlerCells t.loopNodes) x.self = some (x, next) ∧
      (x, next) ∈ cells HandlerNode.self handlers := by
  obtain ⟨next, hcell⟩ := exists_cell HandlerNode.self hx
  obtain ⟨x', next', hread⟩ := read_of_mem (mem_handlerCells.mpr ⟨_, _, _, _, _, h, hcell⟩)
  obtain ⟨hmem, hself⟩ := read_some hread
  obtain ⟨loop', base', idNode', key', handlers', h', hmem⟩ := mem_handlerCells.mp hmem
  have hplace := wf.place_unique (place_of_handlersAt h' (mem_of_mem_cells hmem))
    (place_of_handlersAt h hx) hself
  obtain ⟨-, rfl⟩ := h.unique wf h' (congrArg Place.loop hplace).symm
    (congrArg Place.base hplace).symm (congrArg Place.idNode hplace).symm
  obtain rfl := (h.ascending wf).inj (mem_of_mem_cells hmem) hx hself
  exact ⟨next', hread, hmem⟩

end Read

end PicoHost.Event
