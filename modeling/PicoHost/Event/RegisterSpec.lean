import PicoHost.Event.Slots

/-!
# What a registration does

`Registered` says what a registration does to the list of slots, at every level of
the tree: nothing, if it fails; a new slot behind which no slot matches an event
of its key; or, for the legacy calls, a new argument for a slot with the same key
and handler in the one list of handlers that the call searches, `reached`.

`register_wf` and `register_slots` put the levels together.
-/

namespace PicoHost.Event

open LastMatch

/-! ## The effect on the slots -/

/-- The slot with a new argument in its context. -/
def Slot.withArg (s : Slot) (arg : Arg) : Slot :=
  { s with node := { s.node with ctx := { s.node.ctx with arg := arg } } }

/-- A call of a registration function. -/
structure Request where
  key : EventId
  handler : Handler
  arg : Arg
  legacy : Bool

/-- From one list of slots to another, with the error and the context returned.
New nodes have a serial number of at least `n`. -/
inductive Registered (q : Request) (reached : List HandlerNode) (n : Nat) :
    List Slot → List Slot → EspErr → Option HandlerCtx → Prop
  | refused {l : List Slot} {err : EspErr} (herr : err ≠ .ok) :
      Registered q reached n l l err none
  | inserted {pre post : List Slot} {s : Slot} (key : s.key = q.key)
      (handler : s.node.ctx.handler = q.handler) (arg : s.node.ctx.arg = q.arg)
      (fresh : n ≤ s.node.self.serial) (apart : ∀ y ∈ post, Apart q.key y.key)
      (new : q.legacy = true → ∀ it ∈ reached, it.ctx.handler ≠ q.handler) :
      Registered q reached n (pre ++ post) (pre ++ s :: post) .ok (some s.node.ctx)
  | overwritten {pre post : List Slot} {s : Slot} (legacy : q.legacy = true) (key : s.key = q.key)
      (handler : s.node.ctx.handler = q.handler)
      (old : ∃ it ∈ reached, it.ctx.handler = q.handler) :
      Registered q reached n (pre ++ s :: post) (pre ++ s.withArg q.arg :: post) .ok none

section Registered

variable {q : Request} {reached : List HandlerNode} {n : Nat} {l l' : List Slot} {err : EspErr}
  {ctx : Option HandlerCtx}

/-- The same between other slots, if none behind matches an event of the key. -/
theorem Registered.frame (h : Registered q reached n l l' err ctx)
    (before behind : List Slot) (hb : ∀ y ∈ behind, Apart q.key y.key) :
    Registered q reached n (before ++ (l ++ behind)) (before ++ (l' ++ behind)) err ctx := by
  cases h with
  | refused herr => exact .refused herr
  | @inserted pre post s key handler arg fresh apart new =>
    have hl : before ++ ((pre ++ post) ++ behind) = (before ++ pre) ++ (post ++ behind) := by
      simp
    have hl' : before ++ ((pre ++ s :: post) ++ behind) =
        (before ++ pre) ++ s :: (post ++ behind) := by simp
    rw [hl, hl']
    refine .inserted key handler arg fresh (fun y hy => ?_) new
    rcases List.mem_append.mp hy with hy | hy
    · exact apart y hy
    · exact hb y hy
  | @overwritten pre post s legacy key handler old =>
    have hl : ∀ x, before ++ ((pre ++ x :: post) ++ behind) =
        (before ++ pre) ++ x :: (post ++ behind) := by simp
    rw [hl, hl]
    exact .overwritten legacy key handler old

/-- What is registered above a serial number is so above a smaller one. -/
theorem Registered.mono {m : Nat} (h : Registered q reached n l l' err ctx) (hm : m ≤ n) :
    Registered q reached m l l' err ctx := by
  cases h with
  | refused herr => exact .refused herr
  | inserted key handler arg fresh apart new =>
    exact .inserted key handler arg (Nat.le_trans hm fresh) apart new
  | overwritten legacy key handler old => exact .overwritten legacy key handler old

end Registered

/-- The specification of a registration function at a level whose nodes own
`blocks` and hold `slots`. -/
structure AddSpec {α : Type} (q : Request) (reached : List HandlerNode) (blocks : α → List Block)
    (slots : α → List Slot) (heap : Heap) (frame : List Block) (x : α) (r : Added α) : Prop where
  owns : r.heap.Owns (blocks r.node ++ frame)
  serial : heap.serial ≤ r.heap.serial
  registered : Registered q reached heap.serial (slots x) (slots r.node) r.err r.ctx
  unchanged : r.err ≠ .ok → r.node = x ∧ r.ctx = none

section AddSpec

variable {α β : Type} {q : Request} {reached : List HandlerNode} {blocks : α → List Block}
  {slots : α → List Slot} {blocks' : β → List Block} {slots' : β → List Slot}
  {heap : Heap} {frame frame' : List Block} {x : α} {r : Added α}

/-- A registration below a node, which holds the changed part among its own. -/
theorem AddSpec.lift (spec : AddSpec q reached blocks slots heap frame x r) (wrap : α → β)
    (before behind : List Slot)
    (hblocks : ∀ y, (blocks y ++ frame).Perm (blocks' (wrap y) ++ frame'))
    (hslots : ∀ y, slots' (wrap y) = before ++ (slots y ++ behind))
    (hapart : ∀ s ∈ behind, Apart q.key s.key) :
    AddSpec q reached blocks' slots' heap frame' (wrap x) { r with node := wrap r.node } where
  owns := spec.owns.perm (hblocks r.node)
  serial := spec.serial
  registered := by
    rw [hslots, hslots]
    exact spec.registered.frame before behind hapart
  unchanged herr := by
    obtain ⟨hnode, hctx⟩ := spec.unchanged herr
    exact ⟨congrArg wrap hnode, hctx⟩

/-- A registration in a new node `b`, which is appended if the registration
succeeds and freed otherwise. -/
theorem AddSpec.opened {heap₁ : Heap} {b : Block} {z : β}
    (spec : AddSpec q [] blocks slots heap₁ frame x r) (append : α → β)
    (hserial : heap.serial ≤ heap₁.serial) (hx : slots x = [])
    (hfree : (blocks x ++ frame).Perm (b :: (blocks' z ++ frame')))
    (hblocks : ∀ y, (blocks y ++ frame).Perm (blocks' (append y) ++ frame'))
    (hslots : ∀ y, slots' (append y) = slots' z ++ slots y) :
    AddSpec q [] blocks' slots' heap frame' z
      (if r.err = .ok then { r with node := append r.node }
        else ⟨z, r.heap.free b, r.err, none⟩) := by
  by_cases herr : r.err = .ok
  · rw [if_pos herr]
    refine ⟨spec.owns.perm (hblocks r.node), Nat.le_trans hserial spec.serial, ?_,
      fun h => absurd herr h⟩
    have hreg := spec.registered.frame (slots' z) [] nofun
    rw [hx, List.nil_append, List.append_nil, List.append_nil] at hreg
    rw [hslots]
    exact hreg.mono hserial
  · rw [if_neg herr]
    have howns := spec.owns
    rw [(spec.unchanged herr).1] at howns
    exact ⟨(howns.perm hfree).free, Nat.le_trans hserial spec.serial, .refused herr,
      fun _ => ⟨rfl, rfl⟩⟩

end AddSpec

/-! ## `handler_instances_add` -/

def HandlerNode.withArg (it : HandlerNode) (arg : Arg) : HandlerNode :=
  { it with ctx := { it.ctx with arg := arg } }

/-- Where nothing was overwritten, the handler is not in the list. -/
theorem overwriteArg_eq_none {handler : Handler} {arg : Arg} {l : List HandlerNode}
    (h : overwriteArg handler arg l = none) : ∀ it ∈ l, it.ctx.handler ≠ handler := by
  induction l with
  | nil => nofun
  | cons x rest ih =>
    rw [overwriteArg] at h
    split at h
    · cases h
    case isFalse hx =>
      intro it hit
      rcases List.mem_cons.mp hit with rfl | hit
      · exact hx
      · exact ih (Option.map_eq_none_iff.mp h) it hit

/-- Where something was, it is one node's argument. -/
theorem overwriteArg_eq_some {handler : Handler} {arg : Arg} {l l' : List HandlerNode}
    (h : overwriteArg handler arg l = some l') :
    ∃ pre it post, l = pre ++ it :: post ∧ l' = pre ++ it.withArg arg :: post ∧
      it.ctx.handler = handler := by
  induction l generalizing l' with
  | nil => cases h
  | cons x rest ih =>
    rw [overwriteArg] at h
    split at h
    case isTrue hx =>
      cases h
      exact ⟨[], x, rest, rfl, rfl, hx⟩
    case isFalse =>
      obtain ⟨rest', hrest, rfl⟩ := Option.map_eq_some_iff.mp h
      obtain ⟨pre, it, post, rfl, rfl, hit⟩ := ih hrest
      exact ⟨x :: pre, it, post, rfl, rfl, hit⟩

/-- A list of handlers with a node appended. -/
theorem blocks_append_handler (handlers : List HandlerNode) (it : HandlerNode)
    (frame : List Block) :
    (it.ctx.self :: it.self :: (handlers.flatMap HandlerNode.blocks ++ frame)).Perm
      ((handlers ++ [it]).flatMap HandlerNode.blocks ++ frame) := by
  rw [List.flatMap_append, List.flatMap_singleton, List.append_assoc]
  exact (List.perm_append_comm_assoc [it.ctx.self, it.self] _ frame)

section Handlers

variable (A : Allocator) {heap : Heap} {frame : List Block}

/-- `handler_instances_add` appends the handler, or overwrites its argument. -/
theorem handlerInstancesAdd_spec (q : Request) (handlers : List HandlerNode)
    (o : heap.Owns (handlers.flatMap HandlerNode.blocks ++ frame)) (loop : Block)
    (base idNode : Option Block) :
    AddSpec q handlers (List.flatMap HandlerNode.blocks)
      (List.map (Slot.mk loop base idNode q.key)) heap frame handlers
      (handlerInstancesAdd A heap handlers q.handler q.arg q.legacy) := by
  unfold handlerInstancesAdd
  rcases A.owns_calloc o with ⟨heap₁, hc₁, o₁, hs₁⟩ | ⟨b, heap₁, hc₁, o₁, hb, hs₁⟩ <;> rw [hc₁]
  · exact ⟨o₁, hs₁, .refused nofun, fun _ => ⟨rfl, rfl⟩⟩
  · dsimp only
    rcases A.owns_calloc o₁ with ⟨heap₂, hc₂, o₂, hs₂⟩ | ⟨c, heap₂, hc₂, o₂, -, hs₂⟩ <;> rw [hc₂]
    · exact ⟨o₂.free, Nat.le_trans hs₁ hs₂, .refused nofun, fun _ => ⟨rfl, rfl⟩⟩
    · dsimp only
      cases hover : (if q.legacy = true then overwriteArg q.handler q.arg handlers else none) with
      | none =>
        -- a new node at the end of the list
        refine ⟨o₂.perm (blocks_append_handler handlers ⟨b, ⟨c, q.handler, q.arg⟩⟩ frame),
          Nat.le_trans hs₁ hs₂, ?_, fun h => absurd rfl h⟩
        have hnew : q.legacy = true → ∀ it ∈ handlers, it.ctx.handler ≠ q.handler := by
          intro hlegacy
          rw [if_pos hlegacy] at hover
          exact overwriteArg_eq_none hover
        rw [List.map_append]
        have hins := @Registered.inserted q handlers heap.serial
          (handlers.map (Slot.mk loop base idNode q.key)) []
          ⟨loop, base, idNode, q.key, ⟨b, ⟨c, q.handler, q.arg⟩⟩⟩ rfl rfl rfl
          (Nat.le_of_eq hb.symm) nofun hnew
        rwa [List.append_nil] at hins
      | some handlers' =>
        -- the first node with this handler is overwritten
        have hlegacy : q.legacy = true := by
          by_contra h
          rw [if_neg h] at hover
          cases hover
        rw [if_pos hlegacy] at hover
        obtain ⟨pre, it, post, rfl, rfl, hit⟩ := overwriteArg_eq_some hover
        have hblocks : (pre ++ it.withArg q.arg :: post).flatMap HandlerNode.blocks =
            (pre ++ it :: post).flatMap HandlerNode.blocks := by
          rw [List.flatMap_append, List.flatMap_append]
          rfl
        refine ⟨?_, Nat.le_trans hs₁ hs₂, ?_, fun h => absurd rfl h⟩
        · rw [hblocks]
          exact (o₂.perm (List.Perm.swap b c _)).free.free
        · rw [List.map_append, List.map_append, List.map_cons, List.map_cons]
          exact .overwritten hlegacy rfl hit
            ⟨it, List.mem_append_right _ (List.mem_cons_self ..), hit⟩

end Handlers

/-! ## `base_node_add_handler` -/

/-- The list of handlers that `base_node_add_handler` searches. -/
def BaseNode.reached (it : BaseNode) (id : Int32) : List HandlerNode :=
  if id = anyId then it.handlers
  else match splitLast (fun i => decide (i.id = id)) it.idNodes with
    | none => []
    | some (_, idNode, _) => idNode.handlers

section Base

variable (A : Allocator) {heap : Heap} (frame : List Block)

/-- A handler goes to an id node that is there, the last one of its id. -/
theorem idNodeAddHandler_spec (q : Request) {it : BaseNode} (hshape : it.Shape)
    (hkey : q.key = ⟨it.base, q.key.id⟩) (hid : q.key.id ≠ anyId) {pre post : List IdNode}
    {idNode : IdNode} (hl : it.idNodes = pre ++ idNode :: post) (hmatch : idNode.id = q.key.id)
    (hpost : ∀ other ∈ post, other.id ≠ q.key.id) (o : heap.Owns (it.blocks ++ frame))
    (loop : Block) :
    let r := handlerInstancesAdd A heap idNode.handlers q.handler q.arg q.legacy
    AddSpec q idNode.handlers BaseNode.blocks (BaseNode.slots loop) heap frame it
      { r with node := { it with
          idNodes := pre ++ { idNode with handlers := r.node } :: post } } := by
  intro r
  have hperm := fun handlers : List HandlerNode => List.perm_append_comm_assoc
    (handlers.flatMap HandlerNode.blocks ++ [idNode.self])
    (it.handlers.flatMap HandlerNode.blocks ++ pre.flatMap IdNode.blocks)
    (post.flatMap IdNode.blocks ++ ([it.self] ++ frame))
  simp only [List.append_assoc] at hperm
  have o' := o
  rw [BaseNode.blocks, hl] at o'
  simp only [IdNode.blocks, List.flatMap_append, List.flatMap_cons, List.append_assoc] at o'
  have hnode : { it with idNodes := pre ++ { idNode with handlers := idNode.handlers } :: post }
      = it := by rw [← hl]
  have spec := handlerInstancesAdd_spec A q _ (o'.perm (hperm idNode.handlers).symm) loop
    (some it.self) (some idNode.self)
  refine hnode ▸ spec.lift
    (fun handlers => { it with idNodes := pre ++ { idNode with handlers := handlers } :: post })
    (it.handlers.map (Slot.mk loop (some it.self) none ⟨it.base, anyId⟩) ++
      pre.flatMap (IdNode.slots loop it.self it.base))
    (post.flatMap (IdNode.slots loop it.self it.base))
    (fun handlers => ?_) (fun handlers => ?_) fun s hs => ?_
  · simpa only [BaseNode.blocks, IdNode.blocks, List.flatMap_append, List.flatMap_cons,
      List.append_assoc] using hperm handlers
  · simp only [BaseNode.slots, IdNode.slots, List.flatMap_append, List.flatMap_cons,
      List.append_assoc]
    rw [hmatch, ← hkey]
  · obtain ⟨other, hother, hs⟩ := List.mem_flatMap.mp hs
    have hmem : other ∈ it.idNodes := by
      rw [hl]
      exact List.mem_append_right _ (List.mem_cons_of_mem _ hother)
    rw [hkey, other.key_of_mem hs]
    exact apart_of_id_ne hshape.notAny hid (hshape.idNodes other hmem).notAny
      (hpost other hother).symm

/-- `base_node_add_handler` registers below the node. -/
theorem baseNodeAddHandler_spec (q : Request) {it : BaseNode} (hshape : it.Shape)
    (hbase : q.key.base = it.base) (hempty : q.key.id = anyId → it.idNodes = [])
    (o : heap.Owns (it.blocks ++ frame)) (loop : Block) :
    AddSpec q (it.reached q.key.id) BaseNode.blocks (BaseNode.slots loop) heap frame it
      (baseNodeAddHandler A heap it q.key.id q.handler q.arg q.legacy) := by
  unfold baseNodeAddHandler BaseNode.reached
  by_cases hid : q.key.id = anyId
  · -- a base-level handler; there are no id nodes behind it
    have hkey : q.key = ⟨it.base, anyId⟩ := by rw [← hbase, ← hid]
    have hnil := hempty hid
    rw [if_pos hid, if_pos hid]
    have o' : heap.Owns (it.handlers.flatMap HandlerNode.blocks ++
        (it.idNodes.flatMap IdNode.blocks ++ ([it.self] ++ frame))) := by
      simpa only [BaseNode.blocks, List.append_assoc] using o
    refine (handlerInstancesAdd_spec A q _ o' loop (some it.self) none).lift
      (fun handlers => { it with handlers := handlers }) [] []
      (fun handlers => ?_) (fun handlers => ?_) (fun s hs => by cases hs)
    · simp only [BaseNode.blocks, List.append_assoc]
      exact List.Perm.refl _
    · simp only [BaseNode.slots, hnil, hkey, List.flatMap_nil, List.append_nil, List.nil_append]
  · rw [if_neg hid, if_neg hid]
    have hkey : q.key = ⟨it.base, q.key.id⟩ := by rw [← hbase]
    cases hsplit : splitLast (fun i => decide (i.id = q.key.id)) it.idNodes with
    | none =>
      -- a new id node at the end
      dsimp only
      rcases A.owns_calloc o with ⟨heap₁, hc, o₁, hs⟩ | ⟨b, heap₁, hc, o₁, -, hs⟩ <;> rw [hc]
      · exact ⟨o₁, hs, .refused (by simp), fun _ => ⟨rfl, rfl⟩⟩
      · refine (handlerInstancesAdd_spec A q [] o₁ loop (some it.self) (some b)).opened
          (fun handlers => { it with idNodes := it.idNodes ++ [⟨b, q.key.id, handlers⟩] }) hs rfl
          (List.Perm.refl _) (fun handlers => ?_) (fun handlers => ?_)
        · have hperm := List.perm_append_comm_assoc (handlers.flatMap HandlerNode.blocks ++ [b])
            (it.handlers.flatMap HandlerNode.blocks ++ it.idNodes.flatMap IdNode.blocks)
            ([it.self] ++ frame)
          simpa only [BaseNode.blocks, IdNode.blocks, List.flatMap_append, List.flatMap_singleton,
            List.append_assoc, List.cons_append, List.nil_append] using hperm
        · simp only [BaseNode.slots, IdNode.slots, List.flatMap_append, List.flatMap_singleton,
            List.append_assoc]
          rw [← hkey]
    | some found =>
      -- the last id node of this id
      obtain ⟨pre, idNode, post⟩ := found
      obtain ⟨hl, hmatch, hpost⟩ := splitLast_eq_some hsplit
      exact idNodeAddHandler_spec A frame q hshape hkey hid hl (of_decide_eq_true hmatch)
        (fun other hother => of_decide_eq_false (hpost other hother)) o loop

end Base

/-! ## `loop_node_add_handler` -/

/-- The list of handlers that `loop_node_add_handler` searches. -/
def LoopNode.reached (it : LoopNode) (base : EventBase) (id : Int32) : List HandlerNode :=
  if base = anyBase ∧ id = anyId then it.handlers
  else match splitLast (fun i => decide (i.base = base)) it.baseNodes with
    | none => []
    | some (_, baseNode, _) =>
      if opensBaseNode it.baseNodes baseNode base id then [] else baseNode.reached id

section Loop

variable (A : Allocator) {heap : Heap} (frame : List Block)

/-- A new base node comes with the registration. -/
theorem openBaseNode_spec (q : Request) (hbase : q.key.base ≠ anyBase) (it : LoopNode)
    (o : heap.Owns (it.blocks ++ frame)) :
    AddSpec q [] LoopNode.blocks LoopNode.slots heap frame it
      (openBaseNode A heap it q.key.base q.key.id q.handler q.arg q.legacy) := by
  unfold openBaseNode
  rcases A.owns_calloc o with ⟨heap₁, hc, o₁, hs⟩ | ⟨b, heap₁, hc, o₁, -, hs⟩ <;> rw [hc]
  · exact ⟨o₁, hs, .refused nofun, fun _ => ⟨rfl, rfl⟩⟩
  · have hshape : BaseNode.Shape ⟨b, q.key.base, [], []⟩ :=
      ⟨hbase, List.Pairwise.nil, List.Pairwise.nil, List.nodup_nil, nofun⟩
    have hreached : BaseNode.reached ⟨b, q.key.base, [], []⟩ q.key.id = [] := ite_self []
    have spec := baseNodeAddHandler_spec A (it.blocks ++ frame) q hshape rfl (fun _ => rfl) o₁
      it.self
    rw [hreached] at spec
    refine spec.opened (fun baseNode => { it with baseNodes := it.baseNodes ++ [baseNode] }) hs rfl
      (List.Perm.refl _) (fun baseNode => ?_) fun baseNode => ?_
    · have hperm := List.perm_append_comm_assoc baseNode.blocks
        (it.handlers.flatMap HandlerNode.blocks ++ it.baseNodes.flatMap BaseNode.blocks)
        ([it.self] ++ frame)
      simpa only [LoopNode.blocks, List.flatMap_append, List.flatMap_singleton,
        List.append_assoc] using hperm
    · simp only [LoopNode.slots, List.flatMap_append, List.flatMap_singleton, List.append_assoc]

/-- A base node that takes a base-level handler has no id nodes. -/
theorem idNodes_of_opensBaseNode {baseNodes : List BaseNode} {baseNode : BaseNode}
    {base : EventBase} {id : Int32} (h : ¬ opensBaseNode baseNodes baseNode base id = true)
    (hid : id = anyId) : baseNode.idNodes = [] := by
  by_contra hne
  apply h
  simp [opensBaseNode, hid, hne]

/-- `loop_node_add_handler` registers below the node. -/
theorem loopNodeAddHandler_spec (q : Request) {it : LoopNode} (hshape : it.Shape)
    (hkey : q.key.base = anyBase → q.key.id = anyId)
    (hempty : q.key = anyEvent → it.baseNodes = []) (o : heap.Owns (it.blocks ++ frame)) :
    AddSpec q (it.reached q.key.base q.key.id) LoopNode.blocks LoopNode.slots heap frame it
      (loopNodeAddHandler A heap it q.key.base q.key.id q.handler q.arg q.legacy) := by
  unfold loopNodeAddHandler LoopNode.reached
  by_cases hany : q.key.base = anyBase ∧ q.key.id = anyId
  · -- a loop-level handler; there are no base nodes behind it
    have hq : q.key = anyEvent := by rw [anyEvent, ← hany.1, ← hany.2]
    have hnil := hempty hq
    rw [if_pos hany, if_pos hany]
    have o' := o
    rw [LoopNode.blocks, List.append_assoc, List.append_assoc] at o'
    refine (handlerInstancesAdd_spec A q _ o' it.self none none).lift
      (fun handlers => { it with handlers := handlers }) [] []
      (fun handlers => ?_) (fun handlers => ?_) (fun s hs => by cases hs)
    · simp only [LoopNode.blocks, List.append_assoc]
      exact List.Perm.refl _
    · simp only [LoopNode.slots, hnil, hq, List.flatMap_nil, List.append_nil, List.nil_append]
  · rw [if_neg hany, if_neg hany]
    have hbase : q.key.base ≠ anyBase := fun h => hany ⟨h, hkey h⟩
    cases hsplit : splitLast (fun i => decide (i.base = q.key.base)) it.baseNodes with
    | none => exact openBaseNode_spec A frame q hbase it o
    | some found =>
      -- the last base node of this base
      obtain ⟨pre, baseNode, post⟩ := found
      obtain ⟨hl, hmatch, hpost⟩ := splitLast_eq_some hsplit
      have hmatch : baseNode.base = q.key.base := of_decide_eq_true hmatch
      dsimp only
      by_cases hopens : opensBaseNode it.baseNodes baseNode q.key.base q.key.id = true
      · rw [if_pos hopens, if_pos hopens]
        exact openBaseNode_spec A frame q hbase it o
      rw [if_neg hopens, if_neg hopens]
      have hmem : baseNode ∈ it.baseNodes := by
        rw [hl]
        exact List.mem_append_right _ (List.mem_cons_self ..)
      have hperm := fun baseNode : BaseNode => List.perm_append_comm_assoc baseNode.blocks
        (it.handlers.flatMap HandlerNode.blocks ++ pre.flatMap BaseNode.blocks)
        (post.flatMap BaseNode.blocks ++ ([it.self] ++ frame))
      simp only [List.append_assoc] at hperm
      have o' := o
      rw [LoopNode.blocks, hl] at o'
      simp only [List.flatMap_append, List.flatMap_cons, List.append_assoc] at o'
      have hnode : { it with baseNodes := pre ++ baseNode :: post } = it := by rw [← hl]
      have spec := baseNodeAddHandler_spec A _ q (hshape.baseNodes baseNode hmem).toShape
        hmatch.symm (idNodes_of_opensBaseNode hopens) (o'.perm (hperm baseNode).symm) it.self
      refine hnode ▸ spec.lift (fun baseNode => { it with baseNodes := pre ++ baseNode :: post })
        (it.handlers.map (Slot.mk it.self none none anyEvent) ++
          pre.flatMap (BaseNode.slots it.self)) (post.flatMap (BaseNode.slots it.self))
        (fun baseNode => ?_) (fun baseNode => ?_) fun s hs => ?_
      · simpa only [LoopNode.blocks, List.flatMap_append, List.flatMap_cons,
          List.append_assoc] using hperm baseNode
      · simp only [LoopNode.slots, List.flatMap_append, List.flatMap_cons, List.append_assoc]
      · obtain ⟨other, hother, hs⟩ := List.mem_flatMap.mp hs
        have hmem' : other ∈ it.baseNodes := by
          rw [hl]
          exact List.mem_append_right _ (List.mem_cons_of_mem _ hother)
        have hkey' := other.key_of_mem hs
        exact apart_of_base_ne hbase (hkey' ▸ (hshape.baseNodes other hmem').notAny)
          (hkey' ▸ Ne.symm (of_decide_eq_false (hpost other hother)))

end Loop

/-! ## `esp_event_handler_register_with_internal` -/

/-- The one list of handlers that a registration searches. -/
def reached (loopNodes : List LoopNode) (base : EventBase) (id : Int32) : List HandlerNode :=
  match splitLast (fun _ => true) loopNodes with
  | none => []
  | some (_, last, _) =>
    if !last.baseNodes.isEmpty && decide (base = anyBase ∧ id = anyId) then []
    else last.reached base id

section Internal

variable (A : Allocator) {t : Registry}

/-- A new loop node comes with the registration. -/
theorem openLoopNode_spec (q : Request) (hkey : q.key.base = anyBase → q.key.id = anyId)
    (o : t.heap.Owns (t.loopNodes.flatMap LoopNode.blocks ++ [])) :
    AddSpec q [] (List.flatMap LoopNode.blocks) slots t.heap [] t.loopNodes
      (openLoopNode A t q.key.base q.key.id q.handler q.arg q.legacy) := by
  unfold openLoopNode
  rcases A.owns_calloc o with ⟨heap₁, hc, o₁, hs⟩ | ⟨b, heap₁, hc, o₁, -, hs⟩ <;> rw [hc]
  · exact ⟨o₁, hs, .refused nofun, fun _ => ⟨rfl, rfl⟩⟩
  · have hshape : LoopNode.Shape ⟨b, [], []⟩ := ⟨List.Pairwise.nil, List.Pairwise.nil, nofun⟩
    have hreached : LoopNode.reached ⟨b, [], []⟩ q.key.base q.key.id = [] := ite_self []
    have spec := loopNodeAddHandler_spec A (t.loopNodes.flatMap LoopNode.blocks ++ []) q hshape
      hkey (fun _ => rfl) o₁
    rw [hreached] at spec
    refine spec.opened (fun loopNode => t.loopNodes ++ [loopNode]) hs rfl
      (List.Perm.refl _) (fun loopNode => ?_) fun loopNode => ?_
    · have hperm := List.perm_append_comm_assoc loopNode.blocks
        (t.loopNodes.flatMap LoopNode.blocks) []
      simpa only [List.flatMap_append, List.flatMap_singleton, List.append_assoc] using hperm
    · rw [slots_append, slots_cons, slots_nil, List.append_nil]

/-- The specification of a registration, at the slots. -/
theorem registerWithInternal_spec (wf : Wf t) (q : Request) :
    AddSpec q (reached t.loopNodes q.key.base q.key.id) (List.flatMap LoopNode.blocks) slots
      t.heap [] t.loopNodes
      (registerWithInternal A t q.key.base q.key.id q.handler q.arg q.legacy) := by
  have o : t.heap.Owns (t.loopNodes.flatMap LoopNode.blocks ++ []) := by
    rw [List.append_nil]
    exact wf.owns
  unfold registerWithInternal reached
  by_cases hinvalid : q.key.base = anyBase ∧ q.key.id ≠ anyId
  · rw [if_pos hinvalid]
    exact ⟨o, Nat.le_refl _, .refused nofun, fun _ => ⟨rfl, rfl⟩⟩
  rw [if_neg hinvalid]
  have hkey : q.key.base = anyBase → q.key.id = anyId := fun hb =>
    not_not.mp fun hi => hinvalid ⟨hb, hi⟩
  cases hsplit : splitLast (fun _ => true) t.loopNodes with
  | none => exact openLoopNode_spec A q hkey o
  | some found =>
    obtain ⟨pre, last, post⟩ := found
    obtain ⟨hl, -, hpost⟩ := splitLast_eq_some hsplit
    -- the last loop node of all is the last of the list
    have hpost : post = [] := List.eq_nil_iff_forall_not_mem.mpr fun y hy => nomatch hpost y hy
    subst hpost
    dsimp only
    by_cases hopens : (!last.baseNodes.isEmpty &&
        decide (q.key.base = anyBase ∧ q.key.id = anyId)) = true
    · rw [if_pos hopens, if_pos hopens]
      exact openLoopNode_spec A q hkey o
    rw [if_neg hopens, if_neg hopens]
    have hempty : q.key = anyEvent → last.baseNodes = [] := by
      intro hq
      by_contra hne
      apply hopens
      simp [hq, anyEvent, hne]
    have hperm := fun last : LoopNode => List.perm_append_comm_assoc last.blocks
      (pre.flatMap LoopNode.blocks) []
    have o' := o
    rw [hl, List.flatMap_append, List.append_assoc, List.flatMap_singleton] at o'
    have spec := loopNodeAddHandler_spec A (pre.flatMap LoopNode.blocks ++ []) q
      (wf.loopNodes last (by rw [hl]; simp)).toShape hkey hempty (o'.perm (hperm last).symm)
    rw [hl]
    refine spec.lift (fun last => pre ++ [last]) (slots pre) [] (fun last => ?_) (fun last => ?_)
      nofun
    · rw [List.flatMap_append, List.flatMap_singleton, List.append_assoc]
      exact hperm last
    · rw [slots_append, slots_cons, slots_nil]

end Internal

end PicoHost.Event
