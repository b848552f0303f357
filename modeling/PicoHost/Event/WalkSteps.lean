import PicoHost.Event.Nodes

/-!
# The steps of a dispatch

`Pc.ahead` says which places of the tree the walk has still to visit, and `Pc.Good`
that the pointers it holds are to nodes that are there. A step that runs no handler
neither adds places to those ahead nor passes over a handler that matches the event
(`Quiet`); a step that runs a handler passes over this handler alone (`Ran`).
-/

namespace PicoHost.Event

open Chain

/-! ## Places ahead -/

/-- The places that the walk has still to visit. -/
def Pc.ahead : Pc → Place → Prop
  | .loopNode loop, p => From loop (some p.loop)
  | .loopHandler loop tempNode h, p =>
    (p.base = none ∧ p.loop = loop ∧ From h p.node) ∨ (p.base ≠ none ∧ p.loop = loop) ∨
      From tempNode (some p.loop)
  | .baseNode loop tempNode base, p =>
    (p.loop = loop ∧ From base p.base) ∨ From tempNode (some p.loop)
  | .baseHandler loop tempNode base tempBase h, p =>
    (p.idNode = none ∧ p.base = some base ∧ From h p.node) ∨
      (p.idNode ≠ none ∧ p.base = some base) ∨ (p.loop = loop ∧ From tempBase p.base) ∨
        From tempNode (some p.loop)
  | .idNode loop tempNode base tempBase id, p =>
    (p.base = some base ∧ From id p.idNode) ∨ (p.loop = loop ∧ From tempBase p.base) ∨
      From tempNode (some p.loop)
  | .idHandler loop tempNode _ tempBase id h, p =>
    (p.idNode = some id ∧ From h p.node) ∨ (p.loop = loop ∧ From tempBase p.base) ∨
      From tempNode (some p.loop)
  | .done, _ => False
  | .fault, _ => False

instance : ∀ pc p, Decidable (Pc.ahead pc p)
  | .loopNode .., _ => inferInstanceAs (Decidable (From _ _))
  | .loopHandler .., _ => inferInstanceAs (Decidable (_ ∨ _ ∨ _))
  | .baseNode .., _ => inferInstanceAs (Decidable (_ ∨ _))
  | .baseHandler .., _ => inferInstanceAs (Decidable (_ ∨ _ ∨ _ ∨ _))
  | .idNode .., _ => inferInstanceAs (Decidable (_ ∨ _ ∨ _))
  | .idHandler .., _ => inferInstanceAs (Decidable (_ ∨ _ ∨ _))
  | .done, _ => inferInstanceAs (Decidable False)
  | .fault, _ => inferInstanceAs (Decidable False)

/-! ## Good pointers -/

def loopPlace (loop : Block) : Place := ⟨loop, none, none, none, none, anyEvent⟩

def basePlace (loop base : Block) (eventBase : EventBase) : Place :=
  ⟨loop, some base, none, none, none, ⟨eventBase, anyId⟩⟩

def idPlace (loop base id : Block) (key : EventId) : Place :=
  ⟨loop, some base, some id, none, none, key⟩

section Good

variable (l : List LoopNode)

/-- `temp_node` is a later loop node. -/
def LaterLoop (loop : Block) (tempNode : Option Block) : Prop :=
  ∀ a, tempNode = some a → loop.serial < a.serial ∧ loopPlace a ∈ places l

/-- `temp_base` is a later base node of the loop node. -/
def LaterBase (loop base : Block) (tempBase : Option Block) : Prop :=
  ∀ a, tempBase = some a →
    base.serial < a.serial ∧ ∃ eventBase, basePlace loop a eventBase ∈ places l

variable {l} in
/-- The loop node is not on what lies behind it. -/
theorem LaterLoop.not_from {loop : Block} {tempNode : Option Block}
    (h : LaterLoop l loop tempNode) : ¬ From tempNode (some loop) := by
  cases tempNode with
  | none => exact not_from_none
  | some a => exact Nat.not_le_of_lt (h a rfl).1

variable {l} in
/-- The base node is not on what lies behind it. -/
theorem LaterBase.not_from {loop base : Block} {tempBase : Option Block}
    (h : LaterBase l loop base tempBase) : ¬ From tempBase (some base) := by
  cases tempBase with
  | none => exact not_from_none
  | some a => exact Nat.not_le_of_lt (h a rfl).1

/-- The next handler is in this list. -/
def HandlerIn (loop : Block) (base idNode : Option Block) (key : EventId) (h : Option Block) :
    Prop :=
  ∀ a, h = some a → (⟨loop, base, idNode, some a, none, key⟩ : Place) ∈ places l

/-- The pointers of the walk that it still uses are to nodes that are there. -/
def Pc.Good (e : EventId) : Pc → Prop
  | .loopNode loop => ∀ a, loop = some a → loopPlace a ∈ places l
  | .loopHandler loop tempNode h =>
    loopPlace loop ∈ places l ∧ LaterLoop l loop tempNode ∧ HandlerIn l loop none none anyEvent h
  | .baseNode loop tempNode base =>
    LaterLoop l loop tempNode ∧
      ∀ a, base = some a → ∃ eventBase, basePlace loop a eventBase ∈ places l
  | .baseHandler loop tempNode base tempBase h =>
    basePlace loop base e.base ∈ places l ∧ LaterLoop l loop tempNode ∧
      LaterBase l loop base tempBase ∧ HandlerIn l loop (some base) none ⟨e.base, anyId⟩ h
  | .idNode loop tempNode base tempBase id =>
    LaterLoop l loop tempNode ∧ LaterBase l loop base tempBase ∧
      ∀ a, id = some a → ∃ i, idPlace loop base a ⟨e.base, i⟩ ∈ places l
  | .idHandler loop tempNode base tempBase id h =>
    LaterLoop l loop tempNode ∧ LaterBase l loop base tempBase ∧
      HandlerIn l loop (some base) (some id) e h
  | .done => True
  | .fault => False

end Good

/-! ## Steps that run no handler -/

/-- How many steps the innermost loops take at most before the next node. -/
def Pc.phase : Pc → Nat
  | .loopNode .. => 1
  | .baseNode .. => 2
  | .loopHandler .. => 3
  | .idNode .. => 3
  | .idHandler .. => 3
  | .baseHandler .. => 4
  | .done => 0
  | .fault => 0

/-- What a step that runs no handler does. -/
structure Quiet (l : List LoopNode) (e : EventId) (pc pc' : Pc) : Prop where
  good : pc'.Good l e
  mono : ∀ p ∈ places l, pc'.ahead p → pc.ahead p
  keeps : ∀ p ∈ places l, p.node.isSome → Matches e p.key → pc.ahead p → pc'.ahead p
  progress : (∃ p ∈ places l, pc.ahead p ∧ ¬ pc'.ahead p) ∧ pc'.phase ≤ pc.phase + 2 ∨
    pc'.phase < pc.phase

section Next

variable {t : Registry} {e : EventId} (wf : Wf t)

/-- The first handler of a list. -/
theorem handlerIn_head {loop : Block} {base idNode : Option Block} {key : EventId}
    {handlers : List HandlerNode}
    (h : HandlersAt t.loopNodes loop base idNode key handlers) :
    HandlerIn t.loopNodes loop base idNode key (handlers.head?.map HandlerNode.self) := by
  intro a ha
  obtain ⟨x, hx, rfl⟩ := Option.map_eq_some_iff.mp ha
  exact place_of_handlersAt h (List.mem_of_mem_head? hx)

include wf

/-- What `SLIST_NEXT` of a loop node points to lies behind it. -/
theorem laterLoop_next {n : LoopNode} {next : Option Block}
    (hc : (n, next) ∈ cells LoopNode.self t.loopNodes) : LaterLoop t.loopNodes n.self next := by
  intro a ha
  obtain ⟨hlt, m, hm, rfl⟩ := wf.ascending.next_lt hc ha
  exact ⟨hlt, loop_place_mem hm⟩

/-- What `SLIST_NEXT` of a base node points to lies behind it. -/
theorem laterBase_next {n : LoopNode} {b : BaseNode} {next : Option Block}
    (hn : n ∈ t.loopNodes) (hc : (b, next) ∈ cells BaseNode.self n.baseNodes) :
    LaterBase t.loopNodes n.self b.self next := by
  intro a ha
  obtain ⟨hlt, m, hm, rfl⟩ := (wf.loopNodes n hn).ascendingBases.next_lt hc ha
  exact ⟨hlt, m.base, base_place_mem hn hm⟩

/-- The places from a loop node on. -/
theorem from_loop_next {n : LoopNode} {next : Option Block}
    (hc : (n, next) ∈ cells LoopNode.self t.loopNodes) {p : Place}
    (hp : p ∈ places t.loopNodes) :
    From (some n.self) (some p.loop) ↔ p.loop = n.self ∨ From next (some p.loop) := by
  obtain ⟨m, hm, hself⟩ := loop_of_place hp
  have hn := mem_of_mem_cells hc
  rw [← hself, wf.ascending.from_next hc hm]
  exact or_congr_left ⟨fun h => congrArg _ h, fun h => wf.loop_unique hm hn h⟩

/-- The places from a base node on, among those below its loop node. -/
theorem from_base_next {n : LoopNode} {b : BaseNode} {next : Option Block}
    (hn : n ∈ t.loopNodes) (hc : (b, next) ∈ cells BaseNode.self n.baseNodes) {p : Place}
    (hp : p ∈ places t.loopNodes) (hloop : p.loop = n.self) :
    From (some b.self) p.base ↔ p.base = some b.self ∨ From next p.base := by
  cases hbase : p.base with
  | none => simp
  | some B =>
    obtain ⟨m, hm, hself, c, hcm, rfl, -⟩ := base_of_place hp hbase
    obtain rfl := wf.loop_unique hm hn (hself.trans hloop)
    have hasc := (wf.loopNodes m hm).ascendingBases
    rw [hasc.from_next hc hcm, Option.some.injEq]
    exact or_congr_left ⟨fun h => congrArg _ h, fun h => hasc.inj hcm (mem_of_mem_cells hc) h⟩

/-- The places from an id node on, among those below its base node. -/
theorem from_id_next {n : LoopNode} {b : BaseNode} {i : IdNode} {next : Option Block}
    (hn : n ∈ t.loopNodes) (hb : b ∈ n.baseNodes) (hc : (i, next) ∈ cells IdNode.self b.idNodes)
    {p : Place} (hp : p ∈ places t.loopNodes) (hbase : p.base = some b.self) :
    From (some i.self) p.idNode ↔ p.idNode = some i.self ∨ From next p.idNode := by
  cases hid : p.idNode with
  | none => simp
  | some I =>
    obtain ⟨m, hm, -, c, hcm, hbase', j, hj, rfl, -⟩ := id_of_place hp hid
    obtain ⟨rfl, rfl⟩ := wf.base_unique hm hcm hn hb (Option.some.inj (hbase'.symm.trans hbase))
    have hasc := ((wf.loopNodes m hm).baseNodes c hcm).ascendingIds
    rw [hasc.from_next hc hj, Option.some.injEq]
    exact or_congr_left ⟨fun h => congrArg _ h, fun h => hasc.inj hj (mem_of_mem_cells hc) h⟩

/-- Going from a loop node to its handlers skips no registration. -/
theorem next_loopNode {p : Block} (hp : loopPlace p ∈ places t.loopNodes) :
    Quiet t.loopNodes e (.loopNode (some p)) (Pc.next t.loopNodes e (.loopNode (some p))) := by
  obtain ⟨n, hn, hself⟩ := loop_of_place hp
  have hself : n.self = p := hself
  subst hself
  obtain ⟨next, hread, hcell⟩ := read_loop wf hn
  rw [Pc.next, hread]
  dsimp only
  refine ⟨⟨hp, laterLoop_next wf hcell, handlerIn_head (.loop hn)⟩, ?_, ?_,
    .inl ⟨?_, Nat.le_refl _⟩⟩
  · rintro q hq (⟨-, h, -⟩ | ⟨-, h⟩ | h)
    · exact (from_loop_next wf hcell hq).mpr (.inl h)
    · exact (from_loop_next wf hcell hq).mpr (.inl h)
    · exact (from_loop_next wf hcell hq).mpr (.inr h)
  · intro q hq hnode _ h
    rcases (from_loop_next wf hcell hq).mp h with h | h
    · by_cases hbase : q.base = none
      · -- a handler of this node: its list is visited from the head on
        obtain ⟨b, hb⟩ := Option.isSome_iff_exists.mp hnode
        obtain ⟨-, x, hx, rfl⟩ := handlers_of_loop wf hn hq h hbase hb
        refine .inl ⟨hbase, h, ?_⟩
        rw [hb]
        exact (wf.loopNodes n hn).ascending.from_head hx
      · exact .inr (.inl ⟨hbase, h⟩)
    · exact .inr (.inr h)
  · refine ⟨loopPlace n.self, hp, Nat.le_refl _, ?_⟩
    rintro (⟨-, -, h⟩ | ⟨h, -⟩ | h)
    · exact not_from_of_none h
    · exact h rfl
    · exact wf.ascending.not_from_next hcell h

/-- At the end of a loop node's handlers the walk goes on to its base nodes. -/
theorem next_loopHandler {loop : Block} {tempNode : Option Block}
    (h : Pc.Good t.loopNodes e (.loopHandler loop tempNode none)) :
    Quiet t.loopNodes e (.loopHandler loop tempNode none)
      (Pc.next t.loopNodes e (.loopHandler loop tempNode none)) := by
  obtain ⟨hloop, hlater, -⟩ := h
  obtain ⟨n, hn, hself⟩ := loop_of_place hloop
  have hself : n.self = loop := hself
  subst hself
  obtain ⟨next, hread, hcell⟩ := read_loop wf hn
  rw [Pc.next, hread]
  dsimp only
  refine ⟨⟨hlater, fun a ha => ?_⟩, ?_, ?_, .inr (Nat.lt_succ_self _)⟩
  · obtain ⟨b, hb, rfl⟩ := Option.map_eq_some_iff.mp ha
    exact ⟨b.base, base_place_mem hn (List.mem_of_mem_head? hb)⟩
  · rintro q hq (⟨hq, h⟩ | h)
    · refine .inr (.inl ⟨?_, hq⟩)
      intro hnone
      rw [hnone] at h
      exact not_from_of_none h
    · exact .inr (.inr h)
  · rintro q hq - - (⟨-, -, h⟩ | ⟨hbase, hloop⟩ | h)
    · exact absurd h not_from_none
    · -- below the node: its base nodes are visited from the head on
      obtain ⟨B, hB⟩ := Option.ne_none_iff_exists'.mp hbase
      obtain ⟨m, hm, hself, c, hc, rfl, -⟩ := base_of_place hq hB
      obtain rfl := wf.loop_unique hm hn (hself.trans hloop)
      refine .inl ⟨hloop, ?_⟩
      rw [hB]
      exact (wf.loopNodes m hm).ascendingBases.from_head hc
    · exact .inr h

/-- A matching handler is not below a base node of another base. -/
theorem base_of_matches {n : LoopNode} {b : BaseNode} (hn : n ∈ t.loopNodes)
    (hb : b ∈ n.baseNodes) {p : Place} (hp : p ∈ places t.loopNodes)
    (hbase : p.base = some b.self) (hm : Matches e p.key) : b.base = e.base := by
  have hkey := (loop_of_base wf hn hb hp hbase).2
  rcases hm with h | h
  · exact absurd (hkey.symm.trans (congrArg EventId.base h))
      ((wf.loopNodes n hn).baseNodes b hb).notAny
  · exact hkey.symm.trans h.1

/-- A base node of another base is skipped, and nothing of the event with it. -/
theorem next_baseNode {loop p : Block} {tempNode : Option Block}
    (h : Pc.Good t.loopNodes e (.baseNode loop tempNode (some p))) :
    Quiet t.loopNodes e (.baseNode loop tempNode (some p))
      (Pc.next t.loopNodes e (.baseNode loop tempNode (some p))) := by
  obtain ⟨hlater, hbase⟩ := h
  obtain ⟨eventBase, hplace⟩ := hbase p rfl
  obtain ⟨n, hn, hself, b, hb, hbself, -⟩ := base_of_place hplace rfl
  have hself : n.self = loop := hself
  subst hself
  subst hbself
  obtain ⟨next, hread, hcell⟩ := read_base wf hn hb
  have hok := (wf.loopNodes n hn).baseNodes b hb
  have hnot : ¬ From next (some b.self) :=
    (wf.loopNodes n hn).ascendingBases.not_from_next hcell
  rw [Pc.next, hread]
  dsimp only
  by_cases hevent : b.base = e.base
  · -- visited
    rw [if_pos hevent]
    have hhandlers : HandlersAt t.loopNodes n.self (some b.self) none ⟨e.base, anyId⟩
        b.handlers := hevent ▸ .base hn hb
    refine ⟨⟨hevent ▸ base_place_mem hn hb, hlater, laterBase_next wf hn hcell,
      handlerIn_head hhandlers⟩, ?_, ?_, .inl ⟨?_, Nat.le_refl _⟩⟩
    · rintro q hq (⟨-, h, -⟩ | ⟨-, h⟩ | ⟨hloop, h⟩ | h)
      · exact .inl ⟨(loop_of_base wf hn hb hq h).1, from_of_eq h⟩
      · exact .inl ⟨(loop_of_base wf hn hb hq h).1, from_of_eq h⟩
      · exact .inl ⟨hloop, (from_base_next wf hn hcell hq hloop).mpr (.inr h)⟩
      · exact .inr h
    · rintro q hq hnode - (⟨hloop, h⟩ | h)
      · rcases (from_base_next wf hn hcell hq hloop).mp h with h | h
        · by_cases hid : q.idNode = none
          · obtain ⟨c, hc⟩ := Option.isSome_iff_exists.mp hnode
            obtain ⟨-, x, hx, rfl⟩ := handlers_of_base wf hn hb hq h hid hc
            refine .inl ⟨hid, h, ?_⟩
            rw [hc]
            exact hok.ascending.from_head hx
          · exact .inr (.inl ⟨hid, h⟩)
        · exact .inr (.inr (.inl ⟨hloop, h⟩))
      · exact .inr (.inr (.inr h))
    · refine ⟨_, hplace, .inl ⟨rfl, Nat.le_refl _⟩, ?_⟩
      rintro (⟨-, -, h⟩ | ⟨h, -⟩ | ⟨-, h⟩ | h)
      · exact not_from_of_none h
      · exact h rfl
      · exact hnot h
      · exact hlater.not_from h
  · -- passed over
    rw [if_neg hevent]
    refine ⟨⟨hlater, fun a ha => (laterBase_next wf hn hcell a ha).2⟩, ?_, ?_,
      .inl ⟨?_, Nat.le_add_right _ _⟩⟩
    · rintro q hq (⟨hloop, h⟩ | h)
      · exact .inl ⟨hloop, (from_base_next wf hn hcell hq hloop).mpr (.inr h)⟩
      · exact .inr h
    · rintro q hq - hm (⟨hloop, h⟩ | h)
      · rcases (from_base_next wf hn hcell hq hloop).mp h with h | h
        · exact absurd (base_of_matches wf hn hb hq h hm) hevent
        · exact .inl ⟨hloop, h⟩
      · exact .inr h
    · refine ⟨_, hplace, .inl ⟨rfl, Nat.le_refl _⟩, ?_⟩
      rintro (⟨-, h⟩ | h)
      · exact hnot h
      · exact hlater.not_from h

/-- At the end of a base node's handlers the walk goes on to its id nodes. -/
theorem next_baseHandler {loop base : Block} {tempNode tempBase : Option Block}
    (h : Pc.Good t.loopNodes e (.baseHandler loop tempNode base tempBase none)) :
    Quiet t.loopNodes e (.baseHandler loop tempNode base tempBase none)
      (Pc.next t.loopNodes e (.baseHandler loop tempNode base tempBase none)) := by
  obtain ⟨hplace, hlater, hlaterBase, -⟩ := h
  obtain ⟨n, hn, hself, b, hb, hbself, hevent⟩ := base_of_place hplace rfl
  have hself : n.self = loop := hself
  have hevent : b.base = e.base := hevent
  subst hself
  subst hbself
  obtain ⟨next, hread, hcell⟩ := read_base wf hn hb
  rw [Pc.next, hread]
  dsimp only
  refine ⟨⟨hlater, hlaterBase, fun a ha => ?_⟩, ?_, ?_, .inr (Nat.lt_succ_self _)⟩
  · obtain ⟨i, hi, rfl⟩ := Option.map_eq_some_iff.mp ha
    exact ⟨i.id, hevent ▸ id_place_mem hn hb (List.mem_of_mem_head? hi)⟩
  · rintro q hq (⟨hbase, h⟩ | h)
    · refine .inr (.inl ⟨fun hnone => ?_, hbase⟩)
      rw [hnone] at h
      exact not_from_of_none h
    · exact .inr (.inr h)
  · rintro q hq - - (⟨-, -, h⟩ | ⟨hid, hbase⟩ | h)
    · exact absurd h not_from_none
    · -- below the node: its id nodes are visited from the head on
      obtain ⟨I, hI⟩ := Option.ne_none_iff_exists'.mp hid
      obtain ⟨m, hm, -, c, hc, hbase', i, hi, rfl, -⟩ := id_of_place hq hI
      obtain ⟨rfl, rfl⟩ := wf.base_unique hm hc hn hb (Option.some.inj (hbase'.symm.trans hbase))
      refine .inl ⟨hbase, ?_⟩
      rw [hI]
      exact ((wf.loopNodes m hm).baseNodes c hc).ascendingIds.from_head hi
    · exact .inr h

/-- A matching handler is not below an id node of another id. -/
theorem id_of_matches {n : LoopNode} {b : BaseNode} {i : IdNode} (hn : n ∈ t.loopNodes)
    (hb : b ∈ n.baseNodes) (hi : i ∈ b.idNodes) {p : Place} (hp : p ∈ places t.loopNodes)
    (hid : p.idNode = some i.self) (hm : Matches e p.key) : i.id = e.id := by
  have hok := (wf.loopNodes n hn).baseNodes b hb
  rw [(base_of_id wf hn hb hi hp hid).2.2, matches_id hok.notAny (hok.idNodes i hi).notAny] at hm
  exact hm.2

/-- The id nodes below a base node have different ids: a matching handler is below one. -/
theorem idNode_of_matches {n : LoopNode} {b : BaseNode} {i : IdNode} (hn : n ∈ t.loopNodes)
    (hb : b ∈ n.baseNodes) (hi : i ∈ b.idNodes) (hevent : i.id = e.id) {p : Place}
    (hp : p ∈ places t.loopNodes) (hbase : p.base = some b.self) {id : Block}
    (hid : p.idNode = some id) (hm : Matches e p.key) : id = i.self := by
  obtain ⟨m, hm', -, c, hc, hbase', j, hj, rfl, -⟩ := id_of_place hp hid
  obtain ⟨rfl, rfl⟩ := wf.base_unique hm' hc hn hb (Option.some.inj (hbase'.symm.trans hbase))
  have hjid := id_of_matches wf hm' hc hj hp hid hm
  have hok := (wf.loopNodes m hm').baseNodes c hc
  rw [List.inj_on_of_nodup_map hok.distinct hj hi (hjid.trans hevent.symm)]

/-- An id node of another id is skipped, and nothing of the event with it. -/
theorem next_idNode {loop base p : Block} {tempNode tempBase : Option Block}
    (h : Pc.Good t.loopNodes e (.idNode loop tempNode base tempBase (some p))) :
    Quiet t.loopNodes e (.idNode loop tempNode base tempBase (some p))
      (Pc.next t.loopNodes e (.idNode loop tempNode base tempBase (some p))) := by
  obtain ⟨hlater, hlaterBase, hid⟩ := h
  obtain ⟨id, hplace⟩ := hid p rfl
  obtain ⟨n, hn, hself, b, hb, hbplace', i, hi, hiself, hkey⟩ := id_of_place hplace rfl
  have hself : n.self = loop := hself
  have hbself : base = b.self := Option.some.inj hbplace'
  have hbase : b.base = e.base := (congrArg EventId.base hkey).symm
  subst hself
  subst hbself
  subst hiself
  obtain ⟨next, hread, hcell⟩ := read_id wf hn hb hi
  have hok := (wf.loopNodes n hn).baseNodes b hb
  have hnot : ¬ From next (some i.self) := hok.ascendingIds.not_from_next hcell
  rw [Pc.next, hread]
  dsimp only
  by_cases hevent : i.id = e.id
  · -- visited, and then `break`
    rw [if_pos hevent]
    have hhandlers : HandlersAt t.loopNodes n.self (some b.self) (some i.self) e i.handlers := by
      have h := HandlersAt.id hn hb hi
      rwa [hbase, hevent] at h
    refine ⟨⟨hlater, hlaterBase, handlerIn_head hhandlers⟩, ?_, ?_,
      .inl ⟨?_, Nat.le_add_right _ _⟩⟩
    · rintro q hq (⟨h, -⟩ | h)
      · exact .inl ⟨(base_of_id wf hn hb hi hq h).2.1, from_of_eq h⟩
      · exact .inr h
    · rintro q hq hnode hm (⟨hqbase, h⟩ | h)
      · obtain ⟨I, hI⟩ := exists_of_from h
        obtain rfl := idNode_of_matches wf hn hb hi hevent hq hqbase hI hm
        obtain ⟨d, hd⟩ := Option.isSome_iff_exists.mp hnode
        obtain ⟨x, hx, rfl⟩ := handlers_of_id wf hn hb hi hq hI hd
        refine .inl ⟨hI, ?_⟩
        rw [hd]
        exact (hok.idNodes i hi).ascending.from_head hx
      · exact .inr h
    · refine ⟨_, hplace, .inl ⟨rfl, Nat.le_refl _⟩, ?_⟩
      rintro (⟨-, h⟩ | ⟨-, h⟩ | h)
      · exact not_from_of_none h
      · exact hlaterBase.not_from h
      · exact hlater.not_from h
  · -- passed over
    rw [if_neg hevent]
    refine ⟨⟨hlater, hlaterBase, fun a ha => ?_⟩, ?_, ?_,
      .inl ⟨?_, Nat.le_add_right _ _⟩⟩
    · obtain ⟨-, j, hj, rfl⟩ := hok.ascendingIds.next_lt hcell ha
      exact ⟨j.id, hbase ▸ id_place_mem hn hb hj⟩
    · rintro q hq (⟨hqbase, h⟩ | h)
      · exact .inl ⟨hqbase, (from_id_next wf hn hb hcell hq hqbase).mpr (.inr h)⟩
      · exact .inr h
    · rintro q hq - hm (⟨hqbase, h⟩ | h)
      · rcases (from_id_next wf hn hb hcell hq hqbase).mp h with h | h
        · exact absurd (id_of_matches wf hn hb hi hq h hm) hevent
        · exact .inl ⟨hqbase, h⟩
      · exact .inr h
    · refine ⟨_, hplace, .inl ⟨rfl, Nat.le_refl _⟩, ?_⟩
      rintro (⟨-, h⟩ | ⟨-, h⟩ | h)
      · exact hnot h
      · exact hlaterBase.not_from h
      · exact hlater.not_from h

/-- A step that runs no handler. -/
theorem next_quiet {pc : Pc} (h : pc.Good t.loopNodes e) (hnone : pc.handler = none)
    (hdone : pc ≠ .done) : Quiet t.loopNodes e pc (pc.next t.loopNodes e) := by
  cases pc with
  | loopNode loop =>
    cases loop with
    | none =>
      refine ⟨trivial, fun _ _ h => h.elim, fun q _ _ _ h => ?_, .inr (Nat.lt_succ_self _)⟩
      exact absurd (show From none (some q.loop) from h) not_from_none
    | some p => exact next_loopNode wf (h p rfl)
  | loopHandler loop tempNode handler =>
    cases handler with
    | none => exact next_loopHandler wf h
    | some a => cases hnone
  | baseNode loop tempNode base =>
    cases base with
    | none =>
      refine ⟨fun a ha => (h.1 a ha).2, fun _ _ h => .inr h, ?_, .inr (Nat.lt_succ_self _)⟩
      rintro q - - - (⟨-, h⟩ | h)
      · exact absurd h not_from_none
      · exact h
    | some p => exact next_baseNode wf h
  | baseHandler loop tempNode base tempBase handler =>
    cases handler with
    | none => exact next_baseHandler wf h
    | some a => cases hnone
  | idNode loop tempNode base tempBase id =>
    cases id with
    | none =>
      obtain ⟨hlater, hlaterBase, -⟩ := h
      refine ⟨⟨hlater, fun a ha => (hlaterBase a ha).2⟩, fun _ _ h => .inr h, ?_,
        .inr (Nat.lt_succ_self _)⟩
      rintro q - - - (⟨-, h⟩ | h)
      · exact absurd h not_from_none
      · exact h
    | some p => exact next_idNode wf h
  | idHandler loop tempNode base tempBase id handler =>
    cases handler with
    | none =>
      obtain ⟨hlater, hlaterBase, -⟩ := h
      refine ⟨⟨hlater, fun a ha => (hlaterBase a ha).2⟩, fun _ _ h => .inr h, ?_,
        .inr (Nat.lt_succ_self _)⟩
      rintro q - - - (⟨-, h⟩ | h)
      · exact absurd h not_from_none
      · exact h
    | some a => cases hnone
  | done => exact absurd rfl hdone
  | fault => exact h.elim

end Next

/-! ## The order of the slots -/

/-- `p` stands above `q` in the tree, or in front of it. -/
def Before (p q : Place) : Prop :=
  p.loop.serial < q.loop.serial ∨
    (p.loop = q.loop ∧ ((p.base = none ∧ q.base ≠ none) ∨
      (∃ a b, p.base = some a ∧ q.base = some b ∧ a.serial < b.serial) ∨
      (p.base = q.base ∧ p.idNode = none ∧ q.idNode ≠ none)))

section Order

/-- Registrations of a later loop node come later. -/
theorem not_before_of_loop {p q : Place} (h : q.loop.serial < p.loop.serial) : ¬ Before p q := by
  rintro (hlt | ⟨heq, -⟩)
  · exact absurd h (Nat.lt_asymm hlt)
  · rw [heq] at h
    exact Nat.lt_irrefl _ h

/-- The handlers of a loop node come before its base nodes. -/
theorem not_before_of_above {p q : Place} (hloop : p.loop = q.loop) (hp : p.base ≠ none)
    (hq : q.base = none) : ¬ Before p q := by
  rintro (hlt | ⟨-, ⟨h, -⟩ | ⟨a, b, -, h, -⟩ | ⟨h, -⟩⟩)
  · rw [hloop] at hlt
    exact Nat.lt_irrefl _ hlt
  · exact hp h
  · rw [hq] at h
    cases h
  · exact hp (h.trans hq)

/-- Registrations of a later base node come later. -/
theorem not_before_of_base {p q : Place} {a b : Block} (hloop : p.loop = q.loop)
    (hp : p.base = some b) (hq : q.base = some a) (h : a.serial < b.serial) : ¬ Before p q := by
  rintro (hlt | ⟨-, ⟨hnone, -⟩ | ⟨c, d, hc, hd, hcd⟩ | ⟨heq, -⟩⟩)
  · rw [hloop] at hlt
    exact Nat.lt_irrefl _ hlt
  · rw [hp] at hnone
    cases hnone
  · rw [hp, Option.some.injEq] at hc
    rw [hq, Option.some.injEq] at hd
    subst hc hd
    exact Nat.lt_asymm h hcd
  · rw [hp, hq, Option.some.injEq] at heq
    rw [heq] at h
    exact Nat.lt_irrefl _ h

/-- The handlers of a base node come before its id nodes. -/
theorem not_before_of_same {p q : Place} (hloop : p.loop = q.loop) (hbase : p.base = q.base)
    (hid : q.idNode = none ∨ p.idNode ≠ none) : ¬ Before p q := by
  rintro (hlt | ⟨-, ⟨hp, hq⟩ | ⟨a, b, ha, hb, hab⟩ | ⟨-, hp, hq⟩⟩)
  · rw [hloop] at hlt
    exact Nat.lt_irrefl _ hlt
  · exact hq (hbase ▸ hp)
  · rw [← hbase, ha, Option.some.injEq] at hb
    rw [hb] at hab
    exact Nat.lt_irrefl _ hab
  · exact hid.elim hq fun h => h hp

/-- A registration below a base node names it. -/
theorem mem_base_slots {loop : Block} {b : BaseNode} {s : Slot} (h : s ∈ b.slots loop) :
    s.loop = loop ∧ s.base = some b.self := by
  rcases List.mem_append.mp h with h | h
  · obtain ⟨_, -, rfl⟩ := List.mem_map.mp h
    exact ⟨rfl, rfl⟩
  · obtain ⟨i, -, h⟩ := List.mem_flatMap.mp h
    obtain ⟨_, -, rfl⟩ := List.mem_map.mp h
    exact ⟨rfl, rfl⟩

/-- A registration below a loop node names it. -/
theorem mem_loop_slots {n : LoopNode} {s : Slot} (h : s ∈ n.slots) : s.loop = n.self := by
  rcases List.mem_append.mp h with h | h
  · obtain ⟨_, -, rfl⟩ := List.mem_map.mp h
    rfl
  · obtain ⟨b, -, h⟩ := List.mem_flatMap.mp h
    exact (mem_base_slots h).1

/-- Below a base node, registrations stand in the order of the dispatch. -/
theorem base_slots_not_before (loop : Block) (b : BaseNode) :
    (b.slots loop).Pairwise fun x y => ¬ Before y.place x.place := by
  have hid : ∀ y ∈ b.idNodes.flatMap (IdNode.slots loop b.self b.base),
      y.idNode ≠ none := by
    intro y hy
    obtain ⟨i, -, hy⟩ := List.mem_flatMap.mp hy
    obtain ⟨_, -, rfl⟩ := List.mem_map.mp hy
    exact nofun
  have hsame : ∀ x ∈ b.slots loop, ∀ y ∈ b.slots loop, x.idNode = none ∨ y.idNode ≠ none →
      ¬ Before y.place x.place := by
    intro x hx y hy h
    obtain ⟨hxl, hxb⟩ := mem_base_slots hx
    obtain ⟨hyl, hyb⟩ := mem_base_slots hy
    exact not_before_of_same (hyl.trans hxl.symm) (hyb.trans hxb.symm) h
  refine List.pairwise_append.mpr ⟨List.pairwise_of_forall_mem_list fun x hx y hy => ?_,
    List.pairwise_of_forall_mem_list fun x hx y hy => ?_, fun x hx y hy => ?_⟩
  · refine hsame x (List.mem_append_left _ hx) y (List.mem_append_left _ hy) (.inl ?_)
    obtain ⟨_, -, rfl⟩ := List.mem_map.mp hx
    rfl
  · exact hsame x (List.mem_append_right _ hx) y (List.mem_append_right _ hy) (.inr (hid y hy))
  · exact hsame x (List.mem_append_left _ hx) y (List.mem_append_right _ hy) (.inr (hid y hy))

variable {t : Registry}

/-- No slot is before one that it comes behind. -/
theorem slots_not_before (wf : Wf t) :
    (slots t.loopNodes).Pairwise fun x y => ¬ Before y.place x.place := by
  refine List.pairwise_flatMap.mpr ⟨fun n hn => ?_, wf.ascending.imp ?_⟩
  · refine List.pairwise_append.mpr ⟨List.pairwise_of_forall_mem_list fun x hx y hy => ?_,
      List.pairwise_flatMap.mpr ⟨fun b _ => base_slots_not_before n.self b,
        (wf.loopNodes n hn).ascendingBases.imp ?_⟩, fun x hx y hy => ?_⟩
    · obtain ⟨_, -, rfl⟩ := List.mem_map.mp hx
      obtain ⟨_, -, rfl⟩ := List.mem_map.mp hy
      exact not_before_of_same rfl rfl (.inl rfl)
    · intro b c hlt x hx y hy
      obtain ⟨hxl, hxb⟩ := mem_base_slots hx
      obtain ⟨hyl, hyb⟩ := mem_base_slots hy
      exact not_before_of_base (hyl.trans hxl.symm) hyb hxb hlt
    · obtain ⟨_, -, rfl⟩ := List.mem_map.mp hx
      obtain ⟨b, -, hy⟩ := List.mem_flatMap.mp hy
      obtain ⟨hyl, hyb⟩ := mem_base_slots hy
      exact not_before_of_above hyl (fun h => by cases hyb.symm.trans h) rfl
  · intro n m hlt x hx y hy
    refine not_before_of_loop ?_
    show x.loop.serial < y.loop.serial
    rw [mem_loop_slots hx, mem_loop_slots hy]
    exact hlt

/-- Of two slots that an event runs, one that is before the other was registered
before it. -/
theorem serial_of_before (wf : Wf t) (ho : Ordered (slots t.loopNodes)) {e : EventId}
    {s s' : Slot} (hs : s ∈ slots t.loopNodes) (hs' : s' ∈ slots t.loopNodes)
    (hm : Matches e s.key) (hm' : Matches e s'.key) (h : Before s.place s'.place) :
    s.node.self.serial < s'.node.self.serial := by
  have hne : s ≠ s' := by
    rintro rfl
    exact not_before_of_same rfl rfl (or_not_of_imp id) h
  rcases rel_or_rel ((slots_not_before wf).and ho) hs hs' hne with hrel | hrel
  · exact hrel.2 fun hapart => hapart e hm hm'
  · exact absurd h hrel.1

end Order

/-! ## Steps that run a handler -/

/-- What a step that runs the handler of the slot `s` does, up to the calls that the
handler makes. -/
structure Ran (l : List LoopNode) (e : EventId) (pc : Pc) (s : Slot) (pc' : Pc) : Prop where
  good : pc'.Good l e
  slot : s ∈ slots l
  matched : Matches e s.key
  ahead : pc.ahead s.place
  passed : ¬ pc'.ahead s.place
  mono : ∀ p ∈ places l, pc'.ahead p → pc.ahead p
  keeps : ∀ x ∈ slots l, pc.ahead x.place → x = s ∨ pc'.ahead x.place
  first : ∀ x ∈ slots l, pc.ahead x.place →
    s.node.self.serial ≤ x.node.self.serial ∨ Before s.place x.place

section Ran

variable {t : Registry} {e : EventId}

/-- A step along a list of handlers. `cursor h` is the walk before the node at `h`,
`inList` tells the places directly below the list, and `behind` those that come after
the list. -/
theorem ran_of_handlersAt (wf : Wf t) {loop : Block} {base idNode : Option Block}
    {key : EventId} {handlers : List HandlerNode}
    (hat : HandlersAt t.loopNodes loop base idNode key handlers) (hm : Matches e key)
    {x : HandlerNode} {next : Option Block} (hcell : (x, next) ∈ cells HandlerNode.self handlers)
    (cursor : Option Block → Pc) (inList behind : Place → Prop)
    (hahead : ∀ h p, (cursor h).ahead p ↔ (inList p ∧ From h p.node) ∨ behind p)
    (hin : ∀ p ∈ places t.loopNodes, inList p → ∀ c, p.node = some c →
      ∃ y ∈ handlers, y.self = c)
    (hself : inList (Slot.mk loop base idNode key x).place)
    (hbehind : ∀ p ∈ places t.loopNodes, behind p → Before (Slot.mk loop base idNode key x).place p)
    (hgood : (∀ a, next = some a → (⟨loop, base, idNode, some a, none, key⟩ : Place) ∈
      places t.loopNodes) → (cursor next).Good t.loopNodes e) :
    Ran t.loopNodes e (cursor (some x.self)) ⟨loop, base, idNode, key, x⟩ (cursor next) := by
  have hasc := hat.ascending wf
  have hx := mem_of_mem_cells hcell
  have hslot : Slot.mk loop base idNode key x ∈ slots t.loopNodes :=
    mem_slots_iff.mpr ⟨handlers, hat, hx⟩
  have hfrom : ∀ p ∈ places t.loopNodes, inList p → From (some x.self) p.node →
      p.node = some x.self ∨ From next p.node := by
    intro p hp hlist hp'
    obtain ⟨c, hc⟩ := exists_of_from hp'
    obtain ⟨y, hy, rfl⟩ := hin p hp hlist c hc
    rw [hc] at hp' ⊢
    exact ((hasc.from_next hcell hy).mp hp').imp_left fun h => by rw [h]
  refine ⟨hgood fun a ha => ?_, hslot, hm, ?_, fun h => ?_, fun p hp h => ?_, fun y hy h => ?_,
    fun y hy h => ?_⟩
  · obtain ⟨-, y, hy, rfl⟩ := hasc.next_lt hcell ha
    exact place_of_handlersAt hat hy
  · exact (hahead _ _).mpr (.inl ⟨hself, Nat.le_refl _⟩)
  · rcases (hahead _ _).mp h with ⟨-, h⟩ | h
    · exact hasc.not_from_next hcell h
    · exact not_before_of_same rfl rfl (or_not_of_imp id) (hbehind _ (slot_place_mem hslot) h)
  · refine (hahead _ _).mpr (((hahead _ _).mp h).imp_left fun ⟨hlist, h⟩ => ⟨hlist, ?_⟩)
    obtain ⟨c, hc⟩ := exists_of_from h
    obtain ⟨y, hy, rfl⟩ := hin p hp hlist c hc
    rw [hc] at h ⊢
    exact (hasc.from_next hcell hy).mpr (.inr h)
  · rcases (hahead _ _).mp h with ⟨hlist, h⟩ | h
    · rcases hfrom _ (slot_place_mem hy) hlist h with h | h
      · -- the same block, so the same slot
        refine .inl (List.inj_on_of_nodup_map wf.node_nodup hy hslot ?_)
        exact Option.some.inj h
      · exact .inr ((hahead _ _).mpr (.inl ⟨hlist, h⟩))
    · exact .inr ((hahead _ _).mpr (.inr h))
  · rcases (hahead _ _).mp h with ⟨-, h⟩ | h
    · exact .inl h
    · exact .inr (hbehind _ (slot_place_mem hy) h)

/-- A later loop node is before. -/
theorem before_of_laterLoop {loop : Block} {tempNode : Option Block}
    (h : LaterLoop t.loopNodes loop tempNode) {p q : Place} (hp : p.loop = loop)
    (hq : From tempNode (some q.loop)) : Before p q := by
  cases tempNode with
  | none => exact absurd hq not_from_none
  | some a =>
    refine .inl ?_
    rw [hp]
    exact Nat.lt_of_lt_of_le (h a rfl).1 hq

/-- What lies behind a base node comes later. -/
theorem before_of_laterBase {loop base : Block} {tempBase : Option Block}
    (h : LaterBase t.loopNodes loop base tempBase) {p q : Place} (hp : p.loop = loop)
    (hpb : p.base = some base) (hql : q.loop = loop) (hq : From tempBase q.base) :
    Before p q := by
  cases tempBase with
  | none => exact absurd hq not_from_none
  | some a =>
    obtain ⟨b, hb⟩ := exists_of_from hq
    rw [hb] at hq
    refine .inr ⟨hp.trans hql.symm, .inr (.inl ⟨base, b, hpb, hb, ?_⟩)⟩
    exact Nat.lt_of_lt_of_le (h a rfl).1 hq

/-- A step at a handler finds it, and runs it. -/
theorem handler_ran (wf : Wf t) {pc : Pc} (hgood : pc.Good t.loopNodes e) {h : Block}
    {cursor : Option Block → Pc} (hpc : pc.handler = some (h, cursor)) :
    ∃ x next s, read HandlerNode.self (handlerCells t.loopNodes) h = some (x, next) ∧
      s.node = x ∧ Ran t.loopNodes e pc s (cursor next) := by
  cases pc with
  | loopHandler loop tempNode handler =>
    cases handler with
    | none => cases hpc
    | some a =>
      cases hpc
      obtain ⟨hloop, hlater, hin⟩ := hgood
      obtain ⟨handlers, hat, x, hx, rfl⟩ := handlersAt_of_place (hin _ rfl) rfl
      obtain ⟨next, hread, hcell⟩ := read_handler wf hat hx
      refine ⟨x, next, ⟨_, _, _, _, x⟩, hread, rfl, ran_of_handlersAt wf hat (matches_anyEvent e)
        hcell (.loopHandler loop tempNode) (fun p => p.base = none ∧ p.loop = loop)
        (fun p => (p.base ≠ none ∧ p.loop = loop) ∨ From tempNode (some p.loop))
        (fun h p => by simp only [Pc.ahead, and_assoc]) (fun p hp hlist c hc => ?_) ⟨rfl, rfl⟩
        (fun p _ hp => ?_) fun hin => ⟨hloop, hlater, hin⟩⟩
      · cases hat with
        | loop hn => exact (handlers_of_loop wf hn hp hlist.2 hlist.1 hc).2
      · rcases hp with ⟨hbase, hl⟩ | h
        · exact .inr ⟨hl.symm, .inl ⟨rfl, hbase⟩⟩
        · exact before_of_laterLoop hlater rfl h
  | baseHandler loop tempNode base tempBase handler =>
    cases handler with
    | none => cases hpc
    | some a =>
      cases hpc
      obtain ⟨hplace, hlater, hlaterBase, hin⟩ := hgood
      obtain ⟨handlers, hat, x, hx, rfl⟩ := handlersAt_of_place (hin _ rfl) rfl
      obtain ⟨next, hread, hcell⟩ := read_handler wf hat hx
      have hm : Matches e ⟨e.base, anyId⟩ := .inr ⟨rfl, .inl rfl⟩
      refine ⟨x, next, ⟨_, _, _, _, x⟩, hread, rfl, ran_of_handlersAt wf hat hm hcell
        (.baseHandler loop tempNode base tempBase)
        (fun p => p.idNode = none ∧ p.base = some base)
        (fun p => (p.idNode ≠ none ∧ p.base = some base) ∨
          (p.loop = loop ∧ From tempBase p.base) ∨ From tempNode (some p.loop))
        (fun h p => by simp only [Pc.ahead, and_assoc]) (fun p hp hlist c hc => ?_) ⟨rfl, rfl⟩
        (fun p hp hbehind => ?_) fun hin => ⟨hplace, hlater, hlaterBase, hin⟩⟩
      · obtain ⟨n, hn, -, b, hb, rfl, rfl⟩ := hat.base_inv
        exact (handlers_of_base wf hn hb hp hlist.2 hlist.1 hc).2
      · rcases hbehind with ⟨hid, hbase⟩ | ⟨hl, h⟩ | h
        · refine .inr ⟨?_, .inr (.inr ⟨hbase.symm, rfl, hid⟩)⟩
          obtain ⟨n, hn, rfl, b, hb, rfl, -⟩ := hat.base_inv
          exact (loop_of_base wf hn hb hp hbase).1.symm
        · exact before_of_laterBase hlaterBase rfl rfl hl h
        · exact before_of_laterLoop hlater rfl h
  | idHandler loop tempNode base tempBase id handler =>
    cases handler with
    | none => cases hpc
    | some a =>
      cases hpc
      obtain ⟨hlater, hlaterBase, hin⟩ := hgood
      obtain ⟨handlers, hat, x, hx, rfl⟩ := handlersAt_of_place (hin _ rfl) rfl
      obtain ⟨next, hread, hcell⟩ := read_handler wf hat hx
      have hm : Matches e e := .inr ⟨rfl, .inr rfl⟩
      refine ⟨x, next, ⟨_, _, _, _, x⟩, hread, rfl, ran_of_handlersAt wf hat hm hcell
        (.idHandler loop tempNode base tempBase id) (fun p => p.idNode = some id)
        (fun p => (p.loop = loop ∧ From tempBase p.base) ∨ From tempNode (some p.loop))
        (fun h p => Iff.rfl) (fun p hp hlist c hc => ?_) rfl
        (fun p hp hbehind => ?_) fun hin => ⟨hlater, hlaterBase, hin⟩⟩
      · obtain ⟨n, hn, -, b, hb, -, i, hi, rfl, rfl⟩ := hat.id_inv
        exact handlers_of_id wf hn hb hi hp hlist hc
      · rcases hbehind with ⟨hl, h⟩ | h
        · exact before_of_laterBase hlaterBase rfl rfl hl h
        · exact before_of_laterLoop hlater rfl h
  | loopNode | baseNode | idNode | done | fault => cases hpc

end Ran

end PicoHost.Event
