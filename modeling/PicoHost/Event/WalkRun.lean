import PicoHost.Event.WalkSteps
import PicoHost.Lib.Run

/-!
# One step of a dispatch whose handlers change the registrations

`WalkInv` is what holds along a walk as long as the calls of the handlers free no node
that the walk holds a pointer to (`Meets`). A step keeps it (`WalkInv.step`), and
while a matching handler waits for its turn a step runs one of them or comes nearer to
the next (`WalkInv.step_owed`).
-/

namespace PicoHost.Event

open Chain

/-! ## What the walk holds -/

/-- The nodes that the walk holds a pointer to and reads later. -/
def Pc.held : Pc → List Block
  | .loopNode loop => loop.toList
  | .loopHandler loop tempNode h => loop :: tempNode.toList ++ h.toList
  | .baseNode _ tempNode base => tempNode.toList ++ base.toList
  | .baseHandler _ tempNode base tempBase h =>
    base :: tempNode.toList ++ tempBase.toList ++ h.toList
  | .idNode _ tempNode _ tempBase id => tempNode.toList ++ tempBase.toList ++ id.toList
  | .idHandler _ tempNode _ tempBase _ h => tempNode.toList ++ tempBase.toList ++ h.toList
  | .done => []
  | .fault => []

/-- The calls of the handler that the step runs, if it runs one, free no node that
the walk holds when the handler returns. -/
def Walk.Meets (A : Allocator) (e : EventId) (w : Walk) (calls : List Call) : Prop :=
  w.pc.handler.isSome →
    ∀ b ∈ (w.step A e calls).pc.held, b ∈ (applyAll A w.registry calls).heap.live

instance (A : Allocator) (e : EventId) (w : Walk) (calls : List Call) :
    Decidable (w.Meets A e calls) := inferInstanceAs (Decidable (_ → _))

/-- A block that is older than some calls and live after them was live before. -/
theorem Evolves.live {t t' : Registry} (ev : Evolves t t') (wf : Wf t) (wf' : Wf t') {b : Block}
    (hlt : b.serial < t.heap.serial) (hlive : b ∈ t'.heap.live) : b ∈ t.heap.live := by
  obtain ⟨p, hp, hblock⟩ := (wf'.place_live (p := loopPlace b)).mp hlive
  have hblock : p.block = b := hblock
  have hold : p.block.serial < t.heap.serial := by
    rw [hblock]
    exact hlt
  exact (wf.place_live (p := loopPlace b)).mpr ⟨p, ev.place hp hold, hblock⟩

/-- Calls that free no held node leave the pointers good. -/
theorem Pc.Good.evolves {t t' : Registry} {e : EventId} {pc : Pc} (h : pc.Good t.loopNodes e)
    (ev : Evolves t t') (wf : Wf t) (wf' : Wf t') (hheld : ∀ b ∈ pc.held, b ∈ t'.heap.live) :
    pc.Good t'.loopNodes e := by
  have hstays : ∀ {p : Place}, p ∈ places t.loopNodes → p.block ∈ pc.held →
      p ∈ places t'.loopNodes := fun hp hb => ev.stays wf wf' hp (hheld _ hb)
  have hloop : ∀ {loop tempNode}, LaterLoop t.loopNodes loop tempNode →
      (∀ a, tempNode = some a → a ∈ pc.held) → LaterLoop t'.loopNodes loop tempNode := by
    rintro loop tempNode hl hsub a rfl
    exact ⟨(hl a rfl).1, hstays (hl a rfl).2 (hsub a rfl)⟩
  have hbase : ∀ {loop base tempBase}, LaterBase t.loopNodes loop base tempBase →
      (∀ a, tempBase = some a → a ∈ pc.held) → LaterBase t'.loopNodes loop base tempBase := by
    rintro loop base tempBase hb hsub a rfl
    obtain ⟨hlt, eventBase, hplace⟩ := hb a rfl
    exact ⟨hlt, eventBase, hstays hplace (hsub a rfl)⟩
  have hin : ∀ {loop base idNode key handler}, HandlerIn t.loopNodes loop base idNode key handler →
      (∀ a, handler = some a → a ∈ pc.held) → HandlerIn t'.loopNodes loop base idNode key handler := by
    rintro loop base idNode key handler hi hsub a rfl
    exact hstays (hi a rfl) (hsub a rfl)
  cases pc with
  | loopNode loop =>
    rintro a rfl
    exact hstays (h a rfl) (List.mem_cons_self ..)
  | loopHandler loop tempNode handler =>
    exact ⟨hstays h.1 (List.mem_cons_self ..), hloop h.2.1 (by simp +contextual [Pc.held]),
      hin h.2.2 (by simp +contextual [Pc.held])⟩
  | baseNode loop tempNode base =>
    refine ⟨hloop h.1 (by simp +contextual [Pc.held]), ?_⟩
    rintro a rfl
    obtain ⟨eventBase, hplace⟩ := h.2 a rfl
    exact ⟨eventBase, hstays hplace (List.mem_append_right _ (List.mem_cons_self ..))⟩
  | baseHandler loop tempNode base tempBase handler =>
    exact ⟨hstays h.1 (List.mem_cons_self ..), hloop h.2.1 (by simp +contextual [Pc.held]),
      hbase h.2.2.1 (by simp +contextual [Pc.held]), hin h.2.2.2 (by simp +contextual [Pc.held])⟩
  | idNode loop tempNode base tempBase id =>
    refine ⟨hloop h.1 (by simp +contextual [Pc.held]), hbase h.2.1 (by simp +contextual [Pc.held]),
      ?_⟩
    rintro a rfl
    obtain ⟨i, hplace⟩ := h.2.2 a rfl
    exact ⟨i, hstays hplace (List.mem_append_right _ (List.mem_cons_self ..))⟩
  | idHandler loop tempNode base tempBase id handler =>
    exact ⟨hloop h.1 (by simp +contextual [Pc.held]), hbase h.2.1 (by simp +contextual [Pc.held]),
      hin h.2.2 (by simp +contextual [Pc.held])⟩
  | done => trivial
  | fault => exact h

/-- Good pointers are to nodes of the tree. -/
theorem Pc.Good.held_place {l : List LoopNode} {e : EventId} {pc : Pc} (h : pc.Good l e)
    {b : Block} (hb : b ∈ pc.held) : ∃ p ∈ places l, p.block = b := by
  have hloop : ∀ {loop tempNode}, LaterLoop l loop tempNode → tempNode = some b →
      ∃ p ∈ places l, p.block = b := fun hl hb => ⟨_, (hl b hb).2, rfl⟩
  have hbase : ∀ {loop base tempBase}, LaterBase l loop base tempBase → tempBase = some b →
      ∃ p ∈ places l, p.block = b := by
    intro loop base tempBase hl hb
    obtain ⟨-, eventBase, hplace⟩ := hl b hb
    exact ⟨_, hplace, rfl⟩
  have hin : ∀ {loop base idNode key handler}, HandlerIn l loop base idNode key handler →
      handler = some b → ∃ p ∈ places l, p.block = b := fun hi hb => ⟨_, hi b hb, rfl⟩
  cases pc with
  | loopNode loop => exact ⟨_, h b (by simpa [Pc.held] using hb), rfl⟩
  | loopHandler loop tempNode handler =>
    simp only [Pc.held, List.mem_append, List.mem_cons, Option.mem_toList] at hb
    rcases hb with (rfl | hb) | hb
    · exact ⟨_, h.1, rfl⟩
    · exact hloop h.2.1 hb
    · exact hin h.2.2 hb
  | baseNode loop tempNode base =>
    simp only [Pc.held, List.mem_append, Option.mem_toList] at hb
    rcases hb with hb | hb
    · exact hloop h.1 hb
    · obtain ⟨eventBase, hplace⟩ := h.2 b hb
      exact ⟨_, hplace, rfl⟩
  | baseHandler loop tempNode base tempBase handler =>
    simp only [Pc.held, List.mem_append, List.mem_cons, Option.mem_toList] at hb
    rcases hb with ((rfl | hb) | hb) | hb
    · exact ⟨_, h.1, rfl⟩
    · exact hloop h.2.1 hb
    · exact hbase h.2.2.1 hb
    · exact hin h.2.2.2 hb
  | idNode loop tempNode base tempBase id =>
    simp only [Pc.held, List.mem_append, Option.mem_toList] at hb
    rcases hb with (hb | hb) | hb
    · exact hloop h.1 hb
    · exact hbase h.2.1 hb
    · obtain ⟨i, hplace⟩ := h.2.2 b hb
      exact ⟨_, hplace, rfl⟩
  | idHandler loop tempNode base tempBase id handler =>
    simp only [Pc.held, List.mem_append, Option.mem_toList] at hb
    rcases hb with (hb | hb) | hb
    · exact hloop h.1 hb
    · exact hbase h.2.1 hb
    · exact hin h.2.2 hb
  | done => cases hb
  | fault => cases hb

/-! ## The invariant of a walk -/

/-- The handler nodes that the walk has run. -/
def Walk.ran (w : Walk) : List Block := w.executed.map HandlerNode.self

/-- What holds along a walk that started on `t₀`, with calls that free no held node. -/
structure WalkInv (t₀ : Registry) (e : EventId) (w : Walk) : Prop where
  wf : Wf w.registry
  ordered : Ordered (slots w.registry.loopNodes)
  evolves : Evolves t₀ w.registry
  good : w.pc.Good w.registry.loopNodes e
  allocated : ∀ b ∈ w.ran, b.serial < w.registry.heap.serial
  nodup : w.ran.Nodup
  /-- What has run is not ahead. -/
  behind : ∀ s ∈ slots w.registry.loopNodes, s.node.self ∈ w.ran → ¬ w.pc.ahead s.place
  /-- What has not run is unregistered or ahead. -/
  pending : ∀ s ∈ slots t₀.loopNodes, Matches e s.key →
    s.node.self ∈ w.ran ∨ s.node.self ∉ w.registry.heap.live ∨ w.pc.ahead s.place

section Inv

variable {A : Allocator} {t₀ : Registry} {e : EventId} {w : Walk} {calls : List Call}

/-- A slot of the first registry that is still live. -/
theorem WalkInv.slot_of_live (inv : WalkInv t₀ e w) (wf₀ : Wf t₀) {s : Slot}
    (hs : s ∈ slots t₀.loopNodes) (hlive : s.node.self ∈ w.registry.heap.live) :
    ∃ x ∈ slots w.registry.loopNodes, x.place = s.place :=
  slot_of_place (inv.evolves.stays wf₀ inv.wf (slot_place_mem hs) hlive) rfl rfl

theorem walkInv_start (wf : Wf t₀) (ho : Ordered (slots t₀.loopNodes)) :
    WalkInv t₀ e (Walk.start t₀) where
  wf := wf
  ordered := ho
  evolves := Evolves.refl t₀
  good := by
    intro a ha
    obtain ⟨n, hn, rfl⟩ := Option.map_eq_some_iff.mp ha
    exact loop_place_mem (List.mem_of_mem_head? hn)
  allocated := nofun
  nodup := List.nodup_nil
  behind := nofun
  pending s hs _ := by
    obtain ⟨n, hn, hself⟩ := loop_of_place (slot_place_mem hs)
    refine .inr (.inr ?_)
    show From (t₀.loopNodes.head?.map LoopNode.self) (some s.loop)
    rw [← show n.self = s.loop from hself]
    exact wf.ascending.from_head hn

/-- A step that runs no handler. -/
theorem WalkInv.quiet (inv : WalkInv t₀ e w) (wf₀ : Wf t₀) (hnone : w.pc.handler = none)
    (hdone : w.pc ≠ .done) :
    WalkInv t₀ e { w with pc := w.pc.next w.registry.loopNodes e } := by
  have q := next_quiet inv.wf inv.good hnone hdone
  refine ⟨inv.wf, inv.ordered, inv.evolves, q.good, inv.allocated, inv.nodup,
    fun s hs hran hahead => ?_, fun s hs hm => ?_⟩
  · exact inv.behind s hs hran (q.mono _ (slot_place_mem hs) hahead)
  · rcases inv.pending s hs hm with h | h | h
    · exact .inl h
    · exact .inr (.inl h)
    · by_cases hlive : s.node.self ∈ w.registry.heap.live
      · have hplace := inv.evolves.stays wf₀ inv.wf (slot_place_mem hs) hlive
        exact .inr (.inr (q.keeps _ hplace rfl hm h))
      · exact .inr (.inl hlive)

/-- A step that runs the handler of the slot `s`, which makes `calls`. -/
theorem WalkInv.runs (inv : WalkInv t₀ e w) (wf₀ : Wf t₀) {s : Slot} {pc' : Pc}
    (r : Ran w.registry.loopNodes e w.pc s pc')
    (hheld : ∀ b ∈ pc'.held, b ∈ (applyAll A w.registry calls).heap.live) :
    WalkInv t₀ e ⟨applyAll A w.registry calls, pc', w.executed ++ [s.node]⟩ := by
  have wf' := applyAll_wf A inv.wf calls
  have ev := applyAll_evolves A inv.wf calls
  have hnew : s.node.self.serial < w.registry.heap.serial :=
    inv.wf.place_lt (slot_place_mem r.slot)
  have hran : ∀ b, b ∈ (w.executed ++ [s.node]).map HandlerNode.self ↔
      b ∈ w.ran ∨ b = s.node.self := by
    intro b
    rw [List.map_append, List.mem_append, List.map_singleton, List.mem_singleton]
    rfl
  refine ⟨wf', applyAll_ordered A inv.wf inv.ordered calls, inv.evolves.trans ev,
    r.good.evolves ev inv.wf wf' hheld, fun b hb => ?_, ?_, fun x hx hb hahead => ?_,
    fun x hx hm => ?_⟩
  · refine Nat.lt_of_lt_of_le ?_ ev.serial
    rcases (hran b).mp hb with hb | rfl
    · exact inv.allocated b hb
    · exact hnew
  · -- the handler was ahead, so it has not run before
    show ((w.executed ++ [s.node]).map HandlerNode.self).Nodup
    rw [List.map_append, List.map_singleton]
    refine List.nodup_append.mpr ⟨inv.nodup, List.nodup_singleton _, fun b hb c hc heq => ?_⟩
    rw [List.mem_singleton.mp hc] at heq
    exact inv.behind s r.slot (heq ▸ hb) r.ahead
  · -- what has run is where it was, behind the walk
    have hlt : x.place.block.serial < w.registry.heap.serial := by
      show x.node.self.serial < _
      rcases (hran _).mp hb with hb | hb
      · exact inv.allocated _ hb
      · rw [hb]
        exact hnew
    obtain ⟨y, hy, hplace⟩ := slot_of_place (ev.place (slot_place_mem hx) hlt) rfl rfl
    have hself : y.node.self = x.node.self := Option.some.inj (congrArg Place.node hplace)
    rw [← hplace] at hahead
    rcases (hran _).mp hb with hb | hb
    · exact inv.behind y hy (hself ▸ hb) (r.mono _ (slot_place_mem hy) hahead)
    · obtain rfl := List.inj_on_of_nodup_map inv.wf.node_nodup hy r.slot (hself.trans hb)
      exact r.passed hahead
  · rcases inv.pending x hx hm with h | h | h
    · exact .inl ((hran _).mpr (.inl h))
    · refine .inr (.inl fun hlive => h (ev.live inv.wf wf' ?_ hlive))
      exact Nat.lt_of_lt_of_le (wf₀.place_lt (slot_place_mem hx)) inv.evolves.serial
    · by_cases hlive : x.node.self ∈ w.registry.heap.live
      · obtain ⟨y, hy, hplace⟩ := inv.slot_of_live wf₀ hx hlive
        rcases r.keeps y hy (hplace ▸ h) with rfl | h'
        · exact .inl ((hran _).mpr (.inr (Option.some.inj (congrArg Place.node hplace)).symm))
        · exact .inr (.inr (hplace ▸ h'))
      · refine .inr (.inl fun hlive' => hlive (ev.live inv.wf wf' ?_ hlive'))
        exact Nat.lt_of_lt_of_le (wf₀.place_lt (slot_place_mem hx)) inv.evolves.serial

theorem WalkInv.step (inv : WalkInv t₀ e w) (wf₀ : Wf t₀) (hmeets : w.Meets A e calls) :
    WalkInv t₀ e (w.step A e calls) := by
  unfold Walk.Meets at hmeets
  unfold Walk.step at hmeets ⊢
  cases hpc : w.pc.handler with
  | none =>
    dsimp only
    by_cases hdone : w.pc = .done
    · rw [hdone]
      show WalkInv t₀ e { w with pc := .done }
      rw [← hdone]
      exact inv
    · exact inv.quiet wf₀ hpc hdone
  | some found =>
    obtain ⟨h, cursor⟩ := found
    obtain ⟨x, next, s, hread, rfl, r⟩ := handler_ran inv.wf inv.good hpc
    rw [hpc] at hmeets
    simp only [hread] at hmeets ⊢
    exact inv.runs wf₀ r (hmeets rfl)

/-! ## Every handler gets its turn -/

/-- A matching registration of `t₀` that the walk has neither run nor lost. -/
def Walk.Owes (e : EventId) (w : Walk) (s : Slot) : Prop :=
  Matches e s.key ∧ s.node.self ∉ w.ran ∧ s.node.self ∈ w.registry.heap.live

instance (e : EventId) (w : Walk) (s : Slot) : Decidable (w.Owes e s) :=
  inferInstanceAs (Decidable (_ ∧ _ ∧ _))

/-- How many registrations of `t₀` have still to be run. -/
def Walk.owed (t₀ : Registry) (e : EventId) (w : Walk) : Nat :=
  (slots t₀.loopNodes).countP fun s => decide (w.Owes e s)

/-- How many steps the walk takes at most before the next handler. -/
def Walk.distance (w : Walk) : Nat :=
  3 * (places w.registry.loopNodes).countP (fun p => decide (w.pc.ahead p)) + w.pc.phase

/-- What is owed is ahead. -/
theorem WalkInv.owes_ahead (inv : WalkInv t₀ e w) {s : Slot} (hs : s ∈ slots t₀.loopNodes)
    (howes : w.Owes e s) : w.pc.ahead s.place := by
  rcases inv.pending s hs howes.1 with h | h | h
  · exact absurd h howes.2.1
  · exact absurd howes.2.2 h
  · exact h

/-- A step that runs no handler comes nearer to the next one. -/
theorem WalkInv.quiet_distance (inv : WalkInv t₀ e w) (hnone : w.pc.handler = none)
    (hdone : w.pc ≠ .done) :
    Walk.distance { w with pc := w.pc.next w.registry.loopNodes e } < w.distance := by
  have q := next_quiet inv.wf inv.good hnone hdone
  unfold Walk.distance
  dsimp only
  rcases q.progress with ⟨⟨p, hp, hpc, hnext⟩, hphase⟩ | hphase
  · have hlt := Machine.countP_lt_countP q.mono hp hpc hnext
    omega
  · have hle := Machine.countP_le_countP q.mono
    omega

/-- Nothing that is not owed becomes owed. -/
theorem WalkInv.owes_of_runs (inv : WalkInv t₀ e w) (wf₀ : Wf t₀) {x s : Slot} {pc' : Pc}
    (hs : s ∈ slots t₀.loopNodes)
    (howes : Walk.Owes e ⟨applyAll A w.registry calls, pc', w.executed ++ [x.node]⟩ s) :
    w.Owes e s := by
  obtain ⟨hm, hran, hlive⟩ := howes
  refine ⟨hm, fun h => hran ?_, ?_⟩
  · show s.node.self ∈ (w.executed ++ [x.node]).map HandlerNode.self
    rw [List.map_append]
    exact List.mem_append_left _ h
  · refine (applyAll_evolves A inv.wf calls).live inv.wf (applyAll_wf A inv.wf calls) ?_ hlive
    exact Nat.lt_of_lt_of_le (wf₀.place_lt (slot_place_mem hs)) inv.evolves.serial

/-- As long as something is owed, a handler that runs is owed. -/
theorem WalkInv.runs_owed (inv : WalkInv t₀ e w) (wf₀ : Wf t₀) {x s : Slot} {pc' : Pc}
    (r : Ran w.registry.loopNodes e w.pc x pc') (hs : s ∈ slots t₀.loopNodes)
    (howes : w.Owes e s) : ∃ y ∈ slots t₀.loopNodes, w.Owes e y ∧ y.node.self = x.node.self := by
  obtain ⟨s', hs', hplace⟩ := inv.slot_of_live wf₀ hs howes.2.2
  have hself : s'.node.self = s.node.self := Option.some.inj (congrArg Place.node hplace)
  have hkey : s'.key = s.key := congrArg Place.key hplace
  have hahead : w.pc.ahead s'.place := hplace ▸ inv.owes_ahead hs howes
  -- the handler that runs was registered no later than what is owed
  have hle : x.node.self.serial ≤ s'.node.self.serial := by
    rcases r.first s' hs' hahead with h | h
    · exact h
    · exact Nat.le_of_lt
        (serial_of_before inv.wf inv.ordered r.slot hs' r.matched (hkey ▸ howes.1) h)
  have hold : x.place.block.serial < t₀.heap.serial := by
    show x.node.self.serial < _
    rw [hself] at hle
    exact Nat.lt_of_le_of_lt hle (wf₀.place_lt (slot_place_mem hs))
  obtain ⟨y, hy, hyx⟩ := slot_of_place (inv.evolves.place (slot_place_mem r.slot) hold) rfl rfl
  have hyself : y.node.self = x.node.self := Option.some.inj (congrArg Place.node hyx)
  have hykey : y.key = x.key := congrArg Place.key hyx
  refine ⟨y, hy, ⟨hykey ▸ r.matched, fun hran => ?_, ?_⟩, hyself⟩
  · exact inv.behind x r.slot (hyself ▸ hran) r.ahead
  · rw [hyself]
    exact inv.wf.node_live r.slot

/-- While something is owed, every step pays some of it or comes nearer to it. -/
theorem WalkInv.step_owed (inv : WalkInv t₀ e w) (wf₀ : Wf t₀) (howed : w.owed t₀ e ≠ 0) :
    (w.step A e calls).owed t₀ e < w.owed t₀ e ∨
      (w.step A e calls).owed t₀ e ≤ w.owed t₀ e ∧
        (w.step A e calls).distance < w.distance := by
  obtain ⟨s, hs, howes⟩ := List.countP_pos_iff.mp (Nat.pos_of_ne_zero howed)
  have howes := of_decide_eq_true howes
  unfold Walk.step
  cases hpc : w.pc.handler with
  | none =>
    have hdone : w.pc ≠ .done := by
      intro hdone
      have hahead := inv.owes_ahead hs howes
      rw [hdone] at hahead
      exact hahead
    exact .inr ⟨Nat.le_refl _, inv.quiet_distance hpc hdone⟩
  | some found =>
    obtain ⟨h, cursor⟩ := found
    obtain ⟨x, next, x', hread, rfl, r⟩ := handler_ran inv.wf inv.good hpc
    simp only [hread]
    obtain ⟨y, hy, hyowes, hself⟩ := inv.runs_owed wf₀ r hs howes
    refine .inl (Machine.countP_lt_countP (fun z hz => inv.owes_of_runs wf₀ hz) hy hyowes ?_)
    intro hnot
    refine hnot.2.1 ?_
    show y.node.self ∈ (w.executed ++ [x'.node]).map HandlerNode.self
    rw [List.map_append, hself]
    exact List.mem_append_right _ (List.mem_singleton_self _)

end Inv

end PicoHost.Event
