import PicoHost.Event.WalkRun

/-!
# Dispatches whose handlers change the registrations

The walk of `esp_event_loop_run` never reads a freed node, and it runs every matching
handler once that is not unregistered before its turn, if no handler frees a node that
the walk holds a pointer to. This condition is not met by every handler that the API
lets run: one that unregisters itself from a node of its own frees the node that the
walk comes back to (`selfUnregister_faults`). A dispatch that comes to its end has met
it at every step (`meets_of_done`).
-/

namespace PicoHost.Event

open Chain

/-! ## Whole walks -/

section Run

variable {A : Allocator} {t₀ : Registry} {e : EventId} {behaviour : Nat → List Call}

/-- The invariant holds after any number of steps whose conditions are met. -/
theorem walkInv_after (wf₀ : Wf t₀) (ho : Ordered (slots t₀.loopNodes)) {n : Nat}
    (hmeets : ∀ i < n, (Walk.after A e t₀ behaviour i).Meets A e (behaviour i)) :
    WalkInv t₀ e (Walk.after A e t₀ behaviour n) := by
  induction n with
  | zero => exact walkInv_start wf₀ ho
  | succ n ih =>
    have inv := ih fun i hi => hmeets i (Nat.lt_succ_of_lt hi)
    exact inv.step wf₀ (hmeets n (Nat.lt_succ_self n))

/-- Some time nothing is owed. -/
theorem owed_eq_zero (wf₀ : Wf t₀) (ho : Ordered (slots t₀.loopNodes))
    (hmeets : ∀ n, (Walk.after A e t₀ behaviour n).Meets A e (behaviour n)) :
    ∃ n, (Walk.after A e t₀ behaviour n).owed t₀ e = 0 := by
  refine Machine.exists_eq_zero (b := fun n => (Walk.after A e t₀ behaviour n).distance)
    fun n howed => ?_
  exact (walkInv_after wf₀ ho fun i _ => hmeets i).step_owed wf₀ howed

end Run

/-! ## Pointers to freed nodes -/

section Freed

variable {t : Registry} {e : EventId} {b : Block}

/-- A loop node that can be read is allocated. -/
theorem live_of_read_loop (wf : Wf t) {it : LoopNode} {next : Option Block}
    (h : read LoopNode.self (loopCells t.loopNodes) b = some (it, next)) : b ∈ t.heap.live := by
  obtain ⟨hmem, rfl⟩ := read_some h
  exact wf.place_live.mpr ⟨_, loop_place_mem (mem_of_mem_cells hmem), rfl⟩

/-- A base node that can be read is allocated. -/
theorem live_of_read_base (wf : Wf t) {it : BaseNode} {next : Option Block}
    (h : read BaseNode.self (baseCells t.loopNodes) b = some (it, next)) : b ∈ t.heap.live := by
  obtain ⟨hmem, rfl⟩ := read_some h
  obtain ⟨n, hn, hmem⟩ := List.mem_flatMap.mp hmem
  exact wf.place_live.mpr ⟨_, base_place_mem hn (mem_of_mem_cells hmem), rfl⟩

/-- An id node that can be read is allocated. -/
theorem live_of_read_id (wf : Wf t) {it : IdNode} {next : Option Block}
    (h : read IdNode.self (idCells t.loopNodes) b = some (it, next)) : b ∈ t.heap.live := by
  obtain ⟨hmem, rfl⟩ := read_some h
  obtain ⟨n, hn, hmem⟩ := List.mem_flatMap.mp hmem
  obtain ⟨base, hbase, hmem⟩ := List.mem_flatMap.mp hmem
  exact wf.place_live.mpr ⟨_, id_place_mem hn hbase (mem_of_mem_cells hmem), rfl⟩

/-- A handler node that can be read is allocated. -/
theorem live_of_read_handler (wf : Wf t) {it : HandlerNode} {next : Option Block}
    (h : read HandlerNode.self (handlerCells t.loopNodes) b = some (it, next)) :
    b ∈ t.heap.live := by
  obtain ⟨hmem, rfl⟩ := read_some h
  obtain ⟨loop, base, idNode, key, handlers, hat, hmem⟩ := mem_handlerCells.mp hmem
  exact wf.place_live.mpr ⟨_, place_of_handlersAt hat (mem_of_mem_cells hmem), rfl⟩

/-- A pointer to a freed node stays with the walk until the walk reads it. -/
theorem Pc.next_freed (wf : Wf t) {pc : Pc} (hnone : pc.handler = none) (hb : b ∈ pc.held)
    (hfreed : b ∉ t.heap.live) :
    pc.next t.loopNodes e = .fault ∨ b ∈ (pc.next t.loopNodes e).held := by
  cases pc with
  | loopNode loop =>
    cases loop with
    | none => cases hb
    | some p =>
      rw [Pc.next]
      split
      · exact .inl rfl
      · rename_i it next hread
        simp only [Pc.held, Option.toList_some, List.mem_singleton] at hb
        exact absurd (live_of_read_loop wf hread) (hb ▸ hfreed)
  | loopHandler loop tempNode handler =>
    cases handler with
    | some a => cases hnone
    | none =>
      rw [Pc.next]
      split
      · exact .inl rfl
      · rename_i it next hread
        simp only [Pc.held, Option.toList_none, List.append_nil, List.mem_cons] at hb
        rcases hb with rfl | hb
        · exact absurd (live_of_read_loop wf hread) hfreed
        · exact .inr (List.mem_append_left _ hb)
  | baseNode loop tempNode base =>
    cases base with
    | none =>
      simp only [Pc.held, Option.toList_none, List.append_nil] at hb
      exact .inr hb
    | some p =>
      rw [Pc.next]
      split
      · exact .inl rfl
      · rename_i it next hread
        simp only [Pc.held, Option.toList_some, List.mem_append, List.mem_singleton] at hb
        rcases hb with hb | rfl
        · refine .inr ?_
          split
          · simp only [Pc.held, List.mem_append, List.mem_cons]
            exact .inl (.inl (.inr hb))
          · exact List.mem_append_left _ hb
        · exact absurd (live_of_read_base wf hread) hfreed
  | baseHandler loop tempNode base tempBase handler =>
    cases handler with
    | some a => cases hnone
    | none =>
      rw [Pc.next]
      split
      · exact .inl rfl
      · rename_i it next hread
        simp only [Pc.held, Option.toList_none, List.append_nil, List.mem_append,
          List.mem_cons] at hb
        rcases hb with (rfl | hb) | hb
        · exact absurd (live_of_read_base wf hread) hfreed
        · exact .inr (List.mem_append_left _ (List.mem_append_left _ hb))
        · exact .inr (List.mem_append_left _ (List.mem_append_right _ hb))
  | idNode loop tempNode base tempBase id =>
    cases id with
    | none =>
      simp only [Pc.held, Option.toList_none, List.append_nil] at hb
      exact .inr hb
    | some p =>
      rw [Pc.next]
      split
      · exact .inl rfl
      · rename_i it next hread
        simp only [Pc.held, Option.toList_some, List.mem_append, List.mem_singleton] at hb
        rcases hb with hb | rfl
        · refine .inr ?_
          split <;> exact List.mem_append_left _ (List.mem_append.mpr hb)
        · exact absurd (live_of_read_id wf hread) hfreed
  | idHandler loop tempNode base tempBase id handler =>
    cases handler with
    | some a => cases hnone
    | none =>
      simp only [Pc.held, Option.toList_none, List.append_nil] at hb
      exact .inr hb
  | done => cases hb
  | fault => cases hb

/-- A step that runs a handler reads the pointer to it and keeps the others. -/
theorem Pc.handler_held {pc : Pc} {h : Block} {cursor : Option Block → Pc}
    (hpc : pc.handler = some (h, cursor)) (hb : b ∈ pc.held) (tempHandler : Option Block) :
    b = h ∨ b ∈ (cursor tempHandler).held := by
  cases pc with
  | loopHandler _ _ handler | baseHandler _ _ _ _ handler | idHandler _ _ _ _ _ handler =>
    cases handler with
    | none => cases hpc
    | some a =>
      cases hpc
      simp only [Pc.held, Option.toList_some] at hb ⊢
      rcases List.mem_append.mp hb with hb | hb
      · exact .inr (List.mem_append_left _ hb)
      · exact .inl (List.mem_singleton.mp hb)
  | loopNode | baseNode | idNode | done | fault => cases hpc

end Freed

/-! ## Dispatches that come to their end -/

section Done

variable {A : Allocator} {e : EventId} {t₀ : Registry} {behaviour : Nat → List Call}

/-- A dispatch that is over stays so. -/
theorem done_stays {n m : Nat} (h : n ≤ m) (hdone : (Walk.after A e t₀ behaviour n).pc = .done) :
    (Walk.after A e t₀ behaviour m).pc = .done := by
  obtain ⟨k, rfl⟩ := Nat.exists_eq_add_of_le h
  induction k with
  | zero => exact hdone
  | succ k ih =>
    rw [← Nat.add_assoc, Walk.after, Walk.step, ih (Nat.le_add_right n k)]
    rfl

/-- The walk holds a pointer to a freed node, or has read one. -/
def Walk.Spoiled (w : Walk) : Prop :=
  Wf w.registry ∧ (w.pc = .fault ∨
    ∃ b ∈ w.pc.held, b ∉ w.registry.heap.live ∧ b.serial < w.registry.heap.serial)

/-- A dispatch that is spoiled stays so. -/
theorem Walk.Spoiled.step {w : Walk} (h : w.Spoiled) (calls : List Call) :
    (w.step A e calls).Spoiled := by
  obtain ⟨wf, hfault | ⟨b, hb, hfreed, hlt⟩⟩ := h
  · rw [Walk.step, hfault]
    exact ⟨wf, .inl rfl⟩
  rw [Walk.step]
  cases hpc : w.pc.handler with
  | none =>
    rcases Pc.next_freed wf (e := e) hpc hb hfreed with hfault | hheld
    · exact ⟨wf, .inl hfault⟩
    · exact ⟨wf, .inr ⟨b, hheld, hfreed, hlt⟩⟩
  | some found =>
    obtain ⟨h, cursor⟩ := found
    dsimp only
    split
    · exact ⟨wf, .inl rfl⟩
    · rename_i it tempHandler hread
      have ev := applyAll_evolves A wf calls
      have wf' := applyAll_wf A wf calls
      rcases Pc.handler_held hpc hb tempHandler with rfl | hheld
      · exact absurd (live_of_read_handler wf hread) hfreed
      · exact ⟨wf', .inr ⟨b, hheld, fun hlive => hfreed (ev.live wf wf' hlt hlive),
          Nat.lt_of_lt_of_le hlt ev.serial⟩⟩

/-- Calls that do not meet the condition spoil the walk. -/
theorem WalkInv.spoiled {w : Walk} {calls : List Call} (inv : WalkInv t₀ e w)
    (hmeets : ¬ w.Meets A e calls) : (w.step A e calls).Spoiled := by
  unfold Walk.Meets at hmeets
  unfold Walk.step at hmeets ⊢
  cases hpc : w.pc.handler with
  | none =>
    rw [hpc] at hmeets
    exact absurd nofun hmeets
  | some found =>
    obtain ⟨h, cursor⟩ := found
    obtain ⟨x, next, s, hread, rfl, r⟩ := handler_ran inv.wf inv.good hpc
    rw [hpc] at hmeets
    simp only [hread] at hmeets ⊢
    simp only [not_forall] at hmeets
    obtain ⟨-, b, hb, hfreed⟩ := hmeets
    have ev := applyAll_evolves A inv.wf calls
    obtain ⟨p, hp, rfl⟩ := r.good.held_place hb
    exact ⟨applyAll_wf A inv.wf calls, .inr ⟨p.block, hb, hfreed,
      Nat.lt_of_lt_of_le (inv.wf.place_lt hp) ev.serial⟩⟩

/-- A dispatch that comes to its end has met the condition at every step. -/
theorem meets_of_done (wf₀ : Wf t₀) (ho : Ordered (slots t₀.loopNodes)) {m : Nat}
    (hdone : (Walk.after A e t₀ behaviour m).pc = .done) (n : Nat) :
    (Walk.after A e t₀ behaviour n).Meets A e (behaviour n) := by
  induction n using Nat.strongRecOn with
  | ind n ih =>
    by_contra hmeets
    have inv := walkInv_after wf₀ ho ih
    have hspoiled : ∀ k, (Walk.after A e t₀ behaviour (n + 1 + k)).Spoiled := by
      intro k
      induction k with
      | zero => exact inv.spoiled hmeets
      | succ k ih => exact ih.step _
    obtain ⟨-, h⟩ := hspoiled m
    rw [done_stays (Nat.le_add_left m (n + 1)) hdone] at h
    rcases h with h | ⟨b, hb, -⟩
    · cases h
    · cases hb

end Done

/-! ## Safety -/

/-- A dispatch on the registry of any history, whatever the handlers that run do. Then,
if they free no node that the walk holds, the walk reads no freed node, it runs no
handler node twice, and there is a step by which every matching handler that was
registered at the start has been run or unregistered. -/
theorem walk_safe (A : Allocator) (history : List Call) (e : EventId)
    (behaviour : Nat → List Call)
    (hmeets : ∀ n, (Walk.after A e (after A history) behaviour n).Meets A e (behaviour n)) :
    (∀ n, (Walk.after A e (after A history) behaviour n).pc ≠ .fault) ∧
    (∀ n, (Walk.after A e (after A history) behaviour n).ran.Nodup) ∧
    ∃ n, ∀ s ∈ slots (after A history).loopNodes, Matches e s.key →
      s.node.self ∈ (Walk.after A e (after A history) behaviour n).ran ∨
        s.node.self ∉ (Walk.after A e (after A history) behaviour n).registry.heap.live := by
  have wf := after_wf A history
  have ho := after_ordered A history
  have hinv := fun n => walkInv_after wf ho (n := n) fun i _ => hmeets i
  refine ⟨fun n hfault => ?_, fun n => (hinv n).nodup, ?_⟩
  · have hgood := (hinv n).good
    rw [hfault] at hgood
    exact hgood
  · obtain ⟨n, hn⟩ := owed_eq_zero wf ho hmeets
    refine ⟨n, fun s hs hm => ?_⟩
    have hnot := List.countP_eq_zero.mp hn s hs
    rw [decide_eq_true_eq] at hnot
    by_contra hcon
    obtain ⟨hran, hlive⟩ := not_or.mp hcon
    exact hnot ⟨hm, hran, not_not.mp hlive⟩

/-- A handler may unregister itself below an id node, even if all nodes above it go. -/
theorem walk_safe_selfUnregister :
    ∃ n, ∀ s ∈ slots (after .unbounded [.handler (.register ⟨some 7, 0⟩ 1 10)]).loopNodes,
      Matches ⟨some 7, 0⟩ s.key →
        s.node.self ∈ (Walk.after .unbounded ⟨some 7, 0⟩
          (after .unbounded [.handler (.register ⟨some 7, 0⟩ 1 10)])
          (fun _ => [.handler (.unregister ⟨some 7, 0⟩ 1)]) n).ran ∨
        s.node.self ∉ (Walk.after .unbounded ⟨some 7, 0⟩
          (after .unbounded [.handler (.register ⟨some 7, 0⟩ 1 10)])
          (fun _ => [.handler (.unregister ⟨some 7, 0⟩ 1)]) n).registry.heap.live :=
  (walk_safe .unbounded [.handler (.register ⟨some 7, 0⟩ 1 10)] ⟨some 7, 0⟩
    (fun _ => [.handler (.unregister ⟨some 7, 0⟩ 1)]) (fun n => by
      have hdone : (Walk.after .unbounded ⟨some 7, 0⟩
          (after .unbounded [.handler (.register ⟨some 7, 0⟩ 1 10)])
          (fun _ => [.handler (.unregister ⟨some 7, 0⟩ 1)]) 9).pc = .done := by
        decide +kernel
      exact meets_of_done (after_wf _ _) (after_ordered _ _) hdone n)).2.2

/-- The only handler of a loop node unregisters itself: the walk goes on with the base
nodes of the freed loop node. -/
theorem selfUnregister_faults :
    (Walk.after .unbounded ⟨some 7, 0⟩ (after .unbounded [.handler (.register anyEvent 1 10)])
      (fun _ => [.handler (.unregister anyEvent 1)]) 3).pc = .fault := by
  decide +kernel

end PicoHost.Event
