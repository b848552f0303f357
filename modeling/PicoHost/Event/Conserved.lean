import PicoHost.Event.LoopFlow

/-!
# No event is lost, and no copy is leaked or freed twice

The events that the post functions accept are dispatched in this order, each once and with
the bytes that were passed. Every copy of event data is freed once: when its post is
rejected, or when the handlers of its event have returned (`events_conserved`).
-/

namespace PicoHost.Event

/-! ## What the handlers read -/

section Unwritten

variable {A : Allocator} {args : LoopArgs} {s s' : LoopInstance}

/-- The handlers that run read what was there at the start of the dispatch. -/
def LoopInstance.Unwritten (s : LoopInstance) : Prop :=
  ∀ x ∈ s.flight, s.memory.delivery x.1 = x.2

/-- A call of a post function changes no copy that is in use. -/
theorem postTo_bytes {task : Task} {base : EventBase} {id : Int32} {data : EventData}
    {ticksToWait : Ticks} (h : s.postTo A args task base id data ticksToWait = some s')
    (inv : s.Inv) :
    s'.runner = s.runner ∧ ∀ p ∈ s.way.copies, s'.memory.bytes p = s.memory.bytes p := by
  unfold LoopInstance.postTo at h
  split at h
  · dsimp only at h
    split at h
    · cases h
      exact ⟨rfl, fun _ _ => rfl⟩
    · rcases newPost_cases A s.memory base id data with
        ⟨heap, -, hnew⟩ | ⟨post, hnew, -⟩ | ⟨p, heap, post, hcalloc, -, -, hnew, -⟩
      · rw [hnew] at h
        cases h
        exact ⟨rfl, fun _ _ => rfl⟩
      · rw [hnew] at h
        cases h
        exact ⟨rfl, fun _ _ => rfl⟩
      · rw [hnew] at h
        cases h
        refine ⟨rfl, fun q hq => Function.update_of_ne ?_ ..⟩
        rintro rfl
        rcases A.calloc_cases s.memory.heap with hc | ⟨a, hc, -⟩
        · rw [hc] at hcalloc
          cases hcalloc
        · rw [hc] at hcalloc
          cases hcalloc
          exact inv.owns.ok.malloc_notMem a (inv.owns.mem_iff.mpr hq)
  · cases h

/-- The copies of events in flight are on their way. -/
theorem flight_copies {x : Post × Delivery} (hx : x ∈ s.flight) {p : Block}
    (hp : p ∈ x.1.copies) : p ∈ s.way.copies := by
  refine List.mem_flatMap.mpr ⟨x.1, ?_, hp⟩
  exact List.mem_append_left _ (List.mem_append_right _ (List.mem_map_of_mem hx))

/-- Only the bytes of the copies matter. -/
theorem LoopInstance.Unwritten.congr (h : s.Unwritten) (hflight : s'.flight = s.flight)
    (hbytes : ∀ p ∈ s.way.copies, s'.memory.bytes p = s.memory.bytes p) : s'.Unwritten := by
  intro x hx
  rw [hflight] at hx
  rw [← h x hx]
  exact delivery_congr fun p hp => hbytes p (flight_copies hx hp)

@[simp] theorem postInstanceDelete_bytes (memory : Memory) (post : Post) :
    (postInstanceDelete memory post).bytes = memory.bytes := by
  unfold postInstanceDelete Memory.freeData
  split
  · split
    · rfl
    · rfl
    · split <;> rfl
  · rfl

/-- A post that goes on writes no bytes of a copy. -/
theorem advance_bytes {task : Task} (h : s.advance args task = some s') :
    s'.runner = s.runner ∧ s'.memory.bytes = s.memory.bytes := by
  unfold LoopInstance.advance LoopInstance.takeMutex LoopInstance.sendToBack at h
  split at h
  · cases h
  · split at h
    · split at h
      · cases h
        exact ⟨rfl, rfl⟩
      · split at h
        · cases h
        · cases h
          exact ⟨rfl, postInstanceDelete_bytes ..⟩
    · cases h
      exact ⟨rfl, rfl⟩
    · split at h
      · cases h
        exact ⟨rfl, rfl⟩
      · split at h
        · cases h
        · cases h
          exact ⟨rfl, postInstanceDelete_bytes ..⟩

/-- A post from an interrupt writes no bytes of a copy. -/
theorem isrPostTo_bytes (args : LoopArgs) (s : LoopInstance) (base : EventBase) (id : Int32)
    (data : EventData) :
    (s.isrPostTo args base id data).runner = s.runner ∧
      (s.isrPostTo args base id data).memory.bytes = s.memory.bytes := by
  unfold LoopInstance.isrPostTo
  dsimp only
  split
  · exact ⟨rfl, rfl⟩
  · split
    · exact ⟨rfl, rfl⟩
    · split
      · exact ⟨rfl, rfl⟩
      · exact ⟨rfl, postInstanceDelete_bytes ..⟩

/-- The flight of a loop is that of its runner. -/
theorem flight_of_runner (h : s'.runner = s.runner) : s'.flight = s.flight := by
  unfold LoopInstance.flight
  rw [h]

/-- The runner writes no copy. -/
theorem runStep_unwritten {now : Ticks} (h : s.runStep now = some s') (hs : s.Unwritten) :
    s'.Unwritten := by
  unfold LoopInstance.runStep at h
  split at h
  · cases h
  · rename_i r hr
    have hflight : s.flight = r.pc.flight := by
      unfold LoopInstance.flight
      rw [hr, Option.elim_some]
    unfold LoopInstance.Unwritten at hs
    rw [hflight] at hs
    split at h
    · unfold LoopInstance.receive at h
      split at h
      · cases h
        exact nofun
      · split at h
        · cases h
        · cases h
          exact nofun
    · -- what the handlers will read is read now
      unfold LoopInstance.lock at h
      split at h
      · cases h
      · cases h
        intro x hx
        rw [List.mem_singleton.mp hx]
    · rename_i post delivery pc hpc
      rw [hpc] at hs
      unfold LoopInstance.dispatch at h
      split at h
      · cases h
      · split at h
        · cases h
          exact nofun
        · cases h
          unfold LoopInstance.Unwritten LoopInstance.flight
          rw [Option.elim_some]
          dsimp only
          split
          · exact hs
          · split
            · exact hs
            · exact hs
    · rename_i post delivery pc hpc
      rw [hpc] at hs
      unfold LoopInstance.returnHandler at h
      split at h
      · cases h
        exact hs
      · cases h
    · cases h
      unfold LoopInstance.unlock
      dsimp only
      split
      · split
        · exact nofun
        · exact nofun
      · exact nofun

/-- Only a handler writes into the data of an event. -/
theorem step_unwritten {a : Action} (hwrite : ∀ bytes, a ≠ .write bytes)
    (h : s.step A args a = some s') (inv : s.Inv) (hs : s.Unwritten) : s'.Unwritten := by
  cases a with
  | postTo task base id data ticksToWait =>
    obtain ⟨hrunner, hbytes⟩ := postTo_bytes h inv
    exact hs.congr (flight_of_runner hrunner) hbytes
  | advance task =>
    obtain ⟨hrunner, hbytes⟩ := advance_bytes h
    exact hs.congr (flight_of_runner hrunner) fun p _ => congrFun hbytes p
  | isrPostTo base id data =>
    cases h
    obtain ⟨hrunner, hbytes⟩ := isrPostTo_bytes args s base id data
    exact hs.congr (flight_of_runner hrunner) fun p _ => congrFun hbytes p
  | run task ticksToRun now =>
    replace h : s.run task ticksToRun now = some s' := h
    unfold LoopInstance.run at h
    split at h
    · cases h
    · split at h
      · cases h
        exact nofun
      · cases h
  | runStep now => exact runStep_unwritten h hs
  | register task call =>
    replace h : s.register A task call = some s' := h
    unfold LoopInstance.register at h
    split at h
    · cases h
      exact hs
    · cases h
  | write bytes => exact absurd rfl (hwrite bytes)

end Unwritten

/-! ## Every run -/

/-- What a dispatch that is going on hands to the handlers, or will hand to them if it has
not begun. -/
def LoopInstance.inFlight (s : LoopInstance) : List Delivery :=
  s.flight.map Prod.snd ++ s.received.map s.memory.delivery

/-- The copies of the posts that are in a call of `esp_event_post_to`, in flight and in the
queue. -/
def LoopInstance.copies (s : LoopInstance) : List Block :=
  s.calls.flatMap (fun call => call.post.copies) ++
    (s.flight.flatMap (fun x => x.1.copies) ++ s.received.flatMap Post.copies) ++
    s.queue.flatMap Post.copies

/-- The copies on their way are those that the loop holds. -/
theorem way_copies (s : LoopInstance) : s.way.copies = s.copies := by
  unfold Way.copies Way.posts LoopInstance.way LoopInstance.copies
  simp only [List.map_map, List.flatMap_append, List.flatMap_map, List.append_assoc]
  rfl

/-- In every run of any number of tasks, interrupts and one runner at a time: the accepted
events are those that were dispatched, the one in flight and those in the queue, in this
order; unless a handler writes to its data, all handlers of an event read what the first
one reads; every copy is live or freed, once; the live ones are those of the posts that are
not over; the freed ones are those of the rejected posts and of the events whose handlers
have returned; and no inline data were passed to `free`. -/
theorem events_conserved (A : Allocator) (args : LoopArgs) (actions : List Action)
    (s : LoopInstance)
    (hrun : Machine.exec (LoopInstance.step A args) .init actions = some s) :
    List.Forall₂ Posted.DeliveredBy s.log.accepted
      (s.log.dispatched ++ s.inFlight ++ s.queue.map s.memory.delivery) ∧
    ((∀ bytes, .write bytes ∉ actions) → ∀ x ∈ s.flight, s.memory.delivery x.1 = x.2) ∧
    s.log.copied.Perm (s.memory.heap.live ++ s.memory.heap.freed) ∧
    (s.memory.heap.live ++ s.memory.heap.freed).Nodup ∧
    s.memory.heap.live.Perm s.copies ∧
    s.memory.heap.freed.Perm (s.log.rejected ++ s.log.dispatched.flatMap Delivery.copies) ∧
    s.memory.words = [] := by
  have inv := inv_of_exec hrun
  refine ⟨?_, fun hwrite => ?_, inv.copied, inv.owns.ok.nodup.of_map, ?_, inv.freed, inv.words⟩
  · have horder := inv.order
    unfold LoopInstance.way at horder
    rw [List.map_append, ← List.append_assoc, List.append_assoc s.log.dispatched] at horder
    exact horder
  · refine (Machine.exec_inv_of (P := fun s => s.Inv ∧ s.Unwritten)
      (Q := fun a => ∀ bytes, a ≠ .write bytes) (fun s a s' ha hstep hs => ?_) hrun
      (fun a ha bytes heq => hwrite bytes (heq ▸ ha)) ⟨inv_init, nofun⟩).2
    exact ⟨step_inv hstep hs.1, step_unwritten ha hstep hs.1 hs.2⟩
  · rw [← way_copies]
    exact inv.owns.live

/-- A task posts three bytes and an interrupt two; both are dispatched. -/
theorem events_conserved_two : ∃ s, Machine.exec (LoopInstance.step .unbounded ⟨2, none⟩) .init
    ([.postTo 1 (some 7) 0 (.bytes [1, 2, 3]) 0, .advance 1, .advance 1, .advance 1,
      .isrPostTo (some 7) 1 (.bytes [4, 5]), .run 2 10 0] ++
        List.replicate 10 (.runStep 0)) = some s ∧
    s.log.dispatched.map Delivery.data = [some [1, 2, 3], some [4, 5, 0, 0]] ∧
    List.Forall₂ Posted.DeliveredBy s.log.accepted
      (s.log.dispatched ++ s.inFlight ++ s.queue.map s.memory.delivery) := by
  have hsome : ((Machine.exec (LoopInstance.step .unbounded ⟨2, none⟩) .init
      ([.postTo 1 (some 7) 0 (.bytes [1, 2, 3]) 0, .advance 1, .advance 1, .advance 1,
        .isrPostTo (some 7) 1 (.bytes [4, 5]), .run 2 10 0] ++
          List.replicate 10 (.runStep 0))).map fun s => s.log.dispatched.map Delivery.data) =
      some [some [1, 2, 3], some [4, 5, 0, 0]] := by
    decide +kernel
  obtain ⟨s, hs, hdata⟩ := Option.map_eq_some_iff.mp hsome
  exact ⟨s, hs, hdata, (events_conserved .unbounded ⟨2, none⟩ _ s hs).1⟩

end PicoHost.Event
