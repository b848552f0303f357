import PicoHost.Event.Dedicated

/-!
# Deletion of a loop with a dedicated task

`esp_event_loop_delete` while the dedicated task of the loop runs. The other tasks have
stopped posting. `vTaskDelete` stops the task where it is: a post that it has received, but
not yet begun to dispatch, is then in no queue any more (`deleted_clean_iff`).
-/

namespace PicoHost.Event

/-! ## The machine -/

/-- Where `esp_event_loop_delete` is (esp_event.c:660–720). -/
inductive DeletePc where
  | lock | locked | stopped | draining | drained | queueDeleted | loopFreed | given | returned
deriving DecidableEq, Repr

/-- What a loop owns besides its registrations and the copies of event data. -/
inductive LoopObject where
  | queue | loop | mutex
deriving DecidableEq, Repr

/-- A loop with its dedicated task, the task that deletes it, and the objects that have been
freed. -/
structure Deletion where
  loop : LoopInstance
  deleter : Option (Task × DeletePc)
  freed : List LoopObject

/-- A loop that has been created, with its task (esp_event.c:107–122). -/
def Deletion.init (loopTask : Task) (now : Ticks) : Deletion where
  loop := { LoopInstance.init with
    runner := some ⟨loopTask, maxDelay, now, maxDelay.toNat, .receive⟩ }
  deleter := none
  freed := []

/-- `vTaskDelete` is still to come. -/
def DeletePc.running : DeletePc → Bool
  | .lock | .locked => true
  | _ => false

/-- The actions of the loop's task. -/
def Action.isOf (loopTask : Task) : Action → Bool
  | .postTo task .. | .advance task | .register task _ => decide (task = loopTask)
  | .runStep _ | .write _ => true
  | .isrPostTo .. | .run .. => false

section Step

variable (A : Allocator) (queueSize : Nat) (loopTask : Task) (s : Deletion)

/-- During the deletion only the loop's task uses the loop, until it is deleted. -/
def Deletion.allows (action : Action) : Bool :=
  match s.deleter with
  | none => true
  | some (_, pc) => pc.running && action.isOf loopTask

inductive DeleteAction where
  | loop (action : Action)
  | delete (task : Task)
  | deleteStep
deriving DecidableEq, Repr

/-- Another task calls `esp_event_loop_delete`; the posters have stopped. -/
def Deletion.delete (task : Task) : Option Deletion :=
  if s.deleter = none ∧ task ≠ loopTask ∧ ∀ call ∈ s.loop.calls, call.task = loopTask then
    some { s with deleter := some (task, .lock) }
  else none

/-- The next operation of `esp_event_loop_delete`. -/
def Deletion.deleteStep : Option Deletion :=
  match s.deleter with
  | none => none
  | some (task, .lock) =>
    -- `xSemaphoreTakeRecursive(loop->mutex, portMAX_DELAY)`
    match s.loop.mutex.take task with
    | none => none
    | some mutex =>
      some { s with loop := { s.loop with mutex }, deleter := some (task, .locked) }
  | some (task, .locked) =>
    -- `vTaskDelete(loop->task)`
    some { s with deleter := some (task, .stopped) }
  | some (task, .stopped) =>
    some { s with
      loop := { s.loop with registry := loopNodesRemoveAll s.loop.registry }
      deleter := some (task, .draining) }
  | some (task, .draining) =>
    match s.loop.queue with
    | post :: queue =>
      some { s with
        loop := { s.loop with queue, memory := postInstanceDelete s.loop.memory post } }
    | [] => some { s with deleter := some (task, .drained) }
  | some (task, .drained) =>
    some { s with freed := s.freed ++ [.queue], deleter := some (task, .queueDeleted) }
  | some (task, .queueDeleted) =>
    some { s with freed := s.freed ++ [.loop], deleter := some (task, .loopFreed) }
  | some (task, .loopFreed) =>
    -- `xSemaphoreGiveRecursive(loop_mutex)`
    some { s with
      loop := { s.loop with mutex := s.loop.mutex.give task }
      deleter := some (task, .given) }
  | some (task, .given) =>
    some { s with freed := s.freed ++ [.mutex], deleter := some (task, .returned) }
  | some (_, .returned) => none

/-- One action. -/
def Deletion.step : DeleteAction → Option Deletion
  | .loop action =>
    if s.allows loopTask action then
      (s.loop.step A ⟨queueSize, some loopTask⟩ action).map fun loop => { s with loop }
    else none
  | .delete task => s.delete loopTask task
  | .deleteStep => s.deleteStep

end Step

/-- Everything that the loop owned has been freed, once. -/
def Deletion.Clean (s : Deletion) : Prop :=
  (s.loop.registry.heap.live = [] ∧ s.loop.registry.heap.freed.Nodup) ∧
    (s.loop.memory.heap.live = [] ∧ s.loop.memory.heap.freed.Nodup ∧ s.loop.memory.words = []) ∧
      s.freed = [.queue, .loop, .mutex]

/-! ## The registrations -/

section Registry

theorem handlerInstancesRemoveAll_eq (heap : Heap) (handlers : List HandlerNode) :
    handlerInstancesRemoveAll heap handlers =
      heap.freeAll (handlers.flatMap HandlerNode.blocks) := by
  have hnode : ∀ (heap : Heap) (it : HandlerNode), freeHandler heap it = heap.freeAll it.blocks :=
    fun _ _ => rfl
  exact Heap.foldl_freeAll hnode heap handlers

theorem baseNodeRemoveAllHandler_eq (heap : Heap) (it : BaseNode) :
    (baseNodeRemoveAllHandler heap it).free it.self = heap.freeAll it.blocks := by
  have hid : ∀ (heap : Heap) (it : IdNode),
      (handlerInstancesRemoveAll heap it.handlers).free it.self = heap.freeAll it.blocks := by
    intro heap it
    rw [handlerInstancesRemoveAll_eq, IdNode.blocks, Heap.freeAll_append]
    rfl
  unfold baseNodeRemoveAllHandler BaseNode.blocks
  rw [Heap.foldl_freeAll hid, handlerInstancesRemoveAll_eq, Heap.freeAll_append,
    Heap.freeAll_append]
  rfl

theorem loopNodeRemoveAllHandler_eq (heap : Heap) (it : LoopNode) :
    (loopNodeRemoveAllHandler heap it).free it.self = heap.freeAll it.blocks := by
  unfold loopNodeRemoveAllHandler LoopNode.blocks
  rw [Heap.foldl_freeAll baseNodeRemoveAllHandler_eq, handlerInstancesRemoveAll_eq,
    Heap.freeAll_append, Heap.freeAll_append]
  rfl

/-- All nodes and contexts are freed, once. -/
theorem loopNodesRemoveAll_owns {t : Registry} (wf : Wf t) :
    (loopNodesRemoveAll t).heap.Owns [] := by
  rw [loopNodesRemoveAll]
  rw [Heap.foldl_freeAll loopNodeRemoveAllHandler_eq]
  have howns := wf.owns
  rw [← List.append_nil t.blocks] at howns
  exact howns.freeAll

end Registry

/-! ## Until the task is stopped -/

/-- The loop's task is still there. -/
def Deletion.running (s : Deletion) : Bool := s.deleter.elim true fun d => d.2.running

/-- The deleting task, if it has the mutex. -/
def Deletion.owner (s : Deletion) : Option Task :=
  match s.deleter with
  | some (task, .locked) => some task
  | _ => none

/-- The invariant as long as the loop's task is there. -/
structure Running (loopTask : Task) (s : Deletion) : Prop where
  running : s.running
  inv : s.loop.Inv
  dedicated : ∃ r, Dedicated loopTask s.owner s.loop r
  calls : s.deleter.isSome → ∀ call ∈ s.loop.calls, call.task = loopTask
  other : ∀ task pc, s.deleter = some (task, pc) → task ≠ loopTask
  freed : s.freed = []

section Running

variable {A : Allocator} {queueSize : Nat} {loopTask : Task} {s s' : Deletion}

theorem running_init (loopTask : Task) (now : Ticks) : Running loopTask (.init loopTask now) where
  running := rfl
  inv := flow_init
  dedicated := ⟨_, rfl, rfl, rfl, nofun, nofun, wf_empty, rfl, nofun, nofun⟩
  calls := nofun
  other := nofun
  freed := rfl

/-- A step of the loop or of its users. -/
theorem Running.loop {action : Action} {loop : LoopInstance} (h : Running loopTask s)
    (hallows : s.allows loopTask action = true)
    (hstep : s.loop.step A ⟨queueSize, some loopTask⟩ action = some loop) :
    Running loopTask { s with loop } := by
  obtain ⟨r, d⟩ := h.dedicated
  have hcalls : (∃ r, Dedicated loopTask s.owner loop r) ∧
      (s.deleter.isSome → ∀ call ∈ loop.calls, call.task = loopTask) := by
    cases action with
    | postTo task base id data ticksToWait =>
      replace hstep : s.loop.postTo A ⟨queueSize, some loopTask⟩ task base id data ticksToWait =
        some loop := hstep
      obtain ⟨d', hsub⟩ := d.postTo hstep
      refine ⟨⟨r, d'⟩, fun hsome call hcall => ?_⟩
      rcases hsub call hcall with hcall | rfl
      · exact h.calls hsome call hcall
      · -- during the deletion only the loop's task posts
        obtain ⟨⟨t, pc⟩, hdeleter⟩ := Option.isSome_iff_exists.mp hsome
        rw [Deletion.allows] at hallows
        rw [hdeleter] at hallows
        have hof := (Bool.and_eq_true_iff.mp hallows).2
        exact of_decide_eq_true hof
    | advance task =>
      replace hstep : s.loop.advance ⟨queueSize, some loopTask⟩ task = some loop := hstep
      obtain ⟨d', hsub⟩ := d.advance hstep
      exact ⟨⟨r, d'⟩, fun hsome call hcall => h.calls hsome call (hsub call hcall)⟩
    | isrPostTo base id data =>
      cases hstep
      obtain ⟨d', hsame⟩ := d.isrPostTo ⟨queueSize, some loopTask⟩ base id data
      rw [hsame]
      exact ⟨⟨r, d'⟩, h.calls⟩
    | run task ticksToRun now => cases d.not_run.symm.trans hstep
    | runStep now =>
      obtain ⟨r', d', hsame⟩ := d.runStep hstep
      rw [hsame]
      exact ⟨⟨r', d'⟩, h.calls⟩
    | register task call =>
      obtain ⟨d', hsame⟩ := d.register hstep
      rw [hsame]
      exact ⟨⟨r, d'⟩, h.calls⟩
    | write bytes =>
      obtain ⟨d', hsame⟩ := d.write hstep
      rw [hsame]
      exact ⟨⟨r, d'⟩, h.calls⟩
  exact ⟨h.running, step_inv hstep h.inv, hcalls.1, hcalls.2, h.other, h.freed⟩

/-- The mutex is taken by the deleting task: the loop's task is not in a dispatch. -/
theorem Running.lock {task : Task} {mutex : RecursiveMutex Task} (h : Running loopTask s)
    (hdeleter : s.deleter = some (task, .lock)) (htake : s.loop.mutex.take task = some mutex) :
    Running loopTask
      { s with loop := { s.loop with mutex }, deleter := some (task, .locked) } := by
  obtain ⟨r, d⟩ := h.dedicated
  have hother := h.other task .lock hdeleter
  have howner : s.owner = none := by
    rw [Deletion.owner]
    rw [hdeleter]
  have hmutex := d.mutex
  rw [howner] at hmutex
  rw [hmutex] at htake
  have hcritical : r.pc.critical = false := by
    cases hcritical : r.pc.critical with
    | false => rfl
    | true =>
      rw [hcritical] at htake
      cases htake.symm.trans (RecursiveMutex.take_held_other (Ne.symm hother) 0)
  rw [hcritical] at htake
  cases htake
  refine ⟨rfl, h.inv, ⟨r, d.runner, d.task, d.forever, d.sends, d.inHandler, d.wf, ?_,
    fun _ => hcritical, fun heq => hother (Option.some.inj heq)⟩, fun _ => h.calls (hdeleter ▸ rfl),
    fun t pc heq => ?_, h.freed⟩
  · rw [hcritical]
    rfl
  · cases heq
    exact hother

/-- A step keeps the invariant, or it is `vTaskDelete`. -/
theorem Running.step {action : DeleteAction} (h : Running loopTask s)
    (hstep : s.step A queueSize loopTask action = some s') :
    Running loopTask s' ∨ action = .deleteStep ∧ ∃ task, s.deleter = some (task, .locked) ∧
      s' = { s with deleter := some (task, .stopped) } := by
  cases action with
  | loop action =>
    replace hstep : (if s.allows loopTask action then
        (s.loop.step A ⟨queueSize, some loopTask⟩ action).map fun loop => { s with loop }
      else none) = some s' := hstep
    split at hstep
    · rename_i hallows
      obtain ⟨loop, hloop, rfl⟩ := Option.map_eq_some_iff.mp hstep
      exact .inl (h.loop hallows hloop)
    · cases hstep
  | delete task =>
    replace hstep : s.delete loopTask task = some s' := hstep
    rw [Deletion.delete] at hstep
    split at hstep
    · rename_i hguard
      obtain ⟨hnone, hother, hcalls⟩ := hguard
      cases hstep
      obtain ⟨r, d⟩ := h.dedicated
      have howner : s.owner = none := by
        rw [Deletion.owner]
        rw [hnone]
      rw [howner] at d
      refine .inl ⟨rfl, h.inv, ⟨r, d⟩, fun _ => hcalls, fun t pc heq => ?_, h.freed⟩
      cases heq
      exact hother
    · cases hstep
  | deleteStep =>
    replace hstep : s.deleteStep = some s' := hstep
    rw [Deletion.deleteStep] at hstep
    split at hstep
    · cases hstep
    · rename_i task hdeleter
      split at hstep
      · cases hstep
      · rename_i mutex htake
        cases hstep
        exact .inl (h.lock hdeleter htake)
    · rename_i task hdeleter
      cases hstep
      exact .inr ⟨rfl, task, hdeleter, rfl⟩
    all_goals
      rename_i hdeleter
      have hfalse := h.running
      rw [Deletion.running] at hfalse
      rw [hdeleter] at hfalse
      cases hfalse

end Running

/-! ## Behind `vTaskDelete` -/

/-- What has been freed when the deletion is there. -/
def DeletePc.freed : DeletePc → List LoopObject
  | .queueDeleted => [.queue]
  | .loopFreed | .given => [.queue, .loop]
  | .returned => [.queue, .loop, .mutex]
  | _ => []

/-- The queue has been emptied when the deletion is there. -/
def DeletePc.empty : DeletePc → Bool
  | .drained | .queueDeleted | .loopFreed | .given | .returned => true
  | _ => false

/-- The invariant when the loop's task is gone; `held` is what it has received and not
begun to dispatch. -/
structure Stopped (held : List Post) (s : Deletion) (task : Task) (pc : DeletePc) : Prop where
  deleter : s.deleter = some (task, pc)
  stopped : pc.running = false
  ok : ∀ post ∈ s.loop.queue, post.Ok
  owns : s.loop.memory.heap.Owns (held.flatMap Post.copies ++ s.loop.queue.flatMap Post.copies)
  words : s.loop.memory.words = []
  registry : if pc = .stopped then Wf s.loop.registry else s.loop.registry.heap.Owns []
  queue : pc.empty → s.loop.queue = []
  freed : s.freed = pc.freed

section Stopped

variable {A : Allocator} {queueSize : Nat} {loopTask task : Task} {s s' : Deletion}
  {held : List Post} {pc : DeletePc}

/-- The task is stopped outside a dispatch and outside all calls. -/
theorem Running.stop (h : Running loopTask s) (hdeleter : s.deleter = some (task, .locked)) :
    Stopped s.loop.received { s with deleter := some (task, .stopped) } task .stopped := by
  obtain ⟨r, d⟩ := h.dedicated
  have howner : s.owner = some task := by
    rw [Deletion.owner]
    rw [hdeleter]
  have hcritical : r.pc.critical = false := d.excluded (howner ▸ rfl)
  have hhandler : r.pc.inHandler = false := by
    cases hpc : r.pc with
    | handler post delivery pc =>
      rw [hpc] at hcritical
      cases hcritical
    | receive | lock | dispatch | deleted => rfl
  have hflight : s.loop.flight = [] := by
    rw [LoopInstance.flight]
    rw [d.runner, Option.elim_some]
    cases hpc : r.pc with
    | dispatch post delivery pc | handler post delivery pc =>
      rw [hpc] at hcritical
      cases hcritical
    | receive | lock | deleted => rfl
  have hcalls : s.loop.calls = [] := by
    refine List.eq_nil_iff_forall_not_mem.mpr fun call hcall => ?_
    exact d.not_calling hhandler call hcall (h.calls (hdeleter ▸ rfl) call hcall)
  have hposts : s.loop.way.posts = s.loop.received ++ s.loop.queue := by
    unfold Way.posts LoopInstance.way
    rw [hcalls, hflight]
    rfl
  have howns := h.inv.owns
  rw [Way.copies] at howns
  rw [hposts, List.flatMap_append] at howns
  refine ⟨rfl, rfl, fun post hpost => h.inv.ok post ?_, howns, h.inv.words, ?_, nofun, h.freed⟩
  · rw [hposts]
    exact List.mem_append_right _ hpost
  · rw [if_pos rfl]
    exact d.wf

/-- A post that is still in the queue is deleted. -/
theorem Stopped.drain (h : Stopped held s task .draining) {post : Post} {queue : List Post}
    (hqueue : s.loop.queue = post :: queue) :
    Stopped held
      { s with loop := { s.loop with queue, memory := postInstanceDelete s.loop.memory post } }
      task .draining := by
  have hok : ∀ x ∈ post :: queue, x.Ok := hqueue ▸ h.ok
  have howns := h.owns
  rw [hqueue, List.flatMap_cons] at howns
  have howns := howns.perm (List.perm_append_comm_assoc ..)
  rw [postInstanceDelete_eq (hok post (List.mem_cons_self ..))]
  exact ⟨h.deleter, rfl, fun x hx => hok x (List.mem_cons_of_mem post hx), howns.freeAll, h.words,
    h.registry, nofun, h.freed⟩

theorem Stopped.step {action : DeleteAction} (h : Stopped held s task pc)
    (hstep : s.step A queueSize loopTask action = some s') : ∃ pc', Stopped held s' task pc' := by
  cases action with
  | loop action =>
    -- the loop's task is gone, and nobody else uses the loop
    have hallows : s.allows loopTask action = false := by
      rw [Deletion.allows]
      rw [h.deleter]
      dsimp only
      rw [h.stopped]
      rfl
    replace hstep : (if s.allows loopTask action then
        (s.loop.step A ⟨queueSize, some loopTask⟩ action).map fun loop => { s with loop }
      else none) = some s' := hstep
    rw [hallows] at hstep
    cases hstep
  | delete t =>
    replace hstep : s.delete loopTask t = some s' := hstep
    rw [Deletion.delete] at hstep
    rw [h.deleter, if_neg fun hguard => by cases hguard.1] at hstep
    cases hstep
  | deleteStep =>
    replace hstep : s.deleteStep = some s' := hstep
    rw [Deletion.deleteStep] at hstep
    rw [h.deleter] at hstep
    cases pc with
    | lock | locked => cases h.stopped
    | stopped =>
      cases hstep
      exact ⟨.draining, rfl, rfl, h.ok, h.owns, h.words, loopNodesRemoveAll_owns h.registry,
        nofun, h.freed⟩
    | draining =>
      dsimp only at hstep
      split at hstep
      · rename_i post queue hqueue
        cases hstep
        rw [← h.deleter]
        exact ⟨.draining, h.drain hqueue⟩
      · rename_i hqueue
        cases hstep
        exact ⟨.drained, rfl, rfl, h.ok, h.owns, h.words, h.registry, fun _ => hqueue, h.freed⟩
    | drained =>
      cases hstep
      exact ⟨.queueDeleted, rfl, rfl, h.ok, h.owns, h.words, h.registry, fun _ => h.queue rfl,
        congrArg (· ++ [LoopObject.queue]) h.freed⟩
    | queueDeleted =>
      cases hstep
      exact ⟨.loopFreed, rfl, rfl, h.ok, h.owns, h.words, h.registry, fun _ => h.queue rfl,
        congrArg (· ++ [LoopObject.loop]) h.freed⟩
    | loopFreed =>
      cases hstep
      exact ⟨.given, rfl, rfl, h.ok, h.owns, h.words, h.registry, fun _ => h.queue rfl, h.freed⟩
    | given =>
      cases hstep
      exact ⟨.returned, rfl, rfl, h.ok, h.owns, h.words, h.registry, fun _ => h.queue rfl,
        congrArg (· ++ [LoopObject.mutex]) h.freed⟩
    | returned => cases hstep

/-- What is left when the deletion returns: the copies of the post that the loop's task
held. -/
theorem Stopped.clean_iff (h : Stopped held s task .returned) :
    s.Clean ↔ held.flatMap Post.copies = [] := by
  have howns := h.owns
  rw [h.queue rfl, List.flatMap_nil, List.append_nil] at howns
  have hregistry : s.loop.registry.heap.Owns [] := h.registry
  constructor
  · intro hclean
    have hlive := howns.live
    rw [hclean.2.1.1] at hlive
    exact List.nil_perm.mp hlive
  · intro hheld
    rw [hheld] at howns
    exact ⟨hregistry.all_freed, ⟨howns.all_freed.1, howns.all_freed.2, h.words⟩, h.freed⟩

end Stopped

/-! ## Runs -/

section Runs

variable {A : Allocator} {queueSize : Nat} {loopTask : Task}

/-- A run of a loop that is there at the beginning: it is still there, or `vTaskDelete` has
stopped its task at some step. -/
theorem Running.exec {s s' : Deletion} {actions : List DeleteAction} (h : Running loopTask s)
    (hrun : Machine.exec (Deletion.step A queueSize loopTask) s actions = some s') :
    Running loopTask s' ∨ ∃ pre rest s₁ task, actions = pre ++ .deleteStep :: rest ∧
      Machine.exec (Deletion.step A queueSize loopTask) s pre = some s₁ ∧
      s₁.deleter = some (task, .locked) := by
  induction actions generalizing s with
  | nil =>
    cases hrun
    exact .inl h
  | cons action actions ih =>
    obtain ⟨s₁, hstep, hrest⟩ := Machine.exec_cons_some.mp hrun
    rcases h.step hstep with h₁ | ⟨rfl, task, hdeleter, -⟩
    · rcases ih h₁ hrest with h' | ⟨pre, rest, s₂, task, rfl, hpre, hlocked⟩
      · exact .inl h'
      · refine .inr ⟨action :: pre, rest, s₂, task, rfl, ?_, hlocked⟩
        exact Machine.exec_cons_some.mpr ⟨s₁, hstep, hpre⟩
    · exact .inr ⟨[], actions, s, task, rfl, rfl, hdeleter⟩

theorem Stopped.exec {s s' : Deletion} {task : Task} {held : List Post} {pc : DeletePc}
    {actions : List DeleteAction} (h : Stopped held s task pc)
    (hrun : Machine.exec (Deletion.step A queueSize loopTask) s actions = some s') :
    ∃ pc', Stopped held s' task pc' :=
  Machine.exec_inv (P := fun s => ∃ pc, Stopped held s task pc)
    (fun _ _ _ hstep h => h.elim fun _ h => h.step hstep) hrun ⟨pc, h⟩

/-- A state in which `vTaskDelete` is the next step comes before it. -/
theorem Running.of_locked {s s₁ : Deletion} {pre : List DeleteAction} {task : Task}
    (h : Running loopTask s)
    (hpre : Machine.exec (Deletion.step A queueSize loopTask) s pre = some s₁)
    (hlocked : s₁.deleter = some (task, .locked)) : Running loopTask s₁ := by
  have hphase : Running loopTask s₁ ∨ ∃ held task pc, Stopped held s₁ task pc := by
    refine Machine.exec_inv (P := fun s => Running loopTask s ∨
      ∃ held task pc, Stopped held s task pc) (fun s action s' hstep hs => ?_) hpre (.inl h)
    rcases hs with hs | ⟨held, task, pc, hs⟩
    · rcases hs.step hstep with hs' | ⟨-, task, hdeleter, rfl⟩
      · exact .inl hs'
      · exact .inr ⟨_, task, _, hs.stop hdeleter⟩
    · obtain ⟨pc', hs'⟩ := hs.step hstep
      exact .inr ⟨held, task, pc', hs'⟩
  rcases hphase with h₁ | ⟨held, task', pc, h₁⟩
  · exact h₁
  · have heq := h₁.deleter.symm.trans hlocked
    have hstopped := h₁.stopped
    cases heq
    cases hstopped

/-- What is left at the end, when the task was stopped in the state `s₁`. -/
theorem clean_iff_of_locked {s s₁ s' : Deletion} {pre rest : List DeleteAction} {task task' : Task}
    (h : Running loopTask s)
    (hpre : Machine.exec (Deletion.step A queueSize loopTask) s pre = some s₁)
    (hlocked : s₁.deleter = some (task, .locked))
    (hrun : Machine.exec (Deletion.step A queueSize loopTask) s (pre ++ .deleteStep :: rest) =
      some s')
    (hreturned : s'.deleter = some (task', .returned)) :
    s'.Clean ↔ s₁.loop.received.flatMap Post.copies = [] := by
  have h₁ := h.of_locked hpre hlocked
  obtain ⟨s₂, hpre', hrest⟩ := Machine.exec_append_some.mp hrun
  cases hpre.symm.trans hpre'
  obtain ⟨s₃, hstep, hrest⟩ := Machine.exec_cons_some.mp hrest
  rcases h₁.step hstep with h₃ | ⟨-, t, hdeleter, rfl⟩
  · -- the step is `vTaskDelete`
    replace hstep : s₁.deleteStep = some s₃ := hstep
    rw [Deletion.deleteStep] at hstep
    rw [hlocked] at hstep
    cases hstep
    cases h₃.running
  · obtain ⟨pc', hstopped⟩ := (h₁.stop hdeleter).exec hrest
    have heq := hstopped.deleter.symm.trans hreturned
    cases heq
    exact hstopped.clean_iff

end Runs

/-! ## The deletion -/

/-- In every run of a loop with a dedicated task, its users and a task that deletes it, when
the deletion has returned: everything has been freed once if and only if the loop's task,
where `vTaskDelete` stopped it, held no copy of event data: it had received no post that it
had not begun to dispatch, or this post had no copy. -/
theorem deleted_clean_iff (A : Allocator) (queueSize : Nat) (loopTask : Task) (now : Ticks)
    (actions : List DeleteAction) (s' : Deletion)
    (hrun : Machine.exec (Deletion.step A queueSize loopTask) (.init loopTask now) actions = some s')
    (hreturned : ∃ task, s'.deleter = some (task, .returned)) :
    s'.Clean ↔ ∀ pre rest s, actions = pre ++ .deleteStep :: rest →
      Machine.exec (Deletion.step A queueSize loopTask) (.init loopTask now) pre = some s →
      (∃ task, s.deleter = some (task, .locked)) → s.loop.received.flatMap Post.copies = [] := by
  have h := running_init loopTask now
  obtain ⟨task', hreturned⟩ := hreturned
  constructor
  · rintro hclean pre rest s rfl hpre ⟨task, hlocked⟩
    exact (clean_iff_of_locked h hpre hlocked hrun hreturned).mp hclean
  · intro hheld
    rcases h.exec hrun with h' | ⟨pre, rest, s, task, rfl, hpre, hlocked⟩
    · have hrunning := h'.running
      rw [Deletion.running] at hrunning
      rw [hreturned] at hrunning
      cases hrunning
    · exact (clean_iff_of_locked h hpre hlocked hrun hreturned).mpr
        (hheld pre rest s rfl hpre ⟨task, hlocked⟩)

/-- An event in the queue does no harm. -/
theorem deleted_clean_iff_queued : ∃ s', Machine.exec (Deletion.step .unbounded 1 1) (.init 1 0)
      ([.loop (.postTo 2 (some 7) 0 (.bytes [1]) 0), .loop (.advance 2), .delete 3] ++
        List.replicate 9 .deleteStep) = some s' ∧
    (s'.Clean ↔ ∀ pre rest s,
      [.loop (.postTo 2 (some 7) 0 (.bytes [1]) 0), .loop (.advance 2), .delete 3] ++
        List.replicate 9 .deleteStep = pre ++ .deleteStep :: rest →
      Machine.exec (Deletion.step .unbounded 1 1) (.init 1 0) pre = some s →
      (∃ task, s.deleter = some (task, .locked)) →
        s.loop.received.flatMap Post.copies = []) := by
  have hsome : (Machine.exec (Deletion.step .unbounded 1 1) (.init 1 0)
      ([.loop (.postTo 2 (some 7) 0 (.bytes [1]) 0), .loop (.advance 2), .delete 3] ++
        List.replicate 9 .deleteStep)).map Deletion.deleter = some (some (3, .returned)) := by
    decide +kernel
  obtain ⟨s', hs', hdeleter⟩ := Option.map_eq_some_iff.mp hsome
  exact ⟨s', hs', deleted_clean_iff .unbounded 1 1 0 _ s' hs' ⟨3, hdeleter⟩⟩

/-- The loop's task has received an event with a byte of data and waits for the mutex when
another task deletes it: the copy is leaked. -/
theorem deleted_between_leaks : ∃ s', Machine.exec (Deletion.step .unbounded 1 1) (.init 1 0)
      ([.loop (.postTo 2 (some 7) 0 (.bytes [1]) 0), .loop (.advance 2), .loop (.runStep 0),
        .delete 3] ++ List.replicate 8 .deleteStep) = some s' ∧
    s'.deleter = some (3, .returned) ∧ ¬ s'.Clean := by
  have hsome : (Machine.exec (Deletion.step .unbounded 1 1) (.init 1 0)
      ([.loop (.postTo 2 (some 7) 0 (.bytes [1]) 0), .loop (.advance 2), .loop (.runStep 0),
        .delete 3] ++ List.replicate 8 .deleteStep)).map
          (fun s => (s.deleter, s.loop.memory.heap.live.length)) =
      some (some (3, .returned), 1) := by
    decide +kernel
  obtain ⟨s', hs', heq⟩ := Option.map_eq_some_iff.mp hsome
  refine ⟨s', hs', congrArg Prod.fst heq, fun hclean => ?_⟩
  have hlength := congrArg Prod.snd heq
  rw [hclean.2.1.1] at hlength
  cases hlength

end PicoHost.Event
