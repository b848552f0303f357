import PicoHost.Event.Delete
import PicoHost.Event.Locking

/-!
# The emitted events and the machines

The calls of the machines that nobody interrupts: they act on the mutex of the loop by
the events that the functions of `Traced` emit, and they leave and return what these
functions return. A registration is one action of its machine, a post up to four, and a
deletion as many as there are posts in the queue, and eight.
-/

namespace PicoHost.Event

open HoldCount

/-- What the task's events do to the mutex. -/
def onMutex (task : Task) :
    RecursiveMutex Task → HoldCount.Event LoopEvent → Option (RecursiveMutex Task) :=
  HoldCount.Event.act task fun m _ => m

/-- A balanced trace leaves a mutex as it was that the task can have at once. -/
theorem onMutex_balanced {task : Task} {m : RecursiveMutex Task} {trace : Trace}
    (hm : (m.take task).isSome)
    (h : Balanced (LoopEvent.effect id) (holds task m) trace) :
    Machine.exec (onMutex task) m trace = some m := by
  refine exec_of_balanced _ (fun m e => ?_) (fun _ _ h => h) hm h
  cases e <;> rfl

/-! ## Registration -/

/-- A call of the registration API in the machine. -/
theorem register_traced {A : Allocator} {s s' : LoopInstance} {task : Task} {call : Call}
    (h : s.register A task call = some s') :
    Machine.exec (onMutex task) s.mutex (Traced.apply A s.registry call).events =
        some s'.mutex ∧
      s'.registry = (Traced.apply A s.registry call).value.registry := by
  rw [LoopInstance.register] at h
  split at h
  next hguard =>
    cases h
    refine ⟨onMutex_balanced hguard.2 (apply_balanced A s.registry call _), ?_⟩
    rw [Traced.value_apply]
  next => cases h

/-! ## Posting -/

section Post

variable {A : Allocator} {args : LoopArgs} {s s' : LoopInstance} {task : Task}

/-- A task without a call has nothing to go on with. -/
theorem advance_idle (hcalls : ∀ call ∈ s.calls, call.task ≠ task) :
    s.advance args task = none := by
  have hnone : (s.calls.find? fun call => decide (call.task = task)) = none :=
    List.find?_eq_none.mpr fun call hcall => by simpa using hcalls call hcall
  rw [LoopInstance.advance, hnone]

/-- The call that the task has begun last. -/
theorem advance_head {call : PostCall} {calls : List PostCall} (hs : s.calls = call :: calls)
    (htask : call.task = task) :
    s.advance args task = match call.pc with
      | .take => s.takeMutex call
      | .locked => some (s.giveMutex call)
      | .send => s.sendToBack args call := by
  have hfind : (s.calls.find? fun call => decide (call.task = task)) = some call := by
    rw [hs]
    exact List.find?_cons_of_pos (decide_eq_true htask)
  obtain ⟨task, post, posted, ticksToWait, pc⟩ := call
  cases pc <;> simp only [LoopInstance.advance, hfind]

/-- What is left when a call is over: the mutex, the copies, and the result in the log. -/
structure Posted.Over (s s' : LoopInstance) (posted : Posted) (task : Task)
    (x : Traced (Memory × EspErr)) : Prop where
  mutex : Machine.exec (onMutex task) s.mutex x.events = some s'.mutex
  memory : s'.memory = x.value.1
  posted : s'.log.posted = s.log.posted ++ [(posted, x.value.2)]

variable {calls : List PostCall} {k : Nat}

/-- Where the task has no call, it can only stop. -/
theorem advances_idle
    (h : Machine.exec (LoopInstance.step A args) s (List.replicate k (.advance task)) = some s')
    (hs : s.calls = calls) (hothers : ∀ call ∈ calls, call.task ≠ task) : s' = s := by
  cases k with
  | zero => exact (Option.some.inj h).symm
  | succ k =>
    obtain ⟨s₁, h₁, -⟩ := Machine.exec_cons_some.mp h
    have hnone : s.advance args task = none := advance_idle (hs ▸ hothers)
    cases hnone.symm.trans h₁

/-- A call that is not over goes on with the step that its place tells. -/
theorem advances_head {call : PostCall}
    (h : Machine.exec (LoopInstance.step A args) s (List.replicate k (.advance task)) = some s')
    (hs : s.calls = call :: calls) (htask : call.task = task) (hend : s'.calls = calls) :
    ∃ k' s₁, (match call.pc with
      | .take => s.takeMutex call
      | .locked => some (s.giveMutex call)
      | .send => s.sendToBack args call) = some s₁ ∧
      Machine.exec (LoopInstance.step A args) s₁ (List.replicate k' (.advance task)) =
        some s' := by
  cases k with
  | zero =>
    cases h
    rw [hs] at hend
    exact absurd hend (List.cons_ne_self _ _)
  | succ k =>
    obtain ⟨s₁, h₁, h⟩ := Machine.exec_cons_some.mp h
    exact ⟨k, s₁, (advance_head hs htask).symm.trans h₁, h⟩

/-- The end of a call, from `xQueueSendToBack` on. -/
theorem sendToBack_over {call : PostCall}
    (h : Machine.exec (LoopInstance.step A args) s (List.replicate k (.advance task)) = some s')
    (hs : s.calls = call :: calls) (hothers : ∀ call ∈ calls, call.task ≠ task)
    (htask : call.task = task) (hpc : call.pc = .send) (hend : s'.calls = calls) :
    ∃ sent : Bool, Posted.Over s s' call.posted task (pure (if sent then (s.memory, .ok)
      else (postInstanceDelete s.memory call.post, .timeout))) := by
  obtain ⟨k', s₁, h₁, h⟩ := advances_head h hs htask hend
  rw [hpc] at h₁
  replace h₁ : s.sendToBack args call = some s₁ := h₁
  have herase : s.calls.erase call = calls := by rw [hs, List.erase_cons_head]
  rw [LoopInstance.sendToBack] at h₁
  split at h₁
  next =>
    cases h₁
    cases advances_idle h herase hothers
    exact ⟨true, rfl, rfl, rfl⟩
  next =>
    split at h₁
    next => cases h₁
    next =>
      cases h₁
      cases advances_idle h herase hothers
      exact ⟨false, rfl, rfl, rfl⟩

/-- A call that is about to look who runs the loop, or about to send to a dedicated one. -/
theorem call_over {call : PostCall}
    (h : Machine.exec (LoopInstance.step A args) s (List.replicate k (.advance task)) = some s')
    (hs : s.calls = call :: calls) (hothers : ∀ call ∈ calls, call.task ≠ task)
    (htask : call.task = task) (hpc : call.pc = if args.task.isSome then .send else .take)
    (hend : s'.calls = calls) (ticksToWait : Ticks) :
    ∃ o, Posted.Over s s' call.posted task (do
      let result ← Traced.sendToBack args o task ticksToWait
      pure (if result then (s.memory, .ok)
        else (postInstanceDelete s.memory call.post, .timeout))) := by
  cases hargs : args.task with
  | some loopTask =>
    rw [hargs] at hpc
    obtain ⟨sent, hover⟩ := sendToBack_over h hs hothers htask hpc hend
    refine ⟨⟨false, none, fun _ => sent⟩, ?_⟩
    rw [Traced.sendToBack, hargs]
    exact hover
  | none =>
    rw [hargs] at hpc
    obtain ⟨k', s₁, h₁, h⟩ := advances_head h hs htask hend
    rw [hpc] at h₁
    replace h₁ : s.takeMutex call = some s₁ := h₁
    have herase : s.calls.erase call = calls := by rw [hs, List.erase_cons_head]
    rw [LoopInstance.takeMutex] at h₁
    split at h₁
    next mutex hmutex =>
      cases h₁
      rw [htask] at hmutex
      rw [herase] at h
      obtain ⟨k', s₂, h₂, h⟩ := advances_head h rfl htask hend
      cases h₂
      rw [LoopInstance.giveMutex, List.erase_cons_head] at h
      obtain ⟨sent, hover⟩ := sendToBack_over h rfl hothers htask rfl hend
      refine ⟨⟨true, none, fun _ => sent⟩, ?_⟩
      rw [Traced.sendToBack, hargs]
      refine ⟨?_, hover.memory, hover.posted⟩
      have hgive : s'.mutex = mutex.give task := by
        have hmutex := Option.some.inj hover.mutex
        rw [← hmutex, ← htask]
      rw [hgive]
      exact Machine.exec_cons_some.mpr ⟨mutex, hmutex, rfl⟩
    next =>
      split at h₁
      next => cases h₁
      next =>
        cases h₁
        cases advances_idle h herase hothers
        refine ⟨⟨false, none, fun _ => false⟩, ?_⟩
        rw [Traced.sendToBack, hargs]
        exact ⟨rfl, rfl, rfl⟩

/-- A call of `esp_event_post_to` in the machine. -/
theorem postTo_traced {base : EventBase} {id : Int32} {data : EventData} {ticksToWait : Ticks}
    (h : Machine.exec (LoopInstance.step A args) s
      (.postTo task base id data ticksToWait :: List.replicate k (.advance task)) = some s')
    (hend : s'.calls = s.calls) :
    ∃ o, Posted.Over s s' ⟨base, id, data.toBytes⟩ task
      (Traced.espEventPostTo A args o s.memory task ⟨base, id⟩ data ticksToWait) := by
  obtain ⟨s₁, h₁, h⟩ := Machine.exec_cons_some.mp h
  replace h₁ : s.postTo A args task base id data ticksToWait = some s₁ := h₁
  rw [LoopInstance.postTo] at h₁
  split at h₁
  next hidle =>
    have hothers : ∀ call ∈ s.calls, call.task ≠ task := fun call hcall => by
      simpa using List.all_eq_true.mp (Bool.and_eq_true_iff.mp hidle).1 call hcall
    dsimp only at h₁
    by_cases hany : base = anyBase ∨ id = anyId
    · rw [if_pos hany] at h₁
      cases h₁
      cases advances_idle h rfl hothers
      refine ⟨⟨false, none, fun _ => false⟩, ?_⟩
      rw [Traced.espEventPostTo, if_pos hany]
      exact ⟨rfl, rfl, rfl⟩
    · rw [if_neg hany] at h₁
      have hx : ∀ o, Traced.espEventPostTo A args o s.memory task ⟨base, id⟩ data ticksToWait = _ :=
        fun o => if_neg hany
      simp only [hx]
      generalize newPost A s.memory base id data = built at h₁ ⊢
      obtain ⟨_ | post, memory⟩ := built
      · cases h₁
        cases advances_idle h rfl hothers
        exact ⟨⟨false, none, fun _ => false⟩, rfl, rfl, rfl⟩
      · cases h₁
        cases hargs : args.task with
        | none =>
          rw [hargs] at h
          obtain ⟨o, hover⟩ :=
            call_over h rfl hothers rfl (by rw [hargs]; rfl) hend ticksToWait
          exact ⟨o, hover.mutex, hover.memory, hover.posted⟩
        | some loopTask =>
          rw [hargs] at h
          obtain ⟨o, hover⟩ :=
            call_over h rfl hothers rfl (by rw [hargs]; rfl) hend ticksToWait
          exact ⟨o, hover.mutex, hover.memory, hover.posted⟩
  next => cases h₁

end Post

/-! ## Deletion -/

section Delete

variable {A : Allocator} {queueSize : Nat} {loopTask : Task} {s s' : Deletion}

/-- What the deletion leaves, told from where it is. -/
def Deletion.outcome (s : Deletion) : Option (RecursiveMutex Task × Registry × Memory) :=
  let drained := s.loop.queue.foldl postInstanceDelete s.loop.memory
  match s.deleter with
  | none => none
  | some (task, .lock) => (s.loop.mutex.take task).map fun mutex =>
    (mutex.give task, loopNodesRemoveAll s.loop.registry, drained)
  | some (task, .locked) | some (task, .stopped) =>
    some (s.loop.mutex.give task, loopNodesRemoveAll s.loop.registry, drained)
  | some (task, .draining) => some (s.loop.mutex.give task, s.loop.registry, drained)
  | some (task, .drained) | some (task, .queueDeleted) | some (task, .loopFreed) =>
    some (s.loop.mutex.give task, s.loop.registry, s.loop.memory)
  | some (_, .given) | some (_, .returned) =>
    some (s.loop.mutex, s.loop.registry, s.loop.memory)

/-- Every step of the deletion leads on to what it leaves. -/
theorem deleteStep_outcome (h : s.deleteStep = some s') : s'.outcome = s.outcome := by
  rw [Deletion.deleteStep] at h
  split at h
  next => cases h
  next task hdeleter =>
    split at h
    next => cases h
    next mutex hmutex =>
      cases h
      simp [Deletion.outcome, hdeleter, hmutex]
  next task hdeleter =>
    cases h
    simp [Deletion.outcome, hdeleter]
  next task hdeleter =>
    cases h
    simp [Deletion.outcome, hdeleter]
  next task hdeleter =>
    split at h
    next post queue hqueue =>
      cases h
      simp [Deletion.outcome, hdeleter, hqueue]
    next hqueue =>
      cases h
      simp [Deletion.outcome, hdeleter, hqueue]
  next task hdeleter =>
    cases h
    simp [Deletion.outcome, hdeleter]
  next task hdeleter =>
    cases h
    simp [Deletion.outcome, hdeleter]
  next task hdeleter =>
    cases h
    simp [Deletion.outcome, hdeleter]
  next task hdeleter =>
    cases h
    simp [Deletion.outcome, hdeleter]
  next => cases h

/-- A call of `esp_event_loop_delete` in the machine, from the take of the mutex to its
end. -/
theorem delete_traced {task : Task} {k : Nat} (hdeleter : s.deleter = some (task, .lock))
    (h : Machine.exec (Deletion.step A queueSize loopTask) s (List.replicate k .deleteStep) =
      some s') (hend : s'.deleter = some (task, .returned)) :
    Machine.exec (onMutex task) s.loop.mutex
        (Traced.espEventLoopDelete s.loop.registry s.loop.memory s.loop.queue).events =
          some s'.loop.mutex ∧
      (s'.loop.registry, s'.loop.memory) =
        (Traced.espEventLoopDelete s.loop.registry s.loop.memory s.loop.queue).value := by
  have houtcome : s'.outcome = s.outcome := by
    clear hdeleter hend
    induction k generalizing s with
    | zero => cases h; rfl
    | succ k ih =>
      obtain ⟨s₁, h₁, h⟩ := Machine.exec_cons_some.mp h
      exact (ih h).trans (deleteStep_outcome h₁)
  simp only [Deletion.outcome, hdeleter, hend] at houtcome
  obtain ⟨mutex, hmutex, houtcome⟩ := Option.map_eq_some_iff.mp houtcome.symm
  rw [RecursiveMutex.give_of_take hmutex] at houtcome
  obtain ⟨hgive, hvalue⟩ := Prod.mk.inj houtcome
  have htake : (s.loop.mutex.take task).isSome := by rw [hmutex]; rfl
  have hmutex' := onMutex_balanced htake (espEventLoopDelete_balanced s.loop.registry
    s.loop.memory s.loop.queue (holds task s.loop.mutex))
  rw [Traced.value_espEventLoopDelete, ← hgive]
  exact ⟨hmutex', hvalue.symm⟩

end Delete

end PicoHost.Event
