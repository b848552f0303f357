import PicoHost.Event.LoopFlow

/-!
# A loop with a dedicated task

The task of the loop runs it forever. It holds the mutex from the beginning of a dispatch
to the end of `post_instance_delete`, and it posts only in handlers; the other tasks do not
take the mutex to post. So a task that has taken the mutex finds the loop's task before
`xQueueReceive` or before the mutex, and in no call.
-/

namespace PicoHost.Event

/-- The part of `esp_event_loop_run` that has the mutex. -/
def RunPc.critical : RunPc → Bool
  | .dispatch .. | .handler .. | .deleted => true
  | .receive | .lock _ => false

/-- What holds of a loop with a dedicated task. `owner` is another task that holds the
mutex, if there is one. -/
structure Dedicated (loopTask : Task) (owner : Option Task) (s : LoopInstance) (r : Runner) :
    Prop where
  runner : s.runner = some r
  task : r.task = loopTask
  forever : r.ticksToRun = maxDelay
  sends : ∀ call ∈ s.calls, call.pc = .send
  inHandler : ∀ call ∈ s.calls, call.task = loopTask → r.pc.inHandler
  wf : Wf s.registry
  mutex : s.mutex =
    if r.pc.critical then .held loopTask 0
    else owner.elim .free fun task => .held task 0
  excluded : owner.isSome → r.pc.critical = false
  apart : owner ≠ some loopTask

section Dedicated

variable {A : Allocator} {queueSize : Nat} {loopTask : Task} {owner : Option Task}
  {s s' : LoopInstance} {r : Runner}

/-- A task in a handler has not called anything else. -/
theorem inHandler_of_idle {task : Task} (hr : s.runner = some r) (htask : r.task = task)
    (h : s.idle task = true) :
    (∀ call ∈ s.calls, call.task ≠ task) ∧ r.pc.inHandler = true := by
  rw [LoopInstance.idle] at h
  rw [hr] at h
  simp only [Bool.and_eq_true, Bool.or_eq_true, List.all_eq_true, decide_eq_true_eq] at h
  exact ⟨h.1, h.2.resolve_left fun hne => hne htask⟩

/-- A step that touches neither the runner nor the mutex, and begins no call. -/
theorem Dedicated.keep (d : Dedicated loopTask owner s r) (hrunner : s'.runner = s.runner)
    (hmutex : s'.mutex = s.mutex) (hcalls : ∀ call ∈ s'.calls, call ∈ s.calls)
    (hwf : Wf s'.registry) : Dedicated loopTask owner s' r :=
  ⟨hrunner.trans d.runner, d.task, d.forever, fun call hcall => d.sends call (hcalls call hcall),
    fun call hcall => d.inHandler call (hcalls call hcall), hwf, hmutex.trans d.mutex,
    d.excluded, d.apart⟩

/-- A post leaves the loop to its task. -/
theorem Dedicated.postTo {task : Task} {base : EventBase} {id : Int32} {data : EventData}
    {ticksToWait : Ticks} (d : Dedicated loopTask owner s r)
    (h : s.postTo A ⟨queueSize, some loopTask⟩ task base id data ticksToWait = some s') :
    Dedicated loopTask owner s' r ∧ ∀ call ∈ s'.calls, call ∈ s.calls ∨ call.task = task := by
  rw [LoopInstance.postTo] at h
  by_cases hidle : s.idle task = true
  · rw [if_pos hidle] at h
    dsimp only at h
    split at h
    · cases h
      exact ⟨d.keep rfl rfl (fun _ h => h) d.wf, fun _ h => .inl h⟩
    · split at h
      · cases h
        exact ⟨d.keep rfl rfl (fun _ h => h) d.wf, fun _ h => .inl h⟩
      · cases h
        refine ⟨⟨d.runner, d.task, d.forever, fun call hcall => ?_, fun call hcall htask => ?_,
          d.wf, d.mutex, d.excluded, d.apart⟩, fun call hcall => ?_⟩
        · rcases List.mem_cons.mp hcall with rfl | hcall
          · rfl
          · exact d.sends call hcall
        · rcases List.mem_cons.mp hcall with rfl | hcall
          · -- the loop's task can post in a handler only
            exact (inHandler_of_idle d.runner (d.task.trans htask.symm) hidle).2
          · exact d.inHandler call hcall htask
        · rcases List.mem_cons.mp hcall with rfl | hcall
          · exact .inr rfl
          · exact .inl hcall
  · rw [if_neg hidle] at h
    cases h

/-- A post that goes on leaves the loop to its task. -/
theorem Dedicated.advance {task : Task} (d : Dedicated loopTask owner s r)
    (h : s.advance ⟨queueSize, some loopTask⟩ task = some s') :
    Dedicated loopTask owner s' r ∧ ∀ call ∈ s'.calls, call ∈ s.calls := by
  rw [LoopInstance.advance] at h
  split at h
  · cases h
  · rename_i call hfind
    -- the call does not take the mutex
    rw [d.sends call (List.mem_of_find?_eq_some hfind)] at h
    replace h : s.sendToBack ⟨queueSize, some loopTask⟩ call = some s' := h
    have hsub : ∀ x ∈ s.calls.erase call, x ∈ s.calls := fun x hx => List.mem_of_mem_erase hx
    rw [LoopInstance.sendToBack] at h
    split at h
    · cases h
      exact ⟨d.keep rfl rfl hsub d.wf, hsub⟩
    · split at h
      · cases h
      · cases h
        exact ⟨d.keep rfl rfl hsub d.wf, hsub⟩

/-- A post from an interrupt leaves the loop to its task. -/
theorem Dedicated.isrPostTo (d : Dedicated loopTask owner s r) (args : LoopArgs)
    (base : EventBase) (id : Int32) (data : EventData) :
    Dedicated loopTask owner (s.isrPostTo args base id data) r ∧
      (s.isrPostTo args base id data).calls = s.calls := by
  unfold LoopInstance.isrPostTo
  dsimp only
  split
  · exact ⟨d.keep rfl rfl (fun _ h => h) d.wf, rfl⟩
  · split
    · exact ⟨d.keep rfl rfl (fun _ h => h) d.wf, rfl⟩
    · split
      · exact ⟨d.keep rfl rfl (fun _ h => h) d.wf, rfl⟩
      · exact ⟨d.keep rfl rfl (fun _ h => h) d.wf, rfl⟩

/-- A call on the registry leaves the loop to its task. -/
theorem Dedicated.register {task : Task} {call : Call} (d : Dedicated loopTask owner s r)
    (h : s.register A task call = some s') :
    Dedicated loopTask owner s' r ∧ s'.calls = s.calls := by
  rw [LoopInstance.register] at h
  split at h
  · cases h
    exact ⟨d.keep rfl rfl (fun _ h => h) (call.apply_wf A d.wf), rfl⟩
  · cases h

/-- A task that changes its own data leaves the loop to its task. -/
theorem Dedicated.write {bytes : List UInt8} (d : Dedicated loopTask owner s r)
    (h : s.write bytes = some s') : Dedicated loopTask owner s' r ∧ s'.calls = s.calls := by
  rw [LoopInstance.write] at h
  split at h
  · split at h
    · cases h
      exact ⟨d.keep rfl rfl (fun _ h => h) d.wf, rfl⟩
    · cases h
  · cases h

/-- A step of the runner that keeps the mutex and calls nothing. -/
theorem Dedicated.move (d : Dedicated loopTask owner s r) {pc : RunPc}
    (hrunner : s'.runner = some { r with pc }) (hmutex : s'.mutex = s.mutex)
    (hcalls : s'.calls = s.calls) (hregistry : s'.registry = s.registry)
    (hcritical : pc.critical = r.pc.critical)
    (hnone : ∀ call ∈ s.calls, call.task ≠ loopTask) :
    Dedicated loopTask owner s' { r with pc } where
  runner := hrunner
  task := d.task
  forever := d.forever
  sends := by
    rw [hcalls]
    exact d.sends
  inHandler call hcall htask := by
    rw [hcalls] at hcall
    exact absurd htask (hnone call hcall)
  wf := by
    rw [hregistry]
    exact d.wf
  mutex := by
    rw [hmutex, d.mutex, hcritical]
  excluded h := by
    rw [hcritical]
    exact d.excluded h
  apart := d.apart

/-- Outside handlers the loop's task is in no other call. -/
theorem Dedicated.not_calling (d : Dedicated loopTask owner s r) (hpc : r.pc.inHandler = false) :
    ∀ call ∈ s.calls, call.task ≠ loopTask := by
  intro call hcall htask
  have h := d.inHandler call hcall htask
  rw [hpc] at h
  cases h

/-- The loop task takes the mutex for a dispatch. -/
theorem Dedicated.lock {post : Post} (d : Dedicated loopTask owner s r) (hpc : r.pc = .lock post)
    (h : s.lock r post = some s') : ∃ r', Dedicated loopTask owner s' r' ∧ s'.calls = s.calls := by
  have hmutex := d.mutex
  rw [hpc] at hmutex
  have hnone := d.not_calling (hpc ▸ rfl)
  rw [LoopInstance.lock] at h
  split at h
  · cases h
  · rename_i mutex htake
    cases h
    rw [d.task, hmutex] at htake
    cases owner with
    | none =>
      cases htake
      refine ⟨_, ⟨rfl, d.task, d.forever, d.sends, fun call hcall htask => ?_, d.wf, rfl, ?_, ?_⟩,
        rfl⟩
      · exact absurd htask (hnone call hcall)
      · rintro ⟨⟩
      · rintro ⟨⟩
    | some task =>
      -- the other task has the mutex
      have hother : task ≠ loopTask := fun heq => d.apart (congrArg some heq)
      have hwait := RecursiveMutex.take_held_other hother 0
      cases htake.symm.trans hwait

/-- The loop task gives the mutex back and waits again. -/
theorem Dedicated.unlock (d : Dedicated loopTask owner s r) (hpc : r.pc = .deleted) (now : Ticks) :
    ∃ r', Dedicated loopTask owner (s.unlock r now) r' ∧ (s.unlock r now).calls = s.calls := by
  have hnone := d.not_calling (hpc ▸ rfl)
  have howner : owner = none := by
    cases howner : owner with
    | none => rfl
    | some task =>
      have h := d.excluded (howner ▸ rfl)
      rw [hpc] at h
      cases h
  have hmutex := d.mutex
  rw [hpc] at hmutex
  rw [LoopInstance.unlock]
  dsimp only
  rw [if_neg (not_not.mpr d.forever)]
  refine ⟨_, ⟨rfl, d.task, d.forever, d.sends, fun call hcall htask => ?_, d.wf, ?_, fun _ => rfl,
    d.apart⟩, rfl⟩
  · exact absurd htask (hnone call hcall)
  · subst howner
    show s.mutex.give r.task = .free
    rw [hmutex, d.task]
    exact if_pos rfl

/-- A step of the loop task is one of its own. -/
theorem Dedicated.runStep {now : Ticks} (d : Dedicated loopTask owner s r)
    (h : s.runStep now = some s') : ∃ r', Dedicated loopTask owner s' r' ∧ s'.calls = s.calls := by
  rw [LoopInstance.runStep] at h
  rw [d.runner] at h
  dsimp only at h
  cases hpc : r.pc with
  | receive =>
    rw [hpc] at h
    replace h : s.receive r = some s' := h
    rw [LoopInstance.receive] at h
    split at h
    · cases h
      exact ⟨_, d.move rfl rfl rfl rfl (hpc ▸ rfl) (d.not_calling (hpc ▸ rfl)), rfl⟩
    · rw [if_pos d.forever] at h
      cases h
  | lock post =>
    rw [hpc] at h
    exact d.lock hpc h
  | dispatch post delivery pc =>
    rw [hpc] at h
    replace h : s.dispatch r post delivery pc = some s' := h
    have hnone := d.not_calling (hpc ▸ rfl)
    rw [LoopInstance.dispatch] at h
    split at h
    · cases h
    · split at h
      · cases h
        exact ⟨_, d.move rfl rfl rfl rfl (hpc ▸ rfl) hnone, rfl⟩
      · cases h
        refine ⟨_, d.move rfl rfl rfl rfl ?_ hnone, rfl⟩
        rw [hpc]
        split
        · rfl
        · split <;> rfl
  | handler post delivery pc =>
    rw [hpc] at h
    replace h : s.returnHandler r post delivery pc = some s' := h
    rw [LoopInstance.returnHandler] at h
    split at h
    · rename_i hidle
      cases h
      rw [d.task] at hidle
      have hnone := (inHandler_of_idle d.runner d.task hidle).1
      exact ⟨_, d.move rfl rfl rfl rfl (hpc ▸ rfl) hnone, rfl⟩
    · cases h
  | deleted =>
    rw [hpc] at h
    cases h
    exact d.unlock hpc now

/-- The loop's task is the only one that runs the loop. -/
theorem Dedicated.not_run {task : Task} {ticksToRun now : Ticks} (d : Dedicated loopTask owner s r) :
    s.run task ticksToRun now = none := by
  rw [LoopInstance.run]
  rw [d.runner]

end Dedicated

end PicoHost.Event
