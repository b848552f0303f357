import PicoHost.Event.Dedicated

/-!
# `running_task` of a loop without a dedicated task

Any number of tasks run the loop here, and a handler may run it again. A run takes
its steps from `LoopInstance.step`; `SharedLoop` puts it there and takes it back.

`running_task` tells `esp_event_post_to` whether its caller is inside a dispatch,
where it must not wait for the queue. A run sets it at the beginning of a dispatch
and resets it behind, but not on the way out when its time is over. So the field
names a task in a dispatch in every state exactly if no run goes out that way with
its own task in the field (`named_iff`).
-/

namespace PicoHost.Event

/-! ## A loop that several tasks run -/

/-- A loop, the calls of `esp_event_loop_run` on it (the latest first), and the
`ticks_to_wait` of each task's last call of `esp_event_post_to`, which is no part
of the program. `loop.runner` is used only during a step. -/
structure SharedLoop where
  loop : LoopInstance
  runs : List Runner
  passed : Task → Ticks

def SharedLoop.init : SharedLoop := ⟨LoopInstance.init, [], fun _ => 0⟩

/-- A call of a task or of an interrupt, a step of the `i`-th run, or what a handler
of it writes. -/
inductive Turn where
  | call (action : Action)
  | runStep (i : Nat) (now : Ticks)
  | write (i : Nat) (bytes : List UInt8)

/-- The task that takes the action, if it is none of a run. -/
def Action.caller : Action → Option Task
  | .postTo task .. | .advance task | .run task .. | .register task _ => some task
  | .isrPostTo .. | .runStep _ | .write _ => none

/-- What a task passes as `ticks_to_wait`. -/
def Action.pass (passed : Task → Ticks) : Action → Task → Ticks
  | .postTo task _ _ _ ticksToWait => Function.update passed task ticksToWait
  | _ => passed

section Step

variable (A : Allocator) (args : LoopArgs) (s : SharedLoop)

/-- A task calls something: it is in no run, or in handlers of its runs. -/
def SharedLoop.call (action : Action) : Option SharedLoop :=
  if s.runs.all fun r => decide (some r.task ≠ action.caller) || r.pc.inHandler then
    (LoopInstance.step A args { s.loop with runner := none } action).map fun loop =>
      { loop := { loop with runner := none }
        runs := loop.runner.toList ++ s.runs
        passed := action.pass s.passed }
  else none

/-- A run goes on, unless a handler of it runs the loop itself. -/
def SharedLoop.inRun (i : Nat) (f : LoopInstance → Option LoopInstance) : Option SharedLoop :=
  match s.runs.drop i with
  | [] => none
  | r :: before =>
    if (s.runs.take i).all fun later => decide (later.task ≠ r.task) then
      (f { s.loop with runner := some r }).map fun loop =>
        { s with
          loop := { loop with runner := none }
          runs := s.runs.take i ++ (loop.runner.toList ++ before) }
    else none

def SharedLoop.step : Turn → Option SharedLoop
  | .call action => s.call A args action
  | .runStep i now => s.inRun i fun loop => loop.runStep now
  | .write i bytes => s.inRun i fun loop => loop.write bytes

end Step

/-! ## What is asked of the field -/

/-- The task is inside a dispatch. -/
def SharedLoop.Dispatching (s : SharedLoop) (task : Task) : Prop :=
  ∃ r ∈ s.runs, r.task = task ∧ r.pc.critical = true

/-- `running_task` is `NULL` or names a task that is inside a dispatch. -/
def SharedLoop.Named (s : SharedLoop) : Prop :=
  ∀ task, s.loop.runningTask = some task → s.Dispatching task

/-- When nobody runs the loop `running_task` is `NULL`, and a post from outside a
dispatch waits for the queue as long as its caller has asked for. -/
structure SharedLoop.Restored (s : SharedLoop) : Prop where
  idle : s.runs = [] → s.loop.runningTask = none
  waits : ∀ call ∈ s.loop.calls, call.pc = .send → ¬ s.Dispatching call.task →
    call.ticksToWait = s.passed call.task

/-- The time of a run is over behind a dispatch (esp_event.c:629–634). -/
def Runner.expires (r : Runner) (now : Ticks) : Bool :=
  decide (r.pc = .deleted) && decide (r.ticksToRun ≠ maxDelay) &&
    decide (r.remainingTicks - (now - r.marker).toNat ≤ 0)

/-- A run that goes out because its time is over does not leave its own task in
`running_task`, unless another dispatch of that task goes on. -/
def SharedLoop.leavesClean (s : SharedLoop) : Turn → Bool
  | .runStep i now =>
    match s.runs.drop i with
    | [] => true
    | r :: before =>
      !(r.expires now && decide (s.loop.runningTask = some r.task)) ||
        (s.runs.take i ++ before).any fun other =>
          decide (other.task = r.task) && other.pc.critical
  | .call _ | .write .. => true

/-! ## What the actions do to the calls and to the field -/

section Actions

variable {A : Allocator} {queueSize : Nat} {loop loop' : LoopInstance}

/-- What a post function leaves alone. -/
structure PostFrame (loop loop' : LoopInstance) : Prop where
  runner : loop'.runner = loop.runner
  runningTask : loop'.runningTask = loop.runningTask

/-- A post changes neither the runner nor the running task. -/
theorem postTo_calls {task : Task} {base : EventBase} {id : Int32} {data : EventData}
    {ticksToWait : Ticks}
    (h : loop.step A ⟨queueSize, none⟩ (.postTo task base id data ticksToWait) = some loop') :
    PostFrame loop loop' ∧ (∀ call ∈ loop.calls, call.task ≠ task) ∧
      ∀ call ∈ loop'.calls, call ∈ loop.calls ∨
        call.task = task ∧ call.ticksToWait = ticksToWait := by
  rw [LoopInstance.step, LoopInstance.postTo] at h
  split at h
  case isFalse => cases h
  case isTrue hidle =>
    have hfree : ∀ call ∈ loop.calls, call.task ≠ task := by
      simp only [LoopInstance.idle, Bool.and_eq_true, List.all_eq_true, decide_eq_true_eq] at hidle
      exact hidle.1
    dsimp only at h
    split at h
    · cases h
      exact ⟨⟨rfl, rfl⟩, hfree, fun call hcall => .inl hcall⟩
    · split at h
      · cases h
        exact ⟨⟨rfl, rfl⟩, hfree, fun call hcall => .inl hcall⟩
      · cases h
        refine ⟨⟨rfl, rfl⟩, hfree, fun call hcall => ?_⟩
        rcases List.mem_cons.mp hcall with rfl | hcall
        · exact .inr ⟨rfl, rfl⟩
        · exact .inl hcall

/-- A call goes on with the ticks of its caller, unless its task is in `running_task`. -/
theorem advance_calls {task : Task} (h : loop.step A ⟨queueSize, none⟩ (.advance task) = some loop') :
    PostFrame loop loop' ∧ ∀ call ∈ loop'.calls, call ∈ loop.calls ∨
      ∃ old ∈ loop.calls, old.task = call.task ∧ old.pc ≠ .send ∧
        (call.ticksToWait = old.ticksToWait ∨
          call.pc = .send ∧ loop.runningTask = some call.task) := by
  rw [LoopInstance.step, LoopInstance.advance] at h
  split at h
  · cases h
  · rename_i call hfind
    have hmem : call ∈ loop.calls := List.mem_of_find?_eq_some hfind
    have hsub : ∀ x ∈ loop.calls.erase call, x ∈ loop.calls := fun x hx => List.mem_of_mem_erase hx
    split at h
    -- at the take of the mutex
    · rename_i hpc
      rw [LoopInstance.takeMutex] at h
      split at h
      · cases h
        refine ⟨⟨rfl, rfl⟩, fun x hx => ?_⟩
        rcases List.mem_cons.mp hx with rfl | hx
        · exact .inr ⟨call, hmem, rfl, by simp [hpc], .inl rfl⟩
        · exact .inl (hsub x hx)
      · split at h
        · cases h
        · cases h
          exact ⟨⟨rfl, rfl⟩, fun x hx => .inl (hsub x hx)⟩
    -- under the mutex, where `running_task` is read
    · rename_i hpc
      cases h
      refine ⟨⟨rfl, rfl⟩, fun x hx => ?_⟩
      rcases List.mem_cons.mp hx with rfl | hx
      · refine .inr ⟨call, hmem, rfl, by simp [hpc], ?_⟩
        by_cases hrunning : loop.runningTask = some call.task
        · exact .inr ⟨rfl, hrunning⟩
        · exact .inl (if_pos hrunning)
      · exact .inl (hsub x hx)
    -- at the queue
    · rw [LoopInstance.sendToBack] at h
      split at h
      · cases h
        exact ⟨⟨rfl, rfl⟩, fun x hx => .inl (hsub x hx)⟩
      · split at h
        · cases h
        · cases h
          exact ⟨⟨rfl, rfl⟩, fun x hx => .inl (hsub x hx)⟩

/-- A post from an interrupt changes neither the runner nor the running task. -/
theorem isrPostTo_frame (args : LoopArgs) (base : EventBase) (id : Int32) (data : EventData) :
    PostFrame loop (loop.isrPostTo args base id data) ∧
      (loop.isrPostTo args base id data).calls = loop.calls := by
  rw [LoopInstance.isrPostTo]
  split
  · exact ⟨⟨rfl, rfl⟩, rfl⟩
  · split
    · exact ⟨⟨rfl, rfl⟩, rfl⟩
    · split
      · exact ⟨⟨rfl, rfl⟩, rfl⟩
      · exact ⟨⟨rfl, rfl⟩, rfl⟩

/-- What a step of a run does to the run and to `running_task`: out of the queue's
timeout, out of the expired time, behind a dispatch, in a dispatch, or before one. -/
inductive Moved (r : Runner) (now : Ticks) (running : Option Task) :
    Option Runner → Option Task → Prop
  | timeout (hpc : r.pc.critical = false) : Moved r now running none running
  | expired (h : r.expires now = true) : Moved r now running none running
  | reset {r' : Runner} (htask : r'.task = r.task) : Moved r now running (some r') none
  | inside {r' : Runner} {running' : Option Task} (htask : r'.task = r.task)
      (hpc : r'.pc.critical = true) (hrunning : running' = running ∨ running' = some r.task) :
      Moved r now running (some r') running'
  | outside {r' : Runner} (htask : r'.task = r.task) (hpc : r.pc.critical = false) :
      Moved r now running (some r') running

/-- What a step of the runner does to the running task -/
theorem runStep_moved {r : Runner} {now : Ticks} (hr : loop.runner = some r)
    (h : loop.runStep now = some loop') :
    Moved r now loop.runningTask loop'.runner loop'.runningTask ∧ loop'.calls = loop.calls := by
  rw [LoopInstance.runStep, hr] at h
  cases hpc : r.pc with
  | receive =>
    simp only [hpc, LoopInstance.receive] at h
    split at h
    · cases h
      exact ⟨.outside rfl (hpc ▸ rfl), rfl⟩
    · split at h
      · cases h
      · cases h
        exact ⟨.timeout (hpc ▸ rfl), rfl⟩
  | lock post =>
    simp only [hpc, LoopInstance.lock] at h
    split at h
    · cases h
    · cases h
      exact ⟨.inside rfl rfl (.inr rfl), rfl⟩
  | dispatch post delivery pc =>
    simp only [hpc, LoopInstance.dispatch] at h
    split at h
    · cases h
    · split at h
      · cases h
        exact ⟨.inside rfl rfl (.inl rfl), rfl⟩
      · cases h
        refine ⟨.inside rfl ?_ (.inl rfl), rfl⟩
        dsimp only
        split
        · rfl
        · split <;> rfl
  | handler post delivery pc =>
    simp only [hpc, LoopInstance.returnHandler] at h
    split at h
    · cases h
      exact ⟨.inside rfl rfl (.inl rfl), rfl⟩
    · cases h
  | deleted =>
    simp only [hpc] at h
    cases h
    rw [LoopInstance.unlock]
    dsimp only
    split
    case isTrue hticks =>
      -- the way out that does not reset the field
      split
      case isTrue hexpired =>
        refine ⟨.expired ?_, rfl⟩
        simp only [Runner.expires, hpc, hticks, hexpired, decide_true, ne_eq, not_false_eq_true,
          Bool.and_self]
      case isFalse => exact ⟨.reset rfl, rfl⟩
    case isFalse => exact ⟨.reset rfl, rfl⟩

/-- A run goes on only while its task is in no other call. -/
theorem not_calling_of_runStep {r : Runner} {now : Ticks} (hr : loop.runner = some r)
    (h : loop.runStep now = some loop')
    (hcalls : ∀ call ∈ loop.calls, r.task = call.task → r.pc.inHandler = true) :
    ∀ call ∈ loop.calls, call.task ≠ r.task := by
  intro call hcall htask
  have hhandler := hcalls call hcall htask.symm
  cases hpc : r.pc with
  | receive | lock | dispatch | deleted =>
    rw [hpc] at hhandler
    cases hhandler
  | handler post delivery pc =>
    -- the handler returns, so its task is in no other call
    rw [LoopInstance.runStep, hr] at h
    simp only [hpc, LoopInstance.returnHandler] at h
    split at h
    · rename_i hidle
      exact (inHandler_of_idle hr rfl hidle).1 call hcall htask
    · cases h

/-- A task that changes its own data changes neither the runner nor the running task. -/
theorem write_frame {bytes : List UInt8} (h : loop.write bytes = some loop') :
    PostFrame loop loop' ∧ loop'.calls = loop.calls := by
  rw [LoopInstance.write] at h
  split at h
  · split at h
    · cases h
      exact ⟨⟨rfl, rfl⟩, rfl⟩
    · cases h
  · cases h

end Actions

/-! ## One turn -/

section Turns

variable {A : Allocator} {queueSize : Nat} {s s' : SharedLoop}

/-- A step of a run, with the runs that began later and those that began before. -/
theorem inRun_spec {i : Nat} {f : LoopInstance → Option LoopInstance} (h : s.inRun i f = some s') :
    ∃ r before loop', s.runs.drop i = r :: before ∧ s.runs = s.runs.take i ++ r :: before ∧
      f { s.loop with runner := some r } = some loop' ∧
      s' = { s with
        loop := { loop' with runner := none }
        runs := s.runs.take i ++ (loop'.runner.toList ++ before) } := by
  rw [SharedLoop.inRun] at h
  cases hdrop : s.runs.drop i with
  | nil =>
    rw [hdrop] at h
    cases h
  | cons r before =>
    rw [hdrop] at h
    dsimp only at h
    split at h
    · obtain ⟨loop', hf, rfl⟩ := Option.map_eq_some_iff.mp h
      refine ⟨r, before, loop', rfl, ?_, hf, rfl⟩
      rw [← hdrop, List.take_append_drop]
    · cases h

/-- The runs of the other tasks go on as they are. -/
theorem Dispatching.other {later before : List Runner} {r : Runner} {o : Option Runner}
    {task : Task} (h : ∃ x ∈ later ++ r :: before, x.task = task ∧ x.pc.critical = true)
    (hr : r.task = task → r.pc.critical = true → False) :
    ∃ x ∈ later ++ (o.toList ++ before), x.task = task ∧ x.pc.critical = true := by
  obtain ⟨x, hx, htask, hpc⟩ := h
  refine ⟨x, ?_, htask, hpc⟩
  rcases List.mem_append.mp hx with hx | hx
  · exact List.mem_append_left _ hx
  · rcases List.mem_cons.mp hx with rfl | hx
    · exact absurd hpc (hr htask)
    · exact List.mem_append_right _ (List.mem_append_right _ hx)

/-- A step of a run keeps the running task named, unless it takes the exit that forgets it. -/
theorem named_runStep {i : Nat} {now : Ticks}
    (hclean : s.leavesClean (.runStep i now) = true)
    (h : s.inRun i (fun loop => loop.runStep now) = some s') (named : s.Named) : s'.Named := by
  obtain ⟨r, before, loop', hdrop, hruns, hf, rfl⟩ := inRun_spec h
  obtain ⟨hmoved, -⟩ := runStep_moved rfl hf
  intro task htask
  have hold : s.loop.runningTask = some task →
      ∃ x ∈ s.runs.take i ++ r :: before, x.task = task ∧ x.pc.critical = true := by
    intro hrunning
    rw [← hruns]
    exact named task hrunning
  replace htask : loop'.runningTask = some task := htask
  show ∃ x ∈ s.runs.take i ++ (loop'.runner.toList ++ before), _
  generalize loop'.runner = runner at hmoved ⊢
  generalize loop'.runningTask = running at hmoved htask
  cases hmoved with
  | timeout hpc =>
    refine Dispatching.other (hold htask) fun _ hcritical => ?_
    rw [hpc] at hcritical
    cases hcritical
  | expired hexpires =>
    by_cases hown : r.task = task
    · -- another dispatch of the same task goes on
      have hrunning : s.loop.runningTask = some r.task := by rw [hown]; exact htask
      simp only [SharedLoop.leavesClean, hdrop, hexpires, hrunning, decide_true, Bool.and_self,
        Bool.not_true, Bool.false_or, List.any_eq_true, Bool.and_eq_true, decide_eq_true_eq]
        at hclean
      obtain ⟨x, hx, hxtask, hpc⟩ := hclean
      exact ⟨x, hx, hxtask.trans hown, hpc⟩
    · exact Dispatching.other (hold htask) fun htask' _ => hown htask'
  | reset => cases htask
  | @inside r' _ hsame hpc hrunning =>
    -- this dispatch, or one of another task
    by_cases hown : r'.task = task
    · refine ⟨r', ?_, hown, hpc⟩
      exact List.mem_append_right _ (List.mem_append_left _ (List.mem_singleton_self r'))
    · rcases hrunning with rfl | rfl
      · exact Dispatching.other (hold htask) fun htask' _ => hown (hsame.trans htask')
      · exact absurd (hsame.trans (Option.some.inj htask)) hown
  | outside _ hpc =>
    refine Dispatching.other (hold htask) fun _ hcritical => ?_
    rw [hpc] at hcritical
    cases hcritical

/-- A run that goes out with its own task in the field, and no other dispatch of it. -/
theorem not_named_of_unclean {i : Nat} {now : Ticks}
    (hclean : s.leavesClean (.runStep i now) = false)
    (h : s.inRun i (fun loop => loop.runStep now) = some s') : ¬ s'.Named := by
  obtain ⟨r, before, loop', hdrop, hruns, hf, rfl⟩ := inRun_spec h
  simp only [SharedLoop.leavesClean, hdrop, Bool.or_eq_false_iff, Bool.not_eq_false',
    Bool.and_eq_true, decide_eq_true_eq, List.any_eq_false] at hclean
  obtain ⟨⟨hexpires, hrunning⟩, hnone⟩ := hclean
  intro named
  -- the run is gone, and the field is as it was
  have hout : loop'.runner = none ∧ loop'.runningTask = s.loop.runningTask := by
    simp only [Runner.expires, Bool.and_eq_true, decide_eq_true_eq] at hexpires
    obtain ⟨⟨hpc, hticks⟩, hexpired⟩ := hexpires
    simp only [LoopInstance.runStep, hpc, LoopInstance.unlock, if_pos hticks, if_pos hexpired,
      Option.some.injEq] at hf
    rw [← hf]
    exact ⟨rfl, rfl⟩
  obtain ⟨x, hx, htask, hpc⟩ := named r.task (hout.2.trans hrunning)
  have hx : x ∈ s.runs.take i ++ before := by
    rw [hout.1] at hx
    exact hx
  exact hnone x hx ⟨htask, hpc⟩

/-- A task calls where it has no run in progress, or from a handler of its runs. -/
theorem call_some {action : Action} (h : s.call A ⟨queueSize, none⟩ action = some s') :
    (∀ r ∈ s.runs, some r.task = action.caller → r.pc.inHandler = true) ∧
    ∃ loop', LoopInstance.step A ⟨queueSize, none⟩ { s.loop with runner := none } action =
        some loop' ∧
      s' = {
        loop := { loop' with runner := none }
        runs := loop'.runner.toList ++ s.runs
        passed := action.pass s.passed } := by
  rw [SharedLoop.call] at h
  by_cases hfree : (s.runs.all fun r =>
      decide (some r.task ≠ action.caller) || r.pc.inHandler) = true
  · rw [if_pos hfree] at h
    obtain ⟨loop', hf, hs'⟩ := Option.map_eq_some_iff.mp h
    refine ⟨fun r hr hcaller => ?_, loop', hf, hs'.symm⟩
    have hr' := List.all_eq_true.mp hfree r hr
    simpa [hcaller] using hr'
  · rw [if_neg hfree] at h
    cases h

/-- Calls leave the runs alone, apart from the one that begins a run. -/
theorem call_spec {action : Action} (h : s.call A ⟨queueSize, none⟩ action = some s') :
    s'.loop.runningTask = s.loop.runningTask ∧
      (s'.runs = s.runs ∨ ∃ r, s'.runs = r :: s.runs ∧ s'.loop.calls = s.loop.calls ∧
        ∀ call ∈ s.loop.calls, call.task ≠ r.task) := by
  obtain ⟨-, loop', hf, rfl⟩ := call_some h
  -- the post functions begin no run
  have hframe : ∀ {loop' : LoopInstance},
      PostFrame { s.loop with runner := none } loop' →
      loop'.runningTask = s.loop.runningTask ∧
        (loop'.runner.toList ++ s.runs = s.runs ∨ ∃ r,
          loop'.runner.toList ++ s.runs = r :: s.runs ∧ loop'.calls = s.loop.calls ∧
            ∀ call ∈ s.loop.calls, call.task ≠ r.task) := by
    intro loop' frame
    refine ⟨frame.runningTask, .inl ?_⟩
    rw [frame.runner]
    rfl
  cases action with
  | postTo task base id data ticksToWait => exact hframe (postTo_calls hf).1
  | advance task => exact hframe (advance_calls hf).1
  | isrPostTo base id data =>
    cases hf
    exact hframe (isrPostTo_frame ⟨queueSize, none⟩ base id data).1
  | run task ticksToRun now =>
    simp only [LoopInstance.step, LoopInstance.run] at hf
    split at hf
    · rename_i hidle
      cases hf
      refine ⟨rfl, .inr ⟨_, rfl, rfl, ?_⟩⟩
      simp only [LoopInstance.idle, Bool.and_eq_true, List.all_eq_true, decide_eq_true_eq]
        at hidle
      exact hidle.1
    · cases hf
  | runStep now => cases hf
  | register task call =>
    simp only [LoopInstance.step, LoopInstance.register] at hf
    split at hf
    · cases hf
      exact ⟨rfl, .inl rfl⟩
    · cases hf
  | write bytes => cases hf

/-- A call keeps the running task named. -/
theorem named_call {action : Action} (h : s.call A ⟨queueSize, none⟩ action = some s')
    (named : s.Named) : s'.Named := by
  obtain ⟨hrunning, hruns⟩ := call_spec h
  intro task htask
  obtain ⟨x, hx, hxtask⟩ := named task (hrunning.symm.trans htask)
  refine ⟨x, ?_, hxtask⟩
  rcases hruns with hruns | ⟨r, hruns, -⟩
  · rw [hruns]
    exact hx
  · rw [hruns]
    exact List.mem_cons_of_mem r hx

/-- A write of a handler's data leaves the runs alone. -/
theorem write_spec {i : Nat} {bytes : List UInt8}
    (h : s.inRun i (fun loop => loop.write bytes) = some s') :
    s'.runs = s.runs ∧ s'.loop.runningTask = s.loop.runningTask ∧
      s'.loop.calls = s.loop.calls ∧ s'.passed = s.passed := by
  obtain ⟨r, before, loop', -, hruns, hf, rfl⟩ := inRun_spec h
  obtain ⟨frame, hcalls⟩ := write_frame hf
  refine ⟨?_, frame.runningTask, hcalls, rfl⟩
  dsimp only
  rw [frame.runner]
  exact hruns.symm

/-- Every turn that leaves clean keeps the running task named. -/
theorem named_step {turn : Turn} (hclean : s.leavesClean turn = true)
    (h : s.step A ⟨queueSize, none⟩ turn = some s') (named : s.Named) : s'.Named := by
  cases turn with
  | call action => exact named_call h named
  | runStep i now => exact named_runStep hclean h named
  | write i bytes =>
    obtain ⟨hruns, hrunning, -⟩ := write_spec h
    intro task htask
    rw [SharedLoop.Dispatching, hruns]
    exact named task (hrunning.symm.trans htask)

/-- In every run of a loop without a dedicated task, the field names a task in a
dispatch in every state exactly if every run goes out clean. -/
theorem named_iff {turns : List Turn} {t : SharedLoop}
    (h : Machine.exec (SharedLoop.step A ⟨queueSize, none⟩) .init turns = some t) :
    Machine.Each (SharedLoop.step A ⟨queueSize, none⟩) (fun _ _ s' => s'.Named) .init turns ↔
      Machine.Along (SharedLoop.step A ⟨queueSize, none⟩)
        (fun s turn => s.leavesClean turn = true) .init turns := by
  refine Machine.each_iff_along (I := SharedLoop.Named) (fun s turn s' hclean hstep named => ?_)
    (fun s turn s' hclean hstep _ => ?_) h nofun
  · have hnamed := named_step hclean hstep named
    exact ⟨hnamed, hnamed⟩
  · cases turn with
    | call action => exact absurd rfl hclean
    | runStep i now => exact not_named_of_unclean (Bool.eq_false_iff.mpr hclean) hstep
    | write i bytes => exact absurd rfl hclean

/-! ## The ticks of the posts -/

/-- A task that is in a call of `esp_event_post_to` runs the loop in handlers only,
and waits as long as it has asked for unless it is in a dispatch. -/
structure SharedLoop.Asked (s : SharedLoop) : Prop where
  inHandler : ∀ call ∈ s.loop.calls, ∀ r ∈ s.runs, r.task = call.task → r.pc.inHandler = true
  passed : ∀ call ∈ s.loop.calls, call.ticksToWait = s.passed call.task ∨
    call.pc = .send ∧ s.Dispatching call.task

/-- A step of a run keeps what the tasks have asked for. -/
theorem asked_runStep {i : Nat} {now : Ticks}
    (h : s.inRun i (fun loop => loop.runStep now) = some s') (asked : s.Asked) : s'.Asked := by
  obtain ⟨r, before, loop', -, hruns, hf, rfl⟩ := inRun_spec h
  obtain ⟨hmoved, hcalls⟩ := runStep_moved rfl hf
  have hrmem : r ∈ s.runs := by
    rw [hruns]
    exact List.mem_append_right _ (List.mem_cons_self ..)
  -- a task that is in a call is not the one of this run
  have hfree : ∀ call ∈ s.loop.calls, call.task ≠ r.task :=
    @not_calling_of_runStep { s.loop with runner := some r } loop' r now rfl hf
      fun call hcall => asked.inHandler call hcall r hrmem
  have hsame : ∀ r' : Runner, loop'.runner = some r' → r'.task = r.task := by
    intro r' hr'
    rw [hr'] at hmoved
    generalize loop'.runningTask = running at hmoved
    cases hmoved with
    | reset htask | inside htask | outside htask => exact htask
  constructor
  · intro call hcall x hx htask
    replace hcall : call ∈ s.loop.calls := hcalls ▸ hcall
    rcases List.mem_append.mp hx with hx | hx
    · exact asked.inHandler call hcall x (List.mem_of_mem_take hx) htask
    · rcases List.mem_append.mp hx with hx | hx
      · have hrun := hsame x (Option.mem_toList.mp hx)
        exact absurd (htask.symm.trans hrun) (hfree call hcall)
      · refine asked.inHandler call hcall x ?_ htask
        rw [hruns]
        exact List.mem_append_right _ (List.mem_cons_of_mem r hx)
  · intro call hcall
    replace hcall : call ∈ s.loop.calls := hcalls ▸ hcall
    rcases asked.passed call hcall with hpassed | ⟨hpc, hdispatching⟩
    · exact .inl hpassed
    · rw [SharedLoop.Dispatching, hruns] at hdispatching
      exact .inr ⟨hpc, Dispatching.other hdispatching fun htask _ =>
        hfree call hcall htask.symm⟩

/-- More runs, and calls from before or with the ticks passed. -/
theorem SharedLoop.Asked.extend (asked : s.Asked) (hruns : ∀ x ∈ s.runs, x ∈ s'.runs)
    (hhandler : ∀ call ∈ s'.loop.calls, ∀ r ∈ s'.runs, r.task = call.task →
      r.pc.inHandler = true)
    (hcalls : ∀ call ∈ s'.loop.calls,
      (call ∈ s.loop.calls ∧ s'.passed call.task = s.passed call.task) ∨
      call.ticksToWait = s'.passed call.task ∨ call.pc = .send ∧ s.Dispatching call.task) :
    s'.Asked := by
  have hdispatching : ∀ task, s.Dispatching task → s'.Dispatching task := by
    rintro task ⟨x, hx, hxtask⟩
    exact ⟨x, hruns x hx, hxtask⟩
  refine ⟨hhandler, fun call hcall => ?_⟩
  rcases hcalls call hcall with ⟨hold, hpassed⟩ | hticks | ⟨hpc, hdisp⟩
  · rcases asked.passed call hold with hticks | ⟨hpc, hdisp⟩
    · exact .inl (hticks.trans hpassed.symm)
    · exact .inr ⟨hpc, hdispatching _ hdisp⟩
  · exact .inl hticks
  · exact .inr ⟨hpc, hdispatching _ hdisp⟩

/-- The new call has the ticks that its task passes with it. -/
theorem asked_postTo {task : Task} {base : EventBase} {id : Int32} {data : EventData}
    {ticksToWait : Ticks}
    (h : s.call A ⟨queueSize, none⟩ (.postTo task base id data ticksToWait) = some s')
    (asked : s.Asked) : s'.Asked := by
  obtain ⟨hcaller, loop', hf, rfl⟩ := call_some h
  obtain ⟨frame, hfree, hcalls⟩ := postTo_calls hf
  have hnone : loop'.runner = none := frame.runner
  refine asked.extend (fun x hx => List.mem_append_right _ hx) (fun call hcall r hr htask => ?_)
    fun call hcall => ?_
  · replace hr : r ∈ s.runs := by simpa [hnone] using hr
    rcases hcalls call hcall with hold | ⟨hown, -⟩
    · exact asked.inHandler call hold r hr htask
    · exact hcaller r hr (congrArg some (htask.trans hown))
  · rcases hcalls call hcall with hold | ⟨hown, hticks⟩
    · exact .inl ⟨hold, Function.update_of_ne (hfree call hold) _ _⟩
    · refine .inr (.inl ?_)
      rw [hticks, hown]
      exact (Function.update_self task ticksToWait s.passed).symm

/-- A call before its send still has the ticks of its caller. -/
theorem asked_advance {task : Task} (h : s.call A ⟨queueSize, none⟩ (.advance task) = some s')
    (named : s.Named) (asked : s.Asked) : s'.Asked := by
  obtain ⟨-, loop', hf, rfl⟩ := call_some h
  obtain ⟨frame, hcalls⟩ := advance_calls hf
  have hnone : loop'.runner = none := frame.runner
  refine asked.extend (fun x hx => List.mem_append_right _ hx) (fun call hcall r hr htask => ?_)
    fun call hcall => ?_
  · replace hr : r ∈ s.runs := by simpa [hnone] using hr
    rcases hcalls call hcall with hold | ⟨old, hold, heq, -⟩
    · exact asked.inHandler call hold r hr htask
    · exact asked.inHandler old hold r hr (htask.trans heq.symm)
  · rcases hcalls call hcall with hold | ⟨old, hold, heq, hpc, hticks⟩
    · exact .inl ⟨hold, rfl⟩
    · have hpassed := (asked.passed old hold).resolve_right fun h => hpc h.1
      rcases hticks with hticks | ⟨hsend, hrunning⟩
      · exact .inr (.inl (hticks.trans (hpassed.trans (congrArg s.passed heq))))
      · exact .inr (.inr ⟨hsend, named _ hrunning⟩)

/-- An action that changes neither the calls nor what was passed -/
theorem asked_same {action : Action} (h : s.call A ⟨queueSize, none⟩ action = some s')
    (hcalls : ∀ loop', LoopInstance.step A ⟨queueSize, none⟩ { s.loop with runner := none } action =
      some loop' → loop'.calls = s.loop.calls)
    (hpass : ∀ passed, action.pass passed = passed) (asked : s.Asked) : s'.Asked := by
  obtain ⟨-, hruns⟩ := call_spec h
  obtain ⟨-, loop', hf, rfl⟩ := call_some h
  have hcalls := hcalls loop' hf
  refine asked.extend (fun x hx => List.mem_append_right _ hx) (fun call hcall r hr htask => ?_)
    fun call hcall => ?_
  · replace hcall : call ∈ s.loop.calls := hcalls ▸ hcall
    rcases hruns with hruns | ⟨new, hruns, -, hfree⟩
    · exact asked.inHandler call hcall r (hruns ▸ hr) htask
    · rcases List.mem_cons.mp (hruns ▸ hr) with rfl | hr
      · exact absurd htask.symm (hfree call hcall)
      · exact asked.inHandler call hcall r hr htask
  · exact .inl ⟨hcalls ▸ hcall, congrFun (hpass s.passed) _⟩

/-- A call adds what the task asks for. -/
theorem asked_call {action : Action} (h : s.call A ⟨queueSize, none⟩ action = some s')
    (named : s.Named) (asked : s.Asked) : s'.Asked := by
  cases action with
  | postTo task base id data ticksToWait => exact asked_postTo h asked
  | advance task => exact asked_advance h named asked
  | isrPostTo base id data =>
    refine asked_same h (fun loop' hf => ?_) (fun _ => rfl) asked
    cases hf
    exact (isrPostTo_frame ⟨queueSize, none⟩ base id data).2
  | run task ticksToRun now =>
    refine asked_same h (fun loop' hf => ?_) (fun _ => rfl) asked
    simp only [LoopInstance.step, LoopInstance.run] at hf
    split at hf
    · cases hf
      rfl
    · cases hf
  | register task call =>
    refine asked_same h (fun loop' hf => ?_) (fun _ => rfl) asked
    simp only [LoopInstance.step, LoopInstance.register] at hf
    split at hf
    · cases hf
      rfl
    · cases hf
  | runStep now =>
    obtain ⟨-, loop', hf, -⟩ := call_some h
    cases hf
  | write bytes =>
    obtain ⟨-, loop', hf, -⟩ := call_some h
    cases hf

/-- Every turn keeps what the tasks have asked for. -/
theorem asked_step {turn : Turn} (h : s.step A ⟨queueSize, none⟩ turn = some s')
    (named : s.Named) (asked : s.Asked) : s'.Asked := by
  cases turn with
  | call action => exact asked_call h named asked
  | runStep i now => exact asked_runStep h asked
  | write i bytes =>
    obtain ⟨hruns, -, hcalls, hpassed⟩ := write_spec h
    refine asked.extend (fun x hx => hruns ▸ hx) (fun call hcall r hr => ?_) fun call hcall => ?_
    · exact asked.inHandler call (hcalls ▸ hcall) r (hruns ▸ hr)
    · exact .inl ⟨hcalls ▸ hcall, by rw [hpassed]⟩

end Turns

/-! ## Runs -/

/-- In every state that a loop without a dedicated task reaches, `running_task` is
`NULL` when nobody runs the loop, and posts from outside a dispatch wait as asked for, if every
run goes out clean. -/
theorem restored_of_clean (A : Allocator) (queueSize : Nat) (turns : List Turn) (s : SharedLoop)
    (h : Machine.exec (SharedLoop.step A ⟨queueSize, none⟩) .init turns = some s)
    (hclean : Machine.Along (SharedLoop.step A ⟨queueSize, none⟩)
      (fun s turn => s.leavesClean turn = true) .init turns) : s.Restored := by
  have hinv : s.Named ∧ s.Asked :=
    Machine.exec_inv_along (I := fun s => s.Named ∧ s.Asked)
      (fun _ _ _ hclean hstep inv =>
        ⟨named_step hclean hstep inv.1, asked_step hstep inv.1 inv.2⟩)
      h hclean ⟨nofun, nofun, nofun⟩
  obtain ⟨named, asked⟩ := hinv
  constructor
  · intro hruns
    cases hrunning : s.loop.runningTask with
    | none => rfl
    | some task =>
      obtain ⟨x, hx, -⟩ := named task hrunning
      rw [hruns] at hx
      cases hx
  · intro call hcall _ hout
    exact (asked.passed call hcall).resolve_right fun h => hout h.2

/-- Two tasks run the loop: one dispatches an event in time and goes out at the queue,
and a third posts. -/
theorem restored_of_clean_two : ∃ s, Machine.exec (SharedLoop.step .unbounded ⟨1, none⟩) .init
    ([.call (.postTo 1 (some 7) 0 (.null 0) 5), .call (.advance 1), .call (.advance 1),
      .call (.advance 1), .call (.run 1 10 0), .call (.run 2 maxDelay 0)] ++
        List.replicate 6 (.runStep 1 4) ++ [.call (.postTo 3 (some 7) 0 (.null 0) 5)]) = some s ∧
    s.Restored := by
  have hsome : (Machine.exec (SharedLoop.step .unbounded ⟨1, none⟩) .init
      ([.call (.postTo 1 (some 7) 0 (.null 0) 5), .call (.advance 1), .call (.advance 1),
        .call (.advance 1), .call (.run 1 10 0), .call (.run 2 maxDelay 0)] ++
          List.replicate 6 (.runStep 1 4) ++
            [.call (.postTo 3 (some 7) 0 (.null 0) 5)])).isSome = true := by
    decide +kernel
  obtain ⟨s, hs⟩ := Option.isSome_iff_exists.mp hsome
  exact ⟨s, hs, restored_of_clean .unbounded 1 _ s hs (by decide +kernel)⟩

/-- A dispatch takes as long as the run may last. The task is left in the field: its
next post, of an event that finds the queue full, does not wait. -/
theorem not_restored_of_expired : ∃ s,
    Machine.exec (SharedLoop.step .unbounded ⟨1, none⟩) .init
      ([.call (.postTo 1 (some 7) 0 (.null 0) 5), .call (.advance 1), .call (.advance 1),
        .call (.advance 1), .call (.run 1 3 0)] ++ List.replicate 5 (.runStep 0 3) ++
        [.call (.isrPostTo (some 7) 1 (.null 0)), .call (.postTo 1 (some 7) 0 (.null 0) 5),
          .call (.advance 1), .call (.advance 1)]) = some s ∧
    s.runs = [] ∧ s.loop.runningTask = some 1 ∧ s.loop.queue.length = 1 ∧
    s.loop.calls.map PostCall.ticksToWait = [0] ∧ s.passed 1 = 5 ∧ ¬ s.Restored := by
  have hsome : ((Machine.exec (SharedLoop.step .unbounded ⟨1, none⟩) .init
      ([.call (.postTo 1 (some 7) 0 (.null 0) 5), .call (.advance 1), .call (.advance 1),
        .call (.advance 1), .call (.run 1 3 0)] ++ List.replicate 5 (.runStep 0 3) ++
        [.call (.isrPostTo (some 7) 1 (.null 0)), .call (.postTo 1 (some 7) 0 (.null 0) 5),
          .call (.advance 1), .call (.advance 1)])).map fun s => (s.runs, s.loop.runningTask,
            s.loop.queue.length, s.loop.calls.map PostCall.ticksToWait, s.passed 1)) =
      some ([], some 1, 1, [0], 5) := by
    decide +kernel
  obtain ⟨s, hs, hview⟩ := Option.map_eq_some_iff.mp hsome
  simp only [Prod.mk.injEq] at hview
  obtain ⟨hruns, hrunning, hqueue, hticks, hpassed⟩ := hview
  refine ⟨s, hs, hruns, hrunning, hqueue, hticks, hpassed, fun h => ?_⟩
  cases hrunning.symm.trans (h.idle hruns)

end PicoHost.Event
