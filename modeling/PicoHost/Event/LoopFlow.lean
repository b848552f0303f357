import PicoHost.Event.Flow

/-!
# The loop keeps the way of the posts

Every action of the machine is a step of `Flow`, or none at all: the mutex, the dispatch
and the registrations do not touch the posts. So `Flow` holds in every state that a loop
can reach (`flow_of_exec`).
-/

namespace PicoHost.Event

/-! ## The way of a loop -/

/-- The post that has left the queue, before its dispatch. -/
def RunPc.received : RunPc → List Post
  | .lock post => [post]
  | _ => []

/-- The post whose handlers run. -/
def RunPc.flight : RunPc → List (Post × Delivery)
  | .dispatch post delivery _ | .handler post delivery _ => [(post, delivery)]
  | _ => []

def LoopInstance.received (s : LoopInstance) : List Post :=
  s.runner.elim [] fun r => r.pc.received

def LoopInstance.flight (s : LoopInstance) : List (Post × Delivery) :=
  s.runner.elim [] fun r => r.pc.flight

/-- The posts of a loop on their way. -/
def LoopInstance.way (s : LoopInstance) : Way where
  pending := s.calls.map fun call => (call.post, call.posted)
  flight := s.flight
  waiting := s.received ++ s.queue

/-- The invariant of a loop. -/
def LoopInstance.Inv (s : LoopInstance) : Prop := Flow s.way s.memory s.log

/-- A new loop has an empty queue. -/
theorem inv_init : LoopInstance.init.Inv := flow_init

/-! ## Posting -/

section Post

variable {A : Allocator} {args : LoopArgs} {s s' : LoopInstance}

/-- A post keeps the invariant. -/
theorem postTo_inv {task : Task} {base : EventBase} {id : Int32} {data : EventData}
    {ticksToWait : Ticks} (h : s.postTo A args task base id data ticksToWait = some s')
    (inv : s.Inv) : s'.Inv := by
  rw [LoopInstance.postTo] at h
  split at h
  · dsimp only at h
    split at h
    · cases h
      exact inv.refuse _ nofun
    · rcases newPost_cases A s.memory base id data with
        ⟨heap, hcalloc, hnew⟩ | ⟨post, hnew, hok, hcopies, hd⟩ |
          ⟨p, heap, post, hcalloc, hok, hcopies, hnew, hd⟩
      · rw [hnew] at h
        cases h
        exact (inv.noMem hcalloc).refuse _ nofun
      · rw [hnew] at h
        have f := inv.begin hok hcopies hd
        cases htask : args.task with
        | none | some loopTask =>
          rw [htask] at h
          cases h
          show Flow _ _ { s.log with copied := post.copies ++ s.log.copied }
          rw [hcopies]
          exact f
      · rw [hnew] at h
        have f := inv.copy hcalloc hok hcopies hd
        cases htask : args.task with
        | none | some loopTask =>
          rw [htask] at h
          cases h
          exact f
  · cases h

/-- One of the calls that are going on, with the others. -/
theorem LoopInstance.Inv.call {call : PostCall} (inv : s.Inv) (hcall : call ∈ s.calls) :
    Flow { s.way with
      pending := (call.post, call.posted) ::
        (s.calls.erase call).map fun call => (call.post, call.posted) } s.memory s.log :=
  inv.reorder ((List.perm_cons_erase hcall).map _)

/-- A task that goes on with its post keeps the invariant. -/
theorem advance_inv {task : Task} (h : s.advance args task = some s') (inv : s.Inv) : s'.Inv := by
  rw [LoopInstance.advance] at h
  split at h
  · cases h
  · rename_i call hfind
    have f := inv.call (List.mem_of_find?_eq_some hfind)
    split at h
    · -- at the mutex
      rw [LoopInstance.takeMutex] at h
      split at h
      · cases h
        exact f
      · split at h
        · cases h
        · cases h
          exact f.reject
    · cases h
      exact f
    · -- at the queue
      rw [LoopInstance.sendToBack] at h
      split at h
      · cases h
        have g := f.accept
        rw [LoopInstance.way] at g
        rw [List.append_assoc] at g
        exact g
      · split at h
        · cases h
        · cases h
          exact f.reject

/-- A post from an interrupt keeps the invariant. -/
theorem isrPostTo_inv (args : LoopArgs) (base : EventBase) (id : Int32) (data : EventData)
    (inv : s.Inv) : (s.isrPostTo args base id data).Inv := by
  unfold LoopInstance.isrPostTo
  dsimp only
  split
  · exact inv.refuse _ nofun
  · cases hnew : newIsrPost base id data with
    | none => exact inv.refuse _ nofun
    | some post =>
      obtain ⟨hok, hcopies, hd⟩ := newIsrPost_spec hnew
      dsimp only
      split
      · have f := (inv.begin hok hcopies (hd s.memory)).accept
        rw [LoopInstance.way] at f
        rw [List.append_assoc] at f
        exact f
      · -- the data are in the post: there is nothing to free
        rw [postInstanceDelete_eq hok, hcopies]
        exact inv.refuse _ nofun

end Post

/-! ## Running -/

section Run

variable {A : Allocator} {s s' : LoopInstance}

/-- A task that begins to run the loop keeps the invariant. -/
theorem run_inv {task : Task} {ticksToRun now : Ticks} (h : s.run task ticksToRun now = some s')
    (inv : s.Inv) : s'.Inv := by
  rw [LoopInstance.run] at h
  split at h
  · cases h
  · rename_i hrunner
    split at h
    · cases h
      unfold LoopInstance.Inv LoopInstance.way LoopInstance.flight LoopInstance.received at inv
      rw [hrunner] at inv
      exact inv
    · cases h

/-- An event that is received leaves the queue for the runner. -/
theorem receive_inv {r : Runner} (hr : s.runner = some r) (hpc : r.pc = .receive)
    (h : s.receive r = some s') (inv : s.Inv) : s'.Inv := by
  unfold LoopInstance.Inv LoopInstance.way LoopInstance.flight LoopInstance.received at inv
  rw [hr, Option.elim_some, Option.elim_some, hpc] at inv
  rw [LoopInstance.receive] at h
  split at h
  · rename_i post queue hqueue
    cases h
    rw [hqueue] at inv
    exact inv
  · split at h
    · cases h
    · cases h
      exact inv

/-- Taking the mutex keeps the invariant. -/
theorem lock_inv {r : Runner} {post : Post} (hr : s.runner = some r) (hpc : r.pc = .lock post)
    (h : s.lock r post = some s') (inv : s.Inv) : s'.Inv := by
  unfold LoopInstance.Inv LoopInstance.way LoopInstance.flight LoopInstance.received at inv
  rw [hr, Option.elim_some, Option.elim_some, hpc] at inv
  rw [LoopInstance.lock] at h
  split at h
  · cases h
  · cases h
    exact inv.dispatch

/-- A step of the dispatch keeps the invariant. -/
theorem dispatch_inv {r : Runner} {post : Post} {delivery : Delivery} {pc : Pc}
    (hr : s.runner = some r) (hpc : r.pc = .dispatch post delivery pc)
    (h : s.dispatch r post delivery pc = some s') (inv : s.Inv) : s'.Inv := by
  unfold LoopInstance.Inv LoopInstance.way LoopInstance.flight LoopInstance.received at inv
  rw [hr, Option.elim_some, Option.elim_some, hpc] at inv
  rw [LoopInstance.dispatch] at h
  split at h
  · cases h
  · split at h
    · cases h
      exact inv.finish
    · dsimp only at h
      cases h
      unfold LoopInstance.Inv LoopInstance.way LoopInstance.flight LoopInstance.received
      dsimp only [Option.elim_some]
      split
      · exact inv
      · split
        · exact inv
        · exact inv

/-- A handler that returns keeps the invariant. -/
theorem returnHandler_inv {r : Runner} {post : Post} {delivery : Delivery} {pc : Pc}
    (hr : s.runner = some r) (hpc : r.pc = .handler post delivery pc)
    (h : s.returnHandler r post delivery pc = some s') (inv : s.Inv) : s'.Inv := by
  unfold LoopInstance.Inv LoopInstance.way LoopInstance.flight LoopInstance.received at inv
  rw [hr, Option.elim_some, Option.elim_some, hpc] at inv
  rw [LoopInstance.returnHandler] at h
  split at h
  · cases h
    exact inv
  · cases h

/-- An event whose dispatch has ended is counted as done. -/
theorem unlock_inv {r : Runner} (hr : s.runner = some r) (hpc : r.pc = .deleted) (now : Ticks)
    (inv : s.Inv) : (s.unlock r now).Inv := by
  unfold LoopInstance.Inv LoopInstance.way LoopInstance.flight LoopInstance.received at inv
  rw [hr, Option.elim_some, Option.elim_some, hpc] at inv
  rw [LoopInstance.unlock]
  dsimp only
  split
  · split
    · exact inv
    · exact inv
  · exact inv

/-- Each step of the runner keeps the invariant. -/
theorem runStep_inv {now : Ticks} (h : s.runStep now = some s') (inv : s.Inv) : s'.Inv := by
  rw [LoopInstance.runStep] at h
  split at h
  · cases h
  · rename_i r hr
    split at h
    · rename_i hpc
      exact receive_inv hr hpc h inv
    · rename_i post hpc
      exact lock_inv hr hpc h inv
    · rename_i post delivery pc hpc
      exact dispatch_inv hr hpc h inv
    · rename_i post delivery pc hpc
      exact returnHandler_inv hr hpc h inv
    · rename_i hpc
      cases h
      exact unlock_inv hr hpc now inv

/-- A call on the registry keeps the invariant. -/
theorem register_inv {task : Task} {call : Call} (h : s.register A task call = some s')
    (inv : s.Inv) : s'.Inv := by
  rw [LoopInstance.register] at h
  split at h
  · cases h
    exact inv
  · cases h

/-- A task that changes its own data changes no copy. -/
theorem write_inv {bytes : List UInt8} (h : s.write bytes = some s') (inv : s.Inv) : s'.Inv := by
  rw [LoopInstance.write] at h
  split at h
  · rename_i hr
    split at h
    · cases h
      unfold LoopInstance.Inv LoopInstance.way LoopInstance.flight LoopInstance.received at inv ⊢
      rw [hr, Option.elim_some, Option.elim_some] at inv
      dsimp only
      rw [hr, Option.elim_some, Option.elim_some]
      exact Flow.write inv (List.mem_cons_self ..) bytes
    · cases h
  · cases h

end Run

/-! ## Runs -/

section Exec

variable {A : Allocator} {args : LoopArgs} {s s' : LoopInstance}

/-- Every step keeps the invariant. -/
theorem step_inv {a : Action} (h : s.step A args a = some s') (inv : s.Inv) : s'.Inv := by
  cases a with
  | postTo task base id data ticksToWait => exact postTo_inv h inv
  | advance task => exact advance_inv h inv
  | isrPostTo base id data =>
    cases h
    exact isrPostTo_inv args base id data inv
  | run task ticksToRun now => exact run_inv h inv
  | runStep now => exact runStep_inv h inv
  | register task call => exact register_inv h inv
  | write bytes => exact write_inv h inv

/-- The invariant holds in every state that a loop reaches. -/
theorem inv_of_exec {actions : List Action}
    (h : Machine.exec (LoopInstance.step A args) .init actions = some s) : s.Inv :=
  Machine.exec_inv (fun _ _ _ hstep inv => step_inv hstep inv) h inv_init

end Exec

end PicoHost.Event
