import PicoHost.Event.Conserved
import PicoHost.Lib.Table

/-!
# The calls of the handlers

`Log.dispatched` says what the dispatches have handed out. Here a run is watched while it goes on:
each call of a handler is written down with what the handler is given. The calls go through the
accepted events in their order; an event is given to any number of handlers in a row, to each as it
was posted unless a handler writes to it (`given_inTurn`).
-/

namespace PicoHost.Event

open Chain (read)

/-! ## Calls and events -/

/-- The calls go through the events in their order: each event is given any number of times in a
row. -/
inductive InTurn {α : Type} : List α → List α → Prop
  | nil : InTurn [] []
  | next {calls events : List α} (h : InTurn calls events) (event : α) :
    InTurn calls (events ++ [event])
  | call {calls events : List α} {event : α} (h : InTurn calls (events ++ [event])) :
    InTurn (calls ++ [event]) (events ++ [event])

/-- Nothing is given but the events. -/
theorem InTurn.mem {α : Type} {calls events : List α} (h : InTurn calls events) {x : α}
    (hx : x ∈ calls) : x ∈ events := by
  induction h with
  | nil => cases hx
  | next h event ih => exact List.mem_append_left _ (ih hx)
  | call h ih =>
    rcases List.mem_append.mp hx with hx | hx
    · exact ih hx
    · exact List.mem_append_right _ hx

/-! ## The watched loop -/

/-- The post whose event a handler has been given -/
def RunPc.handled : RunPc → Option Post
  | .handler post .. => some post
  | _ => none

def LoopInstance.handled (s : LoopInstance) : Option Post := s.runner.bind fun r => r.pc.handled

/-- The call that begins between two states, with what the handler is given -/
def LoopInstance.newCall (s s' : LoopInstance) : List Delivery :=
  match s.handled, s'.handled with
  | none, some post => [s'.memory.delivery post]
  | _, _ => []

/-- A loop, and what its handlers have been given so far -/
structure WatchedLoop where
  loop : LoopInstance
  given : List Delivery

/-- A loop that has been created -/
def WatchedLoop.init : WatchedLoop := ⟨.init, []⟩

def WatchedLoop.step (A : Allocator) (args : LoopArgs) (x : WatchedLoop) (a : Action) :
    Option WatchedLoop :=
  (x.loop.step A args a).map fun s' => ⟨s', x.given ++ x.loop.newCall s'⟩

section Steps

variable {A : Allocator} {args : LoopArgs} {s s' : LoopInstance} {given : List Delivery}

/-- The events that have been dispatched, and the one whose handlers run -/
def LoopInstance.handedOut (s : LoopInstance) : List Delivery :=
  s.log.dispatched ++ s.flight.map Prod.snd

/-- The runner calls no handler while others act, and no dispatch ends. -/
structure Elsewhere (s s' : LoopInstance) : Prop where
  runner : s'.runner = s.runner
  dispatched : s'.log.dispatched = s.log.dispatched

/-- A handler that still runs is not called again. -/
theorem Elsewhere.newCall (h : Elsewhere s s') : s.newCall s' = [] := by
  have hhandled : s'.handled = s.handled := congrArg (Option.bind · _) h.runner
  rw [LoopInstance.newCall, hhandled]
  cases s.handled <;> rfl

/-- What is handed out stays the same meanwhile. -/
theorem Elsewhere.handedOut (h : Elsewhere s s') : s'.handedOut = s.handedOut := by
  rw [LoopInstance.handedOut, LoopInstance.handedOut, h.dispatched, flight_of_runner h.runner]

/-- A call of a post function is none of the runner's steps. -/
theorem postTo_elsewhere {task : Task} {base : EventBase} {id : Int32} {data : EventData}
    {ticksToWait : Ticks} (h : s.postTo A args task base id data ticksToWait = some s') :
    Elsewhere s s' := by
  rw [LoopInstance.postTo] at h
  split at h
  · dsimp only at h
    split at h
    · cases h
      exact ⟨rfl, rfl⟩
    · split at h <;> (cases h; exact ⟨rfl, rfl⟩)
  · cases h

/-- A post that goes on is none of the runner's steps. -/
theorem advance_elsewhere {task : Task} (h : s.advance args task = some s') : Elsewhere s s' := by
  rw [LoopInstance.advance] at h
  split at h
  · cases h
  · split at h
    · rw [LoopInstance.takeMutex] at h
      split at h
      · cases h
        exact ⟨rfl, rfl⟩
      · split at h
        · cases h
        · cases h
          exact ⟨rfl, rfl⟩
    · cases h
      exact ⟨rfl, rfl⟩
    · rw [LoopInstance.sendToBack] at h
      split at h
      · cases h
        exact ⟨rfl, rfl⟩
      · split at h
        · cases h
        · cases h
          exact ⟨rfl, rfl⟩

/-- A post from an interrupt is none of the runner's steps. -/
theorem isrPostTo_elsewhere (args : LoopArgs) (s : LoopInstance) (base : EventBase) (id : Int32)
    (data : EventData) : Elsewhere s (s.isrPostTo args base id data) := by
  unfold LoopInstance.isrPostTo
  dsimp only
  split
  · exact ⟨rfl, rfl⟩
  · split
    · exact ⟨rfl, rfl⟩
    · split <;> exact ⟨rfl, rfl⟩

/-- A call on the registry is none of the runner's steps. -/
theorem register_elsewhere {task : Task} {call : Call} (h : s.register A task call = some s') :
    Elsewhere s s' := by
  rw [LoopInstance.register] at h
  split at h
  · cases h
    exact ⟨rfl, rfl⟩
  · cases h

/-- No call begins where no handler runs. -/
theorem newCall_of_none (h : s'.handled = none) : s.newCall s' = [] := by
  rw [LoopInstance.newCall, h]
  cases s.handled <;> rfl

/-- A step of the runner that takes no event and calls no handler -/
theorem inTurn_same (ht : InTurn given s.handedOut) (hcall : s'.handled = none)
    (hout : s'.handedOut = s.handedOut) : InTurn (given ++ s.newCall s') s'.handedOut := by
  rw [newCall_of_none hcall, List.append_nil, hout]
  exact ht

/-- What a loop has handed out, by what its runner is doing -/
theorem handedOut_eq {r : Runner} (hr : s.runner = some r) :
    s.handedOut = s.log.dispatched ++ r.pc.flight.map Prod.snd := by
  rw [LoopInstance.handedOut, LoopInstance.flight, hr]
  rfl

/-- Whether a handler runs, by what the runner is doing -/
theorem handled_eq {r : Runner} (hr : s.runner = some r) : s.handled = r.pc.handled := by
  rw [LoopInstance.handled, hr]
  rfl

/-- An event is received, or none. -/
theorem receive_inTurn {r : Runner} (hr : s.runner = some r) (hpc : r.pc = .receive)
    (h : s.receive r = some s') (ht : InTurn given s.handedOut) :
    InTurn (given ++ s.newCall s') s'.handedOut := by
  have hout := handedOut_eq hr
  rw [hpc] at hout
  rw [LoopInstance.receive] at h
  split at h
  · cases h
    exact inTurn_same ht rfl hout.symm
  · split at h
    · cases h
    · cases h
      exact inTurn_same ht rfl hout.symm

/-- The handlers of the next event may be called. -/
theorem lock_inTurn {r : Runner} {post : Post} (hr : s.runner = some r) (hpc : r.pc = .lock post)
    (h : s.lock r post = some s') (ht : InTurn given s.handedOut) :
    InTurn (given ++ s.newCall s') s'.handedOut := by
  have hout := handedOut_eq hr
  rw [hpc] at hout
  have hnone : s.handedOut = s.log.dispatched := hout.trans (List.append_nil _)
  rw [hnone] at ht
  rw [LoopInstance.lock] at h
  split at h
  · cases h
  · cases h
    rw [newCall_of_none rfl, List.append_nil]
    exact ht.next _

/-- The dispatch ends, goes on to a node, or calls a handler. -/
theorem dispatch_cases {r : Runner} {post : Post} {delivery : Delivery} {pc : Pc}
    (h : s.dispatch r post delivery pc = some s') :
    s' = { s with
      memory := postInstanceDelete s.memory post
      runner := some { r with pc := .deleted }
      log := { s.log with dispatched := s.log.dispatched ++ [delivery] } } ∨
    (∃ next, s' = { s with runner := some { r with pc := .dispatch post delivery next } }) ∨
    ∃ next, s' = { s with runner := some { r with pc := .handler post delivery next } } := by
  rw [LoopInstance.dispatch] at h
  split at h
  · cases h
  · split at h
    · exact .inl (Option.some.inj h).symm
    · right
      dsimp only at h
      cases hhandler : pc.handler with
      | none =>
        rw [hhandler] at h
        exact .inl ⟨_, (Option.some.inj h).symm⟩
      | some x =>
        obtain ⟨b, cursor⟩ := x
        rw [hhandler] at h
        dsimp only at h
        cases hread : read HandlerNode.self (handlerCells s.registry.loopNodes) b with
        | none =>
          rw [hread] at h
          exact .inl ⟨_, (Option.some.inj h).symm⟩
        | some y =>
          rw [hread] at h
          exact .inr ⟨_, (Option.some.inj h).symm⟩

/-- A handler is called with what the dispatch read at its start. -/
theorem dispatch_inTurn {r : Runner} {post : Post} {delivery : Delivery} {pc : Pc}
    (hr : s.runner = some r) (hpc : r.pc = .dispatch post delivery pc)
    (h : s.dispatch r post delivery pc = some s') (hs : s'.Unwritten)
    (ht : InTurn given s.handedOut) : InTurn (given ++ s.newCall s') s'.handedOut := by
  have hout : s.handedOut = s.log.dispatched ++ [delivery] := by
    rw [handedOut_eq hr, hpc]
    rfl
  have hnone : s.handled = none := by
    rw [handled_eq hr, hpc]
    rfl
  rcases dispatch_cases h with rfl | ⟨next, rfl⟩ | ⟨next, rfl⟩
  · refine inTurn_same ht rfl ?_
    rw [hout]
    exact List.append_nil _
  · exact inTurn_same ht rfl hout.symm
  · have hread : s.memory.delivery post = delivery := hs (post, delivery) (List.mem_cons_self ..)
    have hcall : s.newCall { s with
        runner := some { r with pc := .handler post delivery next } } = [delivery] := by
      rw [LoopInstance.newCall, hnone]
      exact congrArg (fun d => [d]) hread
    rw [hcall]
    rw [hout] at ht
    exact ht.call

/-- A handler that returns has been called before. -/
theorem returnHandler_inTurn {r : Runner} {post : Post} {delivery : Delivery} {pc : Pc}
    (hr : s.runner = some r) (hpc : r.pc = .handler post delivery pc)
    (h : s.returnHandler r post delivery pc = some s') (ht : InTurn given s.handedOut) :
    InTurn (given ++ s.newCall s') s'.handedOut := by
  have hout := handedOut_eq hr
  rw [hpc] at hout
  rw [LoopInstance.returnHandler] at h
  split at h
  · cases h
    exact inTurn_same ht rfl hout.symm
  · cases h

/-- Behind the dispatch no handler is called. -/
theorem unlock_inTurn {r : Runner} (hr : s.runner = some r) (hpc : r.pc = .deleted) (now : Ticks)
    (ht : InTurn given s.handedOut) :
    InTurn (given ++ s.newCall (s.unlock r now)) (s.unlock r now).handedOut := by
  have hout := handedOut_eq hr
  rw [hpc] at hout
  rw [LoopInstance.unlock]
  dsimp only
  split
  · split
    · exact inTurn_same ht rfl hout.symm
    · exact inTurn_same ht rfl hout.symm
  · exact inTurn_same ht rfl hout.symm

/-- A step of the runner calls a handler with the event in flight, or none. -/
theorem runStep_inTurn {now : Ticks} (h : s.runStep now = some s') (hs : s'.Unwritten)
    (ht : InTurn given s.handedOut) : InTurn (given ++ s.newCall s') s'.handedOut := by
  rw [LoopInstance.runStep] at h
  split at h
  · cases h
  · rename_i r hr
    split at h
    · rename_i hpc
      exact receive_inTurn hr hpc h ht
    · rename_i post hpc
      exact lock_inTurn hr hpc h ht
    · rename_i post delivery pc hpc
      exact dispatch_inTurn hr hpc h hs ht
    · rename_i post delivery pc hpc
      exact returnHandler_inTurn hr hpc h ht
    · rename_i hpc
      cases h
      exact unlock_inTurn hr hpc now ht

/-- Every step in which no handler writes keeps the calls in their turn. -/
theorem step_inTurn {a : Action} (hwrite : ∀ bytes, a ≠ .write bytes)
    (h : s.step A args a = some s') (hs : s'.Unwritten) (ht : InTurn given s.handedOut) :
    InTurn (given ++ s.newCall s') s'.handedOut := by
  have helsewhere : Elsewhere s s' → InTurn (given ++ s.newCall s') s'.handedOut := by
    intro he
    rw [he.newCall, he.handedOut, List.append_nil]
    exact ht
  cases a with
  | postTo task base id data ticksToWait => exact helsewhere (postTo_elsewhere h)
  | advance task => exact helsewhere (advance_elsewhere h)
  | isrPostTo base id data =>
    cases h
    exact helsewhere (isrPostTo_elsewhere args s base id data)
  | run task ticksToRun now =>
    replace h : s.run task ticksToRun now = some s' := h
    rw [LoopInstance.run] at h
    split at h
    · cases h
    · rename_i hrunner
      split at h
      · cases h
        refine inTurn_same ht rfl ?_
        rw [LoopInstance.handedOut, LoopInstance.handedOut, LoopInstance.flight,
          LoopInstance.flight, hrunner]
        rfl
      · cases h
  | runStep now => exact runStep_inTurn h hs ht
  | register task call => exact helsewhere (register_elsewhere h)
  | write bytes => exact absurd rfl (hwrite bytes)

end Steps

/-! ## Every run -/

section Runs

variable {A : Allocator} {args : LoopArgs} {x : WatchedLoop} {actions : List Action}

/-- In every run in which no handler writes to the data of an event: the calls of the handlers go
through the events that were dispatched, and then the one in flight, in this order. -/
theorem given_inTurn (hwrite : ∀ bytes, .write bytes ∉ actions)
    (h : Machine.exec (WatchedLoop.step A args) .init actions = some x) :
    InTurn x.given x.loop.handedOut := by
  have hstep : ∀ (x : WatchedLoop) (a : Action) (x' : WatchedLoop), (∀ bytes, a ≠ .write bytes) →
      x.step A args a = some x' →
      x.loop.Inv ∧ x.loop.Unwritten ∧ InTurn x.given x.loop.handedOut →
      x'.loop.Inv ∧ x'.loop.Unwritten ∧ InTurn x'.given x'.loop.handedOut := by
    rintro x a x' ha hx' ⟨inv, hunwritten, ht⟩
    obtain ⟨s', hs', rfl⟩ := Option.map_eq_some_iff.mp hx'
    have hunwritten' := step_unwritten ha hs' inv hunwritten
    exact ⟨step_inv hs' inv, hunwritten', step_inTurn ha hs' hunwritten' ht⟩
  exact (Machine.exec_inv_of hstep h (fun a ha bytes heq => hwrite bytes (heq ▸ ha))
    ⟨inv_init, nofun, .nil⟩).2.2

/-- The loop of a watched run is that of the run. -/
theorem exec_loop (h : Machine.exec (WatchedLoop.step A args) .init actions = some x) :
    Machine.exec (LoopInstance.step A args) .init actions = some x.loop := by
  refine @Machine.exec_project _ _ (WatchedLoop.step A args) _ (LoopInstance.step A args)
    WatchedLoop.loop (fun x a x' hstep => ?_) .init x actions h
  obtain ⟨s', hs', rfl⟩ := Option.map_eq_some_iff.mp hstep
  exact hs'

/-- Each call of a handler gives it an accepted event, as it was posted. -/
theorem given_accepted (hwrite : ∀ bytes, .write bytes ∉ actions)
    (h : Machine.exec (WatchedLoop.step A args) .init actions = some x) {d : Delivery}
    (hd : d ∈ x.given) : ∃ posted ∈ x.loop.log.accepted, posted.DeliveredBy d := by
  have hmem : d ∈ x.loop.log.dispatched ++ x.loop.flight.map Prod.snd ++
      (x.loop.received ++ x.loop.queue).map x.loop.memory.delivery :=
    List.mem_append_left _ ((given_inTurn hwrite h).mem hd)
  obtain ⟨i, hi⟩ := List.mem_iff_getElem?.mp hmem
  have horder := (inv_of_exec (exec_loop h)).order
  obtain ⟨posted, hposted, hdelivered⟩ := Table.forall₂_getElem? horder.flip hi
  exact ⟨posted, List.mem_of_getElem? hposted, hdelivered⟩

-- two handlers for the first event, one of them for the second
example : (Machine.exec (WatchedLoop.step .unbounded ⟨2, none⟩) .init
    ([.register 1 (.handler (.register ⟨some 7, 0⟩ 1 0)),
      .register 1 (.handler (.register ⟨some 7, anyId⟩ 2 0)),
      .isrPostTo (some 7) 0 (.bytes [4, 5]), .isrPostTo (some 7) 1 (.bytes [6]), .run 2 10 0] ++
        List.replicate 30 (.runStep 0))).map (fun x => x.given.map Delivery.data) =
    some [some [4, 5, 0, 0], some [4, 5, 0, 0], some [6, 0, 0, 0]] := by
  decide +kernel

end Runs

end PicoHost.Event
