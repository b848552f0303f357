import PicoHost.Event.Traced

/-!
# The mutex of a loop

What one task does to the recursive mutex of a loop and to the registration lists
while it is inside an operation on the loop: `Path` has the traces, on every way
through the operation and through the handlers that it runs. The traces of the
operations are what their functions in `Traced` emit.

All operations but one walk the lists between a take and a give of their own.
`esp_event_is_handler_registered` walks them without a take and gives at the end,
and it gives with `xSemaphoreGive`, which is not for recursive mutexes. So it leaves
its caller with fewer holds than before (`locked_iff`); a handler that calls it takes
the lock from the dispatch that it is in.
-/

namespace PicoHost.Event

open Chain HoldCount

/-! ## The operations -/

inductive Operation where
  /-- a call of the registration API -/
  | call (call : Call)
  | postTo (event : EventId) (data : EventData) (ticksToWait : Ticks)
  | run (ticksToRun : Ticks)
  | delete
  | isHandlerRegistered (key : EventId) (handler : Handler)

/-- A piece of code: an operation, what a handler calls, the loop of `esp_event_loop_run`,
a dispatch from some point of its walk on, and what stands behind the dispatch. -/
inductive Code where
  | operation (op : Operation)
  | handler
  | turns (ticksToRun : Ticks)
  | dispatch (event : EventId) (loopNodes : List LoopNode) (pc : Pc)
  | dispatched (ticksToRun : Ticks)

/-- The traces of a piece of code; a handler may call the operations `handlers`. An
operation, and a dispatch, begins with any registrations, and with any answers of the
kernel and of the allocator. A walk that reads a freed node has no trace. -/
inductive Path (handlers : Operation → Prop) : Code → Trace → Prop where
  | call {call : Call} (A : Allocator) (t : Registry) :
    Path handlers (.operation (.call call)) (Traced.apply A t call).events
  | postTo {event : EventId} {data : EventData} {ticksToWait : Ticks} (A : Allocator)
    (args : LoopArgs) (o : Traced.PostAnswers) (memory : Memory) (task : Task) :
    Path handlers (.operation (.postTo event data ticksToWait))
      (Traced.espEventPostTo A args o memory task event data ticksToWait).events
  | delete (t : Registry) (memory : Memory) (queue : List Post) :
    Path handlers (.operation .delete) (Traced.espEventLoopDelete t memory queue).events
  | search {key : EventId} {handler : Handler} (loopNodes : List LoopNode) :
    Path handlers (.operation (.isHandlerRegistered key handler))
      (Traced.isHandlerRegistered key handler loopNodes).events
  | run {ticksToRun : Ticks} {trace : Trace} (h : Path handlers (.turns ticksToRun) trace) :
    Path handlers (.operation (.run ticksToRun)) trace
  /-- The queue stays empty: the call returns, or waits for ever. -/
  | empty {ticksToRun : Ticks} : Path handlers (.turns ticksToRun) []
  | turn {ticksToRun : Ticks} {event : EventId} {loopNodes : List LoopNode} {body rest : Trace}
    (h : Path handlers (.dispatch event loopNodes
      (.loopNode (loopNodes.head?.map LoopNode.self))) body)
    (later : Path handlers (.dispatched ticksToRun) rest) :
    Path handlers (.turns ticksToRun) (.take :: (body ++ rest))
  /-- The time is over behind the dispatch (esp_event.c:629–642). -/
  | expired {ticksToRun : Ticks} (ht : ticksToRun ≠ maxDelay) :
    Path handlers (.dispatched ticksToRun) [.give]
  /-- There is time left, or no limit (esp_event.c:646–652). -/
  | again {ticksToRun : Ticks} {rest : Trace} (later : Path handlers (.turns ticksToRun) rest) :
    Path handlers (.dispatched ticksToRun) (.give :: rest)
  | done {event : EventId} {loopNodes : List LoopNode} :
    Path handlers (.dispatch event loopNodes .done) []
  | walk {event : EventId} {loopNodes : List LoopNode} {pc : Pc} {rest : Trace}
    (hnone : pc.handler = none) (hpc : pc ≠ .done)
    (h : Path handlers (.dispatch event loopNodes (pc.next loopNodes event)) rest) :
    Path handlers (.dispatch event loopNodes pc) (.access :: rest)
  /-- Behind a handler the walk finds the registrations as the handler has left them. -/
  | execute {event : EventId} {loopNodes loopNodes' : List LoopNode} {pc : Pc} {p : Block}
    {continue_ : Option Block → Pc} {it : HandlerNode} {next : Option Block} {body rest : Trace}
    (hsome : pc.handler = some (p, continue_))
    (hread : read HandlerNode.self (handlerCells loopNodes) p = some (it, next))
    (h : Path handlers .handler body)
    (later : Path handlers (.dispatch event loopNodes' (continue_ next)) rest) :
    Path handlers (.dispatch event loopNodes pc) (.access :: (body ++ rest))
  | return_ : Path handlers .handler []
  | nested {op : Operation} {trace rest : Trace} (hop : handlers op)
    (h : Path handlers (.operation op) trace) (later : Path handlers .handler rest) :
    Path handlers .handler (trace ++ rest)

/-! ## The lock on every way -/

section Locked

variable (giveOnce : Nat → Nat)

/-- What the other events do to the hold count. -/
def LoopEvent.effect : LoopEvent → Nat → Nat
  | .giveOnce => giveOnce
  | .delete => id

/-- A task with `n` holds walks the registrations only while it holds the mutex, and
if the loop is not deleted it ends with `n` holds. -/
structure Locked (n : Nat) (trace : Trace) : Prop where
  guarded : Guarded (LoopEvent.effect giveOnce) n trace
  restored : .other .delete ∉ trace → count (LoopEvent.effect giveOnce) n trace = n

/-- The operation keeps the lock discipline: neither it nor a handler that it runs asks
whether a handler is registered. -/
def Operation.KeepsLock (handlers : Operation → Prop) : Operation → Prop
  | .isHandlerRegistered .. => False
  | .run _ => ∀ key handler, ¬ handlers (.isHandlerRegistered key handler)
  | .call _ | .postTo .. | .delete => True

def Code.KeepsLock (handlers : Operation → Prop) : Code → Prop
  | .operation op => op.KeepsLock handlers
  | .handler | .turns _ | .dispatch .. | .dispatched _ =>
    ∀ key handler, ¬ handlers (.isHandlerRegistered key handler)

/-- With how many holds the code begins, in an operation whose caller has `n`: the loop of
`esp_event_loop_run` takes the mutex before the dispatch and gives it behind. -/
def Code.before (n : Nat) : Code → Nat
  | .dispatch .. | .dispatched _ => n + 1
  | .operation _ | .handler | .turns _ => n

/-- With how many holds it ends. -/
def Code.after (n : Nat) : Code → Nat
  | .dispatch .. => n + 1
  | .operation _ | .handler | .turns _ | .dispatched _ => n

variable {giveOnce} {handlers : Operation → Prop}

theorem Operation.keepsLock_of_handler {op : Operation} (hop : handlers op)
    (h : ∀ key handler, ¬ handlers (.isHandlerRegistered key handler)) :
    op.KeepsLock handlers := by
  cases op with
  | isHandlerRegistered key handler => exact h key handler hop
  | run ticksToRun => exact h
  | call call => trivial
  | postTo event data ticksToWait => trivial
  | delete => trivial

/-- On all ways to the label `on_err` the mutex is held, and there it is given. -/
theorem openLoopNode_leads (A : Allocator) (t : Registry) (base : EventBase) (id : Int32)
    (handler : Handler) (arg : Arg) (legacy : Bool) (n : Nat) :
    Leads (LoopEvent.effect giveOnce) (n + 1) n
      (Traced.openLoopNode A t base id handler arg legacy).events := by
  rw [Traced.openLoopNode]
  split
  next => exact .give
  next loopNode heap _ =>
    refine (Leads.of_only (Traced.walks_loopNodeAddHandler ..) (Nat.succ_pos n)).bind fun r => ?_
    split
    next => exact (Leads.access (Nat.succ_pos n)).append .give
    next => exact .give

/-- A registration is refused before the mutex is taken, or gives it back wherever it
fails. -/
theorem registerWithInternal_balanced (A : Allocator) (t : Registry) (base : EventBase)
    (id : Int32) (handler : Handler) (arg : Arg) (legacy : Bool) (n : Nat) :
    Balanced (LoopEvent.effect giveOnce) n
      (Traced.registerWithInternal A t base id handler arg legacy).events := by
  rw [Traced.registerWithInternal]
  split
  next => exact .nil
  next =>
    refine Leads.bind (x := Traced.take) .take fun _ => ?_
    refine (Leads.of_only (Traced.walks_splitLast ..) (Nat.succ_pos n)).bind fun found => ?_
    rcases found with _ | ⟨pre, last, post⟩
    · exact openLoopNode_leads ..
    · refine (Leads.of_only Traced.walks_access (Nat.succ_pos n)).bind fun _ => ?_
      split
      next => exact openLoopNode_leads ..
      next =>
        refine (Leads.of_only (Traced.walks_loopNodeAddHandler ..) (Nat.succ_pos n)).bind ?_
        exact fun _ => .give

/-- Unregistering gives back every take, whichever exit it takes. -/
theorem unregisterWithInternal_balanced (t : Registry) (base : EventBase) (id : Int32)
    (target : Target) (n : Nat) :
    Balanced (LoopEvent.effect giveOnce) n
      (Traced.unregisterWithInternal t base id target).events := by
  rw [Traced.unregisterWithInternal]
  split
  next => exact .nil
  next =>
    refine Leads.bind (x := Traced.take) .take fun _ => ?_
    refine (Leads.of_only (Traced.walks_removeLoop _ _ _ ?_ _ _) (Nat.succ_pos n)).bind
      fun _ => .give
    exact Traced.walks_loopNodeRemoveHandler base id target

/-- The calls of the registration API, on all ways through them. -/
theorem apply_balanced (A : Allocator) (t : Registry) (call : Call) (n : Nat) :
    Balanced (LoopEvent.effect giveOnce) n (Traced.apply A t call).events := by
  match call with
  | .handler (.register ..) => exact (registerWithInternal_balanced ..).bind fun _ => .pure _
  | .handler (.unregister ..) => exact (unregisterWithInternal_balanced ..).bind fun _ => .pure _
  | .instance_ (.register ..) => exact (registerWithInternal_balanced ..).bind fun _ => .pure _
  | .instance_ (.unregister _ none) => exact .nil
  | .instance_ (.unregister _ (some _)) =>
    exact (unregisterWithInternal_balanced ..).bind fun _ => .pure _

/-- Deleting a loop gives back every take, with whatever the queue holds. -/
theorem espEventLoopDelete_balanced (t : Registry) (memory : Memory) (queue : List Post)
    (n : Nat) :
    Balanced (LoopEvent.effect giveOnce) n
      (Traced.espEventLoopDelete t memory queue).events := by
  refine Leads.bind (x := Traced.take) .take fun _ => ?_
  refine (Leads.of_only (Traced.walks_forEach (fun heap it => ?_) ..) (Nat.succ_pos n)).bind
    fun _ => (Leads.other rfl).append .give
  exact (Traced.walks_loopNodeRemoveAllHandler ..).bind fun _ =>
    Traced.walks_access.bind fun _ => .pure _

/-- The mutex is taken for the question who runs the loop, and given on both answers. -/
theorem sendToBack_balanced (args : LoopArgs) (o : Traced.PostAnswers) (task : Task)
    (ticksToWait : Ticks) (n : Nat) :
    Balanced (LoopEvent.effect giveOnce) n
      (Traced.sendToBack args o task ticksToWait).events := by
  rw [Traced.sendToBack]
  split
  next =>
    split
    next =>
      refine Leads.bind (x := Traced.take) .take fun _ => ?_
      split
      next => exact .give
      next => exact .give
    next => exact .nil
  next => exact .nil

/-- A post gives back every take, whichever exit it takes. -/
theorem espEventPostTo_balanced (A : Allocator) (args : LoopArgs) (o : Traced.PostAnswers)
    (memory : Memory) (task : Task) (event : EventId) (data : EventData) (ticksToWait : Ticks)
    (n : Nat) :
    Balanced (LoopEvent.effect giveOnce) n
      (Traced.espEventPostTo A args o memory task event data ticksToWait).events := by
  rw [Traced.espEventPostTo]
  split
  next => exact .nil
  next =>
    split
    next => exact .nil
    next => exact (sendToBack_balanced ..).bind fun _ => .pure _

/-- By induction on the path: every part of it leads from the holds it begins with to
those it ends with. -/
theorem Path.leads {code : Code} {trace : Trace} (h : Path handlers code trace)
    (hkeeps : code.KeepsLock handlers) {n : Nat} :
    Leads (LoopEvent.effect giveOnce) (code.before n) (code.after n) trace := by
  induction h generalizing n with
  | call A t => exact apply_balanced A t _ n
  | postTo A args o memory task => exact espEventPostTo_balanced ..
  | delete t memory queue => exact espEventLoopDelete_balanced t memory queue n
  | search loopNodes => exact hkeeps.elim
  | run h ih => exact ih hkeeps
  | empty => exact .nil
  -- the dispatch has a hold of its own, whatever the caller has
  | turn h later ih ihLater => exact Leads.take.append ((ih hkeeps).append (ihLater hkeeps))
  | expired ht => exact .give
  | again later ih => exact Leads.give.append (ih hkeeps)
  | done => exact .nil
  | walk hnone hpc h ih => exact (Leads.access (Nat.succ_pos n)).append (ih hkeeps)
  | execute hsome hread h later ih ihLater =>
    exact (Leads.access (Nat.succ_pos n)).append ((ih hkeeps (n := n + 1)).append (ihLater hkeeps))
  | return_ => exact .nil
  | nested hop h later ih ihLater =>
    exact (ih (Operation.keepsLock_of_handler hop hkeeps)).append (ihLater hkeeps)

/-! ## A search without the lock -/

/-- The search follows a pointer at least, and then gives. -/
theorem isHandlerRegistered_events (key : EventId) (handler : Handler)
    (loopNodes : List LoopNode) :
    ∃ k, (Traced.isHandlerRegistered key handler loopNodes).events =
      accesses (k + 1) ++ [.other .giveOnce] := by
  have hwalks := Traced.walks_any (Traced.walks_loopNodeSearch key handler) loopNodes
  obtain ⟨k, hk⟩ : ∃ k, (Traced.any (Traced.loopNodeSearch key handler) loopNodes).events.length =
      k + 1 := by
    cases loopNodes with
    | nil => exact ⟨0, rfl⟩
    | cons it rest => exact ⟨_, rfl⟩
  refine ⟨k, ?_⟩
  have heq := hwalks.eq_replicate
  rw [hk] at heq
  exact congrArg (· ++ [.other .giveOnce]) heq

/-- `esp_event_is_handler_registered` needs a hold that it does not take and costs its
caller one, whatever is registered. -/
theorem not_locked_search (hgive : ∀ k, giveOnce (k + 1) ≤ k) (key : EventId)
    (handler : Handler) (loopNodes : List LoopNode) (n : Nat) :
    ¬ Locked giveOnce n (Traced.isHandlerRegistered key handler loopNodes).events := by
  intro h
  obtain ⟨k, hk⟩ := isHandlerRegistered_events key handler loopNodes
  rw [hk] at h
  cases n with
  | zero => exact not_guarded_access h.guarded
  | succ n =>
    -- the walk is under the caller's mutex, which is given away then
    have hdelete : .other .delete ∉ (accesses (k + 1) ++ [.other .giveOnce] : Trace) := by
      simp [accesses]
    have hrestored := h.restored hdelete
    rw [count_append, count_accesses] at hrestored
    have hrestored : giveOnce (n + 1) = n + 1 := hrestored
    exact absurd (hgive n) (by omega)

/-- In a dispatch the search takes the hold of the dispatch, which walks on. -/
theorem not_locked_searching (hgive : ∀ k, giveOnce (k + 1) ≤ k) (n i j : Nat) :
    ¬ Locked giveOnce n
      (.take :: (accesses i ++ .other .giveOnce :: accesses (j + 1) ++ [.give])) := by
  intro h
  have hguarded := (guarded_append.mp (guarded_append.mp h.guarded.2).1).2.2
  have hdelete : .other .delete ∉
      (.take :: (accesses i ++ .other .giveOnce :: accesses (j + 1) ++ [.give]) : Trace) := by
    simp [accesses]
  have hrestored := h.restored hdelete
  -- the holds behind the search
  obtain ⟨k, hk⟩ : ∃ k, giveOnce (n + 1) = k := ⟨_, rfl⟩
  have hle : k ≤ n := hk ▸ hgive n
  have hguarded : Guarded (LoopEvent.effect giveOnce) k (accesses (j + 1)) := by
    rw [count_accesses] at hguarded
    exact hk ▸ hguarded
  have hleft : k - 1 = n := by
    have hcount : count (LoopEvent.effect giveOnce) (n + 1)
        (accesses i ++ .other .giveOnce :: accesses (j + 1)) = k := by
      rw [count_append, count_accesses]
      show count (LoopEvent.effect giveOnce) (giveOnce (n + 1)) (accesses (j + 1)) = k
      rw [count_accesses, hk]
    have hcritical : count (LoopEvent.effect giveOnce) (n + 1)
        ((accesses i ++ .other .giveOnce :: accesses (j + 1)) ++ [.give]) = n := hrestored
    rw [count_append, hcount] at hcritical
    exact hcritical
  -- the caller had no hold, and the first step behind the search has none
  have hk0 : k = 0 := by omega
  rw [hk0] at hguarded
  exact not_guarded_access hguarded

/-- One loop-level handler. -/
def oneHandler : List LoopNode := [⟨⟨0, 0⟩, [⟨⟨1, 1⟩, ⟨⟨2, 2⟩, 0, 0⟩⟩], []⟩]

/-- A dispatch whose only handler searches. -/
theorem Path.searching {key : EventId} {handler : Handler}
    (hop : handlers (.isHandlerRegistered key handler)) (ticksToRun : Ticks) :
    ∃ i, Path handlers (.operation (.run ticksToRun))
      (.take :: (accesses i ++ .other .giveOnce :: accesses 3 ++ [.give])) := by
  have e : EventId := ⟨some 0, 0⟩
  have hwalk : Path handlers (.dispatch e oneHandler (.loopHandler ⟨0, 0⟩ none none))
      (accesses 3) := .walk rfl nofun (.walk rfl nofun (.walk rfl nofun .done))
  have hhandler := Path.nested hop (.search oneHandler) .return_
  obtain ⟨k, hk⟩ := isHandlerRegistered_events key handler oneHandler
  rw [hk] at hhandler
  have hdispatch : Path handlers
      (.dispatch e oneHandler (.loopNode (oneHandler.head?.map LoopNode.self))) _ :=
    .walk rfl nofun (.execute (p := ⟨1, 1⟩) rfl rfl hhandler hwalk)
  have hturn : Path handlers (.turns ticksToRun) _ := .turn hdispatch (.again .empty)
  refine ⟨k + 3, ?_⟩
  simpa [accesses, List.replicate_succ] using Path.run hturn

/-- An operation is under the mutex wherever it walks the registrations, and gives the
mutex back as it was, exactly if nobody asks in it whether a handler is registered. -/
theorem locked_iff (hgive : ∀ k, giveOnce (k + 1) ≤ k) (op : Operation) (n : Nat) :
    (∀ trace, Path handlers (.operation op) trace → Locked giveOnce n trace) ↔
      op.KeepsLock handlers := by
  constructor
  · intro hlocked
    cases op with
    | isHandlerRegistered key handler =>
      exact not_locked_search hgive key handler [] n (hlocked _ (.search []))
    | run ticksToRun =>
      intro key handler hop
      obtain ⟨i, hpath⟩ := Path.searching hop ticksToRun
      exact not_locked_searching hgive n i 2 (hlocked _ hpath)
    | call call => trivial
    | postTo event data ticksToWait => trivial
    | delete => trivial
  · intro hkeeps trace hpath
    have hbalanced : Balanced (LoopEvent.effect giveOnce) n trace := hpath.leads hkeeps
    exact ⟨hbalanced.guarded, fun _ => hbalanced.count_eq⟩

/-- A loop whose handlers only post. The mutex is given as the kernel gives it, which
frees it however often it is held. -/
theorem locked_iff_posting :
    (∀ trace, Path (fun op => ∃ event data, op = .postTo event data 0)
        (.operation (.run maxDelay)) trace → Locked (fun _ => 0) 1 trace) ↔
      Operation.KeepsLock (fun op => ∃ event data, op = .postTo event data 0)
        (.run maxDelay) :=
  locked_iff (fun k => Nat.zero_le k) (.run maxDelay) 1

/-- The search of an empty loop follows one pointer: a caller that does not hold the
mutex follows it unguarded, and one that holds the mutex twice loses both holds. -/
theorem search_not_locked :
    ∃ trace, Path (fun _ => False) (.operation (.isHandlerRegistered ⟨some 1, 2⟩ 3)) trace ∧
      ¬ Guarded (LoopEvent.effect fun _ => 0) 0 trace ∧
      count (LoopEvent.effect fun _ => 0) 2 trace = 0 := by
  refine ⟨[.access, .other .giveOnce], .search [], ?_, rfl⟩
  exact not_guarded_access

end Locked

end PicoHost.Event
