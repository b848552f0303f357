import PicoHost.Event.Post
import PicoHost.Event.Walk
import PicoHost.Lib.RecursiveMutex
import PicoHost.Lib.Run

/-!
# The event loop and the tasks that use it

A machine for `esp_event_post_to`, `esp_event_isr_post_to` and `esp_event_loop_run`. Any
number of tasks post and register, interrupts post, and one task at a time runs the loop.
An action takes one of them to its next operation on the queue or on the mutex, or to the
next node of the dispatch; what stands between two such operations touches only what the
caller owns. An action that has to wait is refused; a wait with a finite timeout ends
whenever the queue or the mutex is not available.

`Log` is no part of the program: it records what has been posted, copied and dispatched.
-/

namespace PicoHost.Event

open Chain

/-! ## State -/

/-- `TaskHandle_t` -/
abbrev Task := Nat

/-- `TickType_t` -/
abbrev Ticks := UInt32

/-- `portMAX_DELAY` -/
def maxDelay : Ticks := 0xffffffff

/-- What is fixed when the loop is created: the length of the queue and the dedicated task,
`loop->task`. -/
structure LoopArgs where
  queueSize : Nat
  task : Option Task
deriving DecidableEq, Repr

/-- Where a call of `esp_event_post_to` is: before it takes the mutex, with the mutex, and
before `xQueueSendToBack`. -/
inductive PostPc where
  | take | locked | send
deriving DecidableEq, Repr

/-- A call of `esp_event_post_to` with its locals, and the event that was passed to it. -/
structure PostCall where
  task : Task
  post : Post
  posted : Posted
  ticksToWait : Ticks
  pc : PostPc
deriving DecidableEq, Repr

/-- Where `esp_event_loop_run` is: before `xQueueReceive`, before it takes the mutex, in the
dispatch between two handlers, in a handler (with the place to go on), and behind
`post_instance_delete`. -/
inductive RunPc where
  | receive
  | lock (post : Post)
  | dispatch (post : Post) (delivery : Delivery) (pc : Pc)
  | handler (post : Post) (delivery : Delivery) (pc : Pc)
  | deleted
deriving DecidableEq, Repr

/-- A call of `esp_event_loop_run` with its locals. -/
structure Runner where
  task : Task
  ticksToRun : Ticks
  marker : Ticks
  remainingTicks : Int
  pc : RunPc
deriving DecidableEq, Repr

/-- The calls of the post functions that are over with their results, what the dispatches
that are over handed out, the copies that were made, and those of rejected posts. -/
structure Log where
  posted : List (Posted × EspErr)
  dispatched : List Delivery
  copied : List Block
  rejected : List Block
deriving DecidableEq, Repr

/-- The accepted events, in order. -/
def Log.accepted (log : Log) : List Posted :=
  log.posted.filterMap fun call => if call.2 = .ok then some call.1 else none

/-- `esp_event_loop_instance_t`, with the calls that are going on. -/
structure LoopInstance where
  queue : List Post
  runningTask : Option Task
  mutex : RecursiveMutex Task
  registry : Registry
  memory : Memory
  calls : List PostCall
  runner : Option Runner
  log : Log

/-- A loop that has been created. -/
def LoopInstance.init : LoopInstance where
  queue := []
  runningTask := none
  mutex := .free
  registry := Registry.empty
  memory := Memory.empty
  calls := []
  runner := none
  log := ⟨[], [], [], []⟩

/-! ## Posting -/

section Post

variable (A : Allocator) (args : LoopArgs) (s : LoopInstance)

def RunPc.inHandler : RunPc → Bool
  | .handler .. => true
  | _ => false

/-- A task that can make a call: it is in no call, or in a handler that is. -/
def LoopInstance.idle (task : Task) : Bool :=
  s.calls.all (fun call => decide (call.task ≠ task)) &&
    match s.runner with
    | none => true
    | some r => decide (r.task ≠ task) || r.pc.inHandler

/-- A post function returns. -/
def LoopInstance.return_ (posted : Posted) (err : EspErr) : LoopInstance :=
  { s with log := { s.log with posted := s.log.posted ++ [(posted, err)] } }

/-- `esp_event_post_to` up to the first wait (esp_event.c:872–907). With a dedicated task
this is the one at the queue (esp_event.c:930–937). -/
def LoopInstance.postTo (task : Task) (base : EventBase) (id : Int32) (data : EventData)
    (ticksToWait : Ticks) : Option LoopInstance :=
  if s.idle task then
    let posted : Posted := ⟨base, id, data.toBytes⟩
    if base = anyBase ∨ id = anyId then some (s.return_ posted .invalidArg)
    else match newPost A s.memory base id data with
      | (none, memory) => some ({ s with memory }.return_ posted .noMem)
      | (some post, memory) =>
        let call : PostCall := match args.task with
          | none => ⟨task, post, posted, ticksToWait, .take⟩
          | some loopTask =>
            ⟨task, post, posted, if loopTask ≠ task then ticksToWait else 0, .send⟩
        some { s with
          memory
          calls := call :: s.calls
          log := { s.log with copied := post.copies ++ s.log.copied } }
  else none

/-- A post that is not accepted (esp_event.c:939–946). -/
def LoopInstance.reject (call : PostCall) : LoopInstance :=
  { s with
    memory := postInstanceDelete s.memory call.post
    calls := s.calls.erase call
    log := { s.log with rejected := call.post.copies ++ s.log.rejected } }.return_
      call.posted .timeout

/-- `xSemaphoreTakeRecursive(loop->mutex, ticks_to_wait)` -/
def LoopInstance.takeMutex (call : PostCall) : Option LoopInstance :=
  match s.mutex.take call.task with
  | some mutex =>
    some { s with mutex, calls := { call with pc := .locked } :: s.calls.erase call }
  | none => if call.ticksToWait = maxDelay then none else some (s.reject call)

/-- With the mutex: a task that runs the loop does not wait for the queue
(esp_event.c:915–928). -/
def LoopInstance.giveMutex (call : PostCall) : LoopInstance :=
  let ticksToWait := if s.runningTask ≠ some call.task then call.ticksToWait else 0
  { s with
    mutex := s.mutex.give call.task
    calls := { call with pc := .send, ticksToWait } :: s.calls.erase call }

/-- `xQueueSendToBack(loop->queue, &post, ticks_to_wait)` -/
def LoopInstance.sendToBack (call : PostCall) : Option LoopInstance :=
  if s.queue.length < args.queueSize then
    some ({ s with queue := s.queue ++ [call.post], calls := s.calls.erase call }.return_
      call.posted .ok)
  else if call.ticksToWait = maxDelay then none
  else some (s.reject call)

/-- The next operation of the call of `esp_event_post_to` that the task is in. -/
def LoopInstance.advance (task : Task) : Option LoopInstance :=
  match s.calls.find? fun call => decide (call.task = task) with
  | none => none
  | some call =>
    match call.pc with
    | .take => s.takeMutex call
    | .locked => some (s.giveMutex call)
    | .send => s.sendToBack args call

/-- `esp_event_isr_post_to` (esp_event.c:958–1003) -/
def LoopInstance.isrPostTo (base : EventBase) (id : Int32) (data : EventData) : LoopInstance :=
  let posted : Posted := ⟨base, id, data.toBytes⟩
  if base = anyBase ∨ id = anyId then s.return_ posted .invalidArg
  else match newIsrPost base id data with
    | none => s.return_ posted .invalidArg
    | some post =>
      if s.queue.length < args.queueSize then
        { s with queue := s.queue ++ [post] }.return_ posted .ok
      else { s with memory := postInstanceDelete s.memory post }.return_ posted .fail

end Post

/-! ## Running -/

section Run

variable (s : LoopInstance)

/-- A task calls `esp_event_loop_run` (esp_event.c:563–574). -/
def LoopInstance.run (task : Task) (ticksToRun now : Ticks) : Option LoopInstance :=
  match s.runner with
  | some _ => none
  | none =>
    if s.idle task then
      some { s with runner := some ⟨task, ticksToRun, now, ticksToRun.toNat, .receive⟩ }
    else none

/-- `xQueueReceive(loop->queue, &post, ticks_to_run)` -/
def LoopInstance.receive (r : Runner) : Option LoopInstance :=
  match s.queue with
  | post :: queue => some { s with queue, runner := some { r with pc := .lock post } }
  | [] => if r.ticksToRun = maxDelay then none else some { s with runner := none }

/-- `xSemaphoreTakeRecursive(loop->mutex, portMAX_DELAY)` (esp_event.c:579–585) -/
def LoopInstance.lock (r : Runner) (post : Post) : Option LoopInstance :=
  match s.mutex.take r.task with
  | none => none
  | some mutex =>
    let pc := Pc.loopNode (s.registry.loopNodes.head?.map LoopNode.self)
    some { s with
      mutex
      runningTask := some r.task
      runner := some { r with pc := .dispatch post (s.memory.delivery post) pc } }

/-- One step of the dispatch (esp_event.c:595–622), or `post_instance_delete` behind it
(esp_event.c:627). Nothing is said about a run that has read a freed node. -/
def LoopInstance.dispatch (r : Runner) (post : Post) (delivery : Delivery) (pc : Pc) :
    Option LoopInstance :=
  if pc = .fault then none
  else if pc = .done then
    some { s with
      memory := postInstanceDelete s.memory post
      runner := some { r with pc := .deleted }
      log := { s.log with dispatched := s.log.dispatched ++ [delivery] } }
  else
    let pc' : RunPc := match pc.handler with
      | none => .dispatch post delivery (pc.next s.registry.loopNodes ⟨post.base, post.id⟩)
      | some (h, cursor) =>
        match read HandlerNode.self (handlerCells s.registry.loopNodes) h with
        | none => .dispatch post delivery .fault
        | some (_, tempHandler) => .handler post delivery (cursor tempHandler)
    some { s with runner := some { r with pc := pc' } }

/-- The handler returns. -/
def LoopInstance.returnHandler (r : Runner) (post : Post) (delivery : Delivery) (pc : Pc) :
    Option LoopInstance :=
  if s.idle r.task then some { s with runner := some { r with pc := .dispatch post delivery pc } }
  else none

/-- Behind the dispatch (esp_event.c:629–652): a run whose time is over returns, and leaves
`running_task` as it is. -/
def LoopInstance.unlock (r : Runner) (now : Ticks) : LoopInstance :=
  let mutex := s.mutex.give r.task
  if r.ticksToRun ≠ maxDelay then
    let remainingTicks := r.remainingTicks - (now - r.marker).toNat
    if remainingTicks ≤ 0 then { s with mutex, runner := none }
    else { s with
      mutex
      runningTask := none
      runner := some { r with marker := now, remainingTicks, pc := .receive } }
  else { s with mutex, runningTask := none, runner := some { r with pc := .receive } }

/-- The next operation of `esp_event_loop_run`; `now` is what `xTaskGetTickCount` returns. -/
def LoopInstance.runStep (now : Ticks) : Option LoopInstance :=
  match s.runner with
  | none => none
  | some r =>
    match r.pc with
    | .receive => s.receive r
    | .lock post => s.lock r post
    | .dispatch post delivery pc => s.dispatch r post delivery pc
    | .handler post delivery pc => s.returnHandler r post delivery pc
    | .deleted => some (s.unlock r now)

end Run

/-! ## Registering, and what handlers do -/

section Other

variable (A : Allocator) (s : LoopInstance)

/-- A call of the registration API. It waits for the mutex, and gives it back at its end. -/
def LoopInstance.register (task : Task) (call : Call) : Option LoopInstance :=
  if s.idle task ∧ (s.mutex.take task).isSome then
    some { s with registry := (call.apply A s.registry).registry }
  else none

/-- A handler writes to the event data that it was given. Data in `val` are the handler's
own, since `handler_execute` gets the post by value. -/
def LoopInstance.write (bytes : List UInt8) : Option LoopInstance :=
  match s.runner with
  | some { pc := .handler { dataSet := true, dataAllocated := true, data := .ptr (some p), .. } _ _,
           .. } =>
    if bytes.length = (s.memory.bytes p).length then
      some { s with
        memory := { s.memory with bytes := Function.update s.memory.bytes p bytes } }
    else none
  | _ => none

end Other

/-! ## The machine -/

inductive Action where
  | postTo (task : Task) (base : EventBase) (id : Int32) (data : EventData) (ticksToWait : Ticks)
  | advance (task : Task)
  | isrPostTo (base : EventBase) (id : Int32) (data : EventData)
  | run (task : Task) (ticksToRun now : Ticks)
  | runStep (now : Ticks)
  | register (task : Task) (call : Call)
  | write (bytes : List UInt8)
deriving DecidableEq, Repr

/-- One action. -/
def LoopInstance.step (A : Allocator) (args : LoopArgs) (s : LoopInstance) :
    Action → Option LoopInstance
  | .postTo task base id data ticksToWait => s.postTo A args task base id data ticksToWait
  | .advance task => s.advance args task
  | .isrPostTo base id data => some (s.isrPostTo args base id data)
  | .run task ticksToRun now => s.run task ticksToRun now
  | .runStep now => s.runStep now
  | .register task call => s.register A task call
  | .write bytes => s.write bytes

end PicoHost.Event
