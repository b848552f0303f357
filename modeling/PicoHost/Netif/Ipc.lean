import PicoHost.Interface.Types
import PicoHost.Lib.Run
import Mathlib.Algebra.BigOperators.Group.Finset.Piecewise
import Mathlib.Algebra.Order.BigOperators.Group.Finset

/-!
# Calls into the TCPIP thread

Every function of `esp_netif` that touches lwIP runs in the TCPIP thread: `esp_netif_lwip_ipc_call`
posts a message on the stack of the caller to the mailbox of the thread, and waits for a semaphore
that all callers share. A second semaphore lets one caller at a time do so.

Two functions in between are lwIP's, and not part of the repository. They are taken to do what lwIP
documents: `tcpip_send_msg_wait_sem` posts the message to the mailbox of the thread (`sys_mbox_post`)
and then waits for the semaphore without a timeout (`sys_arch_sem_wait`); `tcpip_thread` fetches one
message after the other (`sys_arch_mbox_fetch`), calls the function of each and does nothing else in
between but its timeouts.

For any number of tasks and every order of their steps and those of the thread, the calls amount to
those of an object that runs each function at one moment between call and return
(`calls_atomic`), and all of them return (`calls_return`).
-/

namespace PicoHost.Tcpip

open Function (update)
open Interface (EspErr)

/-! ## Semaphores and mailboxes (`sys_arch.c`) -/

/-- `sys_sem_t`, a binary semaphore: whether it can be taken -/
abbrev Sem := Bool

/-- `sys_sem_signal` (sys_arch.c:267–278) -/
def sysSemSignal (_ : Sem) : Sem := true

/-- `sys_arch_sem_wait` without a timeout (sys_arch.c:280–305). `none`: it waits. -/
def sysArchSemWait (sem : Sem) : Option Sem := if sem then some false else none

section Mailbox

variable {μ : Type*} (size : Nat)

/-- `sys_mbox_post` (sys_arch.c:333–342). `none`: it waits. -/
def sysMboxPost (mbox : List μ) (msg : μ) : Option (List μ) :=
  if mbox.length < size then some (mbox ++ [msg]) else none

/-- `sys_mbox_trypost` (sys_arch.c:344–359). Where it returns `ERR_MEM` nothing is posted. -/
def sysMboxTrypost (mbox : List μ) (msg : μ) : List μ :=
  if mbox.length < size then mbox ++ [msg] else mbox

/-- `sys_arch_mbox_fetch` (sys_arch.c:382–413). `none`: it waits. -/
def sysArchMboxFetch : List μ → Option (μ × List μ)
  | [] => none
  | msg :: mbox => some (msg, mbox)

end Mailbox

/-! ## The calls (`esp_netif_lwip.c`) -/

/-- Where a task is in `esp_netif_lwip_ipc_call_msg` (esp_netif_lwip.c:245–260): it waits for
`api_lock_sem`, gives it back, returns. In between, in lwIP's `tcpip_send_msg_wait_sem`, it waits for
room in the mailbox and for `api_sync_sem`. -/
inductive CallPc where
  | locking | posting | waiting | unlocking | returning
deriving DecidableEq, Repr

/-- `esp_netif_api_msg_t` on the stack of a task that is in `esp_netif_lwip_ipc_call` -/
structure Call (φ : Type*) where
  pc : CallPc
  apiFn : φ
  ret : EspErr
deriving DecidableEq, Repr

/-- A message for the TCPIP thread: `esp_netif_api_cb` with the message of a task, or any other
work -/
inductive Msg (τ φ : Type*) where
  | api (t : τ)
  | other (work : φ)
deriving DecidableEq, Repr

/-- Where the TCPIP thread is; `signalling`: at the end of `esp_netif_api_cb`. -/
inductive TcpipPc (τ φ : Type*) where
  | fetching
  | handling (msg : Msg τ φ)
  | signalling
deriving DecidableEq, Repr

/-- Who calls: the TCPIP thread, or another task. -/
inductive Caller (τ : Type*) where
  | tcpip
  | task (t : τ)
deriving DecidableEq, Repr

/-- What can be seen of the calls. `fault`: a message has been read that is gone from its stack. -/
inductive Event (τ φ : Type*) where
  | called (c : Caller τ) (fn : φ)
  | returned (c : Caller τ) (ret : EspErr)
  | fault
deriving DecidableEq, Repr

/-- `sys_thread_tcpip(LWIP_CORE_LOCK_QUERY_HOLDER)` (sys_arch.c:609–640), when the thread is there -/
def sysThreadTcpip {τ : Type*} : Caller τ → Bool
  | .tcpip => true
  | .task _ => false

/-- The state of lwIP, and those who work on it -/
structure Ipc (τ φ σ : Type*) where
  lwip : σ
  apiLockSem : Sem
  apiSyncSem : Sem
  mbox : List (Msg τ φ)
  thread : TcpipPc τ φ
  calls : τ → Option (Call φ)
  log : List (Event τ φ)

/-- What `esp_netif_init` leaves behind -/
def Ipc.init {τ φ σ : Type*} (lwip : σ) : Ipc τ φ σ :=
  ⟨lwip, true, false, [], .fetching, fun _ => none, []⟩

/-- A call begins, a task or the TCPIP thread goes on, or somebody has work for the thread. -/
inductive Action (τ φ : Type*) where
  | call (c : Caller τ) (fn : φ)
  | task (t : τ)
  | tcpip
  | trypost (work : φ)
deriving DecidableEq, Repr

section Step

variable {τ φ σ : Type*} [DecidableEq τ] (run : φ → σ → σ × EspErr) (size : Nat) (s : Ipc τ φ σ)

def Ipc.setCall (t : τ) (c : Option (Call φ)) : Ipc τ φ σ := { s with calls := update s.calls t c }

def Ipc.emit (e : Event τ φ) : Ipc τ φ σ := { s with log := s.log ++ [e] }

/-- The beginning of `esp_netif_lwip_ipc_call`. The TCPIP thread calls from a timeout, between two
messages; what an API function calls is part of it. -/
def Ipc.call (c : Caller τ) (fn : φ) : Option (Ipc τ φ σ) :=
  if sysThreadTcpip c then
    match s.thread with
    | .fetching =>
      let r := run fn s.lwip
      some (({ s with lwip := r.1 }.emit (.called c fn)).emit (.returned c r.2))
    | _ => none
  else
    match c with
    | .tcpip => none
    | .task t =>
      match s.calls t with
      | some _ => none
      | none => some ((s.setCall t (some ⟨.locking, fn, .ok⟩)).emit (.called c fn))

/-- The next step of a task in `esp_netif_lwip_ipc_call_msg`; `posting` and `waiting` are the two
steps of `tcpip_send_msg_wait_sem`. -/
def Ipc.task (t : τ) (c : Call φ) : Option (Ipc τ φ σ) :=
  match c.pc with
  | .locking => (sysArchSemWait s.apiLockSem).map fun apiLockSem =>
      { s.setCall t (some { c with pc := .posting }) with apiLockSem }
  | .posting => (sysMboxPost size s.mbox (.api t)).map fun mbox =>
      { s.setCall t (some { c with pc := .waiting }) with mbox }
  | .waiting => (sysArchSemWait s.apiSyncSem).map fun apiSyncSem =>
      { s.setCall t (some { c with pc := .unlocking }) with apiSyncSem }
  | .unlocking => some { s.setCall t (some { c with pc := .returning }) with
      apiLockSem := sysSemSignal s.apiLockSem }
  | .returning => some ((s.setCall t none).emit (.returned (.task t) c.ret))

/-- The next step of the TCPIP thread, lwIP's `tcpip_thread`, with `esp_netif_api_cb`
(esp_netif_lwip.c:224–238) -/
def Ipc.tcpip : Option (Ipc τ φ σ) :=
  match s.thread with
  | .fetching => (sysArchMboxFetch s.mbox).map fun r =>
      { s with thread := .handling r.1, mbox := r.2 }
  | .handling (.other work) => some { s with lwip := (run work s.lwip).1, thread := .fetching }
  | .handling (.api t) =>
    match s.calls t with
    | none => some ({ s with thread := .fetching }.emit .fault)
    | some msg =>
      let r := run msg.apiFn s.lwip
      some { s.setCall t (some { msg with ret := r.2 }) with lwip := r.1, thread := .signalling }
  | .signalling => some { s with apiSyncSem := sysSemSignal s.apiSyncSem, thread := .fetching }

def Ipc.step : Action τ φ → Option (Ipc τ φ σ)
  | .call c fn => s.call run c fn
  | .task t => (s.calls t).bind (s.task size t)
  | .tcpip => s.tcpip run
  | .trypost work => some { s with mbox := sysMboxTrypost size s.mbox (.other work) }

end Step

/-! ## An object with atomic calls -/

/-- The state of lwIP, and for each task the function that it has called, or the answer -/
structure Served (τ φ σ : Type*) where
  lwip : σ
  calls : τ → Option (φ ⊕ EspErr)
  log : List (Event τ φ)

def Served.init {τ φ σ : Type*} (lwip : σ) : Served τ φ σ := ⟨lwip, fun _ => none, []⟩

/-- A call begins, its function runs, it returns; or other work is done. -/
inductive ServedAction (τ φ : Type*) where
  | call (c : Caller τ) (fn : φ)
  | run (t : τ)
  | ret (t : τ)
  | work (w : φ)

section Served

variable {τ φ σ : Type*} [DecidableEq τ] (run : φ → σ → σ × EspErr) (r : Served τ φ σ)

def Served.step : ServedAction τ φ → Option (Served τ φ σ)
  | .call .tcpip fn =>
    some { r with
      lwip := (run fn r.lwip).1
      log := r.log ++ [.called .tcpip fn] ++ [.returned .tcpip (run fn r.lwip).2] }
  | .call (.task t) fn =>
    match r.calls t with
    | some _ => none
    | none => some { r with
        calls := update r.calls t (some (.inl fn)), log := r.log ++ [.called (.task t) fn] }
  | .run t =>
    match r.calls t with
    | some (.inl fn) => some { r with
        lwip := (run fn r.lwip).1
        calls := update r.calls t (some (.inr (run fn r.lwip).2)) }
    | _ => none
  | .ret t =>
    match r.calls t with
    | some (.inr ret) => some { r with
        calls := update r.calls t none, log := r.log ++ [.returned (.task t) ret] }
    | _ => none
  | .work w => some { r with lwip := (run w r.lwip).1 }

end Served

/-! ## The simulation -/

/-- Where the call is whose task has `api_lock_sem` -/
inductive Stage (τ : Type*) where
  | free
  | posting (t : τ)
  | queued (t : τ)
  | running (t : τ)
  | signalling (t : τ)
  | signalled (t : τ)
  | unlocking (t : τ)

namespace Stage

variable {τ : Type*}

/-- The task that has the semaphore -/
def holder : Stage τ → Option τ
  | .free => none
  | .posting t | .queued t | .running t | .signalling t | .signalled t | .unlocking t => some t

def apiLockSem : Stage τ → Sem
  | .free => true
  | _ => false

def apiSyncSem : Stage τ → Sem
  | .signalled _ => true
  | _ => false

/-- The messages of `esp_netif` in the mailbox -/
def queue : Stage τ → List τ
  | .queued t => [t]
  | _ => []

/-- Where the TCPIP thread is -/
def Thread {φ : Type*} : Stage τ → TcpipPc τ φ → Prop
  | .running t, thread => thread = .handling (.api t)
  | .signalling _, thread => thread = .signalling
  | _, thread => thread = .fetching ∨ ∃ work, thread = .handling (.other work)

end Stage

/-- The task that has posted a message -/
def Msg.task? {τ φ : Type*} : Msg τ φ → Option τ
  | .api t => some t
  | .other _ => none

/-- A call, and what it is to the object with atomic calls -/
inductive CallSim {τ φ : Type*} (stage : Stage τ) (t : τ) :
    Option (Call φ) → Option (φ ⊕ EspErr) → Prop where
  | idle (h : stage.holder ≠ some t) : CallSim stage t none none
  | locking {fn : φ} {ret : EspErr} (h : stage.holder ≠ some t) :
    CallSim stage t (some ⟨.locking, fn, ret⟩) (some (.inl fn))
  | posting {fn : φ} {ret : EspErr} (h : stage = .posting t) :
    CallSim stage t (some ⟨.posting, fn, ret⟩) (some (.inl fn))
  | waiting {fn : φ} {ret : EspErr} (h : stage = .queued t ∨ stage = .running t) :
    CallSim stage t (some ⟨.waiting, fn, ret⟩) (some (.inl fn))
  | done {fn : φ} {ret : EspErr} (h : stage = .signalling t ∨ stage = .signalled t) :
    CallSim stage t (some ⟨.waiting, fn, ret⟩) (some (.inr ret))
  | unlocking {fn : φ} {ret : EspErr} (h : stage = .unlocking t) :
    CallSim stage t (some ⟨.unlocking, fn, ret⟩) (some (.inr ret))
  | returning {fn : φ} {ret : EspErr} (h : stage.holder ≠ some t) :
    CallSim stage t (some ⟨.returning, fn, ret⟩) (some (.inr ret))

/-- The semaphores, the mailbox and the TCPIP thread are where the stage says, and the calls are
those of the object. -/
structure Sim {τ φ σ : Type*} (stage : Stage τ) (s : Ipc τ φ σ) (r : Served τ φ σ) : Prop where
  lwip : r.lwip = s.lwip
  log : r.log = s.log
  lock : s.apiLockSem = stage.apiLockSem
  sync : s.apiSyncSem = stage.apiSyncSem
  queue : s.mbox.filterMap Msg.task? = stage.queue
  thread : stage.Thread s.thread
  calls : ∀ t, CallSim stage t (s.calls t) (r.calls t)

/-- A fetch takes the first message. -/
theorem mboxFetch_some {μ : Type*} {mbox rest : List μ} {msg : μ}
    (h : sysArchMboxFetch mbox = some (msg, rest)) : mbox = msg :: rest := by
  cases mbox with
  | nil => cases h
  | cons m mbox =>
    cases h
    rfl

section Stages

variable {τ φ : Type*} {stage stage' : Stage τ} {t u : τ} {c : Option (Call φ)}
  {x : Option (φ ⊕ EspErr)}

/-- Only the task itself has the semaphore. -/
theorem holder_ne (hne : u ≠ t) : some t ≠ some u := fun h => hne (Option.some.inj h).symm

/-- What another task than the one that has the semaphore is at, it still is afterwards. -/
theorem CallSim.other (h : CallSim stage u c x)
    (hne : stage.holder ≠ some u) (hne' : stage'.holder ≠ some u) : CallSim stage' u c x := by
  cases h with
  | idle => exact .idle hne'
  | locking => exact .locking hne'
  | returning => exact .returning hne'
  | posting h => exact absurd (congrArg Stage.holder h) hne
  | waiting h => rcases h with h | h <;> exact absurd (congrArg Stage.holder h) hne
  | done h => rcases h with h | h <;> exact absurd (congrArg Stage.holder h) hne
  | unlocking h => exact absurd (congrArg Stage.holder h) hne

/-- The task whose message is in the mailbox or with the TCPIP thread waits. -/
theorem CallSim.of_waiting (h : CallSim stage t c x)
    (hstage : stage = .queued t ∨ stage = .running t) :
    ∃ fn ret, c = some ⟨.waiting, fn, ret⟩ ∧ x = some (.inl fn) := by
  have hholder : stage.holder = some t := by rcases hstage with rfl | rfl <;> rfl
  cases h with
  | waiting => exact ⟨_, _, rfl, rfl⟩
  | idle hne | locking hne | returning hne => exact absurd hholder hne
  | posting h | unlocking h => rcases hstage with rfl | rfl <;> cases h
  | done h => rcases hstage with rfl | rfl <;> rcases h with h | h <;> cases h

/-- So does the one whose function has run. -/
theorem CallSim.of_done (h : CallSim stage t c x)
    (hstage : stage = .signalling t ∨ stage = .signalled t) :
    ∃ fn ret, c = some ⟨.waiting, fn, ret⟩ ∧ x = some (.inr ret) := by
  have hholder : stage.holder = some t := by rcases hstage with rfl | rfl <;> rfl
  cases h with
  | done => exact ⟨_, _, rfl, rfl⟩
  | idle hne | locking hne | returning hne => exact absurd hholder hne
  | posting h | unlocking h => rcases hstage with rfl | rfl <;> cases h
  | waiting h => rcases hstage with rfl | rfl <;> rcases h with h | h <;> cases h

/-- The stage when the TCPIP thread is not in `esp_netif_api_cb` -/
theorem Stage.Thread.other {thread thread' : TcpipPc τ φ} (h : stage.Thread thread)
    (hthread : thread = .fetching ∨ ∃ work, thread = .handling (.other work))
    (hthread' : thread' = .fetching ∨ ∃ work, thread' = .handling (.other work)) :
    stage.Thread thread' := by
  cases stage with
  | running t =>
    cases h
    rcases hthread with h | ⟨work, h⟩ <;> cases h
  | signalling t =>
    cases h
    rcases hthread with h | ⟨work, h⟩ <;> cases h
  | free | posting | queued | signalled | unlocking => exact hthread'

/-- While lwIP's task handles a call, the call is running. -/
theorem Stage.Thread.of_handling (h : stage.Thread (.handling (.api t) : TcpipPc τ φ)) :
    stage = .running t := by
  cases stage with
  | running v =>
    cases h
    rfl
  | signalling v => cases h
  | free | posting | queued | signalled | unlocking => rcases h with h | ⟨work, h⟩ <;> cases h

/-- While it signals, the call it served is at its end. -/
theorem Stage.Thread.of_signalling (h : stage.Thread (.signalling : TcpipPc τ φ)) :
    ∃ t, stage = .signalling t := by
  cases stage with
  | running v => cases h
  | signalling t => exact ⟨t, rfl⟩
  | free | posting | queued | signalled | unlocking => rcases h with h | ⟨work, h⟩ <;> cases h

end Stages

section Steps

variable {τ φ σ : Type*} [DecidableEq τ] {run : φ → σ → σ × EspErr} {size : Nat}
  {s s' : Ipc τ φ σ} {r : Served τ φ σ} {stage stage' : Stage τ} {t u : τ}

/-- Some run of the object leads to a state that corresponds. -/
def Matched (run : φ → σ → σ × EspErr) (r : Served τ φ σ) (s' : Ipc τ φ σ) : Prop :=
  ∃ actions r', Machine.exec (Served.step run) r actions = some r' ∧ ∃ stage, Sim stage s' r'

/-- Steps between the two ends of a call are no steps of the served model. -/
theorem Sim.stutter (stage : Stage τ) (h : Sim stage s' r) : Matched run r s' :=
  ⟨[], r, rfl, stage, h⟩

/-- A step of the code is matched by one of the served model. -/
theorem Sim.matched {a : ServedAction τ φ} {r' : Served τ φ σ} (stage : Stage τ)
    (hstep : r.step run a = some r') (h : Sim stage s' r') : Matched run r s' :=
  ⟨[a], r', Machine.exec_cons_some.mpr ⟨r', hstep, rfl⟩, stage, h⟩

/-- One task's call changes, and the stage with it. -/
theorem CallSim.update {calls : τ → Option (Call φ)} {xs : τ → Option (φ ⊕ EspErr)}
    (h : ∀ u, CallSim stage u (calls u) (xs u)) {c : Option (Call φ)} {x : Option (φ ⊕ EspErr)}
    (ht : CallSim stage' t c x) (hother : ∀ u ≠ t, stage.holder ≠ some u ∧ stage'.holder ≠ some u) :
    ∀ u, CallSim stage' u (update calls t c u) (update xs t x u) := by
  intro u
  by_cases hu : u = t
  · rw [hu, Function.update_self, Function.update_self]
    exact ht
  · rw [Function.update_of_ne hu, Function.update_of_ne hu]
    exact (h u).other (hother u hu).1 (hother u hu).2

/-- The same for a call that the object does not notice -/
theorem CallSim.keep {calls : τ → Option (Call φ)} {xs : τ → Option (φ ⊕ EspErr)}
    (h : ∀ u, CallSim stage u (calls u) (xs u)) {c : Option (Call φ)}
    (ht : CallSim stage' t c (xs t))
    (hother : ∀ u ≠ t, stage.holder ≠ some u ∧ stage'.holder ≠ some u) :
    ∀ u, CallSim stage' u (Function.update calls t c u) (xs u) := by
  have hupdate := CallSim.update h ht hother
  rwa [Function.update_eq_self] at hupdate

/-- A wait that returns has taken the semaphore. -/
theorem semWait_some {sem sem' : Sem} (h : sysArchSemWait sem = some sem') :
    sem = true ∧ sem' = false := by
  rw [sysArchSemWait] at h
  split at h
  · rename_i hsem
    cases h
    exact ⟨hsem, rfl⟩
  · cases h

/-- A post that returns has put its message at the end. -/
theorem mboxPost_some {μ : Type*} {mbox mbox' : List μ} {msg : μ}
    (h : sysMboxPost size mbox msg = some mbox') : mbox' = mbox ++ [msg] := by
  rw [sysMboxPost] at h
  split at h
  · cases h
    rfl
  · cases h

/-- Each step of a calling task is matched. -/
theorem Sim.task (h : Sim stage s r) {c : Call φ} (hcall : s.calls t = some c)
    (hstep : s.task size t c = some s') : Matched run r s' := by
  have hc := h.calls t
  rw [hcall] at hc
  generalize hx : r.calls t = x at hc
  cases hc with
  | locking hfree =>
    obtain ⟨lock, hwait, rfl⟩ := Option.map_eq_some_iff.mp hstep
    obtain ⟨hlock, rfl⟩ := semWait_some hwait
    -- nobody has the semaphore
    cases stage with
    | free =>
      refine Sim.stutter (.posting t) ?_
      refine { h with lock := rfl, calls := CallSim.keep h.calls ?_ ?_ }
      · rw [hx]
        exact .posting rfl
      · exact fun u hu => ⟨nofun, holder_ne hu⟩
    | posting | queued | running | signalling | signalled | unlocking =>
      cases h.lock.symm.trans hlock
  | posting hstage =>
    subst hstage
    obtain ⟨mbox, hpost, rfl⟩ := Option.map_eq_some_iff.mp hstep
    cases mboxPost_some hpost
    refine Sim.stutter (.queued t) ?_
    refine { h with queue := ?_, calls := CallSim.keep h.calls ?_ ?_ }
    · rw [List.filterMap_append, h.queue]
      rfl
    · rw [hx]
      exact .waiting (.inl rfl)
    · exact fun u hu => ⟨holder_ne hu, holder_ne hu⟩
  | waiting hstage =>
    obtain ⟨sync, hwait, -⟩ := Option.map_eq_some_iff.mp hstep
    have hsync := h.sync.symm.trans (semWait_some hwait).1
    rcases hstage with rfl | rfl <;> cases hsync
  | done hstage =>
    obtain ⟨sync, hwait, rfl⟩ := Option.map_eq_some_iff.mp hstep
    obtain ⟨hsync, rfl⟩ := semWait_some hwait
    rcases hstage with rfl | rfl
    · cases h.sync.symm.trans hsync
    · refine Sim.stutter (.unlocking t) ?_
      refine { h with sync := rfl, calls := CallSim.keep h.calls ?_ ?_ }
      · rw [hx]
        exact .unlocking rfl
      · exact fun u hu => ⟨holder_ne hu, holder_ne hu⟩
  | unlocking hstage =>
    subst hstage
    cases hstep
    refine Sim.stutter .free ?_
    refine { h with lock := rfl, calls := CallSim.keep h.calls ?_ ?_ }
    · rw [hx]
      exact .returning nofun
    · exact fun u hu => ⟨holder_ne hu, nofun⟩
  | @returning fn ret hfree =>
    cases hstep
    have hret : r.step run (.ret t) = some { r with
        calls := update r.calls t none, log := r.log ++ [.returned (.task t) ret] } := by
      rw [Served.step, hx]
    refine Sim.matched stage hret ?_
    refine { h with log := congrArg (· ++ _) h.log, calls := ?_ }
    intro u
    by_cases hu : u = t
    · rw [hu]
      show CallSim stage t (update s.calls t none t) (update r.calls t none t)
      rw [Function.update_self, Function.update_self]
      exact .idle hfree
    · show CallSim stage u (update s.calls t none u) (update r.calls t none u)
      rw [Function.update_of_ne hu, Function.update_of_ne hu]
      exact h.calls u

/-- Each step of lwIP's task is matched. -/
theorem Sim.tcpip (h : Sim stage s r) (hstep : s.tcpip run = some s') : Matched run r s' := by
  have hthread := h.thread
  rw [Ipc.tcpip] at hstep
  split at hstep
  · rename_i hfetching
    rw [hfetching] at hthread
    obtain ⟨⟨m, rest⟩, hfetch, rfl⟩ := Option.map_eq_some_iff.mp hstep
    have hmbox : s.mbox = m :: rest := mboxFetch_some hfetch
    have hqueue := h.queue
    rw [hmbox] at hqueue
    cases m with
    | other work =>
      refine Sim.stutter stage ?_
      exact { h with queue := hqueue, thread := hthread.other (.inl rfl) (.inr ⟨work, rfl⟩) }
    | api t =>
      -- the only message of `esp_netif` there
      cases stage with
      | queued v =>
        obtain ⟨rfl, hrest⟩ := List.cons.inj hqueue
        refine Sim.stutter (.running t) ?_
        refine { h with queue := hrest, thread := rfl, calls := ?_ }
        intro u
        by_cases hu : u = t
        · subst hu
          obtain ⟨fn, ret, hcall, hserved⟩ := (h.calls u).of_waiting (.inl rfl)
          show CallSim _ u (s.calls u) (r.calls u)
          rw [hcall, hserved]
          exact .waiting (.inr rfl)
        · exact (h.calls u).other (holder_ne hu) (holder_ne hu)
      | free | posting | running | signalling | signalled | unlocking => cases hqueue
  · rename_i work hhandling
    rw [hhandling] at hthread
    cases hstep
    refine Sim.matched (a := .work work) stage rfl ?_
    exact { h with
      lwip := by rw [h.lwip], thread := hthread.other (.inr ⟨work, rfl⟩) (.inl rfl) }
  · rename_i t hhandling
    rw [hhandling] at hthread
    obtain rfl : stage = .running t := hthread.of_handling
    obtain ⟨fn, ret, hcall, hserved⟩ := (h.calls t).of_waiting (.inr rfl)
    rw [hcall] at hstep
    cases hstep
    have hrun : r.step run (.run t) = some { r with
        lwip := (run fn r.lwip).1
        calls := update r.calls t (some (.inr (run fn r.lwip).2)) } := by
      rw [Served.step, hserved]
    refine Sim.matched (.signalling t) hrun ?_
    refine { h with lwip := ?_, thread := rfl, calls := CallSim.update h.calls ?_ ?_ }
    · rw [h.lwip]
    · rw [h.lwip]
      exact .done (.inl rfl)
    · exact fun u hu => ⟨holder_ne hu, holder_ne hu⟩
  · rename_i hsignalling
    rw [hsignalling] at hthread
    cases hstep
    obtain ⟨t, rfl⟩ := hthread.of_signalling
    refine Sim.stutter (.signalled t) ?_
    refine { h with sync := rfl, thread := .inl rfl, calls := ?_ }
    intro u
    by_cases hu : u = t
    · subst hu
      obtain ⟨fn, ret, hcall, hserved⟩ := (h.calls u).of_done (.inl rfl)
      show CallSim _ u (s.calls u) (r.calls u)
      rw [hcall, hserved]
      exact .done (.inr rfl)
    · exact (h.calls u).other (holder_ne hu) (holder_ne hu)

/-- A call that starts is matched. -/
theorem Sim.call (h : Sim stage s r) {c : Caller τ} {fn : φ} (hstep : s.call run c fn = some s') :
    Matched run r s' := by
  cases c with
  | tcpip =>
    rw [Ipc.call, if_pos (show sysThreadTcpip (.tcpip : Caller τ) = true from rfl)] at hstep
    split at hstep
    · cases hstep
      refine Sim.matched (a := .call .tcpip fn) stage rfl ?_
      exact { h with lwip := by rw [h.lwip]; rfl, log := by rw [h.log, h.lwip]; rfl }
    · cases hstep
  | task t =>
    rw [Ipc.call, if_neg (show ¬ sysThreadTcpip (.task t) = true from Bool.false_ne_true)] at hstep
    split at hstep
    · cases hstep
    · rename_i hidle
      cases hstep
      have hc := h.calls t
      rw [hidle] at hc
      generalize hx : r.calls t = x at hc
      cases hc with
      | idle hfree =>
        have hcalled : r.step run (.call (.task t) fn) = some { r with
            calls := update r.calls t (some (.inl fn))
            log := r.log ++ [.called (.task t) fn] } := by
          rw [Served.step, hx]
        refine Sim.matched stage hcalled ?_
        refine { h with log := congrArg (· ++ _) h.log, calls := ?_ }
        intro u
        by_cases hu : u = t
        · rw [hu]
          show CallSim stage t (update s.calls t _ t) (update r.calls t _ t)
          rw [Function.update_self, Function.update_self]
          exact .locking hfree
        · show CallSim stage u (update s.calls t _ u) (update r.calls t _ u)
          rw [Function.update_of_ne hu, Function.update_of_ne hu]
          exact h.calls u

/-- Every step of the system is matched. -/
theorem Sim.step (h : Sim stage s r) {a : Action τ φ} (hstep : s.step run size a = some s') :
    Matched run r s' := by
  cases a with
  | call c fn => exact h.call hstep
  | task t =>
    obtain ⟨c, hcall, hstep⟩ := Option.bind_eq_some_iff.mp hstep
    exact h.task hcall hstep
  | tcpip => exact h.tcpip hstep
  | trypost work =>
    cases hstep
    refine Sim.stutter stage { h with queue := ?_ }
    show (sysMboxTrypost size s.mbox (.other work)).filterMap Msg.task? = _
    rw [sysMboxTrypost]
    split
    · rw [List.filterMap_append, h.queue]
      exact List.append_nil _
    · exact h.queue

end Steps

/-! ## What is left to do -/

section Progress

/-- The steps that are left of a call, those of the TCPIP thread for a message not yet posted
included -/
def Call.left {φ : Type*} (c : Call φ) : Nat :=
  match c.pc with
  | .locking => 8
  | .posting => 7
  | .waiting => 3
  | .unlocking => 2
  | .returning => 1

/-- The steps of the TCPIP thread for a message in the mailbox -/
def Msg.left {τ φ : Type*} : Msg τ φ → Nat
  | .api _ => 3
  | .other _ => 2

/-- The steps of the TCPIP thread before it looks into the mailbox again -/
def TcpipPc.left {τ φ : Type*} : TcpipPc τ φ → Nat
  | .fetching => 0
  | .handling msg => msg.left - 1
  | .signalling => 1

/-- The steps that are left if nobody calls and nothing else is posted -/
def Ipc.left {τ φ σ : Type*} [Fintype τ] (s : Ipc τ φ σ) : Nat :=
  ∑ t, ((s.calls t).map Call.left).getD 0 + (s.mbox.map Msg.left).sum + s.thread.left

/-- A step of a task or the TCPIP thread -/
def Action.goesOn {τ φ : Type*} : Action τ φ → Prop
  | .task _ | .tcpip => True
  | .call .. | .trypost _ => False

variable {τ φ σ : Type*} [DecidableEq τ] [Fintype τ] {run : φ → σ → σ × EspErr} {size : Nat}
  {s s' : Ipc τ φ σ} {r : Served τ φ σ} {stage : Stage τ} {t : τ}

/-- A sum after one summand has changed -/
theorem sum_update (f : τ → Nat) (t : τ) (n : Nat) :
    (∑ u, update f t n u) + f t = (∑ u, f u) + n := by
  rw [Finset.sum_update_of_mem (Finset.mem_univ t), ← Finset.sum_erase_add _ f (Finset.mem_univ t),
    Finset.sdiff_singleton_eq_erase]
  omega

/-- What is left of the calls, when that of one task changes -/
theorem sum_left (calls : τ → Option (Call φ)) (t : τ) (c : Option (Call φ)) :
    (∑ u, ((update calls t c u).map Call.left).getD 0) + ((calls t).map Call.left).getD 0 =
      (∑ u, ((calls u).map Call.left).getD 0) + (c.map Call.left).getD 0 := by
  have hcalls : (fun u => ((update calls t c u).map Call.left).getD 0) =
      update (fun u => ((calls u).map Call.left).getD 0) t ((c.map Call.left).getD 0) := by
    funext u
    by_cases hu : u = t
    · rw [hu, Function.update_self, Function.update_self]
    · rw [Function.update_of_ne hu, Function.update_of_ne hu]
  rw [hcalls]
  exact sum_update _ t _

/-- Every step lowers what is left. -/
theorem task_left {c : Call φ} (hcall : s.calls t = some c) (hstep : s.task size t c = some s') :
    s'.left < s.left := by
  have hsum := fun c' => sum_left s.calls t c'
  rw [hcall] at hsum
  obtain ⟨pc, fn, ret⟩ := c
  cases pc with
  | locking =>
    obtain ⟨lock, -, rfl⟩ := Option.map_eq_some_iff.mp hstep
    have hposting := hsum (some ⟨.posting, fn, ret⟩)
    simp only [Ipc.left, Ipc.setCall, Option.map_some, Option.getD_some, Call.left] at *
    omega
  | posting =>
    obtain ⟨mbox, hpost, rfl⟩ := Option.map_eq_some_iff.mp hstep
    cases mboxPost_some hpost
    have hwaiting := hsum (some ⟨.waiting, fn, ret⟩)
    simp only [Ipc.left, Ipc.setCall, Option.map_some, Option.getD_some, Call.left, Msg.left,
      List.map_append, List.map_cons, List.map_nil, List.sum_append, List.sum_cons,
      List.sum_nil] at *
    omega
  | waiting =>
    obtain ⟨sync, -, rfl⟩ := Option.map_eq_some_iff.mp hstep
    have hunlocking := hsum (some ⟨.unlocking, fn, ret⟩)
    simp only [Ipc.left, Ipc.setCall, Option.map_some, Option.getD_some, Call.left] at *
    omega
  | unlocking =>
    cases hstep
    have hreturning := hsum (some ⟨.returning, fn, ret⟩)
    simp only [Ipc.left, Ipc.setCall, Option.map_some, Option.getD_some, Call.left] at *
    omega
  | returning =>
    cases hstep
    have hnone := hsum none
    simp only [Ipc.left, Ipc.setCall, Ipc.emit, Option.map_some, Option.map_none,
      Option.getD_some, Option.getD_none, Call.left] at *
    omega

/-- Every step of lwIP's task brings the calls nearer to their ends. -/
theorem tcpip_left (hstep : s.tcpip run = some s') : s'.left < s.left := by
  rw [Ipc.tcpip] at hstep
  split at hstep
  · rename_i hfetching
    obtain ⟨⟨m, rest⟩, hfetch, rfl⟩ := Option.map_eq_some_iff.mp hstep
    have hpos : 0 < m.left := by cases m <;> exact Nat.succ_pos _
    simp only [Ipc.left, hfetching, mboxFetch_some hfetch, TcpipPc.left, List.map_cons,
      List.sum_cons]
    omega
  · rename_i work hhandling
    cases hstep
    simp only [Ipc.left, hhandling, TcpipPc.left, Msg.left]
    omega
  · rename_i t hhandling
    split at hstep
    · cases hstep
      simp only [Ipc.left, Ipc.emit, hhandling, TcpipPc.left, Msg.left]
      omega
    · rename_i msg hcall
      cases hstep
      have hsum := sum_left s.calls t (some { msg with ret := (run msg.apiFn s.lwip).2 })
      rw [hcall] at hsum
      simp only [Ipc.left, Ipc.setCall, hhandling, TcpipPc.left, Msg.left, Option.map_some,
        Option.getD_some, Call.left] at *
      omega
  · rename_i hsignalling
    cases hstep
    simp only [Ipc.left, hsignalling, TcpipPc.left]
    omega

end Progress

section Stuck

variable {τ φ σ : Type*} [DecidableEq τ] {run : φ → σ → σ × EspErr} {size : Nat}
  {s : Ipc τ φ σ} {r : Served τ φ σ} {stage : Stage τ} {t : τ}

/-- The TCPIP thread stops only at an empty mailbox. -/
theorem tcpip_none (h : s.tcpip run = none) :
    s.thread = .fetching ∧ s.mbox = [] := by
  rw [Ipc.tcpip] at h
  split at h
  · rename_i hfetching
    refine ⟨hfetching, ?_⟩
    cases hmbox : s.mbox with
    | nil => rfl
    | cons m rest =>
      rw [hmbox] at h
      cases h
  · cases h
  · split at h <;> cases h
  · cases h

/-- There, the task with the semaphore can go on. -/
theorem Sim.holder_steps (h : Sim stage s r) (hsize : 0 < size) (hthread : s.thread = .fetching)
    (hmbox : s.mbox = []) (hholder : stage.holder = some t) :
    ∃ s', s.step run size (.task t) = some s' := by
  have hc := h.calls t
  generalize hcall : s.calls t = c, r.calls t = x at hc
  cases hc with
  | idle hne | locking hne | returning hne => exact absurd hholder hne
  | posting hstage =>
    simp [Ipc.step, Ipc.task, hcall, sysMboxPost, hmbox, hsize]
  | waiting hstage =>
    -- the message would be in the mailbox, or with the thread
    rcases hstage with rfl | rfl
    · have hqueue := h.queue
      rw [hmbox] at hqueue
      cases hqueue
    · cases hthread.symm.trans h.thread
  | done hstage =>
    rcases hstage with rfl | rfl
    · cases hthread.symm.trans h.thread
    · have hsync : s.apiSyncSem = true := h.sync
      simp [Ipc.step, Ipc.task, hcall, sysArchSemWait, hsync]
  | unlocking hstage => simp [Ipc.step, Ipc.task, hcall]

/-- If nobody can go on, all calls have returned. -/
theorem Sim.stuck (h : Sim stage s r) (hsize : 0 < size)
    (hstuck : ∀ a : Action τ φ, a.goesOn → s.step run size a = none) :
    (∀ t, s.calls t = none) ∧ s.mbox = [] := by
  obtain ⟨hthread, hmbox⟩ : s.thread = .fetching ∧ s.mbox = [] := tcpip_none (hstuck .tcpip trivial)
  refine ⟨fun t => ?_, hmbox⟩
  have hstop := hstuck (.task t) trivial
  have hfree : stage.holder = none := by
    by_contra hheld
    obtain ⟨v, hholder⟩ := Option.ne_none_iff_exists'.mp hheld
    obtain ⟨s', hstep⟩ : ∃ s', s.step run size (.task v) = some s' :=
      h.holder_steps hsize hthread hmbox hholder
    cases (hstuck (.task v) trivial).symm.trans hstep
  have hlock : s.apiLockSem = true := by
    cases stage with
    | free => exact h.lock
    | posting | queued | running | signalling | signalled | unlocking => cases hfree
  have hc := h.calls t
  generalize hcall : s.calls t = c, r.calls t = x at hc
  cases hc with
  | idle => rfl
  | locking => simp [Ipc.step, Ipc.task, hcall, sysArchSemWait, hlock] at hstop
  | returning => simp [Ipc.step, Ipc.task, hcall] at hstop
  | posting hstage | unlocking hstage => cases hfree.symm.trans (congrArg Stage.holder hstage)
  | waiting hstage | done hstage =>
    rcases hstage with hstage | hstage <;>
      cases hfree.symm.trans (congrArg Stage.holder hstage)

end Stuck

/-! ## Every run -/

/-- A message of `esp_netif` is the only one in the mailbox, and its caller waits; no signal is given
to a semaphore that has one. -/
structure Ipc.Safe {τ φ σ : Type*} (s : Ipc τ φ σ) : Prop where
  single : (s.mbox.filterMap Msg.task?).length ≤ 1
  waits : ∀ t, .api t ∈ s.mbox ∨ s.thread = .handling (.api t) →
    ∃ c, s.calls t = some c ∧ c.pc = .waiting
  sync : s.thread = .signalling → s.apiSyncSem = false
  lock : ∀ t c, s.calls t = some c → c.pc = .unlocking → s.apiLockSem = false

/-- What is simulated is safe. -/
theorem Sim.safe {τ φ σ : Type*} {s : Ipc τ φ σ} {r : Served τ φ σ} {stage : Stage τ}
    (h : Sim stage s r) : s.Safe := by
  constructor
  · rw [h.queue]
    cases stage <;> simp [Stage.queue]
  · intro t ht
    have hstage : stage = .queued t ∨ stage = .running t := by
      have hthread := h.thread
      rcases ht with hmem | hhandling
      · have hqueue : t ∈ stage.queue := by
          rw [← h.queue]
          exact List.mem_filterMap.mpr ⟨_, hmem, rfl⟩
        cases stage with
        | queued v =>
          rw [List.mem_singleton.mp hqueue]
          exact .inl rfl
        | free | posting | running | signalling | signalled | unlocking => cases hqueue
      · rw [hhandling] at hthread
        exact .inr hthread.of_handling
    obtain ⟨fn, ret, hcall, -⟩ := (h.calls t).of_waiting hstage
    exact ⟨_, hcall, rfl⟩
  · intro hsignalling
    have hthread := h.thread
    rw [hsignalling] at hthread
    obtain ⟨t, rfl⟩ := hthread.of_signalling
    exact h.sync
  · intro t c hcall hpc
    have hc := h.calls t
    rw [hcall] at hc
    generalize r.calls t = x at hc
    cases hc with
    | unlocking hstage => exact h.lock.trans (by rw [hstage]; rfl)
    | locking | posting | waiting | done | returning => cases hpc

section Runs

variable {τ φ σ : Type*} [DecidableEq τ] (run : φ → σ → σ × EspErr) (size : Nat) (lwip : σ)

/-- Every run is a run of the served model, up to steps in between. -/
theorem exec_sim {actions : List (Action τ φ)} {s : Ipc τ φ σ}
    (h : Machine.exec (Ipc.step run size) (.init lwip) actions = some s) :
    ∃ served r, Machine.exec (Served.step run) (.init lwip) served = some r ∧
      ∃ stage, Sim stage s r := by
  have hstep : ∀ (s : Ipc τ φ σ) a s' (r : Served τ φ σ), s.step run size a = some s' →
      (∃ stage, Sim stage s r) → Matched run r s' := by
    rintro s a s' r hstep ⟨stage, hsim⟩
    exact hsim.step hstep
  exact Machine.exec_simulates hstep h
    ⟨.free, rfl, rfl, rfl, rfl, rfl, .inl rfl, fun _ => .idle nofun⟩

/-- Whatever the order in which the tasks and the TCPIP thread take their steps: what is seen of the
calls, and the state of lwIP, are those of an object each call of which runs its function at one
moment between call and return and returns what the function does. -/
theorem calls_atomic (actions : List (Action τ φ)) (s : Ipc τ φ σ)
    (h : Machine.exec (Ipc.step run size) (.init lwip) actions = some s) :
    (∃ served r, Machine.exec (Served.step run) (.init lwip) served = some r ∧
      r.lwip = s.lwip ∧ r.log = s.log) ∧ s.Safe := by
  obtain ⟨served, r, hserved, stage, hsim⟩ := exec_sim run size lwip h
  exact ⟨⟨served, r, hserved, hsim.lwip, hsim.log⟩, hsim.safe⟩

/-- As soon as nobody calls and nothing else is posted, the tasks and the TCPIP thread take a limited
number of steps, however many have called, and can go on until all calls have returned. -/
theorem calls_return [Fintype τ] (hsize : 0 < size) (actions : List (Action τ φ))
    (s : Ipc τ φ σ) (h : Machine.exec (Ipc.step run size) (.init lwip) actions = some s)
    (later : List (Action τ φ)) (hlater : ∀ a ∈ later, a.goesOn) (t : Ipc τ φ σ)
    (ht : Machine.exec (Ipc.step run size) s later = some t) :
    later.length ≤ s.left ∧
      ((∀ a : Action τ φ, a.goesOn → t.step run size a = none) →
        (∀ u, t.calls u = none) ∧ t.mbox = []) := by
  constructor
  · have hstep : ∀ (s : Ipc τ φ σ) (a : Action τ φ) s', a.goesOn → s.step run size a = some s' →
        s'.left < s.left := by
      intro s a s' hgoes hstep
      cases a with
      | task u =>
        obtain ⟨c, hcall, hstep⟩ := Option.bind_eq_some_iff.mp hstep
        exact task_left hcall hstep
      | tcpip => exact tcpip_left hstep
      | call | trypost => exact hgoes.elim
    exact Nat.le_of_add_right_le (Machine.exec_length hstep ht hlater)
  · intro hstuck
    have hrun : Machine.exec (Ipc.step run size) (.init lwip) (actions ++ later) = some t :=
      Machine.exec_append_some.mpr ⟨s, h, ht⟩
    obtain ⟨-, r, -, stage, hsim⟩ := exec_sim run size lwip hrun
    exact hsim.stuck hsize hstuck

end Runs

/-! ## Two callers -/

/-- lwIP as a number, to which a function adds; it fails at 7. -/
def adding (n m : Nat) : Nat × EspErr := (m + n, if m = 7 then .notFound else .ok)

/-- Two tasks call at the same time, while the TCPIP thread has a timeout and a packet to handle. -/
def twoCallers : List (Action Bool Nat) :=
  [.call (.task false) 3, .call (.task true) 5, .call .tcpip 7, .task true, .trypost 10, .task true,
    .tcpip, .tcpip, .tcpip, .tcpip]

/-- What is left to do for both of them -/
def bothReturn : List (Action Bool Nat) :=
  [.tcpip, .task true, .task true, .task false, .task false, .tcpip, .tcpip, .task true, .tcpip,
    .task false, .task false, .task false]

/-- Two tasks call at the same time. -/
theorem calls_atomic_twoCallers : ∃ s : Ipc Bool Nat Nat,
    Machine.exec (Ipc.step adding 2) (.init 0) (twoCallers ++ bothReturn) = some s ∧
      s.lwip = 25 ∧ s.Safe := by
  obtain ⟨s, hs⟩ := Option.isSome_iff_exists.mp
    (show (Machine.exec (Ipc.step adding 2) (.init 0) (twoCallers ++ bothReturn)).isSome by
      decide +kernel)
  have hlwip : (Machine.exec (Ipc.step adding 2) (.init 0) (twoCallers ++ bothReturn)).map
      Ipc.lwip = some 25 := by decide +kernel
  rw [hs] at hlwip
  exact ⟨s, hs, Option.some.inj hlwip, (calls_atomic adding 2 0 _ s hs).2⟩

/-- The two calls of `twoCallers` return. -/
theorem calls_return_twoCallers : ∃ s t : Ipc Bool Nat Nat,
    Machine.exec (Ipc.step adding 2) (.init 0) twoCallers = some s ∧
      Machine.exec (Ipc.step adding 2) s bothReturn = some t ∧ bothReturn.length ≤ s.left := by
  obtain ⟨t, ht⟩ := Option.isSome_iff_exists.mp
    (show (Machine.exec (Ipc.step adding 2) (.init 0) (twoCallers ++ bothReturn)).isSome by
      decide +kernel)
  obtain ⟨s, hs, ht⟩ := Machine.exec_append_some.mp ht
  refine ⟨s, t, hs, ht, (calls_return adding 2 0 (by decide) twoCallers s hs bothReturn ?_ t ht).1⟩
  simp [bothReturn, Action.goesOn]

end PicoHost.Tcpip
