import PicoHost.Lib.Run
import Mathlib.Tactic.Basic

/-!
# The acknowledgement of SmartConfig (`smartconfig_ack.c`)

Each call of `sc_send_ack_start` creates a task that sends acknowledgements to the phone, and all of
these tasks look at the one flag `s_sc_ack_send`. A step of the model is a call of
`sc_send_ack_start` or `sc_send_ack_stop`, or the next step of a task, with what the system answers
it; the steps of the tasks interleave in any way.

`sockets_held_iff` says when a socket is lost.
-/

namespace PicoHost.Smartconfig

/-- `smartconfig_type_t` -/
inductive ScType where
  | esptouch | airkiss | esptouchAirkiss | esptouchV2
deriving DecidableEq, Repr

/-- An IPv4 address as it stands in memory -/
abbrev Addr := Vector UInt8 4

abbrev Mac := Vector UInt8 6

/-- A socket of lwIP -/
abbrev Fd := Nat

def ip4 (a b c d : UInt8) : Addr := #v[a, b, c, d]

def inaddrAny : Addr := Vector.replicate 4 0

def inaddrBroadcast : Addr := Vector.replicate 4 0xFF

/-- The field `ctx` of `sc_ack_t` -/
structure Ctx where
  token : UInt8
  mac : Mac
  ip : Addr
deriving DecidableEq, Repr

def Ctx.bytes (ctx : Ctx) : List UInt8 := ctx.token :: (ctx.mac.toList ++ ctx.ip.toList)

/-- `sc_ack_t` -/
structure Ack where
  type : ScType
  ctx : Ctx
deriving DecidableEq, Repr

/-- `SC_ACK_TOUCH_LEN` or `SC_ACK_AIRKISS_LEN` -/
def ackLen : ScType → Nat
  | .esptouch => 11
  | _ => 7

/-- `SC_ACK_TOUCH_SERVER_PORT`, `SC_ACK_TOUCH_V2_SERVER_PORT` or `SC_ACK_AIRKISS_SERVER_PORT` -/
def remotePort (type : ScType) (token : UInt8) : Nat :=
  match type with
  | .esptouch => 18266
  | .esptouchV2 => 18266 + (if token.toNat > 3 then 0 else token.toNat) * 10000
  | .airkiss | .esptouchAirkiss => 10000

/-- `SC_ACK_MAX_COUNT` -/
def scAckMaxCount : Nat := 30

/-! ## A task -/

/-- Where `sc_ack_send_task` is -/
inductive Pc where
  | getMac
  | outer
  | getIpInfo
  | socket
  | setsockopt
  | inner
  | sendto
  | eventPost
  | close
  | ended
deriving DecidableEq, Repr

/-- The variables of `sc_ack_send_task` -/
structure Task where
  ack : Ack
  serverAddr : Addr
  remotePort : Nat
  sendSock : Option Fd
  packetCount : UInt8
  pc : Pc
deriving DecidableEq, Repr

/-- What the calls of a task return. `recvfrom` is the address that the byte for AirKiss has come
from. -/
structure Answer where
  mac : Option Mac := none
  ipInfo : Option Addr := none
  socket : Option Fd := none
  setsockopt : Bool := true
  bind : Bool := true
  recvfrom : Option Addr := none
deriving DecidableEq, Repr

inductive Effect where
  | opened (fd : Fd)
  | sent (fd : Option Fd) (dest : Addr) (port : Nat) (data : List UInt8)
  /-- `SC_EVENT_SEND_ACK_DONE` -/
  | done
  | closed (fd : Fd)
  | freed
deriving DecidableEq, Repr

/-- The task that `sc_send_ack_start` creates. `mac` is what `malloc` has left in the block. -/
def newTask (type : ScType) (token : UInt8) (cellphoneIp : Addr) (mac : Mac) : Task where
  ack := ⟨type, token, mac, cellphoneIp⟩
  serverAddr := if type = .esptouchV2 then inaddrBroadcast else cellphoneIp
  remotePort := remotePort type token
  sendSock := none
  packetCount := 1
  pc := .getMac

/-- The datagrams of one round (smartconfig_ack.c:176–183) -/
def Task.round (k : Task) : List Effect :=
  let data := k.ack.ctx.bytes.take (ackLen k.ack.type)
  (if k.serverAddr ≠ inaddrBroadcast then [.sent k.sendSock k.serverAddr k.remotePort data]
    else []) ++ [.sent k.sendSock inaddrBroadcast k.remotePort data]

/-- `sc_ack_send_task` (smartconfig_ack.c:68–207) from one look at the flag, or one call, to the
next. Whether a datagram could be sent changes nothing but a delay. -/
def Task.step (flag : Bool) (a : Answer) (k : Task) : Task × List Effect :=
  match k.pc with
  | .getMac => ({ k with ack.ctx.mac := a.mac.getD k.ack.ctx.mac, pc := .outer }, [])
  | .outer => ({ k with pc := if flag then .getIpInfo else .close }, [])
  | .getIpInfo =>
    match a.ipInfo with
    | none => ({ k with pc := .outer }, [])
    | some ip =>
      if ip = inaddrAny then ({ k with pc := .outer }, [])
      else if k.ack.type = .esptouch then ({ k with ack.ctx.ip := ip, pc := .socket }, [])
      else ({ k with pc := .socket }, [])
  | .socket =>
    match a.socket with
    | none => ({ k with sendSock := none, pc := .close }, [])
    | some fd => ({ k with sendSock := some fd, pc := .setsockopt }, [.opened fd])
  | .setsockopt =>
    if !a.setsockopt then ({ k with pc := .close }, [])
    else if k.ack.type = .airkiss then
      match a.bind, a.recvfrom with
      | true, some from_ =>
        ({ k with
          serverAddr := if from_ ≠ inaddrAny then from_ else inaddrBroadcast
          pc := .inner }, [])
      | _, _ => ({ k with pc := .close }, [])
    else ({ k with pc := .inner }, [])
  | .inner => ({ k with pc := if flag then .sendto else .outer }, [])
  | .sendto =>
    ({ k with
      packetCount := k.packetCount + 1
      pc := if k.packetCount.toNat ≥ scAckMaxCount then .eventPost else .inner }, k.round)
  | .eventPost => ({ k with pc := .close }, [.done])
  | .close =>
    ({ k with sendSock := none, pc := .ended }, (k.sendSock.map .closed).toList ++ [.freed])
  | .ended => (k, [])

/-! ## All tasks -/

inductive EspErr where
  | ok | noMem | invalidArg
deriving DecidableEq, Repr

/-- The tasks in the order of their creation, the sockets that are open, what the tasks have done,
and what the last start returned -/
structure System where
  scAckSend : Bool
  tasks : List Task
  sockets : List Fd
  log : List (Nat × Effect)
  ret : EspErr
deriving DecidableEq, Repr

def System.init : System := ⟨false, [], [], [], .ok⟩

inductive Action where
  | start (type : ScType) (token : UInt8) (cellphoneIp : Option Addr) (malloc : Option Mac)
      (taskCreated : Bool)
  | stop
  | task (n : Nat) (a : Answer)
deriving DecidableEq, Repr

/-- The arguments of a call of `sc_send_ack_start`, and the MAC that `malloc` has left in the block
that it gets -/
structure Request where
  type : ScType
  token : UInt8
  cellphoneIp : Addr
  mac : Mac
deriving DecidableEq, Repr

/-- A call that creates a task -/
def Action.request? : Action → Option Request
  | .start type token (some ip) (some mac) true => some ⟨type, token, ip, mac⟩
  | _ => none

def Effect.sockets (open_ : List Fd) : Effect → List Fd
  | opened fd => fd :: open_
  | closed fd => open_.erase fd
  | _ => open_

/-- `sc_send_ack_start`, `sc_send_ack_stop`, or a step of a task that has not ended. lwIP gives no
socket that is open. -/
def System.step (s : System) : Action → Option System
  | .start _ _ none _ _ => some { s with ret := .invalidArg }
  | .start _ _ (some _) none _ => some { s with ret := .noMem }
  | .start _ _ (some _) (some _) false => some { s with scAckSend := true, ret := .noMem }
  | .start type token (some ip) (some mac) true =>
    some { s with
      scAckSend := true
      tasks := s.tasks ++ [newTask type token ip mac]
      ret := .ok }
  | .stop => some { s with scAckSend := false }
  | .task n a =>
    match s.tasks[n]? with
    | none => none
    | some k =>
      if k.pc = .ended ∨ a.socket.any (· ∈ s.sockets) then none
      else
        let r := k.step s.scAckSend a
        some { s with
          tasks := s.tasks.set n r.1
          sockets := r.2.foldl Effect.sockets s.sockets
          log := s.log ++ r.2.map (n, ·) }

section Inversion

variable {s s' : System}

/-- What a step does -/
theorem step_cases {i : Action} (h : s.step i = some s') :
    (∃ flag ret, s' = { s with scAckSend := flag, ret := ret } ∧ (∀ n a, i ≠ .task n a) ∧
      i.request? = none ∧ (flag = true → s.scAckSend = true ∨
        ∃ type token ip mac, i = .start type token (some ip) (some mac) false)) ∨
    (∃ type token ip mac, i = .start type token (some ip) (some mac) true ∧
      s' = { s with
        scAckSend := true, tasks := s.tasks ++ [newTask type token ip mac], ret := .ok }) ∨
    ∃ n a k, i = .task n a ∧ s.tasks[n]? = some k ∧ k.pc ≠ .ended ∧
      (∀ fd, a.socket = some fd → fd ∉ s.sockets) ∧
      s' = { s with
        tasks := s.tasks.set n (k.step s.scAckSend a).1
        sockets := (k.step s.scAckSend a).2.foldl Effect.sockets s.sockets
        log := s.log ++ (k.step s.scAckSend a).2.map (n, ·) } := by
  match i with
  | .stop =>
    cases h
    exact .inl ⟨false, _, rfl, by simp, rfl, by simp⟩
  | .start _ _ none _ _ =>
    cases h
    exact .inl ⟨s.scAckSend, _, rfl, by simp, rfl, .inl⟩
  | .start _ _ (some _) none _ =>
    cases h
    exact .inl ⟨s.scAckSend, _, rfl, by simp, rfl, .inl⟩
  | .start type token (some ip) (some mac) false =>
    cases h
    exact .inl ⟨true, _, rfl, by simp, rfl, fun _ => .inr ⟨type, token, ip, mac, rfl⟩⟩
  | .start type token (some ip) (some mac) true =>
    cases h
    exact .inr (.inl ⟨type, token, ip, mac, rfl, rfl⟩)
  | .task n a =>
    simp only [System.step] at h
    cases hk : s.tasks[n]? with
    | none => simp [hk] at h
    | some k =>
      simp only [hk] at h
      split at h
      · cases h
      · rename_i hlive
        rw [not_or] at hlive
        obtain ⟨hpc, hfresh⟩ := hlive
        cases h
        refine .inr (.inr ⟨n, a, k, rfl, hk, hpc, ?_, rfl⟩)
        intro fd hfd hmem
        exact hfresh (by simp [hfd, hmem])

end Inversion

/-! ## The sockets -/

/-- The sockets that are in the variables of the tasks -/
def System.held (s : System) : List Fd := s.tasks.filterMap (·.sendSock)

/-- The open sockets are the ones that the tasks hold. -/
def System.Holds (s : System) : Prop := s.sockets.Perm s.held

/-- A task that still holds a socket calls `socket` again. -/
def System.Reopens (s : System) : Action → Prop
  | .task n _ => ∃ k, s.tasks[n]? = some k ∧ k.pc = .socket ∧ k.sendSock ≠ none
  | _ => False

/-- `s_sc_ack_send` is set while a task has come out of its inner loop with a socket and not yet
looked at the flag of the outer one. -/
def System.Revives (s : System) : Action → Prop
  | .start _ _ (some _) (some _) _ => ∃ k ∈ s.tasks, k.pc = .outer ∧ k.sendSock ≠ none
  | _ => False

/-- What a step of a task does to its socket -/
inductive SocketMove (k : Task) (answer : Option Fd) : Task → List Effect → Prop
  | kept {k' effects} : k.pc ≠ .socket → k'.sendSock = k.sendSock →
      (∀ open_, effects.foldl Effect.sockets open_ = open_) → SocketMove k answer k' effects
  | asked {k'} : k.pc = .socket → k'.sendSock = answer →
      SocketMove k answer k' (answer.map .opened).toList
  | closed {k'} : k.pc = .close → k'.sendSock = none →
      SocketMove k answer k' ((k.sendSock.map .closed).toList ++ [.freed])

section Held

variable {s s' : System} {n : Nat} {k : Task} {a : Answer} {flag : Bool}

/-- The tasks around task `n` -/
theorem exists_set (hk : s.tasks[n]? = some k) :
    ∃ pre post, s.tasks = pre ++ k :: post ∧ ∀ k', s.tasks.set n k' = pre ++ k' :: post := by
  obtain ⟨hn, rfl⟩ := List.getElem?_eq_some_iff.mp hk
  have hset : ∀ k', s.tasks.set n k' = s.tasks.take n ++ k' :: s.tasks.drop (n + 1) := by
    intro k'
    rw [List.set_eq_take_append_cons_drop, if_pos hn]
  refine ⟨_, _, ?_, hset⟩
  rw [← hset, List.set_getElem_self]

/-- The sockets of the tasks, those of one task in front -/
theorem filterMap_perm (pre post : List Task) (k : Task) :
    ((pre ++ k :: post).filterMap (·.sendSock)).Perm
      (k.sendSock.toList ++ (pre.filterMap (·.sendSock) ++ post.filterMap (·.sendSock))) := by
  have hcons : (k :: post).filterMap (·.sendSock) =
      k.sendSock.toList ++ post.filterMap (·.sendSock) := by
    cases hsock : k.sendSock <;> simp [hsock]
  rw [List.filterMap_append, hcons, ← List.append_assoc, ← List.append_assoc]
  exact List.perm_append_comm.append_right _

/-- Sending opens and closes nothing. -/
theorem round_sockets (k : Task) (open_ : List Fd) :
    k.round.foldl Effect.sockets open_ = open_ := by
  simp only [Task.round]
  split <;> rfl

/-- What a step does to the socket of its task -/
theorem step_socketMove (flag : Bool) (a : Answer) (k : Task) :
    SocketMove k a.socket (k.step flag a).1 (k.step flag a).2 := by
  rw [Task.step]
  split
  case h_1 hpc | h_2 hpc | h_6 hpc | h_8 hpc | h_10 hpc =>
    exact .kept (by simp [hpc]) rfl fun _ => rfl
  case h_3 hpc =>
    have hkept : ∀ k' : Task, k'.sendSock = k.sendSock → SocketMove k a.socket k' [] :=
      fun k' hsame => .kept (by simp [hpc]) hsame fun _ => rfl
    split
    · exact hkept _ rfl
    · split
      · exact hkept _ rfl
      · split
        · exact hkept _ rfl
        · exact hkept _ rfl
  case h_4 hpc =>
    split
    · rename_i hanswer
      rw [hanswer]
      exact .asked hpc rfl
    · rename_i fd hanswer
      rw [hanswer]
      exact .asked hpc rfl
  case h_5 hpc =>
    have hkept : ∀ k' : Task, k'.sendSock = k.sendSock → SocketMove k a.socket k' [] :=
      fun k' hsame => .kept (by simp [hpc]) hsame fun _ => rfl
    split
    · exact hkept _ rfl
    · split
      · split
        · exact hkept _ rfl
        · exact hkept _ rfl
      · exact hkept _ rfl
  case h_7 hpc => exact .kept (by simp [hpc]) rfl (round_sockets k)
  case h_9 hpc => exact .closed hpc rfl

/-- Which steps open a socket over an open one -/
theorem reopens_iff (hk : s.tasks[n]? = some k) :
    s.Reopens (.task n a) ↔ k.pc = .socket ∧ k.sendSock ≠ none := by
  simp [System.Reopens, hk]

/-- The balance is kept unless a task that has a socket asks for one. -/
theorem perm_set_iff (hk : s.tasks[n]? = some k) (h : s.Holds) {effects : List Effect} {k' : Task}
    (hmove : SocketMove k a.socket k' effects) :
    (effects.foldl Effect.sockets s.sockets).Perm
      ((s.tasks.set n k').filterMap (·.sendSock)) ↔ ¬ s.Reopens (.task n a) := by
  obtain ⟨pre, post, hpre, hset⟩ := exists_set hk
  have hbefore := filterMap_perm pre post k
  have hafter := filterMap_perm pre post k'
  rw [hset, reopens_iff hk]
  rw [System.Holds, System.held, hpre] at h
  have hopen := h.trans hbefore
  generalize pre.filterMap (·.sendSock) ++ post.filterMap (·.sendSock) = rest at *
  rw [hafter.congr_right]
  cases hmove with
  | kept hpc hsame hsockets =>
    rw [hsockets, hsame]
    exact iff_of_true hopen fun hre => hpc hre.1
  | asked hpc hanswer =>
    rw [hanswer]
    cases hsock : k.sendSock with
    | none =>
      -- what is open is what the others hold
      rw [hsock] at hopen
      refine iff_of_true ?_ (by simp)
      cases a.socket with
      | none => exact hopen
      | some fd => exact hopen.cons fd
    | some old =>
      rw [hsock] at hopen
      refine iff_of_false ?_ (by simp [hpc])
      intro hperm
      have hopen := hopen.length_eq
      have hperm := hperm.length_eq
      cases hanswer : a.socket with
      | none => simp [hanswer] at hopen hperm; omega
      | some fd => simp [hanswer, Effect.sockets] at hopen hperm; omega
  | closed hpc hnone =>
    rw [hnone]
    refine iff_of_true ?_ fun hre => by simp [hpc] at hre
    cases hsock : k.sendSock with
    | none =>
      rw [hsock] at hopen
      exact hopen
    | some fd =>
      rw [hsock] at hopen
      have herase := hopen.erase fd
      rw [Option.toList_some, List.singleton_append, List.erase_cons_head] at herase
      exact herase

/-- A step loses no socket exactly if it does not reopen one. -/
theorem holds_step_iff {i : Action} (hstep : s.step i = some s') (h : s.Holds) :
    s'.Holds ↔ ¬ s.Reopens i := by
  rcases step_cases hstep with ⟨flag, ret, rfl, hi, -, -⟩ | ⟨type, token, ip, mac, rfl, rfl⟩ |
    ⟨n, a, k, rfl, hk, -, -, rfl⟩
  · refine iff_of_true h ?_
    intro hre
    cases i with
    | task n a => exact hi n a rfl
    | start | stop => exact hre
  · refine iff_of_true ?_ id
    show s.sockets.Perm ((s.tasks ++ [newTask type token ip mac]).filterMap (·.sendSock))
    rw [List.filterMap_append]
    exact h.trans (by rw [System.held]; simp [newTask])
  · exact perm_set_iff hk h (step_socketMove s.scAckSend a k)

/-- A task that is not between its socket and its end has none; one before the outer loop has none
if the flag is set. -/
def Task.Calm (flag : Bool) (k : Task) : Prop :=
  match k.pc with
  | .getMac | .getIpInfo | .socket | .ended => k.sendSock = none
  | .outer => flag = true → k.sendSock = none
  | .setsockopt | .inner | .sendto | .eventPost | .close => True

/-- A step of a calm task leaves it calm. -/
theorem Task.Calm.step (h : k.Calm flag) (a : Answer) : (k.step flag a).1.Calm flag := by
  rw [Task.step]
  rw [Task.Calm] at h
  split
  case h_1 hpc =>
    rw [hpc] at h
    exact fun _ => h
  case h_2 hpc =>
    rw [hpc] at h
    cases flag with
    | true => exact h rfl
    | false => trivial
  case h_3 hpc =>
    rw [hpc] at h
    split
    · exact fun _ => h
    · split
      · exact fun _ => h
      · split
        · exact h
        · exact h
  case h_4 => split <;> trivial
  case h_5 =>
    split
    · trivial
    · split
      · split <;> trivial
      · trivial
  case h_6 =>
    cases flag with
    | true => trivial
    | false => exact fun hflag => absurd hflag Bool.false_ne_true
  case h_7 => split <;> simp only [Task.Calm]
  case h_8 => trivial
  case h_9 => exact rfl
  case h_10 hpc =>
    rw [hpc] at h
    simpa [Task.Calm, hpc] using h

/-- A change of the flag leaves a task calm, unless it is revived. -/
theorem Task.Calm.set (h : k.Calm flag) {flag' : Bool}
    (hset : flag' = true → flag = true ∨ ¬ (k.pc = .outer ∧ k.sendSock ≠ none)) :
    k.Calm flag' := by
  rw [Task.Calm] at h ⊢
  cases hpc : k.pc <;> simp_all
  intro hflag
  rcases hset hflag with hflag | hnone
  · exact h hflag
  · exact hnone

/-- Every step leaves the tasks calm, unless it revives one. -/
theorem calm_step {i : Action} (hstep : s.step i = some s') (hrevives : ¬ s.Revives i)
    (h : ∀ k ∈ s.tasks, k.Calm s.scAckSend) : ∀ k ∈ s'.tasks, k.Calm s'.scAckSend := by
  rcases step_cases hstep with ⟨flag, ret, rfl, -, -, hflag⟩ | ⟨type, token, ip, mac, rfl, rfl⟩ |
    ⟨n, a, k, rfl, hk, -, -, rfl⟩
  · intro k hk
    refine (h k hk).set fun hset => ?_
    rcases hflag hset with hset | ⟨type, token, ip, mac, rfl⟩
    · exact .inl hset
    · exact .inr fun hold => hrevives ⟨k, hk, hold⟩
  · intro k hk
    rcases List.mem_append.mp hk with hk | hk
    · exact (h k hk).set fun _ => .inr fun hold => hrevives ⟨k, hk, hold⟩
    · cases List.mem_singleton.mp hk
      exact rfl
  · intro k' hk'
    rcases List.mem_or_eq_of_mem_set hk' with hk' | rfl
    · exact h k' hk'
    · exact (h k (List.mem_of_getElem? hk)).step a

/-- A calm task opens no socket over an open one. -/
theorem not_reopens {i : Action} (h : ∀ k ∈ s.tasks, k.Calm s.scAckSend) : ¬ s.Reopens i := by
  intro hre
  cases i with
  | task n a =>
    obtain ⟨k, hk, hpc, hsock⟩ := hre
    have hcalm := h k (List.mem_of_getElem? hk)
    rw [Task.Calm, hpc] at hcalm
    exact hsock hcalm
  | start | stop => exact hre

/-- Tasks that have ended hold no socket. -/
theorem held_of_ended (h : ∀ k ∈ s.tasks, k.Calm s.scAckSend)
    (hended : ∀ k ∈ s.tasks, k.pc = .ended) : s.held = [] := by
  rw [System.held, List.filterMap_eq_nil_iff]
  intro k hk
  have hcalm := h k hk
  rwa [Task.Calm, hended k hk] at hcalm

end Held

/-- As long as no step revives a task, the open sockets are held and nothing is spoiled. -/
def System.Calm (s : System) : Prop := s.Holds ∧ ∀ k ∈ s.tasks, k.Calm s.scAckSend

/-- Every step leaves the system calm, unless it revives a task. -/
theorem System.Calm.step {s s' : System} {i : Action} (h : s.Calm) (hrevives : ¬ s.Revives i)
    (hstep : s.step i = some s') : s'.Calm :=
  ⟨(holds_step_iff hstep h.1).mpr (not_reopens h.2), calm_step hstep hrevives h.2⟩

/-- In every run the open sockets are, after each step, the ones that the tasks hold, exactly if no
task calls `socket` while it still has one. That is so as long as the flag is not set while a task
is on its way from the inner loop to the outer one; when all tasks have ended, no socket is open
then. -/
theorem sockets_held_iff (actions : List Action) (t : System)
    (h : Machine.exec System.step .init actions = some t) :
    (Machine.Each System.step (fun _ _ s' => s'.Holds) .init actions ↔
      Machine.Along System.step (fun s i => ¬ s.Reopens i) .init actions) ∧
    (Machine.Along System.step (fun s i => ¬ s.Revives i) .init actions →
      Machine.Along System.step (fun s i => ¬ s.Reopens i) .init actions ∧
        ((∀ k ∈ t.tasks, k.pc = .ended) → t.sockets = [])) := by
  have hinit : System.init.Holds := List.Perm.refl _
  have hiff : Machine.Each System.step (fun _ _ s' => s'.Holds) .init actions ↔
      Machine.Along System.step (fun s i => ¬ s.Reopens i) .init actions := by
    refine Machine.each_iff_along (I := System.Holds) ?_ ?_ h hinit
    · intro s i s' hre hstep hholds
      have hholds' := (holds_step_iff hstep hholds).mpr hre
      exact ⟨hholds', hholds'⟩
    · intro s i s' hre hstep hholds hholds'
      exact hre ((holds_step_iff hstep hholds).mp hholds')
  refine ⟨hiff, fun hcalm => ?_⟩
  have hcalmInit : System.init.Calm := by
    refine ⟨hinit, fun k hk => ?_⟩
    cases hk
  have hstep : ∀ s i s', ¬ s.Revives i → System.step s i = some s' → s.Calm →
      s'.Calm ∧ s'.Holds := by
    intro s i s' hrevives hi hs
    have hs' := hs.step hrevives hi
    exact ⟨hs', hs'.1⟩
  refine ⟨hiff.mp (Machine.each_of_along hstep hcalm hcalmInit), fun hended => ?_⟩
  obtain ⟨hholds, hquiet⟩ := Machine.exec_inv_along
    (fun s i s' hrevives hi hs => (hstep s i s' hrevives hi hs).1) h hcalm hcalmInit
  rw [System.Holds, held_of_ended hquiet hended] at hholds
  exact hholds.eq_nil

/-- A locally administered address -/
def macOf (last : UInt8) : Mac := #v[2, 0, 0, 0, 0, last]

/-- A stop lets the task leave its inner loop, and a start for another phone sets the flag before it
looks at it again. -/
def revivedTask : List Action :=
  [.start .esptouchV2 1 (some inaddrAny) (some (macOf 0)) true, .task 0 {}, .task 0 {},
    .task 0 { ipInfo := some (ip4 192 168 4 9) }, .task 0 { socket := some 54 }, .task 0 {},
    .stop, .task 0 {},
    .start .esptouchV2 1 (some inaddrAny) (some (macOf 0)) false, .task 0 {},
    .task 0 { ipInfo := some (ip4 192 168 4 9) }, .task 0 { socket := some 55 },
    .task 0 { setsockopt := false }, .task 0 {}]

/-- A task is revived between its two loops: one socket stays open. -/
theorem sockets_held_iff_revivedTask : ∃ t,
    Machine.exec System.step .init revivedTask = some t ∧
      (∀ k ∈ t.tasks, k.pc = .ended) ∧ t.sockets = [54] ∧
        ¬ Machine.Along System.step (fun s i => ¬ s.Revives i) .init revivedTask := by
  obtain ⟨t, h⟩ := Option.isSome_iff_exists.mp
    (show (Machine.exec System.step .init revivedTask).isSome by decide +kernel)
  have hends : (Machine.exec System.step .init revivedTask).map (fun t =>
      (decide (∀ k ∈ t.tasks, k.pc = .ended), t.sockets)) = some (true, [54]) := by
    decide +kernel
  rw [h] at hends
  obtain ⟨hended, hsockets⟩ := Prod.mk.inj (Option.some.inj hends)
  have hended := of_decide_eq_true hended
  refine ⟨t, h, hended, hsockets, fun hcalm => ?_⟩
  have hnone := ((sockets_held_iff revivedTask t h).2 hcalm).2 hended
  rw [hsockets] at hnone
  cases hnone

end PicoHost.Smartconfig
