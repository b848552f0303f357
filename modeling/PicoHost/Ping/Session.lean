import PicoHost.Lib.Run
import PicoHost.Ping.Waits

/-!
# The life of a ping session (`ping_sock.c`)

`esp_ping_new_session` acquires the session, a task, a packet and a socket. From then on the
application starts, stops and deletes the session while the task takes its turns, in any order. The
task gives everything back, but only when it finds itself waiting, not notified, and the session
deleted. A turn is an attempt whose receive returns; where it matters whether one does, the task
takes a step for each call of `recvfrom`.

- `session_released`: what is acquired is given back once, and not before the end.
- `exit_iff`: whether a deleted session ever comes to its end.
- `session_batches`: what the callbacks are told, start by start.
-/

namespace PicoHost.Ping

/-! ## The code -/

/-- `esp_ping_config_t`, but for what only sets options of the socket and the task -/
structure PingConfig where
  count : UInt32
  dataSize : UInt32
  targetAddr : IpAddr
  interface : UInt32
deriving DecidableEq, Repr

inductive EspErr where
  | ok | fail | invalidArg | noMem
deriving DecidableEq, Repr

/-- An object that is acquired or given back. `socket` says whether it is of `AF_INET6`. -/
inductive PingAct where
  | callocSession | createTask | callocPacket | socket (inet6 : Bool)
  | freeSession | deleteTask | freePacket | closeSocket
deriving DecidableEq, Repr

/-- What `esp_ping_new_session` is answered: the allocations and the task, with the low half of its
handle, `socket`, `netif_index_to_name` and `setsockopt(SO_BINDTODEVICE)` -/
structure NewAnswers where
  session : Bool
  task : Bool
  taskHdl : UInt16
  packet : Bool
  sock : Int32
  ifName : Bool
  bound : Bool
deriving DecidableEq, Repr

/-- A session with its task; `exited`: the task is gone, and the session with it. -/
structure Session where
  thread : Thread
  sock : Int32
  flagsInit : Bool
  exited : Bool
  acts : List PingAct

/-- `ICMP6_TYPE_EREQ` -/
def icmp6TypeEreq : UInt8 := 128

/-- `ip6_addr_isipv4mappedipv6` -/
def IpAddr.isIpv4Mapped : IpAddr → Bool
  | .v4 _ => false
  | .v6 addr => addr >>> 32 = 0xFFFF

/-- `close(ep->sock)`, which is skipped for the socket 0 -/
def closeSock (sock : Int32) : List PingAct := if 0 < sock then [.closeSocket] else []

/-- What is done at the label `err` of `esp_ping_new_session` (ping_sock.c:304–317) -/
def newSessionErr (sock : Int32) (packet task : Bool) : List PingAct :=
  closeSock sock ++ (if packet then [.freePacket] else []) ++
    (if task then [.deleteTask] else []) ++ [.freeSession]

/-- The fields of a new session -/
def newPing (c : PingConfig) (taskHdl : UInt16) : EspPing where
  packetHdr := ⟨if c.targetAddr.isV4 then icmpEcho else icmp6TypeEreq, 0, taskHdl, 0⟩
  recvAddr := c.targetAddr
  recvLen := 0
  icmpPktSize := .ofNat icmpEchoHdrSize + c.dataSize
  count := c.count
  transmitted := 0
  received := 0
  elapsedTimeMs := 0
  totalTimeMs := 0
  ttl := 0
  tos := 0
  flagsStart := false

/-- `esp_ping_new_session` (ping_sock.c:204–318): the result, what has been acquired and given
back, and the session -/
def espPingNewSession (config : Option PingConfig) (hdlOut : Bool) (a : NewAnswers) :
    EspErr × List PingAct × Option Session :=
  match config with
  | none => (.invalidArg, [], none)
  | some c =>
    if ¬ hdlOut then (.invalidArg, [], none)
    else if ¬ a.session then (.noMem, [], none)
    else if ¬ a.task then (.noMem, [.callocSession] ++ newSessionErr 0 false false, none)
    else if ¬ a.packet then
      (.noMem, [.callocSession, .createTask] ++ newSessionErr 0 false true, none)
    else if a.sock < 0 then
      (.fail, [.callocSession, .createTask, .callocPacket] ++ newSessionErr a.sock true true, none)
    else
      let inet6 := ¬ (c.targetAddr.isV4 ∨ c.targetAddr.isIpv4Mapped)
      let acts := [.callocSession, .createTask, .callocPacket, .socket inet6]
      if c.interface ≠ 0 ∧ ¬ (a.ifName ∧ a.bound) then
        (.fail, acts ++ newSessionErr a.sock true true, none)
      else (.ok, acts, some ⟨.start (newPing c a.taskHdl), a.sock, true, false, acts⟩)

/-- What the task gives back before it exits (ping_sock.c:193–201) -/
def exitActs (sock : Int32) : List PingAct :=
  [.freePacket] ++ closeSock sock ++ [.freeSession, .deleteTask]

/-- What the application and the task do -/
inductive SessionAction where
  | start | stop | delete
  | turn (t : Turn)

section Code

variable (inetChksum : IcmpEchoHdr → UInt32 → UInt16) (s : Session)

/-- One turn of `esp_ping_thread`: a wait that times out finds the session deleted, or goes on. -/
def Session.turn (t : Turn) : Session :=
  if s.thread.running = false ∧ s.thread.notified = false ∧ s.flagsInit = false then
    { s with exited := true, acts := s.acts ++ exitActs s.sock }
  else { s with thread := s.thread.step inetChksum t }

/-- `esp_ping_stop` (ping_sock.c:344–353) -/
def espPingStop : Session :=
  { s with thread := { s.thread with ep := { s.thread.ep with flagsStart := false } } }

/-- `esp_ping_delete_session` (ping_sock.c:320–330) -/
def espPingDeleteSession : Session := { s with flagsInit := false }

def Session.next : SessionAction → Session
  | .start => { s with thread := espPingStart s.thread }
  | .stop => espPingStop s
  | .delete => espPingDeleteSession s
  | .turn t => s.turn inetChksum t

/-- A session that is gone takes no calls. -/
def Session.step (a : SessionAction) : Option Session :=
  if s.exited then none else some (s.next inetChksum a)

end Code

/-! ## What is acquired is given back -/

def PingAct.opens : PingAct → Bool
  | .socket _ => true
  | _ => false

/-- Each object has been acquired once, and none given back. -/
structure Held (acts : List PingAct) : Prop where
  session : acts.count .callocSession = 1 ∧ acts.count .freeSession = 0
  task : acts.count .createTask = 1 ∧ acts.count .deleteTask = 0
  packet : acts.count .callocPacket = 1 ∧ acts.count .freePacket = 0
  socket : acts.countP PingAct.opens = 1 ∧ acts.count .closeSocket = 0

/-- What has been acquired has been given back, but for the socket 0. -/
structure Balanced (sock : Int32) (acts : List PingAct) : Prop where
  session : acts.count .freeSession = acts.count .callocSession
  task : acts.count .deleteTask = acts.count .createTask
  packet : acts.count .freePacket = acts.count .callocPacket
  socket : acts.count .closeSocket = if sock = 0 then 0 else acts.countP PingAct.opens

/-- What a session has acquired when it is created -/
def acquired (inet6 : Bool) : List PingAct :=
  [.callocSession, .createTask, .callocPacket, .socket inet6]

/-- What a session acquires is held. -/
theorem held_acquired (inet6 : Bool) : Held (acquired inet6) :=
  ⟨⟨rfl, rfl⟩, ⟨rfl, rfl⟩, ⟨rfl, rfl⟩, ⟨rfl, rfl⟩⟩

/-- A valid socket is closed, unless it is socket 0. -/
theorem closeSock_of_nonneg {sock : Int32} (h : ¬ sock < 0) :
    closeSock sock = if sock = 0 then [] else [.closeSocket] := by
  rw [closeSock]
  by_cases hzero : sock = 0
  · rw [hzero]
    rfl
  · have hlt : 0 < sock := by
      rw [Int32.lt_iff_toInt_lt] at h ⊢
      have hne : sock.toInt ≠ 0 := fun heq => hzero (Int32.toInt_inj.mp heq)
      have htoInt : (0 : Int32).toInt = 0 := rfl
      omega
    rw [if_pos hlt, if_neg hzero]

/-- Where there is no socket, none is closed. -/
theorem closeSock_of_neg {sock : Int32} (h : sock < 0) : closeSock sock = [] := by
  rw [closeSock, if_neg]
  rw [Int32.lt_iff_toInt_lt] at h ⊢
  have htoInt : (0 : Int32).toInt = 0 := rfl
  omega

section Balanced

variable {sock : Int32}

/-- Where the socket is the only thing that may be left -/
theorem balanced_close (acts : List PingAct → List PingAct) (h : ¬ sock < 0)
    (hkept : Balanced 0 (acts [])) (hclosed : ∀ n ≠ 0, Balanced n (acts [.closeSocket])) :
    Balanced sock (acts (closeSock sock)) := by
  rw [closeSock_of_nonneg h]
  by_cases hzero : sock = 0
  · rw [if_pos hzero, hzero]
    exact hkept
  · rw [if_neg hzero]
    exact hclosed sock hzero

/-- The end of the task gives everything back. -/
theorem balanced_exit (h : ¬ sock < 0) (inet6 : Bool) :
    Balanced sock (acquired inet6 ++ exitActs sock) :=
  balanced_close
    (fun close => acquired inet6 ++ ([.freePacket] ++ close ++ [.freeSession, .deleteTask])) h
    ⟨rfl, rfl, rfl, rfl⟩ fun _ hn => ⟨rfl, rfl, rfl, (if_neg hn).symm⟩

/-- The error path gives everything back. -/
theorem balanced_err (h : ¬ sock < 0) (inet6 : Bool) :
    Balanced sock (acquired inet6 ++ newSessionErr sock true true) :=
  balanced_close
    (fun close => acquired inet6 ++ (close ++ [.freePacket] ++ [.deleteTask] ++ [.freeSession])) h
    ⟨rfl, rfl, rfl, rfl⟩ fun _ hn => ⟨rfl, rfl, rfl, (if_neg hn).symm⟩

/-- Before there is a socket -/
theorem balanced_early {acts : List PingAct}
    (hsession : acts.count .freeSession = acts.count .callocSession)
    (htask : acts.count .deleteTask = acts.count .createTask)
    (hpacket : acts.count .freePacket = acts.count .callocPacket)
    (hclose : acts.count .closeSocket = 0) (hopen : acts.countP PingAct.opens = 0) :
    Balanced sock acts :=
  ⟨hsession, htask, hpacket, by rw [hclose, hopen, ite_self]⟩

end Balanced

/-- A session is either not created, and everything is given back, or it holds one of each. -/
theorem newSession_cases (config : Option PingConfig) (hdlOut : Bool) (a : NewAnswers) :
    ((espPingNewSession config hdlOut a).1 ≠ .ok ∧
        (espPingNewSession config hdlOut a).2.2 = none ∧
        Balanced a.sock (espPingNewSession config hdlOut a).2.1) ∨
      ∃ c inet6, config = some c ∧ ¬ a.sock < 0 ∧ espPingNewSession config hdlOut a =
        (.ok, acquired inet6,
          some ⟨.start (newPing c a.taskHdl), a.sock, true, false, acquired inet6⟩) := by
  cases config with
  | none => exact .inl ⟨EspErr.noConfusion, rfl, balanced_early rfl rfl rfl rfl rfl⟩
  | some c =>
    rw [espPingNewSession]
    split
    · exact .inl ⟨EspErr.noConfusion, rfl, balanced_early rfl rfl rfl rfl rfl⟩
    split
    · exact .inl ⟨EspErr.noConfusion, rfl, balanced_early rfl rfl rfl rfl rfl⟩
    split
    · exact .inl ⟨EspErr.noConfusion, rfl, balanced_early rfl rfl rfl rfl rfl⟩
    split
    · exact .inl ⟨EspErr.noConfusion, rfl, balanced_early rfl rfl rfl rfl rfl⟩
    split
    · rename_i hsock
      refine .inl ⟨EspErr.noConfusion, rfl, ?_⟩
      rw [newSessionErr, closeSock_of_neg hsock]
      exact balanced_early rfl rfl rfl rfl rfl
    · rename_i hsock
      dsimp only
      split
      · exact .inl ⟨EspErr.noConfusion, rfl, balanced_err hsock _⟩
      · exact .inr ⟨c, _, rfl, hsock, rfl⟩

section Run

variable {inetChksum : IcmpEchoHdr → UInt32 → UInt16} {s s' t : Session}

/-- A step is possible until the task has ended. -/
theorem step_some {a : SessionAction} :
    s.step inetChksum a = some s' ↔ s.exited = false ∧ s.next inetChksum a = s' := by
  rw [Session.step]
  cases s.exited <;> simp

/-- A session holds one of each until it exits, which it does deleted and at rest. -/
structure SessionInv (sock : Int32) (inet6 : Bool) (s : Session) : Prop where
  socket : s.sock = sock
  alive : s.exited = false → s.acts = acquired inet6
  gone : s.exited = true → s.acts = acquired inet6 ++ exitActs sock ∧
    s.flagsInit = false ∧ s.thread.running = false ∧ s.thread.notified = false

/-- One turn of the task keeps the invariant. -/
theorem SessionInv.turn {sock : Int32} {inet6 : Bool} (inv : SessionInv sock inet6 s)
    (halive : s.exited = false) (turn : Turn) :
    SessionInv sock inet6 (s.turn inetChksum turn) := by
  rw [Session.turn]
  split
  · rename_i hrest
    obtain ⟨hrunning, hnotified, hinit⟩ := hrest
    refine ⟨inv.socket, Bool.noConfusion, fun _ => ⟨?_, hinit, hrunning, hnotified⟩⟩
    show s.acts ++ exitActs s.sock = _
    rw [inv.alive halive, inv.socket]
  · exact ⟨inv.socket, inv.alive, fun hgone => absurd hgone (by simp [halive])⟩

/-- Every step keeps the invariant. -/
theorem SessionInv.step {sock : Int32} {inet6 : Bool} {a : SessionAction}
    (hstep : s.step inetChksum a = some s') (inv : SessionInv sock inet6 s) :
    SessionInv sock inet6 s' := by
  obtain ⟨halive, rfl⟩ := step_some.mp hstep
  have hkeep : ∀ thread flagsInit, SessionInv sock inet6 { s with thread, flagsInit } :=
    fun _ _ => ⟨inv.socket, inv.alive, fun hgone => absurd hgone (by simp [halive])⟩
  cases a with
  | start => exact hkeep _ _
  | stop => exact hkeep _ _
  | delete => exact hkeep _ _
  | turn t => exact inv.turn halive t

/-- Nobody else resets the flag. -/
theorem init_kept {a : SessionAction} (hne : a ≠ .delete)
    (hstep : s.step inetChksum a = some s') (hinit : s.flagsInit = true) : s'.flagsInit = true := by
  obtain ⟨-, rfl⟩ := step_some.mp hstep
  cases a with
  | start => exact hinit
  | stop => exact hinit
  | delete => exact absurd rfl hne
  | turn t =>
    show (s.turn inetChksum t).flagsInit = true
    rw [Session.turn]
    split <;> exact hinit

end Run

/-- Whatever fails when a session is created, and in whatever order it is started, stopped and
deleted while its task runs: all that it acquires is given back, each object once and only when the
session has been deleted, no start is pending and no request under way. A socket with the number 0
is never closed. -/
theorem session_released (inetChksum : IcmpEchoHdr → UInt32 → UInt16)
    (config : Option PingConfig) (hdlOut : Bool) (a : NewAnswers) :
    match espPingNewSession config hdlOut a with
    | (err, acts, none) => err ≠ .ok ∧ Balanced a.sock acts
    | (err, _, some s) => err = .ok ∧ ∀ actions t,
        Machine.exec (Session.step inetChksum) s actions = some t →
          if t.exited then
            Balanced a.sock t.acts ∧ .delete ∈ actions ∧
              t.thread.running = false ∧ t.thread.notified = false
          else Held t.acts := by
  rcases newSession_cases config hdlOut a with ⟨herr, hnone, hbalanced⟩ | ⟨c, inet6, -, hsock, hnew⟩
  · generalize espPingNewSession config hdlOut a = new at herr hnone hbalanced
    obtain ⟨err, acts, session⟩ := new
    cases hnone
    exact ⟨herr, hbalanced⟩
  · rw [hnew]
    refine ⟨rfl, fun actions t h => ?_⟩
    have inv : SessionInv a.sock inet6 t :=
      Machine.exec_inv (fun s b s' hstep hs => hs.step hstep) h
        ⟨rfl, fun _ => rfl, Bool.noConfusion⟩
    cases hexited : t.exited with
    | false =>
      rw [if_neg Bool.false_ne_true, inv.alive hexited]
      exact held_acquired inet6
    | true =>
      obtain ⟨hacts, hinit, hrunning, hnotified⟩ := inv.gone hexited
      rw [if_pos rfl, hacts]
      refine ⟨balanced_exit hsock inet6, ?_, hrunning, hnotified⟩
      by_contra hdelete
      have hkept : t.flagsInit = true :=
        Machine.exec_inv_of (Q := fun b => b ≠ SessionAction.delete)
          (fun s b s' hne hstep hs => init_kept hne hstep hs) h
          (fun b hb heq => hdelete (heq ▸ hb)) rfl
      rw [hinit] at hkept
      cases hkept

/-! ## Whether a deleted session comes to its end -/

/-- A deleted session, and what its task is doing -/
structure SessionTask where
  session : Session
  attempts : Nat
  receiving : Option Receiving

namespace SessionTask

/-- The task of the session -/
def task (s : SessionTask) : PingTask := ⟨s.session.thread, s.attempts, s.receiving⟩

/-- The task has got on. -/
def withTask (s : SessionTask) (t : PingTask) : SessionTask :=
  ⟨{ s.session with thread := t.thread }, t.attempts, t.receiving⟩

/-- One step of `esp_ping_thread`: a wait that times out finds the session deleted, or goes on. -/
def step (inetChksum : IcmpEchoHdr → UInt32 → UInt16) (net : Network) (s : SessionTask) :
    SessionTask :=
  if s.session.exited then s
  else if s.receiving.isNone ∧ s.session.thread.running = false ∧
      s.session.thread.notified = false ∧ s.session.flagsInit = false then
    { s with
      session := { s.session with
        exited := true, acts := s.session.acts ++ exitActs s.session.sock } }
  else s.withTask (s.task.step inetChksum net)

end SessionTask

section Exit

variable {inetChksum : IcmpEchoHdr → UInt32 → UInt16} {net : Network} {s : Session}
  {st : SessionTask}

/-- The thread waits, and has not been notified. -/
def Session.AtRest (s : Session) : Prop := s.thread.running = false ∧ s.thread.notified = false

/-- A batch of requests ends: the session has been stopped, or the sequence number can reach the
count. -/
def Session.Ends (s : Session) : Prop :=
  s.thread.ep.flagsStart = false ∨ (s.thread.ep.count ≠ 0 ∧ s.thread.ep.count.toNat < 2 ^ 16)

/-- At most so many turns are left. -/
def Session.left (s : Session) : Nat :=
  if s.exited then 0
  else 1 + (if s.thread.running then
      1 + (s.thread.ep.count.toNat - s.thread.ep.packetHdr.seqno.toNat) else 0) +
    if s.thread.notified then 2 + s.thread.ep.count.toNat else 0

/-- Nothing is left of a session that has come to its end, and of no other. -/
theorem left_eq_zero_iff : s.left = 0 ↔ s.exited = true := by
  rw [Session.left]
  cases s.exited with
  | true => exact iff_of_true rfl rfl
  | false => exact iff_of_false (by rw [if_neg Bool.false_ne_true]; omega) Bool.noConfusion

/-- A batch that ends makes its attempts below the count. -/
theorem seqno_succ {t : Thread} (hloops : t.Loops)
    (hends : t.ep.flagsStart = false ∨ (t.ep.count ≠ 0 ∧ t.ep.count.toNat < 2 ^ 16)) :
    t.ep.packetHdr.seqno.toNat < t.ep.count.toNat ∧
      (t.ep.packetHdr.seqno + 1).toNat = t.ep.packetHdr.seqno.toNat + 1 := by
  rcases hends with hstopped | ⟨hcount, hlt⟩
  · rw [hloops.1] at hstopped
    cases hstopped
  · have hseqno := hloops.2.resolve_left hcount
    rw [UInt32.lt_iff_toNat_lt, UInt16.toNat_toUInt32] at hseqno
    refine ⟨hseqno, ?_⟩
    rw [UInt16.toNat_add]
    exact Nat.mod_eq_of_lt (Nat.lt_of_le_of_lt hseqno hlt)

/-- A turn brings the end nearer. -/
theorem turn_ends (hinit : s.flagsInit = false) (halive : s.exited = false)
    (h : s.AtRest ∨ s.Ends) (turn : Turn) :
    (s.turn inetChksum turn).left < s.left ∧ (s.turn inetChksum turn).flagsInit = false ∧
      ((s.turn inetChksum turn).exited = false → (s.turn inetChksum turn).Ends) := by
  have hleft : ∀ thread, Session.left { s with thread } = 1 + (if thread.running then
      1 + (thread.ep.count.toNat - thread.ep.packetHdr.seqno.toNat) else 0) +
      if thread.notified then 2 + thread.ep.count.toNat else 0 := by
    intro thread
    rw [Session.left, if_neg (by simp [halive])]
  rw [Session.turn]
  split
  · refine ⟨?_, hinit, Bool.noConfusion⟩
    rw [left_eq_zero_iff.mpr rfl, hleft s.thread]
    omega
  · rename_i hrest
    have hends : s.Ends := h.resolve_left fun hatRest => hrest ⟨hatRest.1, hatRest.2, hinit⟩
    have hturned := turned inetChksum turn s.thread
    generalize s.thread.step inetChksum turn = thread at hturned
    rw [hleft s.thread, hleft thread]
    cases hturned with
    | ping hrunning hloops =>
      obtain ⟨hseqno, hcount, hflags⟩ := ping_loop inetChksum turn s.thread
      obtain ⟨hlt, hsucc⟩ := seqno_succ hloops hends
      have hrunning' : (s.thread.ping inetChksum turn).running = true := hrunning
      have hnotified : (s.thread.ping inetChksum turn).notified = s.thread.notified := rfl
      refine ⟨?_, hinit, fun _ => ?_⟩
      · rw [hrunning, hrunning', hnotified, hseqno, hcount, hsucc, if_pos rfl, if_pos rfl]
        omega
      · rw [Session.Ends]
        show (s.thread.ping inetChksum turn).ep.flagsStart = false ∨ _
        rw [hflags, hcount]
        exact hends
    | ended hrunning hloops =>
      refine ⟨?_, hinit, fun _ => hends⟩
      rw [hrunning, if_pos rfl, if_neg Bool.false_ne_true]
      show 1 + 0 + (if s.thread.notified then 2 + s.thread.ep.count.toNat else 0) < _
      omega
    | taken hrunning hnotified =>
      refine ⟨?_, hinit, fun _ => hends⟩
      rw [hrunning, hnotified, if_neg Bool.false_ne_true, if_pos rfl]
      show 1 + (1 + (s.thread.ep.count.toNat - 0)) + 0 < _
      omega
    | waited hrunning hnotified => exact absurd ⟨hrunning, hnotified, hinit⟩ hrest

/-- What keeps a session from its end -/
structure Session.Endless (s : Session) : Prop where
  alive : s.exited = false
  busy : ¬ s.AtRest
  loops : ¬ s.Ends

/-- A turn does not end it. -/
theorem Session.Endless.turn (h : s.Endless) (turn : Turn) :
    (s.turn inetChksum turn).Endless := by
  obtain ⟨hstart, hcount⟩ := not_or.mp h.loops
  have hstart : s.thread.ep.flagsStart = true := (Bool.not_eq_false _).mp hstart
  have hloops : s.thread.Loops := by
    refine ⟨hstart, ?_⟩
    by_cases hzero : s.thread.ep.count = 0
    · exact .inl hzero
    · refine .inr ?_
      have hlt := s.thread.ep.packetHdr.seqno.toNat_lt
      have hle := Nat.not_lt.mp fun hlt => hcount ⟨hzero, hlt⟩
      rw [UInt32.lt_iff_toNat_lt, UInt16.toNat_toUInt32]
      exact Nat.lt_of_lt_of_le hlt hle
  rw [Session.turn, if_neg fun hrest => h.busy ⟨hrest.1, hrest.2.1⟩]
  have hturned := turned inetChksum turn s.thread
  generalize s.thread.step inetChksum turn = thread at hturned
  cases hturned with
  | ping hrunning _ =>
    obtain ⟨-, hcount', hflags⟩ := ping_loop inetChksum turn s.thread
    refine ⟨h.alive, fun hrest => ?_, ?_⟩
    · cases hrunning.symm.trans hrest.1
    · rw [Session.Ends]
      show ¬ ((s.thread.ping inetChksum turn).ep.flagsStart = false ∨ _)
      rw [hflags, hcount']
      exact h.loops
  | ended _ hended => exact absurd hloops hended
  | taken hrunning hnotified =>
    exact ⟨h.alive, fun hrest => Bool.noConfusion hrest.1, h.loops⟩
  | waited hrunning hnotified => exact absurd ⟨hrunning, hnotified⟩ h.busy

/-- An attempt keeps a session where it is. -/
theorem Session.ends_of_kept {thread : Thread} (h : s.thread.Kept thread) :
    (Session.AtRest { s with thread } ↔ s.AtRest) ∧
      (Session.Ends { s with thread } ↔ s.Ends) := by
  rw [Session.AtRest, Session.AtRest, Session.Ends, Session.Ends, h.running, h.notified,
    h.flagsStart, h.count]
  exact ⟨Iff.rfl, Iff.rfl⟩

/-- A task that makes an attempt does not look whether the session has been deleted. -/
theorem step_of_busy (halive : st.session.exited = false) (hbusy : st.task.Busy) :
    st.step inetChksum net = st.withTask (st.task.step inetChksum net) := by
  rw [SessionTask.step, if_neg (Bool.eq_false_iff.mp halive), if_neg]
  rintro ⟨hnone, hrunning, -⟩
  rcases hbusy with hreceiving | ⟨hrunning', -⟩
  · exact hreceiving (Option.isNone_iff_eq_none.mp hnone)
  · cases hrunning'.symm.trans hrunning

/-- So it is for as long as it makes one. -/
theorem iterate_of_busy (halive : st.session.exited = false) {n : Nat}
    (hbusy : ∀ m < n, ((PingTask.step inetChksum net)^[m] st.task).Busy) :
    (SessionTask.step inetChksum net)^[n] st =
      st.withTask ((PingTask.step inetChksum net)^[n] st.task) := by
  induction n with
  | zero => rfl
  | succ n ih =>
    rw [Function.iterate_succ_apply', Function.iterate_succ_apply',
      ih fun m hm => hbusy m (Nat.lt_succ_of_lt hm)]
    exact step_of_busy halive (hbusy n (Nat.lt_succ_self n))

/-- Between two attempts, a step is a turn of the session. -/
theorem step_of_idle (halive : st.session.exited = false) (hidle : ¬ st.task.Busy) (turn : Turn) :
    st.step inetChksum net = { st with session := st.session.turn inetChksum turn } := by
  have hnone : st.receiving = none := not_not.mp (not_or.mp hidle).1
  rw [SessionTask.step, if_neg (Bool.eq_false_iff.mp halive), Session.turn]
  split
  · rename_i hrest
    rw [if_pos hrest.2]
  · rename_i hrest
    rw [if_neg fun hrest' => hrest ⟨Option.isNone_iff_eq_none.mpr hnone, hrest'⟩,
      PingTask.between hidle turn]
    rfl

/-- Where receives return, the steps of a turn of the session -/
theorem exists_turn (halive : st.session.exited = false) (hnone : st.receiving = none)
    (h : (st.step inetChksum net).task.InTime net) :
    ∃ n turn k, (SessionTask.step inetChksum net)^[n] st =
      ⟨st.session.turn inetChksum turn, k, none⟩ := by
  by_cases hloops : st.session.thread.running = true ∧ st.session.thread.Loops
  · have hbusy : st.task.Busy := .inr hloops
    rw [step_of_busy halive hbusy] at h
    obtain ⟨n, turn, hn, hall⟩ :=
      @PingTask.attempt inetChksum net st.task hnone hloops.1 hloops.2 h
    refine ⟨n, turn, st.attempts + 1, ?_⟩
    rw [iterate_of_busy halive hall, hn, Session.turn, if_neg]
    · rfl
    · rintro ⟨hrunning, -⟩
      cases hloops.1.symm.trans hrunning
  · have hidle : ¬ st.task.Busy := not_or.mpr ⟨not_not.mpr hnone, hloops⟩
    -- a turn that makes no attempt
    let turn : Turn := ⟨0, fun _ => 0, [], 0⟩
    refine ⟨1, turn, st.attempts, ?_⟩
    show st.step inetChksum net = _
    rw [step_of_idle halive hidle turn]
    show SessionTask.mk _ _ _ = _
    rw [hnone]

/-- What is left of a deleted session whose receives return gets less with every turn. -/
theorem exits_of_inTime (hinit : st.session.flagsInit = false) (hnone : st.receiving = none)
    (hends : st.session.exited = false → st.session.AtRest ∨ st.session.Ends)
    (h : ∀ n, ((SessionTask.step inetChksum net)^[n] st).task.InTime net) :
    ∃ n, ((SessionTask.step inetChksum net)^[n] st).session.exited = true := by
  generalize hk : st.session.left = k
  induction k using Nat.strongRecOn generalizing st with
  | ind k ih =>
    cases halive : st.session.exited with
    | true => exact ⟨0, halive⟩
    | false =>
      obtain ⟨n, turn, attempts, hn⟩ := exists_turn halive hnone (h 1)
      obtain ⟨hlt, hinit', hends'⟩ :=
        @turn_ends inetChksum st.session hinit halive (hends halive) turn
      have hrest : ∀ m, ((SessionTask.step inetChksum net)^[m]
          ⟨st.session.turn inetChksum turn, attempts, none⟩).task.InTime net := by
        intro m
        rw [← hn, ← Function.iterate_add_apply]
        exact h (m + n)
      obtain ⟨m, hm⟩ := ih _ (hk ▸ hlt) hinit' rfl (fun halive => .inr (hends' halive)) hrest rfl
      refine ⟨m + n, ?_⟩
      rw [Function.iterate_add_apply, hn]
      exact hm

/-- A task that is gone is in no receive. -/
def SessionTask.Gone (st : SessionTask) : Prop :=
  st.session.exited = true → st.receiving = none

/-- The task exits when it is in none. -/
theorem SessionTask.Gone.step (h : st.Gone) : (st.step inetChksum net).Gone := by
  rw [SessionTask.step]
  split
  · exact h
  · rename_i halive
    split
    · rename_i hrest
      exact fun _ => Option.isNone_iff_eq_none.mp hrest.1
    · exact fun hexited => absurd hexited halive

/-- A session whose task is blocked has not come to its end, and never does. -/
theorem not_exited_of_blocked (hgone : st.Gone) (hblocked : st.task.Blocked net) (n : Nat) :
    ((SessionTask.step inetChksum net)^[n] st).session.exited = false := by
  have halive : ∀ {st : SessionTask}, st.Gone → st.task.Blocked net →
      st.session.exited = false := by
    rintro st hgone ⟨r, hr, -⟩
    refine Bool.eq_false_iff.mpr fun hexited => ?_
    cases (hgone hexited).symm.trans hr
  have hall : ((SessionTask.step inetChksum net)^[n] st).Gone ∧
      ((SessionTask.step inetChksum net)^[n] st).task.Blocked net := by
    induction n with
    | zero => exact ⟨hgone, hblocked⟩
    | succ n ih =>
      rw [Function.iterate_succ_apply']
      refine ⟨ih.1.step, ?_⟩
      obtain ⟨r, hr, -⟩ := ih.2
      rw [step_of_busy (halive ih.1 ih.2) (.inl (by simp [Option.mem_def.mp hr]))]
      exact ih.2.step
  exact halive hall.1 hall.2

/-- Once it has come to its end, nothing happens any more. -/
theorem exited_iterate (h : st.session.exited = true) (n : Nat) :
    ((SessionTask.step inetChksum net)^[n] st).session.exited = true := by
  have hfixed : SessionTask.step inetChksum net st = st := by
    rw [SessionTask.step, if_pos h]
  rw [Function.iterate_fixed hfixed]
  exact h

/-- What keeps a session from its end keeps it from it call after call. -/
theorem Session.Endless.step (h : st.session.Endless) :
    (st.step inetChksum net).session.Endless := by
  by_cases hbusy : st.task.Busy
  · have kept : st.session.thread.Kept (st.task.step inetChksum net).thread :=
      PingTask.kept hbusy
    obtain ⟨hrest, hends⟩ := Session.ends_of_kept kept
    rw [step_of_busy h.alive hbusy]
    exact ⟨h.alive, mt hrest.mp h.busy, mt hends.mp h.loops⟩
  · rw [step_of_idle h.alive hbusy ⟨0, fun _ => 0, [], 0⟩]
    exact h.turn _

/-- Left to itself, the task of a deleted session comes to its end exactly if every receive that it
is in returns, and it is at rest, the session has been stopped, or it has a count that the sequence
number can reach. -/
theorem exit_iff (inetChksum : IcmpEchoHdr → UInt32 → UInt16) (net : Network) (st : SessionTask)
    (hinit : st.session.flagsInit = false) (halive : st.session.exited = false) :
    (∃ n, ((SessionTask.step inetChksum net)^[n] st).session.exited = true) ↔
      (st.session.AtRest ∨ st.session.Ends) ∧
        ∀ n, ((SessionTask.step inetChksum net)^[n] st).task.InTime net := by
  constructor
  · rintro ⟨n, hexited⟩
    constructor
    · by_contra hnot
      obtain ⟨hrest, hends⟩ := not_or.mp hnot
      have hendless : ((SessionTask.step inetChksum net)^[n] st).session.Endless := by
        clear hexited
        induction n with
        | zero => exact ⟨halive, hrest, hends⟩
        | succ n ih =>
          rw [Function.iterate_succ_apply']
          exact ih.step
      cases hexited.symm.trans hendless.alive
    · intro m
      by_contra hnot
      have hgone : ((SessionTask.step inetChksum net)^[m] st).Gone := by
        clear hnot
        induction m with
        | zero => exact fun hexited => Bool.noConfusion (halive.symm.trans hexited)
        | succ m ih =>
          rw [Function.iterate_succ_apply']
          exact ih.step
      have hnever := @not_exited_of_blocked inetChksum net _ hgone (not_inTime_iff.mp hnot) n
      have hlater := @exited_iterate inetChksum net _ hexited m
      rw [← Function.iterate_add_apply] at hnever hlater
      rw [Nat.add_comm n m] at hnever
      cases hlater.symm.trans hnever
  · rintro ⟨hends, hinTime⟩
    cases hr : st.receiving with
    | none => exact exits_of_inTime hinit hr (fun _ => hends) hinTime
    | some r =>
      -- first the receive that the task is in returns
      have hreturns : Returns net.ticks (net.attempts st.attempts).arrivals st.task.thread.ep r :=
        hinTime 0 r hr
      obtain ⟨n, ds, hn, hbusy⟩ :=
        @PingTask.finishes inetChksum net st.task _ _ _ hreturns rfl rfl hr
      have hreturned := iterate_of_busy halive hbusy
      have hsame := receiveLoop_sameLoop st.task.thread.ep r.dataHead r.buf ds
      have kept := st.task.returned_kept hsame (net.attempts st.task.attempts)
        (receiveLoop st.task.thread.ep r.dataHead r.buf ds).len
      obtain ⟨hrest, hends'⟩ := Session.ends_of_kept (s := st.session) kept
      rw [hn] at hreturned
      have hinTime' : ∀ m, ((SessionTask.step inetChksum net)^[m]
          ((SessionTask.step inetChksum net)^[n] st)).task.InTime net := by
        intro m
        rw [← Function.iterate_add_apply]
        exact hinTime (m + n)
      rw [hreturned] at hinTime'
      obtain ⟨m, hm⟩ := @exits_of_inTime inetChksum net (st.withTask _) hinit rfl
        (fun _ => hends.imp hrest.mpr hends'.mpr) hinTime'
      refine ⟨m + n, ?_⟩
      rw [Function.iterate_add_apply, hreturned]
      exact hm

end Exit

/-! ## What the callbacks are told -/

/-- The events of some attempts, which were answered or not -/
def attempts (answers : List Bool) : List Event :=
  answers.flatMap fun answered => [.send, if answered then .onPingSuccess else .onPingTimeout]

/-- The events of a whole batch -/
def batch (answers : List Bool) : List Event := attempts answers ++ [.onPingEnd]

def SessionAction.isStart : SessionAction → Bool
  | .start => true
  | _ => false

def SessionAction.isStop : SessionAction → Bool
  | .stop => true
  | _ => false

section Batches

variable {inetChksum : IcmpEchoHdr → UInt32 → UInt16}

/-- The statistics of a session are about the attempts of one batch. -/
structure Counts (answers : List Bool) (ep : EspPing) : Prop where
  transmitted : ep.transmitted.toNat ≤ answers.length
  received : ep.received.toNat ≤ answers.count true

/-- A reply is counted only if one is reported. -/
structure Received.Counts (ep : EspPing) (r : Received) : Prop where
  transmitted : r.ep.transmitted = ep.transmitted
  received : r.ep.received = ep.received ∨ 0 ≤ r.len ∧ r.ep.received = ep.received + 1

/-- Receiving does not touch the counters of requests. -/
theorem receiveLoop_counts (ep : EspPing) (dataHead : Nat) (buf : Nat → UInt8)
    (datagrams : List Datagram) : (receiveLoop ep dataHead buf datagrams).Counts ep := by
  induction datagrams generalizing ep dataHead buf with
  | nil => exact ⟨rfl, .inl rfl⟩
  | cons d ds ih =>
    have htransmitted : (ep.from_ dataHead d.source).1.transmitted = ep.transmitted := by
      cases d.source <;> rfl
    have hreceived : (ep.from_ dataHead d.source).1.received = ep.received := by
      cases d.source <;> rfl
    have hrest : ∀ {r : Received}, r.Counts (ep.from_ dataHead d.source).1 → r.Counts ep :=
      fun hr => ⟨hr.transmitted.trans htransmitted, by
        rw [← hreceived]
        exact hr.received⟩
    rw [receiveLoop]
    split
    · exact ⟨rfl, .inl rfl⟩
    · dsimp only
      split
      · exact hrest (ih ..)
      · split
        · refine hrest ⟨?_, .inr ⟨Int.natCast_nonneg _, ?_⟩⟩
          · rw [EspPing.reply]
            split <;> rfl
          · rw [EspPing.reply]
            split <;> rfl
        · have hcounts := ih (ep.from_ dataHead d.source).1 (ep.from_ dataHead d.source).2
            (d.into buf)
          exact hrest ⟨hcounts.transmitted, hcounts.received⟩

/-- A request is counted if it was sent. -/
theorem espPingSend_counts (inetChksum : IcmpEchoHdr → UInt32 → UInt16) (sent : Int32)
    (ep : EspPing) : ((espPingSend inetChksum sent ep).2.transmitted = ep.transmitted ∨
      (espPingSend inetChksum sent ep).2.transmitted = ep.transmitted + 1) ∧
        (espPingSend inetChksum sent ep).2.received = ep.received := by
  rw [espPingSend]
  dsimp only
  split
  · exact ⟨.inl rfl, by split <;> rfl⟩
  · exact ⟨.inr (by split <;> rfl), by split <;> rfl⟩

/-- A counter that is raised by one, or wraps around -/
theorem toNat_succ_le {c : UInt32} {n : Nat} (h : c.toNat ≤ n) : (c + 1).toNat ≤ n + 1 := by
  rw [UInt32.toNat_add]
  exact Nat.le_trans (Nat.mod_le _ _) (Nat.succ_le_succ h)

/-- Whether an attempt is answered -/
def Thread.answers (inetChksum : IcmpEchoHdr → UInt32 → UInt16) (turn : Turn) (t : Thread) : Bool :=
  0 ≤ (espPingReceive (espPingSend inetChksum turn.sent t.ep).2 turn.buf turn.datagrams).len

/-- One attempt adds its answer to the log. -/
theorem ping_log (turn : Turn) (t : Thread) :
    (t.ping inetChksum turn).log = t.log ++ attempts [t.answers inetChksum turn] := by
  show t.log ++ [.send, if 0 ≤ Received.len _ then _ else _] = _
  simp [attempts, Thread.answers]

/-- The counters follow one attempt. -/
theorem Counts.ping {answers : List Bool} {t : Thread} (h : Counts answers t.ep) (turn : Turn) :
    Counts (answers ++ [t.answers inetChksum turn]) (t.ping inetChksum turn).ep := by
  obtain ⟨hsent, hkept⟩ := espPingSend_counts inetChksum turn.sent t.ep
  have hcounts := receiveLoop_counts (espPingSend inetChksum turn.sent t.ep).2 0 turn.buf
    turn.datagrams
  constructor
  · show (receiveLoop _ 0 turn.buf turn.datagrams).ep.transmitted.toNat ≤ _
    rw [hcounts.transmitted, List.length_append, List.length_singleton]
    rcases hsent with hsent | hsent
    · rw [hsent]
      exact Nat.le_succ_of_le h.transmitted
    · rw [hsent]
      exact toNat_succ_le h.transmitted
  · show (receiveLoop _ 0 turn.buf turn.datagrams).ep.received.toNat ≤ _
    rw [List.count_append]
    rcases hcounts.received with hreceived | ⟨hlen, hreceived⟩
    · rw [hreceived, hkept]
      exact Nat.le_add_right_of_le h.received
    · have hanswers : t.answers inetChksum turn = true := decide_eq_true hlen
      rw [hreceived, hkept, hanswers]
      exact toNat_succ_le h.received

/-- What the callbacks have been told when the session has been called so often: whole batches, and
the one that is under way. -/
structure Told (count : UInt32) (actions : List SessionAction) (s : Session)
    (done : List (List Bool)) (current : List Bool) : Prop where
  sameCount : s.thread.ep.count = count
  log : s.thread.log = done.flatMap batch ++ attempts current
  idle : s.thread.running = false → current = []
  seqno : s.thread.running = true → s.thread.ep.packetHdr.seqno.toNat = current.length % 2 ^ 16
  starts : done.length + (if s.thread.running then 1 else 0) +
    (if s.thread.notified then 1 else 0) ≤ actions.countP SessionAction.isStart
  counts : Counts (if s.thread.running then current else done.getLastD []) s.thread.ep
  started : actions.any SessionAction.isStop = false →
    s.thread.running = true ∨ s.thread.notified = true → s.thread.ep.flagsStart = true
  bounded : count ≠ 0 → count.toNat < 2 ^ 16 → current.length ≤ count.toNat ∧
    ∀ answers ∈ done, answers.length ≤ count.toNat ∧
      (actions.any SessionAction.isStop = false → answers.length = count.toNat)

/-- The attempts of two lists of answers -/
theorem attempts_append (as bs : List Bool) : attempts (as ++ bs) = attempts as ++ attempts bs :=
  List.flatMap_append

section Step

variable {count : UInt32} {actions : List SessionAction} {s s' : Session}
  {done : List (List Bool)} {current : List Bool}

/-- Before the first attempt nothing was reported. -/
theorem told_start (c : PingConfig) (taskHdl : UInt16) (sock : Int32) (acts : List PingAct) :
    Told c.count [] ⟨.start (newPing c taskHdl), sock, true, false, acts⟩ [] [] where
  sameCount := rfl
  log := rfl
  idle _ := rfl
  seqno := Bool.noConfusion
  starts := Nat.le_refl 0
  counts := ⟨Nat.le_refl 0, Nat.le_refl 0⟩
  started _ h := by simp [Thread.start] at h
  bounded _ _ := ⟨Nat.zero_le _, fun answers h => absurd h List.not_mem_nil⟩

/-- A turn of the thread, but for its last one -/
theorem Told.thread (h : Told count actions s done current) {turn : Turn} {thread : Thread}
    (hturned : Turned inetChksum turn s.thread thread) :
    ∃ done current, Told count actions { s with thread } done current := by
  cases hturned with
  | ping hrunning hloops =>
    obtain ⟨hseqno, hcount, hflags⟩ := ping_loop inetChksum turn s.thread
    have hstill : (s.thread.ping inetChksum turn).running = true := hrunning
    have hnotified : (s.thread.ping inetChksum turn).notified = s.thread.notified := rfl
    have hat := h.seqno hrunning
    refine ⟨done, current ++ [s.thread.answers inetChksum turn], ?_⟩
    constructor
    · exact hcount.trans h.sameCount
    · show (s.thread.ping inetChksum turn).log = _
      rw [ping_log, h.log, attempts_append, List.append_assoc]
    · exact fun hidle => absurd hidle (by simp [hstill])
    · intro _
      show (s.thread.ping inetChksum turn).ep.packetHdr.seqno.toNat = _
      rw [hseqno, UInt16.toNat_add, hat, List.length_append]
      exact Nat.mod_add_mod ..
    · have hstarts := h.starts
      rw [hrunning] at hstarts
      show done.length + (if (s.thread.ping inetChksum turn).running then 1 else 0) + _ ≤ _
      rw [hstill]
      exact hstarts
    · have hcounts := h.counts
      rw [hrunning, if_pos rfl] at hcounts
      show Counts (if (s.thread.ping inetChksum turn).running then _ else _) _
      rw [hstill, if_pos rfl]
      exact hcounts.ping turn
    · intro hstop _
      exact hflags.trans (h.started hstop (.inl hrunning))
    · intro hne hlt
      obtain ⟨hle, hdone⟩ := h.bounded hne hlt
      refine ⟨?_, hdone⟩
      have hless := hloops.2.resolve_left (h.sameCount ▸ hne)
      rw [UInt32.lt_iff_toNat_lt, UInt16.toNat_toUInt32, hat, h.sameCount,
        Nat.mod_eq_of_lt (Nat.lt_of_le_of_lt hle hlt)] at hless
      rw [List.length_append]
      exact hless
  | ended hrunning hloops =>
    refine ⟨done ++ [current], [], ?_⟩
    constructor
    · exact h.sameCount
    · show s.thread.log ++ [.onPingEnd] = _
      rw [h.log, List.flatMap_append, List.append_assoc]
      simp [batch, attempts]
    · exact fun _ => rfl
    · exact Bool.noConfusion
    · have hstarts := h.starts
      rw [hrunning, if_pos rfl] at hstarts
      rw [List.length_append]
      exact hstarts
    · have hcounts := h.counts
      rw [hrunning, if_pos rfl] at hcounts
      show Counts ((done ++ [current]).getLastD []) _
      rw [List.getLastD_concat]
      exact hcounts
    · exact fun hstop hor => h.started hstop (hor.imp_left fun hidle => Bool.noConfusion hidle)
    · intro hne hlt
      obtain ⟨hle, hdone⟩ := h.bounded hne hlt
      refine ⟨Nat.zero_le _, fun answers hmem => ?_⟩
      rcases List.mem_append.mp hmem with hmem | hmem
      · exact hdone answers hmem
      · rw [List.mem_singleton.mp hmem]
        refine ⟨hle, fun hstop => Nat.le_antisymm hle (Nat.le_of_not_lt fun hless => hloops ?_)⟩
        refine ⟨h.started hstop (.inl hrunning), .inr ?_⟩
        rw [UInt32.lt_iff_toNat_lt, UInt16.toNat_toUInt32, h.seqno hrunning, h.sameCount,
          Nat.mod_eq_of_lt (Nat.lt_of_le_of_lt hle hlt)]
        exact hless
  | taken hrunning hnotified =>
    refine ⟨done, [], ?_⟩
    constructor
    · exact h.sameCount
    · show s.thread.log = _
      rw [h.log, h.idle hrunning]
    · exact fun _ => rfl
    · exact fun _ => rfl
    · have hstarts := h.starts
      rw [hrunning, hnotified, if_neg Bool.false_ne_true, if_pos rfl] at hstarts
      exact hstarts
    · exact ⟨Nat.le_refl 0, Nat.le_refl 0⟩
    · exact fun hstop _ => h.started hstop (.inr hnotified)
    · exact fun hne hlt => ⟨Nat.zero_le _, (h.bounded hne hlt).2⟩
  | waited hrunning hnotified => exact ⟨done, current, h⟩

/-- A call, whatever it does to the flags -/
theorem Told.step {a : SessionAction} (hstep : s.step inetChksum a = some s')
    (h : Told count actions s done current) :
    ∃ done current, Told count (actions ++ [a]) s' done current := by
  obtain ⟨-, rfl⟩ := step_some.mp hstep
  have hstarts : actions.countP SessionAction.isStart ≤
      (actions ++ [a]).countP SessionAction.isStart := by
    rw [List.countP_append]
    exact Nat.le_add_right _ _
  have hstops : (actions ++ [a]).any SessionAction.isStop = false →
      actions.any SessionAction.isStop = false ∧ a.isStop = false := by
    intro hstop
    rwa [List.any_append, List.any_cons, List.any_nil, Bool.or_false, Bool.or_eq_false_iff] at hstop
  -- what is said about the actions so far holds after one more
  have hmore : ∀ {s : Session} {done current}, Told count actions s done current →
      Told count (actions ++ [a]) s done current := fun h =>
    { h with
      starts := Nat.le_trans h.starts hstarts
      started := fun hstop => h.started (hstops hstop).1
      bounded := fun hne hlt => ⟨(h.bounded hne hlt).1, fun answers hmem =>
        ⟨((h.bounded hne hlt).2 answers hmem).1, fun hstop =>
          ((h.bounded hne hlt).2 answers hmem).2 (hstops hstop).1⟩⟩ }
  cases a with
  | start =>
    refine ⟨done, current, { hmore h with
      starts := ?_, started := fun _ _ => rfl, counts := ⟨h.counts.1, h.counts.2⟩ }⟩
    show done.length + (if s.thread.running then 1 else 0) + 1 ≤ _
    rw [List.countP_append]
    exact Nat.succ_le_succ (Nat.le_trans (Nat.le_add_right _ _) h.starts)
  | stop =>
    exact ⟨done, current, { hmore h with
      started := fun hstop => Bool.noConfusion (hstops hstop).2
      counts := ⟨h.counts.1, h.counts.2⟩ }⟩
  | delete => exact ⟨done, current, { hmore h with }⟩
  | turn turn =>
    show ∃ done current, Told count _ (s.turn inetChksum turn) done current
    rw [Session.turn]
    split
    · exact ⟨done, current, { hmore h with }⟩
    · exact (hmore h).thread (turned inetChksum turn s.thread)

end Step

end Batches

/-- However a session is started, stopped and deleted: its callbacks are told of whole batches, at
most one for each start, and of the one that is under way. If the sequence number can reach the
count, no batch has more attempts than that, and without a stop none has fewer. The statistics
never count more than the attempts of the last batch and those of them that were answered. -/
theorem session_batches (inetChksum : IcmpEchoHdr → UInt32 → UInt16) (c : PingConfig)
    (hdlOut : Bool) (a : NewAnswers) {s t : Session} {actions : List SessionAction}
    (hnew : (espPingNewSession (some c) hdlOut a).2.2 = some s)
    (h : Machine.exec (Session.step inetChksum) s actions = some t) :
    ∃ (done : List (List Bool)) (current : List Bool),
      t.thread.log = done.flatMap batch ++ attempts current ∧
      (t.thread.running = false → current = []) ∧
      done.length + (if t.thread.running then 1 else 0) + (if t.thread.notified then 1 else 0) ≤
        actions.countP SessionAction.isStart ∧
      (c.count ≠ 0 → c.count.toNat < 2 ^ 16 → current.length ≤ c.count.toNat ∧
        ∀ answers ∈ done, answers.length ≤ c.count.toNat ∧
          (actions.any SessionAction.isStop = false → answers.length = c.count.toNat)) ∧
      Counts (if t.thread.running then current else done.getLastD []) t.thread.ep := by
  rcases newSession_cases (some c) hdlOut a with ⟨-, hnone, -⟩ | ⟨c', inet6, hc, -, hcreated⟩
  · cases hnone.symm.trans hnew
  · cases hc
    rw [hcreated] at hnew
    cases hnew
    obtain ⟨done, current, told⟩ : ∃ done current, Told c.count ([] ++ actions) t done current :=
      Machine.exec_history
        (I := fun before s => ∃ done current, Told c.count before s done current)
        (fun _ _ _ _ hstep ⟨_, _, hs⟩ => hs.step hstep) h ⟨[], [], told_start ..⟩
    exact ⟨done, current, told.log, told.idle, told.starts, told.bounded, told.counts⟩

/-! ## A session -/

/-- Two requests, and everything that the session asks for is granted. -/
def twoRequests : PingConfig := ⟨2, 64, .v4 0x0100A8C0, 0⟩

def granted : NewAnswers := ⟨true, true, 0x1234, true, 54, true, true⟩

/-- A turn that gets no reply -/
def unanswered : Nat → Turn := fun _ => ⟨72, fun _ => 0, [], 1000⟩

/-- It is started, deleted at once, and left to itself. -/
def startedAndDeleted : List SessionAction :=
  [.start, .delete] ++ (List.range 5).map fun n => .turn (unanswered n)

/-- Left to itself, it comes to its end. -/
theorem exit_iff_startedAndDeleted : ∃ s t,
    (espPingNewSession (some twoRequests) true granted).2.2 = some s ∧
      Machine.exec (Session.step fun _ _ => 0) s [.start, .delete] = some t ∧
      ∃ n, ((SessionTask.step (fun _ _ => 0) silence)^[n] ⟨t, 0, none⟩).session.exited = true :=
  ⟨_, _, rfl, rfl, (exit_iff (fun _ _ => 0) silence ⟨_, 0, none⟩ rfl rfl).mpr
    ⟨.inr (.inr ⟨by decide, by decide⟩),
      fun _ => inTime_of_nothing (fun _ _ => rfl) (by decide) _⟩⟩

/-- When it has come to its end, it has given back what it had acquired. -/
theorem session_released_startedAndDeleted : ∃ s t,
    (espPingNewSession (some twoRequests) true granted).2.2 = some s ∧
      Machine.exec (Session.step fun _ _ => 0) s startedAndDeleted = some t ∧
      t.exited = true ∧ Balanced 54 t.acts := by
  have hreleased := session_released (fun _ _ => 0) (some twoRequests) true granted
  have hrun : ((espPingNewSession (some twoRequests) true granted).2.2.bind fun s =>
      (Machine.exec (Session.step fun _ _ => 0) s startedAndDeleted).map (·.exited)) =
        some true := by decide +kernel
  generalize espPingNewSession (some twoRequests) true granted = new at hreleased hrun
  obtain ⟨err, acts, session⟩ := new
  obtain ⟨s, rfl, hrun⟩ := Option.bind_eq_some_iff.mp hrun
  obtain ⟨t, ht, hexited⟩ := Option.map_eq_some_iff.mp hrun
  obtain ⟨-, hreleased⟩ := hreleased
  have hbalanced := hreleased startedAndDeleted t ht
  rw [if_pos hexited] at hbalanced
  exact ⟨s, t, rfl, ht, hexited, hbalanced.1⟩

/-- Its callbacks have been told of two attempts. -/
theorem session_batches_startedAndDeleted : ∃ s t,
    (espPingNewSession (some twoRequests) true granted).2.2 = some s ∧
      Machine.exec (Session.step fun _ _ => 0) s startedAndDeleted = some t ∧
      ∃ (done : List (List Bool)) (current : List Bool),
        t.thread.log = done.flatMap batch ++ attempts current ∧
          ∀ answers ∈ done, answers.length = 2 := by
  obtain ⟨s, hs⟩ := Option.isSome_iff_exists.mp
    (show (espPingNewSession (some twoRequests) true granted).2.2.isSome by decide +kernel)
  have hrun : ((espPingNewSession (some twoRequests) true granted).2.2.bind fun s =>
      Machine.exec (Session.step fun _ _ => 0) s startedAndDeleted).isSome := by decide +kernel
  rw [hs, Option.bind_some] at hrun
  obtain ⟨t, ht⟩ := Option.isSome_iff_exists.mp hrun
  obtain ⟨done, current, hlog, -, -, hbounded, -⟩ :=
    session_batches (fun _ _ => 0) twoRequests true granted hs ht
  exact ⟨s, t, hs, ht, done, current, hlog, fun answers hmem =>
    ((hbounded (by decide) (by decide)).2 answers hmem).2 (by decide +kernel)⟩

end PicoHost.Ping
