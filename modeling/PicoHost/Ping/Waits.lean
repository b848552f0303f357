import Mathlib.Logic.Function.Iterate
import PicoHost.Ping.Thread

/-!
# Waiting for a reply (`ping_sock.c`, `sys_arch.c`)

A turn of the ping task comes to its end when `recvfrom` fails, or returns the reply or nothing. Here
a step of the task is one call of `recvfrom`, and the network decides what comes in next, and when.
The receive timeout is for one call: a datagram that is not the reply starts the wait anew, and a
timeout of 0 waits for ever.

`recvfrom` itself is in lwIP, which is not part of the repository. What is taken from it: it waits
for the next datagram in `sys_arch_mbox_fetch`, for as many milliseconds as `SO_RCVTIMEO` has set,
and fails where none comes in.

- `PingTask.attempt`: a receive that returns is a turn of the thread.
- `PingTask.Blocked.step`: one that does not goes on for ever.
- `completes_iff`: when a session makes its attempts and ends.
-/

namespace PicoHost.Ping

/-! ## `recvfrom` -/

/-- `struct timeval` -/
structure Timeval where
  tvSec : UInt32
  tvUsec : UInt32
deriving DecidableEq, Repr

/-- The receive timeout of a session (ping_sock.c:272–276) -/
def receiveTimeout (timeoutMs : UInt32) : Timeval :=
  ⟨timeoutMs / 1000, timeoutMs % 1000 * 1000⟩

/-- `portMAX_DELAY` -/
def portMaxDelay : UInt32 := 0xFFFFFFFF

/-- The ticks that `sys_arch_mbox_fetch` waits (sys_arch.c:393–399) -/
def fetchTicks (portTickPeriodMs timeoutMs : UInt32) : UInt32 :=
  if timeoutMs = 0 then portMaxDelay else timeoutMs / portTickPeriodMs

/-- What comes in next, and how many ticks after the call: perhaps nothing ever does, or the socket
has an error. -/
inductive Arrival where
  | nothing
  | datagram (delay : Nat) (d : Datagram)
  | error
deriving DecidableEq, Repr

/-- What a call of `recvfrom` comes to; one that waits does not return. -/
inductive Recvfrom where
  | waits
  | failed
  | datagram (d : Datagram)
deriving DecidableEq, Repr

/-- A datagram has to come in within the ticks; `portMAX_DELAY` is no limit. -/
def recvfrom (ticks : UInt32) : Arrival → Recvfrom
  | .nothing => if ticks = portMaxDelay then .waits else .failed
  | .datagram delay d =>
    if ticks = portMaxDelay ∨ delay ≤ ticks.toNat then .datagram d else .failed
  | .error => .failed

/-! ## The task -/

/-- What an attempt finds: what `sendto` returns, the uninitialized buffer, what comes in call after
call of `recvfrom`, and how long this takes -/
structure Attempt where
  sent : Int32
  buf : Nat → UInt8
  arrivals : Nat → Arrival
  elapsedTimeMs : UInt32

/-- What a session runs with: `timeout_ms` of its configuration, the milliseconds that
`SO_RCVTIMEO` sets for a `timeval`, `portTICK_PERIOD_MS`, and its attempts -/
structure Network where
  timeoutMs : UInt32
  rcvTimeo : Timeval → UInt32
  portTickPeriodMs : UInt32
  attempts : Nat → Attempt

/-- The ticks that a call of `recvfrom` waits -/
def Network.ticks (net : Network) : UInt32 :=
  fetchTicks net.portTickPeriodMs (net.rcvTimeo (receiveTimeout net.timeoutMs))

/-- The variables of `esp_ping_receive`, and how many calls of `recvfrom` have returned -/
structure Receiving where
  dataHead : Nat
  buf : Nat → UInt8
  calls : Nat

/-- The thread, the number of its attempts that are over, and the receive that it is in -/
structure PingTask where
  thread : Thread
  attempts : Nat
  receiving : Option Receiving

/-- One turn of the loop of `esp_ping_receive` with a datagram: it goes on, or it returns. -/
def receiveTurn (ep : EspPing) (r : Receiving) (d : Datagram) : EspPing × (Receiving ⊕ Int) :=
  if d.len = 0 then (ep, .inr 0)
  else
    let f := ep.from_ r.dataHead d.source
    let buf := d.into r.buf
    let goesOn : Receiving := ⟨f.2, buf, r.calls + 1⟩
    if d.len < f.2 then (f.1, .inl goesOn)
    else if f.1.matches buf then (f.1.reply f.2 buf, .inr d.len)
    else (f.1, .inl goesOn)

namespace PingTask

/-- `esp_ping_receive` has returned: the rest of the attempt (ping_sock.c:163–176). -/
def returned (t : PingTask) (a : Attempt) (ep : EspPing) (len : Int) : PingTask where
  thread := { t.thread with
    ep := { ep with
      elapsedTimeMs := a.elapsedTimeMs
      totalTimeMs := ep.totalTimeMs + a.elapsedTimeMs }
    log := t.thread.log ++ [if 0 ≤ len then .onPingSuccess else .onPingTimeout] }
  attempts := t.attempts + 1
  receiving := none

section Code

variable (inetChksum : IcmpEchoHdr → UInt32 → UInt16) (net : Network)

/-- An attempt is begun: `esp_ping_send`, and the call of `esp_ping_receive`. -/
def begin (t : PingTask) : PingTask :=
  let a := net.attempts t.attempts
  { t with
    thread := { t.thread with
      ep := (espPingSend inetChksum a.sent t.thread.ep).2
      log := t.thread.log ++ [.send] }
    receiving := some ⟨0, a.buf, 0⟩ }

/-- One step of `esp_ping_thread` (ping_sock.c:145–185): a call of `recvfrom`, or what it does
between two attempts. -/
def step (t : PingTask) : PingTask :=
  match t.receiving with
  | some r =>
    let a := net.attempts t.attempts
    match recvfrom net.ticks (a.arrivals r.calls) with
    | .waits => t
    | .failed => t.returned a t.thread.ep (-1)
    | .datagram d =>
      let next := receiveTurn t.thread.ep r d
      match next.2 with
      | .inl r => { t with thread := { t.thread with ep := next.1 }, receiving := some r }
      | .inr len => t.returned a next.1 len
  | none =>
    if t.thread.running then
      if t.thread.Loops then t.begin inetChksum net
      else { t with
        thread := { t.thread with running := false, log := t.thread.log ++ [.onPingEnd] } }
    else if t.thread.notified then { t with thread := t.thread.taken }
    else t

end Code

/-- It makes an attempt, or is about to. -/
def Busy (t : PingTask) : Prop :=
  t.receiving ≠ none ∨ t.thread.running = true ∧ t.thread.Loops

/-- A session that has been created, and started -/
def started (ep : EspPing) : PingTask := ⟨espPingStart (.start ep), 0, none⟩

end PingTask

/-! ## Receives that return -/

/-- A receive returns: a call of `recvfrom` fails, or gets a datagram with which it returns, or
another one after which it returns. -/
inductive Returns (ticks : UInt32) (arrivals : Nat → Arrival) : EspPing → Receiving → Prop
  | failed {ep : EspPing} {r : Receiving} (h : recvfrom ticks (arrivals r.calls) = .failed) :
    Returns ticks arrivals ep r
  | last {ep : EspPing} {r : Receiving} {d : Datagram} {len : Int}
    (h : recvfrom ticks (arrivals r.calls) = .datagram d)
    (hlast : (receiveTurn ep r d).2 = .inr len) : Returns ticks arrivals ep r
  | next {ep : EspPing} {r r' : Receiving} {d : Datagram}
    (h : recvfrom ticks (arrivals r.calls) = .datagram d)
    (hnext : (receiveTurn ep r d).2 = .inl r')
    (rest : Returns ticks arrivals (receiveTurn ep r d).1 r') :
    Returns ticks arrivals ep r

/-- If the task is in a receive, it returns. -/
def PingTask.InTime (net : Network) (t : PingTask) : Prop :=
  ∀ r ∈ t.receiving, Returns net.ticks (net.attempts t.attempts).arrivals t.thread.ep r

/-- It is in one that does not return. -/
def PingTask.Blocked (net : Network) (t : PingTask) : Prop :=
  ∃ r ∈ t.receiving, ¬ Returns net.ticks (net.attempts t.attempts).arrivals t.thread.ep r

/-- It is the one or the other. -/
theorem not_inTime_iff {net : Network} {t : PingTask} : ¬ t.InTime net ↔ t.Blocked net := by
  rw [PingTask.InTime, PingTask.Blocked]
  push Not
  rfl

/-- Where nothing comes in, a receive returns exactly if there is a timeout. -/
theorem returns_iff_of_nothing {ticks : UInt32} {arrivals : Nat → Arrival}
    (h : ∀ n, arrivals n = .nothing) (ep : EspPing) (r : Receiving) :
    Returns ticks arrivals ep r ↔ ticks ≠ portMaxDelay := by
  have hrecvfrom : recvfrom ticks (arrivals r.calls) =
      if ticks = portMaxDelay then .waits else .failed := by
    rw [h r.calls, recvfrom]
  constructor
  · rintro hreturns hticks
    rw [if_pos hticks] at hrecvfrom
    cases hreturns with
    | failed h => cases hrecvfrom.symm.trans h
    | last h _ => cases hrecvfrom.symm.trans h
    | next h _ _ => cases hrecvfrom.symm.trans h
  · intro hticks
    rw [if_neg hticks] at hrecvfrom
    exact .failed hrecvfrom

/-- With a timeout, every receive of a network without replies returns. -/
theorem inTime_of_nothing {net : Network} (h : ∀ k n, (net.attempts k).arrivals n = .nothing)
    (hticks : net.ticks ≠ portMaxDelay) (t : PingTask) : t.InTime net :=
  fun r _ => (returns_iff_of_nothing (h t.attempts) t.thread.ep r).mpr hticks

/-- A datagram that is not taken for the reply, whatever is in the buffer: it is too short to have the
headers, or its identifier is another one. -/
def Datagram.IsOther (hdr : IcmpEchoHdr) (d : Datagram) : Prop :=
  d.len ≠ 0 ∧ (∃ addr, d.source = .inet addr) ∧
    (d.len < ipHdrSize + icmpEchoHdrSize ∨
      icmpOffset true d.at + 6 ≤ d.len ∧ load16 d.at (icmpOffset true d.at + 4) ≠ hdr.id)

/-- Such a datagram is passed over. -/
theorem Datagram.IsOther.goesOn {ep : EspPing} {d : Datagram} (h : d.IsOther ep.packetHdr)
    (r : Receiving) : ∃ r', (receiveTurn ep r d).2 = .inl r' ∧ r'.calls = r.calls + 1 ∧
      (receiveTurn ep r d).1.packetHdr = ep.packetHdr := by
  obtain ⟨hlen, ⟨addr, hsource⟩, hother⟩ := h
  rw [receiveTurn, if_neg hlen, hsource]
  dsimp only [EspPing.from_]
  split
  · exact ⟨_, rfl, rfl, rfl⟩
  · rename_i hle
    obtain ⟨hid, hne⟩ := hother.resolve_left hle
    have hmatches : EspPing.matches { ep with recvAddr := .v4 addr } (d.into r.buf) = false := by
      rw [EspPing.matches]
      show (load16 (d.into r.buf) (icmpOffset true (d.into r.buf) + 4) == _ && _) = false
      rw [icmpOffset_into _ hlen, load16_into hid, beq_false_of_ne hne, Bool.false_and]
    rw [hmatches, if_neg Bool.false_ne_true]
    exact ⟨_, rfl, rfl, rfl⟩

/-- A receive that only ever gets other datagrams, each of them in time, does not return. -/
theorem not_returns_of_others {ticks : UInt32} {arrivals : Nat → Arrival} {ep : EspPing}
    (h : ∀ n, ∃ d, recvfrom ticks (arrivals n) = .datagram d ∧ d.IsOther ep.packetHdr)
    (r : Receiving) : ¬ Returns ticks arrivals ep r := by
  intro hreturns
  induction hreturns with
  | @failed ep r hfailed =>
    obtain ⟨d, hd, -⟩ := h r.calls
    cases hfailed.symm.trans hd
  | @last ep r d len hd hlast =>
    obtain ⟨d', hd', hother⟩ := h r.calls
    cases hd.symm.trans hd'
    obtain ⟨r', hr', -⟩ := hother.goesOn r
    cases hlast.symm.trans hr'
  | @next ep r r' d hd _ _ ih =>
    obtain ⟨d', hd', hother⟩ := h r.calls
    cases hd.symm.trans hd'
    obtain ⟨r', -, -, hhdr⟩ := hother.goesOn r
    exact ih (hhdr ▸ h)

/-- The timeout is the one of the configuration, where lwIP counts the milliseconds of the
`timeval`. -/
theorem receiveTimeout_ms (timeoutMs : UInt32) :
    (receiveTimeout timeoutMs).tvSec * 1000 + (receiveTimeout timeoutMs).tvUsec / 1000 =
      timeoutMs := by
  rw [receiveTimeout, ← UInt32.toNat_inj, UInt32.toNat_add, UInt32.toNat_mul, UInt32.toNat_div,
    UInt32.toNat_div, UInt32.toNat_mul, UInt32.toNat_mod]
  have hlt := timeoutMs.toNat_lt
  have hsec : timeoutMs.toNat / 1000 * 1000 % 2 ^ 32 = timeoutMs.toNat / 1000 * 1000 :=
    Nat.mod_eq_of_lt (Nat.lt_of_le_of_lt (Nat.div_mul_le_self ..) hlt)
  have husec : timeoutMs.toNat % 1000 * 1000 % 2 ^ 32 = timeoutMs.toNat % 1000 * 1000 :=
    Nat.mod_eq_of_lt (by omega)
  show (timeoutMs.toNat / 1000 * 1000 % 2 ^ 32 +
    timeoutMs.toNat % 1000 * 1000 % 2 ^ 32 / 1000) % 2 ^ 32 = timeoutMs.toNat
  rw [hsec, husec, Nat.mul_div_cancel _ (by decide), Nat.div_add_mod', Nat.mod_eq_of_lt hlt]

/-! ## Attempts -/

section Attempt

variable {inetChksum : IcmpEchoHdr → UInt32 → UInt16} {net : Network} {t : PingTask}

/-- With a datagram, the loop over the datagrams takes the same turn. -/
theorem receiveLoop_cons (ep : EspPing) (r : Receiving) (d : Datagram) (ds : List Datagram) :
    match (receiveTurn ep r d).2 with
    | .inl r' =>
      (receiveLoop ep r.dataHead r.buf (d :: ds)).ep =
          (receiveLoop (receiveTurn ep r d).1 r'.dataHead r'.buf ds).ep ∧
        (receiveLoop ep r.dataHead r.buf (d :: ds)).len =
          (receiveLoop (receiveTurn ep r d).1 r'.dataHead r'.buf ds).len
    | .inr len =>
      (receiveLoop ep r.dataHead r.buf (d :: ds)).ep = (receiveTurn ep r d).1 ∧
        (receiveLoop ep r.dataHead r.buf (d :: ds)).len = len := by
  rw [receiveTurn, receiveLoop]
  by_cases hlen : d.len = 0
  · rw [if_pos hlen, if_pos hlen]
    exact ⟨rfl, rfl⟩
  · rw [if_neg hlen, if_neg hlen]
    dsimp only
    by_cases hshort : d.len < (ep.from_ r.dataHead d.source).2
    · rw [if_pos hshort, if_pos hshort]
      exact ⟨rfl, rfl⟩
    · rw [if_neg hshort, if_neg hshort]
      by_cases hmatches : (ep.from_ r.dataHead d.source).1.matches (d.into r.buf) = true
      · rw [if_pos hmatches, if_pos hmatches]
        exact ⟨rfl, rfl⟩
      · rw [if_neg hmatches, if_neg hmatches]
        exact ⟨rfl, rfl⟩

/-- The steps of a receive that returns: what it returns is what the loop makes of some datagrams. -/
theorem PingTask.finishes {k : Nat} {ep : EspPing} {r : Receiving}
    (h : Returns net.ticks (net.attempts k).arrivals ep r) (hk : t.attempts = k)
    (hep : t.thread.ep = ep) (hr : t.receiving = some r) :
    ∃ n ds, (PingTask.step inetChksum net)^[n] t =
        t.returned (net.attempts k) (receiveLoop ep r.dataHead r.buf ds).ep
          (receiveLoop ep r.dataHead r.buf ds).len ∧
      ∀ m < n, ((PingTask.step inetChksum net)^[m] t).Busy := by
  induction h generalizing t with
  | @failed ep r hfailed =>
    subst hep
    refine ⟨1, [], ?_, fun m hm => Nat.lt_one_iff.mp hm ▸ .inl (by simp [hr])⟩
    show t.step inetChksum net = _
    rw [PingTask.step, hr]
    dsimp only
    rw [hk, hfailed]
    rfl
  | @last ep r d len hd hlast =>
    subst hep
    refine ⟨1, [d], ?_, fun m hm => Nat.lt_one_iff.mp hm ▸ .inl (by simp [hr])⟩
    have hloop := receiveLoop_cons t.thread.ep r d []
    rw [hlast] at hloop
    rw [hloop.1, hloop.2]
    show t.step inetChksum net = _
    rw [PingTask.step, hr]
    dsimp only
    rw [hk, hd]
    dsimp only
    rw [hlast]
  | @next ep r r' d hd hnext rest ih =>
    subst hep
    have hstep : t.step inetChksum net = { t with
        thread := { t.thread with ep := (receiveTurn t.thread.ep r d).1 }, receiving := some r' } := by
      rw [PingTask.step, hr]
      dsimp only
      rw [hk, hd]
      dsimp only
      rw [hnext]
    obtain ⟨n, ds, hn, hbusy⟩ := @ih { t with
      thread := { t.thread with ep := (receiveTurn t.thread.ep r d).1 }, receiving := some r' }
      hk rfl rfl
    have hloop := receiveLoop_cons t.thread.ep r d ds
    rw [hnext] at hloop
    refine ⟨n + 1, d :: ds, ?_, fun m hm => ?_⟩
    · rw [Function.iterate_succ_apply, hstep, hn, hloop.1, hloop.2]
      rfl
    · cases m with
      | zero => exact .inl (by simp [hr])
      | succ m =>
        rw [Function.iterate_succ_apply, hstep]
        exact hbusy m (Nat.lt_of_succ_lt_succ hm)

/-- An attempt whose receive returns is a turn of the thread. -/
theorem PingTask.attempt (hnone : t.receiving = none) (hrunning : t.thread.running = true)
    (hloops : t.thread.Loops) (h : (t.step inetChksum net).InTime net) :
    ∃ n turn, (PingTask.step inetChksum net)^[n] t =
        ⟨t.thread.step inetChksum turn, t.attempts + 1, none⟩ ∧
      ∀ m < n, ((PingTask.step inetChksum net)^[m] t).Busy := by
  have hbegin : t.step inetChksum net = t.begin inetChksum net := by
    rw [PingTask.step, hnone]
    dsimp only
    rw [if_pos hrunning, if_pos hloops]
  rw [hbegin] at h
  obtain ⟨n, ds, hn, hbusy⟩ := @PingTask.finishes inetChksum net _ _ _ _ (h _ rfl) rfl rfl rfl
  let a := net.attempts t.attempts
  refine ⟨n + 1, ⟨a.sent, a.buf, ds, a.elapsedTimeMs⟩, ?_, fun m hm => ?_⟩
  · rw [Function.iterate_succ_apply, hbegin, hn, step_ping hrunning hloops]
    show PingTask.mk _ _ _ = PingTask.mk _ _ _
    congr 1
    show Thread.mk _ _ _ _ = Thread.mk _ _ _ _
    congr 1
    exact List.append_assoc ..
  · cases m with
    | zero => exact .inr ⟨hrunning, hloops⟩
    | succ m =>
      rw [Function.iterate_succ_apply, hbegin]
      exact hbusy m (Nat.lt_of_succ_lt_succ hm)

/-- Between two attempts, a step of the task is a turn of the thread. -/
theorem PingTask.between (hidle : ¬ t.Busy) (turn : Turn) :
    t.step inetChksum net = { t with thread := t.thread.step inetChksum turn } := by
  obtain ⟨hnone, hloops⟩ := not_or.mp hidle
  have hturned := turned inetChksum turn t.thread
  obtain ⟨thread, attempts, receiving⟩ := t
  cases not_not.mp hnone
  generalize thread.step inetChksum turn = thread' at hturned ⊢
  rw [PingTask.step]
  dsimp only at hturned ⊢
  cases hturned with
  | ping hrunning hagain => exact absurd ⟨hrunning, hagain⟩ hloops
  | ended hrunning hended => rw [if_pos hrunning, if_neg hended]
  | taken hrunning hnotified =>
    rw [if_neg (Bool.eq_false_iff.mp hrunning), if_pos hnotified]
  | waited hrunning hnotified =>
    rw [if_neg (Bool.eq_false_iff.mp hrunning), if_neg (Bool.eq_false_iff.mp hnotified)]

/-- The loop of the thread is where it was, and `on_ping_end` has not been called. -/
structure Thread.Kept (t t' : Thread) : Prop where
  running : t'.running = t.running
  notified : t'.notified = t.notified
  flagsStart : t'.ep.flagsStart = t.ep.flagsStart
  count : t'.ep.count = t.ep.count
  ended : .onPingEnd ∈ t'.log → .onPingEnd ∈ t.log

/-- A datagram decides nothing about the loop of the thread. -/
theorem receiveTurn_sameLoop (ep : EspPing) (r : Receiving) (d : Datagram) :
    SameLoop ep (receiveTurn ep r d).1 := by
  have hloop := receiveLoop_cons ep r d []
  have hsame := receiveLoop_sameLoop ep r.dataHead r.buf [d]
  cases hturn : (receiveTurn ep r d).2 with
  | inl r' =>
    rw [hturn] at hloop
    rw [hloop.1] at hsame
    exact hsame
  | inr len =>
    rw [hturn] at hloop
    rw [hloop.1] at hsame
    exact hsame

/-- The end of an attempt -/
theorem PingTask.returned_kept {ep : EspPing} (h : SameLoop t.thread.ep ep) (a : Attempt)
    (len : Int) : t.thread.Kept (t.returned a ep len).thread := by
  refine ⟨rfl, rfl, h.flagsStart, h.count, fun hmem => ?_⟩
  rcases List.mem_append.mp hmem with hmem | hmem
  · exact hmem
  · split at hmem <;> cases List.mem_singleton.mp hmem

/-- What a step does while an attempt is made -/
theorem PingTask.kept (h : t.Busy) :
    t.thread.Kept (t.step inetChksum net).thread := by
  rw [PingTask.step]
  cases hr : t.receiving with
  | none =>
    obtain ⟨hrunning, hloops⟩ := h.resolve_left fun hne => hne hr
    dsimp only
    rw [if_pos hrunning, if_pos hloops]
    obtain ⟨-, hcount, hflags⟩ :=
      @espPingSend_keeps inetChksum (net.attempts t.attempts).sent t.thread.ep
    refine ⟨rfl, rfl, hflags, hcount, fun hmem => ?_⟩
    rcases List.mem_append.mp hmem with hmem | hmem
    · exact hmem
    · cases List.mem_singleton.mp hmem
  | some r =>
    dsimp only
    cases recvfrom net.ticks ((net.attempts t.attempts).arrivals r.calls) with
    | waits => exact ⟨rfl, rfl, rfl, rfl, id⟩
    | failed => exact t.returned_kept (.refl _) ..
    | datagram d =>
      have hsame := receiveTurn_sameLoop t.thread.ep r d
      dsimp only
      cases (receiveTurn t.thread.ep r d).2 with
      | inl r' => exact ⟨rfl, rfl, hsame.flagsStart, hsame.count, id⟩
      | inr len => exact t.returned_kept hsame ..

/-- A receive that does not return goes on for ever. -/
theorem PingTask.Blocked.step (h : t.Blocked net) : (t.step inetChksum net).Blocked net := by
  obtain ⟨r, hr, hnot⟩ := h
  rw [PingTask.step, hr]
  dsimp only
  cases hrecv : recvfrom net.ticks ((net.attempts t.attempts).arrivals r.calls) with
  | waits => exact ⟨r, hr, hnot⟩
  | failed => exact absurd (.failed hrecv) hnot
  | datagram d =>
    dsimp only
    cases hnext : (receiveTurn t.thread.ep r d).2 with
    | inl r' => exact ⟨r', rfl, fun rest => hnot (.next hrecv hnext rest)⟩
    | inr len => exact absurd (.last hrecv hnext) hnot

/-- However many steps are taken -/
theorem PingTask.Blocked.iterate (h : t.Blocked net) (n : Nat) :
    ((PingTask.step inetChksum net)^[n] t).Blocked net := by
  induction n with
  | zero => exact h
  | succ n ih =>
    rw [Function.iterate_succ_apply']
    exact ih.step

end Attempt

/-! ## A whole session -/

section Session

variable {inetChksum : IcmpEchoHdr → UInt32 → UInt16} {net : Network} {ep : EspPing}
  {t : PingTask} {count : UInt32}

/-- Where every receive returns, one attempt follows the other below the count. -/
theorem pinging_reached (h : ∀ n, ((PingTask.step inetChksum net)^[n] (.started ep)).InTime net)
    {k : Nat} (hk : k ≤ ep.count.toNat) :
    ∃ n thread, (PingTask.step inetChksum net)^[n] (.started ep) = ⟨thread, k, none⟩ ∧
      Pinging ep.count k thread := by
  induction k with
  | zero => exact ⟨1, _, rfl, pinging_start ep⟩
  | succ k ih =>
    obtain ⟨n, thread, hn, pinging⟩ := ih (Nat.le_of_succ_le hk)
    have hmod : k % 2 ^ 16 < ep.count.toNat := Nat.lt_of_le_of_lt (Nat.mod_le ..) hk
    have hnext := h (n + 1)
    rw [Function.iterate_succ_apply', hn] at hnext
    obtain ⟨m, turn, hm, -⟩ := PingTask.attempt rfl pinging.running (pinging.loops hmod) hnext
    refine ⟨m + n, thread.step inetChksum turn, ?_, pinging.ping hmod⟩
    rw [Function.iterate_add_apply, hn, hm]

/-- The attempts, the end, and the wait for a start that does not come -/
theorem completes_of_inTime (hcount : ep.count ≠ 0) (hlt : ep.count.toNat < 2 ^ 16)
    (h : ∀ n, ((PingTask.step inetChksum net)^[n] (.started ep)).InTime net) :
    Completes ep.count.toNat
      (fun n => ((PingTask.step inetChksum net)^[n] (.started ep)).thread.log) := by
  obtain ⟨n, thread, hn, pinging⟩ := pinging_reached h (Nat.le_refl _)
  -- a turn that makes no attempt
  let turn : Turn := ⟨0, fun _ => 0, [], 0⟩
  have ended : Ended ep.count (thread.step inetChksum turn) := pinging.end_ hcount hlt
  have hend : (PingTask.step inetChksum net)^[n + 1] (.started ep) =
      ⟨thread.step inetChksum turn, ep.count.toNat, none⟩ := by
    rw [Function.iterate_succ_apply', hn]
    refine PingTask.between ?_ turn
    rintro (hreceiving | ⟨-, hloops⟩)
    · exact hreceiving rfl
    · exact pinging.not_loops hcount hlt hloops
  -- and from then on the task waits
  have hfixed : PingTask.step inetChksum net ⟨thread.step inetChksum turn, ep.count.toNat, none⟩ =
      ⟨thread.step inetChksum turn, ep.count.toNat, none⟩ := by
    have hidle : ¬ PingTask.Busy ⟨thread.step inetChksum turn, ep.count.toNat, none⟩ := by
      rintro (hreceiving | ⟨hrunning, -⟩)
      · exact hreceiving rfl
      · exact Bool.noConfusion (ended.running.symm.trans hrunning)
    rw [PingTask.between hidle turn]
    show PingTask.mk _ _ _ = _
    rw [ended.step]
  refine ⟨n + 1, fun m hm => ?_⟩
  obtain ⟨j, rfl⟩ := Nat.exists_eq_add_of_le' hm
  have hm : (PingTask.step inetChksum net)^[j + (n + 1)] (.started ep) =
      ⟨thread.step inetChksum turn, ep.count.toNat, none⟩ := by
    rw [Function.iterate_add_apply, hend, Function.iterate_fixed hfixed]
  dsimp only
  rw [hm]
  exact ended.log

/-- The batch does not end. -/
structure PingTask.Unended (count : UInt32) (t : PingTask) : Prop where
  busy : t.thread.running = true ∨ t.thread.notified = true
  flagsStart : t.thread.ep.flagsStart = true
  count : t.thread.ep.count = count
  log : .onPingEnd ∉ t.thread.log

/-- The sequence number wraps around below the count. -/
theorem PingTask.Unended.step (h : t.Unended count) (hle : 2 ^ 16 ≤ count.toNat) :
    (t.step inetChksum net).Unended count := by
  have hloops : t.thread.Loops := by
    refine ⟨h.flagsStart, .inr ?_⟩
    rw [UInt32.lt_iff_toNat_lt, UInt16.toNat_toUInt32, h.count]
    exact Nat.lt_of_lt_of_le (UInt16.toNat_lt _) hle
  by_cases hbusy : t.Busy
  · have kept : t.thread.Kept (t.step inetChksum net).thread := PingTask.kept hbusy
    refine ⟨?_, kept.flagsStart.trans h.flagsStart, kept.count.trans h.count, mt kept.ended h.log⟩
    rw [kept.running, kept.notified]
    exact h.busy
  · have hnot := (not_or.mp hbusy).2
    have hrunning : t.thread.running = false := Bool.eq_false_iff.mpr fun heq => hnot ⟨heq, hloops⟩
    have hnotified := h.busy.resolve_left (by simp [hrunning])
    rw [PingTask.between hbusy ⟨0, fun _ => 0, [], 0⟩,
      step_taken hrunning hnotified]
    exact ⟨.inl rfl, h.flagsStart, h.count, h.log⟩

/-- A session that is started once ends once, and then makes no attempt. -/
structure PingTask.Once (t : PingTask) : Prop where
  notified : t.thread.running = true → t.thread.notified = false
  ended : .onPingEnd ∈ t.thread.log →
    t.receiving = none ∧ t.thread.running = false ∧ t.thread.notified = false

/-- It stays so, since nobody starts the session again. -/
theorem PingTask.Once.step (h : t.Once) : (t.step inetChksum net).Once := by
  by_cases hbusy : t.Busy
  · have kept : t.thread.Kept (t.step inetChksum net).thread := PingTask.kept hbusy
    constructor
    · rw [kept.running, kept.notified]
      exact h.notified
    · intro hmem
      obtain ⟨hnone, hrunning, -⟩ := h.ended (kept.ended hmem)
      rcases hbusy with hreceiving | ⟨hrunning', -⟩
      · exact absurd hnone hreceiving
      · cases hrunning'.symm.trans hrunning
  · obtain ⟨hnone, hnot⟩ := not_or.mp hbusy
    let turn : Turn := ⟨0, fun _ => 0, [], 0⟩
    rw [PingTask.between hbusy turn]
    have hturned := turned inetChksum turn t.thread
    generalize t.thread.step inetChksum turn = thread at hturned
    cases hturned with
    | ping hrunning hloops => exact absurd ⟨hrunning, hloops⟩ hnot
    | ended hrunning _ =>
      exact ⟨Bool.noConfusion, fun _ => ⟨not_not.mp hnone, rfl, h.notified hrunning⟩⟩
    | taken _ hnotified =>
      refine ⟨fun _ => rfl, fun hmem => ?_⟩
      cases hnotified.symm.trans (h.ended hmem).2.2
    | waited => exact h

/-- A session that has been started has not ended. -/
theorem unended_started (ep : EspPing) : (PingTask.started ep).Unended ep.count :=
  ⟨.inr rfl, rfl, rfl, List.not_mem_nil⟩

/-- It has been started once. -/
theorem once_started (ep : EspPing) : (PingTask.started ep).Once :=
  ⟨Bool.noConfusion, fun hmem => absurd hmem List.not_mem_nil⟩

/-- A session that completes has called `on_ping_end`. -/
theorem Completes.ended {count : Nat} {log : Nat → List Event} (h : Completes count log) :
    ∃ n, ∀ m ≥ n, .onPingEnd ∈ log m := by
  obtain ⟨n, hn⟩ := h
  refine ⟨n, fun m hm => (List.mem_filter (p := Event.counted)).mp ?_ |>.1⟩
  rw [hn m hm]
  exact List.mem_append_right _ (List.mem_singleton_self _)

/-- With a count that the sequence number cannot reach -/
theorem not_completes_of_le (hle : 2 ^ 16 ≤ ep.count.toNat) :
    ¬ Completes ep.count.toNat
      (fun n => ((PingTask.step inetChksum net)^[n] (.started ep)).thread.log) := by
  intro h
  obtain ⟨n, hn⟩ := h.ended
  have hunended : ((PingTask.step inetChksum net)^[n] (.started ep)).Unended ep.count := by
    clear hn
    induction n with
    | zero => exact unended_started ep
    | succ n ih =>
      rw [Function.iterate_succ_apply']
      exact ih.step hle
  exact hunended.log (hn n (Nat.le_refl n))

/-- With a receive that does not return -/
theorem not_completes_of_blocked {n : Nat}
    (hblocked : ((PingTask.step inetChksum net)^[n] (.started ep)).Blocked net) :
    ¬ Completes ep.count.toNat
      (fun n => ((PingTask.step inetChksum net)^[n] (.started ep)).thread.log) := by
  intro h
  obtain ⟨m, hm⟩ := h.ended
  have honce : ∀ n, ((PingTask.step inetChksum net)^[n] (.started ep)).Once := by
    intro n
    induction n with
    | zero => exact once_started ep
    | succ n ih =>
      rw [Function.iterate_succ_apply']
      exact ih.step
  have hlater := @PingTask.Blocked.iterate inetChksum net _ hblocked m
  rw [← Function.iterate_add_apply] at hlater
  obtain ⟨r, hr, -⟩ := hlater
  have hnone := ((honce (m + n)).ended (hm (m + n) (Nat.le_add_right m n))).1
  cases hnone.symm.trans hr

end Session

/-- A session makes as many attempts as it is to make, and then ends, exactly when the sequence
number can reach the count and every receive that it is in returns. -/
theorem completes_iff (inetChksum : IcmpEchoHdr → UInt32 → UInt16) (net : Network) (ep : EspPing)
    (hcount : ep.count ≠ 0) :
    Completes ep.count.toNat
        (fun n => ((PingTask.step inetChksum net)^[n] (.started ep)).thread.log) ↔
      ep.count.toNat < 2 ^ 16 ∧
        ∀ n, ((PingTask.step inetChksum net)^[n] (.started ep)).InTime net := by
  constructor
  · intro h
    refine ⟨Nat.not_le.mp fun hle => not_completes_of_le hle h, fun n => ?_⟩
    by_contra hnot
    exact not_completes_of_blocked (not_inTime_iff.mp hnot) h
  · rintro ⟨hlt, hinTime⟩
    exact completes_of_inTime hcount hlt hinTime

/-- No reply ever comes in. -/
def silence : Network where
  timeoutMs := 1000
  rcvTimeo timeout := timeout.tvSec * 1000 + timeout.tvUsec / 1000
  portTickPeriodMs := 1
  attempts _ := ⟨72, fun _ => 0, fun _ => .nothing, 1000⟩

/-- Five requests that are not answered -/
theorem completes_iff_fiveRequests : Completes 5
    (fun n => ((PingTask.step (fun _ _ => 0) silence)^[n] (.started firstSent)).thread.log) :=
  (completes_iff (fun _ _ => 0) silence firstSent (by decide)).mpr
    ⟨by decide, fun _ => inTime_of_nothing (fun _ _ => rfl) (by decide) _⟩

/-- A session with a count of 65536, and one whose first receive has no timeout -/
theorem not_completes : ¬ Completes 65536
      (fun n => ((PingTask.step (fun _ _ => 0) silence)^[n]
        (.started { firstSent with count := 65536 })).thread.log) ∧
    ¬ Completes 5
      (fun n => ((PingTask.step (fun _ _ => 0) { silence with timeoutMs := 0 })^[n]
        (.started firstSent)).thread.log) := by
  refine ⟨not_completes_of_le (by decide), not_completes_of_blocked (n := 2) ?_⟩
  refine ⟨_, rfl, fun hreturns => ?_⟩
  exact (returns_iff_of_nothing (fun _ => rfl) _ _).mp hreturns (by decide)

end PicoHost.Ping
