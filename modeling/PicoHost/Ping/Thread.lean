import PicoHost.Ping.Receive

/-!
# The ping task (`ping_sock.c`)

`esp_ping_thread` waits for the start of the session, sends requests and waits for the replies until
the sequence number has reached the count, and waits again. One step of the thread is one turn of a
loop: an attempt whose receive comes to its end, after any datagrams. When a receive does come to its
end, and when a session does, is the subject of `Waits`.

The sequence number has 16 bits, the count has 32.
-/

namespace PicoHost.Ping

/-- What a turn finds that comes to its end: what `sendto` returns, the uninitialized buffer, the
datagrams that `recvfrom` returns before it fails, and how long this takes -/
structure Turn where
  sent : Int32
  buf : Nat → UInt8
  datagrams : List Datagram
  elapsedTimeMs : UInt32

/-- A call of `esp_ping_send`, or of a callback; one that is not set does nothing. -/
inductive Event where
  | send
  | onPingSuccess
  | onPingTimeout
  | onPingEnd
deriving DecidableEq, Repr

/-- The task: whether it is in the inner loop, and whether it has been notified -/
structure Thread where
  ep : EspPing
  running : Bool
  notified : Bool
  log : List Event

/-- `ICMP_ECHO` -/
def icmpEcho : UInt8 := 8

section Code

-- `inet_chksum` of the packet with this header and length
variable (inetChksum : IcmpEchoHdr → UInt32 → UInt16)

/-- `esp_ping_send` (ping_sock.c:61–84): whether it returns `ESP_OK`, and the session -/
def espPingSend (sent : Int32) (ep : EspPing) : Bool × EspPing :=
  let hdr := { ep.packetHdr with seqno := ep.packetHdr.seqno + 1, chksum := 0 }
  let hdr :=
    if hdr.type = icmpEcho then { hdr with chksum := inetChksum hdr ep.icmpPktSize } else hdr
  let ep := { ep with packetHdr := hdr }
  if sent ≠ ep.icmpPktSize.toInt32 then (false, ep)
  else (true, { ep with transmitted := ep.transmitted + 1 })

/-- One turn of the inner loop of `esp_ping_thread` -/
def Thread.ping (t : Thread) (turn : Turn) : Thread :=
  let ep := (espPingSend inetChksum turn.sent t.ep).2
  let r := espPingReceive ep turn.buf turn.datagrams
  let ep := { r.ep with
    elapsedTimeMs := turn.elapsedTimeMs
    totalTimeMs := r.ep.totalTimeMs + turn.elapsedTimeMs }
  { t with
    ep
    log := t.log ++ [.send, if 0 ≤ r.len then .onPingSuccess else .onPingTimeout] }

/-- One turn of `esp_ping_thread` (ping_sock.c:145–185) -/
def Thread.step (t : Thread) (turn : Turn) : Thread :=
  if t.running then
    if t.ep.flagsStart ∧ (t.ep.count = 0 ∨ t.ep.packetHdr.seqno.toUInt32 < t.ep.count) then
      t.ping inetChksum turn
    else { t with running := false, log := t.log ++ [.onPingEnd] }
  else if t.notified then
    { t with
      ep := { t.ep with
        packetHdr := { t.ep.packetHdr with seqno := 0 }
        transmitted := 0
        received := 0
        totalTimeMs := 0 }
      running := true
      notified := false }
  else t

end Code

/-- The thread of a new session -/
def Thread.start (ep : EspPing) : Thread := ⟨ep, false, false, []⟩

/-- `esp_ping_start` -/
def espPingStart (t : Thread) : Thread :=
  { t with ep := { t.ep with flagsStart := true }, notified := true }

/-- `esp_ping_thread` has another attempt to make. -/
def Thread.Loops (t : Thread) : Prop :=
  t.ep.flagsStart = true ∧ (t.ep.count = 0 ∨ t.ep.packetHdr.seqno.toUInt32 < t.ep.count)

instance (t : Thread) : Decidable t.Loops := instDecidableAnd

/-- A session whose thread has been notified begins anew. -/
def Thread.taken (t : Thread) : Thread :=
  { t with
    ep := { t.ep with
      packetHdr := { t.ep.packetHdr with seqno := 0 }
      transmitted := 0
      received := 0
      totalTimeMs := 0 }
    running := true
    notified := false }

/-- The events that are counted -/
def Event.counted : Event → Bool
  | .send | .onPingEnd => true
  | .onPingSuccess | .onPingTimeout => false

/-- From some step on the thread has made `count` attempts and then called `on_ping_end` once. -/
def Completes (count : Nat) (log : Nat → List Event) : Prop :=
  ∃ n, ∀ m ≥ n, (log m).filter Event.counted = .replicate count .send ++ [.onPingEnd]

/-! ## One turn -/

/-- What decides about the loop is the same. -/
structure SameLoop (ep ep' : EspPing) : Prop where
  packetHdr : ep'.packetHdr = ep.packetHdr
  count : ep'.count = ep.count
  flagsStart : ep'.flagsStart = ep.flagsStart

/-- A session that is left alone -/
theorem SameLoop.refl (ep : EspPing) : SameLoop ep ep := ⟨rfl, rfl, rfl⟩

/-- One change after the other -/
theorem SameLoop.trans {ep ep' ep'' : EspPing} (h : SameLoop ep ep') (h' : SameLoop ep' ep'') :
    SameLoop ep ep'' :=
  ⟨h'.packetHdr.trans h.packetHdr, h'.count.trans h.count, h'.flagsStart.trans h.flagsStart⟩

/-- Whatever comes in -/
theorem receiveLoop_sameLoop (ep : EspPing) (dataHead : Nat) (buf : Nat → UInt8)
    (datagrams : List Datagram) : SameLoop ep (receiveLoop ep dataHead buf datagrams).ep := by
  induction datagrams generalizing ep dataHead buf with
  | nil => exact .refl ep
  | cons d ds ih =>
    have hfrom : SameLoop ep (ep.from_ dataHead d.source).1 := by
      cases d.source <;> exact ⟨rfl, rfl, rfl⟩
    rw [receiveLoop]
    split
    · exact .refl ep
    · dsimp only
      split
      · exact hfrom.trans (ih ..)
      · split
        · refine hfrom.trans ?_
          rw [EspPing.reply]
          split <;> exact ⟨rfl, rfl, rfl⟩
        · exact hfrom.trans (ih ..)

/-- Sending counts the sequence number up, and leaves what else decides about the loop. -/
theorem espPingSend_keeps {inetChksum : IcmpEchoHdr → UInt32 → UInt16} (sent : Int32)
    (ep : EspPing) :
    (espPingSend inetChksum sent ep).2.packetHdr.seqno = ep.packetHdr.seqno + 1 ∧
      (espPingSend inetChksum sent ep).2.count = ep.count ∧
        (espPingSend inetChksum sent ep).2.flagsStart = ep.flagsStart := by
  rw [espPingSend]
  dsimp only
  split <;> split <;> exact ⟨rfl, rfl, rfl⟩

section Step

variable {inetChksum : IcmpEchoHdr → UInt32 → UInt16} {turn : Turn} {t : Thread}

/-- In the loop, with another attempt to make -/
theorem step_ping (hrunning : t.running = true) (hloops : t.Loops) :
    t.step inetChksum turn = t.ping inetChksum turn := by
  rw [Thread.step, if_pos hrunning]
  exact if_pos hloops

/-- In the loop, with none -/
theorem step_ended (hrunning : t.running = true) (hloops : ¬ t.Loops) :
    t.step inetChksum turn = { t with running := false, log := t.log ++ [.onPingEnd] } := by
  rw [Thread.step, if_pos hrunning]
  exact if_neg hloops

/-- A notification is taken. -/
theorem step_taken (hrunning : t.running = false) (hnotified : t.notified = true) :
    t.step inetChksum turn = t.taken := by
  rw [Thread.step, if_neg (Bool.eq_false_iff.mp hrunning), if_pos hnotified]
  rfl

/-- There is none. -/
theorem step_waited (hrunning : t.running = false) (hnotified : t.notified = false) :
    t.step inetChksum turn = t := by
  rw [Thread.step, if_neg (Bool.eq_false_iff.mp hrunning),
    if_neg (Bool.eq_false_iff.mp hnotified)]

end Step

/-- What a turn of the thread is -/
inductive Turned (inetChksum : IcmpEchoHdr → UInt32 → UInt16) (turn : Turn) (t : Thread) :
    Thread → Prop
  | ping (running : t.running = true) (loops : t.Loops) :
    Turned inetChksum turn t (t.ping inetChksum turn)
  | ended (running : t.running = true) (loops : ¬ t.Loops) :
    Turned inetChksum turn t { t with running := false, log := t.log ++ [.onPingEnd] }
  | taken (running : t.running = false) (notified : t.notified = true) :
    Turned inetChksum turn t t.taken
  | waited (running : t.running = false) (notified : t.notified = false) :
    Turned inetChksum turn t t

/-- Every turn is one of the four. -/
theorem turned (inetChksum : IcmpEchoHdr → UInt32 → UInt16) (turn : Turn) (t : Thread) :
    Turned inetChksum turn t (t.step inetChksum turn) := by
  cases hrunning : t.running with
  | true =>
    by_cases hloops : t.Loops
    · exact step_ping hrunning hloops ▸ .ping hrunning hloops
    · exact step_ended hrunning hloops ▸ .ended hrunning hloops
  | false =>
    cases hnotified : t.notified with
    | true => exact step_taken hrunning hnotified ▸ .taken hrunning hnotified
    | false =>
      rw [step_waited hrunning hnotified]
      exact .waited hrunning hnotified

/-- An attempt counts the sequence number up, and leaves what else decides about the loop. -/
theorem ping_loop (inetChksum : IcmpEchoHdr → UInt32 → UInt16) (turn : Turn) (t : Thread) :
    (t.ping inetChksum turn).ep.packetHdr.seqno = t.ep.packetHdr.seqno + 1 ∧
      (t.ping inetChksum turn).ep.count = t.ep.count ∧
        (t.ping inetChksum turn).ep.flagsStart = t.ep.flagsStart := by
  obtain ⟨hsend, hcount, hflags⟩ := @espPingSend_keeps inetChksum turn.sent t.ep
  have hreceive := receiveLoop_sameLoop (espPingSend inetChksum turn.sent t.ep).2 0 turn.buf
    turn.datagrams
  refine ⟨?_, hreceive.count.trans hcount, hreceive.flagsStart.trans hflags⟩
  show (receiveLoop _ 0 turn.buf turn.datagrams).ep.packetHdr.seqno = _
  rw [hreceive.packetHdr, hsend]

section Turn

variable {inetChksum : IcmpEchoHdr → UInt32 → UInt16}

/-- The thread is in the loop, and has made `k` attempts. -/
structure Pinging (count : UInt32) (k : Nat) (t : Thread) : Prop where
  running : t.running = true
  notified : t.notified = false
  flagsStart : t.ep.flagsStart = true
  count : t.ep.count = count
  seqno : t.ep.packetHdr.seqno.toNat = k % 2 ^ 16
  log : t.log.filter Event.counted = .replicate k .send

variable {count : UInt32} {k : Nat} {t : Thread} {turn : Turn}

/-- The notification has been taken. -/
theorem pinging_start (ep : EspPing) : Pinging ep.count 0 (espPingStart (.start ep)).taken :=
  ⟨rfl, rfl, rfl, rfl, rfl, rfl⟩

/-- As long as the sequence number is below the count, there is another attempt. -/
theorem Pinging.loops (h : Pinging count k t) (hlt : k % 2 ^ 16 < count.toNat) : t.Loops := by
  refine ⟨h.flagsStart, .inr ?_⟩
  rw [UInt32.lt_iff_toNat_lt, UInt16.toNat_toUInt32, h.seqno, h.count]
  exact hlt

/-- Where it has reached the count, there is none. -/
theorem Pinging.not_loops (h : Pinging count count.toNat t) (hcount : count ≠ 0)
    (hlt : count.toNat < 2 ^ 16) : ¬ t.Loops := by
  rintro ⟨-, hzero | hseqno⟩
  · exact hcount (h.count ▸ hzero)
  · rw [UInt32.lt_iff_toNat_lt, UInt16.toNat_toUInt32, h.seqno, h.count,
      Nat.mod_eq_of_lt hlt] at hseqno
    exact Nat.lt_irrefl _ hseqno

/-- An attempt is made. -/
theorem Pinging.ping (h : Pinging count k t) (hlt : k % 2 ^ 16 < count.toNat) :
    Pinging count (k + 1) (t.step inetChksum turn) := by
  obtain ⟨hseqno, hcount, hflags⟩ := ping_loop inetChksum turn t
  rw [step_ping h.running (h.loops hlt)]
  constructor
  · exact h.running
  · exact h.notified
  · exact hflags.trans h.flagsStart
  · exact hcount.trans h.count
  · rw [hseqno, UInt16.toNat_add, h.seqno]
    exact Nat.mod_add_mod ..
  · show (t.log ++ [_, _]).filter Event.counted = _
    rw [List.filter_append, h.log, List.replicate_succ']
    split <;> rfl

/-- The sequence number has reached the count: the thread waits again. -/
structure Ended (count : UInt32) (t : Thread) : Prop where
  running : t.running = false
  notified : t.notified = false
  log : t.log.filter Event.counted = .replicate count.toNat .send ++ [.onPingEnd]

/-- The batch is over. -/
theorem Pinging.end_ (h : Pinging count count.toNat t) (hcount : count ≠ 0)
    (hlt : count.toNat < 2 ^ 16) : Ended count (t.step inetChksum turn) := by
  rw [step_ended h.running (h.not_loops hcount hlt)]
  constructor
  · rfl
  · exact h.notified
  · show (t.log ++ [Event.onPingEnd]).filter Event.counted = _
    rw [List.filter_append, h.log]
    rfl

/-- Nobody starts the session again. -/
theorem Ended.step (h : Ended count t) : t.step inetChksum turn = t := by
  exact step_waited h.running h.notified

end Turn

end PicoHost.Ping
