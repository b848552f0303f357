import Mathlib.Algebra.Group.Nat.Defs
import Mathlib.Data.List.Basic
import Mathlib.Tactic.Basic

/-!
# Receiving echo replies (`ping_sock.c`)

`esp_ping_receive` reads datagrams into a buffer of 64 bytes until one has the identifier and the
sequence number of the session. Where the ICMP header is comes from the first byte of an IPv4
datagram. Every byte of a header that is read is recorded with the number of bytes received.

IPv4 and IPv6 are both compiled in. Words of the ICMP header are compared as they are in memory.
-/

namespace PicoHost.Ping

/-! ## The session -/

/-- The fields of `struct icmp_echo_hdr` -/
structure IcmpEchoHdr where
  type : UInt8
  chksum : UInt16
  id : UInt16
  seqno : UInt16
deriving DecidableEq, Repr

inductive IpAddr where
  | v4 (addr : UInt32)
  | v6 (addr : BitVec 128)
deriving DecidableEq, Repr

/-- `IP_IS_V4_VAL` -/
def IpAddr.isV4 : IpAddr → Bool
  | .v4 _ => true
  | .v6 _ => false

/-- `esp_ping_t`; `packetHdr` is the header of the packet that it sends. -/
structure EspPing where
  packetHdr : IcmpEchoHdr
  recvAddr : IpAddr
  recvLen : UInt32
  icmpPktSize : UInt32
  count : UInt32
  transmitted : UInt32
  received : UInt32
  elapsedTimeMs : UInt32
  totalTimeMs : UInt32
  ttl : UInt8
  tos : UInt8
  flagsStart : Bool
deriving DecidableEq, Repr

/-! ## Datagrams -/

/-- `struct sockaddr_storage` -/
inductive SockAddr where
  | inet (sinAddr : UInt32)
  | inet6 (sin6Addr : BitVec 128)
  | other
deriving DecidableEq, Repr

structure Datagram where
  source : SockAddr
  bytes : List UInt8
deriving DecidableEq, Repr

/-- `sizeof(buf)` -/
def bufSize : Nat := 64

/-- What `recvfrom` returns: the rest of a longer datagram is lost. -/
def Datagram.len (d : Datagram) : Nat := min d.bytes.length bufSize

/-- The buffer, and what lies behind it, after `recvfrom` -/
def Datagram.into (d : Datagram) (buf : Nat → UInt8) (i : Nat) : UInt8 :=
  if i < d.len then d.bytes.getD i 0 else buf i

/-- A 16-bit word, as it is in memory and in network byte order -/
def load16 (buf : Nat → UInt8) (i : Nat) : UInt16 :=
  (buf i).toUInt16 + (buf (i + 1)).toUInt16 * 256

def loadNet16 (buf : Nat → UInt8) (i : Nat) : UInt32 :=
  (buf i).toUInt32 * 256 + (buf (i + 1)).toUInt32

/-- `sizeof(struct ip_hdr)`, `sizeof(struct ip6_hdr)` and `sizeof(struct icmp_echo_hdr)`, which is
that of `struct icmp6_echo_hdr` -/
def ipHdrSize : Nat := 20

def ip6HdrSize : Nat := 40

def icmpEchoHdrSize : Nat := 8

/-- Where the ICMP header begins: behind `IPH_HL` words, or the fixed header of IPv6. -/
def icmpOffset (v4 : Bool) (buf : Nat → UInt8) : Nat :=
  if v4 then (buf 0 &&& 0x0F).toNat * 4 else ip6HdrSize

/-! ## The code -/

/-- The session and the length of both headers after a look at where the datagram is from -/
def EspPing.from_ (ep : EspPing) (dataHead : Nat) : SockAddr → EspPing × Nat
  | .inet addr => ({ ep with recvAddr := .v4 addr }, ipHdrSize + icmpEchoHdrSize)
  | .inet6 addr => ({ ep with recvAddr := .v6 addr }, ip6HdrSize + icmpEchoHdrSize)
  | .other => (ep, dataHead)

/-- The two comparisons; the second is not made where the first fails. -/
def EspPing.matches (ep : EspPing) (buf : Nat → UInt8) : Bool :=
  let iecho := icmpOffset ep.recvAddr.isV4 buf
  load16 buf (iecho + 4) == ep.packetHdr.id && load16 buf (iecho + 6) == ep.packetHdr.seqno

/-- The bytes that are read of the headers -/
def EspPing.reads (ep : EspPing) (buf : Nat → UInt8) : List Nat :=
  let iecho := icmpOffset ep.recvAddr.isV4 buf
  (if ep.recvAddr.isV4 then [0] else []) ++ [iecho + 4, iecho + 5] ++
    (if load16 buf (iecho + 4) == ep.packetHdr.id then [iecho + 6, iecho + 7] else []) ++
    if ep.matches buf then (if ep.recvAddr.isV4 then [8, 1, 2, 3] else [4, 5]) else []

/-- What a reply leaves in the session -/
def EspPing.reply (ep : EspPing) (dataHead : Nat) (buf : Nat → UInt8) : EspPing :=
  let ep := { ep with received := ep.received + 1 }
  if ep.recvAddr.isV4 then
    { ep with ttl := buf 8, tos := buf 1, recvLen := loadNet16 buf 2 - .ofNat dataHead }
  else { ep with recvLen := loadNet16 buf 4 - .ofNat icmpEchoHdrSize }

/-- What a call returns, the datagram that it takes for a reply, and the bytes of headers it has
read, each with the number of bytes received -/
structure Received where
  ep : EspPing
  len : Int
  reply : Option Datagram
  reads : List (Nat × Nat)

def Received.after (r : Received) (reads : List (Nat × Nat)) : Received :=
  { r with reads := reads ++ r.reads }

/-- The loop of `esp_ping_receive` over the datagrams that come in before `recvfrom` returns -1 -/
def receiveLoop (ep : EspPing) (dataHead : Nat) (buf : Nat → UInt8) :
    List Datagram → Received
  | [] => ⟨ep, -1, none, []⟩
  | d :: ds =>
    if d.len = 0 then ⟨ep, 0, none, []⟩
    else
      let r := ep.from_ dataHead d.source
      let buf := d.into buf
      if d.len < r.2 then receiveLoop r.1 r.2 buf ds
      else
        let reads := (r.1.reads buf).map fun i => (i, d.len)
        if r.1.matches buf then ⟨r.1.reply r.2 buf, d.len, some d, reads⟩
        else (receiveLoop r.1 r.2 buf ds).after reads

/-- `esp_ping_receive` (ping_sock.c:86–143); `buf` is not initialized. -/
def espPingReceive (ep : EspPing) (buf : Nat → UInt8) (datagrams : List Datagram) : Received :=
  receiveLoop ep 0 buf datagrams

/-! ## Echo replies -/

/-- The bytes of the datagram itself -/
def Datagram.at (d : Datagram) (i : Nat) : UInt8 := d.bytes.getD i 0

/-- `ICMP_ER` and `ICMP6_TYPE_EREP` -/
def echoReplyType (v4 : Bool) : UInt8 := if v4 then 0 else 129

/-- What was received has the whole header of an echo reply to the packet. -/
structure IsEchoReply (hdr : IcmpEchoHdr) (v4 : Bool) (d : Datagram) : Prop where
  ipHeader : v4 → ipHdrSize ≤ icmpOffset v4 d.at
  complete : icmpOffset v4 d.at + icmpEchoHdrSize ≤ d.len
  type : d.at (icmpOffset v4 d.at) = echoReplyType v4
  id : load16 d.at (icmpOffset v4 d.at + 4) = hdr.id
  seqno : load16 d.at (icmpOffset v4 d.at + 6) = hdr.seqno

/-- The bytes that are read have been received; and a return value that the caller takes for a reply
comes with one. -/
structure ReceiveOk (hdr : IcmpEchoHdr) (r : Received) : Prop where
  within : ∀ x ∈ r.reads, x.1 < x.2
  reported : 0 ≤ r.len → ∃ d ∈ r.reply, IsEchoReply hdr r.ep.recvAddr.isV4 d

/-- The identifier has been received; if it is that of the session, the sequence number too; and if
this is the current one, the datagram is an echo reply. -/
def Harmless (hdr : IcmpEchoHdr) (v4 : Bool) (d : Datagram) : Prop :=
  icmpOffset v4 d.at + 6 ≤ d.len ∧
    (load16 d.at (icmpOffset v4 d.at + 4) = hdr.id →
      icmpOffset v4 d.at + icmpEchoHdrSize ≤ d.len ∧
        (load16 d.at (icmpOffset v4 d.at + 6) = hdr.seqno →
          d.at (icmpOffset v4 d.at) = echoReplyType v4 ∧
            (v4 → ipHdrSize ≤ icmpOffset v4 d.at)))

/-- No datagram is empty, and each is harmless unless it is too short to be looked at; up to the
first that matches. -/
def AllHarmless (ep : EspPing) (dataHead : Nat) : List Datagram → Prop
  | [] => True
  | d :: ds =>
    let r := ep.from_ dataHead d.source
    d.len ≠ 0 ∧
      if d.len < r.2 then AllHarmless r.1 r.2 ds
      else Harmless r.1.packetHdr r.1.recvAddr.isV4 d ∧
        (r.1.matches d.at = false → AllHarmless r.1 r.2 ds)

/-! ## One datagram -/

section Datagram

variable {d : Datagram} {buf : Nat → UInt8} {ep : EspPing}

/-- The bytes of the datagram are in the buffer. -/
theorem Datagram.into_of_lt {i : Nat} (h : i < d.len) : d.into buf i = d.at i := if_pos h

/-- A half word within the datagram is the datagram's. -/
theorem load16_into {i : Nat} (h : i + 2 ≤ d.len) : load16 (d.into buf) i = load16 d.at i := by
  rw [load16, load16, Datagram.into_of_lt (by omega), Datagram.into_of_lt (by omega)]

/-- The length of the IP header is the datagram's. -/
theorem icmpOffset_into (v4 : Bool) (h : d.len ≠ 0) :
    icmpOffset v4 (d.into buf) = icmpOffset v4 d.at := by
  rw [icmpOffset, icmpOffset, Datagram.into_of_lt (Nat.pos_of_ne_zero h)]

/-- The header fields that are read have been received. -/
def Bounded (ep : EspPing) (d : Datagram) : Prop :=
  icmpOffset ep.recvAddr.isV4 d.at + 6 ≤ d.len ∧
    (load16 d.at (icmpOffset ep.recvAddr.isV4 d.at + 4) = ep.packetHdr.id →
      icmpOffset ep.recvAddr.isV4 d.at + icmpEchoHdrSize ≤ d.len ∧
        (ep.matches d.at → ep.recvAddr.isV4 → 8 < d.len))

/-- As far as the comparisons go, the buffer is the datagram. -/
theorem matches_into (hlen : d.len ≠ 0) (hid : icmpOffset ep.recvAddr.isV4 d.at + 6 ≤ d.len)
    (hseqno : load16 d.at (icmpOffset ep.recvAddr.isV4 d.at + 4) = ep.packetHdr.id →
      icmpOffset ep.recvAddr.isV4 d.at + icmpEchoHdrSize ≤ d.len) :
    ep.matches (d.into buf) = ep.matches d.at := by
  rw [EspPing.matches, EspPing.matches, icmpOffset_into _ hlen, load16_into (by omega)]
  by_cases heq : load16 d.at (icmpOffset ep.recvAddr.isV4 d.at + 4) = ep.packetHdr.id
  · have hle := hseqno heq
    rw [icmpEchoHdrSize] at hle
    rw [load16_into (by omega)]
  · rw [beq_false_of_ne heq, Bool.false_and, Bool.false_and]

/-- A bounded datagram matches by its own bytes. -/
theorem Bounded.matches_into (h : Bounded ep d) (hlen : d.len ≠ 0) :
    ep.matches (d.into buf) = ep.matches d.at :=
  Ping.matches_into hlen h.1 fun heq => (h.2 heq).1

/-- A datagram is harmless if it is bounded, and an echo reply if it matches. -/
theorem harmless_iff : Harmless ep.packetHdr ep.recvAddr.isV4 d ↔
    Bounded ep d ∧ (ep.matches d.at → IsEchoReply ep.packetHdr ep.recvAddr.isV4 d) := by
  rw [EspPing.matches, Bool.and_eq_true, beq_iff_eq, beq_iff_eq]
  constructor
  · rintro ⟨hid, h⟩
    refine ⟨⟨hid, fun heq => ⟨(h heq).1, fun hmatch hv4 => ?_⟩⟩, fun hmatch => ?_⟩
    · rw [EspPing.matches, Bool.and_eq_true, beq_iff_eq, beq_iff_eq] at hmatch
      have hip := ((h heq).2 hmatch.2).2 hv4
      rw [ipHdrSize] at hip
      omega
    · obtain ⟨hcomplete, h⟩ := h hmatch.1
      obtain ⟨htype, hip⟩ := h hmatch.2
      exact ⟨hip, hcomplete, htype, hmatch.1, hmatch.2⟩
  · rintro ⟨⟨hid, h⟩, hreply⟩
    refine ⟨hid, fun heq => ⟨(h heq).1, fun hseqno => ?_⟩⟩
    have reply := hreply ⟨heq, hseqno⟩
    exact ⟨reply.type, reply.ipHeader⟩

/-- What is read of a datagram that is not empty -/
theorem reads_iff (hlen : d.len ≠ 0) :
    (∀ i ∈ ep.reads (d.into buf), i < d.len) ↔ Bounded ep d := by
  have hoffset := @icmpOffset_into d buf ep.recvAddr.isV4 hlen
  constructor
  · intro h
    have hid : icmpOffset ep.recvAddr.isV4 d.at + 6 ≤ d.len :=
      h (icmpOffset ep.recvAddr.isV4 d.at + 5) (by simp [EspPing.reads, hoffset])
    have hload : load16 (d.into buf) (icmpOffset ep.recvAddr.isV4 d.at + 4) = _ := load16_into hid
    have hseqno : load16 d.at (icmpOffset ep.recvAddr.isV4 d.at + 4) = ep.packetHdr.id →
        icmpOffset ep.recvAddr.isV4 d.at + 8 ≤ d.len := fun heq =>
      h (icmpOffset ep.recvAddr.isV4 d.at + 7) (by simp [EspPing.reads, hoffset, hload, heq])
    refine ⟨hid, fun heq => ⟨hseqno heq, fun hmatch hv4 => h 8 ?_⟩⟩
    rw [← @matches_into d buf ep hlen hid hseqno] at hmatch
    simp [EspPing.reads, hmatch, hv4]
  · intro bounded i hi
    have hmatches := @Bounded.matches_into d buf ep bounded hlen
    obtain ⟨hid, h⟩ := bounded
    have hload : load16 (d.into buf) (icmpOffset ep.recvAddr.isV4 d.at + 4) = _ := load16_into hid
    rw [EspPing.reads, hmatches, hoffset, hload] at hi
    simp only [List.mem_append, beq_iff_eq] at hi
    rcases hi with ((hi | hi) | hi) | hi
    · split at hi
      · rw [List.mem_singleton.mp hi]
        exact Nat.pos_of_ne_zero hlen
      · exact absurd hi List.not_mem_nil
    · rcases List.mem_pair.mp hi with rfl | rfl <;> omega
    · split at hi
      · rename_i heq
        have hle := (h heq).1
        rw [icmpEchoHdrSize] at hle
        rcases List.mem_pair.mp hi with rfl | rfl <;> omega
      · exact absurd hi List.not_mem_nil
    · split at hi
      · rename_i hmatch
        have heq : load16 d.at (icmpOffset ep.recvAddr.isV4 d.at + 4) = ep.packetHdr.id := by
          rw [EspPing.matches, Bool.and_eq_true, beq_iff_eq] at hmatch
          exact hmatch.1
        split at hi
        · rename_i hv4
          have hlt := (h heq).2 hmatch hv4
          simp only [List.mem_cons, List.not_mem_nil, or_false] at hi
          omega
        · -- the header of IPv6 is behind these fields
          rename_i hv6
          have hle : ip6HdrSize + 6 ≤ d.len := by
            rw [icmpOffset, if_neg hv6] at hid
            exact hid
          rw [ip6HdrSize] at hle
          rcases List.mem_pair.mp hi with rfl | rfl <;> omega
      · exact absurd hi List.not_mem_nil

end Datagram

/-! ## Every call -/

@[simp] theorem from_packetHdr (ep : EspPing) (dataHead : Nat) (source : SockAddr) :
    (ep.from_ dataHead source).1.packetHdr = ep.packetHdr := by
  cases source <;> rfl

@[simp] theorem reply_recvAddr (ep : EspPing) (dataHead : Nat) (buf : Nat → UInt8) :
    (ep.reply dataHead buf).recvAddr = ep.recvAddr := by
  rw [EspPing.reply]
  split <;> rfl

/-- Reads before a receive are to be in bounds too. -/
theorem receiveOk_after {hdr : IcmpEchoHdr} {r : Received} {reads : List (Nat × Nat)} :
    ReceiveOk hdr (r.after reads) ↔ (∀ x ∈ reads, x.1 < x.2) ∧ ReceiveOk hdr r := by
  constructor
  · intro ok
    refine ⟨fun x hx => ok.within x (List.mem_append_left _ hx), ?_, ok.reported⟩
    exact fun x hx => ok.within x (List.mem_append_right _ hx)
  · rintro ⟨hreads, ok⟩
    refine ⟨fun x hx => ?_, ok.reported⟩
    rcases List.mem_append.mp hx with hx | hx
    · exact hreads x hx
    · exact ok.within x hx

/-- The reads are within the datagram exactly if it is bounded. -/
theorem within_iff {ep : EspPing} {d : Datagram} {buf : Nat → UInt8} (hlen : d.len ≠ 0) :
    (∀ x ∈ (ep.reads (d.into buf)).map fun i => (i, d.len), x.1 < x.2) ↔ Bounded ep d := by
  rw [← @reads_iff d buf ep hlen, List.forall_mem_map]

/-- A datagram that is taken for a reply -/
theorem reply_ok_iff {ep : EspPing} {d : Datagram} {buf : Nat → UInt8} (dataHead : Nat)
    (hlen : d.len ≠ 0) (hmatch : ep.matches (d.into buf)) :
    ReceiveOk ep.packetHdr ⟨ep.reply dataHead (d.into buf), d.len, some d,
        (ep.reads (d.into buf)).map fun i => (i, d.len)⟩ ↔
      Bounded ep d ∧ ep.matches d.at ∧ IsEchoReply ep.packetHdr ep.recvAddr.isV4 d := by
  constructor
  · rintro ⟨hwithin, hreported⟩
    have bounded := (within_iff hlen).mp hwithin
    obtain ⟨d', hd', reply⟩ := hreported (Int.natCast_nonneg _)
    cases hd'
    rw [reply_recvAddr] at reply
    rw [bounded.matches_into hlen] at hmatch
    exact ⟨bounded, hmatch, reply⟩
  · rintro ⟨bounded, -, reply⟩
    refine ⟨(within_iff hlen).mpr bounded, fun _ => ⟨d, rfl, ?_⟩⟩
    rwa [reply_recvAddr]

/-- The loop is right exactly if every datagram that it takes is harmless. -/
theorem receiveLoop_ok_iff (ep : EspPing) (dataHead : Nat) (buf : Nat → UInt8)
    (datagrams : List Datagram) :
    ReceiveOk ep.packetHdr (receiveLoop ep dataHead buf datagrams) ↔
      AllHarmless ep dataHead datagrams := by
  induction datagrams generalizing ep dataHead buf with
  | nil =>
    refine ⟨fun _ => trivial, fun _ => ⟨nofun, fun hle => ?_⟩⟩
    have hle : (0 : Int) ≤ -1 := hle
    exact absurd hle (by decide)
  | cons d ds ih =>
    rw [receiveLoop, AllHarmless]
    by_cases hlen : d.len = 0
    · rw [if_pos hlen]
      constructor
      · intro ok
        obtain ⟨_, hreply, -⟩ := ok.reported (Int.le_refl 0)
        cases hreply
      · exact fun h => absurd hlen h.1
    rw [if_neg hlen, and_iff_right hlen]
    have hhdr := from_packetHdr ep dataHead d.source
    revert hhdr
    generalize ep.from_ dataHead d.source = r
    rcases r with ⟨ep', dataHead'⟩
    intro hhdr
    rw [← hhdr]
    dsimp only
    by_cases hshort : d.len < dataHead'
    · rw [if_pos hshort, if_pos hshort]
      exact ih ep' dataHead' (d.into buf)
    rw [if_neg hshort, if_neg hshort, harmless_iff]
    by_cases hmatch : ep'.matches (d.into buf) = true
    · -- the datagram is taken for a reply
      rw [if_pos hmatch]
      rw [reply_ok_iff _ hlen hmatch]
      constructor
      · rintro ⟨bounded, hyes, reply⟩
        exact ⟨⟨bounded, fun _ => reply⟩, fun hnot => absurd hyes (by rw [hnot]; decide)⟩
      · rintro ⟨⟨bounded, hreply⟩, -⟩
        rw [bounded.matches_into hlen] at hmatch
        exact ⟨bounded, hmatch, hreply hmatch⟩
    · rw [if_neg hmatch, receiveOk_after, within_iff hlen, ih]
      constructor
      · rintro ⟨bounded, h⟩
        rw [bounded.matches_into hlen] at hmatch
        exact ⟨⟨bounded, fun hyes => absurd hyes hmatch⟩, fun _ => h⟩
      · rintro ⟨⟨bounded, -⟩, h⟩
        rw [bounded.matches_into hlen] at hmatch
        exact ⟨bounded, h (Bool.eq_false_iff.mpr hmatch)⟩

/-- Whatever comes in, the reads of a call are in bounds and what it reports is a reply, exactly
when the datagrams are harmless. -/
theorem espPingReceive_ok_iff (ep : EspPing) (buf : Nat → UInt8) (datagrams : List Datagram) :
    ReceiveOk ep.packetHdr (espPingReceive ep buf datagrams) ↔ AllHarmless ep 0 datagrams :=
  receiveLoop_ok_iff ep 0 buf datagrams

/-- A session that has sent its first packet -/
def firstSent : EspPing :=
  ⟨⟨8, 0, 0x1234, 1⟩, .v4 0, 0, 72, 5, 1, 0, 0, 0, 0, 0, true⟩

/-- A header of fifteen words, with four bytes behind it -/
def longHeader : Datagram :=
  ⟨.inet 0x0101A8C0, [0x4F, 0, 0, 64, 0, 0, 0, 0, 64, 1, 217, 85, 192, 168, 1, 1, 192, 168, 1, 2] ++
    .replicate 40 1 ++ .replicate 4 0⟩

/-- A request with the identifier and the sequence number, to the host itself -/
def echoRequest : Datagram :=
  ⟨.inet 0x0201A8C0,
    [0x45, 0, 0, 28, 0, 0, 0, 0, 64, 1, 247, 140, 192, 168, 1, 2, 192, 168, 1, 2] ++
      [8, 0, 194, 237, 0x34, 0x12, 1, 0]⟩

/-- The identifier is read behind the buffer, and a request is taken for a reply. -/
theorem not_receiveOk :
    ¬ ReceiveOk firstSent.packetHdr (espPingReceive firstSent (fun _ => 0) [longHeader]) ∧
      ¬ ReceiveOk firstSent.packetHdr (espPingReceive firstSent (fun _ => 0) [echoRequest]) := by
  constructor
  · intro ok
    exact absurd (ok.within (64, 64) (by decide)) (by decide)
  · intro ok
    obtain ⟨d, hd, reply⟩ := ok.reported (by decide)
    cases hd
    exact absurd reply.type (by decide)

end PicoHost.Ping
