import PicoHost.Dhcps.LeaseList

/-!
# The DHCP server (`dhcpserver.c`)

`parseOptions`, `parseMsg`, `handleDhcp`, `dhcpsPollSet` and the handle's
functions `dhcpsStart`, `dhcpsStop`, `dhcpsDelete`, `dhcpsTmr`. What they ask of
lwIP (pcbs, timeouts) and the release of the handle itself are returned as a
list of `Effect`s.
-/

namespace PicoHost.Dhcps

open ByteOrder

/-! ## `parse_options` -/

/-- The option loop (dhcpserver.c:796–838). Every turn advances `optptr` by at
least 2, so `fuel = stop - optptr` turns suffice (`optionLoop_of_le`). -/
def optionLoop (client : UInt32) (m : Msg) (stop : Nat) :
    Nat → Nat → UInt8 → ReplyState → UInt8 × ReplyState
  | 0, _, type, state => (type, state)
  | fuel + 1, optptr, type, state =>
    if optptr < stop then
      if m optptr = dhcpOptionEnd then (type, state)
      else
        let type := if m optptr = dhcpOptionMsgType then m (optptr + 2) else type
        let state := if m optptr = dhcpOptionReqIpaddr then
            if m.word (optptr + 2) = client then .ack else .nak
          else state
        optionLoop client m stop fuel (optptr + (m (optptr + 1)).toNat + 2) type state
    else (type, state)

/-- `parse_options(dhcps, &m->options[4], len)` (dhcpserver.c:785–880); `len` is
an `s16_t`. -/
def parseOptions (d : DhcpsT) (m : Msg) (len : Int) : ReplyState :=
  let optptr := Msg.options + 4
  let stop := optptr + len.toNat
  let r := optionLoop d.clientAddress m stop (stop - optptr) optptr 0 .idle
  if r.1 = dhcpDiscover then .offer
  else if r.1 = dhcpRequest then
    if r.2 = .ack ∨ r.2 = .nak then r.2
    else if d.renew then .ack else .nak
  else if r.1 = dhcpDecline then .idle
  else if r.1 = dhcpRelease then .release
  else r.2

/-! ## `parse_msg` -/

/-- `lease_timer` of `parse_msg`. -/
def DhcpsT.leaseTimer (d : DhcpsT) : UInt32 :=
  d.dhcpsLeaseTime * dhcpsLeaseUnit / dhcpsCoarseTimerSecs

/-- Insert a lease of `client` for the sender of `m` and move the cursor behind
it (dhcpserver.c:955–974). -/
def insertLease (s : Server) (m : Msg) (client : UInt32) : Server × Option ListNode :=
  let pool := memCalloc s.heap
  let node := memCalloc pool.2
  let pnode : ListNode := ⟨node.1, pool.1, ⟨client, m.chaddr, s.dhcps.leaseTimer⟩⟩
  let plus := if client = s.dhcps.dhcpsPoll.endIp then s.dhcps.dhcpsPoll.startIp
    else nextAddress client
  ({ dhcps := { s.dhcps with
        plist := nodeInsertToList pnode s.dhcps.plist,
        clientAddress := client,
        clientAddressPlus := plus },
     heap := node.2 }, some pnode)

/-- The variables before the search (dhcpserver.c:905–911): both the client's
address and the cursor are at `client_address_plus`, and `first_address` is at the
start of the pool. -/
def DhcpsT.startSearch (d : DhcpsT) : Search :=
  ⟨d.clientAddressPlus, d.clientAddressPlus, d.dhcpsPoll.startIp, false, false⟩

/-- The handle after the search. -/
def DhcpsT.searched (d : DhcpsT) (s : Search) (plist : List ListNode) : DhcpsT :=
  { d with clientAddress := s.clientAddress, clientAddressPlus := s.clientAddressPlus,
           renew := s.renew, plist := plist }

/-- The address for a client without a lease (dhcpserver.c:939–945), after a search
that found `firstAddress`. -/
def DhcpsT.newClient (d : DhcpsT) (firstAddress : UInt32) : UInt32 :=
  let client := if d.plist.isEmpty then d.dhcpsPoll.startIp else d.clientAddress
  if d.dhcpsPoll.endIp < d.clientAddressPlus then firstAddress else client

/-- `parse_msg` up to the label `POOL_CHECK` (dhcpserver.c:905–974): the client's
address and its node, if it has one. -/
def selectAddress (s : Server) (m : Msg) : Server × Option ListNode :=
  match searchPool m s.dhcps.leaseTimer s.dhcps.startSearch s.dhcps.plist with
  | (r, plist, some pnode) => ({ s with dhcps := s.dhcps.searched r plist }, some pnode)
  | (r, plist, none) =>
    let d := s.dhcps.searched r plist
    let client := d.newClient r.firstAddress
    if d.dhcpsPoll.endIp < client then
      ({ s with dhcps := { d with clientAddress := client,
                                  clientAddressPlus := d.dhcpsPoll.startIp } }, none)
    else insertLease { s with dhcps := d } m client

/-- Unlink and free the client's node, if it has one. -/
def releaseLease (s : Server) : Option ListNode → Server
  | none => s
  | some pnode =>
    { dhcps := { s.dhcps with plist := nodeRemoveFromList pnode.self s.dhcps.plist },
      heap := (s.heap.free pnode.self).free pnode.pnode }

/-- `parse_msg` (dhcpserver.c:889–1014); `len` is a `u16_t`, passed on as an
`s16_t`. -/
def parseMsg (s : Server) (m : Msg) (len : UInt16) : Server × ReplyState :=
  if m.word Msg.options = magicCookie then
    let r := selectAddress s m
    let client := r.1.dhcps.clientAddress
    if r.1.dhcps.dhcpsPoll.endIp < client ∨ client = 0 then
      (releaseLease r.1 r.2, .nak)
    else
      let ret := parseOptions r.1.dhcps m len.toInt16.toInt
      if ret = .release ∨ ret = .nak then
        let s := releaseLease r.1 r.2
        ({ s with dhcps := { s.dhcps with clientAddress := 0 } }, ret)
      else (r.1, ret)
  else (s, .none)

/-! ## Replies -/

/-- The header of the reply and its options up to and including `END`. -/
structure Reply where
  op : UInt8
  htype : UInt8
  hlen : UInt8
  hops : UInt8
  xid : UInt32
  secs : UInt16
  flags : UInt16
  ciaddr : UInt32
  yiaddr : UInt32
  siaddr : UInt32
  giaddr : UInt32
  chaddr : Mac
  options : List UInt8

/-- `create_msg` (dhcpserver.c:491–526): `m` is overwritten by the reply; `xid`
and `chaddr` stay. `flags` is `htons(BOOTP_BROADCAST)`. -/
def createMsg (d : DhcpsT) (m : Msg) : Reply where
  op := 2
  htype := 1
  hlen := 6
  hops := 0
  xid := m.xid
  secs := 0
  flags := 0x0080
  ciaddr := 0
  yiaddr := d.clientAddress
  siaddr := 0
  giaddr := 0
  chaddr := m.chaddr
  options := wordBytes magicCookie

/-- `add_msg_type` -/
def addMsgType (type : UInt8) : List UInt8 := [dhcpOptionMsgType, 1, type]

/-- The bytes `(w >> 24) & 0xFF` to `(w >> 0) & 0xFF`. -/
def bigEndianBytes (w : UInt32) : List UInt8 :=
  [.ofNat (w.toNat / 2 ^ 24), .ofNat (w.toNat / 2 ^ 16), .ofNat (w.toNat / 2 ^ 8),
    .ofNat w.toNat]

/-- An option that holds an address. -/
def addressOption (code : UInt8) (addr : UInt32) : List UInt8 :=
  [code, 4] ++ wordBytes addr

/-- `add_offer_options` (dhcpserver.c:382–464); `gw` is the gateway that
`get_ip_info` reads, 0 when the interface is down. -/
def addOfferOptions (d : DhcpsT) (gw : UInt32) : List UInt8 :=
  addressOption dhcpOptionSubnetMask d.dhcpsMask ++
  [dhcpOptionLeaseTime, 4] ++ bigEndianBytes (d.dhcpsLeaseTime * dhcpsLeaseUnit) ++
  addressOption dhcpOptionServerId d.serverAddress ++
  (if d.dhcpsOffer &&& 1 ≠ 0 ∧ gw ≠ 0 then addressOption dhcpOptionRouter gw else []) ++
  addressOption dhcpOptionDnsServer
    (if d.dhcpsDns &&& 2 ≠ 0 then d.dnsServer else d.serverAddress) ++
  addressOption dhcpOptionBroadcastAddress
    ((d.serverAddress &&& d.dhcpsMask) ||| ~~~d.dhcpsMask) ++
  [dhcpOptionInterfaceMtu, 2, 0x05, 0xdc] ++
  [dhcpOptionPerformRouterDiscovery, 1, 0x00] ++
  [43, 6, 0x01, 4, 0x00, 0x00, 0x00, 0x02]

/-- What is sent back: the message type of the reply and the message. -/
structure Sent where
  type : UInt8
  msg : Reply

/-- `send_offer`, `send_ack` and `send_nak` share this; only a NAK carries no
offer options. -/
def sendReply (d : DhcpsT) (m : Msg) (gw : UInt32) (type : UInt8) (offer : Bool) : Sent :=
  let msg := createMsg d m
  ⟨type, { msg with options := msg.options ++ addMsgType type ++
    (if offer then addOfferOptions d gw else []) ++ [dhcpOptionEnd] }⟩

/-- `send_offer` (dhcpserver.c:549–616) -/
def sendOffer (d : DhcpsT) (m : Msg) (gw : UInt32) : Sent := sendReply d m gw dhcpOffer true

/-- `send_ack` (dhcpserver.c:704–776) -/
def sendAck (d : DhcpsT) (m : Msg) (gw : UInt32) : Sent := sendReply d m gw dhcpAck true

/-- `send_nak` (dhcpserver.c:628–693) -/
def sendNak (d : DhcpsT) (m : Msg) (gw : UInt32) : Sent := sendReply d m gw dhcpNak false

/-! ## `handle_dhcp` -/

/-- A received datagram: the payloads of its pbuf chain, the bytes behind the
buffer it is copied to, and the gateway of the interface at that moment. -/
structure Datagram where
  first : List UInt8
  rest : List (List UInt8)
  beyond : Msg
  gw : UInt32

namespace Datagram

/-- `p->tot_len`, a `u16_t`. -/
def totLen (g : Datagram) : UInt16 := .ofNat (g.first ++ g.rest.flatten).length

/-- What `handle_dhcp` copies: the first pbuf and the one after it. -/
def copied (g : Datagram) : List UInt8 := g.first ++ g.rest.headD []

/-- `malloc_len`, an `s16_t`. -/
def mallocLen (g : Datagram) : Int :=
  if sizeofDhcpsMsg < g.totLen.toNat then g.totLen.toInt16.toInt else sizeofDhcpsMsg

/-- `pmsg_dhcps` after the copy: zeroed by `mem_calloc` where nothing was copied. -/
def msg (g : Datagram) : Msg := fun i =>
  if h : i < g.copied.length then g.copied[i]
  else if (i : Int) < g.mallocLen then 0
  else g.beyond i

/-- `tlen - 240`, passed as a `u16_t`. -/
def len (g : Datagram) : UInt16 :=
  .ofInt (g.totLen.toInt16.toInt - 240)

end Datagram

/-- `handle_dhcp` (dhcpserver.c:1026–1147). -/
def handleDhcp (s : Server) (g : Datagram) : Server × Option Sent :=
  let r := parseMsg s g.msg g.len
  (r.1, match r.2 with
    | .offer => some (sendOffer r.1.dhcps g.msg g.gw)
    | .ack => some (sendAck r.1.dhcps g.msg g.gw)
    | .nak => some (sendNak r.1.dhcps g.msg g.gw)
    | _ => none)

/-! ## `dhcps_poll_set` -/

/-- The checks on a configured pool (dhcpserver.c:1163–1182): it does not contain
the server, it is in the server's block of 256 addresses, and it is not too
large. -/
def pollAccepted (poll : DhcpsLease) (ip : UInt32) : Bool :=
  let serverIp := byteSwap ip
  let startIp := byteSwap poll.startIp
  let endIp := byteSwap poll.endIp
  poll.enable &&
    !(decide (startIp ≤ serverIp) && decide (serverIp ≤ endIp)) &&
    !(decide (startIp >>> 8 ≠ serverIp >>> 8) || decide (endIp >>> 8 ≠ serverIp >>> 8) ||
      decide (dhcpsMaxLease < endIp - startIp))

/-- The automatically computed pool (dhcpserver.c:1184–1204). -/
def autoPoll (mask ip : UInt32) : DhcpsLease :=
  let serverIp := byteSwap ip &&& 0xFFFFFF00
  let localIp := byteSwap ip &&& 0xFF
  let tempLocalIp := if 0x80 ≤ localIp then localIp - dhcpsMaxLease else localIp
  let localIp' := if 0x80 ≤ localIp then localIp - dhcpsMaxLease else localIp + 1
  let hostNum := 0xffffffff &&& ~~~(byteSwap mask)
  let hostNum := if dhcpsMaxLease < hostNum then dhcpsMaxLease else hostNum
  { enable := false,
    startIp := byteSwap (serverIp ||| localIp'),
    endIp := byteSwap (serverIp ||| (tempLocalIp + hostNum - 1)) }

/-- `dhcps_poll_set` (dhcpserver.c:1155–1205) -/
def dhcpsPollSet (d : DhcpsT) (ip : UInt32) : DhcpsT :=
  if pollAccepted d.dhcpsPoll ip then d
  else { d with dhcpsPoll := autoPoll d.dhcpsMask ip }

/-! ## The life of a handle -/

/-- Calls into lwIP, and the release of the handle. -/
inductive Effect where
  | udpNew (pcb : PcbPtr)
  | udpRemove (pcb : PcbPtr)
  | udpRecv (pcb : PcbPtr)
  | sysTimeout
  | sysUntimeout
  | freeHandle
deriving DecidableEq, Repr

/-- `IS_INVALID_SUBNET_MASK` -/
def isInvalidSubnetMask (x : UInt32) : Bool := decide (((x - 1) ||| x) ≠ 0xFFFFFFFF)

/-- `dhcps_start` (dhcpserver.c:1232–1265) with the result of `udp_new`. `ok` is
`ERR_OK`, otherwise the call returns `ERR_ARG`. -/
def dhcpsStart (s : Server) (netif : Option NetifPtr) (ip : UInt32) (udpNew : Option PcbPtr) :
    Server × Bool × List Effect :=
  match netif with
  | none => (s, false, [])
  | some netif =>
    let removed := (s.dhcps.dhcpsPcb.map Effect.udpRemove).toList
    let d := { s.dhcps with dhcpsNetif := some netif, dhcpsPcb := udpNew }
    let created := (udpNew.map Effect.udpNew).toList
    match udpNew with
    | none => ({ s with dhcps := d }, false, removed)
    | some pcb =>
      if ip = 0 then ({ s with dhcps := d }, false, removed ++ created)
      else
        let d := { d with broadcastDhcps := ip4 255 255 255 255, serverAddress := ip }
        if isInvalidSubnetMask (byteSwap d.dhcpsMask) then
          ({ s with dhcps := d }, false, removed ++ created)
        else
          let d := dhcpsPollSet d d.serverAddress
          let d := { d with clientAddressPlus := d.dhcpsPoll.startIp, state := .started }
          ({ s with dhcps := d }, true, removed ++ created ++ [.udpRecv pcb, .sysTimeout])

/-- `dhcps_stop` (dhcpserver.c:1273–1304) -/
def dhcpsStop (s : Server) (netif : Option NetifPtr) : Server × Bool × List Effect :=
  if netif = none ∨ s.dhcps.dhcpsNetif ≠ netif then (s, false, [])
  else
    let removed := (s.dhcps.dhcpsPcb.map Effect.udpRemove).toList
    ({ dhcps := { s.dhcps with dhcpsPcb := none, plist := [], state := .stopped },
       heap := s.heap.freeAll (s.dhcps.plist.flatMap ListNode.blocks) },
      true, removed ++ [.sysUntimeout])

/-- `dhcps_delete` (dhcpserver.c:155–168) -/
def dhcpsDelete (s : Server) : Server × List Effect :=
  if s.dhcps.state = .started then
    ({ s with dhcps := { s.dhcps with state := .deletePending } }, [])
  else (s, [.freeHandle])

/-- `dhcps_tmr` (dhcpserver.c:1349–1389); `num_dhcps_pool` is a `u8_t`. -/
def dhcpsTmr (s : Server) : Server × List Effect :=
  if s.dhcps.state = .deletePending then (s, [.freeHandle])
  else if s.dhcps.state ≠ .started then (s, [])
  else
    let r := expireLeases s.dhcps.plist
    let heap := s.heap.freeAll r.2
    if maxStationNum < r.1.length % 256 then
      let k := killOldestDhcpsPool r.1
      ({ dhcps := { s.dhcps with plist := k.1 }, heap := heap.freeAll k.2 }, [.sysTimeout])
    else ({ dhcps := { s.dhcps with plist := r.1 }, heap := heap }, [.sysTimeout])

end PicoHost.Dhcps
