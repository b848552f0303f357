import PicoHost.Dhcps.Countdown
import PicoHost.Dhcps.Fields
import PicoHost.Lib.Region

/-!
# Replies as bytes (`dhcpserver.c`)

`create_msg` writes the reply over the request, in the buffer that `handle_dhcp` has copied it to;
then the options are written, and the buffer is sent as far as its size goes. `hear` reads such a
message as a client does (RFC 2131). `hear_replyBytes`: what it reads is what `sendReply` says.

`handleDhcpOut` is `handle_dhcp` with these bytes and with what can fail on their way; it also says
when the callback for new leases is called.
-/

namespace PicoHost.Dhcps

open Region (load store storeAll Apart)

/-! ## What is written -/

/-- The writes of `create_msg` (dhcpserver.c:490–526) in their order: the offset of the field, and
what it is set to -/
def createMsgStores (d : DhcpsT) : List (Nat × List UInt8) :=
  [(0, [2]), -- op
    (1, [1]), -- htype
    (2, [6]), -- hlen
    (3, [0]), -- hops
    (8, [0, 0]), -- secs
    (10, [0x80, 0x00]), -- flags
    (16, wordBytes d.clientAddress), -- yiaddr
    (12, List.replicate 4 0), -- ciaddr
    (20, List.replicate 4 0), -- siaddr
    (24, List.replicate 4 0), -- giaddr
    (44, List.replicate 64 0), -- sname
    (108, List.replicate 128 0), -- file
    (Msg.options, List.replicate 312 0),
    (Msg.options, wordBytes magicCookie)]

/-- The options from the message type to `END`, as `send_offer`, `send_ack` and `send_nak` write
them behind the cookie -/
def optionBytes (d : DhcpsT) (gw : UInt32) (type : UInt8) (offer : Bool) : List UInt8 :=
  addMsgType type ++ (if offer then addOfferOptions d gw else []) ++ [dhcpOptionEnd]

/-- The buffer with the reply -/
def replyAt (d : DhcpsT) (m : Msg) (gw : UInt32) (type : UInt8) (offer : Bool) : Msg :=
  store (storeAll m (createMsgStores d)) (Msg.options + 4) (optionBytes d gw type offer)

/-- The size of the pbuf from `dhcps_pbuf_alloc` (dhcpserver.c:528–540) -/
def dhcpsPbufLen (len : UInt16) : Nat :=
  if sizeofDhcpsMsg < len.toNat then len.toNat else sizeofDhcpsMsg

/-- What is copied to the pbuf -/
def replyBytes (d : DhcpsT) (m : Msg) (gw : UInt32) (type : UInt8) (offer : Bool) (len : UInt16) :
    List UInt8 :=
  load (replyAt d m gw type offer) 0 (dhcpsPbufLen len)

/-! ## What a client reads -/

/-- What a client takes from a reply -/
structure Heard where
  xid : List UInt8
  yiaddr : List UInt8
  chaddr : List UInt8
  options : List Tlv
deriving DecidableEq, Repr

/-- The bytes of a field -/
def field (bytes : List UInt8) (off len : Nat) : List UInt8 := (bytes.drop off).take len

/-- A BOOTREPLY for an Ethernet address, with the cookie and well-formed options. -/
def hear (bytes : List UInt8) : Option Heard :=
  if field bytes 0 3 = [2, 1, 6] ∧ field bytes 236 4 = [99, 130, 83, 99] then
    (readOptions (bytes.drop 240)).map fun opts =>
      ⟨field bytes 4 4, field bytes 16 4, field bytes 28 16, opts⟩
  else none

/-! ## The reply is heard -/

variable {d : DhcpsT} {m : Msg} {gw : UInt32} {type : UInt8} {offer : Bool}

/-- The option field of a reply is its options and an END. -/
theorem optionBytes_eq : optionBytes d gw type offer =
    fieldBytes ((replyOptions d gw type offer).map .option) ++ [dhcpOptionEnd] := by
  rw [fieldBytes_options]
  cases offer with
  | false => rfl
  | true =>
    rw [replyOptions, if_pos rfl, List.flatMap_cons, ← addOfferOptions_eq]
    rfl

/-- The options have room behind the cookie. -/
theorem optionBytes_length : (optionBytes d gw type offer).length ≤ 308 := by
  cases offer with
  | false => exact Nat.le_of_ble_eq_true rfl
  | true =>
    -- the option for a router may be there
    have hrouter : (if d.dhcpsOffer &&& 1 ≠ 0 ∧ gw ≠ 0 then addressOption dhcpOptionRouter gw
        else []).length ≤ 6 := by
      split <;> simp [addressOption]
    simp only [optionBytes, addOfferOptions, addMsgType, if_true, List.length_append]
    simp [addressOption] at hrouter ⊢
    omega

/-- What `create_msg` leaves below the options stays when they are written. -/
theorem replyAt_header {p n : Nat} (h : p + n ≤ 240) :
    load (replyAt d m gw type offer) p n = load (storeAll m (createMsgStores d)) p n :=
  Region.load_store_of_apart (.inl h)

/-- The bytes that `create_msg` does not write are the client's. -/
theorem replyAt_kept {p n : Nat} (h : p + n ≤ 240)
    (hapart : ∀ s ∈ createMsgStores d, Apart p n s.1 s.2.length) :
    load (replyAt d m gw type offer) p n = load m p n :=
  (replyAt_header h).trans (Region.load_storeAll_of_apart hapart)

/-- The transaction id is the client's. -/
theorem replyAt_xid : load (replyAt d m gw type offer) 4 4 = load m 4 4 :=
  replyAt_kept (by decide) (by simp [createMsgStores, Apart, Msg.options, -List.reduceReplicate])

/-- The hardware address is the client's. -/
theorem replyAt_chaddr : load (replyAt d m gw type offer) 28 16 = load m 28 16 :=
  replyAt_kept (by decide) (by simp [createMsgStores, Apart, Msg.options, -List.reduceReplicate])

/-- The address is the one that was chosen. -/
theorem replyAt_yiaddr : load (replyAt d m gw type offer) 16 4 = wordBytes d.clientAddress := by
  refine (replyAt_header (by decide)).trans ?_
  refine Region.load_storeAll_last ((createMsgStores d).take 6) ?_
  simp [Apart, Msg.options, -List.reduceReplicate]

/-- The magic cookie stands in front of the options. -/
theorem replyAt_cookie : load (replyAt d m gw type offer) 236 4 = [99, 130, 83, 99] := by
  refine (replyAt_header (by decide)).trans ?_
  exact Region.load_storeAll_last ((createMsgStores d).take 13) nofun

/-- A reply to an Ethernet address -/
theorem replyAt_start : load (replyAt d m gw type offer) 0 3 = [2, 1, 6] := by
  rw [replyAt_header (by decide)]
  have hop : load (storeAll m (createMsgStores d)) 0 1 = [2] :=
    Region.load_storeAll_last [] (by simp [Apart, Msg.options, -List.reduceReplicate])
  have hhtype : load (storeAll m (createMsgStores d)) 1 1 = [1] :=
    Region.load_storeAll_last ((createMsgStores d).take 1)
      (by simp [Apart, Msg.options, -List.reduceReplicate])
  have hhlen : load (storeAll m (createMsgStores d)) 2 1 = [6] :=
    Region.load_storeAll_last ((createMsgStores d).take 2)
      (by simp [Apart, Msg.options, -List.reduceReplicate])
  rw [Region.load_append (n := 2) 1, Region.load_append (n := 1) 1, hop, hhtype, hhlen]
  rfl

/-- The options stand behind the cookie. -/
theorem replyAt_options : load (replyAt d m gw type offer) 240
    (optionBytes d gw type offer).length = optionBytes d gw type offer :=
  Region.load_store_self

/-- Whatever the size of the buffer is, the whole reply is sent, and read. -/
theorem hear_replyBytes (len : UInt16) : hear (replyBytes d m gw type offer len) =
    some ⟨load m 4 4, wordBytes d.clientAddress, load m 28 16, replyOptions d gw type offer⟩ := by
  have hroom : 548 ≤ dhcpsPbufLen len := by
    rw [dhcpsPbufLen]
    split
    · rename_i h
      exact Nat.le_of_lt h
    · exact Nat.le_refl _
  have hfield : ∀ off k, off + k ≤ 240 → field (replyBytes d m gw type offer len) off k =
      load (replyAt d m gw type offer) off k := by
    intro off k hk
    have hslice : field (replyBytes d m gw type offer len) off k =
        load (replyAt d m gw type offer) (0 + off) k :=
      Region.load_slice (Nat.le_trans hk (Nat.le_trans (by decide) hroom))
    rwa [Nat.zero_add] at hslice
  have hlength : (optionBytes d gw type offer).length ≤ 308 := optionBytes_length
  obtain ⟨k, hk⟩ := Nat.exists_eq_add_of_le
    (Nat.le_trans (Nat.add_le_add_left hlength 240) hroom)
  have hread : readOptions ((replyBytes d m gw type offer len).drop 240) =
      some (replyOptions d gw type offer) := by
    rw [replyBytes, hk, Nat.add_assoc, Region.load_append, List.drop_left' Region.load_length,
      Nat.zero_add, Region.load_append, replyAt_options, optionBytes_eq, List.append_assoc,
      List.singleton_append, readOptions_fields, optionsOf_options]
    intro f hf
    obtain ⟨o, ho, rfl⟩ := List.mem_map.mp hf
    exact replyOptions_ok d gw type offer o ho
  rw [hear, hread, hfield 0 3 (by decide), hfield 236 4 (by decide), hfield 4 4 (by decide),
    hfield 16 4 (by decide), hfield 28 16 (by decide), if_pos ⟨replyAt_start, replyAt_cookie⟩,
    replyAt_xid, replyAt_yiaddr, replyAt_chaddr]
  rfl

/-! ## `handle_dhcp` -/

/-- Whether `handle_dhcp` gets its buffer, the reply its pbuf, and whether `udp_sendto` is `ERR_OK` -/
structure ReplyEnv where
  calloc : Bool
  pbuf : Bool
  sendto : Bool

/-- What comes out of the server: a message to the broadcast address, and the call of `dhcps_cb` with
the address and the hardware address in it -/
inductive Out where
  | sent (bytes : List UInt8)
  | newLease (ip mac : List UInt8)
deriving DecidableEq, Repr

/-- `send_offer`, `send_ack` and `send_nak` (dhcpserver.c:547–776); only an ACK is followed by the
callback. -/
def sendOut (d : DhcpsT) (g : Datagram) (env : ReplyEnv) (type : UInt8) (offer : Bool) :
    List Out :=
  if env.pbuf && env.sendto then
    .sent (replyBytes d g.msg g.gw type offer (.ofInt g.mallocLen)) ::
      if type = dhcpAck then
        [.newLease (load (replyAt d g.msg g.gw type offer) 16 4)
          (load (replyAt d g.msg g.gw type offer) 28 6)]
      else []
  else []

/-- `handle_dhcp` (dhcpserver.c:1025–1147). A negative `malloc_len` is a size that no allocator
grants. -/
def handleDhcpOut (s : Server) (g : Datagram) (env : ReplyEnv) : Server × List Out :=
  if env.calloc && decide (0 ≤ g.mallocLen) then
    let r := parseMsg s g.msg g.len
    (r.1, match r.2 with
      | .offer => sendOut r.1.dhcps g env dhcpOffer true
      | .ack => sendOut r.1.dhcps g env dhcpAck true
      | .nak => sendOut r.1.dhcps g env dhcpNak false
      | _ => [])
  else (s, [])

/-- What a reply of this type says to the client that sent `m`. -/
def saying (d : DhcpsT) (m : Msg) (gw : UInt32) (type : UInt8) : Heard where
  xid := load m 4 4
  yiaddr := wordBytes d.clientAddress
  chaddr := load m 28 16
  options := replyOptions d gw type (decide (type ≠ dhcpNak))

/-- The callback after a reply of this type -/
def leaseOut (d : DhcpsT) (m : Msg) (type : UInt8) : List Out :=
  if type = dhcpAck then [.newLease (wordBytes d.clientAddress) (load m 28 6)] else []

/-- Nothing is sent, or one message that says what it should. -/
theorem sendOut_cases (d : DhcpsT) (g : Datagram) (env : ReplyEnv) (type : UInt8) (offer : Bool)
    (hoffer : offer = decide (type ≠ dhcpNak)) :
    sendOut d g env type offer = [] ∨ ∃ bytes,
      sendOut d g env type offer = .sent bytes :: leaseOut d g.msg type ∧
        hear bytes = some (saying d g.msg g.gw type) := by
  have hmac : load (replyAt d g.msg g.gw type offer) 28 6 = load g.msg 28 6 :=
    replyAt_kept (by decide) (by simp [createMsgStores, Apart, Msg.options, -List.reduceReplicate])
  rw [sendOut]
  split
  · refine .inr ⟨replyBytes d g.msg g.gw type offer (.ofInt g.mallocLen), ?_, ?_⟩
    · rw [leaseOut, replyAt_yiaddr, hmac]
    · rw [saying, ← hoffer]
      exact hear_replyBytes _
  · exact .inl rfl

/-- The client has a lease of the address, if the message grants one. -/
def Granted (s : Server) (m : Msg) (type : UInt8) : Prop :=
  type = dhcpOffer ∨ type = dhcpAck →
    ∃ p ∈ s.dhcps.plist, p.pool.mac = m.chaddr ∧ p.pool.ip = s.dhcps.clientAddress

/-- The address of an OFFER or ACK is leased to the client. -/
theorem granted_of_reply {s : Server} (h : Distinct s) {m : Msg} {len : UInt16}
    (hret : (parseMsg s m len).2 = .offer ∨ (parseMsg s m len).2 = .ack) :
    ∃ p ∈ (parseMsg s m len).1.dhcps.plist, p.pool.mac = m.chaddr ∧
      p.pool.ip = (parseMsg s m len).1.dhcps.clientAddress := by
  have hcookie : m.word Msg.options = magicCookie := by
    by_contra hm
    rw [parseMsg_of_ne s len hm] at hret
    rcases hret with hret | hret <;> cases hret
  rcases (parseMsg_lease h m len hcookie).2 with ⟨p, pre, post, hhas, -⟩ | ⟨-, hnot⟩
  · refine ⟨p, ?_, hhas.mac, hhas.ip⟩
    rw [hhas.plist]
    exact List.mem_append_right _ (List.mem_cons_self ..)
  · rcases hret with hret | hret <;> rcases hnot with hnot | hnot <;> cases hret.symm.trans hnot

/-- What one datagram does, and what comes of it -/
structure Answers (s s' : Server) (g : Datagram) (out : List Out) : Prop where
  distinct : Distinct s'
  config : SameConfig s s'
  out : out = [] ∨ ∃ type bytes, type ∈ [dhcpOffer, dhcpAck, dhcpNak] ∧
    out = .sent bytes :: leaseOut s'.dhcps g.msg type ∧
    hear bytes = some (saying s'.dhcps g.msg g.gw type) ∧ Granted s' g.msg type

/-- A datagram is answered with the message that its parsing asks for. -/
theorem handleDhcpOut_answers {s : Server} (h : Distinct s) (g : Datagram) (env : ReplyEnv) :
    Answers s (handleDhcpOut s g env).1 g (handleDhcpOut s g env).2 := by
  have hdistinct := handleDhcp_distinct h g
  rw [handleDhcp_fst] at hdistinct
  have hgranted := @granted_of_reply s h g.msg g.len
  rw [handleDhcpOut]
  split
  · have hconfig := parseMsg_config s g.msg g.len
    generalize parseMsg s g.msg g.len = r at *
    refine ⟨hdistinct, hconfig, ?_⟩
    dsimp only
    cases hret : r.2 with
    | offer =>
      rcases sendOut_cases r.1.dhcps g env dhcpOffer true rfl with
        hout | ⟨bytes, hout, hhear⟩
      · exact .inl hout
      · exact .inr ⟨dhcpOffer, bytes, by simp, hout, hhear, fun _ => hgranted (.inl hret)⟩
    | ack =>
      rcases sendOut_cases r.1.dhcps g env dhcpAck true rfl with
        hout | ⟨bytes, hout, hhear⟩
      · exact .inl hout
      · exact .inr ⟨dhcpAck, bytes, by simp, hout, hhear, fun _ => hgranted (.inr hret)⟩
    | nak =>
      rcases sendOut_cases r.1.dhcps g env dhcpNak false rfl with
        hout | ⟨bytes, hout, hhear⟩
      · exact .inl hout
      · refine .inr ⟨dhcpNak, bytes, by simp, hout, hhear, ?_⟩
        rintro (hoffer | hack)
        · cases hoffer
        · cases hack
    | none | decline | idle | release => exact .inl rfl
  · exact ⟨h, SameConfig.refl s, .inl rfl⟩

end PicoHost.Dhcps
