import PicoHost.Dhcps.Server

/-!
# Well-formed options

`parse_options` reads its options from memory, byte by byte. This file says what
it reads when the memory holds a list of tag-length-value options ended by `END`
(`optionLoop_bytes`), and that the fuel of `optionLoop` is enough for its loop
whatever the memory holds (`optionLoop_of_le`).
-/

namespace PicoHost.Dhcps

/-! ## Memory contents -/

/-- From offset `p` on, memory holds these bytes. -/
def Holds (m : Msg) : Nat → List UInt8 → Prop
  | _, [] => True
  | p, b :: bytes => m p = b ∧ Holds m (p + 1) bytes

/-- Memory that holds two pieces, one behind the other -/
theorem holds_append {m : Msg} {p : Nat} {bytes bytes' : List UInt8} :
    Holds m p (bytes ++ bytes') ↔ Holds m p bytes ∧ Holds m (p + bytes.length) bytes' := by
  induction bytes generalizing p with
  | nil => exact ⟨fun h => ⟨trivial, h⟩, fun h => h.2⟩
  | cons b bytes ih =>
    rw [List.cons_append, Holds, Holds, ih, List.length_cons, and_assoc]
    have hp : p + 1 + bytes.length = p + (bytes.length + 1) := by omega
    rw [hp]

/-- Memory holds a piece if it does so byte by byte. -/
theorem holds_iff_getElem {m : Msg} {bytes : List UInt8} {p : Nat} :
    Holds m p bytes ↔ ∀ i (hi : i < bytes.length), m (p + i) = bytes[i] := by
  induction bytes generalizing p with
  | nil => exact ⟨fun _ i hi => absurd hi (Nat.not_lt_zero i), fun _ => trivial⟩
  | cons b bytes ih =>
    rw [Holds, ih]
    constructor
    · rintro ⟨hb, hrest⟩ i hi
      cases i with
      | zero => exact hb
      | succ i =>
        rw [List.getElem_cons_succ, ← hrest i (Nat.lt_of_succ_lt_succ hi), Nat.add_assoc,
          Nat.add_comm 1]
    · intro h
      refine ⟨h 0 (Nat.zero_lt_succ _), fun i hi => ?_⟩
      have hs := h (i + 1) (Nat.succ_lt_succ hi)
      rwa [List.getElem_cons_succ, Nat.add_comm i, ← Nat.add_assoc] at hs

/-- A word in memory is given by its four bytes. -/
theorem word_of_holds {m : Msg} {p : Nat} {w : UInt32} (h : Holds m p (wordBytes w)) :
    m.word p = w := by
  obtain ⟨h0, h1, h2, h3, -⟩ := h
  have hlt := w.toNat_lt
  apply UInt32.toNat_inj.mp
  rw [Msg.word, h0, h1, show p + 2 = p + 1 + 1 from rfl, h2, show p + 3 = p + 1 + 1 + 1 from rfl,
    h3, UInt32.toNat_ofNat']
  simp only [UInt8.toNat_ofNat']
  omega

/-- The message begins with what was copied from the pbufs. -/
theorem Datagram.msg_holds (g : Datagram) : Holds g.msg 0 g.copied := by
  refine holds_iff_getElem.mpr fun i hi => ?_
  rw [Nat.zero_add, Datagram.msg, dif_pos hi]

/-! ## The option loop -/

/-- A tag-length-value option. -/
structure Tlv where
  code : UInt8
  value : List UInt8
deriving DecidableEq, Repr

namespace Tlv

def bytes (o : Tlv) : List UInt8 := o.code :: .ofNat o.value.length :: o.value

/-- Neither `PAD` nor `END`, and the length fits its byte. -/
structure Ok (o : Tlv) : Prop where
  pad : o.code ≠ 0
  notEnd : o.code ≠ dhcpOptionEnd
  length : o.value.length < 256

/-- Code and length come in front of the value. -/
theorem bytes_length (o : Tlv) : o.bytes.length = o.value.length + 2 := rfl

end Tlv

/-- The loop takes at most `stop - optptr` turns, so more fuel changes nothing. -/
theorem optionLoop_of_le (client : UInt32) (m : Msg) (stop : Nat) {fuel optptr : Nat}
    (type : UInt8) (state : ReplyState) (h : stop - optptr ≤ fuel) :
    optionLoop client m stop fuel optptr type state =
      optionLoop client m stop (stop - optptr) optptr type state := by
  generalize hn : stop - optptr = n at h ⊢
  induction n using Nat.strongRecOn generalizing fuel optptr type state with
  | ind n ih =>
    cases n with
    | zero =>
      cases fuel with
      | zero => rfl
      | succ fuel => rw [optionLoop, optionLoop, if_neg (by omega)]
    | succ n =>
      cases fuel with
      | zero => omega
      | succ fuel =>
        rw [optionLoop, optionLoop]
        split
        · split
          · rfl
          · -- both loops go on from the next option, with fuel to spare
            dsimp only
            generalize hq : optptr + (m (optptr + 1)).toNat + 2 = q
            rw [@ih (stop - q) (by omega) fuel q _ _ rfl (by omega),
              @ih (stop - q) (by omega) n q _ _ rfl (by omega)]
        · rfl

/-- Another code in the list does not matter. -/
theorem mem_cons_iff_of_ne {b c : UInt8} (h : b ≠ c) (codes : List UInt8) :
    c ∈ b :: codes ↔ c ∈ codes := by
  rw [List.mem_cons, or_iff_right (Ne.symm h)]

/-- The loop over well-formed options. `type` and `state` keep their values when
no option sets them. -/
theorem optionLoop_bytes {m : Msg} {client a : UInt32} {t : UInt8} {opts : List Tlv}
    {stop fuel p : Nat} {type : UInt8} {state : ReplyState} (hok : ∀ o ∈ opts, o.Ok)
    (htype : ∀ o ∈ opts, o.code = dhcpOptionMsgType → o.value = [t])
    (haddr : ∀ o ∈ opts, o.code = dhcpOptionReqIpaddr → o.value = wordBytes a)
    (hm : Holds m p (opts.flatMap Tlv.bytes ++ [dhcpOptionEnd]))
    (hstop : p + (opts.flatMap Tlv.bytes).length < stop) (hfuel : opts.length < fuel) :
    optionLoop client m stop fuel p type state =
      (if dhcpOptionMsgType ∈ opts.map Tlv.code then t else type,
        if dhcpOptionReqIpaddr ∈ opts.map Tlv.code then
          if a = client then .ack else .nak
        else state) := by
  induction opts generalizing p fuel type state with
  | nil =>
    cases fuel with
    | zero => exact absurd hfuel (Nat.not_lt_zero _)
    | succ fuel =>
      rw [optionLoop, if_pos (by simpa using hstop), if_pos hm.1]
      rfl
  | cons o opts ih =>
    cases fuel with
    | zero => exact absurd hfuel (Nat.not_lt_zero _)
    | succ fuel =>
      rw [List.flatMap_cons, List.append_assoc, holds_append] at hm
      rw [List.flatMap_cons, List.length_append, Tlv.bytes_length] at hstop
      obtain ⟨ho, hm⟩ := hm
      obtain ⟨hcode, hlen, hvalue⟩ := ho
      have hok' := hok o (List.mem_cons_self ..)
      have hlen' : (m (p + 1)).toNat = o.value.length := by
        rw [hlen, UInt8.toNat_ofNat']
        exact Nat.mod_eq_of_lt hok'.length
      rw [Tlv.bytes_length] at hm
      have hnext : p + (m (p + 1)).toNat + 2 = p + (o.value.length + 2) := by omega
      have hrest := fun type state => @ih fuel (p + (o.value.length + 2)) type state
        (fun x hx => hok x (List.mem_cons_of_mem o hx))
        (fun x hx => htype x (List.mem_cons_of_mem o hx))
        (fun x hx => haddr x (List.mem_cons_of_mem o hx)) hm (by omega)
        (Nat.lt_of_succ_lt_succ hfuel)
      have hend : ¬ m p = dhcpOptionEnd := by
        rw [hcode]
        exact hok'.notEnd
      rw [optionLoop, if_pos (by omega), if_neg hend]
      dsimp only
      rw [hnext, hrest, hcode, List.map_cons]
      refine Prod.ext ?_ ?_
      · show (if _ ∈ _ then t else if o.code = _ then m (p + 2) else type) = _
        by_cases h : o.code = dhcpOptionMsgType
        · have hv : m (p + 2) = t := by
            rw [htype o (List.mem_cons_self ..) h] at hvalue
            exact hvalue.1
          have hmem : dhcpOptionMsgType ∈ o.code :: opts.map Tlv.code :=
            h ▸ List.mem_cons_self ..
          rw [if_pos h, hv, ite_self]
          exact (if_pos hmem).symm
        · rw [if_neg h]
          simp only [mem_cons_iff_of_ne h]
      · show (if _ ∈ _ then _ else if o.code = _ then
            (if m.word (p + 2) = client then ReplyState.ack else .nak) else state) = _
        by_cases h : o.code = dhcpOptionReqIpaddr
        · have hv : m.word (p + 2) = a := by
            rw [haddr o (List.mem_cons_self ..) h] at hvalue
            exact word_of_holds hvalue
          have hmem : dhcpOptionReqIpaddr ∈ o.code :: opts.map Tlv.code :=
            h ▸ List.mem_cons_self ..
          rw [if_pos h, hv, ite_self]
          exact (if_pos hmem).symm
        · rw [if_neg h]
          simp only [mem_cons_iff_of_ne h]

/-! ## Datagrams with well-formed options -/

/-- A datagram of less than 32768 bytes in at most two pbufs that carries these
options, ended by `END`. What follows `END` is not read. -/
structure Datagram.Carries (g : Datagram) (opts : List Tlv) : Prop where
  pbufs : g.rest.length ≤ 1
  small : (g.first ++ g.rest.flatten).length < 32768
  body : ∃ header trail, header.length = Msg.options ∧
    g.first ++ g.rest.flatten = header ++ (wordBytes magicCookie ++
      (opts.flatMap Tlv.bytes ++ dhcpOptionEnd :: trail))
  options : ∀ o ∈ opts, o.Ok

section Carries

variable {g : Datagram} {opts : List Tlv}

/-- Two pbufs are copied whole. -/
theorem Datagram.copied_eq (h : g.rest.length ≤ 1) : g.copied = g.first ++ g.rest.flatten := by
  unfold copied
  cases hr : g.rest with
  | nil => rfl
  | cons p ps =>
    rw [hr] at h
    have hps : ps = [] := List.eq_nil_of_length_eq_zero (by simpa using h)
    rw [hps]
    simp

/-- Memory holds the cookie and, behind it, the options. -/
theorem Datagram.Carries.holds (h : g.Carries opts) :
    Holds g.msg Msg.options (wordBytes magicCookie) ∧
      Holds g.msg (Msg.options + 4) (opts.flatMap Tlv.bytes ++ [dhcpOptionEnd]) := by
  obtain ⟨header, trail, hlen, hbody⟩ := h.body
  have hm := g.msg_holds
  rw [copied_eq h.pbufs, hbody, holds_append, holds_append, Nat.zero_add, hlen] at hm
  obtain ⟨-, hcookie, hopts⟩ := hm
  refine ⟨hcookie, ?_⟩
  have hsplit : opts.flatMap Tlv.bytes ++ dhcpOptionEnd :: trail =
      opts.flatMap Tlv.bytes ++ [dhcpOptionEnd] ++ trail := by simp
  rw [hsplit] at hopts
  exact (holds_append.mp hopts).1

/-- A length below 2^15 is the same as `s16_t`. -/
theorem toInt16_toInt {x : UInt16} (h : x.toNat < 2 ^ 15) : x.toInt16.toInt = x.toNat := by
  have h' : 2 * x.toBitVec.toNat < 2 ^ 16 := by
    rw [UInt16.toNat_toBitVec]
    omega
  exact BitVec.toInt_eq_toNat_of_lt h'

/-- The datagram is longer than its header and options. -/
theorem Datagram.Carries.length (h : g.Carries opts) :
    240 + (opts.flatMap Tlv.bytes).length < (g.first ++ g.rest.flatten).length := by
  obtain ⟨header, trail, hlen, hbody⟩ := h.body
  rw [hbody, List.length_append, List.length_append, List.length_append, hlen,
    List.length_cons]
  show _ < 236 + (4 + _)
  omega

/-- The length passed to `parse_options`. -/
theorem Datagram.Carries.len (h : g.Carries opts) :
    g.len.toInt16.toInt = ((g.first ++ g.rest.flatten).length - 240 : Nat) := by
  have hsmall := h.small
  have hge := h.length
  unfold Datagram.len Datagram.totLen
  generalize (g.first ++ g.rest.flatten).length = n at hsmall hge ⊢
  have htot : (UInt16.ofNat n).toNat = n := by
    rw [UInt16.toNat_ofNat']
    exact Nat.mod_eq_of_lt (by omega)
  have hsub : (UInt16.ofInt ((n : Int) - 240)).toNat = n - 240 := by
    rw [UInt16.ofInt, UInt16.toNat_ofNat']
    omega
  have htot' : (UInt16.ofNat n).toInt16.toInt = n := by
    rw [toInt16_toInt (by omega), htot]
  rw [htot', toInt16_toInt (by omega), hsub]

/-- Every option has at least one byte. -/
theorem length_le_bytes (opts : List Tlv) : opts.length ≤ (opts.flatMap Tlv.bytes).length := by
  induction opts with
  | nil => exact Nat.le_refl _
  | cons o opts ih =>
    rw [List.flatMap_cons, List.length_append, Tlv.bytes_length, List.length_cons]
    omega

/-- What the loop of `parse_options` finds. -/
theorem optionLoop_carries {t : UInt8} {a : UInt32} (d : DhcpsT) (h : g.Carries opts)
    (htype : ∀ o ∈ opts, o.code = dhcpOptionMsgType → o.value = [t])
    (haddr : ∀ o ∈ opts, o.code = dhcpOptionReqIpaddr → o.value = wordBytes a) :
    optionLoop d.clientAddress g.msg (Msg.options + 4 + g.len.toInt16.toInt.toNat)
        (Msg.options + 4 + g.len.toInt16.toInt.toNat - (Msg.options + 4)) (Msg.options + 4) 0
        .idle =
      (if dhcpOptionMsgType ∈ opts.map Tlv.code then t else 0,
        if dhcpOptionReqIpaddr ∈ opts.map Tlv.code then
          if a = d.clientAddress then .ack else .nak
        else .idle) := by
  have hlen := h.length
  have hle := length_le_bytes opts
  refine optionLoop_bytes h.options htype haddr h.holds.2 ?_ ?_
  · rw [h.len, Int.toNat_natCast, Msg.options]
    omega
  · rw [h.len, Int.toNat_natCast]
    omega

/-- The options are those of a DHCPREQUEST for the address `a`. -/
structure Datagram.IsRequest (g : Datagram) (a : UInt32) (opts : List Tlv) : Prop
    extends g.Carries opts where
  hasType : dhcpOptionMsgType ∈ opts.map Tlv.code
  type : ∀ o ∈ opts, o.code = dhcpOptionMsgType → o.value = [dhcpRequest]
  hasIp : dhcpOptionReqIpaddr ∈ opts.map Tlv.code
  ip : ∀ o ∈ opts, o.code = dhcpOptionReqIpaddr → o.value = wordBytes a

/-- A request is acknowledged exactly when its address is the client's. -/
theorem parseOptions_request {a : UInt32} (d : DhcpsT) (h : g.IsRequest a opts) :
    parseOptions d g.msg g.len.toInt16.toInt =
      if a = d.clientAddress then .ack else .nak := by
  have hloop := optionLoop_carries d h.toCarries h.type h.ip
  rw [if_pos h.hasType, if_pos h.hasIp] at hloop
  have hne : ¬ dhcpRequest = dhcpDiscover := by decide
  unfold parseOptions
  dsimp only
  rw [hloop, if_neg hne, if_pos rfl]
  dsimp only
  by_cases ha : a = d.clientAddress
  · rw [if_pos ha, if_pos (.inl rfl)]
  · rw [if_neg ha, if_pos (.inr rfl)]

end Carries

/-! ## Messages of a client -/

/-- A client's message in one pbuf, of which only `chaddr`, the cookie and the
options are set. -/
def clientDatagram (mac : Mac) (opts : List Tlv) : Datagram where
  first := List.replicate 28 0 ++ List.ofFn mac ++ List.replicate 202 0 ++
    (wordBytes magicCookie ++ (opts.flatMap Tlv.bytes ++ [dhcpOptionEnd]))
  rest := []
  beyond := fun _ => 0
  gw := 0

def discover (mac : Mac) : Datagram := clientDatagram mac [⟨dhcpOptionMsgType, [dhcpDiscover]⟩]

def request (mac : Mac) (a : UInt32) : Datagram :=
  clientDatagram mac
    [⟨dhcpOptionMsgType, [dhcpRequest]⟩, ⟨dhcpOptionReqIpaddr, wordBytes a⟩]

/-- A datagram built from options carries them. -/
theorem clientDatagram_carries {mac : Mac} {opts : List Tlv} (hok : ∀ o ∈ opts, o.Ok)
    (hsmall : (opts.flatMap Tlv.bytes).length < 32000) : (clientDatagram mac opts).Carries opts where
  pbufs := Nat.zero_le _
  small := by
    simp only [clientDatagram, List.length_append, List.length_replicate, List.length_ofFn]
    show 28 + 6 + 202 + (4 + (_ + 1)) + 0 < 32768
    omega
  body := ⟨List.replicate 28 0 ++ List.ofFn mac ++ List.replicate 202 0, [], by
    simp only [List.length_append, List.length_replicate, List.length_ofFn]
    rfl, List.append_nil _⟩
  options := hok

/-- A DISCOVER carries its message type. -/
theorem discover_carries (mac : Mac) :
    (discover mac).Carries [⟨dhcpOptionMsgType, [dhcpDiscover]⟩] := by
  refine clientDatagram_carries (fun o ho => ?_) (by decide)
  rw [List.mem_singleton.mp ho]
  exact ⟨by decide, by decide, by decide⟩

/-- A DISCOVER is answered with an OFFER. -/
theorem parseOptions_discover (d : DhcpsT) (mac : Mac) :
    parseOptions d (discover mac).msg (discover mac).len.toInt16.toInt = .offer := by
  have hloop := optionLoop_carries (t := dhcpDiscover) (a := 0) d (discover_carries mac)
    (fun o ho _ => by rw [List.mem_singleton.mp ho])
    (fun o ho hcode => by
      rw [List.mem_singleton.mp ho] at hcode
      cases hcode)
  unfold parseOptions
  dsimp only
  rw [hloop]
  rfl

/-- A REQUEST for an address is one. -/
theorem request_isRequest (mac : Mac) (a : UInt32) : (request mac a).IsRequest a
    [⟨dhcpOptionMsgType, [dhcpRequest]⟩, ⟨dhcpOptionReqIpaddr, wordBytes a⟩] := by
  refine ⟨clientDatagram_carries (fun o ho => ?_) (by show 3 + (6 + 0) < 32000; decide), ?_, ?_,
    ?_, ?_⟩
  · rcases List.mem_cons.mp ho with rfl | ho
    · exact ⟨by decide, by decide, by decide⟩
    · rw [List.mem_singleton.mp ho]
      exact ⟨show dhcpOptionReqIpaddr ≠ 0 by decide,
        show dhcpOptionReqIpaddr ≠ dhcpOptionEnd by decide, show 4 < 256 by decide⟩
  · exact List.mem_cons_self ..
  · intro o ho hcode
    rcases List.mem_cons.mp ho with rfl | ho
    · rfl
    · rw [List.mem_singleton.mp ho] at hcode
      cases hcode
  · exact List.mem_cons_of_mem _ (List.mem_cons_self ..)
  · intro o ho hcode
    rcases List.mem_cons.mp ho with rfl | ho
    · cases hcode
    · rw [List.mem_singleton.mp ho]

@[simp] theorem clientDatagram_chaddr (mac : Mac) (opts : List Tlv) :
    (clientDatagram mac opts).msg.chaddr = mac := by
  have hm := (clientDatagram mac opts).msg_holds
  rw [Datagram.copied_eq (Nat.zero_le _)] at hm
  have hm' : Holds (clientDatagram mac opts).msg 0 ((List.replicate 28 0 ++ List.ofFn mac ++
      List.replicate 202 0 ++ (wordBytes magicCookie ++
        (opts.flatMap Tlv.bytes ++ [dhcpOptionEnd]))) ++ []) := hm
  simp only [holds_append, List.length_replicate] at hm'
  have hmac := holds_iff_getElem.mp hm'.1.1.1.2
  funext i
  have hi := hmac i (by rw [List.length_ofFn]; exact i.isLt)
  rw [List.getElem_ofFn, Nat.zero_add] at hi
  exact hi

@[simp] theorem discover_chaddr (mac : Mac) : (discover mac).msg.chaddr = mac :=
  clientDatagram_chaddr mac _

@[simp] theorem request_chaddr (mac : Mac) (a : UInt32) : (request mac a).msg.chaddr = mac :=
  clientDatagram_chaddr mac _

end PicoHost.Dhcps
