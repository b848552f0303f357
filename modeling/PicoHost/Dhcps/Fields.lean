import PicoHost.Dhcps.Options

/-!
# Options fields

The options field of a message (RFC 2132) is a sequence of one-byte `PAD`s and
tag-length-value options, ended by `END`. `readOptions` reads one as the RFC says;
`readOptions_fields` is its round trip with the bytes of a well-formed field.

What the server sends is such a field (`readOptions_sendReply`).
-/

namespace PicoHost.Dhcps

/-! ## Well-formed fields -/

/-- `DHCP_OPTION_PAD` -/
def dhcpOptionPad : UInt8 := 0

/-- An item of an options field. -/
inductive Field where
  | pad
  | option (o : Tlv)
deriving DecidableEq, Repr

namespace Field

def bytes : Field → List UInt8
  | pad => [dhcpOptionPad]
  | option o => o.bytes

def Ok : Field → Prop
  | pad => True
  | option o => o.Ok

def tlv? : Field → Option Tlv
  | pad => none
  | option o => some o

end Field

/-- The options of a field, without the padding. -/
def optionsOf (fields : List Field) : List Tlv := fields.filterMap Field.tlv?

@[simp] theorem optionsOf_pad (fields : List Field) :
    optionsOf (.pad :: fields) = optionsOf fields := rfl

@[simp] theorem optionsOf_option (o : Tlv) (fields : List Field) :
    optionsOf (.option o :: fields) = o :: optionsOf fields := rfl

/-- The bytes of a field up to its `END`. -/
def fieldBytes (fields : List Field) : List UInt8 := fields.flatMap Field.bytes

@[simp] theorem fieldBytes_cons (f : Field) (fields : List Field) :
    fieldBytes (f :: fields) = f.bytes ++ fieldBytes fields := List.flatMap_cons

/-- Options without padding. -/
theorem fieldBytes_options (opts : List Tlv) :
    fieldBytes (opts.map .option) = opts.flatMap Tlv.bytes := List.flatMap_map ..

/-- A field of options only has those options. -/
theorem optionsOf_options (opts : List Tlv) : optionsOf (opts.map .option) = opts := by
  induction opts with
  | nil => rfl
  | cons o opts ih => rw [List.map_cons, optionsOf_option, ih]

/-! ## Reading a field -/

/-- The options of a field. `none`: it has no `END`, or an option is cut short. -/
def readOptions : List UInt8 → Option (List Tlv)
  | [] => none
  | [code] => if code = dhcpOptionEnd then some [] else none
  | code :: len :: rest =>
    if code = dhcpOptionPad then readOptions (len :: rest)
    else if code = dhcpOptionEnd then some []
    else if rest.length < len.toNat then none
    else (readOptions (rest.drop len.toNat)).map (⟨code, rest.take len.toNat⟩ :: ·)
termination_by bytes => bytes.length
decreasing_by
  · exact Nat.lt_succ_self _
  · rw [List.length_drop, List.length_cons, List.length_cons]
    omega

/-- An END ends the options. -/
theorem readOptions_end (trail : List UInt8) : readOptions (dhcpOptionEnd :: trail) = some [] := by
  have hpad : ¬ dhcpOptionEnd = dhcpOptionPad := by decide
  cases trail with
  | nil => rw [readOptions, if_pos rfl]
  | cons b trail => rw [readOptions, if_neg hpad, if_pos rfl]

/-- An option is read back, and then the rest. -/
theorem readOptions_option {o : Tlv} (h : o.Ok) (rest : List UInt8) :
    readOptions (o.bytes ++ rest) = (readOptions rest).map (o :: ·) := by
  have hlen : (UInt8.ofNat o.value.length).toNat = o.value.length := by
    rw [UInt8.toNat_ofNat']
    exact Nat.mod_eq_of_lt h.length
  have henough : ¬ (o.value ++ rest).length < o.value.length := by
    rw [List.length_append]
    omega
  have hpad : ¬ o.code = dhcpOptionPad := h.pad
  rw [Tlv.bytes, List.cons_append, List.cons_append, readOptions, if_neg hpad, if_neg h.notEnd,
    hlen, if_neg henough, List.take_left' rfl, List.drop_left' rfl]

/-- A PAD is skipped. -/
theorem readOptions_pad {rest : List UInt8} (h : rest ≠ []) :
    readOptions (dhcpOptionPad :: rest) = readOptions rest := by
  cases rest with
  | nil => exact absurd rfl h
  | cons b rest => rw [readOptions, if_pos rfl]

/-- A well-formed field reads as its options, whatever follows `END`. -/
theorem readOptions_fields {fields : List Field} (h : ∀ f ∈ fields, f.Ok) (trail : List UInt8) :
    readOptions (fieldBytes fields ++ dhcpOptionEnd :: trail) = some (optionsOf fields) := by
  induction fields with
  | nil => exact readOptions_end trail
  | cons f fields ih =>
    have ih := ih fun f hf => h f (List.mem_cons_of_mem _ hf)
    rw [fieldBytes_cons, List.append_assoc]
    cases f with
    | pad =>
      rw [Field.bytes, List.singleton_append, readOptions_pad (by simp), ih]
      rfl
    | option o =>
      have ho : o.Ok := h (.option o) (List.mem_cons_self ..)
      rw [Field.bytes, readOptions_option ho, ih]
      rfl

/-! ## Replies -/

/-- What `add_offer_options` writes. -/
def offerOptions (d : DhcpsT) (gw : UInt32) : List Tlv :=
  [⟨dhcpOptionSubnetMask, wordBytes d.dhcpsMask⟩,
    ⟨dhcpOptionLeaseTime, bigEndianBytes (d.dhcpsLeaseTime * dhcpsLeaseUnit)⟩,
    ⟨dhcpOptionServerId, wordBytes d.serverAddress⟩] ++
  (if d.dhcpsOffer &&& 1 ≠ 0 ∧ gw ≠ 0 then [⟨dhcpOptionRouter, wordBytes gw⟩] else []) ++
  [⟨dhcpOptionDnsServer,
      wordBytes (if d.dhcpsDns &&& 2 ≠ 0 then d.dnsServer else d.serverAddress)⟩,
    ⟨dhcpOptionBroadcastAddress,
      wordBytes ((d.serverAddress &&& d.dhcpsMask) ||| ~~~d.dhcpsMask)⟩,
    ⟨dhcpOptionInterfaceMtu, [0x05, 0xdc]⟩,
    ⟨dhcpOptionPerformRouterDiscovery, [0x00]⟩,
    ⟨43, [0x01, 4, 0x00, 0x00, 0x00, 0x02]⟩]

/-- The options of an offer are written one after the other. -/
theorem addOfferOptions_eq (d : DhcpsT) (gw : UInt32) :
    addOfferOptions d gw = (offerOptions d gw).flatMap Tlv.bytes := by
  unfold addOfferOptions offerOptions
  by_cases h : d.dhcpsOffer &&& 1 ≠ 0 ∧ gw ≠ 0
  · rw [if_pos h, if_pos h]
    rfl
  · rw [if_neg h, if_neg h]
    rfl

/-- What a reply says. -/
def replyOptions (d : DhcpsT) (gw : UInt32) (type : UInt8) (offer : Bool) : List Tlv :=
  ⟨dhcpOptionMsgType, [type]⟩ :: if offer then offerOptions d gw else []

@[simp] theorem wordBytes_length (w : UInt32) : (wordBytes w).length = 4 := rfl

@[simp] theorem bigEndianBytes_length (w : UInt32) : (bigEndianBytes w).length = 4 := rfl

/-- An option is well formed if its code is no PAD or END and its value fits the length byte. -/
theorem Tlv.Ok.of {code : UInt8} {value : List UInt8} (hpad : code ≠ 0)
    (hend : code ≠ dhcpOptionEnd) (hlen : value.length < 256) : Tlv.Ok ⟨code, value⟩ :=
  ⟨hpad, hend, hlen⟩

/-- The options of an offer are well formed. -/
theorem offerOptions_ok (d : DhcpsT) (gw : UInt32) : ∀ o ∈ offerOptions d gw, o.Ok := by
  unfold offerOptions
  simp only [List.forall_mem_append, List.forall_mem_cons]
  refine ⟨⟨⟨?_, ?_, ?_, nofun⟩, ?router⟩, ?_, ?_, ?_, ?_, ?_, nofun⟩
  case router =>
    intro o ho
    split at ho
    · rw [List.mem_singleton.mp ho]
      exact .of (by decide) (by decide) (by simp)
    · cases ho
  all_goals exact .of (by decide) (by decide) (by simp)

/-- The options of a reply are well formed. -/
theorem replyOptions_ok (d : DhcpsT) (gw : UInt32) (type : UInt8) (offer : Bool) :
    ∀ o ∈ replyOptions d gw type offer, o.Ok := by
  refine List.forall_mem_cons.mpr ⟨.of (by decide) (by decide) (by simp), ?_⟩
  cases offer with
  | false => exact nofun
  | true => exact offerOptions_ok d gw

/-- Every reply carries a well-formed field behind the cookie. -/
theorem readOptions_sendReply (d : DhcpsT) (m : Msg) (gw : UInt32) (type : UInt8)
    (offer : Bool) :
    readOptions ((sendReply d m gw type offer).msg.options.drop 4) =
      some (replyOptions d gw type offer) := by
  have hbytes : (sendReply d m gw type offer).msg.options.drop 4 =
      fieldBytes ((replyOptions d gw type offer).map .option) ++ [dhcpOptionEnd] := by
    rw [fieldBytes_options]
    cases offer with
    | false => rfl
    | true =>
      rw [replyOptions, if_pos rfl, List.flatMap_cons, ← addOfferOptions_eq]
      rfl
  rw [hbytes, readOptions_fields, optionsOf_options]
  intro f hf
  obtain ⟨o, ho, rfl⟩ := List.mem_map.mp hf
  exact replyOptions_ok d gw type offer o ho

end PicoHost.Dhcps
