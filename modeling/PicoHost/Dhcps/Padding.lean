import PicoHost.Dhcps.Fields
import PicoHost.Lib.LastMatch

/-!
# Padded options fields

The option loop takes a `PAD` for an option: the byte behind it is its length. Two
`PAD`s in a row are an option without a value, so they are skipped as a pair, and a
single one in front of an option turns the code of that option into a length.
`parseOptions_padded_iff`: the reply is right for all fields with the same padding
exactly when the `PAD`s in front of each option are even in number.
-/

namespace PicoHost.Dhcps

/-! ## What the options ask for -/

/-- The value of the last option with this code. -/
def lastValue (code : UInt8) (opts : List Tlv) : Option (List UInt8) :=
  (LastMatch.splitLast (fun o => decide (o.code = code)) opts).map fun found => found.2.1.value

/-- What the last option 50 says about the client's address. -/
def addressState (client : UInt32) (opts : List Tlv) : ReplyState :=
  match lastValue dhcpOptionReqIpaddr opts with
  | none => .idle
  | some value => if value = wordBytes client then .ack else .nak

/-- The reply that the values of options 53 and 50 and the renew flag determine. -/
def optionsState (d : DhcpsT) (opts : List Tlv) : ReplyState :=
  let asked := addressState d.clientAddress opts
  match lastValue dhcpOptionMsgType opts with
  | some [type] =>
    if type = dhcpDiscover then .offer
    else if type = dhcpRequest then
      if asked = .idle then if d.renew then .ack else .nak else asked
    else if type = dhcpDecline then .idle
    else if type = dhcpRelease then .release
    else asked
  | _ => asked

/-- The options have the lengths of RFC 2132. -/
structure Tlv.Rfc (o : Tlv) : Prop extends o.Ok where
  msgType : o.code = dhcpOptionMsgType → o.value.length = 1
  reqIpaddr : o.code = dhcpOptionReqIpaddr → o.value.length = 4

/-- A well-formed field: its options have the lengths of RFC 2132. -/
def WellFormed (fields : List Field) : Prop := ∀ o ∈ optionsOf fields, o.Rfc

/-- From the options on, memory holds this field, its `END` and `trail` more `PAD`s. -/
def HoldsField (m : Msg) (fields : List Field) (trail : Nat) : Prop :=
  Holds m (Msg.options + 4)
    (fieldBytes fields ++ dhcpOptionEnd :: List.replicate trail dhcpOptionPad)

/-- The length of the field with its `END` and what follows. -/
def fieldLength (fields : List Field) (trail : Nat) : Nat := (fieldBytes fields).length + 1 + trail

/-! ## The padding -/

def Field.isPad : Field → Bool
  | pad => true
  | option _ => false

/-- The number of `PAD`s in front of each option is even. Those in front of `END` do not
count. -/
def evenPads : List Bool → Bool
  | [] => true
  | false :: items => evenPads items
  | [true] => true
  | true :: true :: items => evenPads items
  | true :: false :: _ => false

/-! ## The walk of the option loop -/

/-- The option loop with fuel to its end. -/
def walk (client : UInt32) (m : Msg) (stop optptr : Nat) (type : UInt8) (state : ReplyState) :
    UInt8 × ReplyState :=
  optionLoop client m stop (stop - optptr) optptr type state

/-- What one option does to the variables of the loop. -/
def Tlv.read (client : UInt32) (r : UInt8 × ReplyState) (o : Tlv) : UInt8 × ReplyState :=
  (if o.code = dhcpOptionMsgType then o.value.headD 0 else r.1,
    if o.code = dhcpOptionReqIpaddr then
      if o.value = wordBytes client then .ack else .nak
    else r.2)

section Walk

variable {client : UInt32} {m : Msg} {stop p : Nat} {type : UInt8} {state : ReplyState}

/-- At the end of the field the walk is over. -/
theorem walk_of_le (h : stop ≤ p) : walk client m stop p type state = (type, state) := by
  have hfuel : stop - p = 0 := by omega
  rw [walk, hfuel, optionLoop]

/-- An END option ends the walk. -/
theorem walk_end (h : m p = dhcpOptionEnd) : walk client m stop p type state = (type, state) := by
  unfold walk
  cases hfuel : stop - p with
  | zero => rw [optionLoop]
  | succ fuel =>
    rw [optionLoop, if_pos h]
    exact ite_self _

/-- One turn of the loop. -/
theorem walk_next (hp : p < stop) (hend : m p ≠ dhcpOptionEnd) :
    walk client m stop p type state =
      walk client m stop (p + (m (p + 1)).toNat + 2)
        (if m p = dhcpOptionMsgType then m (p + 2) else type)
        (if m p = dhcpOptionReqIpaddr then
          if m.word (p + 2) = client then .ack else .nak
        else state) := by
  obtain ⟨fuel, hfuel⟩ : ∃ fuel, stop - p = fuel + 1 := ⟨stop - p - 1, by omega⟩
  rw [walk, hfuel, optionLoop, if_pos hp, if_neg hend]
  exact optionLoop_of_le client m stop _ _ (by omega)

/-- Neither of the two codes that the loop looks for. -/
def Silent (b : UInt8) : Prop := b ≠ dhcpOptionMsgType ∧ b ≠ dhcpOptionReqIpaddr

instance (b : UInt8) : Decidable (Silent b) := inferInstanceAs (Decidable (_ ∧ _))

/-- Where no byte is one of the two codes, the walk finds nothing, whatever its steps are. -/
theorem walk_silent {bytes : List UInt8} {q : Nat} (hm : Holds m q bytes)
    (h : ∀ b ∈ bytes, Silent b) (hp : q ≤ p) :
    walk client m (q + bytes.length) p type state = (type, state) := by
  generalize hn : q + bytes.length - p = n
  induction n using Nat.strongRecOn generalizing p with
  | ind n ih =>
    by_cases hstop : p < q + bytes.length
    · by_cases hend : m p = dhcpOptionEnd
      · exact walk_end hend
      · have hb : m p = bytes[p - q] := by
          rw [← holds_iff_getElem.mp hm (p - q) (by omega)]
          congr 1
          omega
        obtain ⟨htype, hip⟩ : Silent (m p) := hb ▸ h _ (List.getElem_mem _)
        rw [walk_next hstop hend, if_neg htype, if_neg hip]
        exact ih _ (by omega) (by omega) rfl
    · exact walk_of_le (Nat.le_of_not_lt hstop)

/-- Two `PAD`s are skipped together. -/
theorem walk_pads (hp : p < stop) (h0 : m p = dhcpOptionPad) (h1 : m (p + 1) = dhcpOptionPad) :
    walk client m stop p type state = walk client m stop (p + 2) type state := by
  have hcode : m p ≠ dhcpOptionEnd ∧ m p ≠ dhcpOptionMsgType ∧ m p ≠ dhcpOptionReqIpaddr := by
    rw [h0]
    decide
  rw [walk_next hp hcode.1, if_neg hcode.2.1, if_neg hcode.2.2, h1]
  rfl

/-- The bytes of a word that is read are those in the memory. -/
theorem wordBytes_word (m : Msg) (q : Nat) :
    wordBytes (m.word q) = [m q, m (q + 1), m (q + 2), m (q + 3)] := by
  have h0 := (m q).toNat_lt
  have h1 := (m (q + 1)).toNat_lt
  have h2 := (m (q + 2)).toNat_lt
  have h3 := (m (q + 3)).toNat_lt
  have hword : (m.word q).toNat = (m q).toNat + 2 ^ 8 * (m (q + 1)).toNat +
      2 ^ 16 * (m (q + 2)).toNat + 2 ^ 24 * (m (q + 3)).toNat := by
    rw [Msg.word, UInt32.toNat_ofNat']
    omega
  have hbyte : ∀ {n : Nat} {b : UInt8}, n % 2 ^ 8 = b.toNat → UInt8.ofNat n = b := by
    intro n b h
    rw [← UInt8.toNat_inj, UInt8.toNat_ofNat']
    exact h
  rw [wordBytes, hword]
  rw [hbyte (b := m q) (by omega), hbyte (b := m (q + 1)) (by omega),
    hbyte (b := m (q + 2)) (by omega), hbyte (b := m (q + 3)) (by omega)]

/-- A four-byte value is the client's address, byte by byte or as a word. -/
theorem word_eq_iff {q : Nat} {value : List UInt8} (h : Holds m q value)
    (hlen : value.length = 4) : m.word q = client ↔ value = wordBytes client := by
  constructor
  · rintro rfl
    rw [wordBytes_word]
    -- byte by byte
    refine List.ext_getElem hlen fun i hi hi' => ?_
    rw [← holds_iff_getElem.mp h i hi]
    rw [hlen] at hi
    have hi4 : i = 0 ∨ i = 1 ∨ i = 2 ∨ i = 3 := by omega
    rcases hi4 with rfl | rfl | rfl | rfl <;> rfl
  · rintro rfl
    exact word_of_holds h

/-- The walk reads a well-formed option. -/
theorem walk_option {o : Tlv} (ho : o.Rfc) (hp : p < stop) (hm : Holds m p o.bytes) :
    walk client m stop p type state =
      walk client m stop (p + o.bytes.length) (o.read client (type, state)).1
        (o.read client (type, state)).2 := by
  obtain ⟨hcode, hlen, hvalue⟩ := hm
  have hlen' : (m (p + 1)).toNat = o.value.length := by
    rw [hlen, UInt8.toNat_ofNat']
    exact Nat.mod_eq_of_lt ho.length
  have hnext : p + (m (p + 1)).toNat + 2 = p + o.bytes.length := by
    rw [hlen', Tlv.bytes_length]
    omega
  rw [walk_next hp (hcode ▸ ho.notEnd), hnext, hcode]
  congr 1
  · show _ = if o.code = dhcpOptionMsgType then o.value.headD 0 else type
    by_cases h : o.code = dhcpOptionMsgType
    · obtain ⟨b, hb⟩ := List.length_eq_one_iff.mp (ho.msgType h)
      rw [hb] at hvalue
      rw [if_pos h, if_pos h, hb, hvalue.1]
      rfl
    · rw [if_neg h, if_neg h]
  · show _ = if o.code = dhcpOptionReqIpaddr then _ else state
    by_cases h : o.code = dhcpOptionReqIpaddr
    · have hiff : m.word (p + 2) = client ↔ o.value = wordBytes client :=
        word_eq_iff hvalue (ho.reqIpaddr h)
      rw [if_pos h, if_pos h]
      exact if_congr hiff rfl rfl
    · rw [if_neg h, if_neg h]

end Walk

/-! ## Even padding -/

/-- Behind the options there are `END` and `PAD`s, which say nothing. -/
theorem silent_trail (trail : Nat) :
    ∀ b ∈ dhcpOptionEnd :: List.replicate trail dhcpOptionPad, Silent b := by
  refine List.forall_mem_cons.mpr ⟨by decide, fun b hb => ?_⟩
  rw [(List.mem_replicate.mp hb).2]
  decide

/-- The length of a field with one more item -/
theorem fieldLength_cons (f : Field) (fields : List Field) (trail : Nat) :
    fieldLength (f :: fields) trail = f.bytes.length + fieldLength fields trail := by
  rw [fieldLength, fieldLength, fieldBytes_cons, List.length_append]
  omega

/-- A field has at least its END. -/
theorem fieldLength_pos (fields : List Field) (trail : Nat) : 0 < fieldLength fields trail := by
  rw [fieldLength]
  omega

/-- The first item of a field and the rest -/
theorem eq_cons_of_isPad {fields : List Field} {b : Bool} {items : List Bool}
    (h : fields.map Field.isPad = b :: items) :
    ∃ f rest, fields = f :: rest ∧ rest.map Field.isPad = items ∧
      (b = true ∧ f = .pad ∨ b = false ∧ ∃ o, f = .option o) := by
  obtain ⟨f, rest, rfl, rfl, hrest⟩ := List.map_eq_cons_iff.mp h
  refine ⟨f, rest, rfl, hrest, ?_⟩
  cases f with
  | pad => exact .inl ⟨rfl, rfl⟩
  | option o => exact .inr ⟨rfl, o, rfl⟩

/-- The walk over a field with even padding reads its options in order. -/
theorem walk_fields {client : UInt32} {m : Msg} {fields : List Field} {trail p : Nat}
    {r : UInt8 × ReplyState} (hok : WellFormed fields)
    (heven : evenPads (fields.map Field.isPad) = true)
    (hm : Holds m p (fieldBytes fields ++ dhcpOptionEnd :: List.replicate trail dhcpOptionPad)) :
    walk client m (p + fieldLength fields trail) p r.1 r.2 =
      (optionsOf fields).foldl (Tlv.read client) r := by
  induction hitems : fields.map Field.isPad using evenPads.induct generalizing fields p r with
  | case1 =>
    obtain rfl := List.map_eq_nil_iff.mp hitems
    exact walk_end hm.1
  | case2 items ih =>
    -- an option without a `PAD` in front of it
    obtain ⟨f, rest, rfl, hrest, ⟨hb, -⟩ | ⟨-, o, rfl⟩⟩ := eq_cons_of_isPad hitems
    · cases hb
    have hlen := fieldLength_pos rest trail
    obtain ⟨ho, hok⟩ := List.forall_mem_cons.mp hok
    rw [hitems, evenPads, ← hrest] at heven
    rw [fieldBytes_cons, List.append_assoc, holds_append] at hm
    have hrec := ih (r := o.read client r) hok heven hm.2 hrest
    rw [fieldLength_cons, ← Nat.add_assoc, walk_option ho (by omega) hm.1]
    exact hrec
  | case3 =>
    -- one `PAD` in front of `END`, which it takes for a length
    obtain ⟨f, rest, rfl, hrest, ⟨-, rfl⟩ | ⟨hb, -⟩⟩ := eq_cons_of_isPad hitems
    case inr => cases hb
    obtain rfl := List.map_eq_nil_iff.mp hrest
    obtain ⟨hpad, hm⟩ := hm
    have hstop : p + fieldLength [.pad] trail =
        p + 1 + (dhcpOptionEnd :: List.replicate trail dhcpOptionPad).length := by
      rw [fieldLength, List.length_cons, List.length_replicate]
      show p + (1 + 1 + trail) = _
      omega
    have hcode : m p ≠ dhcpOptionEnd ∧ m p ≠ dhcpOptionMsgType ∧ m p ≠ dhcpOptionReqIpaddr := by
      rw [hpad]
      decide
    rw [hstop, walk_next (by simp; omega) hcode.1, if_neg hcode.2.1, if_neg hcode.2.2]
    exact walk_silent hm (silent_trail trail) (by omega)
  | case4 items ih =>
    -- two `PAD`s
    obtain ⟨f, tail, rfl, htail, ⟨-, rfl⟩ | ⟨hb, -⟩⟩ := eq_cons_of_isPad hitems
    case inr => cases hb
    obtain ⟨f, rest, rfl, hrest, ⟨-, rfl⟩ | ⟨hb, -⟩⟩ := eq_cons_of_isPad htail
    case inr => cases hb
    obtain ⟨hpad, hpad', hm⟩ := hm
    rw [hitems, evenPads, ← hrest] at heven
    have hrec := @ih rest (p + 2) r hok heven hm hrest
    have hstop : p + fieldLength (.pad :: .pad :: rest) trail = p + 2 + fieldLength rest trail := by
      rw [fieldLength_cons, fieldLength_cons]
      show p + (1 + (1 + _)) = _
      omega
    rw [hstop, walk_pads (by omega) hpad hpad']
    exact hrec
  | case5 items =>
    rw [hitems] at heven
    cases heven

/-! ## The last values -/

/-- A later option replaces the value of an earlier one. -/
theorem lastValue_concat (code : UInt8) (opts : List Tlv) (o : Tlv) :
    lastValue code (opts ++ [o]) = if o.code = code then some o.value else lastValue code opts := by
  rw [lastValue, LastMatch.splitLast_concat, lastValue]
  by_cases h : o.code = code
  · simp [h]
  · simp only [h, decide_false, Bool.false_eq_true, if_false, Option.map_map]
    rfl

/-- A later requested address replaces an earlier one. -/
theorem addressState_concat (client : UInt32) (opts : List Tlv) (o : Tlv) :
    addressState client (opts ++ [o]) = if o.code = dhcpOptionReqIpaddr then
        if o.value = wordBytes client then .ack else .nak
      else addressState client opts := by
  rw [addressState, lastValue_concat]
  by_cases h : o.code = dhcpOptionReqIpaddr
  · rw [if_pos h, if_pos h]
  · rw [if_neg h, if_neg h]
    rfl

/-- The variables of the loop hold the values read last. -/
theorem foldl_read (client : UInt32) (opts : List Tlv) :
    opts.foldl (Tlv.read client) (0, .idle) =
      (((lastValue dhcpOptionMsgType opts).map fun value => value.headD 0).getD 0,
        addressState client opts) := by
  induction opts using List.reverseRecOn with
  | nil => rfl
  | append_singleton opts o ih =>
    rw [List.foldl_append, ih, lastValue_concat, addressState_concat]
    refine Prod.ext ?_ rfl
    show (if o.code = dhcpOptionMsgType then _ else _) = _
    split <;> rfl

/-- A value that is found is that of an option with the code. -/
theorem lastValue_eq_some {code : UInt8} {opts : List Tlv} {value : List UInt8}
    (h : lastValue code opts = some value) : ∃ o ∈ opts, o.code = code ∧ o.value = value := by
  obtain ⟨⟨pre, o, post⟩, hsplit, rfl⟩ := Option.map_eq_some_iff.mp h
  obtain ⟨hl, hcode, -⟩ := LastMatch.splitLast_eq_some hsplit
  exact ⟨o, by simp [hl], of_decide_eq_true hcode, rfl⟩

/-- The second half of `parse_options`, after a loop that has read these options. -/
theorem parseOptions_of_walk {d : DhcpsT} {m : Msg} {len : Nat} {opts : List Tlv}
    (hok : ∀ o ∈ opts, o.Rfc)
    (h : walk d.clientAddress m (Msg.options + 4 + len) (Msg.options + 4) 0 .idle =
      opts.foldl (Tlv.read d.clientAddress) (0, .idle)) :
    parseOptions d m len = optionsState d opts := by
  have hstate : addressState d.clientAddress opts = .idle ↔
      ¬ (addressState d.clientAddress opts = .ack ∨ addressState d.clientAddress opts = .nak) := by
    unfold addressState
    split
    · decide
    · split <;> decide
  rw [foldl_read, walk] at h
  unfold parseOptions optionsState
  dsimp only
  rw [Int.toNat_natCast, h]
  dsimp only
  generalize addressState d.clientAddress opts = asked at *
  -- the requested address decides, and the message type only without one
  cases htype : lastValue dhcpOptionMsgType opts with
  | none => rfl
  | some value =>
    obtain ⟨o, ho, hcode, rfl⟩ := lastValue_eq_some htype
    obtain ⟨t, ht⟩ := List.length_eq_one_iff.mp ((hok o ho).msgType hcode)
    rw [ht]
    simp only [Option.map_some, Option.getD_some, List.headD_cons]
    by_cases hidle : asked = .idle
    · rw [if_neg (hstate.mp hidle), if_pos hidle]
      rfl
    · rw [if_pos (not_not.mp (fun h => hidle (hstate.mpr h))), if_neg hidle]
      rfl

/-- A field with even padding is answered as its options ask. -/
theorem parseOptions_even {d : DhcpsT} {m : Msg} {fields : List Field} {trail : Nat}
    (hok : WellFormed fields) (heven : evenPads (fields.map Field.isPad) = true)
    (hm : HoldsField m fields trail) :
    parseOptions d m (fieldLength fields trail) = optionsState d (optionsOf fields) :=
  parseOptions_of_walk hok (walk_fields (r := (0, .idle)) hok heven hm)

/-! ## Odd padding -/

/-- A host name, which `parse_options` has no use for. -/
def hostName : Tlv := ⟨12, [97]⟩

def discoverOption : Tlv := ⟨dhcpOptionMsgType, [dhcpDiscover]⟩

/-- A field with this padding whose only option 53 stands behind the first odd run of `PAD`s. -/
def exposing : List Bool → List Field
  | [] => []
  | false :: items => .option hostName :: exposing items
  | [true] => [.pad]
  | true :: true :: items => .pad :: .pad :: exposing items
  | true :: false :: items =>
    .pad :: .option discoverOption :: items.map fun b => if b then .pad else .option hostName

/-- The fields have PADs where asked for. -/
theorem exposing_isPad (items : List Bool) : (exposing items).map Field.isPad = items := by
  induction items using evenPads.induct with
  | case1 => rfl
  | case2 items ih => rw [exposing, List.map_cons, ih, Field.isPad]
  | case3 => rfl
  | case4 items ih => rw [exposing, List.map_cons, List.map_cons, ih, Field.isPad]
  | case5 items =>
    rw [exposing, List.map_cons, List.map_cons, List.map_map]
    have hid : (Field.isPad ∘ fun b => if b then .pad else .option hostName) = id := by
      funext b
      cases b <;> rfl
    rw [hid, List.map_id]
    rfl

/-- The items behind the first odd run. -/
theorem mem_optionsOf_fill {items : List Bool} {o : Tlv}
    (h : o ∈ optionsOf (items.map fun b => if b then .pad else .option hostName)) :
    o = hostName := by
  obtain ⟨f, hf, ho⟩ := List.mem_filterMap.mp h
  obtain ⟨b, -, rfl⟩ := List.mem_map.mp hf
  cases b with
  | true => cases ho
  | false => exact (Option.some.inj ho).symm

/-- Items that are skipped say nothing. -/
theorem silent_fill (items : List Bool) :
    ∀ b ∈ fieldBytes (items.map fun b => if b then .pad else .option hostName), Silent b := by
  intro b hb
  obtain ⟨f, hf, hb⟩ := List.mem_flatMap.mp hb
  obtain ⟨item, -, rfl⟩ := List.mem_map.mp hf
  have hsilent : ∀ item : Bool,
      ∀ b ∈ (if item then Field.pad else .option hostName).bytes, Silent b := by
    decide +kernel
  exact hsilent item b hb

/-- Apart from the message type, the options are host names. -/
theorem mem_exposing {items : List Bool} {o : Tlv} (h : o ∈ optionsOf (exposing items)) :
    o = hostName ∨ o = discoverOption := by
  induction items using evenPads.induct with
  | case1 => cases h
  | case2 items ih =>
    rcases List.mem_cons.mp h with rfl | h
    · exact .inl rfl
    · exact ih h
  | case3 => cases h
  | case4 items ih => exact ih h
  | case5 items =>
    rcases List.mem_cons.mp h with rfl | h
    · exact .inr rfl
    · exact .inl (mem_optionsOf_fill h)

/-- The options of these fields are well formed. -/
theorem exposing_wellFormed (items : List Bool) : WellFormed (exposing items) := by
  intro o ho
  rcases mem_exposing ho with rfl | rfl
  · exact ⟨⟨by decide, by decide, by decide⟩, by decide, by decide⟩
  · exact ⟨⟨by decide, by decide, by decide⟩, by decide, by decide⟩

/-- With an odd run of PADs in front of an option, the message type is among the options. -/
theorem discover_mem_exposing {items : List Bool} (h : evenPads items = false) :
    discoverOption ∈ optionsOf (exposing items) := by
  induction items using evenPads.induct with
  | case1 => cases h
  | case2 items ih => exact List.mem_cons_of_mem _ (ih h)
  | case3 => cases h
  | case4 items ih => exact ih h
  | case5 items => exact List.mem_cons_self ..

/-- The field asks for an OFFER. -/
theorem optionsState_exposing {items : List Bool} (h : evenPads items = false) (d : DhcpsT) :
    optionsState d (optionsOf (exposing items)) = .offer := by
  have hlast : lastValue dhcpOptionMsgType (optionsOf (exposing items)) = some [dhcpDiscover] := by
    -- there is an option 53, and it is the only one
    cases hl : lastValue dhcpOptionMsgType (optionsOf (exposing items)) with
    | none =>
      have hnone := LastMatch.splitLast_eq_none (Option.map_eq_none_iff.mp hl) _
        (discover_mem_exposing h)
      cases hnone
    | some value =>
      obtain ⟨o, ho, hcode, rfl⟩ := lastValue_eq_some hl
      rcases mem_exposing ho with rfl | rfl
      · cases hcode
      · rfl
  rw [optionsState, hlast]
  rfl

/-- The walk steps over the option: the `PAD` in front of it takes 53 for its length, and in the
53 bytes behind that there is the whole option. -/
theorem walk_exposing {client : UInt32} {m : Msg} {items : List Bool} {p trail : Nat}
    (h : evenPads items = false)
    (hm : Holds m p (fieldBytes (exposing items) ++
      dhcpOptionEnd :: List.replicate trail dhcpOptionPad)) :
    walk client m (p + fieldLength (exposing items) trail) p 0 .idle = (0, .idle) := by
  induction items using evenPads.induct generalizing p with
  | case1 => cases h
  | case2 items ih =>
    have hlen := fieldLength_pos (exposing items) trail
    have ho : hostName.Rfc := ⟨⟨by decide, by decide, by decide⟩, by decide, by decide⟩
    rw [exposing, fieldBytes_cons, List.append_assoc, holds_append] at hm
    rw [exposing, fieldLength_cons, ← Nat.add_assoc, Field.bytes, walk_option ho (by omega) hm.1]
    exact ih h hm.2
  | case3 => cases h
  | case4 items ih =>
    obtain ⟨hpad, hpad', hm⟩ := hm
    have hstop : p + fieldLength (exposing (true :: true :: items)) trail =
        p + 2 + fieldLength (exposing items) trail := by
      rw [exposing, fieldLength_cons, fieldLength_cons]
      show p + (1 + (1 + _)) = _
      omega
    have hlen := fieldLength_pos (exposing items) trail
    rw [hstop, walk_pads (by omega) hpad hpad']
    exact @ih (p + 2) h hm
  | case5 items =>
    -- from the `PAD` the walk jumps over the option, to somewhere among the rest
    obtain ⟨hpad, hm⟩ := hm
    have hcode : m p ≠ dhcpOptionEnd ∧ Silent (m p) := by
      rw [hpad]
      decide
    have hlen : (m (p + 1)).toNat = 53 := congrArg UInt8.toNat hm.1
    obtain ⟨-, -, -, hfill⟩ := hm
    have hstop : p + fieldLength (exposing (true :: false :: items)) trail =
        p + 4 + (fieldBytes (items.map fun b => if b then .pad else .option hostName) ++
          dhcpOptionEnd :: List.replicate trail dhcpOptionPad).length := by
      rw [exposing, fieldLength_cons, fieldLength_cons, fieldLength, List.length_append,
        List.length_cons, List.length_replicate]
      show p + (1 + (3 + _)) = _
      omega
    rw [hstop, walk_next (by simp; omega) hcode.1, if_neg hcode.2.1, if_neg hcode.2.2, hlen]
    exact walk_silent hfill (List.forall_mem_append.mpr ⟨silent_fill items, silent_trail trail⟩)
      (by omega)

/-- Memory that holds a field. -/
def fieldMemory (fields : List Field) (trail : Nat) : Msg := fun i =>
  (fieldBytes fields ++ dhcpOptionEnd :: List.replicate trail dhcpOptionPad).getD
    (i - (Msg.options + 4)) 0

/-- The memory holds the field. -/
theorem fieldMemory_holds (fields : List Field) (trail : Nat) :
    HoldsField (fieldMemory fields trail) fields trail := by
  refine holds_iff_getElem.mpr fun i hi => ?_
  have hoff : Msg.options + 4 + i - (Msg.options + 4) = i := by omega
  rw [fieldMemory, hoff, List.getD, List.getElem?_eq_getElem hi]
  rfl

/-- For each padding, every field that has it is answered as its options ask exactly when the
number of `PAD`s in front of each option is even. -/
theorem parseOptions_padded_iff (items : List Bool) :
    (∀ (d : DhcpsT) (m : Msg) (fields : List Field) (trail : Nat),
      fields.map Field.isPad = items → WellFormed fields → HoldsField m fields trail →
        parseOptions d m (fieldLength fields trail) = optionsState d (optionsOf fields)) ↔
      evenPads items = true := by
  constructor
  · intro h
    by_contra hodd
    have hodd : evenPads items = false := Bool.eq_false_iff.mpr hodd
    have hm := fieldMemory_holds (exposing items) 0
    have hasked := h dhcpsNew _ (exposing items) 0 (exposing_isPad items)
      (exposing_wellFormed items) hm
    rw [optionsState_exposing hodd] at hasked
    have hidle : parseOptions dhcpsNew _ (fieldLength (exposing items) 0) =
        optionsState dhcpsNew [] := parseOptions_of_walk nofun (walk_exposing hodd hm)
    exact absurd (hidle.symm.trans hasked) nofun
  · rintro heven d m fields trail rfl hok hm
    exact parseOptions_even hok heven hm

/-- A DHCPDISCOVER behind one `PAD` is not seen. -/
theorem parseOptions_pad_discover :
    WellFormed [.pad, .option discoverOption] ∧
      HoldsField (fieldMemory [.pad, .option discoverOption] 0) [.pad, .option discoverOption] 0 ∧
      parseOptions dhcpsNew (fieldMemory [.pad, .option discoverOption] 0)
        (fieldLength [.pad, .option discoverOption] 0) = .idle ∧
      optionsState dhcpsNew (optionsOf [.pad, .option discoverOption]) = .offer :=
  ⟨exposing_wellFormed [true, false], fieldMemory_holds _ _, by decide, by decide⟩

end PicoHost.Dhcps
