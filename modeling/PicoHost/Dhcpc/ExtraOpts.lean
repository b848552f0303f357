import Mathlib.Logic.Function.Basic
import PicoHost.Dhcps.Fields

/-!
# Options that the DHCP client adds (`lwip_default_hooks.c`)

`dhcp_append_extra_opts` appends the client identifier (option 61) to a message, and then the vendor
class identifier (option 60): the one from `dhcp_set_vendor_class_identifier`, or else the hostname.
Each of the two has its own check for room, and the function returns at the first one that fails.

The second one counts one byte more than it writes. `Appended` says what an append leaves behind it,
with such bytes as they were; in a zeroed buffer they are `PAD`s.
-/

namespace PicoHost.Dhcpc

open Dhcps (Tlv Field Holds readOptions fieldBytes optionsOf dhcpOptionEnd dhcpOptionPad)

/-- What `lwipopts.h` configures; the range of `CONFIG_LWIP_DHCP_OPTIONS_LEN` is from `Kconfig`. -/
structure LwipOpts where
  dhcpOptionsLen : Nat
  enableClientId : Bool
  enableVendorSpecIds : Bool
  netifHostname : Bool
  range : 68 ≤ dhcpOptionsLen ∧ dhcpOptionsLen ≤ 255

/-- The states of lwIP's client that the function looks for -/
inductive AppendState where
  | renewing | rebinding | rebooting | off | requesting | backingOff | selecting | other
deriving DecidableEq, Repr

def AppendState.appends : AppendState → Bool
  | .other => false
  | _ => true

/-- A `struct netif`: its hardware address, as memory and a length, and its hostname without the
`NUL` -/
structure NamedNetif where
  hwaddr : Nat → UInt8
  hwaddrLen : UInt8
  hostname : Option (List UInt8)

/-- The bytes of the hardware address -/
def NamedNetif.address (netif : NamedNetif) : List UInt8 :=
  (List.range netif.hwaddrLen.toNat).map netif.hwaddr

/-- `DHCP_OPTION_CLIENT_ID`, `LWIP_IANA_HWTYPE_ETHERNET` and `DHCP_OPTION_VCI` -/
def dhcpOptionClientId : UInt8 := 61

def lwipIanaHwtypeEthernet : UInt8 := 1

def dhcpOptionVci : UInt8 := 60

/-! ## The vendor class identifier -/

/-- `vendor_class_buf` and `vendor_class_len`: the buffer has a byte more than the identifier. -/
structure VendorClass where
  buf : Option (List UInt8)
  len : UInt8
  size : ∀ b ∈ buf, b.length = len.toNat + 1

/-- `err_t`, as far as it is used here -/
inductive ErrT where
  | ok | mem | arg
deriving DecidableEq, Repr

namespace VendorClass

/-- The static variables at the start -/
def init : VendorClass := ⟨none, 0, nofun⟩

/-- The identifier that has been configured -/
def identifier (v : VendorClass) : Option (List UInt8) := v.buf.map (·.take v.len.toNat)

/-- A new buffer has room for the identifier and its NUL. -/
theorem size_malloc (len : UInt8) (garbage : Nat → UInt8) :
    ∀ b ∈ some ((List.range (len.toNat + 1)).map garbage), b.length = len.toNat + 1 := by
  rintro b ⟨⟩
  rw [List.length_map, List.length_range]

/-- The buffer that the bytes go into: the old one if it has the same length, else a new one.
`garbage` is what new memory holds, and `none` where there is none. -/
def obtainBuf (v : VendorClass) (len : UInt8) (garbage : Option (Nat → UInt8)) : VendorClass :=
  if v.buf.isSome ∧ v.len = len then v
  else match garbage with
    | none => ⟨none, v.len, nofun⟩
    | some garbage =>
      ⟨some ((List.range (len.toNat + 1)).map garbage), len, size_malloc len garbage⟩

/-- There is a buffer for the bytes, or none at all. -/
theorem obtainBuf_cases (v : VendorClass) (len : UInt8) (garbage : Option (Nat → UInt8)) :
    (v.obtainBuf len garbage).buf.isSome ∧ (v.obtainBuf len garbage).len = len ∨
      (v.obtainBuf len garbage).buf = none := by
  unfold obtainBuf
  split
  · rename_i hold
    exact .inl hold
  · cases garbage with
    | none => exact .inr rfl
    | some garbage => exact .inl ⟨rfl, rfl⟩

/-- The copy keeps the size of the buffer. -/
theorem size_copy (v : VendorClass) (bytes : List UInt8) (h : bytes.length ≤ v.len.toNat) :
    ∀ b ∈ v.buf.map fun b => bytes ++ b.drop bytes.length, b.length = v.len.toNat + 1 := by
  intro b hb
  obtain ⟨old, hold, rfl⟩ := Option.mem_map.mp hb
  have hsize := v.size old hold
  rw [List.length_append, List.length_drop, hsize]
  omega

/-- The `memcpy` into the buffer -/
def copy (v : VendorClass) (bytes : List UInt8) (h : bytes.length ≤ v.len.toNat) : VendorClass :=
  ⟨v.buf.map fun b => bytes ++ b.drop bytes.length, v.len, v.size_copy bytes h⟩

/-- After the copy the identifier is the text that was set. -/
theorem copy_identifier {v : VendorClass} {bytes : List UInt8} (h : bytes.length ≤ v.len.toNat)
    (hsome : v.buf.isSome) (hlen : bytes.length = v.len.toNat) :
    (v.copy bytes h).identifier = some bytes := by
  obtain ⟨b, hb⟩ := Option.isSome_iff_exists.mp hsome
  show (v.buf.map fun b => bytes ++ b.drop bytes.length).map (·.take v.len.toNat) = some bytes
  rw [hb]
  show some ((bytes ++ b.drop bytes.length).take v.len.toNat) = some bytes
  rw [← hlen, List.take_left]

end VendorClass

/-- `dhcp_set_vendor_class_identifier` (lwip_default_hooks.c:153–175); `str` is the memory from the
pointer on. -/
def dhcpSetVendorClassIdentifier (len : UInt8) (str : Option (Nat → UInt8))
    (garbage : Option (Nat → UInt8)) (v : VendorClass) : ErrT × VendorClass :=
  match str with
  | none => (.arg, v)
  | some str =>
    if len = 0 then (.arg, v)
    else
      let v' := v.obtainBuf len garbage
      if h : v'.buf.isSome ∧ v'.len = len then
        (.ok, v'.copy ((List.range len.toNat).map str) (by simp [h.2]))
      else (.mem, v')

/-! ## Appending -/

/-- The buffer `msg_out->options` with `options_out_len`, and the indices that were written -/
structure OptionsOut where
  options : Nat → UInt8
  outLen : Nat
  writes : List Nat

namespace OptionsOut

/-- `*options++ = b` for the bytes, one after the other -/
def store (s : OptionsOut) : Nat → List UInt8 → OptionsOut
  | _, [] => s
  | i, b :: bytes =>
    store { s with
      options := Function.update s.options i b
      writes := s.writes ++ [i] } (i + 1) bytes

/-- Store the bytes at the end, and count `size` more; `options_out_len` has 16 bits. -/
def append (s : OptionsOut) (bytes : List UInt8) (size : Nat) : OptionsOut :=
  { s.store s.outLen bytes with outLen := (s.outLen + size) % 2 ^ 16 }

end OptionsOut

section Code

variable (cfg : LwipOpts) (netif : NamedNetif) (state : AppendState)

/-- The first part of `dhcp_append_extra_opts`; `none` where it returns. -/
def appendClientId (s : OptionsOut) : Option OptionsOut :=
  if cfg.enableClientId ∧ state.appends then
    if s.outLen + 3 + netif.hwaddrLen.toNat ≤ cfg.dhcpOptionsLen then
      some (s.append (dhcpOptionClientId :: (netif.hwaddrLen + 1) :: lwipIanaHwtypeEthernet ::
        netif.address) (netif.hwaddrLen.toNat + 3))
    else none
  else some s

/-- `p` and `len`, where the vendor class identifier comes from -/
def vciSource (v : VendorClass) : Option (List UInt8) × UInt8 :=
  if v.buf.isSome ∧ v.len ≠ 0 then (v.buf, v.len)
  else if cfg.netifHostname then
    match netif.hostname with
    | some hostname =>
      if hostname.length < 0xff then (some hostname, .ofNat hostname.length) else (none, 0)
    | none => (none, 0)
  else (none, 0)

/-- The second part -/
def appendVci (v : VendorClass) (s : OptionsOut) : OptionsOut :=
  if cfg.enableVendorSpecIds ∧ state.appends then
    let src := vciSource cfg netif v
    if s.outLen + 3 + src.2.toNat ≤ cfg.dhcpOptionsLen then
      match src.1 with
      | none => s
      | some p => s.append (dhcpOptionVci :: src.2 :: p.take src.2.toNat) (src.2.toNat + 3)
    else s
  else s

/-- `dhcp_append_extra_opts` (lwip_default_hooks.c:226–284) -/
def dhcpAppendExtraOpts (v : VendorClass) (options : Nat → UInt8) (optionsOutLen : Nat) :
    OptionsOut :=
  let s : OptionsOut := ⟨options, optionsOutLen, []⟩
  match appendClientId cfg netif state s with
  | none => s
  | some s => appendVci cfg netif state v s

end Code

/-! ## The options that fit -/

/-- The options in their order, each in whole or not at all: up to the first one whose size is more
than the room that is left. -/
def fitting : Nat → List (Tlv × Nat) → List Tlv
  | _, [] => []
  | room, (o, size) :: rest => if size ≤ room then o :: fitting (room - size) rest else []

section Fitting

variable (cfg : LwipOpts) (netif : NamedNetif) (state : AppendState) (v : VendorClass)

/-- The client identifier of RFC 2132: the type of the hardware and its address -/
def clientIdentifier : Tlv := ⟨dhcpOptionClientId, lwipIanaHwtypeEthernet :: netif.address⟩

/-- The identifier that was configured, or else a hostname of less than 255 bytes -/
def vendorClassValue : Option (List UInt8) :=
  if v.buf.isSome ∧ v.len ≠ 0 then v.identifier
  else if cfg.netifHostname then netif.hostname.filter (·.length < 0xff)
  else none

/-- The first option, and how much room it asks for -/
def clientIdOption : List (Tlv × Nat) :=
  if cfg.enableClientId ∧ state.appends then
    [(clientIdentifier netif, (clientIdentifier netif).bytes.length)]
  else []

/-- The second one; it asks for a byte more than it has. -/
def vciOption : List (Tlv × Nat) :=
  if cfg.enableVendorSpecIds ∧ state.appends then
    ((vendorClassValue cfg netif v).map fun value =>
      (⟨dhcpOptionVci, value⟩, (Tlv.bytes ⟨dhcpOptionVci, value⟩).length + 1)).toList
  else []

/-- The options to append -/
def wantedOptions : List (Tlv × Nat) :=
  clientIdOption cfg netif state ++ vciOption cfg netif state v

end Fitting

namespace OptionsOut

/-- The bytes from the offset `start` on -/
def region (s : OptionsOut) (start : Nat) : List UInt8 :=
  (List.range (s.outLen - start)).map fun i => s.options (start + i)

/-- The code has kept to the buffer, and what it has appended to zeros are these options and
`PAD`s. -/
structure Extended (limit : Nat) (before : Nat → UInt8) (start : Nat) (opts : List Tlv)
    (s : OptionsOut) : Prop where
  writes : ∀ i ∈ s.writes, i < limit
  outLen : start ≤ s.outLen ∧ s.outLen ≤ limit
  earlier : ∀ i < start, s.options i = before i
  region : (∀ i, start ≤ i → i < limit → before i = 0) →
    (∃ pads, s.region start = opts.flatMap Tlv.bytes ++ List.replicate pads dhcpOptionPad) ∧
      readOptions (s.region start ++ [dhcpOptionEnd]) = some opts

end OptionsOut

/-! ## One append -/

namespace OptionsOut

section Append

variable {s s' s'' : OptionsOut} {limit i : Nat} {bytes bytes' rest : List UInt8}

@[simp] theorem store_outLen (s : OptionsOut) (i : Nat) (bytes : List UInt8) :
    (s.store i bytes).outLen = s.outLen := by
  induction bytes generalizing s i with
  | nil => rfl
  | cons b bytes ih => rw [store, ih]

/-- A store writes consecutive bytes. -/
theorem store_writes (s : OptionsOut) (i : Nat) (bytes : List UInt8) :
    (s.store i bytes).writes = s.writes ++ List.range' i bytes.length := by
  induction bytes generalizing s i with
  | nil => exact (List.append_nil _).symm
  | cons b bytes ih =>
    rw [store, ih, List.length_cons, List.range'_succ, List.append_assoc, List.singleton_append]

/-- A store leaves the other bytes alone. -/
theorem store_other (s : OptionsOut) {i j : Nat} (bytes : List UInt8)
    (hj : j < i ∨ i + bytes.length ≤ j) : (s.store i bytes).options j = s.options j := by
  induction bytes generalizing s i with
  | nil => rfl
  | cons b bytes ih =>
    rw [List.length_cons] at hj
    have hne : j ≠ i := by omega
    rw [store, ih _ (by omega)]
    exact Function.update_of_ne hne _ _

/-- After a store, memory holds its bytes. -/
theorem store_holds (s : OptionsOut) (i : Nat) (bytes : List UInt8) :
    Holds (s.store i bytes).options i bytes := by
  induction bytes generalizing s i with
  | nil => trivial
  | cons b bytes ih =>
    refine ⟨?_, ih _ (i + 1)⟩
    rw [store, store_other _ _ (.inl (Nat.lt_succ_self i))]
    exact Function.update_self ..

/-- From `s` to `s'` these bytes have been appended, some of which may have been there before. -/
structure Appended (limit : Nat) (s s' : OptionsOut) (bytes : List UInt8) : Prop where
  outLen : s'.outLen = s.outLen + bytes.length
  le : s'.outLen ≤ limit
  writes : ∀ i ∈ s'.writes, i ∈ s.writes ∨ i < limit
  holds : Holds s'.options s.outLen bytes
  other : ∀ i, i < s.outLen ∨ s'.outLen ≤ i → s'.options i = s.options i

/-- Appending nothing -/
theorem Appended.refl (h : s.outLen ≤ limit) : Appended limit s s [] where
  outLen := rfl
  le := h
  writes _ hi := .inl hi
  holds := trivial
  other _ _ := rfl

/-- Memory that agrees on these offsets holds the same bytes. -/
theorem holds_congr {m m' : Nat → UInt8} {p : Nat} (h : Holds m p bytes)
    (heq : ∀ i, p ≤ i → i < p + bytes.length → m' i = m i) : Holds m' p bytes := by
  rw [Dhcps.holds_iff_getElem] at h ⊢
  intro i hi
  rw [heq (p + i) (by omega) (by omega), h i hi]

/-- Appending twice -/
theorem Appended.trans (h : Appended limit s s' bytes) (h' : Appended limit s' s'' bytes') :
    Appended limit s s'' (bytes ++ bytes') where
  outLen := by rw [h'.outLen, h.outLen, List.length_append, Nat.add_assoc]
  le := h'.le
  writes i hi := by
    rcases h'.writes i hi with hi | hi
    · exact h.writes i hi
    · exact .inr hi
  holds := by
    refine Dhcps.holds_append.mpr ⟨?_, ?_⟩
    · refine holds_congr h.holds fun i _ hi => h'.other i (.inl ?_)
      rw [h.outLen]
      exact hi
    · rw [← h.outLen]
      exact h'.holds
  other i hi := by
    have hlen := h.outLen
    have hlen' := h'.outLen
    rw [h'.other i (by omega), h.other i (by omega)]

/-- What is counted but not written stays as it was. -/
theorem append_appended (hlimit : limit ≤ 255)
    (hfits : s.outLen + (bytes.length + rest.length) ≤ limit)
    (hrest : Holds s.options (s.outLen + bytes.length) rest) :
    Appended limit s (s.append bytes (bytes.length + rest.length)) (bytes ++ rest) := by
  have hlen : (s.append bytes (bytes.length + rest.length)).outLen =
      s.outLen + (bytes ++ rest).length := by
    rw [List.length_append]
    exact Nat.mod_eq_of_lt (by omega)
  refine ⟨hlen, ?_, ?_, ?_, ?_⟩
  · rw [hlen, List.length_append]
    exact hfits
  · intro i hi
    rw [append, store_writes] at hi
    rcases List.mem_append.mp hi with hi | hi
    · exact .inl hi
    · rw [List.mem_range'_1] at hi
      exact .inr (by omega)
  · refine Dhcps.holds_append.mpr ⟨store_holds s s.outLen bytes, ?_⟩
    exact holds_congr hrest fun i hle _ => store_other s bytes (.inr hle)
  · intro i hi
    rw [hlen, List.length_append] at hi
    exact store_other s bytes (by omega)

/-- The region after the appends -/
theorem Appended.region (h : Appended limit s s' bytes) : s'.region s.outLen = bytes := by
  have hholds := Dhcps.holds_iff_getElem.mp h.holds
  apply List.ext_getElem
  · rw [OptionsOut.region, List.length_map, List.length_range, h.outLen]
    omega
  · intro i _ hi
    simp only [OptionsOut.region, List.getElem_map, List.getElem_range]
    exact hholds i hi

end Append

end OptionsOut

/-! ## Options and padding -/

/-- Options and `PAD`s read as the options. -/
theorem readOptions_padded {opts : List Tlv} (h : ∀ o ∈ opts, o.Ok) (pads : Nat) :
    readOptions (opts.flatMap Tlv.bytes ++ List.replicate pads dhcpOptionPad ++ [dhcpOptionEnd]) =
      some opts := by
  have hbytes : opts.flatMap Tlv.bytes ++ List.replicate pads dhcpOptionPad =
      fieldBytes (opts.map .option ++ List.replicate pads .pad) := by
    rw [fieldBytes, List.flatMap_append, List.flatMap_map, List.flatMap_replicate]
    congr 1
    induction pads with
    | zero => rfl
    | succ pads ih => rw [List.replicate_succ, List.replicate_succ, List.flatten_cons, ← ih]; rfl
  have hopts : optionsOf (opts.map .option ++ List.replicate pads .pad) = opts := by
    rw [optionsOf, List.filterMap_append, List.filterMap_replicate_of_none rfl, List.append_nil]
    exact Dhcps.optionsOf_options opts
  rw [hbytes, Dhcps.readOptions_fields, hopts]
  intro f hf
  rcases List.mem_append.mp hf with hf | hf
  · obtain ⟨o, ho, rfl⟩ := List.mem_map.mp hf
    exact h o ho
  · rw [List.eq_of_mem_replicate hf]
    trivial

/-- An option that fits was asked for. -/
theorem fitting_subset {room : Nat} {wanted : List (Tlv × Nat)} {o : Tlv}
    (h : o ∈ fitting room wanted) : ∃ size ≤ room, (o, size) ∈ wanted := by
  induction wanted generalizing room with
  | nil => cases h
  | cons w rest ih =>
    obtain ⟨first, size⟩ := w
    rw [fitting] at h
    split at h
    · rename_i hle
      rcases List.mem_cons.mp h with rfl | h
      · exact ⟨size, hle, List.mem_cons_self ..⟩
      · obtain ⟨size', hle', h⟩ := ih h
        exact ⟨size', by omega, List.mem_cons_of_mem _ h⟩
    · cases h

/-! ## The two parts -/

section Parts

variable {cfg : LwipOpts} {netif : NamedNetif} {state : AppendState} {v : VendorClass}
  {s s' : OptionsOut}

@[simp] theorem address_length (netif : NamedNetif) :
    netif.address.length = netif.hwaddrLen.toNat := by simp [NamedNetif.address]

/-- The client identifier takes three bytes more than the hardware address. -/
theorem clientIdentifier_length (netif : NamedNetif) :
    (clientIdentifier netif).bytes.length = netif.hwaddrLen.toNat + 3 := by
  simp [clientIdentifier, Tlv.bytes_length]

/-- What is written is the client identifier of the interface. -/
theorem clientId_bytes (netif : NamedNetif) :
    dhcpOptionClientId :: (netif.hwaddrLen + 1) :: lwipIanaHwtypeEthernet :: netif.address =
      (clientIdentifier netif).bytes := by
  have hlen : netif.hwaddrLen + 1 = UInt8.ofNat (netif.address.length + 1) := by
    rw [address_length]
    simp
  rw [hlen]
  rfl

/-- The identifier has been read within its buffer. -/
theorem vciSource_eq (cfg : LwipOpts) (netif : NamedNetif) (v : VendorClass) :
    match (vciSource cfg netif v).1 with
    | none => vendorClassValue cfg netif v = none
    | some p => (vciSource cfg netif v).2.toNat ≤ p.length ∧
        vendorClassValue cfg netif v = some (p.take (vciSource cfg netif v).2.toNat) := by
  rw [vciSource, vendorClassValue]
  by_cases hbuf : v.buf.isSome ∧ v.len ≠ 0
  · rw [if_pos hbuf, if_pos hbuf]
    obtain ⟨b, hb⟩ := Option.isSome_iff_exists.mp hbuf.1
    have hsize := v.size b hb
    rw [VendorClass.identifier, hb]
    exact ⟨by dsimp only; omega, rfl⟩
  · rw [if_neg hbuf, if_neg hbuf]
    cases cfg.netifHostname with
    | false => rfl
    | true =>
      rw [if_pos rfl, if_pos rfl]
      cases netif.hostname with
      | none => rfl
      | some hostname =>
        by_cases hlen : hostname.length < 0xff
        · have hnat : (UInt8.ofNat hostname.length).toNat = hostname.length :=
            UInt8.toNat_ofNat_of_lt' (by show _ < 256; omega)
          simp only [hlen, if_true, hnat]
          refine ⟨Nat.le_refl _, ?_⟩
          rw [List.take_length, Option.filter, if_pos (decide_eq_true hlen)]
        · simp only [hlen, if_false]
          rw [Option.filter, if_neg (by simpa using hlen)]

/-- What a call configures: the bytes of `str`, or nothing where there is no memory for them. -/
theorem dhcpSetVendorClassIdentifier_identifier (len : UInt8) (str : Option (Nat → UInt8))
    (garbage : Option (Nat → UInt8)) (v : VendorClass) :
    match dhcpSetVendorClassIdentifier len str garbage v with
    | (.ok, v') => v'.len ≠ 0 ∧
        ∃ f ∈ str, v'.identifier = some ((List.range len.toNat).map f)
    | (.mem, v') => v'.identifier = none
    | (.arg, v') => v' = v := by
  cases str with
  | none => rfl
  | some f =>
    rw [dhcpSetVendorClassIdentifier]
    by_cases hlen : len = 0
    · rw [if_pos hlen]
    · rw [if_neg hlen]
      by_cases h : (v.obtainBuf len garbage).buf.isSome ∧ (v.obtainBuf len garbage).len = len
      · rw [dif_pos h]
        refine ⟨?_, f, rfl, ?_⟩
        · show (v.obtainBuf len garbage).len ≠ 0
          rwa [h.2]
        · refine VendorClass.copy_identifier _ h.1 ?_
          rw [List.length_map, List.length_range, h.2]
      · rw [dif_neg h]
        have hnone := (v.obtainBuf_cases len garbage).resolve_left h
        show (v.obtainBuf len garbage).buf.map _ = none
        rw [hnone]
        rfl

/-- The client identifier has been appended, or the function returns. -/
theorem appendClientId_appended (netif : NamedNetif) (state : AppendState)
    (h : s.outLen ≤ cfg.dhcpOptionsLen) :
    match appendClientId cfg netif state s with
    | none => ∀ rest,
        fitting (cfg.dhcpOptionsLen - s.outLen) (clientIdOption cfg netif state ++ rest) = []
    | some s' => ∃ opts, OptionsOut.Appended cfg.dhcpOptionsLen s s' (opts.flatMap Tlv.bytes) ∧
        ∀ rest, fitting (cfg.dhcpOptionsLen - s.outLen) (clientIdOption cfg netif state ++ rest) =
          opts ++ fitting (cfg.dhcpOptionsLen - s'.outLen) rest := by
  have hlen := clientIdentifier_length netif
  rw [appendClientId, clientIdOption]
  by_cases happends : cfg.enableClientId ∧ state.appends
  · rw [if_pos happends, if_pos happends, clientId_bytes]
    by_cases hfits : s.outLen + 3 + netif.hwaddrLen.toNat ≤ cfg.dhcpOptionsLen
    · rw [if_pos hfits]
      have happ : OptionsOut.Appended cfg.dhcpOptionsLen s
          (s.append (clientIdentifier netif).bytes (netif.hwaddrLen.toNat + 3))
          ((clientIdentifier netif).bytes ++ []) := by
        have hrest : Holds s.options (s.outLen + (clientIdentifier netif).bytes.length) [] :=
          trivial
        rw [← hlen]
        exact OptionsOut.append_appended cfg.range.2 (by rw [List.length_nil]; omega) hrest
      refine ⟨[clientIdentifier netif], by simpa using happ, fun rest => ?_⟩
      have houtLen := happ.outLen
      rw [List.append_nil] at houtLen
      rw [List.singleton_append, fitting, if_pos (by omega), houtLen, Nat.sub_add_eq]
      rfl
    · rw [if_neg hfits]
      intro rest
      rw [List.singleton_append, fitting, if_neg (by omega)]
  · rw [if_neg happends, if_neg happends]
    exact ⟨[], .refl h, fun rest => rfl⟩

/-- The vendor class identifier has been appended, with a byte behind it, or nothing has. -/
theorem appendVci_appended (netif : NamedNetif) (state : AppendState) (v : VendorClass)
    (h : s.outLen ≤ cfg.dhcpOptionsLen) :
    ∃ bytes, OptionsOut.Appended cfg.dhcpOptionsLen s (appendVci cfg netif state v s) bytes ∧
      ((∀ i, s.outLen ≤ i → i < cfg.dhcpOptionsLen → s.options i = 0) →
        ∃ pads, bytes = (fitting (cfg.dhcpOptionsLen - s.outLen)
          (vciOption cfg netif state v)).flatMap Tlv.bytes ++
            List.replicate pads dhcpOptionPad) := by
  have hsrc := vciSource_eq cfg netif v
  rw [appendVci, vciOption]
  by_cases happends : cfg.enableVendorSpecIds ∧ state.appends
  · rw [if_pos happends, if_pos happends]
    rcases hs : vciSource cfg netif v with ⟨p, len⟩
    rw [hs] at hsrc
    cases p with
    | none =>
      -- the check for room is made, and nothing follows
      rw [show vendorClassValue cfg netif v = none from hsrc]
      dsimp only
      rw [ite_self]
      exact ⟨[], .refl h, fun _ => ⟨0, rfl⟩⟩
    | some p =>
      obtain ⟨hle, hvalue⟩ := hsrc
      dsimp only at hle hvalue ⊢
      let vci : Tlv := ⟨dhcpOptionVci, p.take len.toNat⟩
      have hbytes : dhcpOptionVci :: len :: p.take len.toNat = vci.bytes := by
        simp [vci, Tlv.bytes, Nat.min_eq_left hle]
      have hlen : vci.bytes.length = len.toNat + 2 := by
        simp [vci, Tlv.bytes_length, Nat.min_eq_left hle]
      rw [hvalue, hbytes]
      show ∃ bytes, _ ∧ (_ → ∃ pads, bytes =
        (fitting _ [(vci, vci.bytes.length + 1)]).flatMap Tlv.bytes ++ _)
      by_cases hfits : s.outLen + 3 + len.toNat ≤ cfg.dhcpOptionsLen
      · rw [if_pos hfits, fitting, if_pos (by omega)]
        have hrest : Holds s.options (s.outLen + vci.bytes.length)
            [s.options (s.outLen + vci.bytes.length)] := ⟨rfl, trivial⟩
        have happ := OptionsOut.append_appended cfg.range.2
          (by rw [List.length_singleton]; omega) hrest
        rw [hlen, List.length_singleton] at happ
        refine ⟨_, happ, fun hzero => ⟨1, ?_⟩⟩
        rw [hzero _ (by omega) (by omega), fitting, List.flatMap_singleton]
        rfl
      · rw [if_neg hfits, fitting, if_neg (by omega)]
        exact ⟨[], .refl h, fun _ => ⟨0, rfl⟩⟩
  · rw [if_neg happends, if_neg happends]
    exact ⟨[], .refl h, fun _ => ⟨0, rfl⟩⟩

/-- The function as a whole -/
theorem dhcpAppendExtraOpts_appended (v : VendorClass) (options : Nat → UInt8) {start : Nat}
    (h : start ≤ cfg.dhcpOptionsLen) :
    ∃ bytes, OptionsOut.Appended cfg.dhcpOptionsLen ⟨options, start, []⟩
        (dhcpAppendExtraOpts cfg netif state v options start) bytes ∧
      ((∀ i, start ≤ i → i < cfg.dhcpOptionsLen → options i = 0) →
        ∃ pads, bytes = (fitting (cfg.dhcpOptionsLen - start)
          (wantedOptions cfg netif state v)).flatMap Tlv.bytes ++
            List.replicate pads dhcpOptionPad) := by
  have hclient := appendClientId_appended (s := ⟨options, start, []⟩) netif state h
  rw [dhcpAppendExtraOpts]
  cases hs : appendClientId cfg netif state ⟨options, start, []⟩ with
  | none =>
    rw [hs] at hclient
    rw [wantedOptions, hclient]
    exact ⟨[], .refl h, fun _ => ⟨0, rfl⟩⟩
  | some s =>
    rw [hs] at hclient
    obtain ⟨opts, happ, hfitting⟩ := hclient
    obtain ⟨bytes, happ', hzero⟩ := appendVci_appended netif state v happ.le
    refine ⟨_, happ.trans happ', fun hz => ?_⟩
    -- the first part has written nothing behind the end
    obtain ⟨pads, rfl⟩ := hzero fun i hi hlt => by
      rw [happ.other i (.inr hi)]
      exact hz i (by have := happ.outLen; dsimp only at this; omega) hlt
    refine ⟨pads, ?_⟩
    rw [wantedOptions, hfitting, List.flatMap_append, List.append_assoc]

/-- Each option asks for room for all of it. -/
theorem wantedOptions_size {o : Tlv} {size : Nat}
    (ho : (o, size) ∈ wantedOptions cfg netif state v) :
    (o.code = dhcpOptionClientId ∨ o.code = dhcpOptionVci) ∧ o.bytes.length ≤ size := by
  rcases List.mem_append.mp ho with ho | ho
  · rw [clientIdOption] at ho
    split at ho
    · cases List.mem_singleton.mp ho
      exact ⟨.inl rfl, Nat.le_refl _⟩
    · cases ho
  · rw [vciOption] at ho
    split at ho
    · obtain ⟨value, -, heq⟩ := Option.map_eq_some_iff.mp (Option.mem_toList.mp ho)
      cases heq
      exact ⟨.inr rfl, Nat.le_succ _⟩
    · cases ho

/-- The options that fit are well formed. -/
theorem fitting_ok {room : Nat} (hroom : room ≤ 255) :
    ∀ o ∈ fitting room (wantedOptions cfg netif state v), o.Ok := by
  intro o ho
  obtain ⟨size, hle, hmem⟩ := fitting_subset ho
  obtain ⟨hcode, hsize⟩ := wantedOptions_size hmem
  rw [Tlv.bytes_length] at hsize
  refine ⟨?_, ?_, by omega⟩
  · rcases hcode with hcode | hcode
    · rw [hcode]
      decide
    · rw [hcode]
      decide
  · rcases hcode with hcode | hcode
    · rw [hcode]
      decide
    · rw [hcode]
      decide

end Parts

/-- `dhcp_append_extra_opts` keeps to the buffer and to what is in it, and appends the client
identifier and the vendor class identifier, each in whole, as far as there is room. -/
theorem dhcpAppendExtraOpts_extended (cfg : LwipOpts) (netif : NamedNetif) (state : AppendState)
    (v : VendorClass) (options : Nat → UInt8) (optionsOutLen : Nat)
    (h : optionsOutLen ≤ cfg.dhcpOptionsLen) :
    (dhcpAppendExtraOpts cfg netif state v options optionsOutLen).Extended cfg.dhcpOptionsLen
      options optionsOutLen
      (fitting (cfg.dhcpOptionsLen - optionsOutLen) (wantedOptions cfg netif state v)) := by
  have hroom : cfg.dhcpOptionsLen - optionsOutLen ≤ 255 := by
    have := cfg.range.2
    omega
  obtain ⟨bytes, happ, hzero⟩ := dhcpAppendExtraOpts_appended v options h
  refine ⟨?_, ?_, ?_, ?_⟩
  · intro i hi
    exact (happ.writes i hi).resolve_left List.not_mem_nil
  · exact ⟨by rw [happ.outLen]; exact Nat.le_add_right .., happ.le⟩
  · intro i hi
    exact happ.other i (.inl hi)
  · intro hz
    obtain ⟨pads, rfl⟩ := hzero hz
    have hregion := happ.region
    dsimp only at hregion
    rw [hregion]
    exact ⟨⟨pads, rfl⟩, readOptions_padded (fitting_ok hroom) pads⟩

/-- A board with the default configuration, but the vendor class identifier -/
def defaultOpts : LwipOpts := ⟨68, true, true, true, by decide⟩

def boardNetif : NamedNetif := ⟨fun i => .ofNat (2 * i), 6, some [112, 105, 99, 111]⟩

/-- There is room for both options, with three bytes to spare. -/
theorem dhcpAppendExtraOpts_extended_both :
    (dhcpAppendExtraOpts defaultOpts boardNetif .selecting .init (fun _ => 0) 50).Extended 68
      (fun _ => 0) 50 [⟨61, [1, 0, 2, 4, 6, 8, 10]⟩, ⟨60, [112, 105, 99, 111]⟩] :=
  dhcpAppendExtraOpts_extended defaultOpts boardNetif .selecting .init (fun _ => 0) 50 (by decide)

end PicoHost.Dhcpc
