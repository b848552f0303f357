import Mathlib.Data.List.GetD
import PicoHost.Lib.ByteOrder
import PicoHost.Lib.FreeList

/-!
# Options that the DHCP client keeps (`lwip_default_hooks.c`)

`dhcp_parse_extra_opts` takes the MTU from a reply, and the vendor-specific information into a store
of sixteen words; `dhcp_get_vendor_specific_information` copies the bytes of these words. lwIP's
pbufs are a parameter.

Every word is read at the offset of the first one, a word is stored in the byte order of the number
that it is in the payload, and what an earlier payload has left is not cleared.
-/

namespace PicoHost.Dhcpc

open ByteOrder (byteSwap)
open FreeList (load)

/-- lwIP's pbuf chains: what the pbufs of a chain have one after the other, and
`pbuf_copy_partial`, which copies as much of that as there is. -/
structure Pbufs where
  Pbuf : Type
  bytes : Pbuf → List UInt8
  copyPartial : Pbuf → Nat → Nat → List UInt8
  copyPartial_eq : ∀ p len offset, copyPartial p len offset = ((bytes p).drop offset).take len

/-- The states of lwIP's client that the function looks for -/
inductive DhcpState where
  | rebooting | rebinding | renewing | requesting | selecting | other
deriving DecidableEq, Repr

/-- The state is one of those in which the vendor-specific information is taken. -/
def DhcpState.takesVsi : DhcpState → Bool
  | .other => false
  | _ => true

/-- The same for the MTU -/
def DhcpState.takesMtu : DhcpState → Bool
  | .selecting | .other => false
  | _ => true

/-- `DHCP_OPTION_MTU`, `DHCP_OPTION_VSI` and `DHCP_OPTION_VSI_MAX` -/
def dhcpOptionMtu : UInt8 := 26

def dhcpOptionVsi : UInt8 := 43

def dhcpOptionVsiMax : Nat := 16

/-- A `struct netif`: its client and its MTU -/
structure Netif where
  dhcp : Nat
  mtu : UInt16
deriving DecidableEq, Repr

/-- `dhcp_option_vsi`, with the reads of the payload (offset and length) and the indices that were
written -/
structure Vsi where
  words : Nat → UInt32
  reads : List (Nat × Nat)
  writes : List Nat

/-! ## The code -/

/-- `lwip_htonl` of the number that four bytes in memory are -/
def htonl (value : Nat → UInt8) : UInt32 := byteSwap (.ofNat (load value 0))

/-- The memory of a variable after a copy to its first bytes -/
def overwrite (value : Nat → UInt8) (copied : List UInt8) (i : Nat) : UInt8 :=
  copied.getD i (value i)

section Code

variable (L : Pbufs)

/-- The loop over the words; `value` is not initialized before the first one. -/
def vsiLoop (p : L.Pbuf) (offset n len : Nat) (value : Nat → UInt8) (s : Vsi) : Vsi :=
  if n < dhcpOptionVsiMax ∧ 0 < len then
    let copyLen := min len 4
    let copied := L.copyPartial p copyLen offset
    let s := { s with reads := s.reads ++ [(offset, copyLen)] }
    if copied.length = copyLen then
      let value := overwrite value copied
      vsiLoop p offset (n + 1) (len - copyLen) value { s with
        words := fun k => if k = n then htonl value else s.words k
        writes := s.writes ++ [n] }
    else s
  else s
termination_by dhcpOptionVsiMax - n

/-- The first interface of the client gets a smaller MTU. -/
def updateMtu (dhcp : Nat) (mtu : UInt16) : List Netif → List Netif
  | [] => []
  | netif :: rest =>
    if netif.dhcp = dhcp then (if mtu < netif.mtu then { netif with mtu } else netif) :: rest
    else netif :: updateMtu dhcp mtu rest

/-- `dhcp_parse_extra_opts` (lwip_default_hooks.c:178–224) -/
def dhcpParseExtraOpts (dhcp : Nat) (state : DhcpState) (option len : UInt8) (p : L.Pbuf)
    (offset : UInt16) (value : Nat → UInt8) (netifs : List Netif) (vsi : Nat → UInt32) :
    List Netif × Vsi :=
  if option = dhcpOptionMtu ∧ state.takesMtu then
    let copied := L.copyPartial p 2 offset.toNat
    if len = 2 ∧ copied.length = 2 then
      (updateMtu dhcp ((copied.getD 0 0).toUInt16 * 256 + (copied.getD 1 0).toUInt16) netifs,
        ⟨vsi, [], []⟩)
    else (netifs, ⟨vsi, [], []⟩)
  else if option = dhcpOptionVsi ∧ state.takesVsi then
    (netifs, vsiLoop L p offset.toNat 0 len.toNat value ⟨vsi, [], []⟩)
  else (netifs, ⟨vsi, [], []⟩)

end Code

/-- The bytes of the store in memory -/
def vsiBytes (vsi : Nat → UInt32) (i : Nat) : UInt8 :=
  .ofNat ((vsi (i / 4)).toNat / 256 ^ (i % 4))

/-- `dhcp_get_vendor_specific_information` (lwip_default_hooks.c:138–151) with room for the copy:
`none` for `ERR_ARG` -/
def dhcpGetVendorSpecificInformation (vsi : Nat → UInt32) (len : UInt8) : Option (List UInt8) :=
  if len = 0 then none
  else some ((List.range (min len.toNat (4 * dhcpOptionVsiMax))).map (vsiBytes vsi))

/-! ## What the store should hold -/

/-- The number of four bytes, the first one the highest -/
def bigEndian (b : Nat → UInt8) : UInt32 :=
  .ofNat ((b 0).toNat * 2 ^ 24 + (b 1).toNat * 2 ^ 16 + (b 2).toNat * 2 ^ 8 + (b 3).toNat)

/-- The payload with zeros behind it -/
def padded (payload : List UInt8) (i : Nat) : UInt8 := payload.getD i 0

/-- How many words a payload takes -/
def wordCount (payload : List UInt8) : Nat := (payload.length + 3) / 4

/-- The store has the words of the payload and nothing else, and the payload can be read back. -/
structure VsiHolds (payload : List UInt8) (vsi : Nat → UInt32) : Prop where
  word : ∀ k < wordCount payload, vsi k = bigEndian fun i => padded payload (4 * k + i)
  rest : ∀ k, wordCount payload ≤ k → k < dhcpOptionVsiMax → vsi k = 0
  get : payload ≠ [] →
    dhcpGetVendorSpecificInformation vsi (.ofNat payload.length) = some payload

/-- Only the payload has been read, and only the store written. -/
structure Vsi.Within (s : Vsi) (offset len : Nat) : Prop where
  reads : ∀ r ∈ s.reads, offset ≤ r.1 ∧ r.1 + r.2 ≤ offset + len
  writes : ∀ n ∈ s.writes, n < dhcpOptionVsiMax

/-- The store has the payload, and the code has kept to the payload and the store. -/
structure VsiStored (payload : List UInt8) (offset : Nat) (s : Vsi) : Prop extends
    s.Within offset payload.length where
  holds : VsiHolds payload s.words

/-- The first word that is copied: what the payload does not fill is what was in memory. -/
def firstWord (payload : List UInt8) (value : Nat → UInt8) (i : Nat) : UInt8 :=
  payload.getD i (value i)

/-- The payload, filled up with zeros, repeats the first word that is copied, reads the same in both
directions in each word, and leaves no word of an earlier payload. -/
structure Repeats (payload : List UInt8) (value : Nat → UInt8) (vsi : Nat → UInt32) : Prop where
  word : ∀ k < wordCount payload, ∀ i < 4,
    padded payload (4 * k + i) = firstWord payload value i
  mirror : ∀ i < payload.length, padded payload i = padded payload (4 * (i / 4) + (3 - i % 4))
  rest : ∀ k, wordCount payload ≤ k → k < dhcpOptionVsiMax → vsi k = 0

/-- What is needed for that: in a state in which the option is not looked at, the store has it
already. -/
def MeetsVsi (state : DhcpState) (payload : List UInt8) (value : Nat → UInt8)
    (vsi : Nat → UInt32) : Prop :=
  if state.takesVsi then Repeats payload value vsi else VsiHolds payload vsi

/-! ## Words and bytes -/

section Words

variable {b c : Nat → UInt8}

/-- The value of four bytes in network order -/
theorem bigEndian_toNat (b : Nat → UInt8) : (bigEndian b).toNat =
    (b 0).toNat * 2 ^ 24 + (b 1).toNat * 2 ^ 16 + (b 2).toNat * 2 ^ 8 + (b 3).toNat := by
  have h0 := (b 0).toNat_lt
  have h1 := (b 1).toNat_lt
  have h2 := (b 2).toNat_lt
  have h3 := (b 3).toNat_lt
  rw [bigEndian, UInt32.toNat_ofNat']
  exact Nat.mod_eq_of_lt (by omega)

/-- A word depends on its four bytes. -/
theorem bigEndian_congr (h : ∀ i < 4, b i = c i) : bigEndian b = bigEndian c := by
  rw [bigEndian, bigEndian, h 0 (by decide), h 1 (by decide), h 2 (by decide), h 3 (by decide)]

/-- Byte `j` of the number in memory is the byte at the other end. -/
theorem bigEndian_byte (b : Nat → UInt8) {j : Nat} (hj : j < 4) :
    UInt8.ofNat ((bigEndian b).toNat / 256 ^ j) = b (3 - j) := by
  have h0 := (b 0).toNat_lt
  have h1 := (b 1).toNat_lt
  have h2 := (b 2).toNat_lt
  have h3 := (b 3).toNat_lt
  apply UInt8.toNat_inj.mp
  rw [bigEndian_toNat, UInt8.toNat_ofNat']
  obtain rfl | rfl | rfl | rfl : j = 0 ∨ j = 1 ∨ j = 2 ∨ j = 3 := by omega
  · show _ / 1 % 2 ^ 8 = (b 3).toNat
    omega
  · show _ / 256 % 2 ^ 8 = (b 2).toNat
    omega
  · show _ / 65536 % 2 ^ 8 = (b 1).toNat
    omega
  · show _ / 16777216 % 2 ^ 8 = (b 0).toNat
    omega

/-- Words that are equal have the same bytes. -/
theorem bigEndian_inj (h : bigEndian b = bigEndian c) : ∀ i < 4, b i = c i := by
  intro i hi
  have hb := bigEndian_byte b (show 3 - i < 4 by omega)
  have hc := bigEndian_byte c (show 3 - i < 4 by omega)
  rw [h] at hb
  rw [show 3 - (3 - i) = i by omega] at hb hc
  exact hb.symm.trans hc

/-- `lwip_htonl` makes a number of the bytes in the order of the network. -/
theorem htonl_eq (b : Nat → UInt8) : htonl b = bigEndian b := by
  have h0 := (b 0).toNat_lt
  have h1 := (b 1).toNat_lt
  have h2 := (b 2).toNat_lt
  have h3 := (b 3).toNat_lt
  have hload : (UInt32.ofNat (load b 0)).toNat =
      (b 0).toNat + 2 ^ 8 * (b 1).toNat + 2 ^ 16 * (b 2).toNat + 2 ^ 24 * (b 3).toNat := by
    rw [UInt32.toNat_ofNat', load, Nat.zero_add, Nat.zero_add, Nat.zero_add]
    omega
  apply UInt32.toNat_inj.mp
  rw [htonl, ByteOrder.byteSwap_toNat h0 h1 h2 h3 hload, bigEndian_toNat]
  omega

end Words

/-! ## The loop -/

section Loop

variable {L : Pbufs} {p : L.Pbuf} {offset : Nat} {payload after : List UInt8}

/-- A copy of the first bytes of the payload -/
theorem copyPartial_payload (hp : (L.bytes p).drop offset = payload ++ after) {n : Nat}
    (hn : n ≤ payload.length) : L.copyPartial p n offset = payload.take n := by
  rw [L.copyPartial_eq, hp, List.take_append_of_le_length hn]

/-- Copying a part of the payload overwrites a part of the value. -/
theorem overwrite_take (value : Nat → UInt8) {n i : Nat} :
    overwrite value (payload.take n) i =
      if i < n then payload.getD i (value i) else value i := by
  rw [overwrite, List.getD_eq_getElem?_getD, List.getElem?_take]
  split
  · rw [List.getD_eq_getElem?_getD]
  · rfl

/-- The store after a word -/
def Vsi.wordCopied (s : Vsi) (offset n copyLen : Nat) (value : Nat → UInt8) : Vsi where
  words k := if k = n then bigEndian value else s.words k
  reads := s.reads ++ [(offset, copyLen)]
  writes := s.writes ++ [n]

/-- Nothing is left to copy. -/
theorem vsiLoop_done {n : Nat} {value : Nat → UInt8} {s : Vsi} :
    vsiLoop L p offset n 0 value s = s := by
  rw [vsiLoop, if_neg fun h => absurd h.2 (Nat.lt_irrefl 0)]

/-- Within the payload the copy is never too short. -/
theorem vsiLoop_step (hp : (L.bytes p).drop offset = payload ++ after) {n len : Nat}
    (value : Nat → UInt8) (s : Vsi) (hpos : 0 < len) (hlen : len ≤ payload.length)
    (hn : n < dhcpOptionVsiMax) :
    vsiLoop L p offset n len value s =
      vsiLoop L p offset (n + 1) (len - min len 4) (overwrite value (payload.take (min len 4)))
        (s.wordCopied offset n (min len 4) (overwrite value (payload.take (min len 4)))) := by
  have hmin : min len 4 ≤ payload.length := by omega
  rw [vsiLoop, if_pos ⟨hn, hpos⟩]
  dsimp only
  rw [copyPartial_payload hp hmin, if_pos (by rw [List.length_take]; omega), htonl_eq]
  rfl

/-- What is copied next is the beginning of the payload again. -/
theorem overwrite_again {len m i : Nat} (value : Nat → UInt8) (hlen : len ≤ payload.length)
    (hm : m ≤ min len 4) :
    overwrite (overwrite value (payload.take (min len 4))) (payload.take m) i =
      overwrite value (payload.take (min len 4)) i := by
  rw [overwrite_take]
  split
  · rw [overwrite_take, if_pos (by omega), List.getD_eq_getElem _ _ (by omega),
      List.getD_eq_getElem _ _ (by omega)]
  · rfl

/-- Every word of the payload becomes `first`, the word that is copied first. -/
theorem vsiLoop_words (hp : (L.bytes p).drop offset = payload ++ after) (first : Nat → UInt8)
    (len : Nat) : ∀ (n : Nat) (value : Nat → UInt8) (s : Vsi), len ≤ payload.length →
      n + (len + 3) / 4 ≤ dhcpOptionVsiMax →
      (∀ i < 4, overwrite value (payload.take (min len 4)) i = first i) →
      ∀ k, (vsiLoop L p offset n len value s).words k =
        if n ≤ k ∧ k < n + (len + 3) / 4 then bigEndian first else s.words k := by
  induction len using Nat.strongRecOn with
  | _ len ih =>
    intro n value s hlen hmax hfirst k
    rcases Nat.eq_zero_or_pos len with rfl | hpos
    · rw [vsiLoop_done, if_neg (by omega)]
    · rw [vsiLoop_step hp value s hpos hlen (by omega)]
      rw [ih (len - min len 4) (by omega) (n + 1) _ _ (by omega) (by omega)
        fun i hi => (overwrite_again value hlen (by omega)).trans (hfirst i hi)]
      dsimp only [Vsi.wordCopied]
      by_cases hk : k = n
      · rw [if_neg (by omega), if_pos hk, if_pos (by omega)]
        exact bigEndian_congr hfirst
      · rw [if_neg hk]
        have hiff : (n + 1 ≤ k ∧ k < n + 1 + (len - min len 4 + 3) / 4) ↔
            (n ≤ k ∧ k < n + (len + 3) / 4) := by omega
        simp only [hiff]

/-- A word that is stored stays within the array and the option. -/
theorem Vsi.Within.wordCopied {s : Vsi} {len n copyLen : Nat} {value : Nat → UInt8}
    (h : s.Within offset len) (hlen : copyLen ≤ len) (hn : n < dhcpOptionVsiMax) :
    (s.wordCopied offset n copyLen value).Within offset len := by
  constructor
  · intro r hr
    rcases List.mem_append.mp hr with hr | hr
    · exact h.reads r hr
    · rw [List.mem_singleton.mp hr]
      exact ⟨Nat.le_refl _, Nat.add_le_add_left hlen _⟩
  · intro m hm
    rcases List.mem_append.mp hm with hm | hm
    · exact h.writes m hm
    · rw [List.mem_singleton.mp hm]
      exact hn

/-- The loop stays within the array and the option. -/
theorem vsiLoop_within (hp : (L.bytes p).drop offset = payload ++ after) (len : Nat) :
    ∀ (n : Nat) (value : Nat → UInt8) (s : Vsi), len ≤ payload.length →
      n + (len + 3) / 4 ≤ dhcpOptionVsiMax → s.Within offset payload.length →
      (vsiLoop L p offset n len value s).Within offset payload.length := by
  induction len using Nat.strongRecOn with
  | _ len ih =>
    intro n value s hlen hmax hs
    rcases Nat.eq_zero_or_pos len with rfl | hpos
    · rwa [vsiLoop_done]
    · rw [vsiLoop_step hp value s hpos hlen (by omega)]
      exact ih (len - min len 4) (by omega) (n + 1) _ _ (by omega) (by omega)
        (hs.wordCopied (by omega) (by omega))

end Loop

/-! ## What the store has -/

section Stored

variable {payload : List UInt8} {value : Nat → UInt8} {vsi : Nat → UInt32}

/-- A payload of 64 bytes fits the array. -/
theorem wordCount_le (hlen : payload.length ≤ 64) : wordCount payload ≤ dhcpOptionVsiMax := by
  show (payload.length + 3) / 4 ≤ 16
  omega

/-- Its length fits the length byte. -/
theorem length_toNat (hlen : payload.length ≤ 64) :
    (UInt8.ofNat payload.length).toNat = payload.length := by
  rw [UInt8.toNat_ofNat']
  exact Nat.mod_eq_of_lt (by omega)

/-- The getter with the length of the payload -/
theorem getter_payload (vsi : Nat → UInt32) (hlen : payload.length ≤ 64) (hne : payload ≠ []) :
    dhcpGetVendorSpecificInformation vsi (.ofNat payload.length) =
      some ((List.range payload.length).map (vsiBytes vsi)) := by
  have hpos := List.length_pos_iff.mpr hne
  have hnat := length_toNat hlen
  have hzero : UInt8.ofNat payload.length ≠ 0 := by
    intro h
    rw [h] at hnat
    exact absurd hnat (Nat.ne_of_lt hpos)
  rw [dhcpGetVendorSpecificInformation, if_neg hzero, hnat,
    Nat.min_eq_left (show payload.length ≤ 4 * dhcpOptionVsiMax from hlen)]

/-- The bytes of the payload, with the padding left out -/
theorem map_range_eq_iff (f : Nat → UInt8) :
    (List.range payload.length).map f = payload ↔ ∀ i < payload.length, f i = padded payload i := by
  constructor
  · intro h i hi
    have hi' := congrArg (fun l => l.getD i 0) h
    simp only [List.getD_eq_getElem?_getD, List.getElem?_map, List.getElem?_range hi] at hi'
    rw [padded, List.getD_eq_getElem?_getD, ← hi']
    rfl
  · intro h
    apply List.ext_getElem
    · rw [List.length_map, List.length_range]
    · intro i hi hi'
      rw [List.getElem_map, List.getElem_range, h i hi', padded, List.getD_eq_getElem _ _ hi']

/-- Byte `i` of a store that has the words of the payload -/
theorem vsiBytes_word (hword : ∀ k < wordCount payload,
    vsi k = bigEndian fun i => padded payload (4 * k + i)) {i : Nat} (hi : i < payload.length) :
    vsiBytes vsi i = padded payload (4 * (i / 4) + (3 - i % 4)) := by
  have hk : i / 4 < wordCount payload := by
    show i / 4 < (payload.length + 3) / 4
    omega
  rw [vsiBytes, hword _ hk, bigEndian_byte _ (Nat.mod_lt i (by decide))]

/-- What is read back is the payload when each word reads the same in both directions. -/
theorem vsiHolds_iff (hlen : payload.length ≤ 64) : VsiHolds payload vsi ↔
    (∀ k < wordCount payload, vsi k = bigEndian fun i => padded payload (4 * k + i)) ∧
    (∀ i < payload.length, padded payload i = padded payload (4 * (i / 4) + (3 - i % 4))) ∧
    ∀ k, wordCount payload ≤ k → k < dhcpOptionVsiMax → vsi k = 0 := by
  constructor
  · rintro ⟨hword, hrest, hget⟩
    refine ⟨hword, fun i hi => ?_, hrest⟩
    have hne : payload ≠ [] := List.length_pos_iff.mp (by omega)
    rw [getter_payload vsi hlen hne, Option.some.injEq, map_range_eq_iff] at hget
    rw [← vsiBytes_word hword hi, hget hne i hi]
  · rintro ⟨hword, hmirror, hrest⟩
    refine ⟨hword, hrest, fun hne => ?_⟩
    rw [getter_payload vsi hlen hne, Option.some.injEq, map_range_eq_iff]
    intro i hi
    rw [vsiBytes_word hword hi, hmirror i hi]

/-- A store in which the first words are the one that was copied first -/
theorem vsiHolds_repeated (hlen : payload.length ≤ 64) {words : Nat → UInt32}
    (hwords : ∀ k, words k = if k < wordCount payload then bigEndian (firstWord payload value)
      else vsi k) :
    VsiHolds payload words ↔ Repeats payload value vsi := by
  rw [vsiHolds_iff hlen]
  constructor
  · rintro ⟨hword, hmirror, hrest⟩
    refine ⟨fun k hk i hi => ?_, hmirror, fun k hk hmax => ?_⟩
    · have hk' := hword k hk
      rw [hwords, if_pos hk] at hk'
      exact (bigEndian_inj hk' i hi).symm
    · have hk' := hrest k hk hmax
      rwa [hwords, if_neg (Nat.not_lt.mpr hk)] at hk'
  · rintro ⟨hword, hmirror, hrest⟩
    refine ⟨fun k hk => ?_, hmirror, fun k hk hmax => ?_⟩
    · rw [hwords, if_pos hk]
      exact bigEndian_congr fun i hi => (hword k hk i hi).symm
    · rw [hwords, if_neg (Nat.not_lt.mpr hk)]
      exact hrest k hk hmax

end Stored

/-! ## The option in a reply -/

section Option

variable {L : Pbufs} {p : L.Pbuf} {payload after : List UInt8}

/-- What the option stores, for the interface that the code finds -/
theorem dhcpParseExtraOpts_vsi (dhcp : Nat) (state : DhcpState) (len : UInt8) (p : L.Pbuf)
    (offset : UInt16) (value : Nat → UInt8) (netifs : List Netif) (vsi : Nat → UInt32) :
    dhcpParseExtraOpts L dhcp state dhcpOptionVsi len p offset value netifs vsi =
      (netifs, if state.takesVsi then vsiLoop L p offset.toNat 0 len.toNat value ⟨vsi, [], []⟩
        else ⟨vsi, [], []⟩) := by
  rw [dhcpParseExtraOpts, if_neg fun h => absurd h.1 (by decide)]
  by_cases hstate : state.takesVsi
  · rw [if_pos ⟨rfl, hstate⟩, if_pos hstate]
  · rw [if_neg fun h => hstate h.2, if_neg hstate]

/-- What the whole loop makes of the store -/
theorem vsiLoop_payload {offset : Nat} (hp : (L.bytes p).drop offset = payload ++ after)
    (hlen : payload.length ≤ 64) (value : Nat → UInt8) (vsi : Nat → UInt32) (k : Nat) :
    (vsiLoop L p offset 0 payload.length value ⟨vsi, [], []⟩).words k =
      if k < wordCount payload then bigEndian (firstWord payload value) else vsi k := by
  have hmax : 0 + wordCount payload ≤ dhcpOptionVsiMax := by
    rw [Nat.zero_add]
    exact wordCount_le hlen
  have hfirst : ∀ i < 4, overwrite value (payload.take (min payload.length 4)) i =
      firstWord payload value i := by
    intro i hi
    rw [overwrite_take, firstWord]
    split
    · rfl
    · rw [List.getD_eq_default _ _ (by omega)]
  rw [vsiLoop_words hp (firstWord payload value) payload.length 0 value ⟨vsi, [], []⟩
    (Nat.le_refl _) hmax hfirst, Nat.zero_add]
  simp only [Nat.zero_le, true_and]
  rfl

/-- After the option the store has the payload, nothing else has been read or written, and the
getter gives the payload, just when the payload repeats its first word, reads the same in both
directions in each word and nothing was left in the store behind it. -/
theorem vsiStored_iff (L : Pbufs) (dhcp : Nat) (state : DhcpState) (p : L.Pbuf) (offset : UInt16)
    (value : Nat → UInt8) (netifs : List Netif) (vsi : Nat → UInt32) (payload after : List UInt8)
    (hp : (L.bytes p).drop offset.toNat = payload ++ after) (hlen : payload.length ≤ 64) :
    VsiStored payload offset.toNat
        (dhcpParseExtraOpts L dhcp state dhcpOptionVsi (.ofNat payload.length) p offset value netifs
          vsi).2 ↔
      MeetsVsi state payload value vsi := by
  rw [dhcpParseExtraOpts_vsi, length_toNat hlen, MeetsVsi]
  dsimp only
  have hempty : Vsi.Within ⟨vsi, [], []⟩ offset.toNat payload.length :=
    ⟨fun _ hr => (by cases hr), fun _ hn => (by cases hn)⟩
  by_cases hstate : state.takesVsi
  · rw [if_pos hstate, if_pos hstate, ← vsiHolds_repeated hlen (vsiLoop_payload hp hlen value vsi)]
    have hwithin := vsiLoop_within hp payload.length 0 value ⟨vsi, [], []⟩ (Nat.le_refl _)
      (by rw [Nat.zero_add]; exact wordCount_le hlen) hempty
    exact ⟨VsiStored.holds, fun h => ⟨hwithin, h⟩⟩
  -- the option is not looked at
  · rw [if_neg hstate, if_neg hstate]
    exact ⟨VsiStored.holds, fun h => ⟨hempty, h⟩⟩

end Option

/-! ## Chains of segments -/

/-- A chain as the payloads of its pbufs -/
def segments : Pbufs where
  Pbuf := List (List UInt8)
  bytes := List.flatten
  copyPartial := fun p len offset => (p.flatten.drop offset).take len
  copyPartial_eq := fun _ _ _ => rfl

/-- Eight equal bytes in two pbufs, and a store that is empty -/
theorem vsiStored_repeated :
    VsiStored [7, 7, 7, 7, 7, 7, 7, 7] 2
      (dhcpParseExtraOpts segments 0 .requesting dhcpOptionVsi 8
        [[43, 8, 7, 7, 7], [7, 7, 7, 7, 7, 255]] 2 (fun _ => 0) [] (fun _ => 0)).2 := by
  refine (vsiStored_iff segments 0 .requesting [[43, 8, 7, 7, 7], [7, 7, 7, 7, 7, 255]] 2
    (fun _ => 0) [] (fun _ => 0) [7, 7, 7, 7, 7, 7, 7, 7] [255] rfl (by decide)).mpr ?_
  show Repeats _ _ _
  exact ⟨by decide, by decide, fun _ _ _ => rfl⟩

/-- The second word of eight different bytes is the first one again, and what is read back is the
first four bytes in the other order. -/
theorem vsi_words_repeated :
    (dhcpParseExtraOpts segments 0 .requesting dhcpOptionVsi 8 [[1, 2, 3, 4, 5, 6, 7, 8]] 0
      (fun _ => 0) [] (fun _ => 0)).2.words 1 = 0x01020304 ∧
    ¬ VsiStored [1, 2, 3, 4, 5, 6, 7, 8] 0
      (dhcpParseExtraOpts segments 0 .requesting dhcpOptionVsi 8 [[1, 2, 3, 4, 5, 6, 7, 8]] 0
        (fun _ => 0) [] (fun _ => 0)).2 := by
  have hword : (dhcpParseExtraOpts segments 0 .requesting dhcpOptionVsi 8
      [[1, 2, 3, 4, 5, 6, 7, 8]] 0 (fun _ => 0) [] (fun _ => 0)).2.words 1 = 0x01020304 := by
    decide +kernel
  refine ⟨hword, fun h => ?_⟩
  have h' := h.holds.word 1 (by decide)
  rw [hword] at h'
  exact absurd h' (by decide)

end PicoHost.Dhcpc
