import PicoHost.Dhcps.Server
import Mathlib.Tactic.Ring

/-!
# The address pool set by `dhcps_poll_set`

Both kinds of pool lie in one block of 256 addresses. `PoolOk` adds that the
block does not end with the pool, so that the address after the last one is
still in the block and raw comparisons with it are right.

- `autoPoll_ok`: the automatically computed pool is such a pool whenever the
  mask leaves at least two host bits.
- `accepted_ok`: so is an accepted configured pool that does not end in `.255`.
-/

namespace PicoHost.Dhcps

open ByteOrder

/-- A non-empty pool inside one block of 256 addresses, with at least one more
address of the block above it. -/
structure PoolOk (poll : DhcpsLease) : Prop where
  block : host poll.startIp / 256 = host poll.endIp / 256
  le : host poll.startIp ≤ host poll.endIp
  last : host poll.endIp % 256 < 255

/-- A contiguous mask of `n` bits. -/
def IsMask (mask : UInt32) (n : Nat) : Prop := host mask = 2 ^ 32 - 2 ^ (32 - n)

instance (mask : UInt32) (n : Nat) : Decidable (IsMask mask n) :=
  inferInstanceAs (Decidable (host mask = 2 ^ 32 - 2 ^ (32 - n)))

/-! ## The next address -/

/-- The next address is one larger in host order. -/
theorem host_nextAddress {w : UInt32} (h : host w + 1 < 2 ^ 32) :
    host (nextAddress w) = host w + 1 := by
  rw [nextAddress, host_byteSwap, UInt32.toNat_add]
  exact Nat.mod_eq_of_lt h

/-- The address after 255.255.255.255 is 0.0.0.0. -/
theorem host_nextAddress_wrap {w : UInt32} (h : host w + 1 = 2 ^ 32) :
    host (nextAddress w) = 0 := by
  have h1 : (1 : UInt32).toNat = 1 := rfl
  rw [nextAddress, host_byteSwap, UInt32.toNat_add, h1]
  show (host w + 1) % 2 ^ 32 = 0
  rw [h, Nat.mod_self]

section Bounds

variable {poll : DhcpsLease} {w : UInt32}

/-- Everything from the first address to one past the last is in the block. -/
theorem PoolOk.same_block (ok : PoolOk poll) (hlo : host poll.startIp ≤ host w)
    (hhi : host w ≤ host poll.endIp + 1) : host w / 256 = host poll.endIp / 256 := by
  have := ok.block
  have := ok.last
  omega

/-- The raw bounds check `addr > end_ip` is the check on the numbers. -/
theorem PoolOk.end_lt_iff (ok : PoolOk poll) (hlo : host poll.startIp ≤ host w)
    (hhi : host w ≤ host poll.endIp + 1) :
    poll.endIp < w ↔ host poll.endIp < host w :=
  lt_iff_host_lt (ok.same_block hlo hhi).symm

/-- In the pool, addresses compare as their host numbers. -/
theorem PoolOk.lt_iff {v : UInt32} (ok : PoolOk poll)
    (hv : host poll.startIp ≤ host v) (hv' : host v ≤ host poll.endIp + 1)
    (hw : host poll.startIp ≤ host w) (hw' : host w ≤ host poll.endIp + 1) :
    v < w ↔ host v < host w :=
  lt_iff_host_lt ((ok.same_block hv hv').trans (ok.same_block hw hw').symm)

/-- Within the pool the next address does not wrap around. -/
theorem PoolOk.host_next (ok : PoolOk poll) (hhi : host w ≤ host poll.endIp) :
    host (nextAddress w) = host w + 1 := by
  have := ok.last
  have := host_lt poll.endIp
  exact host_nextAddress (by omega)

end Bounds

/-! ## The automatically computed pool -/

/-- The number of hosts behind a mask -/
theorem hostNum_toNat {mask : UInt32} {n : Nat} (hn : n ≤ 32) (hm : IsMask mask n) :
    ((0xffffffff : UInt32) &&& ~~~(byteSwap mask)).toNat = 2 ^ (32 - n) - 1 := by
  have hpow : 2 ^ (32 - n) ≤ 2 ^ 32 := Nat.pow_le_pow_right (by omega) (by omega)
  have hnot : (~~~(byteSwap mask)).toNat = 2 ^ 32 - 1 - host mask := UInt32.toNat_not _
  have hall : (0xffffffff : UInt32).toNat = 2 ^ 32 - 1 := rfl
  rw [UInt32.toNat_and, Nat.and_comm, hall, Nat.and_two_pow_sub_one_eq_mod, hnot, hm]
  have : 0 < 2 ^ (32 - n) := Nat.two_pow_pos _
  omega

/-- The ends of the automatic pool: it starts 100 addresses below the server or just
above it, and its length is cut to the number of hosts. -/
theorem autoPoll_host {mask ip : UInt32} {n : Nat} (hn : n ≤ 30) (hm : IsMask mask n) :
    host (autoPoll mask ip).startIp =
        (if 128 ≤ host ip % 256 then host ip - 100 else host ip + 1) ∧
      host (autoPoll mask ip).endIp =
        (if 128 ≤ host ip % 256 then host ip - 100 else host ip) + min (2 ^ (32 - n) - 1) 100 - 1 := by
  have hpow : 2 ^ 2 ≤ 2 ^ (32 - n) := Nat.pow_le_pow_right (by omega) (by omega)
  have hnum := hostNum_toNat (by omega) hm
  have hhigh : (byteSwap ip &&& 0xFFFFFF00).toNat = 256 * (host ip / 256) := land_high _
  have hlow : (byteSwap ip &&& 0xFF).toNat = host ip % 256 := land_low _
  have hmax : dhcpsMaxLease.toNat = 100 := rfl
  have h80 : (0x80 : UInt32).toNat = 128 := rfl
  have h1 : (1 : UInt32).toNat = 1 := rfl
  have hbyte : host ip % 256 < 256 := Nat.mod_lt _ (by omega)
  have hip : host ip = 256 * (host ip / 256) + host ip % 256 := by omega
  simp only [autoPoll, host_byteSwap]
  generalize (0xffffffff : UInt32) &&& ~~~(byteSwap mask) = num at *
  generalize byteSwap ip &&& 0xFFFFFF00 = net at *
  generalize byteSwap ip &&& 0xFF = low at *
  -- the number of hosts the pool is cut to
  have hcut : (if dhcpsMaxLease < num then dhcpsMaxLease else num).toNat =
      min (2 ^ (32 - n) - 1) 100 := by
    split
    case isTrue h =>
      rw [UInt32.lt_iff_toNat_lt, hmax] at h
      omega
    case isFalse h =>
      rw [UInt32.lt_iff_toNat_lt, hmax] at h
      omega
  generalize (if dhcpsMaxLease < num then dhcpsMaxLease else num) = cut at *
  by_cases h : 0x80 ≤ low
  · -- the pool starts 100 addresses below the server
    have hge : 128 ≤ low.toNat := by rwa [UInt32.le_iff_toNat_le, h80] at h
    have hsub : (low - dhcpsMaxLease).toNat = low.toNat - 100 := by
      rw [UInt32.toNat_sub, hmax]
      omega
    have hend : (low - dhcpsMaxLease + cut - 1).toNat = low.toNat - 100 + cut.toNat - 1 := by
      rw [UInt32.toNat_sub, UInt32.toNat_add, hsub, h1]
      omega
    have hoctet : 128 ≤ host ip % 256 := hlow ▸ hge
    constructor
    · rw [if_pos h, if_pos hoctet, lor_low (by omega) (by omega), hsub, hhigh]
      omega
    · rw [if_pos h, if_pos hoctet, lor_low (by omega) (by omega), hend, hhigh]
      omega
  · -- the pool starts just above the server
    have hlt : low.toNat < 128 := by
      rw [UInt32.le_iff_toNat_le, h80] at h
      omega
    have hadd : (low + 1).toNat = low.toNat + 1 := by
      rw [UInt32.toNat_add, h1]
      omega
    have hend : (low + cut - 1).toNat = low.toNat + cut.toNat - 1 := by
      rw [UInt32.toNat_sub, UInt32.toNat_add, h1]
      omega
    have hoctet : ¬ 128 ≤ host ip % 256 := by omega
    constructor
    · rw [if_neg h, if_neg hoctet, lor_low (by omega) (by omega), hadd, hhigh]
      omega
    · rw [if_neg h, if_neg hoctet, lor_low (by omega) (by omega), hend, hhigh]
      omega

/-- The bounds of the automatic pool, as last octets in the server's block. -/
theorem autoPoll_bounds {mask ip : UInt32} {n : Nat} (hn : n ≤ 30) (hm : IsMask mask n) :
    ∃ lo hi : Nat, 1 ≤ lo ∧ lo ≤ hi ∧ hi < 255 ∧
      host (autoPoll mask ip).startIp = 256 * (host ip / 256) + lo ∧
      host (autoPoll mask ip).endIp = 256 * (host ip / 256) + hi := by
  have hpow : 2 ^ 2 ≤ 2 ^ (32 - n) := Nat.pow_le_pow_right (by omega) (by omega)
  obtain ⟨hstart, hend⟩ := @autoPoll_host mask ip n hn hm
  refine ⟨host (autoPoll mask ip).startIp - 256 * (host ip / 256),
    host (autoPoll mask ip).endIp - 256 * (host ip / 256), ?_⟩
  rw [hstart, hend]
  by_cases h : 128 ≤ host ip % 256
  · simp only [if_pos h]
    omega
  · simp only [if_neg h]
    omega

/-- A computed pool is in order. -/
theorem autoPoll_ok {mask ip : UInt32} {n : Nat} (hn : n ≤ 30) (hm : IsMask mask n) :
    PoolOk (autoPoll mask ip) := by
  obtain ⟨lo, hi, -, hle, hhi, hs, he⟩ := @autoPoll_bounds mask ip n hn hm
  constructor <;> omega

/-! ## An accepted configured pool -/

/-- What the checks on a configured pool establish. -/
theorem pollAccepted_iff {poll : DhcpsLease} {ip : UInt32} :
    pollAccepted poll ip = true ↔ poll.enable = true ∧
      ¬ (host poll.startIp ≤ host ip ∧ host ip ≤ host poll.endIp) ∧
      host poll.startIp / 256 = host ip / 256 ∧ host poll.endIp / 256 = host ip / 256 ∧
      host poll.startIp ≤ host poll.endIp ∧
      host poll.endIp - host poll.startIp ≤ 100 := by
  have hs : (byteSwap poll.startIp).toNat = host poll.startIp := rfl
  have he : (byteSwap poll.endIp).toNat = host poll.endIp := rfl
  have hi : (byteSwap ip).toNat = host ip := rfl
  have hmax : dhcpsMaxLease.toNat = 100 := rfl
  have hlt := host_lt poll.startIp
  simp only [pollAccepted, Bool.and_eq_true, Bool.not_eq_true', Bool.and_eq_false_iff,
    Bool.or_eq_false_iff, decide_eq_false_iff_not, ne_eq, not_not, ← UInt32.toNat_inj,
    UInt32.le_iff_toNat_le, UInt32.lt_iff_toNat_lt, shiftRight_toNat, hs, he, hi, hmax,
    UInt32.toNat_sub]
  constructor
  · rintro ⟨⟨hen, hout⟩, ⟨hsb, heb⟩, hsize⟩
    refine ⟨hen, by omega, hsb, heb, ?_, ?_⟩ <;> omega
  · rintro ⟨hen, hout, hsb, heb, hle, hsize⟩
    refine ⟨⟨hen, by omega⟩, ⟨hsb, heb⟩, by omega⟩

/-- Accepted pools that end below `.255`. -/
theorem accepted_ok {poll : DhcpsLease} {ip : UInt32} (h : pollAccepted poll ip = true)
    (hlast : host poll.endIp % 256 ≠ 255) : PoolOk poll := by
  obtain ⟨-, -, hs, he, hle, -⟩ := pollAccepted_iff.mp h
  exact ⟨hs.trans he.symm, hle, by omega⟩

end PicoHost.Dhcps
