import PicoHost.Dhcps.Pool
import Mathlib.Data.Nat.Factorization.Basic

/-!
# The pool and the subnet of the server

`dhcps_start` accepts exactly the contiguous masks (`isInvalidSubnetMask_eq_false_iff`).
`dhcps_poll_set` cuts the computed pool to the number of hosts of the mask, but it
places the pool by the last octet of the server's address alone: 100 addresses below
the server or just above it. `AutoFits` says when the pool stays inside the subnet,
which the checks on a configured pool do not ask about at all.

Subnets are computed on words in host order, as `dhcps_poll_set` does.
-/

namespace PicoHost.Dhcps

open ByteOrder

/-! ## Subnets -/

/-- The network address of the subnet of an address, in host order. -/
def networkAddress (mask ip : UInt32) : UInt32 := byteSwap ip &&& byteSwap mask

/-- The broadcast address of the subnet of an address, in host order. -/
def broadcastAddress (mask ip : UInt32) : UInt32 := byteSwap ip ||| ~~~(byteSwap mask)

/-- An address that a client in the server's subnet can have. -/
structure ClientAddress (mask ip a : UInt32) : Prop where
  subnet : networkAddress mask a = networkAddress mask ip
  neServer : a ≠ ip
  neNetwork : byteSwap a ≠ networkAddress mask ip
  neBroadcast : byteSwap a ≠ broadcastAddress mask ip

/-- A pool that is not empty and holds addresses for clients only. -/
structure Serves (mask ip : UInt32) (poll : DhcpsLease) : Prop where
  nonempty : host poll.startIp ≤ host poll.endIp
  clients : ∀ a, host poll.startIp ≤ host a → host a ≤ host poll.endIp → ClientAddress mask ip a

/-- `IP_CLASS_HOST_NUM` -/
def ipClassHostNum (mask : UInt32) : UInt32 := 0xffffffff &&& ~~~mask

/-- The computed pool stays inside the subnet: the subnet is a block of 256 addresses
or more; or of 128, and the server is near its lower end or at its upper end, on the side
where the pool fits; or smaller, and the server has the network address. -/
def AutoFits (mask ip : UInt32) : Prop :=
  let hosts := (ipClassHostNum (byteSwap mask)).toNat
  let last := host ip % 256
  255 ≤ hosts ∨ (hosts = 127 ∧ (last ≤ 27 ∨ 229 ≤ last)) ∨
    (hosts ≤ 63 ∧ last < 128 ∧ byteSwap ip = networkAddress mask ip)

instance (mask ip : UInt32) : Decidable (AutoFits mask ip) :=
  inferInstanceAs (Decidable (_ ∨ _ ∨ _))

/-! ## Accepted masks -/

/-- The macro is about a number joined with the one before it. -/
theorem isInvalidSubnetMask_eq_false {mask : UInt32} (h : host mask ≠ 0) :
    isInvalidSubnetMask (byteSwap mask) = false ↔
      (host mask - 1) ||| host mask = 2 ^ 32 - 1 := by
  have hall : (0xFFFFFFFF : UInt32).toNat = 2 ^ 32 - 1 := rfl
  have hpred : (byteSwap mask - 1).toNat = host mask - 1 := by
    have h1 : (1 : UInt32).toNat = 1 := rfl
    have hlt := host_lt mask
    rw [UInt32.toNat_sub, h1]
    show (2 ^ 32 - 1 + host mask) % 2 ^ 32 = host mask - 1
    omega
  rw [isInvalidSubnetMask, decide_eq_false_iff_not, not_not, ← UInt32.toNat_inj, UInt32.toNat_or,
    hall, hpred]
  exact Iff.rfl

/-- The masks that `dhcps_start` accepts are the contiguous ones. -/
theorem isInvalidSubnetMask_eq_false_iff {mask : UInt32} :
    isInvalidSubnetMask (byteSwap mask) = false ↔ ∃ n ≤ 32, IsMask mask n := by
  by_cases hzero : host mask = 0
  · have hmask : mask = 0 := host_eq_zero.mp hzero
    constructor
    · intro _
      exact ⟨0, by omega, hzero⟩
    · intro _
      rw [hmask]
      decide
  rw [isInvalidSubnetMask_eq_false hzero]
  constructor
  · -- the lowest bit of the mask and the odd number above it
    obtain ⟨k, m, hodd, hmask⟩ := Nat.exists_eq_two_pow_mul_odd hzero
    rw [hmask, pred_lor (Nat.odd_iff.mp hodd), ← hmask]
    intro h
    have hlt := host_lt mask
    have hpos : 0 < 2 ^ k := Nat.two_pow_pos k
    have hle : 2 ^ k * 1 ≤ host mask := hmask ▸ Nat.mul_le_mul_left _ hodd.pos
    have hk : k < 32 := (Nat.pow_lt_pow_iff_right (by omega)).mp (by omega : 2 ^ k < 2 ^ 32)
    have hsub : 32 - (32 - k) = k := by omega
    refine ⟨32 - k, by omega, ?_⟩
    rw [IsMask, hsub]
    omega
  · -- a contiguous mask is a power of two times an odd number
    rintro ⟨n, hn, hm⟩
    rw [IsMask] at hm
    have hpos : 0 < 2 ^ (32 - n) := Nat.two_pow_pos _
    have hle : 2 ^ (32 - n) ≤ 2 ^ 32 := Nat.pow_le_pow_right (by omega) (by omega)
    have hsplit : 2 ^ (32 - n) * 2 ^ n = 2 ^ 32 := by
      rw [← Nat.pow_add]
      congr 1
      omega
    obtain ⟨j, rfl⟩ : ∃ j, n = j + 1 := by
      cases n with
      | zero => exact absurd hm hzero
      | succ j => exact ⟨j, rfl⟩
    have hodd : (2 ^ (j + 1) - 1) % 2 = 1 := by
      rw [Nat.pow_succ]
      have := Nat.two_pow_pos j
      omega
    have hmask : host mask = 2 ^ (32 - (j + 1)) * (2 ^ (j + 1) - 1) := by
      rw [Nat.mul_sub, Nat.mul_one, hsplit, hm]
    rw [hmask, pred_lor hodd, ← hmask, hm]
    omega

/-! ## Subnets in numbers -/

section Subnet

variable {mask ip : UInt32} {n : Nat}

/-- A mask of n bits, as a number -/
theorem mask_toNat (hn : n ≤ 32) (hm : IsMask mask n) :
    (byteSwap mask).toNat = (2 ^ n - 1) <<< (32 - n) := by
  have hsplit : 2 ^ n * 2 ^ (32 - n) = 2 ^ 32 := by
    rw [← Nat.pow_add]
    congr 1
    omega
  show host mask = _
  rw [hm, Nat.shiftLeft_eq, Nat.sub_mul, Nat.one_mul, hsplit]

/-- The network address has zeros behind the mask. -/
theorem networkAddress_toNat (hn : n ≤ 32) (hm : IsMask mask n) :
    (networkAddress mask ip).toNat = 2 ^ (32 - n) * (host ip / 2 ^ (32 - n)) := by
  rw [networkAddress, UInt32.toNat_and, mask_toNat hn hm]
  refine land_mask ?_
  have hsum : 32 - n + n = 32 := by omega
  rw [hsum]
  exact host_lt ip

/-- The host part of the mask is its complement. -/
theorem hostNum_eq (mask : UInt32) : ipClassHostNum mask = ~~~mask := by
  rw [ipClassHostNum, UInt32.and_comm]
  exact UInt32.and_neg_one

/-- The broadcast address has ones behind the mask. -/
theorem broadcastAddress_toNat (hn : n ≤ 32) (hm : IsMask mask n) :
    (broadcastAddress mask ip).toNat =
      2 ^ (32 - n) * (host ip / 2 ^ (32 - n)) + (2 ^ (32 - n) - 1) := by
  have hnum : (~~~(byteSwap mask)).toNat = 2 ^ (32 - n) - 1 := by
    rw [← hostNum_eq]
    exact hostNum_toNat hn hm
  rw [broadcastAddress, UInt32.toNat_or, hnum]
  exact lor_mask _ _

/-- The addresses of a subnet are a block of `2 ^ (32 - n)`, of which the first, the last
and the server's own are for no client. -/
theorem clientAddress_iff {a : UInt32} (hn : n ≤ 32) (hm : IsMask mask n) :
    ClientAddress mask ip a ↔ (networkAddress mask ip).toNat < host a ∧
      host a < (broadcastAddress mask ip).toNat ∧ host a ≠ host ip := by
  have hpos : 0 < 2 ^ (32 - n) := Nat.two_pow_pos _
  have hserver : host a = host ip ↔ a = ip := host_inj
  have hsubnet : networkAddress mask a = networkAddress mask ip ↔
      host a / 2 ^ (32 - n) = host ip / 2 ^ (32 - n) := by
    rw [← UInt32.toNat_inj, networkAddress_toNat hn hm, networkAddress_toNat hn hm]
    exact Nat.mul_right_inj (Nat.ne_of_gt hpos)
  -- the two addresses of the subnet that no client may have
  have hnetwork : byteSwap a = networkAddress mask ip ↔
      host a = 2 ^ (32 - n) * (host ip / 2 ^ (32 - n)) := by
    rw [← UInt32.toNat_inj, networkAddress_toNat hn hm]
    exact Iff.rfl
  have hbroadcast : byteSwap a = broadcastAddress mask ip ↔
      host a = 2 ^ (32 - n) * (host ip / 2 ^ (32 - n)) + (2 ^ (32 - n) - 1) := by
    rw [← UInt32.toNat_inj, broadcastAddress_toNat hn hm]
    exact Iff.rfl
  -- the block of an address, by its first and its last number
  have hblock : host a / 2 ^ (32 - n) = host ip / 2 ^ (32 - n) ↔
      2 ^ (32 - n) * (host ip / 2 ^ (32 - n)) ≤ host a ∧
        host a ≤ 2 ^ (32 - n) * (host ip / 2 ^ (32 - n)) + (2 ^ (32 - n) - 1) := by
    rw [Nat.div_eq_iff hpos, Nat.mul_comm]
    omega
  rw [networkAddress_toNat hn hm, broadcastAddress_toNat hn hm]
  constructor
  · intro h
    obtain ⟨hlo, hhi⟩ := hblock.mp (hsubnet.mp h.subnet)
    have hne := mt hnetwork.mpr h.neNetwork
    have hne' := mt hbroadcast.mpr h.neBroadcast
    exact ⟨by omega, by omega, mt hserver.mp h.neServer⟩
  · rintro ⟨hlo, hhi, hne⟩
    refine ⟨hsubnet.mpr (hblock.mpr ⟨by omega, by omega⟩), mt hserver.mpr hne, ?_, ?_⟩
    · exact mt hnetwork.mp (by omega)
    · exact mt hbroadcast.mp (by omega)

/-- A subnet with room for a client has at least four addresses. -/
theorem le_thirty_of_room (hn : n ≤ 32) (hm : IsMask mask n)
    (hroom : ∃ a, ClientAddress mask ip a) : n ≤ 30 := by
  obtain ⟨a, ha⟩ := hroom
  have h := (clientAddress_iff hn hm).mp ha
  rw [networkAddress_toNat hn hm, broadcastAddress_toNat hn hm] at h
  by_contra hlarge
  have hpow : 2 ^ (32 - n) ≤ 2 ^ 1 := Nat.pow_le_pow_right (by omega) (by omega)
  omega

/-- A pool serves clients if it lies between the network and the broadcast address, on one
side of the server. -/
theorem serves_iff {poll : DhcpsLease} (hn : n ≤ 32) (hm : IsMask mask n) :
    Serves mask ip poll ↔ host poll.startIp ≤ host poll.endIp ∧
      (networkAddress mask ip).toNat < host poll.startIp ∧
      host poll.endIp < (broadcastAddress mask ip).toNat ∧
      (host ip < host poll.startIp ∨ host poll.endIp < host ip) := by
  constructor
  · intro h
    have hstart := (clientAddress_iff hn hm).mp (h.clients _ (Nat.le_refl _) h.nonempty)
    have hend := (clientAddress_iff hn hm).mp (h.clients _ h.nonempty (Nat.le_refl _))
    refine ⟨h.nonempty, hstart.1, hend.2.1, ?_⟩
    -- a pool on both sides of the server contains it
    by_contra hin
    exact (h.clients ip (by omega) (by omega)).neServer rfl
  · rintro ⟨hle, hlo, hhi, hserver⟩
    refine ⟨hle, fun a hstart hend => (clientAddress_iff hn hm).mpr ⟨?_, ?_, ?_⟩⟩
    · omega
    · omega
    · omega

end Subnet

/-! ## The two kinds of pool -/

section Pools

variable {mask ip : UInt32} {n : Nat}

/-- The condition in terms of the number of host bits. -/
theorem autoFits_iff (hn : n ≤ 30) (hm : IsMask mask n) :
    AutoFits mask ip ↔ n ≤ 24 ∨ (n = 25 ∧ (host ip % 256 ≤ 27 ∨ 229 ≤ host ip % 256)) ∨
      (26 ≤ n ∧ host ip % 256 < 128 ∧ host ip % 2 ^ (32 - n) = 0) := by
  have hhosts : (ipClassHostNum (byteSwap mask)).toNat = 2 ^ (32 - n) - 1 :=
    hostNum_toNat (by omega) hm
  have hnetwork : byteSwap ip = networkAddress mask ip ↔ host ip % 2 ^ (32 - n) = 0 := by
    rw [← UInt32.toNat_inj, networkAddress_toNat (by omega) hm]
    have hdiv := Nat.div_add_mod (host ip) (2 ^ (32 - n))
    show host ip = _ ↔ _
    omega
  simp only [AutoFits, hhosts, hnetwork]
  -- more than 128 addresses, 128, or fewer
  rcases Nat.lt_trichotomy n 25 with h | rfl | h
  · have hpow : 2 ^ 8 ≤ 2 ^ (32 - n) := Nat.pow_le_pow_right (by omega) (by omega)
    constructor
    · intro _
      exact .inl (by omega)
    · intro _
      exact .inl (by omega)
  · constructor
    · intro h
      omega
    · intro h
      omega
  · have hpow : 2 ^ (32 - n) ≤ 2 ^ 6 := Nat.pow_le_pow_right (by omega) (by omega)
    have hpow' : 2 ^ (32 - n) - 1 ≠ 127 := by omega
    constructor
    · intro h
      omega
    · intro h
      omega

/-- A computed pool serves exactly if it fits the subnet. -/
theorem autoPoll_serves_iff (hn : n ≤ 30) (hm : IsMask mask n) :
    Serves mask ip (autoPoll mask ip) ↔ AutoFits mask ip := by
  obtain ⟨hstart, hend⟩ := @autoPoll_host mask ip n hn hm
  rw [serves_iff (by omega) hm, autoFits_iff hn hm, hstart, hend,
    networkAddress_toNat (by omega) hm, broadcastAddress_toNat (by omega) hm]
  have hpow : 2 ^ 2 ≤ 2 ^ (32 - n) := Nat.pow_le_pow_right (by omega) (by omega)
  have hdiv := Nat.div_add_mod (host ip) (2 ^ (32 - n))
  have hmod : host ip % 2 ^ (32 - n) < 2 ^ (32 - n) := Nat.mod_lt _ (by omega)
  -- the last octet within the subnet
  have hlast : n ≤ 24 → host ip % 2 ^ (32 - n) % 256 = host ip % 256 ∧
      2 ^ (32 - n) % 256 = 0 := by
    intro h
    have hdvd : 2 ^ 8 ∣ 2 ^ (32 - n) := Nat.pow_dvd_pow 2 (by omega)
    exact ⟨Nat.mod_mod_of_dvd _ hdvd, Nat.mod_eq_zero_of_dvd hdvd⟩
  have hseven : n = 25 → 2 ^ (32 - n) = 128 := by
    rintro rfl
    rfl
  have hsmall : 26 ≤ n → 2 ^ (32 - n) ≤ 2 ^ 6 := fun h =>
    Nat.pow_le_pow_right (by omega) (by omega)
  have hmod25 : n = 25 → host ip % 2 ^ (32 - n) = host ip % 128 := fun h => by rw [hseven h]
  -- from here on there is linear arithmetic in the size of the subnet alone
  generalize 2 ^ (32 - n) = size at *
  generalize host ip % size = offset at *
  generalize size * (host ip / size) = network at *
  rcases Nat.lt_trichotomy n 25 with h | h | h
  · have hlast := hlast (by omega)
    by_cases hoctet : 128 ≤ host ip % 256
    · simp only [if_pos hoctet]
      omega
    · simp only [if_neg hoctet]
      omega
  · have hseven := hseven h
    have hmod25 := hmod25 h
    by_cases hoctet : 128 ≤ host ip % 256
    · simp only [if_pos hoctet]
      omega
    · simp only [if_neg hoctet]
      omega
  · have hsmall := hsmall (by omega)
    by_cases hoctet : 128 ≤ host ip % 256
    · simp only [if_pos hoctet]
      omega
    · simp only [if_neg hoctet]
      omega

end Pools

/-- The pool that `dhcps_poll_set` leaves, for every mask that `dhcps_start` accepts and that
has room for a client: a configured pool that passes the checks serves clients if it lies
between the network and the broadcast address, a computed one if it fits. -/
theorem dhcpsPollSet_serves_iff (d : DhcpsT) (ip : UInt32)
    (hmask : isInvalidSubnetMask (byteSwap d.dhcpsMask) = false)
    (hroom : ∃ a, ClientAddress d.dhcpsMask ip a) :
    Serves d.dhcpsMask ip (dhcpsPollSet d ip).dhcpsPoll ↔
      if pollAccepted d.dhcpsPoll ip then
        networkAddress d.dhcpsMask ip < byteSwap d.dhcpsPoll.startIp ∧
          byteSwap d.dhcpsPoll.endIp < broadcastAddress d.dhcpsMask ip
      else AutoFits d.dhcpsMask ip := by
  obtain ⟨n, hn, hm⟩ := isInvalidSubnetMask_eq_false_iff.mp hmask
  have hn30 := le_thirty_of_room hn hm hroom
  rw [dhcpsPollSet]
  by_cases hacc : pollAccepted d.dhcpsPoll ip = true
  · obtain ⟨-, hout, -, -, hle, -⟩ := pollAccepted_iff.mp hacc
    rw [if_pos hacc, if_pos hacc, serves_iff hn hm, UInt32.lt_iff_toNat_lt, UInt32.lt_iff_toNat_lt]
    constructor
    · rintro ⟨-, hlo, hhi, -⟩
      exact ⟨hlo, hhi⟩
    · rintro ⟨hlo, hhi⟩
      exact ⟨hle, hlo, hhi, by omega⟩
  · rw [if_neg hacc, if_neg hacc]
    exact autoPoll_serves_iff hn30 hm

/-- 192.168.4.1 under 255.255.255.0. -/
theorem dhcpsPollSet_serves_24 :
    Serves dhcpsNew.dhcpsMask (ip4 192 168 4 1)
      (dhcpsPollSet dhcpsNew (ip4 192 168 4 1)).dhcpsPoll := by
  refine (dhcpsPollSet_serves_iff dhcpsNew (ip4 192 168 4 1) (by decide) ?_).mpr (by decide)
  exact ⟨ip4 192 168 4 2, by decide, by decide, by decide, by decide⟩

/-- 192.168.4.1 under 255.255.255.240: the pool ends with the broadcast address. -/
theorem dhcpsPollSet_broadcast_28 :
    let d := { dhcpsNew with dhcpsMask := ip4 255 255 255 240 }
    let ip := ip4 192 168 4 1
    isInvalidSubnetMask (byteSwap d.dhcpsMask) = false ∧
      ClientAddress d.dhcpsMask ip (ip4 192 168 4 2) ∧
      byteSwap (dhcpsPollSet d ip).dhcpsPoll.endIp = broadcastAddress d.dhcpsMask ip ∧
      ¬ Serves d.dhcpsMask ip (dhcpsPollSet d ip).dhcpsPoll := by
  refine ⟨by decide, ⟨by decide, by decide, by decide, by decide⟩, by decide, fun h => ?_⟩
  exact (h.clients _ h.nonempty (Nat.le_refl _)).neBroadcast (by decide)

end PicoHost.Dhcps
