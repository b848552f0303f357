import Mathlib.Tactic.Ring

/-!
# Byte order of 32-bit words

A little-endian machine stores a word in network byte order with its bytes
reversed. `byteSwap` converts between the two orders, and `host w` is the number
that a network-order word `w` stands for.

The raw comparison of two network-order words compares their *last* octets
first, so it agrees with the comparison of the numbers only when the upper
three octets are equal (`lt_iff_host_lt`); `toNat_div_last` says what it
compares otherwise.
-/

namespace PicoHost.ByteOrder

/-- The word with its four bytes in the opposite order. -/
def byteSwap (w : UInt32) : UInt32 :=
  .ofNat (w.toNat % 2 ^ 8 * 2 ^ 24 + w.toNat / 2 ^ 8 % 2 ^ 8 * 2 ^ 16 +
    w.toNat / 2 ^ 16 % 2 ^ 8 * 2 ^ 8 + w.toNat / 2 ^ 24)

/-- The number a network-order word stands for. -/
def host (w : UInt32) : Nat := (byteSwap w).toNat

/-- The network-order word of a number. -/
def ofHost (n : Nat) : UInt32 := byteSwap (.ofNat n)

/-- Every word is its four bytes. -/
theorem exists_bytes (w : UInt32) : ∃ a b c d : Nat,
    a < 256 ∧ b < 256 ∧ c < 256 ∧ d < 256 ∧
      w.toNat = a + 2 ^ 8 * b + 2 ^ 16 * c + 2 ^ 24 * d := by
  have := w.toNat_lt
  refine ⟨w.toNat % 256, w.toNat / 256 % 256, w.toNat / 65536 % 256,
    w.toNat / 16777216, ?_⟩
  omega

/-- `byteSwap` on a word given by its bytes. -/
theorem byteSwap_toNat {w : UInt32} {a b c d : Nat} (ha : a < 256) (hb : b < 256)
    (hc : c < 256) (hd : d < 256)
    (hw : w.toNat = a + 2 ^ 8 * b + 2 ^ 16 * c + 2 ^ 24 * d) :
    (byteSwap w).toNat = d + 2 ^ 8 * c + 2 ^ 16 * b + 2 ^ 24 * a := by
  have h0 : w.toNat % 2 ^ 8 = a := by omega
  have h1 : w.toNat / 2 ^ 8 % 2 ^ 8 = b := by omega
  have h2 : w.toNat / 2 ^ 16 % 2 ^ 8 = c := by omega
  have h3 : w.toNat / 2 ^ 24 = d := by omega
  rw [byteSwap, UInt32.toNat_ofNat', h0, h1, h2, h3]
  omega

@[simp] theorem byteSwap_byteSwap (w : UInt32) : byteSwap (byteSwap w) = w := by
  obtain ⟨a, b, c, d, ha, hb, hc, hd, hw⟩ := exists_bytes w
  apply UInt32.toNat_inj.mp
  rw [byteSwap_toNat hd hc hb ha (byteSwap_toNat ha hb hc hd hw), hw]

/-- A word in host order fits 32 bits. -/
theorem host_lt (w : UInt32) : host w < 2 ^ 32 := (byteSwap w).toNat_lt

@[simp] theorem host_byteSwap (w : UInt32) : host (byteSwap w) = w.toNat := by
  rw [host, byteSwap_byteSwap]

/-- Different words stand for different numbers. -/
theorem host_inj {v w : UInt32} : host v = host w ↔ v = w := by
  constructor
  · intro h
    have hs : byteSwap v = byteSwap w := UInt32.toNat_inj.mp h
    have := congrArg byteSwap hs
    rwa [byteSwap_byteSwap, byteSwap_byteSwap] at this
  · rintro rfl
    rfl

/-- A word is zero exactly when its number is. -/
theorem host_eq_zero {w : UInt32} : host w = 0 ↔ w = 0 := by
  rw [← host_inj (w := 0)]
  exact Iff.rfl

/-- The top byte of the raw word is the last octet of the number. -/
theorem toNat_div_last (w : UInt32) : w.toNat / 2 ^ 24 = host w % 2 ^ 8 := by
  obtain ⟨a, b, c, d, ha, hb, hc, hd, hw⟩ := exists_bytes w
  have hh : host w = d + 2 ^ 8 * c + 2 ^ 16 * b + 2 ^ 24 * a :=
    byteSwap_toNat ha hb hc hd hw
  have hlast : w.toNat / 2 ^ 24 = d := by omega
  rw [hlast, hh]
  clear hw hh hlast
  omega

/-- Within one block of 256 addresses the raw comparison is the comparison of
the numbers. -/
theorem lt_iff_host_lt {v w : UInt32} (h : host v / 256 = host w / 256) :
    v < w ↔ host v < host w := by
  obtain ⟨a, b, c, d, ha, hb, hc, hd, hv⟩ := exists_bytes v
  obtain ⟨a', b', c', d', ha', hb', hc', hd', hw⟩ := exists_bytes w
  have hhv : host v = d + 2 ^ 8 * c + 2 ^ 16 * b + 2 ^ 24 * a :=
    byteSwap_toNat ha hb hc hd hv
  have hhw : host w = d' + 2 ^ 8 * c' + 2 ^ 16 * b' + 2 ^ 24 * a' :=
    byteSwap_toNat ha' hb' hc' hd' hw
  rw [hhv, hhw] at h
  have hab : a = a' ∧ b = b' ∧ c = c' := by
    clear hv hw hhv hhw
    have hq : c + 2 ^ 8 * b + 2 ^ 16 * a = c' + 2 ^ 8 * b' + 2 ^ 16 * a' := by omega
    clear h
    omega
  obtain ⟨rfl, rfl, rfl⟩ := hab
  rw [UInt32.lt_iff_toNat_lt, hv, hw, hhv, hhw]
  omega

/-- A smaller last octet makes a smaller raw word, whatever the other octets. -/
theorem lt_of_last_lt {v w : UInt32} (h : host v % 256 < host w % 256) : v < w := by
  have hv := toNat_div_last v
  have hw := toNat_div_last w
  rw [UInt32.lt_iff_toNat_lt]
  omega

/-! ## The octets of a number, by mask and shift -/

/-- The lowest byte of a word -/
theorem land_low (x : UInt32) : (x &&& 0xFF).toNat = x.toNat % 256 := by
  rw [UInt32.toNat_and]
  exact Nat.and_two_pow_sub_one_eq_mod _ 8

/-- The mask of `m` bits above the lowest `k` takes off the remainder. -/
theorem land_mask {n m k : Nat} (hn : n < 2 ^ (k + m)) :
    n &&& (2 ^ m - 1) <<< k = 2 ^ k * (n / 2 ^ k) := by
  have hr : 2 ^ k * (n / 2 ^ k) = n >>> k <<< k := by
    rw [Nat.shiftLeft_eq, Nat.shiftRight_eq_div_pow, Nat.mul_comm]
  rw [hr]
  -- compare the two numbers bit by bit: below the mask, in it, and above
  refine Nat.eq_of_testBit_eq fun i => ?_
  rw [Nat.testBit_and, Nat.testBit_shiftLeft, Nat.testBit_shiftLeft,
    Nat.testBit_two_pow_sub_one, Nat.testBit_shiftRight]
  by_cases hk : k ≤ i
  · have hi : k + (i - k) = i := by omega
    by_cases hm : i - k < m
    · simp [hk, hm, hi]
    · have hlt : n < 2 ^ i := Nat.lt_of_lt_of_le hn (Nat.pow_le_pow_right (by decide) (by omega))
      simp [hk, hm, hi, Nat.testBit_lt_two_pow hlt]
  · simp [hk]

/-- A word without its lowest byte -/
theorem land_high (x : UInt32) : (x &&& 0xFFFFFF00).toNat = 256 * (x.toNat / 256) := by
  have hm : (0xFFFFFF00 : UInt32).toNat = (2 ^ 24 - 1) <<< 8 := by decide
  rw [UInt32.toNat_and, hm]
  exact land_mask x.toNat_lt

/-- Joining a multiple of 256 and a byte is adding them. -/
theorem lor_low {x y : UInt32} (hx : x.toNat % 256 = 0) (hy : y.toNat < 256) :
    (x ||| y).toNat = x.toNat + y.toNat := by
  have hq : x.toNat = 2 ^ 8 * (x.toNat / 256) := by omega
  rw [UInt32.toNat_or, hq, ← Nat.two_pow_add_eq_or_of_lt (i := 8) hy (x.toNat / 256)]

/-- A word shifted by a byte -/
theorem shiftRight_toNat (x : UInt32) : (x >>> 8).toNat = x.toNat / 256 := by
  rw [UInt32.toNat_shiftRight]
  exact Nat.shiftRight_eq_div_pow _ 8

/-- The lowest `k` bits set: the last number of its block of `2 ^ k`. -/
theorem lor_mask (n k : Nat) : n ||| (2 ^ k - 1) = 2 ^ k * (n / 2 ^ k) + (2 ^ k - 1) := by
  have hlt : 2 ^ k - 1 < 2 ^ k := Nat.sub_lt (Nat.two_pow_pos k) Nat.one_pos
  refine Nat.eq_of_testBit_eq fun i => ?_
  rw [Nat.two_pow_add_eq_or_of_lt hlt, Nat.testBit_or, Nat.testBit_or,
    Nat.testBit_two_pow_sub_one, Nat.testBit_two_pow_mul, Nat.testBit_div_two_pow]
  by_cases hi : i < k
  · simp [hi]
  · have hk : k ≤ i := Nat.not_lt.mp hi
    simp [hi, hk]

/-- A number joined with the one before it: the zeros below its lowest bit are set. -/
theorem pred_lor {k m : Nat} (hm : m % 2 = 1) :
    (2 ^ k * m - 1) ||| (2 ^ k * m) = 2 ^ k * m + (2 ^ k - 1) := by
  have hpos : 0 < 2 ^ k := Nat.two_pow_pos k
  have hlt : 2 ^ k - 1 < 2 ^ k := Nat.sub_lt hpos Nat.one_pos
  have hpred : 2 ^ k * m - 1 = 2 ^ k * (m - 1) + (2 ^ k - 1) := by
    obtain ⟨j, rfl⟩ : ∃ j, m = j + 1 := ⟨m - 1, by omega⟩
    rw [Nat.add_sub_cancel, Nat.mul_add, Nat.mul_one]
    omega
  -- an odd number has all the bits of the one before it
  have hodd : (m - 1) ||| m = m := by
    refine Nat.eq_of_testBit_eq fun i => ?_
    rw [Nat.testBit_or]
    cases i with
    | zero => simp [hm]
    | succ i =>
      have hhalf : (m - 1) / 2 = m / 2 := by omega
      rw [Nat.testBit_succ, Nat.testBit_succ, hhalf, Bool.or_self]
  rw [hpred, Nat.two_pow_add_eq_or_of_lt hlt, Nat.two_pow_add_eq_or_of_lt hlt]
  refine Nat.eq_of_testBit_eq fun i => ?_
  have hbit := congrArg (fun n => n.testBit (i - k)) hodd
  simp only [Nat.testBit_or] at hbit
  simp only [Nat.testBit_or, Nat.testBit_two_pow_mul]
  generalize (m - 1).testBit (i - k) = low at hbit ⊢
  generalize m.testBit (i - k) = high at hbit ⊢
  generalize (2 ^ k - 1).testBit i = rest
  generalize decide (k ≤ i) = above
  revert low high rest above
  decide

end PicoHost.ByteOrder
