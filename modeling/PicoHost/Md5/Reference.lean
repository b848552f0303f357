import PicoHost.Md5.Digest

/-!
# The message digest, as it is defined

The digest of a whole message, with the functions, the order of the words and the shifts by their
rules: the message is padded to whole blocks, and the blocks are read one after the other. The
block function of `esp_md5.c`, with its rewritten functions and its unrolled steps, is the same
(`bodyBlock_eq`).
-/

namespace PicoHost.Md5

/-! ## Definition -/

/-- The functions of the four rounds -/
inductive Round where
  | f | g | h | i
deriving DecidableEq, Repr

def Round.eval : Round → UInt32 → UInt32 → UInt32 → UInt32
  | .f, x, y, z => (x &&& y) ||| (~~~x &&& z)
  | .g, x, y, z => (x &&& z) ||| (y &&& ~~~z)
  | .h, x, y, z => x ^^^ y ^^^ z
  | .i, x, y, z => y ^^^ (x ||| ~~~z)

/-- The integer parts of `2^32` times the sines of 1 to 64 -/
def sineTable : List UInt32 :=
  [0xd76aa478, 0xe8c7b756, 0x242070db, 0xc1bdceee,
    0xf57c0faf, 0x4787c62a, 0xa8304613, 0xfd469501,
    0x698098d8, 0x8b44f7af, 0xffff5bb1, 0x895cd7be,
    0x6b901122, 0xfd987193, 0xa679438e, 0x49b40821,
    0xf61e2562, 0xc040b340, 0x265e5a51, 0xe9b6c7aa,
    0xd62f105d, 0x02441453, 0xd8a1e681, 0xe7d3fbc8,
    0x21e1cde6, 0xc33707d6, 0xf4d50d87, 0x455a14ed,
    0xa9e3e905, 0xfcefa3f8, 0x676f02d9, 0x8d2a4c8a,
    0xfffa3942, 0x8771f681, 0x6d9d6122, 0xfde5380c,
    0xa4beea44, 0x4bdecfa9, 0xf6bb4b60, 0xbebfbc70,
    0x289b7ec6, 0xeaa127fa, 0xd4ef3085, 0x04881d05,
    0xd9d4d039, 0xe6db99e5, 0x1fa27cf8, 0xc4ac5665,
    0xf4292244, 0x432aff97, 0xab9423a7, 0xfc93a039,
    0x655b59c3, 0x8f0ccc92, 0xffeff47d, 0x85845dd1,
    0x6fa87e4f, 0xfe2ce6e0, 0xa3014314, 0x4e0811a1,
    0xf7537e82, 0xbd3af235, 0x2ad7d2bb, 0xeb86d391]

/-- Which function an operation uses, which word of the block, which constant and which shift -/
structure Operation where
  round : Round
  x : Nat
  t : UInt32
  s : UInt32
deriving DecidableEq, Repr

/-- The operation `i`, for `i < 64` -/
def operation (i : Nat) : Operation :=
  let t := sineTable.getD i 0
  if i < 16 then ⟨.f, i, t, [7, 12, 17, 22].getD (i % 4) 0⟩
  else if i < 32 then ⟨.g, (5 * i + 1) % 16, t, [5, 9, 14, 20].getD (i % 4) 0⟩
  else if i < 48 then ⟨.h, (3 * i + 5) % 16, t, [4, 11, 16, 23].getD (i % 4) 0⟩
  else ⟨.i, 7 * i % 16, t, [6, 10, 15, 21].getD (i % 4) 0⟩

/-- The word rotated to the left -/
def rotate (w s : UInt32) : UInt32 := (w <<< s) ||| (w >>> (32 - s))

def Operation.run (x : Nat → UInt32) (w : Words) (p : Operation) : Words :=
  ⟨w.d, w.b + rotate (w.a + p.round.eval w.b w.c w.d + x p.x + p.t) p.s, w.b, w.c⟩

/-- The number that four bytes are, the lowest one first -/
def littleEndian (l : List UInt8) (n : Nat) : UInt32 :=
  .ofNat ((l.getD (4 * n) 0).toNat + 2 ^ 8 * (l.getD (4 * n + 1) 0).toNat +
    2 ^ 16 * (l.getD (4 * n + 2) 0).toNat + 2 ^ 24 * (l.getD (4 * n + 3) 0).toNat)

/-- The words after a block -/
def compress (w : Words) (block : List UInt8) : Words :=
  let r := ((List.range 64).map operation).foldl (Operation.run (littleEndian block)) w
  ⟨w.a + r.a, w.b + r.b, w.c + r.c, w.d + r.d⟩

def initial : Words := ⟨0x67452301, 0xefcdab89, 0x98badcfe, 0x10325476⟩

/-- The low 64 bits of a number, the lowest byte first -/
def lengthBytes (n : Nat) : List UInt8 := (List.range 8).map fun i => .ofNat (n / 256 ^ i)

/-- One bit, zeros up to eight bytes before the end of a block, and the number of bits -/
def padding (len : Nat) : List UInt8 :=
  0x80 :: (List.replicate ((119 - len % 64) % 64) 0 ++ lengthBytes (8 * len))

/-- The bytes of the words -/
def Words.bytes (w : Words) : List UInt8 :=
  [w.a, w.b, w.c, w.d].flatMap fun v => (List.range 4).map fun i => .ofNat (v.toNat / 256 ^ i)

/-- The digest of a message -/
def md5 (message : List UInt8) : List UInt8 :=
  (BlockStream.absorb 64 compress initial (message ++ padding message.length)).bytes

/-! ## The block function of the code -/

/-- The round that a macro is for -/
def Fn.round : Fn → Round
  | .f => .f
  | .g => .g
  | .h | .h2 => .h
  | .i => .i

/-- The code's functions are those of the rounds. -/
theorem eval_round (fn : Fn) (x y z : UInt32) : fn.eval x y z = fn.round.eval x y z := by
  apply UInt32.toBitVec_inj.mp
  apply BitVec.eq_of_getLsbD_eq
  intro i hi
  cases fn with
  | f =>
    simp only [Fn.eval, Fn.round, Round.eval, UInt32.toBitVec_xor, UInt32.toBitVec_and,
      UInt32.toBitVec_or, UInt32.toBitVec_not, BitVec.getLsbD_xor, BitVec.getLsbD_and,
      BitVec.getLsbD_or, BitVec.getLsbD_not, hi, decide_true, Bool.true_and]
    cases x.toBitVec.getLsbD i <;> cases y.toBitVec.getLsbD i <;>
      cases z.toBitVec.getLsbD i <;> rfl
  | g =>
    simp only [Fn.eval, Fn.round, Round.eval, UInt32.toBitVec_xor, UInt32.toBitVec_and,
      UInt32.toBitVec_or, UInt32.toBitVec_not, BitVec.getLsbD_xor, BitVec.getLsbD_and,
      BitVec.getLsbD_or, BitVec.getLsbD_not, hi, decide_true, Bool.true_and]
    cases x.toBitVec.getLsbD i <;> cases y.toBitVec.getLsbD i <;>
      cases z.toBitVec.getLsbD i <;> rfl
  | h => rfl
  | h2 =>
    simp only [Fn.eval, Fn.round, Round.eval, UInt32.toBitVec_xor, BitVec.getLsbD_xor,
      Bool.xor_assoc]
  | i => rfl

def Step.operation (p : Step) : Operation := ⟨p.fn.round, p.x, p.t, p.s⟩

/-- The unrolled steps are the operations in order. -/
theorem steps_eq : (round1 ++ round2 ++ round3 ++ round4).map Step.operation =
    (List.range 64).map operation := by decide +kernel

/-- A step of the code is an operation of the algorithm. -/
theorem run_operation (x : Nat → UInt32) (w : Words) (p : Step) :
    p.run x w = p.operation.run x w := by
  have hmask : ∀ v : UInt32, v &&& 0xffffffff = v := by
    intro v
    apply UInt32.toNat_inj.mp
    rw [UInt32.toNat_and]
    exact (Nat.and_two_pow_sub_one_eq_mod v.toNat 32).trans (Nat.mod_eq_of_lt v.toNat_lt)
  rw [Step.run, Operation.run, hmask, eval_round, UInt32.add_comm, ← UInt32.add_assoc,
    ← UInt32.add_assoc]
  rfl

/-- All steps of the code are the operations of the algorithm. -/
theorem foldl_operation (x : Nat → UInt32) (w : Words) (steps : List Step) :
    steps.foldl (Step.run x) w = (steps.map Step.operation).foldl (Operation.run x) w := by
  induction steps generalizing w with
  | nil => rfl
  | cons p steps ih => rw [List.foldl_cons, List.map_cons, List.foldl_cons, run_operation, ih]

/-- A number in the low bits and one above them -/
theorem or_shiftLeft {a k : Nat} (h : a < 2 ^ k) (b : Nat) : a ||| b <<< k = a + 2 ^ k * b := by
  rw [Nat.shiftLeft_eq, Nat.mul_comm, Nat.or_comm, ← Nat.two_pow_add_eq_or_of_lt h, Nat.add_comm]

/-- Words are read in little-endian order. -/
theorem word_eq (l : List UInt8) : word l = littleEndian l := by
  funext n
  rw [word, littleEndian, Nat.mul_comm n 4]
  generalize l.getD (4 * n) 0 = b0
  generalize l.getD (4 * n + 1) 0 = b1
  generalize l.getD (4 * n + 2) 0 = b2
  generalize l.getD (4 * n + 3) 0 = b3
  have h0 := b0.toNat_lt
  have h1 := b1.toNat_lt
  have h2 := b2.toNat_lt
  have h3 := b3.toNat_lt
  apply UInt32.toNat_inj.mp
  have hshift : ∀ (b : UInt8) (k : Nat), k ≤ 24 → b.toNat <<< k % 2 ^ 32 = b.toNat <<< k := by
    intro b k hk
    have hpow : 2 ^ k ≤ 2 ^ 24 := Nat.pow_le_pow_right (by decide) hk
    have hmul : b.toNat * 2 ^ k ≤ 255 * 2 ^ 24 :=
      Nat.mul_le_mul (Nat.le_of_lt_succ b.toNat_lt) hpow
    rw [Nat.shiftLeft_eq]
    exact Nat.mod_eq_of_lt (by omega)
  simp only [UInt32.toNat_or, UInt32.toNat_shiftLeft, UInt8.toNat_toUInt32, UInt32.toNat_ofNat']
  show ((b0.toNat ||| b1.toNat <<< 8 % 2 ^ 32) ||| b2.toNat <<< 16 % 2 ^ 32) |||
    b3.toNat <<< 24 % 2 ^ 32 = _
  have hlow : b0.toNat ||| b1.toNat <<< 8 = b0.toNat + 2 ^ 8 * b1.toNat := or_shiftLeft h0 _
  rw [hshift b1 8 (by decide), hshift b2 16 (by decide), hshift b3 24 (by decide), hlow]
  have hmid : (b0.toNat + 2 ^ 8 * b1.toNat) ||| b2.toNat <<< 16 =
      b0.toNat + 2 ^ 8 * b1.toNat + 2 ^ 16 * b2.toNat := or_shiftLeft (by omega) _
  rw [hmid, or_shiftLeft (by omega), Nat.mod_eq_of_lt (by omega)]

/-- `body` compresses a block as the algorithm does. -/
theorem bodyBlock_eq : bodyBlock = compress := by
  funext w block
  rw [bodyBlock, compress, foldl_operation, steps_eq, word_eq]
  simp only [UInt32.add_comm]

end PicoHost.Md5
