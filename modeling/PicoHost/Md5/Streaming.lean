import PicoHost.Md5.Reference

/-!
# A message in pieces

After any sequence of updates the context is that of the whole message: the words have read its
whole blocks, the buffer begins with what is left, and `lo` and `hi` count its bytes (`Holds`). So
the digest is that of the message (`md5Final_updates`).
-/

namespace PicoHost.Md5

open BlockStream (absorb absorb_append absorb_block absorb_cons_block absorb_of_lt absorbBlocks residue
  residue_append residue_cons_block residue_length residue_of_lt)

/-! ## The buffer -/

section Buffer

variable {buffer : Nat → UInt8} {off : Nat} {data : List UInt8}

@[simp] theorem bytes_length (buffer : Nat → UInt8) (n : Nat) : (bytes buffer n).length = n := by
  rw [bytes, List.length_map, List.length_range]

/-- What is copied behind the first bytes -/
theorem bytes_memcpy (buffer : Nat → UInt8) (off : Nat) (data : List UInt8) :
    bytes (memcpy buffer off data) (off + data.length) = bytes buffer off ++ data := by
  have hbefore : ∀ i ∈ List.range off, memcpy buffer off data i = buffer i := by
    intro i hi
    exact if_neg (Nat.not_le_of_lt (List.mem_range.mp hi))
  have hcopied : (List.range data.length).map (fun i => memcpy buffer off data (off + i)) = data := by
    refine List.ext_getElem (by simp) fun i _ hi => ?_
    simp [memcpy, hi]
  rw [bytes, List.range_add, List.map_append, List.map_map, List.map_congr_left hbefore]
  exact congrArg (bytes buffer off ++ ·) hcopied

/-- A buffer that is filled up -/
theorem bytes_memcpy_of_length {n : Nat} (h : off + data.length = n) :
    bytes (memcpy buffer off data) n = bytes buffer off ++ data := by
  rw [← h, bytes_memcpy]

end Buffer

/-! ## Updates -/

/-- The context is that of the message. -/
structure Holds (ctx : Ctx) (message : List UInt8) : Prop where
  lo : ctx.lo.toNat = message.length % 2 ^ 29
  hi : ctx.hi.toNat = message.length / 2 ^ 29 % 2 ^ 32
  words : ctx.words = absorb 64 compress initial message
  buffer : bytes ctx.buffer (message.length % 64) = residue 64 message

/-- A new context holds the empty message. -/
theorem md5Init_holds (ctx : Ctx) : Holds (md5Init ctx) [] := ⟨rfl, rfl, rfl, rfl⟩

/-- Whole blocks of the data are read; what is left is in the buffer. -/
theorem updateRest_words (ctx : Ctx) (data : List UInt8) :
    (updateRest ctx data).words = absorb 64 compress ctx.words data := by
  rw [updateRest]
  split
  · have hdiv : (data.length - data.length % 64) / 64 = data.length / 64 := by omega
    show absorbBlocks 64 bodyBlock _ ctx.words data = _
    rw [hdiv, bodyBlock_eq]
    rfl
  · rename_i hlt
    exact (absorb_of_lt (by omega)).symm

/-- The bytes behind the last whole block stay in the buffer. -/
theorem updateRest_buffer (ctx : Ctx) (data : List UInt8) :
    bytes (updateRest ctx data).buffer (data.length % 64) = residue 64 data := by
  have hempty : bytes ctx.buffer 0 = [] := rfl
  rw [updateRest]
  split
  · have hwhole : data.length - data.length % 64 = 64 * (data.length / 64) := by omega
    show bytes (memcpy ctx.buffer 0 (data.drop (data.length - data.length % 64))) _ = _
    rw [bytes_memcpy_of_length, hempty, List.nil_append, hwhole]
    · rfl
    · rw [List.length_drop]
      omega
  · rename_i hlt
    have hmod : data.length % 64 = data.length := Nat.mod_eq_of_lt (by omega)
    show bytes (memcpy ctx.buffer 0 data) _ = _
    rw [hmod, bytes_memcpy_of_length (Nat.zero_add _), hempty, List.nil_append,
      residue_of_lt (by omega)]

/-- The rest does not change the count of bytes. -/
theorem updateRest_lo (ctx : Ctx) (data : List UInt8) : (updateRest ctx data).lo = ctx.lo := by
  rw [updateRest]
  split <;> rfl

/-- The rest does not change its upper word. -/
theorem updateRest_hi (ctx : Ctx) (data : List UInt8) : (updateRest ctx data).hi = ctx.hi := by
  rw [updateRest]
  split <;> rfl

/-- The count of the bytes, with the carry out of `lo` -/
theorem count_update {lo hi : UInt32} {len : Nat} (size : Nat) (hlo : lo.toNat = len % 2 ^ 29)
    (hhi : hi.toNat = len / 2 ^ 29 % 2 ^ 32) :
    ((lo + .ofNat size) &&& 0x1fffffff).toNat = (len + size) % 2 ^ 29 ∧
      ((if (lo + .ofNat size) &&& 0x1fffffff < lo then hi + 1 else hi) +
        UInt32.ofNat (size >>> 29)).toNat = (len + size) / 2 ^ 29 % 2 ^ 32 := by
  have hmask : ((lo + .ofNat size) &&& 0x1fffffff).toNat = (len + size) % 2 ^ 29 := by
    rw [UInt32.toNat_and, UInt32.toNat_add, UInt32.toNat_ofNat', hlo]
    refine (Nat.and_two_pow_sub_one_eq_mod _ 29).trans ?_
    omega
  refine ⟨hmask, ?_⟩
  have hcarry : (lo + .ofNat size) &&& 0x1fffffff < lo ↔
      2 ^ 29 ≤ len % 2 ^ 29 + size % 2 ^ 29 := by
    rw [UInt32.lt_iff_toNat_lt, hmask, hlo]
    omega
  rw [UInt32.toNat_add, UInt32.toNat_ofNat', Nat.shiftRight_eq_div_pow]
  by_cases h : 2 ^ 29 ≤ len % 2 ^ 29 + size % 2 ^ 29
  · have hone : (1 : UInt32).toNat = 1 := rfl
    rw [if_pos (hcarry.mpr h), UInt32.toNat_add, hhi, hone]
    omega
  · rw [if_neg fun hlt => h (hcarry.mp hlt), hhi]
    omega

/-- The lower six bits of the count are the bytes in the buffer. -/
theorem used_eq {lo : UInt32} {len : Nat} (hlo : lo.toNat = len % 2 ^ 29) :
    (lo &&& 0x3f).toNat = len % 64 := by
  rw [UInt32.toNat_and, hlo]
  refine (Nat.and_two_pow_sub_one_eq_mod _ 6).trans ?_
  omega

/-- The block in the buffer -/
theorem body_buffer (w : Words) (buffer : Nat → UInt8) :
    body w (bytes buffer 64) 64 = compress w (bytes buffer 64) := by
  have hone : body w (bytes buffer 64) 64 = bodyBlock w ((bytes buffer 64).take 64) := rfl
  have hlen : (bytes buffer 64).take 64 = bytes buffer 64 :=
    List.take_of_length_le (Nat.le_of_eq (bytes_length buffer 64))
  rw [hone, hlen, bodyBlock_eq]

/-- An update adds its bytes to the message. -/
theorem update_holds {ctx : Ctx} {message : List UInt8} (h : Holds ctx message)
    (data : List UInt8) : Holds (md5Update ctx data) (message ++ data) := by
  obtain ⟨hlo, hhi⟩ := count_update data.length h.lo h.hi
  have hused := used_eq h.lo
  have hres : (residue 64 message).length = message.length % 64 := residue_length (by decide) _
  have hlt : message.length % 64 < 64 := Nat.mod_lt _ (by decide)
  have hmod : (message ++ data).length % 64 = (message.length % 64 + data.length) % 64 := by
    rw [List.length_append, Nat.mod_add_mod]
  rw [md5Update]
  dsimp only
  rw [hused]
  by_cases hzero : message.length % 64 = 0
  · -- nothing waits in the buffer
    have hnil : residue 64 message = [] := List.length_eq_zero_iff.mp (hres.trans hzero)
    rw [if_neg (not_not_intro hzero)]
    refine ⟨?_, ?_, ?_, ?_⟩
    · rw [updateRest_lo, List.length_append]
      exact hlo
    · rw [updateRest_hi, List.length_append]
      exact hhi
    · rw [updateRest_words, absorb_append (by decide), hnil, List.nil_append]
      exact congrArg (absorb 64 compress · data) h.words
    · rw [hmod, hzero, Nat.zero_add, residue_append (by decide), hnil, List.nil_append]
      exact updateRest_buffer _ data
  · rw [if_pos hzero]
    by_cases hsmall : data.length < 64 - message.length % 64
    · -- the block is not filled
      rw [if_pos hsmall]
      have hfit : (residue 64 message ++ data).length < 64 := by
        rw [List.length_append, hres]
        omega
      refine ⟨?_, ?_, ?_, ?_⟩
      · rw [List.length_append]
        exact hlo
      · rw [List.length_append]
        exact hhi
      · rw [absorb_append (by decide), absorb_of_lt hfit]
        exact h.words
      · have hsum : (message ++ data).length % 64 = message.length % 64 + data.length := by
          rw [hmod]
          exact Nat.mod_eq_of_lt (by omega)
        rw [hsum, residue_append (by decide), residue_of_lt hfit, ← h.buffer]
        exact bytes_memcpy ctx.buffer _ data
    · -- the block is filled and read
      rw [if_neg hsmall]
      generalize hfirst : data.take (64 - message.length % 64) = first
      generalize hrest : data.drop (64 - message.length % 64) = rest
      have hdata : data = first ++ rest := by
        rw [← hfirst, ← hrest, List.take_append_drop]
      have hlen : first.length = 64 - message.length % 64 := by
        rw [← hfirst, List.length_take]
        omega
      have hblock : bytes (memcpy ctx.buffer (message.length % 64) first) 64 =
          residue 64 message ++ first := by
        rw [bytes_memcpy_of_length (by omega), h.buffer]
      have hblockLen : (residue 64 message ++ first).length = 64 := by
        rw [List.length_append, hres]
        omega
      refine ⟨?_, ?_, ?_, ?_⟩
      · rw [updateRest_lo, List.length_append]
        exact hlo
      · rw [updateRest_hi, List.length_append]
        exact hhi
      · rw [updateRest_words, absorb_append (by decide), hdata, ← List.append_assoc,
          absorb_cons_block hblockLen (by decide)]
        dsimp only
        rw [body_buffer, hblock, h.words]
      · have hlast : (message ++ data).length % 64 = rest.length % 64 := by
          rw [hmod, hdata, List.length_append]
          omega
        rw [hlast, residue_append (by decide), hdata, ← List.append_assoc,
          residue_cons_block hblockLen (by decide)]
        exact updateRest_buffer _ rest

/-! ## The digest -/

/-- A byte of a word is a digit to base 256. -/
theorem ofNat_toUInt8 (src : UInt32) (k : Nat) (hk : k < 4) :
    (src >>> .ofNat (8 * k)).toUInt8 = .ofNat (src.toNat / 256 ^ k) := by
  apply UInt8.toNat_inj.mp
  have hshift : (UInt32.ofNat (8 * k)).toNat % 32 = 8 * k := by
    rw [UInt32.toNat_ofNat']
    omega
  rw [UInt32.toNat_toUInt8, UInt32.toNat_shiftRight, hshift, UInt8.toNat_ofNat',
    Nat.shiftRight_eq_div_pow, Nat.pow_mul]

/-- `OUT` writes the bytes of a word. -/
theorem out_eq (src : UInt32) :
    out src = (List.range 4).map fun i => .ofNat (src.toNat / 256 ^ i) := by
  have h1 := ofNat_toUInt8 src 1 (by decide)
  have h2 := ofNat_toUInt8 src 2 (by decide)
  have h3 := ofNat_toUInt8 src 3 (by decide)
  have h0 : src.toUInt8 = .ofNat (src.toNat / 256 ^ 0) := by
    rw [Nat.pow_zero, Nat.div_one]
    rfl
  show [src.toUInt8, (src >>> 8).toUInt8, (src >>> 16).toUInt8, (src >>> 24).toUInt8] =
    [.ofNat (src.toNat / 256 ^ 0), .ofNat (src.toNat / 256 ^ 1), .ofNat (src.toNat / 256 ^ 2),
      .ofNat (src.toNat / 256 ^ 3)]
  rw [← h0, ← h1, ← h2, ← h3]
  rfl

/-- The bytes of the low word of a number are those of the number. -/
theorem ofNat_low_word (n : Nat) {i : Nat} (hi : i < 4) :
    UInt8.ofNat (n % 2 ^ 32 / 256 ^ i) = .ofNat (n / 256 ^ i) := by
  apply UInt8.toNat_inj.mp
  have hpow : (2 : Nat) ^ 32 = 256 ^ (i + (3 - i + 1)) := by
    rw [show i + (3 - i + 1) = 4 by omega]
    rfl
  have hsplit : (2 : Nat) ^ 32 = 256 ^ i * (256 * 256 ^ (3 - i)) := by
    rw [hpow, Nat.pow_add, Nat.pow_succ']
  rw [UInt8.toNat_ofNat', UInt8.toNat_ofNat', hsplit, Nat.mod_mul_right_div_self]
  exact Nat.mod_mul_right_mod ..

/-- The number of bits is written in two words. -/
theorem lengthBytes_eq {lo hi : UInt32} {n : Nat} (hlo : lo.toNat = n % 2 ^ 32)
    (hhi : hi.toNat = n / 2 ^ 32 % 2 ^ 32) : out lo ++ out hi = lengthBytes n := by
  have hrange : List.range 8 = List.range 4 ++ (List.range 4).map (4 + ·) := rfl
  rw [lengthBytes, hrange, List.map_append, List.map_map, out_eq, out_eq, hlo, hhi]
  congr 1
  · exact List.map_congr_left fun i hi => ofNat_low_word n (List.mem_range.mp hi)
  · refine List.map_congr_left fun i hi => ?_
    have hword : (2 : Nat) ^ 32 = 256 ^ 4 := rfl
    have hshift : n / 256 ^ (4 + i) = n / 2 ^ 32 / 256 ^ i := by
      rw [Nat.pow_add, ← Nat.div_div_eq_div_mul, hword]
    show _ = UInt8.ofNat (n / 256 ^ (4 + i))
    rw [hshift, ofNat_low_word _ (List.mem_range.mp hi)]

/-- The lower word of the length in bits -/
theorem lo_bits {lo : UInt32} {len : Nat} (hlo : lo.toNat = len % 2 ^ 29) :
    (lo <<< 3).toNat = 8 * len % 2 ^ 32 := by
  have hthree : (3 : UInt32).toNat % 32 = 3 := rfl
  rw [UInt32.toNat_shiftLeft, hthree, Nat.shiftLeft_eq, hlo]
  omega

/-- The upper word of the length in bits -/
theorem hi_bits {hi : UInt32} {len : Nat} (hhi : hi.toNat = len / 2 ^ 29 % 2 ^ 32) :
    hi.toNat = 8 * len / 2 ^ 32 % 2 ^ 32 := by
  rw [hhi]
  omega

/-- A last block: what is left, zeros and the number of bits -/
theorem last_block {buffer : Nat → UInt8} {used available : Nat} {lo hi : UInt32} {n : Nat}
    (hsum : used + available = 64) (hroom : 8 ≤ available) (hlo : lo.toNat = n % 2 ^ 32)
    (hhi : hi.toNat = n / 2 ^ 32 % 2 ^ 32) :
    bytes (memcpy (memcpy (memcpy buffer used (List.replicate (available - 8) 0)) 56 (out lo)) 60
      (out hi)) 64 = bytes buffer used ++ (List.replicate (available - 8) 0 ++ lengthBytes n) := by
  rw [bytes_memcpy_of_length (show 60 + (out hi).length = 64 from rfl),
    bytes_memcpy_of_length (show 56 + (out lo).length = 60 from rfl),
    bytes_memcpy_of_length (by rw [List.length_replicate]; omega), List.append_assoc,
    List.append_assoc, lengthBytes_eq hlo hhi]

/-- The length is written in eight bytes. -/
theorem lengthBytes_length (n : Nat) : (lengthBytes n).length = 8 := by
  rw [lengthBytes, List.length_map, List.length_range]

/-- The digest is the four words, byte by byte. -/
theorem words_bytes (w : Words) : out w.a ++ out w.b ++ out w.c ++ out w.d = w.bytes := by
  rw [Words.bytes, List.flatMap_cons, List.flatMap_cons, List.flatMap_cons, List.flatMap_cons,
    List.flatMap_nil, out_eq, out_eq, out_eq, out_eq, List.append_nil, List.append_assoc,
    List.append_assoc]

/-- The byte behind the message -/
theorem mark_eq {ctx : Ctx} {message : List UInt8} (h : Holds ctx message) :
    bytes (memcpy ctx.buffer (message.length % 64) [0x80]) (message.length % 64 + 1) =
      residue 64 message ++ [0x80] := by
  rw [← h.buffer]
  exact bytes_memcpy ctx.buffer (message.length % 64) [0x80]

/-- The last block, when the number of bits fits behind what is left -/
theorem md5Final_of_le {ctx : Ctx} {message : List UInt8} (h : Holds ctx message)
    (hfit : message.length % 64 ≤ 55) :
    (md5Final ctx).1 = (compress ctx.words
      (residue 64 message ++ [0x80] ++ (List.replicate (55 - message.length % 64) 0 ++
        lengthBytes (8 * message.length)))).bytes := by
  have hroom : ¬ 64 - (message.length % 64 + 1) < 8 := by omega
  have hzeros : 64 - (message.length % 64 + 1) - 8 = 55 - message.length % 64 := by omega
  rw [md5Final, used_eq h.lo]
  rw [if_neg hroom]
  simp only [words_bytes, body_buffer]
  rw [last_block (by omega) (by omega) (lo_bits h.lo) (hi_bits h.hi), mark_eq h, hzeros]

/-- The last two blocks, when it does not -/
theorem md5Final_of_lt {ctx : Ctx} {message : List UInt8} (h : Holds ctx message)
    (hfull : 55 < message.length % 64) :
    (md5Final ctx).1 = (compress (compress ctx.words
      (residue 64 message ++ [0x80] ++ List.replicate (63 - message.length % 64) 0))
      (List.replicate 56 0 ++ lengthBytes (8 * message.length))).bytes := by
  have hlt : message.length % 64 < 64 := Nat.mod_lt _ (by decide)
  have hroom : 64 - (message.length % 64 + 1) < 8 := by omega
  have hzeros : 64 - (message.length % 64 + 1) = 63 - message.length % 64 := by omega
  rw [md5Final, used_eq h.lo]
  rw [if_pos hroom]
  simp only [words_bytes, body_buffer]
  rw [last_block (Nat.zero_add 64) (by decide) (lo_bits h.lo) (hi_bits h.hi), hzeros,
    bytes_memcpy_of_length (by rw [List.length_replicate]; omega), mark_eq h]
  rfl

/-- The digest of a context is that of the message it holds. -/
theorem final_holds {ctx : Ctx} {message : List UInt8} (h : Holds ctx message) :
    (md5Final ctx).1 = md5 message := by
  have hres : (residue 64 message).length = message.length % 64 := residue_length (by decide) _
  have hlt : message.length % 64 < 64 := Nat.mod_lt _ (by decide)
  rw [md5, absorb_append (by decide), ← h.words, padding, ← List.singleton_append,
    ← List.append_assoc]
  by_cases hfit : message.length % 64 ≤ 55
  · have hzeros : (119 - message.length % 64) % 64 = 55 - message.length % 64 := by omega
    have hlen : (residue 64 message ++ [0x80] ++ (List.replicate (55 - message.length % 64) 0 ++
        lengthBytes (8 * message.length))).length = 64 := by
      simp only [List.length_append, List.length_replicate, lengthBytes_length, hres,
        List.length_singleton]
      omega
    rw [md5Final_of_le h hfit, hzeros, absorb_block hlen (by decide)]
  · have hzeros : (119 - message.length % 64) % 64 = 63 - message.length % 64 + 56 := by omega
    have hfirst : (residue 64 message ++ [0x80] ++
        List.replicate (63 - message.length % 64) 0).length = 64 := by
      simp only [List.length_append, List.length_replicate, hres, List.length_singleton]
      omega
    have hlast : (List.replicate 56 0 ++ lengthBytes (8 * message.length)).length = 64 := by
      rw [List.length_append, List.length_replicate, lengthBytes_length]
    rw [md5Final_of_lt h (Nat.lt_of_not_le hfit), hzeros, ← List.replicate_append_replicate,
      List.append_assoc (List.replicate _ _), ← List.append_assoc,
      absorb_cons_block hfirst (by decide), absorb_block hlast (by decide)]

/-- The message is the pieces, one after the other, by induction on the pieces. -/
theorem updates_hold (pieces : List (List UInt8)) {ctx : Ctx} {message : List UInt8}
    (h : Holds ctx message) : Holds (pieces.foldl md5Update ctx) (message ++ pieces.flatten) := by
  induction pieces generalizing ctx message with
  | nil => rwa [List.flatten_nil, List.append_nil]
  | cons piece pieces ih =>
    rw [List.flatten_cons, ← List.append_assoc]
    exact ih (update_holds h piece)

/-- In whatever pieces a message comes, and whatever the context was: the digest is its digest. -/
theorem md5Final_updates (ctx : Ctx) (pieces : List (List UInt8)) :
    (md5Final (pieces.foldl md5Update (md5Init ctx))).1 = md5 pieces.flatten :=
  final_holds (updates_hold pieces (md5Init_holds ctx))

end PicoHost.Md5
