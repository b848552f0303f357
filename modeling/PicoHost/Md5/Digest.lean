import PicoHost.Lib.BlockStream

/-!
# MD5 (`esp_md5.c`)

The context of a digest and the three functions on it. The words of a block are read where they
are used; the copy of them in `block` of the context is left out.
-/

namespace PicoHost.Md5

/-- `a`, `b`, `c` and `d` of `MD5_CTX` -/
structure Words where
  a : UInt32
  b : UInt32
  c : UInt32
  d : UInt32
deriving DecidableEq, Repr

/-- `MD5_CTX`: `lo` counts the bytes up to `2^29`, and `hi` the multiples of that. -/
structure Ctx where
  lo : UInt32
  hi : UInt32
  words : Words
  buffer : Nat → UInt8

/-! ## Blocks -/

/-- The macros `F`, `G`, `H`, `H2` and `I` -/
inductive Fn where
  | f | g | h | h2 | i
deriving DecidableEq, Repr

def Fn.eval : Fn → UInt32 → UInt32 → UInt32 → UInt32
  | .f, x, y, z => z ^^^ (x &&& (y ^^^ z))
  | .g, x, y, z => y ^^^ (z &&& (x ^^^ y))
  | .h, x, y, z => x ^^^ y ^^^ z
  | .h2, x, y, z => x ^^^ (y ^^^ z)
  | .i, x, y, z => y ^^^ (x ||| ~~~z)

/-- The arguments of a `STEP`: the function, the word of the block, the constant, the shift -/
structure Step where
  fn : Fn
  x : Nat
  t : UInt32
  s : UInt32
deriving DecidableEq, Repr

/-- `STEP`, for the word in the place of `a`. The next step takes the words one place further:
`d` stands where `a` stood, `a` where `b` stood, and so on. -/
def Step.run (x : Nat → UInt32) (w : Words) (p : Step) : Words :=
  let a := w.a + (p.fn.eval w.b w.c w.d + x p.x + p.t)
  let a := (a <<< p.s) ||| ((a &&& 0xffffffff) >>> (32 - p.s))
  let a := a + w.b
  ⟨w.d, a, w.b, w.c⟩

def round1 : List Step :=
  [⟨.f, 0, 0xd76aa478, 7⟩, ⟨.f, 1, 0xe8c7b756, 12⟩,
    ⟨.f, 2, 0x242070db, 17⟩, ⟨.f, 3, 0xc1bdceee, 22⟩,
    ⟨.f, 4, 0xf57c0faf, 7⟩, ⟨.f, 5, 0x4787c62a, 12⟩,
    ⟨.f, 6, 0xa8304613, 17⟩, ⟨.f, 7, 0xfd469501, 22⟩,
    ⟨.f, 8, 0x698098d8, 7⟩, ⟨.f, 9, 0x8b44f7af, 12⟩,
    ⟨.f, 10, 0xffff5bb1, 17⟩, ⟨.f, 11, 0x895cd7be, 22⟩,
    ⟨.f, 12, 0x6b901122, 7⟩, ⟨.f, 13, 0xfd987193, 12⟩,
    ⟨.f, 14, 0xa679438e, 17⟩, ⟨.f, 15, 0x49b40821, 22⟩]

def round2 : List Step :=
  [⟨.g, 1, 0xf61e2562, 5⟩, ⟨.g, 6, 0xc040b340, 9⟩,
    ⟨.g, 11, 0x265e5a51, 14⟩, ⟨.g, 0, 0xe9b6c7aa, 20⟩,
    ⟨.g, 5, 0xd62f105d, 5⟩, ⟨.g, 10, 0x02441453, 9⟩,
    ⟨.g, 15, 0xd8a1e681, 14⟩, ⟨.g, 4, 0xe7d3fbc8, 20⟩,
    ⟨.g, 9, 0x21e1cde6, 5⟩, ⟨.g, 14, 0xc33707d6, 9⟩,
    ⟨.g, 3, 0xf4d50d87, 14⟩, ⟨.g, 8, 0x455a14ed, 20⟩,
    ⟨.g, 13, 0xa9e3e905, 5⟩, ⟨.g, 2, 0xfcefa3f8, 9⟩,
    ⟨.g, 7, 0x676f02d9, 14⟩, ⟨.g, 12, 0x8d2a4c8a, 20⟩]

def round3 : List Step :=
  [⟨.h, 5, 0xfffa3942, 4⟩, ⟨.h2, 8, 0x8771f681, 11⟩,
    ⟨.h, 11, 0x6d9d6122, 16⟩, ⟨.h2, 14, 0xfde5380c, 23⟩,
    ⟨.h, 1, 0xa4beea44, 4⟩, ⟨.h2, 4, 0x4bdecfa9, 11⟩,
    ⟨.h, 7, 0xf6bb4b60, 16⟩, ⟨.h2, 10, 0xbebfbc70, 23⟩,
    ⟨.h, 13, 0x289b7ec6, 4⟩, ⟨.h2, 0, 0xeaa127fa, 11⟩,
    ⟨.h, 3, 0xd4ef3085, 16⟩, ⟨.h2, 6, 0x04881d05, 23⟩,
    ⟨.h, 9, 0xd9d4d039, 4⟩, ⟨.h2, 12, 0xe6db99e5, 11⟩,
    ⟨.h, 15, 0x1fa27cf8, 16⟩, ⟨.h2, 2, 0xc4ac5665, 23⟩]

def round4 : List Step :=
  [⟨.i, 0, 0xf4292244, 6⟩, ⟨.i, 7, 0x432aff97, 10⟩,
    ⟨.i, 14, 0xab9423a7, 15⟩, ⟨.i, 5, 0xfc93a039, 21⟩,
    ⟨.i, 12, 0x655b59c3, 6⟩, ⟨.i, 3, 0x8f0ccc92, 10⟩,
    ⟨.i, 10, 0xffeff47d, 15⟩, ⟨.i, 1, 0x85845dd1, 21⟩,
    ⟨.i, 8, 0x6fa87e4f, 6⟩, ⟨.i, 15, 0xfe2ce6e0, 10⟩,
    ⟨.i, 6, 0xa3014314, 15⟩, ⟨.i, 13, 0x4e0811a1, 21⟩,
    ⟨.i, 4, 0xf7537e82, 6⟩, ⟨.i, 11, 0xbd3af235, 10⟩,
    ⟨.i, 2, 0x2ad7d2bb, 15⟩, ⟨.i, 9, 0xeb86d391, 21⟩]

/-- `SET`: four bytes, the lowest one first -/
def word (ptr : List UInt8) (n : Nat) : UInt32 :=
  (ptr.getD (n * 4) 0).toUInt32 ||| (ptr.getD (n * 4 + 1) 0).toUInt32 <<< 8 |||
    (ptr.getD (n * 4 + 2) 0).toUInt32 <<< 16 ||| (ptr.getD (n * 4 + 3) 0).toUInt32 <<< 24

/-- One turn of the loop of `body` (esp_md5.c:113–197) -/
def bodyBlock (w : Words) (ptr : List UInt8) : Words :=
  let r := (round1 ++ round2 ++ round3 ++ round4).foldl (Step.run (word ptr)) w
  ⟨r.a + w.a, r.b + w.b, r.c + w.c, r.d + w.d⟩

/-- `body` (esp_md5.c:100–205) for a size that is a positive multiple of 64 -/
def body (w : Words) (data : List UInt8) (size : Nat) : Words :=
  BlockStream.absorbBlocks 64 bodyBlock (size / 64) w data

/-! ## The functions -/

/-- `memcpy(&buffer[off], data, …)` -/
def memcpy (buffer : Nat → UInt8) (off : Nat) (data : List UInt8) (i : Nat) : UInt8 :=
  if off ≤ i then data.getD (i - off) (buffer i) else buffer i

/-- The first `n` bytes of the buffer -/
def bytes (buffer : Nat → UInt8) (n : Nat) : List UInt8 := (List.range n).map buffer

/-- `MD5_Init` (esp_md5.c:207–216) -/
def md5Init (ctx : Ctx) : Ctx :=
  { ctx with words := ⟨0x67452301, 0xefcdab89, 0x98badcfe, 0x10325476⟩, lo := 0, hi := 0 }

/-- The last part of `MD5_Update` (esp_md5.c:244–249): whole blocks are read where they are, and what
is left is kept. -/
def updateRest (ctx : Ctx) (data : List UInt8) : Ctx :=
  if 64 ≤ data.length then
    let whole := data.length - data.length % 64
    { ctx with
      words := body ctx.words data whole
      buffer := memcpy ctx.buffer 0 (data.drop whole) }
  else { ctx with buffer := memcpy ctx.buffer 0 data }

/-- `MD5_Update` (esp_md5.c:218–250) -/
def md5Update (ctx : Ctx) (data : List UInt8) : Ctx :=
  let size := data.length
  let savedLo := ctx.lo
  let lo := (savedLo + .ofNat size) &&& 0x1fffffff
  let hi := if lo < savedLo then ctx.hi + 1 else ctx.hi
  let hi := hi + .ofNat (size >>> 29)
  let ctx := { ctx with lo, hi }
  let used := (savedLo &&& 0x3f).toNat
  if used ≠ 0 then
    let available := 64 - used
    if size < available then { ctx with buffer := memcpy ctx.buffer used data }
    else
      let buffer := memcpy ctx.buffer used (data.take available)
      let words := body ctx.words (bytes buffer 64) 64
      updateRest { ctx with words, buffer } (data.drop available)
  else updateRest ctx data

/-- `OUT`: the bytes of a word, the lowest one first -/
def out (src : UInt32) : List UInt8 :=
  [src.toUInt8, (src >>> 8).toUInt8, (src >>> 16).toUInt8, (src >>> 24).toUInt8]

/-- `MD5_Final` (esp_md5.c:258–289): the digest, and the context, which is cleared -/
def md5Final (ctx : Ctx) : List UInt8 × Ctx :=
  let used := (ctx.lo &&& 0x3f).toNat
  let buffer := memcpy ctx.buffer used [0x80]
  let used := used + 1
  let available := 64 - used
  let (words, buffer, used, available) :=
    if available < 8 then
      let buffer := memcpy buffer used (List.replicate available 0)
      (body ctx.words (bytes buffer 64) 64, buffer, 0, 64)
    else (ctx.words, buffer, used, available)
  let buffer := memcpy buffer used (List.replicate (available - 8) 0)
  let buffer := memcpy buffer 56 (out (ctx.lo <<< 3))
  let buffer := memcpy buffer 60 (out ctx.hi)
  let words := body words (bytes buffer 64) 64
  (out words.a ++ out words.b ++ out words.c ++ out words.d, ⟨0, 0, ⟨0, 0, 0, 0⟩, fun _ => 0⟩)

end PicoHost.Md5
