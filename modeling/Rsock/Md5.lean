import Rsock.EncHead
import Rsock.Lib.Blocks

/-!
# MD5

The MD5 of thirdparty/md5.c, which compute_hash (util/rhash.cpp) takes over the hash key and the first
byte of a packet. A context takes its data in pieces of any length; it keeps the bytes that do not fill
a block of 64, and counts the bytes in two words, 29 bits of the count in `lo` and the rest in `hi`.
-/

namespace Rsock

open CMem

namespace Md5

/-! ## The transformation of one block -/

/-- The macros `F`, `G`, `H`, `H2` and `I`. -/
inductive Fn where
  | f
  | g
  | h
  | h2
  | i
  deriving DecidableEq

/-- The functions `F`, `G`, `H`, `H2` and `I` of the rounds. -/
def Fn.apply : Fn → UInt32 → UInt32 → UInt32 → UInt32
  | f, x, y, z => z ^^^ (x &&& (y ^^^ z))
  | g, x, y, z => y ^^^ (z &&& (x ^^^ y))
  | h, x, y, z => (x ^^^ y) ^^^ z
  | h2, x, y, z => x ^^^ (y ^^^ z)
  | i, x, y, z => y ^^^ (x ||| ~~~z)

/-- The arguments of a use of `STEP`, but for the registers: the function, the number of the word, the
    constant and the shift. -/
structure Row where
  fn : Fn
  word : Nat
  t : UInt32
  s : UInt32
  deriving DecidableEq

/-- The uses of `STEP` in `body`. Each has the registers of the one before it, turned by one. -/
def rows : List Row :=
  [
    ⟨.f, 0, 0xd76aa478, 7⟩, ⟨.f, 1, 0xe8c7b756, 12⟩, ⟨.f, 2, 0x242070db, 17⟩, ⟨.f, 3, 0xc1bdceee, 22⟩,
    ⟨.f, 4, 0xf57c0faf, 7⟩, ⟨.f, 5, 0x4787c62a, 12⟩, ⟨.f, 6, 0xa8304613, 17⟩, ⟨.f, 7, 0xfd469501, 22⟩,
    ⟨.f, 8, 0x698098d8, 7⟩, ⟨.f, 9, 0x8b44f7af, 12⟩, ⟨.f, 10, 0xffff5bb1, 17⟩, ⟨.f, 11, 0x895cd7be, 22⟩,
    ⟨.f, 12, 0x6b901122, 7⟩, ⟨.f, 13, 0xfd987193, 12⟩, ⟨.f, 14, 0xa679438e, 17⟩, ⟨.f, 15, 0x49b40821, 22⟩,
    ⟨.g, 1, 0xf61e2562, 5⟩, ⟨.g, 6, 0xc040b340, 9⟩, ⟨.g, 11, 0x265e5a51, 14⟩, ⟨.g, 0, 0xe9b6c7aa, 20⟩,
    ⟨.g, 5, 0xd62f105d, 5⟩, ⟨.g, 10, 0x02441453, 9⟩, ⟨.g, 15, 0xd8a1e681, 14⟩, ⟨.g, 4, 0xe7d3fbc8, 20⟩,
    ⟨.g, 9, 0x21e1cde6, 5⟩, ⟨.g, 14, 0xc33707d6, 9⟩, ⟨.g, 3, 0xf4d50d87, 14⟩, ⟨.g, 8, 0x455a14ed, 20⟩,
    ⟨.g, 13, 0xa9e3e905, 5⟩, ⟨.g, 2, 0xfcefa3f8, 9⟩, ⟨.g, 7, 0x676f02d9, 14⟩, ⟨.g, 12, 0x8d2a4c8a, 20⟩,
    ⟨.h, 5, 0xfffa3942, 4⟩, ⟨.h2, 8, 0x8771f681, 11⟩, ⟨.h, 11, 0x6d9d6122, 16⟩, ⟨.h2, 14, 0xfde5380c, 23⟩,
    ⟨.h, 1, 0xa4beea44, 4⟩, ⟨.h2, 4, 0x4bdecfa9, 11⟩, ⟨.h, 7, 0xf6bb4b60, 16⟩, ⟨.h2, 10, 0xbebfbc70, 23⟩,
    ⟨.h, 13, 0x289b7ec6, 4⟩, ⟨.h2, 0, 0xeaa127fa, 11⟩, ⟨.h, 3, 0xd4ef3085, 16⟩, ⟨.h2, 6, 0x04881d05, 23⟩,
    ⟨.h, 9, 0xd9d4d039, 4⟩, ⟨.h2, 12, 0xe6db99e5, 11⟩, ⟨.h, 15, 0x1fa27cf8, 16⟩, ⟨.h2, 2, 0xc4ac5665, 23⟩,
    ⟨.i, 0, 0xf4292244, 6⟩, ⟨.i, 7, 0x432aff97, 10⟩, ⟨.i, 14, 0xab9423a7, 15⟩, ⟨.i, 5, 0xfc93a039, 21⟩,
    ⟨.i, 12, 0x655b59c3, 6⟩, ⟨.i, 3, 0x8f0ccc92, 10⟩, ⟨.i, 10, 0xffeff47d, 15⟩, ⟨.i, 1, 0x85845dd1, 21⟩,
    ⟨.i, 8, 0x6fa87e4f, 6⟩, ⟨.i, 15, 0xfe2ce6e0, 10⟩, ⟨.i, 6, 0xa3014314, 15⟩, ⟨.i, 13, 0x4e0811a1, 21⟩,
    ⟨.i, 4, 0xf7537e82, 6⟩, ⟨.i, 11, 0xbd3af235, 10⟩, ⟨.i, 2, 0x2ad7d2bb, 15⟩, ⟨.i, 9, 0xeb86d391, 21⟩]

/-- The registers `a`, `b`, `c`, `d`. -/
structure Regs where
  a : UInt32
  b : UInt32
  c : UInt32
  d : UInt32
  deriving DecidableEq

/-- `STEP` with the registers `r.a`, `r.b`, `r.c`, `r.d`, which are then turned for the next one. `x` is
    the word. -/
def stepRegs (row : Row) (x : UInt32) (r : Regs) : Regs :=
  let a := r.a + (row.fn.apply r.b r.c r.d + x + row.t)
  let a := (a <<< row.s) ||| (a >>> (32 - row.s))
  let a := a + r.b
  { a := r.d, b := a, c := r.b, d := r.c }

/-- `SET(n)` and `GET(n)`: four bytes, the lowest first. -/
def getWord (ptr : List UInt8) (n : Nat) : UInt32 := UInt32.ofNat (ofLE ((ptr.drop (4 * n)).take 4))

/-- The body of the loop of `body`, for the 64 bytes at `ptr`. -/
def block (r : Regs) (ptr : List UInt8) : Regs :=
  let saved := r
  let r := rows.foldl (fun r row => stepRegs row (getWord ptr row.word) r) r
  { a := r.a + saved.a, b := r.b + saved.b, c := r.c + saved.c, d := r.d + saved.d }

/-- `n` passes of the loop of `body`, with the pointer behind the blocks. -/
def bodyLoop : Nat → Regs → List UInt8 → Except Fault (Regs × List UInt8)
  | 0, r, ptr => return (r, ptr)
  | n + 1, r, ptr => do
    let (bytes, ptr) ← readBytes 64 ptr
    bodyLoop n (block r bytes) ptr

/-- `body`. The size is a multiple of 64 and not 0. -/
def body (r : Regs) (data : List UInt8) (size : Nat) : Except Fault (Regs × List UInt8) :=
  bodyLoop (size / 64) r data

end Md5

/-! ## Contexts -/

/-- `MD5_CTX` -/
structure Md5Ctx where
  lo : UInt32
  hi : UInt32
  regs : Md5.Regs
  buffer : Buf 64

namespace Md5

def initRegs : Regs := { a := 0x67452301, b := 0xefcdab89, c := 0x98badcfe, d := 0x10325476 }

/-- `MD5_Init`. The buffer is as it was. -/
def init (buffer : Buf 64) : Md5Ctx := { lo := 0, hi := 0, regs := initRegs, buffer := buffer }

/-- The counters after `size` more bytes. `unsigned long` has 64 bits. -/
def count (lo hi : UInt32) (size : UInt64) : UInt32 × UInt32 :=
  let lo' := ((lo.toUInt64 + size) &&& 0x1fffffff).toUInt32
  let hi' := if lo' < lo then hi + 1 else hi
  (lo', (hi'.toUInt64 + (size >>> 29)).toUInt32)

/-- `MD5_Update` from where the buffer is empty. -/
def updateBlocks (ctx : Md5Ctx) (data : List UInt8) : Except Fault Md5Ctx :=
  if 64 ≤ data.length then do
    -- `size & ~0x3f`
    let (regs, data) ← body ctx.regs data (data.length - data.length % 64)
    let buffer ← ctx.buffer.memcpy 0 data
    return { ctx with regs := regs, buffer := buffer }
  else do
    let buffer ← ctx.buffer.memcpy 0 data
    return { ctx with buffer := buffer }

/-- `MD5_Update` -/
def update (ctx : Md5Ctx) (data : List UInt8) : Except Fault Md5Ctx := do
  let savedLo := ctx.lo
  let (lo, hi) := count ctx.lo ctx.hi (UInt64.ofNat data.length)
  let ctx := { ctx with lo := lo, hi := hi }
  let used := (savedLo &&& 0x3f).toNat
  if used ≠ 0 then
    let available := 64 - used
    if data.length < available then
      let buffer ← ctx.buffer.memcpy used data
      return { ctx with buffer := buffer }
    else
      let buffer ← ctx.buffer.memcpy used (data.take available)
      let (regs, _) ← body ctx.regs buffer.bytes 64
      updateBlocks { ctx with regs := regs, buffer := buffer } (data.drop available)
  else updateBlocks ctx data

/-- `OUT` -/
def out (src : UInt32) : List UInt8 := toLE 4 src.toNat

/-- The digest in the registers. -/
def digest (r : Regs) : Buf md5Len :=
  ⟨out r.a ++ out r.b ++ out r.c ++ out r.d, by simp [out, md5Len]⟩

/-- `MD5_Final` from where the last block is filled from `used` on. -/
def finalBlock (ctx : Md5Ctx) (used : Nat) : Except Fault (Buf md5Len) := do
  let available := 64 - used
  let buffer ← ctx.buffer.memcpy used (List.replicate (available - 8) 0)
  let buffer ← buffer.memcpy 56 (out (ctx.lo <<< 3))
  let buffer ← buffer.memcpy 60 (out ctx.hi)
  let (regs, _) ← body ctx.regs buffer.bytes 64
  return digest regs

/-- `MD5_Final` -/
def final (ctx : Md5Ctx) : Except Fault (Buf md5Len) := do
  let used := (ctx.lo &&& 0x3f).toNat
  let buffer ← ctx.buffer.memcpy used [0x80]
  let used := used + 1
  let available := 64 - used
  if available < 8 then
    let buffer ← buffer.memcpy used (List.replicate available 0)
    let (regs, _) ← body ctx.regs buffer.bytes 64
    finalBlock { ctx with regs := regs, buffer := buffer } 0
  else finalBlock { ctx with buffer := buffer } used

end Md5

/-- The static `compute_hash`: the hash it writes. The stack of the context held `buffer`. -/
def md5Hash (buffer : Buf 64) (key data : List UInt8) : Except Fault (List UInt8) := do
  cassert (0 < data.length)
  let ctx ← Md5.update (Md5.init buffer) key
  let ctx ← Md5.update ctx (data.take 1)
  let result ← Md5.final ctx
  return (result.bytes.drop (md5Len - hashBufSize)).take hashBufSize

end Rsock
