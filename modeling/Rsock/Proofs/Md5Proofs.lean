import Rsock.Md5

/-!
# Proofs: MD5

`Md5Rfc.md5` is the digest as RFC 1321 defines it, of a message that is there as a whole. A context that
gets the message in pieces computes the same digest, and never touches a byte outside its buffer.
-/

namespace Rsock

open CMem Blocks

/-! ## RFC 1321 -/

namespace Md5Rfc

open Md5 (Regs)

/-- The function of a round. -/
def fn (round : Nat) (x y z : UInt32) : UInt32 :=
  match round with
  | 0 => (x &&& y) ||| (~~~x &&& z)
  | 1 => (x &&& z) ||| (y &&& ~~~z)
  | 2 => x ^^^ y ^^^ z
  | _ => y ^^^ (x ||| ~~~z)

/-- The word an operation takes. -/
def wordOf (i : Nat) : Nat :=
  match i / 16 with
  | 0 => i % 16
  | 1 => (5 * i + 1) % 16
  | 2 => (3 * i + 5) % 16
  | _ => 7 * i % 16

/-- The shift of an operation. -/
def shiftOf (i : Nat) : UInt32 :=
  match i / 16, i % 4 with
  | 0, 0 => 7 | 0, 1 => 12 | 0, 2 => 17 | 0, _ => 22
  | 1, 0 => 5 | 1, 1 => 9 | 1, 2 => 14 | 1, _ => 20
  | 2, 0 => 4 | 2, 1 => 11 | 2, 2 => 16 | 2, _ => 23
  | _, 0 => 6 | _, 1 => 10 | _, 2 => 15 | _, _ => 21

/-- The table `T`: `T[i]` is the integer part of 4294967296 times `abs(sin(i))`, for `i` from 1 on. -/
def sines : List UInt32 := [
    0xd76aa478, 0xe8c7b756, 0x242070db, 0xc1bdceee, 0xf57c0faf, 0x4787c62a, 0xa8304613, 0xfd469501,
    0x698098d8, 0x8b44f7af, 0xffff5bb1, 0x895cd7be, 0x6b901122, 0xfd987193, 0xa679438e, 0x49b40821,
    0xf61e2562, 0xc040b340, 0x265e5a51, 0xe9b6c7aa, 0xd62f105d, 0x02441453, 0xd8a1e681, 0xe7d3fbc8,
    0x21e1cde6, 0xc33707d6, 0xf4d50d87, 0x455a14ed, 0xa9e3e905, 0xfcefa3f8, 0x676f02d9, 0x8d2a4c8a,
    0xfffa3942, 0x8771f681, 0x6d9d6122, 0xfde5380c, 0xa4beea44, 0x4bdecfa9, 0xf6bb4b60, 0xbebfbc70,
    0x289b7ec6, 0xeaa127fa, 0xd4ef3085, 0x04881d05, 0xd9d4d039, 0xe6db99e5, 0x1fa27cf8, 0xc4ac5665,
    0xf4292244, 0x432aff97, 0xab9423a7, 0xfc93a039, 0x655b59c3, 0x8f0ccc92, 0xffeff47d, 0x85845dd1,
    0x6fa87e4f, 0xfe2ce6e0, 0xa3014314, 0x4e0811a1, 0xf7537e82, 0xbd3af235, 0x2ad7d2bb, 0xeb86d391]

/-- `T[i + 1]` -/
def t (i : Nat) : UInt32 := sines.getD i 0

/-- A word of four bytes, the low-order byte first. -/
def word (b₀ b₁ b₂ b₃ : UInt8) : UInt32 :=
  UInt32.ofNat (b₀.toNat + 2 ^ 8 * b₁.toNat + 2 ^ 16 * b₂.toNat + 2 ^ 24 * b₃.toNat)

/-- The bytes of a word, the low-order byte first. -/
def bytesOf (w : UInt32) : List UInt8 :=
  [w.toUInt8, (w >>> 8).toUInt8, (w >>> 16).toUInt8, (w >>> 24).toUInt8]

/-- `X[k]` of a block. -/
def wordAt (bytes : List UInt8) (k : Nat) : UInt32 :=
  word (bytes.getD (4 * k) 0) (bytes.getD (4 * k + 1) 0) (bytes.getD (4 * k + 2) 0)
    (bytes.getD (4 * k + 3) 0)

/-- The words `A`, `B`, `C` and `D` at the beginning, given by their bytes. -/
def initRegs : Regs where
  a := word 0x01 0x23 0x45 0x67
  b := word 0x89 0xab 0xcd 0xef
  c := word 0xfe 0xdc 0xba 0x98
  d := word 0x76 0x54 0x32 0x10

/-- RFC 1321: `X <<< s`. -/
def rotateLeft (x s : UInt32) : UInt32 := (x <<< s) ||| (x >>> (32 - s))

/-- Operation `i`: `a = b + ((a + fn(b, c, d) + X[k] + T[i]) <<< s)`, after which the registers change
    their roles. -/
def operation (x : Nat → UInt32) (r : Regs) (i : Nat) : Regs where
  a := r.d
  b := r.b + rotateLeft (r.a + fn (i / 16) r.b r.c r.d + x (wordOf i) + t i) (shiftOf i)
  c := r.b
  d := r.c

/-- RFC 1321: the registers after a block of 16 words. -/
def block (r : Regs) (bytes : List UInt8) : Regs :=
  let r' := (List.range 64).foldl (operation (wordAt bytes)) r
  { a := r'.a + r.a, b := r'.b + r.b, c := r'.c + r.c, d := r'.d + r.d }

/-- The number of the bits of a message as two words, the low-order word first. Of a larger number only
    the low 64 bits are used. -/
def lengthOf (m : List UInt8) : List UInt8 :=
  bytesOf (UInt32.ofNat (8 * m.length)) ++ bytesOf (UInt32.ofNat (8 * m.length / 2 ^ 32))

/-- The message, one 1 bit, 0 bits, and the number of its bits. -/
def pad (m : List UInt8) : List UInt8 :=
  m ++ 0x80 :: (List.replicate ((119 - m.length % 64) % 64) 0 ++ lengthOf m)

/-- The output: the bytes of `A`, `B`, `C` and `D`. -/
def digest (r : Regs) : Buf md5Len := ⟨bytesOf r.a ++ bytesOf r.b ++ bytesOf r.c ++ bytesOf r.d, rfl⟩

/-- RFC 1321: the digest of a message. -/
def md5 (m : List UInt8) : Buf md5Len := digest (feed 64 block initRegs (pad m))

/-! ### Words in memory -/

/-- The bytes of a word are those the code writes. -/
theorem bytesOf_ofNat (n : Nat) : bytesOf (UInt32.ofNat n) = toLE 4 n := by
  have hbyte : ∀ {b : UInt8} {k : Nat}, b.toNat = k % 256 → b = UInt8.ofNat (k % 256) := by
    intro b k hb
    rw [← hb]
    exact (UInt8.ofNat_toNat).symm
  simp only [bytesOf, toLE, List.cons.injEq, and_true]
  refine ⟨hbyte ?_, hbyte ?_, hbyte ?_, hbyte ?_⟩
  · simp
  · simp [Nat.shiftRight_eq_div_pow]
    omega
  · simp [Nat.shiftRight_eq_div_pow]
    omega
  · simp [Nat.shiftRight_eq_div_pow]
    omega

theorem pad_eq (m : List UInt8) : pad m =
    m ++ 0x80 :: (List.replicate ((119 - m.length % 64) % 64) 0 ++ toLE 8 (8 * m.length)) := by
  have hlen : lengthOf m = toLE 8 (8 * m.length) := by
    rw [lengthOf, bytesOf_ofNat, bytesOf_ofNat]
    exact (toLE_add 4 4 _).symm
  rw [pad, hlen]

/-- The words of a block are those the code reads. -/
theorem wordAt_eq (bytes : List UInt8) (k : Nat) : wordAt bytes k = Md5.getWord bytes k := by
  have hget : ∀ j, bytes.getD (4 * k + j) 0 = (bytes.drop (4 * k)).getD j 0 := by
    intro j
    rw [List.getD_eq_getElem?_getD, List.getD_eq_getElem?_getD, List.getElem?_drop]
  have hget₀ := hget 0
  rw [Nat.add_zero] at hget₀
  rw [wordAt, Md5.getWord, hget₀, hget 1, hget 2, hget 3, word]
  congr 1
  -- the bytes that are not there are 0
  rcases bytes.drop (4 * k) with _ | ⟨a, _ | ⟨b, _ | ⟨c, _ | ⟨d, l⟩⟩⟩⟩ <;> simp [ofLE] <;> omega

end Md5Rfc

namespace Md5

/-! ## One block -/

/-- The round a function belongs to. -/
def Fn.round : Fn → Nat
  | f => 0
  | g => 1
  | h => 2
  | h2 => 2
  | i => 3

theorem uint32_ext {x y : UInt32} (h : ∀ i, x.toBitVec.getLsbD i = y.toBitVec.getLsbD i) : x = y :=
  UInt32.toBitVec_inj.mp (BitVec.eq_of_getLsbD_eq fun i _ => h i)

/-- The functions of the code are those of the RFC, written with one operation less. -/
theorem apply_eq (fn : Fn) (x y z : UInt32) : fn.apply x y z = Md5Rfc.fn fn.round x y z := by
  refine uint32_ext fun i => ?_
  by_cases hi : i < 32
  · -- one bit of each word
    cases fn <;> simp [Fn.apply, Md5Rfc.fn, Fn.round, hi] <;> generalize x.toBitVec[i] = p <;>
      generalize y.toBitVec[i] = q <;> generalize z.toBitVec[i] = r <;> revert p q r <;> decide
  · rw [BitVec.getLsbD_of_ge _ _ (by omega), BitVec.getLsbD_of_ge _ _ (by omega)]

/-- The table of the code has the operations of the RFC, with its words, sines and shifts. -/
theorem rows_eq : rows.map (fun row => (row.fn.round, row.word, row.t, row.s)) =
    (List.range 64).map fun i => (i / 16, Md5Rfc.wordOf i, Md5Rfc.t i, Md5Rfc.shiftOf i) := by
  decide +kernel

theorem stepRegs_eq (x : UInt32) (row : Row) (r : Regs) :
    stepRegs row x r =
      { a := r.d, b := r.b + Md5Rfc.rotateLeft
          (r.a + Md5Rfc.fn row.fn.round r.b r.c r.d + x + row.t) row.s, c := r.b, d := r.c } := by
  simp only [stepRegs, apply_eq, Md5Rfc.rotateLeft]
  rw [UInt32.add_comm r.b, UInt32.add_assoc r.a, UInt32.add_assoc r.a]

theorem block_eq : block = Md5Rfc.block := by
  funext r bytes
  -- both sides fold the same operations
  let op (r : Regs) (e : Nat × Nat × UInt32 × UInt32) : Regs :=
    { a := r.d, b := r.b + Md5Rfc.rotateLeft
        (r.a + Md5Rfc.fn e.1 r.b r.c r.d + Md5Rfc.wordAt bytes e.2.1 + e.2.2.1) e.2.2.2, c := r.b,
      d := r.c }
  have hrows : rows.foldl (fun r row => stepRegs row (getWord bytes row.word) r) r =
      (rows.map fun row => (row.fn.round, row.word, row.t, row.s)).foldl op r := by
    rw [List.foldl_map]
    refine List.foldl_ext _ _ _ fun r row _ => ?_
    rw [← Md5Rfc.wordAt_eq]
    exact stepRegs_eq _ row r
  have hrfc : (List.range 64).foldl (Md5Rfc.operation (Md5Rfc.wordAt bytes)) r =
      ((List.range 64).map fun i =>
        (i / 16, Md5Rfc.wordOf i, Md5Rfc.t i, Md5Rfc.shiftOf i)).foldl op r := by
    rw [List.foldl_map]
    rfl
  have hfold := hrows.trans ((congrArg (List.foldl op r) rows_eq).trans hrfc.symm)
  simp only [block, Md5Rfc.block, hfold]

theorem initRegs_eq : initRegs = Md5Rfc.initRegs := by decide

/-- The digest is the output of the RFC. -/
theorem digest_eq (r : Regs) : digest r = Md5Rfc.digest r := by
  have hout : ∀ w : UInt32, out w = Md5Rfc.bytesOf w := by
    intro w
    rw [out, ← Md5Rfc.bytesOf_ofNat, UInt32.ofNat_toNat]
  refine Buf.ext ?_
  simp only [digest, Md5Rfc.digest, hout]

theorem bodyLoop_eq {n : Nat} {ptr : List UInt8} (r : Regs) (h : 64 * n ≤ ptr.length) :
    bodyLoop n r ptr = .ok (feedN 64 block n r ptr, ptr.drop (64 * n)) := by
  induction n generalizing r ptr with
  | zero => rfl
  | succ n ih =>
    have hrest : 64 * n ≤ (ptr.drop 64).length := by
      rw [List.length_drop]
      omega
    rw [bodyLoop, readBytes_of_le (by omega), ok_bind]
    dsimp only
    rw [ih _ hrest, List.drop_drop, feedN, Nat.mul_succ, Nat.add_comm 64]

/-- `body` of the buffer. -/
theorem body_buffer (r : Regs) (b : Buf 64) : body r b.bytes 64 = .ok (block r b.bytes, []) := by
  have hlen : 64 * (64 / 64) ≤ b.bytes.length := by simp
  have hall : b.bytes.take 64 = b.bytes := List.take_of_length_le b.length_eq.le
  rw [body, bodyLoop_eq r hlen]
  simp [feedN, hall]

/-! ## The counters -/

/-- The counters hold the number of bytes, up to 61 bits of it. -/
structure Counts (lo hi : UInt32) (n : Nat) : Prop where
  lo : lo.toNat = n % 2 ^ 29
  hi : hi.toNat = n / 2 ^ 29 % 2 ^ 32

theorem counts_count {lo hi : UInt32} {n k : Nat} (h : Counts lo hi n) (hk : k < 2 ^ 64) :
    Counts (count lo hi (UInt64.ofNat k)).1 (count lo hi (UInt64.ofNat k)).2 (n + k) := by
  have hk' : (UInt64.ofNat k).toNat = k := by
    rw [UInt64.toNat_ofNat']
    exact Nat.mod_eq_of_lt hk
  have hlo : ((lo.toUInt64 + UInt64.ofNat k) &&& 0x1fffffff).toUInt32.toNat =
      (lo.toNat + k) % 2 ^ 29 := by
    have hmask : ((lo.toUInt64 + UInt64.ofNat k) &&& 0x1fffffff).toNat = (lo.toNat + k) % 2 ^ 29 := by
      rw [UInt64.toNat_and]
      show (lo.toUInt64 + UInt64.ofNat k).toNat &&& (2 ^ 29 - 1) = _
      rw [Nat.and_two_pow_sub_one_eq_mod, UInt64.toNat_add, UInt32.toNat_toUInt64, hk']
      exact Nat.mod_mod_of_dvd _ ⟨2 ^ 35, rfl⟩
    rw [UInt64.toNat_toUInt32, hmask]
    omega
  have hlt := lo.toNat_lt
  have h1 := h.lo
  have h2 := h.hi
  refine ⟨?_, ?_⟩
  · show ((lo.toUInt64 + UInt64.ofNat k) &&& 0x1fffffff).toUInt32.toNat = _
    rw [hlo, h1]
    omega
  · show ((if ((lo.toUInt64 + UInt64.ofNat k) &&& 0x1fffffff).toUInt32 < lo then hi + 1
      else hi).toUInt64 + (UInt64.ofNat k >>> 29)).toUInt32.toNat = _
    have hhi : (if ((lo.toUInt64 + UInt64.ofNat k) &&& 0x1fffffff).toUInt32 < lo then hi + 1
        else hi).toNat = (hi.toNat + (lo.toNat + k % 2 ^ 29) / 2 ^ 29) % 2 ^ 32 := by
      have hhi_lt := hi.toNat_lt
      split
      next hcarry =>
        rw [UInt32.lt_iff_toNat_lt, hlo] at hcarry
        rw [UInt32.toNat_add]
        show (hi.toNat + 1) % 2 ^ 32 = _
        omega
      next hcarry =>
        rw [UInt32.lt_iff_toNat_lt, hlo] at hcarry
        omega
    have hshift : (UInt64.ofNat k >>> 29).toNat = k / 2 ^ 29 := by
      rw [UInt64.toNat_shiftRight, hk']
      show k >>> 29 = _
      exact Nat.shiftRight_eq_div_pow k 29
    rw [UInt64.toNat_toUInt32, UInt64.toNat_add, UInt32.toNat_toUInt64, hhi, hshift]
    omega

/-! ## Contexts -/

/-- The context has taken the message: its full blocks are in the registers, the rest is in the
    buffer. -/
structure Took (m : List UInt8) (ctx : Md5Ctx) : Prop where
  counts : Counts ctx.lo ctx.hi m.length
  regs : ctx.regs = feed 64 block initRegs m
  buffer : ctx.buffer.bytes.take (m.length % 64) = rest 64 m

theorem took_init (buffer : Buf 64) : Took [] (init buffer) where
  counts := ⟨rfl, rfl⟩
  regs := rfl
  buffer := rfl

theorem used_eq {lo hi : UInt32} {n : Nat} (h : Counts lo hi n) : (lo &&& 0x3f).toNat = n % 64 := by
  rw [UInt32.toNat_and]
  show lo.toNat &&& (2 ^ 6 - 1) = _
  rw [Nat.and_two_pow_sub_one_eq_mod, h.lo]
  exact Nat.mod_mod_of_dvd _ ⟨2 ^ 23, rfl⟩

/-- The buffer is empty, `done` has been taken as a whole. -/
theorem updateBlocks_eq (ctx : Md5Ctx) (data : List UInt8) :
    ∃ buffer, updateBlocks ctx data = .ok { ctx with
        regs := feed 64 block ctx.regs data, buffer := buffer } ∧
      buffer.bytes.take (data.length % 64) = rest 64 data := by
  have hmem : ∀ d : List UInt8, d.length < 64 → ∃ b, ctx.buffer.memcpy 0 d = .ok b ∧
      b.bytes.take d.length = d := by
    intro d hd
    have hfits : 0 + d.length ≤ 64 := by omega
    obtain ⟨b, hb, htake⟩ := ctx.buffer.memcpy_ok hfits
    refine ⟨b, hb, ?_⟩
    rw [Nat.zero_add] at htake
    exact htake
  by_cases h64 : 64 ≤ data.length
  · have hdiv : (data.length - data.length % 64) / 64 = data.length / 64 := by omega
    obtain ⟨b, hb, htake⟩ := hmem (rest 64 data) (length_rest_lt (by decide) data)
    rw [length_rest] at htake
    refine ⟨b, ?_, htake⟩
    rw [updateBlocks, if_pos h64, body, hdiv, bodyLoop_eq _ (by omega), ok_bind]
    show (ctx.buffer.memcpy 0 (rest 64 data) >>= _) = _
    rw [hb]
    rfl
  · have hlt := Nat.not_le.mp h64
    obtain ⟨b, hb, htake⟩ := hmem data hlt
    refine ⟨b, ?_, ?_⟩
    · rw [updateBlocks, if_neg h64, hb, feed_of_lt hlt]
      rfl
    · rw [Nat.mod_eq_of_lt hlt, rest_of_lt hlt]
      exact htake

theorem update_took {m data : List UInt8} {ctx : Md5Ctx} (h : Took m ctx) (hlen : data.length < 2 ^ 64) :
    ∃ ctx', update ctx data = .ok ctx' ∧ Took (m ++ data) ctx' := by
  have hcounts := counts_count h.counts hlen
  rw [← List.length_append] at hcounts
  have hused := used_eq h.counts
  have hrest := h.buffer
  have hrlen := length_rest 64 m
  have hlt : m.length % 64 < 64 := Nat.mod_lt _ (by decide)
  rw [update]
  dsimp only
  rw [hused]
  by_cases h0 : m.length % 64 = 0
  · -- nothing is left from before
    obtain ⟨b, hb, htake⟩ := updateBlocks_eq
      { ctx with lo := (count ctx.lo ctx.hi (UInt64.ofNat data.length)).1,
                 hi := (count ctx.lo ctx.hi (UInt64.ofNat data.length)).2 } data
    have hnil : rest 64 m = [] := List.eq_nil_of_length_eq_zero (hrlen.trans h0)
    rw [if_neg (not_not_intro h0), hb]
    refine ⟨_, rfl, hcounts, ?_, ?_⟩
    · show feed 64 block ctx.regs data = _
      rw [h.regs, feed_append (by decide), hnil, List.nil_append]
    · have hmod : (m ++ data).length % 64 = data.length % 64 := by
        rw [List.length_append]
        omega
      rw [rest_append (by decide), hnil, List.nil_append, hmod]
      exact htake
  rw [if_pos h0]
  by_cases hfit : data.length < 64 - m.length % 64
  · -- the block is not yet full
    have hfits : m.length % 64 + data.length ≤ 64 := by omega
    obtain ⟨b, hb, htake⟩ := ctx.buffer.memcpy_ok hfits
    have hshort : (rest 64 m ++ data).length < 64 := by
      rw [List.length_append, hrlen]
      omega
    rw [if_pos hfit, hb]
    refine ⟨_, rfl, hcounts, ?_, ?_⟩
    · show ctx.regs = _
      rw [h.regs, feed_append (by decide), feed_of_lt hshort]
    · have hmod : (m ++ data).length % 64 = m.length % 64 + data.length := by
        rw [List.length_append]
        omega
      show b.bytes.take _ = _
      rw [rest_append (by decide), rest_of_lt hshort, hmod, htake, hrest]
  · -- the block is filled up
    have hfits : m.length % 64 + (data.take (64 - m.length % 64)).length ≤ 64 := by
      rw [List.length_take]
      omega
    have hfull : m.length % 64 + (data.take (64 - m.length % 64)).length = 64 := by
      rw [List.length_take]
      omega
    obtain ⟨b, hb, htake⟩ := ctx.buffer.memcpy_ok hfits
    rw [hfull, hrest, List.take_of_length_le b.length_eq.le] at htake
    have hsplit : rest 64 m ++ data = b.bytes ++ data.drop (64 - m.length % 64) := by
      rw [htake, List.append_assoc, List.take_append_drop]
    rw [if_neg hfit, hb, ok_bind, body_buffer, ok_bind]
    obtain ⟨b', hb', htake'⟩ := updateBlocks_eq
      { lo := (count ctx.lo ctx.hi (UInt64.ofNat data.length)).1,
        hi := (count ctx.lo ctx.hi (UInt64.ofNat data.length)).2,
        regs := block ctx.regs b.bytes, buffer := b } (data.drop (64 - m.length % 64))
    refine ⟨_, hb', hcounts, ?_, ?_⟩
    · show feed 64 block (block ctx.regs b.bytes) _ = _
      rw [h.regs, feed_append (by decide), hsplit, feed_block (by decide) b.length_eq]
    · have hmod : (m ++ data).length % 64 = (data.drop (64 - m.length % 64)).length % 64 := by
        rw [List.length_append, List.length_drop]
        omega
      rw [rest_append (by decide), hsplit, rest_block (by decide) b.length_eq, hmod]
      exact htake'

/-! ## The end -/

theorem out_counters {lo hi : UInt32} {n : Nat} (h : Counts lo hi n) :
    out (lo <<< 3) ++ out hi = toLE 8 (8 * n) := by
  have hlo : (lo <<< 3).toNat = 8 * n % 256 ^ 4 := by
    rw [UInt32.toNat_shiftLeft]
    show lo.toNat <<< 3 % 2 ^ 32 = _
    rw [Nat.shiftLeft_eq, h.lo]
    omega
  have hhi : hi.toNat = 8 * n / 256 ^ 4 % 256 ^ 4 := by
    rw [h.hi]
    omega
  rw [out, out, hlo, hhi, toLE_mod, toLE_mod, ← toLE_add]

/-- The last block, of which the first bytes are there. -/
theorem finalBlock_eq {ctx : Md5Ctx} {n used : Nat} {front : List UInt8} (h : Counts ctx.lo ctx.hi n)
    (hfront : ctx.buffer.bytes.take used = front) (hused : used ≤ 56) :
    finalBlock ctx used =
      .ok (digest (block ctx.regs (front ++ (List.replicate (56 - used) 0 ++ toLE 8 (8 * n))))) := by
  have hzeros : used + (List.replicate (64 - used - 8) (0 : UInt8)).length = 56 := by
    rw [List.length_replicate]
    omega
  obtain ⟨b₁, hb₁, ht₁⟩ := ctx.buffer.memcpy_ok (hzeros.trans_le (by decide))
  rw [hzeros, hfront] at ht₁
  have hl₂ : 56 + (out (ctx.lo <<< 3)).length = 60 := by simp [out]
  have hl₃ : 60 + (out ctx.hi).length = 64 := by simp [out]
  obtain ⟨b₂, hb₂, ht₂⟩ := b₁.memcpy_ok (hl₂.trans_le (by decide))
  obtain ⟨b₃, hb₃, ht₃⟩ := b₂.memcpy_ok hl₃.le
  rw [hl₂, ht₁] at ht₂
  rw [hl₃, ht₂, List.take_of_length_le b₃.length_eq.le] at ht₃
  have hbytes : b₃.bytes = front ++ (List.replicate (56 - used) 0 ++ toLE 8 (8 * n)) := by
    rw [ht₃, ← out_counters h]
    simp [Nat.sub_sub]
  rw [finalBlock]
  dsimp only
  rw [hb₁, ok_bind, hb₂, ok_bind, hb₃, ok_bind, body_buffer, ok_bind, hbytes]
  rfl

theorem final_eq {m : List UInt8} {ctx : Md5Ctx} (h : Took m ctx) :
    final ctx = .ok (digest (feed 64 block initRegs (Md5Rfc.pad m))) := by
  have hused := used_eq h.counts
  have hlt : m.length % 64 < 64 := Nat.mod_lt _ (by decide)
  have hrlen := length_rest 64 m
  have hmark : m.length % 64 + [(0x80 : UInt8)].length ≤ 64 := by
    rw [List.length_singleton]
    omega
  obtain ⟨b, hb, htake⟩ := ctx.buffer.memcpy_ok hmark
  rw [h.buffer, List.length_singleton] at htake
  rw [Md5Rfc.pad_eq, feed_append (by decide), ← h.regs, final]
  dsimp only
  rw [hused, hb, ok_bind]
  by_cases hroom : 64 - (m.length % 64 + 1) < 8
  · -- the length does not fit any more
    have hfits : m.length % 64 + 1 + (List.replicate (64 - (m.length % 64 + 1)) (0 : UInt8)).length = 64 := by
      rw [List.length_replicate]
      omega
    obtain ⟨b', hb', htake'⟩ := b.memcpy_ok hfits.le
    rw [hfits, htake, List.take_of_length_le b'.length_eq.le] at htake'
    have hsplit : rest 64 m ++ 0x80 :: (List.replicate ((119 - m.length % 64) % 64) 0 ++
        toLE 8 (8 * m.length)) = b'.bytes ++ ([] ++ (List.replicate 56 0 ++ toLE 8 (8 * m.length))) := by
      have hz : (119 - m.length % 64) % 64 = (64 - (m.length % 64 + 1)) + 56 := by omega
      rw [htake', hz, List.replicate_add]
      simp
    have hlast : ([] ++ (List.replicate 56 (0 : UInt8) ++ toLE 8 (8 * m.length))).length = 64 := by simp
    rw [if_pos hroom, hb', ok_bind, body_buffer, ok_bind, hsplit, feed_block (by decide) b'.length_eq,
      feed_one (by decide) hlast]
    exact finalBlock_eq h.counts (List.take_zero) (by decide)
  · have hz : (119 - m.length % 64) % 64 = 56 - (m.length % 64 + 1) := by omega
    have hone : (rest 64 m ++ 0x80 :: (List.replicate (56 - (m.length % 64 + 1)) 0 ++
        toLE 8 (8 * m.length))).length = 64 := by
      simp [hrlen]
      omega
    have hcounts : Counts { ctx with buffer := b }.lo { ctx with buffer := b }.hi m.length := h.counts
    rw [if_neg hroom, hz, feed_one (by decide) hone, finalBlock_eq hcounts htake (by omega)]
    simp

theorem foldlM_took {m : List UInt8} {ctx : Md5Ctx} {pieces : List (List UInt8)} (h : Took m ctx)
    (hlen : ∀ p ∈ pieces, p.length < 2 ^ 64) :
    ∃ ctx', pieces.foldlM update ctx = .ok ctx' ∧ Took (m ++ pieces.flatten) ctx' := by
  induction pieces generalizing m ctx with
  | nil =>
    refine ⟨ctx, rfl, ?_⟩
    rw [List.flatten_nil, List.append_nil]
    exact h
  | cons p pieces ih =>
    obtain ⟨ctx₁, h₁, htook₁⟩ := update_took h (hlen p List.mem_cons_self)
    obtain ⟨ctx', h', htook'⟩ := ih htook₁ fun q hq => hlen q (List.mem_cons_of_mem _ hq)
    refine ⟨ctx', ?_, ?_⟩
    · rw [List.foldlM_cons, h₁, ok_bind, h']
    · rw [List.flatten_cons, ← List.append_assoc]
      exact htook'

/-- In whatever pieces a message comes, the digest is that of RFC 1321, and nothing outside the buffer
    is touched. -/
theorem digest_of_pieces (buffer : Buf 64) (pieces : List (List UInt8))
    (hlen : ∀ p ∈ pieces, p.length < 2 ^ 64) :
    (do let ctx ← pieces.foldlM update (init buffer)
        final ctx) = .ok (Md5Rfc.md5 pieces.flatten) := by
  obtain ⟨ctx, hctx, h⟩ := foldlM_took (took_init buffer) hlen
  rw [hctx, ok_bind, final_eq h, block_eq, initRegs_eq, digest_eq]
  rfl

/-- "message digest", one of the test strings of the RFC. -/
example : (Md5Rfc.md5 [109, 101, 115, 115, 97, 103, 101, 32, 100, 105, 103, 101, 115, 116]).bytes =
    [0xf9, 0x6b, 0x69, 0x7d, 0x7c, 0xb7, 0x93, 0x8d, 0x52, 0x5a, 0x2f, 0x31, 0xaa, 0xf1, 0x61, 0xd0] := by
  decide +kernel

/-- A key of 70 bytes and one byte more. -/
theorem digest_of_key_and_byte :
    (do let ctx ← [List.replicate 70 107, [42]].foldlM update (init (Buf.zeros 64))
        final ctx) = .ok (Md5Rfc.md5 (List.replicate 70 107 ++ [42])) := by
  have h := digest_of_pieces (Buf.zeros 64) [List.replicate 70 107, [42]] (by simp)
  rw [h]
  rfl

end Md5

/-- The hash of a packet is that of `hashOf`, with this MD5. -/
theorem md5Hash_eq (buffer : Buf 64) {key data : List UInt8} (hkey : key.length < 2 ^ 64)
    (hdata : data ≠ []) : md5Hash buffer key data = .ok (hashOf Md5Rfc.md5 key data) := by
  have hone : (data.take 1).length < 2 ^ 64 := by
    rw [List.length_take]
    omega
  obtain ⟨ctx, hctx, h⟩ := Md5.update_took (Md5.took_init buffer) hkey
  obtain ⟨ctx', hctx', h'⟩ := Md5.update_took h hone
  have hlen : ∀ b : Buf md5Len, (b.bytes.drop (md5Len - hashBufSize)).length = hashBufSize := by
    intro b
    rw [List.length_drop, b.length_eq]
    rfl
  rw [md5Hash, cassert_pos (List.length_pos_iff.mpr hdata), ok_bind, hctx, ok_bind, hctx', ok_bind,
    Md5.final_eq h', Md5.block_eq, Md5.initRegs_eq, Md5.digest_eq, ok_bind]
  show Except.ok _ = _
  rw [List.take_of_length_le (hlen _).le]
  rfl

end Rsock
