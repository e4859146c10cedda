import Rsock.Lib.Memory

/-!
# Constants and wire integers

The constants of `rscomm.h`, `rstype.h` and `cap_headers.h`, and the integer codec of `enc.c`.

`enc.c` writes every integer least significant byte first. On a little-endian host that is a plain
store; on a big-endian host `big_endian_to_little_n` is called with the size in bytes although it
counts in bits, so it either trips its own assertion or writes one byte (`encodeUint`).
-/

namespace Rsock

open CMem

/-- `OM_MAX_PKT_SIZE` -/
@[simp] def omMaxPktSize : Nat := 1500

/-- `RSOCK_UV_MAX_BUF` -/
@[simp] def rsockUvMaxBuf : Nat := 65536

@[simp] def md5Len : Nat := 16

/-- `HASH_BUF_SIZE`, the bytes of a packet's hash. -/
@[simp] def hashBufSize : Nat := 8

/-- `ID_BUF_SIZE`, the bytes of a client's id. -/
@[simp] def idBufSize : Nat := 8

/-- The type of the keys of the net conns. -/
abbrev IntKeyType := UInt64

def thFin : UInt8 := 0x01

def thSyn : UInt8 := 0x02

def thRst : UInt8 := 0x04

def thAck : UInt8 := 0x10

/-- The conversion of an `int` to `size_t`. -/
def sizeT (i : Int) : Nat := (i % 2 ^ 64).toNat

theorem sizeT_natCast {i : Nat} (h : i < 2 ^ 64) : sizeT i = i := by
  unfold sizeT
  omega

variable {n : Nat}

/-- `is_little_endian`: the second byte of the `int16_t` 0x100 is 1. -/
def isLittleEndian (o : ByteOrder) : Bool := (o.store 2 0x100)[1]? == some 1

/-- `big_endian_to_little_n`. The loop runs `size / 8` times, the returned pointer is `p + size`. -/
def bigEndianToLittleN (i : Nat) (p : Cursor n) (size : Nat) : Except Fault (Cursor n) := do
  cassert (size % 8 = 0)
  cassert (size ≤ 8)
  let buf ← p.buf.memcpy p.pos (toLE (size / 8) i)
  return ⟨buf, p.pos + size⟩

/-- The common body of `encode_uint16`, `encode_uint32` and `encode_uint64`, for a `w`-byte
    integer. -/
def encodeUint (o : ByteOrder) (w i : Nat) (p : Cursor n) : Except Fault (Cursor n) :=
  if isLittleEndian o then p.write (o.store w i)
  else do
    let q ← bigEndianToLittleN i p w
    return ⟨q.buf, p.pos + w⟩

def encodeUint64 (o : ByteOrder) (i : UInt64) (p : Cursor n) : Except Fault (Cursor n) :=
  encodeUint o 8 i.toNat p

/-- `encode_uint32` -/
def encodeUint32 (o : ByteOrder) (i : UInt32) (p : Cursor n) : Except Fault (Cursor n) :=
  encodeUint o 4 i.toNat p

def encodeUint16 (o : ByteOrder) (i : UInt16) (p : Cursor n) : Except Fault (Cursor n) :=
  encodeUint o 2 i.toNat p

def encodeUint8 (i : UInt8) (p : Cursor n) : Except Fault (Cursor n) := p.write [i]

/-- The common body of `decode_uint16`, `decode_uint32` and `decode_uint64`: on a big-endian host
    the bytes are copied into the integer in reverse. -/
def decodeUint (o : ByteOrder) (w : Nat) (p : List UInt8) : Except Fault (Nat × List UInt8) := do
  let (bs, p) ← readBytes w p
  return (if isLittleEndian o then o.load bs else o.load bs.reverse, p)

def decodeUint64 (o : ByteOrder) (p : List UInt8) : Except Fault (UInt64 × List UInt8) := do
  let (i, p) ← decodeUint o 8 p
  return (UInt64.ofNat i, p)

/-- `decode_uint32`, with what is left of the buffer. -/
def decodeUint32 (o : ByteOrder) (p : List UInt8) : Except Fault (UInt32 × List UInt8) := do
  let (i, p) ← decodeUint o 4 p
  return (UInt32.ofNat i, p)

def decodeUint16 (o : ByteOrder) (p : List UInt8) : Except Fault (UInt16 × List UInt8) := do
  let (i, p) ← decodeUint o 2 p
  return (UInt16.ofNat i, p)

def decodeUint8 (p : List UInt8) : Except Fault (UInt8 × List UInt8) := do
  let (bs, p) ← readBytes 1 p
  return (bs.headD 0, p)

end Rsock
