import Rsock.Comm

/-!
# The packet header and the packet hash

`EncHead` (bean/EncHead.cpp) is the header every rsock packet carries between its hash and its
payload; `compute_hash` and `hash_equal` (util/rhash.cpp) are the hash, taken over the hash key and
the first payload byte only. MD5 is a parameter.
-/

namespace Rsock

open CMem

abbrev IdBufType := Buf idBufSize

namespace KeyGenerator

variable {n : Nat}

/-- `KeyGenerator::EncodeKey` -/
def encodeKey (o : ByteOrder) (p : Cursor n) (key : IntKeyType) : Except Fault (Cursor n) :=
  encodeUint64 o key p

/-- `KeyGenerator::DecodeKey` -/
def decodeKey (o : ByteOrder) (p : List UInt8) : Except Fault (IntKeyType × List UInt8) :=
  decodeUint64 o p

end KeyGenerator

namespace EncHead

/-- `EncHead::GetMinEncSize`: len, cmd, id, conv, connKey, reserved. -/
def getMinEncSize : UInt8 := 1 + 1 + 8 + 4 + 8 + 1

def typeData : UInt8 := 0

def typeConvRst : UInt8 := 1

def typeNetconnRst : UInt8 := 2

def typeKeepAliveReq : UInt8 := 3

def typeKeepAliveResp : UInt8 := 4

end EncHead

/-- `struct EncHead`, the header of every packet. -/
structure EncHead where
  len : UInt8 := EncHead.getMinEncSize
  mCmd : UInt8 := EncHead.typeData
  mIdBuf : IdBufType := Buf.zeros idBufSize
  mConv : UInt32 := 0
  mConnKey : IntKeyType := 0
  resereved : UInt8 := 0
  deriving DecidableEq

namespace EncHead

variable {n : Nat}

/-- `EncHead::GetSize` -/
def getSize (_e : EncHead) : UInt8 := getMinEncSize

/-- `EncHead::SetCmd` -/
def setCmd (e : EncHead) (cmd : UInt8) : EncHead := { e with mCmd := cmd }

/-- `EncHead::SetConnKey` -/
def setConnKey (e : EncHead) (key : IntKeyType) : EncHead := { e with mConnKey := key }

/-- `EncHead::Enc2Buf`: the head (its `len` is set) and the pointer behind the written bytes, or
    null when `buf_len` is too small. -/
def enc2Buf (e : EncHead) (o : ByteOrder) (p : Cursor n) (bufLen : Int) :
    Except Fault (EncHead × Option (Cursor n)) :=
  if (e.getSize.toNat : Int) ≤ bufLen then do
    let old := p
    let e := { e with len := e.getSize }
    let p ← encodeUint8 e.len p
    let p ← encodeUint8 e.mCmd p
    let p ← p.write e.mIdBuf.bytes
    let p ← encodeUint32 o e.mConv p
    let p ← KeyGenerator.encodeKey o p e.mConnKey
    let p ← encodeUint8 e.resereved p
    return (e, some ⟨p.buf, old.pos + e.len.toNat⟩)
  else return (e, none)

/-- `EncHead::DecodeBuf`: the head read from `p`, and the pointer its own `len` field gives, or
    null. -/
def decodeBuf (e : EncHead) (o : ByteOrder) (p : List UInt8) (bufLen : Int) :
    Except Fault (EncHead × Option (List UInt8)) :=
  if (getMinEncSize.toNat : Int) ≤ bufLen then do
    let old := p
    let (len, p) ← decodeUint8 p
    let e := { e with len := len }
    if (e.len.toNat : Int) > bufLen then return (e, none)
    else
      let (cmd, p) ← decodeUint8 p
      let (id, p) ← readBytes idBufSize p
      let idBuf ← e.mIdBuf.memcpy 0 id
      let (conv, p) ← decodeUint32 o p
      let (key, p) ← KeyGenerator.decodeKey o p
      let (reserved, _) ← decodeUint8 p
      return ({ e with mCmd := cmd, mIdBuf := idBuf, mConv := conv, mConnKey := key,
                       resereved := reserved }, some (old.drop e.len.toNat))
  else return (e, none)

end EncHead

/-! ## The hash -/

/-- An MD5 function. -/
abbrev Md5 := List UInt8 → Buf md5Len

/-- The `HASH_BUF_SIZE` last bytes of the digest of the key and the first byte of `data`. -/
def hashOf (md5 : Md5) (key data : List UInt8) : List UInt8 :=
  (md5 (key ++ data.take 1)).bytes.drop (md5Len - hashBufSize)

/-- `compute_hash`: writes the hash at the pointer and moves it behind. -/
def computeHash {n : Nat} (md5 : Md5) (hash : Cursor n) (key data : List UInt8) :
    Except Fault (Cursor n) := do
  cassert (0 < data.length)
  hash.write (hashOf md5 key data)

/-- `hash_equal`: the bytes at `hashed_buf` are the hash of `data`. -/
def hashEqual (md5 : Md5) (hashedBuf key data : List UInt8) : Bool :=
  if data.length = 0 then false
  else hashedBuf.take hashBufSize == hashOf md5 key data

end Rsock
