import Mathlib.Data.Prod.Lex
import Rsock.EncHead
import Rsock.Lib.StdMap

/-!
# Connection infos and keys

`ConnInfo` and `TcpInfo` (bean/), the comparator `TcpCmpFn` that orders `TcpInfo`s by their 4-tuple,
and `KeyGenerator` (src/util/), which packs the transport and the two ports into the integer key of
a net conn.
-/

namespace Rsock

open CMem

/-- `struct ConnInfo`. The addresses are in network byte order, the ports in host byte order. -/
structure ConnInfo where
  src : UInt32 := 0
  dst : UInt32 := 0
  sp : UInt16 := 0
  dp : UInt16 := 0
  /-- The header of the packet the info belongs to. -/
  head : Option EncHead := none
  deriving DecidableEq

/-- `struct TcpInfo`: a `ConnInfo` with the numbers and the flags of a segment. -/
structure TcpInfo extends ConnInfo where
  seq : UInt32 := 0
  ack : UInt32 := 0
  flag : UInt8 := thAck
  deriving DecidableEq

/-- What a `ConnInfo *` points to. -/
inductive Info where
  /-- A plain `ConnInfo`: `IsUdp()` is true. -/
  | udp (info : ConnInfo)
  /-- A `TcpInfo`: `IsUdp()` is false. -/
  | tcp (info : TcpInfo)
  deriving DecidableEq

namespace Info

def isUdp : Info → Bool
  | udp _ => true
  | tcp _ => false

/-- The part of the info that TCP and UDP share. -/
def base : Info → ConnInfo
  | udp i => i
  | tcp i => i.toConnInfo

/-- The info with the header of a packet. -/
def setHead (hd : EncHead) : Info → Info
  | udp i => udp { i with head := some hd }
  | tcp i => tcp { i with head := some hd }

end Info

/-! ## Encoding

The `sizeof` checks use the sizes of an LP64 host; every caller passes a packet-sized buffer. -/

def sizeofConnInfo : Nat := 32

def sizeofTcpInfo : Nat := 48

namespace ConnInfo

/-- The four addresses and ports. -/
def tuple (i : ConnInfo) : UInt32 × UInt16 × UInt32 × UInt16 := (i.src, i.sp, i.dst, i.dp)

/-- `ConnInfo::Reverse`: the same conn as the other end sees it. -/
def reverse (i : ConnInfo) : ConnInfo :=
  { i with src := i.dst, dst := i.src, sp := i.dp, dp := i.sp }

/-- `ConnInfo::Encode`. The result is null if `len` bytes are too few. -/
def encode {n : Nat} (i : ConnInfo) (o : ByteOrder) (buf : Cursor n) (len : Int) :
    Except Fault (Option (Cursor n)) :=
  if sizeT len < sizeofConnInfo then return none
  else do
    let p ← encodeUint32 o i.src buf
    let p ← encodeUint32 o i.dst p
    let p ← encodeUint16 o i.sp p
    let p ← encodeUint16 o i.dp p
    return some p

/-- `ConnInfo::Decode` -/
def decode (i : ConnInfo) (o : ByteOrder) (buf : List UInt8) (len : Int) :
    Except Fault (ConnInfo × Option (List UInt8)) :=
  if sizeT len < 4 + 4 + 2 + 2 then return (i, none)
  else do
    let (src, p) ← decodeUint32 o buf
    let (dst, p) ← decodeUint32 o p
    let (sp, p) ← decodeUint16 o p
    let (dp, p) ← decodeUint16 o p
    return ({ i with src := src, dst := dst, sp := sp, dp := dp }, some p)

end ConnInfo

namespace TcpInfo

def ofConnInfo (i : ConnInfo) : TcpInfo := { toConnInfo := i }

/-- `TcpInfo::UpdateAck` -/
def updateAck (i : TcpInfo) (ack : UInt32) : TcpInfo := { i with ack := ack }

/-- `TcpInfo::UpdateSeq` -/
def updateSeq (i : TcpInfo) (seq : UInt32) : TcpInfo := { i with seq := seq }

/-- `TcpInfo::Reverse`: the info as the other end sees it. -/
def reverse (i : TcpInfo) : TcpInfo :=
  { i with toConnInfo := i.toConnInfo.reverse, seq := i.ack, ack := i.seq }

/-- `TcpInfo::HasCloseFlag`: a FIN or a RST. -/
def hasCloseFlag (i : TcpInfo) : Bool := i.flag &&& (thFin ||| thRst) != 0

/-- `TcpInfo::Encode` -/
def encode {n : Nat} (i : TcpInfo) (o : ByteOrder) (buf : Cursor n) (len : Int) :
    Except Fault (Option (Cursor n)) :=
  if sizeT len < sizeofTcpInfo then return none
  else do
    match ← i.toConnInfo.encode o buf len with
    | none => return none
    | some p =>
      let p ← encodeUint32 o i.seq p
      let p ← encodeUint32 o i.ack p
      let p ← encodeUint8 i.flag p
      return some p

/-- `TcpInfo::Decode`. The second check compares the bytes already read, not those that are
    left. -/
def decode (i : TcpInfo) (o : ByteOrder) (buf : List UInt8) (len : Int) :
    Except Fault (TcpInfo × Option (List UInt8)) := do
  let (c, q) ← i.toConnInfo.decode o buf len
  let i := { i with toConnInfo := c }
  match q with
  | none => return (i, none)
  | some p =>
    if buf.length - p.length < 4 + 4 + 1 then return (i, none)
    else
      let (seq, p) ← decodeUint32 o p
      let (ack, p) ← decodeUint32 o p
      let (flag, p) ← decodeUint8 p
      return ({ i with seq := seq, ack := ack, flag := flag }, some p)

end TcpInfo

/-! ## `TcpCmpFn` -/

namespace TcpCmpFn

/-- The loop of `TcpCmpFn::operator()` over the pairs still to be compared. -/
def cmpLoop : List (UInt32 × UInt32) → Bool
  | [] => false
  | e :: l => if e.1 < e.2 then true else if e.1 > e.2 then false else cmpLoop l

/-- `TcpCmpFn::operator()` -/
def cmp (info1 info2 : TcpInfo) : Bool :=
  cmpLoop [(info1.src, info2.src), (info1.sp.toUInt32, info2.sp.toUInt32),
    (info1.dst, info2.dst), (info1.dp.toUInt32, info2.dp.toUInt32)]

/-- `TcpCmpFn::equals` -/
def equals (info1 info2 : TcpInfo) : Bool :=
  info1.src == info2.src && info1.sp == info2.sp && info1.dst == info2.dst && info1.dp == info2.dp

/-- The order of a `std::map` with `TcpCmpFn`. -/
def Lt (info1 info2 : TcpInfo) : Prop := cmp info1 info2 = true

instance : DecidableRel Lt := fun a b => inferInstanceAs (Decidable (cmp a b = true))

/-- What the comparator compares: the 4-tuple, in lexicographic order. -/
def rank (i : TcpInfo) : ℕ ×ₗ ℕ ×ₗ ℕ ×ₗ ℕ :=
  toLex (i.src.toNat, toLex (i.sp.toNat, toLex (i.dst.toNat, i.dp.toNat)))

theorem cmpLoop_nil : cmpLoop [] = false := rfl

/-- The first pair that differs decides. -/
theorem cmpLoop_cons (e : UInt32 × UInt32) (l : List (UInt32 × UInt32)) :
    cmpLoop (e :: l) = true ↔
      e.1.toNat < e.2.toNat ∨ e.1.toNat = e.2.toNat ∧ cmpLoop l = true := by
  rw [cmpLoop]
  simp only [GT.gt, UInt32.lt_iff_toNat_lt]
  rcases lt_trichotomy e.1.toNat e.2.toNat with hlt | heq | hgt
  · simp [hlt]
  · simp [heq]
  · simp [hgt, hgt.not_gt, hgt.ne']

theorem lt_iff_rank (a b : TcpInfo) : Lt a b ↔ rank a < rank b := by
  simp only [Lt, cmp, cmpLoop_cons, cmpLoop_nil, rank, Prod.Lex.toLex_lt_toLex,
    UInt16.toNat_toUInt32, Bool.false_eq_true, and_false, or_false]

instance : IsStrictWeakOrder TcpInfo Lt := StdMap.isStrictWeakOrder_of_rank lt_iff_rank

/-- The infos a map treats as one key are those with the same 4-tuple. -/
theorem same_iff {a b : TcpInfo} : StdMap.Same Lt a b ↔ a.tuple = b.tuple := by
  rw [StdMap.same_iff_rank_eq lt_iff_rank]
  simp [rank, ConnInfo.tuple, Prod.ext_iff, UInt32.toNat_inj, UInt16.toNat_inj]

end TcpCmpFn

/-! ## `KeyGenerator` -/

namespace KeyGenerator

def typeTcp : UInt64 := 0x10000000

def typeUdp : UInt64 := 0x20000000

/-- The key built from a type constant and the two ports. -/
def portKey (type : UInt64) (sp dp : UInt16) : IntKeyType :=
  type ||| ((dp.toUInt64 <<< 16) ||| sp.toUInt64)

/-- `KeyGenerator::KeyForTcp` -/
def keyForTcp (info : TcpInfo) : Except Fault IntKeyType := do
  cassert (info.sp ≠ 0 ∧ info.dp ≠ 0)
  return portKey typeTcp info.sp info.dp

/-- `KeyGenerator::KeyForUdp`, which asserts that the destination has no port. -/
def keyForUdp (info : ConnInfo) : Except Fault IntKeyType := do
  cassert (info.sp ≠ 0 ∧ info.dp ≠ 0)
  return portKey typeUdp info.sp info.dp

/-- `KeyGenerator::KeyForConnInfo` -/
def keyForConnInfo : Info → Except Fault IntKeyType
  | .tcp info => keyForTcp (TcpInfo.ofConnInfo info.toConnInfo)
  | .udp info => keyForUdp info

/-- `KeyGenerator::StrForIntKey` -/
def strForIntKey (key : IntKeyType) : String := Nat.repr key.toNat

end KeyGenerator

end Rsock
