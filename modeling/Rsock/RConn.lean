import Mathlib.Data.String.Basic
import Rsock.RawTcp

/-!
# `RConn`: building and taking apart packets

`RConn` (conn/RConn.cpp) puts hash and header in front of a payload on the way out and checks and
removes them on the way in. Below it are the raw TCP connection and one `BtmUdpConn` for every
bound UDP socket, kept under the decimal text of their key.
-/

namespace Rsock

open CMem

/-- The order of a `std::map` with string keys. -/
instance isStrictWeakOrder_string : IsStrictWeakOrder String (· < ·) :=
  StdMap.isStrictWeakOrder_of_rank (f := id) fun _ _ => Iff.rfl

theorem same_string {a b : String} : StdMap.Same (· < ·) a b ↔ a = b :=
  StdMap.same_iff_rank_eq (f := id) fun _ _ => Iff.rfl

/-- `class BtmUdpConn` -/
structure BtmUdpConn where
  mKey : String
  mUdp : Nat
  mInfo : ConnInfo
  deriving DecidableEq

/-- `class RConn` -/
structure RConn where
  mHashKey : List UInt8
  mRawTcp : RawTcp := {}
  mConns : StdMap String BtmUdpConn (· < ·) := StdMap.empty

namespace RConn

def headSize : Nat := EncHead.getMinEncSize.toNat + hashBufSize

/-- The packet `Output` assembles on its stack: null when it is longer than a packet may be. -/
def buildPacket (md5 : Md5) (o : ByteOrder) (hashKey : List UInt8) (head : EncHead)
    (payload : List UInt8) : Except Fault (Option (List UInt8)) :=
  if hashBufSize + head.getSize.toNat + payload.length > omMaxPktSize then return none
  else do
    let p ← computeHash md5 (Cursor.start omMaxPktSize) hashKey payload
    let (_, q) ← head.enc2Buf o p ((omMaxPktSize : Int) - p.pos)
    match q with
    | none => .error .assertFailed
    | some p =>
      let p ← p.write payload
      return some p.written

/-- Where `RConn::Output` hands a packet to. -/
inductive OutAct where
  | ret (n : Int)
  /-- It returns `conn->Send(buf.len, buf)` of a bottom UDP connection. -/
  | udpSend (conn : BtmUdpConn) (info : ConnInfo) (buf : List UInt8)
  /-- It returns `mRawTcp->Send(buf.len, buf)`. -/
  | rawSend (info : TcpInfo) (buf : List UInt8)
  deriving DecidableEq

/-- The bytes handed to the connection below. -/
def OutAct.packet? : OutAct → Option (List UInt8)
  | .ret _ => none
  | .udpSend _ _ buf => some buf
  | .rawSend _ buf => some buf

/-- `RConn::Output` for the info `rbuf.data` points to. With an empty payload `SendReset` does
    nothing for either transport and returns 0. -/
def output (c : RConn) (md5 : Md5) (o : ByteOrder) (info : Info) (payload : List UInt8) :
    Except Fault OutAct :=
  if 0 < payload.length then
    match info.base.head with
    | none => .error .outOfBounds
    | some head => do
      match ← buildPacket md5 o c.mHashKey head payload with
      | none => return .ret (-1)
      | some buf =>
        match info with
        | .tcp i => return .rawSend i buf
        | .udp i =>
          let key := KeyGenerator.strForIntKey (← KeyGenerator.keyForConnInfo info)
          match c.mConns.get? key with
          | some conn => return .udpSend conn i buf
          | none => return .ret payload.length
  else return .ret 0

/-- What `RConn::OnRecv` does with a packet. -/
inductive RecvAct where
  | drop
  /-- It returns `IGroup::OnRecv(buf.len, buf)` with the payload and the info with its header. -/
  | deliver (info : Info) (head : EncHead) (payload : List UInt8)
  /-- It reports the closed connection and returns 0. -/
  | notifyTcpFinOrRst (info : TcpInfo)
  deriving DecidableEq

/-- `RConn::OnRecv`: a packet with the right hash and a header is handed up. -/
def onRecv (c : RConn) (md5 : Md5) (o : ByteOrder) (info : Info) (rbuf : List UInt8) :
    Except Fault RecvAct :=
  if rbuf.length > headSize then do
    let (head, q) ← EncHead.decodeBuf {} o (rbuf.drop hashBufSize) ((rbuf.length : Int) - hashBufSize)
    match q with
    | none => return .drop
    | some p =>
      if hashEqual md5 rbuf c.mHashKey p then return .deliver (info.setHead head) head p
      else return .drop
  else
    match info with
    | .udp _ => return .drop
    | .tcp i => if i.hasCloseFlag then return .notifyTcpFinOrRst i else return .drop

end RConn

end Rsock
