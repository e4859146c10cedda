import Rsock.EncHead
import Rsock.IGroup

/-!
# Conversations and their resets

A child conn of an app group stands for one conversation, a number both ends use (`EncHead::Conv`). When
a packet of an unknown conversation comes in, the receiver tells the sender to give it up
(callbacks/ConnReset.cpp). The reset is looked up by the key `BuildConvKey` makes of the peer's
address and the number.
-/

namespace Rsock

open CMem

/-- A `std::string`, by its bytes. -/
def stdString (bs : List UInt8) : String := String.ofList (bs.map fun b => Char.ofNat b.toNat)

/-- `IdBuf2Str` -/
def idBuf2Str (id : IdBufType) : String := stdString id.bytes

/-- `InAddr2Ip`: the bytes of an address in network order, the first one lowest. -/
def inAddr2Ip (iaddr : UInt32) : String :=
  let byte (i : UInt32) : String := Nat.repr ((iaddr >>> (8 * i)) &&& 0xff).toNat
  byte 0 ++ "." ++ byte 1 ++ "." ++ byte 2 ++ "." ++ byte 3

/-- `KeyGenerator::BuildConvKey` -/
def KeyGenerator.buildConvKey (dst conv : UInt32) : String :=
  "conv:" ++ inAddr2Ip dst ++ ":" ++ Nat.repr conv.toNat

namespace ConnReset

variable {σ β : Type}

/-- `ConnReset::OnRecvConvRst` for a group with the conns `conns s`, whose `CloseConn` is given. -/
def onRecvConvRst (conns : σ → IGroup (IConn β)) (closeConn : σ → Ptr → Except Fault σ) (s : σ)
    (src : ConnInfo) (rstConv : UInt32) : Except Fault (σ × Int) :=
  match (conns s).connOfKey (KeyGenerator.buildConvKey src.dst rstConv) with
  | some p => do
    let s ← closeConn s p
    return (s, 0)
  | none => return (s, -1)

/-- `ConnReset::Input` of a `TYPE_CONV_RST`. -/
def inputConvRst (conns : σ → IGroup (IConn β)) (closeConn : σ → Ptr → Except Fault σ) (s : σ)
    (o : ByteOrder) (info : ConnInfo) (payload : List UInt8) : Except Fault (σ × Int) :=
  if payload.length ≥ 4 then do
    let (conv, _) ← decodeUint32 o payload
    onRecvConvRst conns closeConn s info conv
  else return (s, -1)

end ConnReset

end Rsock
