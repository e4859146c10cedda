import Rsock.ConnReset

/-!
# The conversations of the client

`ClientGroup` (client/ClientGroup.cpp) takes datagrams from local programs, over UDP and over a Unix
socket, and has one `CConn` for each address they come from. `mConns` finds the conn by the text of the
address, `mConvMap` by the number of its conversation. `notes` records what can be observed.
-/

namespace Rsock

open CMem

/-- The order of `std::map<uint32_t, CConn *>`. -/
instance isStrictWeakOrder_conv : IsStrictWeakOrder UInt32 (· < ·) :=
  StdMap.isStrictWeakOrder_of_rank (f := UInt32.toNat) fun _ _ => UInt32.lt_iff_toNat_lt

/-- What a `sockaddr` of a local program holds. -/
inductive SockAddr where
  /-- `sin_addr.s_addr` and `ntohs(sin_port)` -/
  | inet (sAddr : UInt32) (port : UInt16)
  /-- `sun_path`, up to its end. -/
  | unix (sunPath : List UInt8)
  deriving DecidableEq

/-- The members of `class CConn`. -/
structure CConn where
  mAddr : SockAddr
  mConv : UInt32
  deriving DecidableEq

/-- `CConn::BuildKey` -/
def CConn.buildKey : SockAddr → String
  | .inet sAddr port =>
    let key : UInt64 := sAddr.toUInt64 <<< 32
    Nat.repr (key ||| port.toUInt64).toNat
  | .unix sunPath => stdString sunPath

/-- The address argument of a call of `sendto` or `uv_udp_send`. -/
inductive DestAddr where
  | sockaddr (addr : SockAddr)
  /-- The bytes of the pointer to the address, and what follows it on the stack. -/
  | pointer
  deriving DecidableEq

/-- What is noted of the conns: what they send, what they deliver, and when they are gone. -/
inductive ClientConns.Note where
  /-- `cconSend`: a datagram from the address is handed to the net group with the number. -/
  | sent (addr : SockAddr) (conv : UInt32) (payload : List UInt8)
  /-- `send2Origin` -/
  | delivered (dest : DestAddr) (payload : List UInt8)
  /-- `SendConvRst` -/
  | convRst (conv : UInt32)
  /-- A conn with the number is closed. -/
  | closed (conv : UInt32)
  deriving DecidableEq

/-- `class ClientGroup`, for its conns to local programs. -/
structure ClientConns extends IGroup (IConn CConn) where
  mConvCounter : UInt32 := 1
  mConvMap : StdMap UInt32 Ptr (· < ·) := StdMap.empty
  /-- What has happened, latest last. -/
  notes : List ClientConns.Note := []

namespace ClientConns

/-- Notes what an event did to the outside. -/
def note (s : ClientConns) (n : Note) : ClientConns := { s with notes := s.notes ++ [n] }

/-! ## Datagrams from local programs -/

/-- `ClientGroup::newConn` -/
def newConn (s : ClientConns) (key : String) (addr : SockAddr) (conv : UInt32) :
    ClientConns × Ptr :=
  let conn : IConn CConn := { mKey := key, obj := { mAddr := addr, mConv := conv } }
  let p := s.mHeap.cells.length
  ({ s with toIGroup := s.addConn IConn.ops conn, mConvMap := s.mConvMap.emplace conv p }, p)

/-- `conn->Send` of the conn at `p`, down to `cconSend`. The net group returns `n`. -/
def cconSend (s : ClientConns) (p : Ptr) (addr : SockAddr) (payload : List UInt8) (n : Int) :
    Except Fault ClientConns := do
  let conn ← s.mHeap.deref p
  let s := s.note (.sent addr conn.obj.mConv payload)
  return { s with mHeap := s.mHeap.store p (conn.send n) }

/-- `ClientGroup::onLocalRecv`: a datagram of the local program at `addr`. `n` is what `send` returns. -/
def onLocalRecv (s : ClientConns) (addr : SockAddr) (payload : List UInt8) (n : Int) :
    Except Fault ClientConns :=
  let key := CConn.buildKey addr
  match s.connOfKey key with
  | some p => s.cconSend p addr payload n
  | none =>
    let s := { s with mConvCounter := s.mConvCounter + 1 }
    let (s, p) := s.newConn key addr s.mConvCounter
    s.cconSend p addr payload n

/-- A datagram on the UDP socket. -/
def udpRecvCb (s : ClientConns) (sAddr : UInt32) (port : UInt16) (payload : List UInt8) (n : Int) :
    Except Fault ClientConns :=
  if 0 < payload.length then s.onLocalRecv (.inet sAddr port) payload n else return s

/-- A datagram on the Unix socket. That of a sender without a path is dropped. -/
def pollCb (s : ClientConns) (sunPath payload : List UInt8) (n : Int) :
    Except Fault ClientConns :=
  if sunPath.length = 0 then return s else s.onLocalRecv (.unix sunPath) payload n

/-! ## Packets from the server -/

/-- `ClientGroup::send2Origin` and `unSendOrigin`: what is passed on, and the result, where that of
    `sendto` is `n`. -/
def send2Origin (addr : SockAddr) (payload : List UInt8) (n : Int) : DestAddr × Int :=
  match addr with
  | .inet sAddr port => (.sockaddr (.inet sAddr port), payload.length)
  | .unix _ => (.pointer, n)

/-- `ClientGroup::OnRecv`. A conn that is found passes the payload to `subconnRecv`. -/
def onRecv (s : ClientConns) (conv : UInt32) (payload : List UInt8) (n : Int) :
    Except Fault ClientConns := do
  cassert (0 < payload.length)
  match s.mConvMap.get? conv with
  | some p =>
    let conn ← s.mHeap.deref p
    let (dest, n) := send2Origin conn.obj.mAddr payload n
    return { s with mHeap := s.mHeap.store p (conn.input n) }.note (.delivered dest payload)
  | none => return s.note (.convRst conv)

/-! ## Closing conns -/

/-- `ClientGroup::RemoveConn`, with which the address is forgotten. -/
def removeConn (s : ClientConns) (p : Ptr) : Except Fault ClientConns := do
  let g ← s.toIGroup.removeConn IConn.ops p
  let conn ← s.mHeap.deref p
  return { s with toIGroup := g, mConvMap := s.mConvMap.erase conn.obj.mConv }

/-- `IGroup::CloseConn` with the `RemoveConn` of `ClientGroup` -/
def closeConn (s : ClientConns) (p : Ptr) : Except Fault ClientConns := do
  let conn ← s.mHeap.deref p
  cassert (conn.mKey ≠ s.mKey)
  cassert (s.connOfKey conn.mKey = some p)
  let s ← s.removeConn p
  let h ← s.mHeap.free p
  return { s with mHeap := h }.note (.closed conn.obj.mConv)

/-- `IGroup::Flush` -/
def flush (s : ClientConns) : Except Fault ClientConns := do
  let ps ← IGroup.fails (IConn.ops (β := CConn)).toLiveOps s.mHeap s.mConns.entries
  let s ← ps.foldlM closeConn s
  let h ← IGroup.flushConns (IConn.ops (β := CConn)).toLiveOps s.mHeap s.mConns.entries
  return { s with mHeap := h }

/-- `IGroup::Close` -/
def close (s : ClientConns) : Except Fault ClientConns := do
  let s ← (s.mConns.entries.map Prod.snd).foldlM closeConn s
  return { s with mConns := StdMap.empty }

/-- `IAppGroup::Input`. The net group passes a payload up once, through a conn or the default conn. -/
def input (s : ClientConns) (o : ByteOrder) (info : Info) (payload : List UInt8) (n : Int) :
    Except Fault ClientConns :=
  match info.base.head with
  | none => .error .outOfBounds
  | some head =>
    if head.mCmd = EncHead.typeData then
      if 0 < payload.length then s.onRecv head.mConv payload n else return s
    else if head.mCmd = EncHead.typeConvRst then do
      let (s, _) ← ConnReset.inputConvRst toIGroup closeConn s o info.base payload
      return s
    else return s

/-- What can happen to the conns of a `ClientGroup`. -/
inductive Event where
  | udpRecvCb (sAddr : UInt32) (port : UInt16) (payload : List UInt8) (n : Int)
  | pollCb (sunPath payload : List UInt8) (n : Int)
  | input (o : ByteOrder) (info : Info) (payload : List UInt8) (n : Int)
  | flush
  | close

/-- What one event of the client's conns does. -/
def step (s : ClientConns) : Event → Except Fault ClientConns
  | .udpRecvCb sAddr port payload n => s.udpRecvCb sAddr port payload n
  | .pollCb sunPath payload n => s.pollCb sunPath payload n
  | .input o info payload n => s.input o info payload n
  | .flush => s.flush
  | .close => s.close

/-- The group of the client with the given id. -/
def new (id : IdBufType) : ClientConns := { mKey := idBuf2Str id }

end ClientConns

end Rsock
