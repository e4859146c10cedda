import Rsock.ConnReset
import Rsock.NetConnKeepAlive

/-!
# The conversations of the server

A `SubGroup` (server/SubGroup.cpp) has one `SConn` for each conversation of a client, found by the
client's address and the number of the conversation. A packet goes up to it through a net conn, or
through the default conn of the net group if there is none, by callbacks that are set and cleared as
conns come and go. A callback has only one target, so that all there is to know about it is whether it
is set. `notes` records what can be observed.
-/

namespace Rsock

open CMem

/-- The members of `class SConn`. -/
structure SConn where
  mConv : UInt32
  deriving DecidableEq

/-- What is noted of a `SubGroup`: what its sockets send, and for which keys it sends a reset. -/
inductive SubGroup.Note where
  /-- `SConn::OnRecv` of the conn. -/
  | onRecv (p : Ptr) (payload : List UInt8)
  /-- `SendNetConnRst` is called for the key. -/
  | netConnRst (key : IntKeyType)
  deriving DecidableEq

/-- `class SubGroup` with its net group, and the net manager of the app. -/
structure SubGroup extends IGroup (IConn SConn) where
  net : NetSide
  mNetManager : ServerNetManager
  /-- The net conns whose `mOnRecvCb` is set, to `INetGroup::OnRecv`. -/
  recvConns : List ConnPtr := []
  /-- `mOnRecvCb` of the default conn is set, to `INetGroup::OnRecv`. -/
  defaultRecv : Bool := false
  /-- `mOnRecvCb` of the net group is set, to `SubGroup::OnRecv`. -/
  netRecv : Bool := false
  /-- What has happened, latest last. -/
  notes : List SubGroup.Note := []

namespace SubGroup

/-- Notes what an event did to the outside. -/
def note (s : SubGroup) (n : Note) : SubGroup := { s with notes := s.notes ++ [n] }

/-- The conns in the tables of the net group. -/
def netConns (net : NetSide) : List ConnPtr :=
  net.mFakeNetGroup.group.mConns.entries.map Prod.snd

/-- The net side becomes `net`. `RemoveConn` has cleared the callback of every conn it took out of the
    tables. -/
def setNet (s : SubGroup) (net : NetSide) : SubGroup :=
  { s with net := net,
           recvConns := s.recvConns.filter fun p => p ∉ netConns s.net ∨ p ∈ netConns net }

/-- `INetGroup::Init` and `IAppGroup::Init`, for the callbacks. -/
def init (s : SubGroup) : SubGroup := { s with defaultRecv := true, netRecv := true }

/-- `IGroup::CloseConn` of an `SConn`. -/
def closeConn (s : SubGroup) (p : Ptr) : Except Fault SubGroup := do
  let g ← s.toIGroup.closeConn IConn.ops p
  return { s with toIGroup := g }

/-! ## The way up -/

/-- `SubGroup::newConn`. `SConn::Init` returns 0. -/
def newConn (s : SubGroup) (key : String) (conv : UInt32) : SubGroup × Ptr :=
  ({ s with toIGroup := s.addConn IConn.ops { mKey := key, obj := { mConv := conv } } },
    s.mHeap.cells.length)

/-- `conn->Input` of an `SConn`: it sends the payload to the target and returns its length. -/
def sconnInput (s : SubGroup) (p : Ptr) (payload : List UInt8) : Except Fault (SubGroup × Int) := do
  let conn ← s.mHeap.deref p
  let n : Int := payload.length
  return ({ s with mHeap := s.mHeap.store p (conn.input n) }.note (.onRecv p payload), n)

/-- `SubGroup::OnRecv` -/
def onRecv (s : SubGroup) (info : ConnInfo) (payload : List UInt8) : Except Fault (SubGroup × Int) :=
  if 0 < payload.length then
    match info.head with
    | none => .error .assertFailed
    | some head =>
      let key := KeyGenerator.buildConvKey info.dst head.mConv
      match s.connOfKey key with
      | some p => s.sconnInput p payload
      | none =>
        let (s, p) := s.newConn key head.mConv
        s.sconnInput p payload
  else return (s, payload.length)

/-- `IConn::OnRecv` of the net group. -/
def netOnRecv (s : SubGroup) (info : Info) (payload : List UInt8) : Except Fault (SubGroup × Int) :=
  if s.netRecv then s.onRecv info.base payload else return (s, 0)

/-- `IConn::OnRecv` of the net conn at `p`. -/
def connOnRecv (s : SubGroup) (p : ConnPtr) (info : Info) (payload : List UInt8) :
    Except Fault (SubGroup × Int) :=
  if p ∈ s.recvConns then s.netOnRecv info payload else return (s, 0)

/-- `conn->Input` of the net conn at `p`. -/
def connInput (s : SubGroup) (p : ConnPtr) (info : Info) (payload : List UInt8) :
    Except Fault (SubGroup × Int) := do
  let (s, n) ← s.connOnRecv p info payload
  let conn ← s.net.mFakeNetGroup.heap.deref p
  let (conn, n) ← conn.onRecv info n
  let h := s.net.mFakeNetGroup.heap.store p conn
  return ({ s with net := { s.net with mFakeNetGroup.heap := h } }, n)

/-- `mDefaultFakeConn->Input` -/
def defaultInput (s : SubGroup) (info : Info) (payload : List UInt8) :
    Except Fault (SubGroup × Int) :=
  if s.defaultRecv then s.netOnRecv info payload else return (s, 0)

/-- `INetGroup::AddNetConn` of a new conn, with its pointer. -/
def addNetConn (s : SubGroup) (conn : NetConn) : Except Fault (SubGroup × ConnPtr) := do
  let p := s.net.mFakeNetGroup.heap.cells.length
  let net ← s.net.mFakeNetGroup.addNetConn conn
  return ({ s with net := { s.net with mFakeNetGroup := net }, recvConns := p :: s.recvConns }, p)

/-- `INetGroup::Input` -/
def netInput (s : SubGroup) (env : AcceptEnv) (info : Info) (head : EncHead) (payload : List UInt8) :
    Except Fault (SubGroup × Int) :=
  if 0 < payload.length then do
    match ← s.net.mFakeNetGroup.group.connOfIntKey head.mConnKey with
    | some p => s.connInput p info payload
    | none =>
      let (mgr, conn) ← SNetGroup.createNetConn env s.mNetManager head.mConnKey info
      let s := { s with mNetManager := mgr }
      match conn with
      | some conn =>
        let (s, p) ← s.addNetConn conn
        s.connInput p info payload
      | none =>
        let (s, _) ← s.defaultInput info payload
        return (s, INetGroup.errNoConn)
  else return (s, payload.length)

/-- `IAppGroup::Input` -/
def input (s : SubGroup) (o : ByteOrder) (env : AcceptEnv) (info : Info) (payload : List UInt8)
    (answer : SendEnv) : Except Fault SubGroup :=
  match info.base.head with
  | none => .error .outOfBounds
  | some head =>
    if head.mCmd = EncHead.typeData then do
      let (s, n) ← s.netInput env info head payload
      if n = INetGroup.errNoConn then
        let s := s.note (.netConnRst head.mConnKey)
        let net ← s.net.sendNetConnRst o head.mConnKey answer
        return s.setNet net
      else return s
    else if head.mCmd = EncHead.typeConvRst then do
      let (s, _) ← ConnReset.inputConvRst toIGroup closeConn s o info.base payload
      return s
    else do
      -- a net conn reset or a keepalive packet, with nothing for the conversations
      let net ← s.net.input o info payload [] 0 answer
      return s.setNet net

/-! ## Everything that can happen -/

/-- What can happen to a `SubGroup`. -/
inductive Event where
  | input (o : ByteOrder) (env : AcceptEnv) (info : Info) (payload : List UInt8) (answer : SendEnv)
  /-- A datagram from the target: `SConn::udpRecvCb` and `SubGroup::sconnSend`. The net group returns
      `n`. -/
  | sconnSend (p : Ptr) (payload : List UInt8) (env : SendEnv) (n : Int)
  | processTcpFinOrRst (info : TcpInfo)
  | onTcpError (p : ConnPtr)
  | flush
  /-- A `MSG_CONN_ERR` is dispatched. -/
  | handleMessage
  /-- `NetConnKeepAlive::OnFlush` -/
  | onFlush (o : ByteOrder) (timestamp : UInt64) (env : IntKeyType → SendEnv)
  | onNetConnected
  | onNetDisconnected
  /-- A handshake is recorded, a connection is accepted or expires, or another group asks for a handle.
      The net manager is `mgr` after it. -/
  | netManager (mgr : ServerNetManager)

/-- An event of the net group, seen from the group. -/
def netStep (s : SubGroup) (e : NetSide.Event) : Except Fault SubGroup := do
  let net ← s.net.step e
  return s.setNet net

/-- What one event does to a group of the server. -/
def step (s : SubGroup) : Event → Except Fault SubGroup
  | .input o env info payload answer => s.input o env info payload answer
  | .sconnSend p payload env n => do
    let conn ← s.mHeap.deref p
    let net ← s.net.sendData conn.obj.mConv payload env
    return ({ s with mHeap := s.mHeap.store p (conn.send n) }).setNet net
  | .processTcpFinOrRst info => s.netStep (.processTcpFinOrRst info)
  | .onTcpError p => s.netStep (.onTcpError p)
  | .flush => do
    let g ← s.toIGroup.flush IConn.ops
    { s with toIGroup := g }.netStep .flush
  | .handleMessage => s.netStep .handleMessage
  | .onFlush o timestamp env => s.netStep (.onFlush o timestamp env)
  | .onNetConnected => s.netStep .onNetConnected
  | .onNetDisconnected => s.netStep .onNetDisconnected
  | .netManager mgr => return { s with mNetManager := mgr }

/-- The group of the client with the given id, as `ServerGroup::newConn` makes it. -/
def new (id : IdBufType) (mgr : ServerNetManager) : SubGroup :=
  init { mKey := idBuf2Str id, net := NetSide.new id, mNetManager := mgr }

end SubGroup

end Rsock
