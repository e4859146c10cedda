import Rsock.Lib.Run
import Rsock.NetGroup

/-!
# App groups

`IAppGroup` (conn/IAppGroup.cpp) sits on one net group. The client has one, `ClientGroup`; the server
has a `SubGroup` for each client id, in a `ServerGroup`. A captured FIN or RST is offered to the
client's group, and on the server to one group after the other until one has processed it.

`ClientGroup.step` and `ServerGroup.step` are everything that can happen to the net conns.
-/

namespace Rsock

open CMem

/-! ## `IAppGroup` -/

namespace IAppGroup

/-- `ConnReset::OnRecvNetConnRst`: true if it returns 0. -/
def onRecvNetConnRst (g : INetGroup) (h : Heap NetConn) (key : IntKeyType) :
    Except Fault (Heap NetConn × Bool) :=
  g.notifyErr h key .finRst

/-- `NetConnKeepAlive::onNetConnDead` -/
def onNetConnDead (g : INetGroup) (h : Heap NetConn) (key : IntKeyType) :
    Except Fault (Heap NetConn) := do
  let (h, _) ← g.notifyErr h key .timeout
  return h

/-- `IAppGroup::ProcessTcpFinOrRst`, which returns whether the group has the conn. -/
def processTcpFinOrRst (g : INetGroup) (h : Heap NetConn) (info : TcpInfo) :
    Except Fault (Heap NetConn × Bool) := do
  let key ← KeyGenerator.keyForConnInfo (.tcp info)
  match ← g.connOfIntKey key with
  | some p =>
    let netConn ← h.deref p
    onRecvNetConnRst g h netConn.intKey
  | none => return (h, false)

/-- A received packet, with what happens while it is processed. -/
structure Packet where
  info : Info
  payload : List UInt8
  /-- What the layers above send while they process the payload. -/
  ups : List SendCall
  /-- What the layers above return. -/
  n : Int
  /-- The answer of the group itself, a reset or a keepalive response. -/
  answer : SendCall

/-- `KeyGenerator::DecodeKeySafe` -/
def decodeKeySafe (o : ByteOrder) (payload : List UInt8) : Except Fault (Option IntKeyType) :=
  if payload.length ≥ 8 then do
    let (key, _) ← KeyGenerator.decodeKey o payload
    return some key
  else return none

/-- `IAppGroup::Input`. Conversation resets and keepalive responses concern no net conn. -/
def input {σ : Type} (o : ByteOrder)
    (createNetConn : σ → IntKeyType → Info → Except Fault (σ × Option NetConn)) (st : σ)
    (g : INetGroup) (h : Heap NetConn) (pkt : Packet) :
    Except Fault (σ × INetGroup × Heap NetConn) :=
  match pkt.info.base.head with
  | none => .error .outOfBounds
  | some head =>
    if head.mCmd = EncHead.typeData then do
      let (st, g, h, n) ← INetGroup.input createNetConn st g h pkt.info pkt.ups pkt.n
      if n = INetGroup.errNoConn then
        let (g, h, _) ← g.doSend h { pkt.answer with keyOfConnToReset := head.mConnKey }
        return (st, g, h)
      else return (st, g, h)
    else if head.mCmd = EncHead.typeNetconnRst then do
      match ← decodeKeySafe o pkt.payload with
      | some key =>
        let (h, _) ← onRecvNetConnRst g h key
        return (st, g, h)
      | none => return (st, g, h)
    else if head.mCmd = EncHead.typeKeepAliveReq then do
      match ← decodeKeySafe o pkt.payload with
      | some key =>
        match ← g.connOfIntKey key with
        | some _ =>
          let (g, h, _) ← g.doSend h { pkt.answer with keyOfConnToReset := 0 }
          return (st, g, h)
        | none =>
          let (g, h, _) ← g.doSend h { pkt.answer with keyOfConnToReset := key }
          return (st, g, h)
      | none => return (st, g, h)
    else return (st, g, h)

/-- What concerns the net group of an app group. -/
inductive Event where
  /-- The layers above or the keepalive timer send. -/
  | send (call : SendCall)
  /-- A keepalive request has timed out. -/
  | onNetConnDead (key : IntKeyType)
  | flush

/-- What one event of the net group does. -/
def step (g : INetGroup) (h : Heap NetConn) : Event → Except Fault (INetGroup × Heap NetConn)
  | .send call => do
    let (g, h, _) ← g.doSend h call
    return (g, h)
  | .onNetConnDead key => do
    let h ← onNetConnDead g h key
    return (g, h)
  | .flush => do
    let g ← g.flush h
    return (g, h)

end IAppGroup

/-- `FakeTcp::onTcpError`, for the conn a TCP handle points to. -/
def FakeTcp.onTcpError (h : Heap NetConn) (p : ConnPtr) : Except Fault (Heap NetConn) := do
  match ← h.deref p with
  | .fakeTcp c => return h.store p (NetConn.notifyErr .finRst (.fakeTcp c))
  | .fakeUdp _ => .error .outOfBounds

/-! ## The client -/

/-- `class ClientGroup`, with the objects its net group points to and the ack pool of the app. -/
structure ClientGroup where
  mTcpAckPool : TcpAckPool
  mHeap : Heap NetConn := {}
  mFakeNetGroup : INetGroup := {}

namespace ClientGroup

/-- What can happen to a client that has been started. -/
inductive Event where
  /-- The capture thread records a handshake. -/
  | addInfoFromPeer (a : TcpAckPool.Add)
  | addUdpNetConn (conn : BtmUdpConn)
  | addTcpNetConn (env : DialEnv)
  /-- `ClientNetManager::onTcpConnect` for a dial of `info`. Its own `GetTcpInfo` returns `nret` and
      leaves `tcpInfo`. -/
  | onTcpConnect (info : ConnInfo) (env : DialEnv) (nret : Int) (tcpInfo : TcpInfo)
  | input (o : ByteOrder) (pkt : IAppGroup.Packet)
  | app (e : IAppGroup.Event)
  | onTcpError (p : ConnPtr)
  | onTcpFinOrRst (info : TcpInfo)

/-- `conn->Init()` and, if it succeeds, `AddNetConn`: `addTcpNetConn` and
    `CConnErrHandler::TcpDialAsyncCb`. -/
def addFakeTcp (s : ClientGroup) (c : FakeTcp) (readStart : Int) : Except Fault ClientGroup :=
  let (c, n) := c.init readStart
  if n = 0 then do
    let (h, p) := s.mHeap.alloc (.fakeTcp c)
    let g ← s.mFakeNetGroup.addNetConn h p
    return { s with mHeap := h, mFakeNetGroup := g }
  else return s

/-- `ClientNetObserver::OnTcpFinOrRst` -/
def onTcpFinOrRst (s : ClientGroup) (info : TcpInfo) : Except Fault ClientGroup := do
  let (h, _) ← IAppGroup.processTcpFinOrRst s.mFakeNetGroup s.mHeap info
  return { s with mHeap := h }

/-- What one event of the client does to its net group. -/
def step (s : ClientGroup) : Event → Except Fault ClientGroup
  | .addInfoFromPeer a => return { s with mTcpAckPool := (s.mTcpAckPool.addInfoFromPeer a).1 }
  | .addUdpNetConn conn => do
    let c ← CSockApp.udpNetConn conn
    let (h, p) := s.mHeap.alloc (.fakeUdp c)
    let g ← s.mFakeNetGroup.addNetConn h p
    return { s with mHeap := h, mFakeNetGroup := g }
  | .addTcpNetConn env => do
    let (pool, c) ← ClientNetManager.createINetConn s.mTcpAckPool env
    let s := { s with mTcpAckPool := pool }
    match c with
    | some c => s.addFakeTcp c env.readStart
    | none => return s
  | .onTcpConnect info env nret tcpInfo => do
    let (pool, c) ← ClientNetManager.createINetConn s.mTcpAckPool env
    let failed := { s with mTcpAckPool := (pool.removeInfo (TcpInfo.ofConnInfo info)).1 }
    match c with
    | some c =>
      if nret ≠ 0 ∨ tcpInfo.dp = 0 ∨ tcpInfo.dst = 0 then return failed
      else addFakeTcp { s with mTcpAckPool := (pool.removeInfo tcpInfo).1 } c env.readStart
    | none => return failed
  | .input o pkt => do
    let (_, g, h) ←
      IAppGroup.input o (CNetGroup.createNetConn (σ := Unit)) () s.mFakeNetGroup s.mHeap pkt
    return { s with mFakeNetGroup := g, mHeap := h }
  | .app e => do
    let (g, h) ← IAppGroup.step s.mFakeNetGroup s.mHeap e
    return { s with mFakeNetGroup := g, mHeap := h }
  | .onTcpError p => do
    let h ← FakeTcp.onTcpError s.mHeap p
    return { s with mHeap := h }
  | .onTcpFinOrRst info => s.onTcpFinOrRst info

end ClientGroup

/-! ## The server -/

/-- The order of a `std::map` whose keys are the bytes of an id (`IdBuf2Str`). -/
def IdLt (a b : List UInt8) : Prop := a.map UInt8.toNat < b.map UInt8.toNat

instance : DecidableRel IdLt := fun a b =>
  inferInstanceAs (Decidable (a.map UInt8.toNat < b.map UInt8.toNat))

instance : IsStrictWeakOrder (List UInt8) IdLt :=
  StdMap.isStrictWeakOrder_of_rank (f := List.map UInt8.toNat) fun _ _ => Iff.rfl

/-- `class ServerGroup`: the net groups of its `SubGroup`s, with the objects they point to and the
    net manager of the app. -/
structure ServerGroup where
  mNetManager : ServerNetManager
  mHeap : Heap NetConn := {}
  mConns : StdMap (List UInt8) INetGroup IdLt := StdMap.empty

namespace ServerGroup

/-- What can happen to a server. -/
inductive Event where
  /-- The capture thread records a handshake, the event loop accepts a connection. -/
  | netManager (e : ServerNetManager.Event)
  /-- `ServerGroup::OnRecv`, where `initRet` is the result of `Init` of a new `SubGroup`. -/
  | onRecv (o : ByteOrder) (env : AcceptEnv) (initRet : Int) (pkt : IAppGroup.Packet)
  | app (groupId : List UInt8) (e : IAppGroup.Event)
  /-- `Flush` finds the `SubGroup` dead and closes it. -/
  | closeConn (groupId : List UInt8)
  | onTcpError (p : ConnPtr)
  | onTcpFinOrRst (info : TcpInfo)

/-- `ServerGroup::OnRecv`, from the group of the packet's id on. -/
def subGroupInput (s : ServerGroup) (o : ByteOrder) (env : AcceptEnv) (groupId : List UInt8)
    (g : INetGroup) (pkt : IAppGroup.Packet) : Except Fault ServerGroup := do
  let (mgr, g, h) ←
    IAppGroup.input o (SNetGroup.createNetConn env) s.mNetManager g s.mHeap pkt
  return { s with mNetManager := mgr, mHeap := h, mConns := s.mConns.assign groupId g }

/-- `ServerGroup::OnRecv`: the packet goes to the `SubGroup` of its id, which is made if it is new. -/
def onRecv (s : ServerGroup) (o : ByteOrder) (env : AcceptEnv) (initRet : Int)
    (pkt : IAppGroup.Packet) : Except Fault ServerGroup :=
  match pkt.info.base.head with
  | none => .error .assertFailed
  | some hd =>
    let groupId := hd.mIdBuf.bytes
    match s.mConns.get? groupId with
    | some g => s.subGroupInput o env groupId g pkt
    | none => if initRet = 0 then s.subGroupInput o env groupId {} pkt else return s

/-- The loop of `ServerGroup::OnTcpFinOrRst`. -/
def finOrRstLoop (info : TcpInfo) (h : Heap NetConn) :
    List (List UInt8 × INetGroup) → Except Fault (Heap NetConn)
  | [] => return h
  | (_, g) :: l => do
    let (h, processed) ← IAppGroup.processTcpFinOrRst g h info
    if processed then return h else finOrRstLoop info h l

/-- `ServerGroup::OnTcpFinOrRst`: the first `SubGroup` that has the conn takes it. -/
def onTcpFinOrRst (s : ServerGroup) (info : TcpInfo) : Except Fault ServerGroup := do
  let h ← finOrRstLoop info s.mHeap s.mConns.entries
  return { s with mHeap := h }

/-- What one event of the server does to its groups. -/
def step (s : ServerGroup) : Event → Except Fault ServerGroup
  | .netManager e => return { s with mNetManager := (s.mNetManager.step e).1 }
  | .onRecv o env initRet pkt => s.onRecv o env initRet pkt
  | .app groupId e =>
    match s.mConns.get? groupId with
    | some g => do
      let (g, h) ← IAppGroup.step g s.mHeap e
      return { s with mHeap := h, mConns := s.mConns.assign groupId g }
    | none => return s
  | .closeConn groupId => return { s with mConns := s.mConns.erase groupId }
  | .onTcpError p => do
    let h ← FakeTcp.onTcpError s.mHeap p
    return { s with mHeap := h }
  | .onTcpFinOrRst info => s.onTcpFinOrRst info

end ServerGroup

end Rsock
