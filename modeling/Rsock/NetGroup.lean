import Rsock.Lib.Heap
import Rsock.ServerNetManager
import Rsock.SockApp

/-!
# Net groups

`INetGroup` (conn/INetGroup.cpp) keeps the net conns of one app group in two tables, `mConns` by the
text of their key (from `IGroup`) and `mConnMap` by the key itself. Both hold pointers: what is
changed in a conn found through one of them is seen through the other. A conn that is removed for an
error is closed and deleted later, by a message in the group's handler; no table refers to it any
more.
-/

namespace Rsock

open CMem

/-- The order of `std::map<IntKeyType, INetConn *>`. -/
instance isStrictWeakOrder_intKey : IsStrictWeakOrder UInt64 (· < ·) :=
  StdMap.isStrictWeakOrder_of_rank (f := UInt64.toNat) fun _ _ => UInt64.lt_iff_toNat_lt

namespace NetConn

/-- `IConn::Key` of an `INetConn`. -/
def key (c : NetConn) : String := KeyGenerator.strForIntKey c.intKey

/-- `OnRecv`, where `n` is the result of the upper layer. `FakeTcp::OnRecv` casts the info to
    `TcpInfo` without looking, and reads its `seq` if `n` is not an error. -/
def onRecv (c : NetConn) (info : Info) (n : Int) : Except Fault (NetConn × Int) :=
  match c, info with
  | fakeTcp c, .tcp i => do
    let (c, n) ← c.onRecv i n
    return (fakeTcp c, n)
  | fakeTcp c, .udp i => do
    cassert i.head.isSome
    if n ≥ 0 then .error .outOfBounds else return (fakeTcp c, n)
  | fakeUdp c, info => do
    cassert info.base.head.isSome
    return (fakeUdp c, n)

end NetConn

abbrev ConnPtr := Ptr

/-- `class INetGroup`: the conns under their names, and the same under their keys. -/
structure INetGroup where
  mConns : StdMap String ConnPtr (· < ·) := StdMap.empty
  mConnMap : StdMap IntKeyType ConnPtr (· < ·) := StdMap.empty
  /-- The `MSG_CONN_ERR` messages waiting in `mHandler`, by the conn they are about. -/
  mHandler : List ConnPtr := []

/-- The arguments of a call of `INetGroup::doSend`, what `rand` returns during it, and the output
    callback of the group. -/
structure SendCall where
  hd : EncHead
  payload : List UInt8
  keyOfConnToReset : IntKeyType := 0
  picks : List Nat
  below : Info → List UInt8 → Except Fault (Int × Unit)

namespace INetGroup

def errNoConn : Int := -20

/-- `INetGroup::AddNetConn` -/
def addNetConn (g : INetGroup) (h : Heap NetConn) (p : ConnPtr) : Except Fault INetGroup := do
  let conn ← h.deref p
  let g := { g with mConns := g.mConns.emplace conn.key p }
  let g := { g with mConnMap := g.mConnMap.emplace conn.intKey p }
  cassert (g.mConnMap.size = g.mConns.size)
  return g

/-- `INetGroup::RemoveConn`, from both tables. -/
def removeConn (g : INetGroup) (h : Heap NetConn) (p : ConnPtr) : Except Fault INetGroup := do
  let conn ← h.deref p
  let ok := (g.mConns.find? conn.key).isSome
  let g := { g with mConns := g.mConns.erase conn.key }
  let ok2 := (g.mConnMap.find? conn.intKey).isSome
  let g := { g with mConnMap := g.mConnMap.erase conn.intKey }
  cassert (ok = ok2)
  cassert (g.mConnMap.size = g.mConns.size)
  return g

/-- `INetGroup::ConnOfIntKey`, which asserts that the tables agree. -/
def connOfIntKey (g : INetGroup) (key : IntKeyType) : Except Fault (Option ConnPtr) := do
  cassert (g.mConnMap.size = g.mConns.size)
  return g.mConnMap.get? key

/-- `IGroup::ConnOfKey` -/
def connOfKey (g : INetGroup) (key : String) : Option ConnPtr := g.mConns.get? key

/-- `INetGroup::childConnErrCb`. An equal message that is already waiting is removed first. -/
def childConnErrCb (g : INetGroup) (h : Heap NetConn) (p : ConnPtr) : Except Fault INetGroup := do
  let g ← g.removeConn h p
  return { g with mHandler := g.mHandler.erase p ++ [p] }

/-! ## Sending -/

/-- One pass of the loop of `INetGroup::doSend`, with the result if it returns. -/
def doSendPass (call : SendCall) (pick : Nat) (g : INetGroup) (h : Heap NetConn) :
    Except Fault (INetGroup × Heap NetConn × Option Int) :=
  match g.mConns.entries[pick % g.mConns.size]? with
  | none => .error .outOfBounds
  | some (_, p) => do
    let conn ← h.deref p
    if conn.alive then
      if call.keyOfConnToReset ≠ 0 ∧ conn.intKey = call.keyOfConnToReset then return (g, h, none)
      else
        let (conn, n, _) ← conn.output call.hd call.payload call.below
        return (g, h.store p conn, some n)
    else
      let g ← g.childConnErrCb h p
      return (g, h, none)

/-- The loop of `INetGroup::doSend`, with the result if it has returned after these picks. -/
def doSendLoop (call : SendCall) : List Nat → INetGroup → Heap NetConn →
    Except Fault (INetGroup × Heap NetConn × Option Int)
  | picks, g, h =>
    if g.mConns.size = 0 then return (g, h, some errNoConn)
    else
      match picks with
      | [] => return (g, h, none)
      | pick :: picks => do
        let (g, h, r) ← doSendPass call pick g h
        match r with
        | some n => return (g, h, some n)
        | none => doSendLoop call picks g h

/-- `INetGroup::doSend`. The result is `none` while the picks do not get it to return. -/
def doSend (g : INetGroup) (h : Heap NetConn) (call : SendCall) :
    Except Fault (INetGroup × Heap NetConn × Option Int) :=
  if 0 < call.payload.length then doSendLoop call call.picks g h
  else return (g, h, some call.payload.length)

/-- The conn the loop of `INetGroup::doSend` outputs the packet on. -/
def doSendLoopConn (call : SendCall) : List Nat → INetGroup → Heap NetConn → Option ConnPtr
  | [], _, _ => none
  | pick :: picks, g, h =>
    match doSendPass call pick g h with
    | .ok (_, _, some _) => (g.mConns.entries[pick % g.mConns.size]?).map Prod.snd
    | .ok (g, h, none) => doSendLoopConn call picks g h
    | .error _ => none

/-- The conn that `doSend` sends over. -/
def doSendConn (g : INetGroup) (h : Heap NetConn) (call : SendCall) : Option ConnPtr :=
  if 0 < call.payload.length then doSendLoopConn call call.picks g h else none

/-- A number of calls, one after the other. -/
def doSends (g : INetGroup) (h : Heap NetConn) :
    List SendCall → Except Fault (INetGroup × Heap NetConn)
  | [] => return (g, h)
  | call :: calls => do
    let (g, h, _) ← g.doSend h call
    g.doSends h calls

/-! ## Receiving -/

/-- `conn->Input(nread, rbuf)`: the upper layer sends `ups` and returns `n`, then the conn does its
    own bookkeeping. -/
def connInput (g : INetGroup) (h : Heap NetConn) (p : ConnPtr) (info : Info) (ups : List SendCall)
    (n : Int) : Except Fault (INetGroup × Heap NetConn × Int) := do
  let (g, h) ← g.doSends h ups
  let conn ← h.deref p
  let (conn, n) ← conn.onRecv info n
  return (g, h.store p conn, n)

/-- `INetGroup::Input` of a packet with a payload. `createNetConn` is the virtual method, `σ` the
    state it works on. -/
def input {σ : Type} (createNetConn : σ → IntKeyType → Info → Except Fault (σ × Option NetConn))
    (st : σ) (g : INetGroup) (h : Heap NetConn) (info : Info) (ups : List SendCall) (n : Int) :
    Except Fault (σ × INetGroup × Heap NetConn × Int) :=
  match info.base.head with
  | none => .error .assertFailed
  | some head => do
    match ← g.connOfIntKey head.mConnKey with
    | some p =>
      let (g, h, n) ← g.connInput h p info ups n
      return (st, g, h, n)
    | none =>
      let (st, conn) ← createNetConn st head.mConnKey info
      match conn with
      | some conn =>
        let (h, p) := h.alloc conn
        let g ← g.addNetConn h p
        let (g, h, n) ← g.connInput h p info ups n
        return (st, g, h, n)
      | none =>
        let (g, h) ← g.doSends h ups
        return (st, g, h, errNoConn)

/-! ## Errors -/

/-- `NotifyErr` on the conn with the given key; false if there is none. -/
def notifyErr (g : INetGroup) (h : Heap NetConn) (key : IntKeyType) (err : ErrCode) :
    Except Fault (Heap NetConn × Bool) := do
  match ← g.connOfIntKey key with
  | some p =>
    let conn ← h.deref p
    return (h.store p (conn.notifyErr err), true)
  | none => return (h, false)

/-- The conns `IGroup::Flush` finds dead. -/
def fails (h : Heap NetConn) : List (String × ConnPtr) → Except Fault (List ConnPtr)
  | [] => return []
  | (_, p) :: l => do
    let conn ← h.deref p
    let ps ← fails h l
    return if conn.alive then ps else p :: ps

/-- `OnConnDead` for each of them. -/
def onConnsDead (g : INetGroup) (h : Heap NetConn) : List ConnPtr → Except Fault INetGroup
  | [] => return g
  | p :: ps => do
    let g ← g.childConnErrCb h p
    g.onConnsDead h ps

/-- `IGroup::Flush` of a net group: the conns that are dead go to `childConnErrCb`. -/
def flush (g : INetGroup) (h : Heap NetConn) : Except Fault INetGroup := do
  let ps ← fails h g.mConns.entries
  g.onConnsDead h ps

end INetGroup

/-! ## Creating conns -/

/-- What `CreateNetConn` finds out on the server: what the capture thread adds while `GetTcp` waits,
    the addresses of the handle, the result of `uv_read_start` and the time. -/
structure AcceptEnv where
  wakes : List (List TcpAckPool.Add)
  late : List TcpAckPool.Add
  sock : ConnInfo
  readStart : Int
  now : UInt64

/-- `CNetGroup::CreateNetConn`: a client makes no conn for a packet. -/
def CNetGroup.createNetConn {σ : Type} (st : σ) (_key : IntKeyType) (_info : Info) :
    Except Fault (σ × Option NetConn) := return (st, none)

/-- `SNetGroup::CreateNetConn`: the handle that was accepted for the addresses becomes a conn. -/
def SNetGroup.createNetConn (env : AcceptEnv) (mNetManager : ServerNetManager) (key : IntKeyType)
    (info : Info) : Except Fault (ServerNetManager × Option NetConn) :=
  match info with
  | .udp i => do
    let c ← FakeUdp.new key i
    return (mNetManager, if i.head.isSome then some (.fakeUdp c) else none)
  | .tcp i =>
    match mNetManager.getTcp (TcpInfo.ofConnInfo i.toConnInfo) env.wakes env.late with
    | (mNetManager, none, _) => return (mNetManager, none)
    | (mNetManager, some _, tcpInfo) => do
      let c ← FakeTcp.new env.sock key tcpInfo env.now
      let (c, n) := c.init env.readStart
      return (mNetManager, if i.head.isSome ∧ n = 0 then some (.fakeTcp c) else none)

/-- What `createINetConn` finds out on the client: what `GetTcpInfo` returns for the new handle, what
    the capture thread adds during the wait, the addresses `FakeTcp` sees, the result of
    `uv_read_start` and the time. -/
structure DialEnv where
  nret : Int
  tcpInfo : TcpInfo
  wakes : List (List TcpAckPool.Add)
  late : List TcpAckPool.Add
  sock : ConnInfo
  readStart : Int
  now : UInt64

/-- `ClientNetManager::createINetConn` -/
def ClientNetManager.createINetConn (mTcpAckPool : TcpAckPool) (env : DialEnv) :
    Except Fault (TcpAckPool × Option FakeTcp) :=
  if env.nret = 0 then
    match mTcpAckPool.wait2TransferInfo env.tcpInfo env.wakes env.late with
    | (pool, some tcpInfo) => do
      let key ← KeyGenerator.keyForConnInfo (.tcp tcpInfo)
      let c ← FakeTcp.new env.sock key tcpInfo env.now
      return (pool, some c)
    | (pool, none) => return ((pool.removeInfo env.tcpInfo).1, none)
  else return ((mTcpAckPool.removeInfo env.tcpInfo).1, none)

end Rsock
