import Rsock.AppGroup

/-!
# The life of a net conn

From `INetGroup::AddNetConn` to `Close` and `delete` (conn/INetGroup.cpp, conn/IGroup.cpp). A conn that
dies is taken out of the tables and closed when its `MSG_CONN_ERR` is dispatched; `INetGroup::Close`
closes the conns that are in the tables then and drops the handler with its messages.
-/

namespace Rsock

open CMem

/-- A net group, its conns and the calls of their `Close`. -/
structure ConnLife where
  group : INetGroup := {}
  heap : Heap NetConn := {}
  /-- The conns `Close` has been called on, latest first. -/
  closes : List ConnPtr := []

/-- A call of `doSend` whose output callback returns. -/
structure OutCall where
  hd : EncHead
  payload : List UInt8
  keyOfConnToReset : IntKeyType := 0
  picks : List Nat
  out : Info → List UInt8 → Int

def OutCall.toSendCall (o : OutCall) : SendCall where
  hd := o.hd
  payload := o.payload
  keyOfConnToReset := o.keyOfConnToReset
  picks := o.picks
  below info payload := .ok (o.out info payload, ())

namespace ConnLife

/-- `conn->Close(); delete conn;` -/
def closeAndDelete (s : ConnLife) (p : ConnPtr) : Except Fault ConnLife := do
  let h ← s.heap.free p
  return { s with heap := h, closes := p :: s.closes }

/-- `INetGroup::handleMessage` for the message at the front of the queue, with the info its handler
    gets. -/
def handleMessage (s : ConnLife) : Except Fault (ConnLife × Option Info) :=
  match s.group.mHandler with
  | [] => return (s, none)
  | p :: ps => do
    let conn ← s.heap.deref p
    let s ← { s with group.mHandler := ps }.closeAndDelete p
    return (s, some conn.getInfo)

/-- `IGroup::CloseConn` of the group with the given key. -/
def closeConn (key : String) (s : ConnLife) (p : ConnPtr) : Except Fault ConnLife := do
  let conn ← s.heap.deref p
  cassert (conn.key ≠ key)
  cassert (s.group.mConns.get? conn.key = some p)
  let g ← s.group.removeConn s.heap p
  { s with group := g }.closeAndDelete p

/-- `INetGroup::Close` of the group with the given key. -/
def close (key : String) (s : ConnLife) : Except Fault ConnLife := do
  let s ← (s.group.mConns.entries.map Prod.snd).foldlM (closeConn key) s
  return { s with group := {} }

/-- What can happen to a net group. -/
inductive Event where
  | addNetConn (conn : NetConn)
  /-- `INetGroup::Input`, where `created` is what `CreateNetConn` would return. -/
  | input (info : Info) (created : Option NetConn) (ups : List OutCall) (n : Int)
  | send (call : OutCall)
  | flush
  /-- A reset or a keepalive timeout for the conn with the key. -/
  | notifyErr (key : IntKeyType) (err : ErrCode)
  /-- libuv reports an error on the handle of a `FakeTcp`. It does not after `uv_close`. -/
  | onTcpError (p : ConnPtr)
  | handleMessage

/-- `INetGroup::AddNetConn` of a new conn. -/
def addNetConn (s : ConnLife) (conn : NetConn) : Except Fault ConnLife := do
  let (h, p) := s.heap.alloc conn
  let g ← s.group.addNetConn h p
  return { s with group := g, heap := h }

/-- `INetGroup::Input` of a packet during which the layers above make the calls `ups` of `doSend`. -/
def input (s : ConnLife) (info : Info) (created : Option NetConn) (ups : List OutCall) (n : Int) :
    Except Fault ConnLife := do
  let (_, g, h, _) ← INetGroup.input (fun _ _ _ => .ok ((), created)) () s.group s.heap info
    (ups.map OutCall.toSendCall) n
  return { s with group := g, heap := h }

/-- What one event does to the net conns. -/
def step (s : ConnLife) : Event → Except Fault ConnLife
  | .addNetConn conn => s.addNetConn conn
  | .input info created ups n => s.input info created ups n
  | .send call => do
    let (g, h, _) ← s.group.doSend s.heap call.toSendCall
    return { s with group := g, heap := h }
  | .flush => do
    let g ← s.group.flush s.heap
    return { s with group := g }
  | .notifyErr key err => do
    let (h, _) ← s.group.notifyErr s.heap key err
    return { s with heap := h }
  | .onTcpError p =>
    if p ∈ s.closes then return s
    else do
      let h ← FakeTcp.onTcpError s.heap p
      return { s with heap := h }
  | .handleMessage => do
    let (s, _) ← s.handleMessage
    return s

/-- Whatever a net group with its public methods can be asked to do, also with conns that are not in
    its tables. -/
inductive Call where
  | event (e : Event)
  /-- `AddNetConn` of a conn that has been added before. -/
  | addNetConn (p : ConnPtr)
  | removeConn (p : ConnPtr)
  | closeConn (p : ConnPtr)

/-- `call` on the group with the given key. -/
def call (key : String) (s : ConnLife) : Call → Except Fault ConnLife
  | .event e => s.step e
  | .addNetConn p => do
    let g ← s.group.addNetConn s.heap p
    return { s with group := g }
  | .removeConn p => do
    let g ← s.group.removeConn s.heap p
    return { s with group := g }
  | .closeConn p => s.closeConn key p

end ConnLife

end Rsock
