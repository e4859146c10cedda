import Rsock.NetGroupLife

/-!
# From the wire to a net conn

A received packet passes `RConn::OnRecv`, which checks its hash, and reaches the `INetGroup::Input` of
the group its header names. There the conn is looked up by the key in the header, whatever the packet
came over; on the server a missing conn is created for the transport of the packet.
-/

namespace Rsock

open CMem

/-- A net group of the client or of the server, with the net manager of the app. -/
structure NetRecv where
  isServer : Bool
  mNetManager : ServerNetManager
  net : ConnLife := {}

namespace NetRecv

/-- The `CreateNetConn` of the group. -/
def createNetConn (isServer : Bool) (env : AcceptEnv) (mNetManager : ServerNetManager)
    (key : IntKeyType) (info : Info) : Except Fault (ServerNetManager × Option NetConn) :=
  if isServer then SNetGroup.createNetConn env mNetManager key info
  else CNetGroup.createNetConn mNetManager key info

/-- Everything that can happen to the conns of the group, but for packets. -/
abbrev LocalEvent :=
  { e : ConnLife.Event // ∀ info created ups n, e ≠ .input info created ups n }

/-- What can happen to the group: packets come in, and its conns change. -/
inductive Event where
  /-- A packet of the transport `info` has arrived. The layers above send `ups` and return `n`. -/
  | recv (o : ByteOrder) (env : AcceptEnv) (info : Info) (rbuf : List UInt8) (ups : List OutCall)
    (n : Int)
  | conns (e : LocalEvent)
  | netManager (mgr : ServerNetManager)

/-- `INetGroup::Input` -/
def input (s : NetRecv) (env : AcceptEnv) (info : Info) (ups : List OutCall) (n : Int) :
    Except Fault NetRecv := do
  let (mgr, g, h, _) ← INetGroup.input (createNetConn s.isServer env) s.mNetManager s.net.group
    s.net.heap info (ups.map OutCall.toSendCall) n
  return { s with mNetManager := mgr, net := { s.net with group := g, heap := h } }

/-- The group behind the given `RConn`. `IAppGroup::Input` keeps resets and keepalive packets to
    itself. -/
def step (r : RConn) (md5 : Md5) (s : NetRecv) : Event → Except Fault NetRecv
  | .recv o env info rbuf ups n => do
    match ← r.onRecv md5 o info rbuf with
    | .deliver info head _ =>
      if head.mCmd = EncHead.typeData then s.input env info ups n else return s
    | _ => return s
  | .conns e => do
    let net ← s.net.step e.1
    return { s with net := net }
  | .netManager mgr => return { s with mNetManager := mgr }

/-- The conn `INetGroup::Input` gives the packet with this header to. -/
def inputConn (s : NetRecv) (env : AcceptEnv) (info : Info) (head : EncHead) : Option NetConn :=
  match s.net.group.mConnMap.get? head.mConnKey with
  | some p => s.net.heap.get? p
  | none =>
    (createNetConn s.isServer env s.mNetManager head.mConnKey info).toOption.bind Prod.snd

end NetRecv

end Rsock
