import Rsock.ClientConns
import Rsock.SubGroup
import Mathlib.Data.List.FinRange
import Mathlib.Logic.Function.Basic

/-!
# The tunnel

One server and its clients. A datagram of a local program goes to a `ClientGroup`, as a data packet to
the `ServerGroup` (server/ServerGroup.cpp), there to the `SubGroup` with the id of the client, and out
to the target over the socket of an `SConn`; an answer of the target goes the same way back.

What the net groups output is sent. The network may lose, repeat, delay and reorder it, and it may make
up packets, but it forges no data packet and brings none to another client. `hops` records what goes over
the sockets of the `SConn`s.
-/

namespace Rsock

open CMem

namespace SubGroup

/-- `INetGroup::Alive`, which is `IGroup::Alive`. -/
def netAlive (s : SubGroup) : Except Fault Bool :=
  IGroup.anyAlive { alive := fun c : NetConn => return c.alive, flush := pure }
    s.net.mFakeNetGroup.heap s.net.mFakeNetGroup.group.mConns.entries

/-- `IAppGroup::Alive` -/
def alive (s : SubGroup) : Except Fault Bool :=
  if s.mConns.size ≠ 0 then do
    if ← s.netAlive then s.toIGroup.alive IConn.ops else return false
  else s.netAlive

/-- What a `ServerGroup` calls on its `SubGroup`s. -/
def ops : ConnOps SubGroup where
  key s := s.mKey
  alive := alive
  flush s := s.step .flush

end SubGroup

/-- The header and the payload of a packet that is sent. `RConn` has not if the result is an error. -/
def OutPacket.onWire (pkt : OutPacket) : Option (EncHead × List UInt8) :=
  if 0 ≤ pkt.ret then pkt.info.base.head.map (·, pkt.payload) else none

/-- The packets that are sent by the calls. -/
def onWire (ss : List SentCall) : List (EncHead × List UInt8) :=
  ss.filterMap fun c => c.packet.bind OutPacket.onWire

namespace Tunnel

/-! ## The clients -/

/-- A `ClientGroup`: its conns to local programs, and its net side. -/
structure Client where
  conns : ClientConns
  net : NetSide

/-- What a client meets while it processes a packet: the results of `sendto` and of the layers above the
    net conns, and what sending a reset of a conversation and an answer of the group meets. -/
structure InputEnv where
  ret : Int
  n : Int
  up : SendEnv
  answer : SendEnv

namespace Client

/-- `IAppGroup::Send` for the datagram of a `cconSend`. -/
def cconSend (env : SendEnv) (net : NetSide) : ClientConns.Note → Except Fault NetSide
  | .sent _ conv payload => net.sendData conv payload env
  | _ => return net

/-- `ClientGroup::udpRecvCb`. The net group returns `ret`. -/
def udpRecvCb (c : Client) (sAddr : UInt32) (port : UInt16) (payload : List UInt8) (env : SendEnv)
    (ret : Int) : Except Fault Client := do
  let conns ← c.conns.udpRecvCb sAddr port payload ret
  let net ← (conns.notes.drop c.conns.notes.length).foldlM (cconSend env) c.net
  return { conns := conns, net := net }

/-- The resets of conversations among the notes. -/
def convRsts (up : SendEnv) (ns : List ClientConns.Note) : List (UInt32 × SendEnv) :=
  ns.filterMap fun
    | .convRst conv => some (conv, up)
    | _ => none

/-- `IAppGroup::Input`. `INetGroup::Input` does nothing for a packet without a payload. -/
def input (c : Client) (o : ByteOrder) (info : Info) (payload : List UInt8) (env : InputEnv) :
    Except Fault Client :=
  match info.base.head with
  | none => .error .outOfBounds
  | some head =>
    if head.mCmd = EncHead.typeData ∧ payload.length = 0 then return c
    else do
      let conns ← c.conns.input o info payload env.ret
      let ups := convRsts env.up (conns.notes.drop c.conns.notes.length)
      let net ← c.net.input o info payload ups env.n env.answer
      return { conns := conns, net := net }

/-- `IAppGroup::Flush` -/
def flush (c : Client) : Except Fault Client := do
  let conns ← c.conns.flush
  let net ← c.net.step .flush
  return { conns := conns, net := net }

/-- Anything else that can happen to the net side. -/
def netStep (c : Client) : NetSide.Event → Except Fault Client
  -- these come through the methods above
  | .sendData _ _ _ => return c
  | .input _ _ _ _ _ _ => return c
  | .flush => return c
  | e => do
    let net ← c.net.step e
    return { c with net := net }

/-- A client with no conns. -/
def new (id : IdBufType) : Client := { conns := ClientConns.new id, net := NetSide.new id }

end Client

/-- A datagram on the socket of an `SConn`. -/
structure Hop where
  /-- The `SubGroup`. -/
  group : Ptr
  /-- The `SConn` in it. -/
  conn : Ptr
  /-- `mKey` of the `SubGroup` -/
  groupId : String
  /-- `mConv` of the `SConn` -/
  conv : UInt32
  /-- It goes to the target, and does not come from it. -/
  toTarget : Bool
  payload : List UInt8
  deriving DecidableEq

end Tunnel

/-- The server and its clients, with what is under way between them. -/
structure Tunnel (n : Nat) where
  clients : Fin n → Tunnel.Client
  server : IGroup SubGroup
  /-- The headers and payloads of the packets the server has sent. -/
  down : List (EncHead × List UInt8) := []
  /-- What has gone over the sockets, latest last. -/
  hops : List Tunnel.Hop := []

namespace Tunnel

variable {n : Nat}

/-- What can happen to the tunnel. A packet that has not been sent does not come in. -/
inductive Event (n : Nat) where
  /-- A local program of the client sends a datagram. -/
  | udpRecvCb (i : Fin n) (sAddr : UInt32) (port : UInt16) (payload : List UInt8) (env : SendEnv)
    (ret : Int)
  | clientFlush (i : Fin n)
  /-- A packet from the server comes to the client. -/
  | clientInput (i : Fin n) (o : ByteOrder) (info : Info) (payload : List UInt8) (env : InputEnv)
  /-- Anything else that can happen to the net side of the client. -/
  | clientNet (i : Fin n) (e : NetSide.Event)
  /-- A packet comes to the server. `mgr` is the net manager, `initRet` what `Init` of a new `SubGroup`
      returns. -/
  | serverRecv (o : ByteOrder) (env : AcceptEnv) (info : Info) (payload : List UInt8)
    (answer : SendEnv) (mgr : ServerNetManager) (initRet : Int)
  /-- Anything but a packet that can happen to a `SubGroup`. -/
  | subGroup (g : Ptr) (e : SubGroup.Event)
  | serverFlush

/-! ## The network -/

/-- A client has sent the packet. -/
def sentUp (t : Tunnel n) (head : EncHead) (payload : List UInt8) : Bool :=
  (List.finRange n).any fun i => (onWire (t.clients i).net.sends).any (· == (head, payload))

/-- The server has sent the packet to the client with the id. -/
def sentDown (t : Tunnel n) (id : IdBufType) (head : EncHead) (payload : List UInt8) : Bool :=
  head.mIdBuf == id && t.down.any (· == (head, payload))

/-- A packet with the header can come in. -/
def comes (sent : EncHead → List UInt8 → Bool) (info : Info) (payload : List UInt8) : Bool :=
  match info.base.head with
  | none => false
  | some head => head.mCmd != EncHead.typeData || sent head payload

/-! ## The server -/

/-- What a note of the `SubGroup` `s` at `g` says about its sockets. -/
def hopOf (g : Ptr) (s : SubGroup) : SubGroup.Note → Option Hop
  | .onRecv c payload => (s.mHeap.get? c).map fun conn =>
      { group := g, conn := c, groupId := s.mKey, conv := conn.obj.mConv, toTarget := true,
        payload := payload }
  | .netConnRst _ => none

/-- What has gone over the sockets from `s` to `s'`. -/
def hopsOf (g : Ptr) (s s' : SubGroup) : List Hop :=
  (s'.notes.drop s.notes.length).filterMap (hopOf g s')

/-- The `SubGroup` at `g` goes from `s` to `s'`, with these datagrams over its sockets. -/
def setGroup (t : Tunnel n) (g : Ptr) (s s' : SubGroup) (hops : List Hop) : Tunnel n :=
  { t with server.mHeap := t.server.mHeap.store g s',
           down := t.down ++ onWire (s'.net.sends.drop s.net.sends.length), hops := t.hops ++ hops }

/-- `conn->Input` of the `SubGroup` at `g`. -/
def subGroupInput (t : Tunnel n) (g : Ptr) (o : ByteOrder) (env : AcceptEnv) (info : Info)
    (payload : List UInt8) (answer : SendEnv) : Except Fault (Tunnel n) := do
  let s ← t.server.mHeap.deref g
  let s' ← s.input o env info payload answer
  return t.setGroup g s s' (hopsOf g s s')

/-- `ServerGroup::OnRecv` -/
def onRecv (t : Tunnel n) (o : ByteOrder) (env : AcceptEnv) (info : Info) (payload : List UInt8)
    (answer : SendEnv) (mgr : ServerNetManager) (initRet : Int) : Except Fault (Tunnel n) :=
  if 0 < payload.length then
    match info.base.head with
    | none => .error .assertFailed
    | some hd =>
      let groupId := idBuf2Str hd.mIdBuf
      match t.server.connOfKey groupId with
      | some g => t.subGroupInput g o env info payload answer
      | none =>
        -- `newConn` returns null if `Init` fails
        if initRet ≠ 0 then return t
        else
          let server := t.server.addConn SubGroup.ops (SubGroup.new hd.mIdBuf mgr)
          { t with server := server }.subGroupInput t.server.mHeap.cells.length o env info payload
            answer
  else return t

/-- A datagram from the target comes to the `SConn` at `c` of the `SubGroup` at `g`. -/
def sconnSend (t : Tunnel n) (g c : Ptr) (payload : List UInt8) (env : SendEnv) (ret : Int) :
    Except Fault (Tunnel n) := do
  let s ← t.server.mHeap.deref g
  let conn ← s.mHeap.deref c
  let s' ← s.step (.sconnSend c payload env ret)
  let hop : Hop :=
    { group := g, conn := c, groupId := s.mKey, conv := conn.obj.mConv, toTarget := false,
      payload := payload }
  return t.setGroup g s s' [hop]

def subGroupStep (t : Tunnel n) (g : Ptr) : SubGroup.Event → Except Fault (Tunnel n)
  -- a packet comes through `onRecv`
  | .input _ _ _ _ _ => return t
  | .sconnSend c payload env ret => t.sconnSend g c payload env ret
  | e => do
    let s ← t.server.mHeap.deref g
    let s' ← s.step e
    return t.setGroup g s s' []

/-! ## Everything that can happen -/

/-- The tunnel after the client has done something. -/
def setClient (t : Tunnel n) (i : Fin n) (c : Client) : Tunnel n :=
  { t with clients := Function.update t.clients i c }

/-- What one event of the tunnel does. -/
def step (ids : Fin n → IdBufType) (t : Tunnel n) : Event n → Except Fault (Tunnel n)
  | .udpRecvCb i sAddr port payload env ret => do
    let c ← (t.clients i).udpRecvCb sAddr port payload env ret
    return t.setClient i c
  | .clientFlush i => do
    let c ← (t.clients i).flush
    return t.setClient i c
  | .clientInput i o info payload env =>
    if comes (t.sentDown (ids i)) info payload then do
      let c ← (t.clients i).input o info payload env
      return t.setClient i c
    else return t
  | .clientNet i e => do
    let c ← (t.clients i).netStep e
    return t.setClient i c
  | .serverRecv o env info payload answer mgr initRet =>
    if comes t.sentUp info payload then t.onRecv o env info payload answer mgr initRet else return t
  | .subGroup g e => t.subGroupStep g e
  | .serverFlush => do
    let server ← t.server.flush SubGroup.ops
    return { t with server := server }

/-- The clients have just started, and the server has no `SubGroup`. -/
def new (ids : Fin n → IdBufType) (serverKey : String) : Tunnel n where
  clients i := Client.new (ids i)
  server := { mKey := serverKey }

end Tunnel

end Rsock
