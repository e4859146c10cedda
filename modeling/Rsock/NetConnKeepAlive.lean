import Rsock.NetGroupLife

/-!
# `NetConnKeepAlive` and the control packets of an app group

Besides data an `IAppGroup` sends resets (callbacks/ConnReset.cpp) and keepalive packets
(callbacks/NetConnKeepAlive.cpp) through its net group. The keepalive asks for a sign of life of every
conn that has sent something: `mReqMap` counts the requests of a key that were not answered, and a
conn that would need one more than `maxRetry` is declared dead.

`NetSide` is the part of an `IAppGroup` that has to do with its net group. `NetSide.step` is
everything that can happen to it; `notes` records what can be observed, and `sends` what `doSend` was
called with and what it has output.
-/

namespace Rsock

open CMem

/-- `class NetConnKeepAlive`: how often it has asked for a conn again, and whether there is a network. -/
structure NetConnKeepAlive where
  mReqMap : StdMap IntKeyType Int (· < ·) := StdMap.empty
  /-- `mRouteObserver->Online()` -/
  online : Bool := true

namespace NetConnKeepAlive

/-- `MAX_RETRY` -/
def maxRetry : Int := 3

/-- `REQUEST_DELAY` in milliseconds. -/
def requestDelay : Int := 15000

/-- `NetConnKeepAlive::canSendRequest` -/
def canSendRequest (conn : INetConn) (timestampMs : UInt64) : Bool :=
  if conn.mNew then false
  else if timestampMs > conn.mEstablishedTimeStampMs then
    -- `int df` keeps the low 32 bits of the difference
    let df := (timestampMs - conn.mEstablishedTimeStampMs).toUInt32.toBitVec.toInt
    df ≥ requestDelay
  else false

/-- `NetConnKeepAlive::RemoveRequest` -/
def removeRequest (ka : NetConnKeepAlive) (connKey : IntKeyType) : NetConnKeepAlive :=
  { ka with mReqMap := ka.mReqMap.erase connKey }

/-- `NetConnKeepAlive::RemoveAllRequest` -/
def removeAllRequest (ka : NetConnKeepAlive) : NetConnKeepAlive :=
  { ka with mReqMap := StdMap.empty }

end NetConnKeepAlive

/-- What a call of `doSend` meets: what `rand` returns, and what the output callback returns. -/
structure SendEnv where
  picks : List Nat
  out : Info → List UInt8 → Int

/-- A packet that reaches the output callback of a net group: the conn it leaves on, as it was before,
    the info, whose header is sent, and the payload. -/
structure OutPacket where
  p : ConnPtr
  conn : NetConn
  info : Info
  payload : List UInt8
  /-- The result of `INetConn::Output`. -/
  ret : Int

/-- What a call of `INetGroup::doSend` hands to the output callback. -/
def INetGroup.doSendPacket (g : INetGroup) (h : Heap NetConn) (call : OutCall) :
    Option OutPacket := do
  let p ← g.doSendConn h call.toSendCall
  let conn ← h.get? p
  -- the callback passes on what it gets
  let (_, n, info, payload) ←
    (conn.output call.hd call.payload fun info payload =>
      .ok (call.out info payload, info, payload)).toOption
  return { p := p, conn := conn, info := info, payload := payload, ret := n }

/-- A call of `INetGroup::doSend`, with the packet it has output. -/
structure SentCall where
  call : OutCall
  packet : Option OutPacket

/-- A conn as its constructor leaves it. -/
abbrev NewConn := { c : NetConn // c.toINetConn.mNew = true }

/-- What is noted of the net side of a group. -/
inductive Note where
  /-- A packet has been output through the conn. -/
  | output (p : ConnPtr) (cmd : UInt8)
  /-- `OnFlush` begins. The group has conns with these keys. -/
  | flush (keys : List IntKeyType)
  /-- `canSendRequest` holds for the conn with the key. -/
  | canSend (key : IntKeyType)
  /-- `SendRequest` is called for the conn. -/
  | request (p : ConnPtr) (key : IntKeyType)
  /-- `OnFlush` finds the retries of the key used up. The flag is true if it calls `NotifyErr`. -/
  | timeout (key : IntKeyType) (notified : Bool)
  | response (key : IntKeyType)
  /-- The network goes online or offline. -/
  | route
  deriving DecidableEq

/-- The net side of an app group: its header, its net group and its keepalive. -/
structure NetSide where
  mHead : EncHead := {}
  mFakeNetGroup : ConnLife := {}
  mKeepAlive : NetConnKeepAlive := {}
  /-- The calls of `doSend`, latest last. -/
  sends : List SentCall := []
  /-- What has happened, latest last. -/
  notes : List Note := []

namespace NetSide

/-- Notes what an event did to the outside. -/
def note (s : NetSide) (n : Note) : NetSide := { s with notes := s.notes ++ [n] }

/-! ## Sending -/

/-- The arguments `IAppGroup::Send` calls `doSend` with: the header is that of the group. -/
def sendCall (s : NetSide) (payload : List UInt8) (keyOfConnToReset : IntKeyType) (env : SendEnv) :
    OutCall where
  hd := s.mHead
  payload := payload
  keyOfConnToReset := keyOfConnToReset
  picks := env.picks
  out := env.out

/-- The call is over. `INetConn::Output` has left the key of its conn in the header. -/
def record (s : NetSide) (call : OutCall) (packet : Option OutPacket) : NetSide :=
  let s := { s with sends := s.sends ++ [{ call := call, packet := packet }] }
  match packet with
  | none => s
  | some pkt =>
    { s with mHead := s.mHead.setConnKey pkt.conn.intKey }.note (.output pkt.p call.hd.mCmd)

/-- `IAppGroup::Send` -/
def send (s : NetSide) (payload : List UInt8) (keyOfConnToReset : IntKeyType) (env : SendEnv) :
    Except Fault NetSide := do
  let call := s.sendCall payload keyOfConnToReset env
  let packet := s.mFakeNetGroup.group.doSendPacket s.mFakeNetGroup.heap call
  let net ← s.mFakeNetGroup.step (.send call)
  return { s with mFakeNetGroup := net }.record call packet

/-- `ClientGroup::cconSend` and `SubGroup::sconnSend` -/
def sendData (s : NetSide) (conv : UInt32) (payload : List UInt8) (env : SendEnv) :
    Except Fault NetSide :=
  { s with mHead.mConv := conv }.send payload 0 env

/-- The header has the command during the call and is a data header again after it. -/
def sendWithCmd (s : NetSide) (cmd : UInt8) (payload : List UInt8) (keyOfConnToReset : IntKeyType)
    (env : SendEnv) : Except Fault NetSide := do
  let s ← { s with mHead := s.mHead.setCmd cmd }.send payload keyOfConnToReset env
  return { s with mHead := s.mHead.setCmd EncHead.typeData }

/-- `IAppGroup::doSendCmd` -/
def doSendCmd (s : NetSide) (cmd : UInt8) (payload : List UInt8) (env : SendEnv) :
    Except Fault NetSide :=
  s.sendWithCmd cmd payload 0 env

/-- `IAppGroup::SendNetConnReset` -/
def sendNetConnReset (s : NetSide) (payload : List UInt8) (keyOfConnToReset : IntKeyType)
    (env : SendEnv) : Except Fault NetSide :=
  s.sendWithCmd EncHead.typeNetconnRst payload keyOfConnToReset env

/-- `ConnReset::SendNetConnRst` -/
def sendNetConnRst (s : NetSide) (o : ByteOrder) (key : IntKeyType) (env : SendEnv) :
    Except Fault NetSide := do
  let p ← KeyGenerator.encodeKey o (Cursor.start omMaxPktSize) key
  s.sendNetConnReset p.written key env

/-- `ConnReset::SendConvRst` -/
def sendConvRst (s : NetSide) (o : ByteOrder) (conv : UInt32) (env : SendEnv) :
    Except Fault NetSide := do
  let p ← encodeUint32 o conv (Cursor.start 4)
  s.doSendCmd EncHead.typeConvRst p.written env

/-- `NetConnKeepAlive::SendRequest` -/
def sendRequest (s : NetSide) (o : ByteOrder) (connKey : IntKeyType) (env : SendEnv) :
    Except Fault NetSide := do
  let p ← KeyGenerator.encodeKey o (Cursor.start 32) connKey
  s.doSendCmd EncHead.typeKeepAliveReq p.written env

/-- `NetConnKeepAlive::SendResponse` -/
def sendResponse (s : NetSide) (o : ByteOrder) (connKey : IntKeyType) (env : SendEnv) :
    Except Fault NetSide := do
  let p ← KeyGenerator.encodeKey o (Cursor.start 32) connKey
  s.doSendCmd EncHead.typeKeepAliveResp p.written env

/-! ## `NetConnKeepAlive::OnFlush` -/

/-- The loop of `removeInvalidRequest` over the keys of a copy of `mReqMap`. -/
def removeInvalidRequest : List IntKeyType → NetSide → Except Fault NetSide
  | [], s => return s
  | key :: keys, s => do
    match ← s.mFakeNetGroup.group.connOfIntKey key with
    | some _ => removeInvalidRequest keys s
    | none => removeInvalidRequest keys { s with mKeepAlive := s.mKeepAlive.removeRequest key }

/-- The body of the loop of `OnFlush` for a conn a request can be sent for. -/
def request (s : NetSide) (o : ByteOrder) (p : ConnPtr) (connKey : IntKeyType) (env : SendEnv) :
    Except Fault NetSide :=
  let s := s.note (.canSend connKey)
  match s.mKeepAlive.mReqMap.get? connKey with
  | some n =>
    let s := { s with mKeepAlive.mReqMap := s.mKeepAlive.mReqMap.assign connKey (n + 1) }
    if n + 1 < NetConnKeepAlive.maxRetry then
      (s.note (.request p connKey)).sendRequest o connKey env
    else return s
  | none =>
    let s := { s with mKeepAlive.mReqMap := s.mKeepAlive.mReqMap.emplace connKey 0 }
    (s.note (.request p connKey)).sendRequest o connKey env

/-- The loop of `OnFlush` over a copy of the conns. -/
def requestLoop (o : ByteOrder) (timestamp : UInt64) (env : IntKeyType → SendEnv) :
    List ConnPtr → NetSide → Except Fault NetSide
  | [], s => return s
  | p :: ps, s => do
    let conn ← s.mFakeNetGroup.heap.deref p
    if NetConnKeepAlive.canSendRequest conn.toINetConn timestamp then
      let s ← s.request o p conn.intKey (env conn.intKey)
      requestLoop o timestamp env ps s
    else requestLoop o timestamp env ps s

/-- The loop of `OnFlush` over a copy of `mReqMap`. -/
def timeoutLoop : List (IntKeyType × Int) → NetSide → Except Fault NetSide
  | [], s => return s
  | (key, n) :: l, s =>
    if n ≥ NetConnKeepAlive.maxRetry then do
      let s := { s with mKeepAlive := s.mKeepAlive.removeRequest key }
      let (h, notified) ← s.mFakeNetGroup.group.notifyErr s.mFakeNetGroup.heap key .timeout
      timeoutLoop l ({ s with mFakeNetGroup.heap := h }.note (.timeout key notified))
    else timeoutLoop l s

/-- `NetConnKeepAlive::OnFlush`: requests for the conns that have been silent, and an error for those that
    have not answered. -/
def onFlush (s : NetSide) (o : ByteOrder) (timestamp : UInt64) (env : IntKeyType → SendEnv) :
    Except Fault NetSide := do
  let s := s.note (.flush (s.mFakeNetGroup.group.mConnMap.entries.map Prod.fst))
  let s ← removeInvalidRequest (s.mKeepAlive.mReqMap.entries.map Prod.fst) s
  if s.mKeepAlive.online then
    let s ← requestLoop o timestamp env (s.mFakeNetGroup.group.mConns.entries.map Prod.snd) s
    timeoutLoop s.mKeepAlive.mReqMap.entries s
  else return s

/-! ## Receiving -/

/-- `NetConnKeepAlive::Input` -/
def keepAliveInput (s : NetSide) (o : ByteOrder) (cmd : UInt8) (payload : List UInt8)
    (env : SendEnv) : Except Fault NetSide := do
  match ← IAppGroup.decodeKeySafe o payload with
  | none => return s
  | some connKey =>
    if cmd = EncHead.typeKeepAliveReq then
      match ← s.mFakeNetGroup.group.connOfIntKey connKey with
      | some _ => s.sendResponse o connKey env
      | none => s.sendNetConnRst o connKey env
    else if cmd = EncHead.typeKeepAliveResp then
      let _ ← s.mFakeNetGroup.group.connOfIntKey connKey
      return { s with mKeepAlive := s.mKeepAlive.removeRequest connKey }.note (.response connKey)
    else return s

/-- The resets the layers above send while they process the payload of a packet. -/
def sendConvRsts (o : ByteOrder) : List (UInt32 × SendEnv) → NetSide → Except Fault NetSide
  | [], s => return s
  | (conv, env) :: l, s => do
    let s ← s.sendConvRst o conv env
    sendConvRsts o l s

/-- `INetGroup::Input`. The conn, or the default conn, hands the packet to the layers above, which
    return `n`; a conn does its own bookkeeping after that. -/
def netInput (s : NetSide) (o : ByteOrder) (info : Info) (connKey : IntKeyType)
    (ups : List (UInt32 × SendEnv)) (n : Int) : Except Fault (NetSide × Int) := do
  match ← s.mFakeNetGroup.group.connOfIntKey connKey with
  | some p =>
    let s ← sendConvRsts o ups s
    let conn ← s.mFakeNetGroup.heap.deref p
    let (conn, n) ← conn.onRecv info n
    return ({ s with mFakeNetGroup.heap := s.mFakeNetGroup.heap.store p conn }, n)
  | none =>
    let s ← sendConvRsts o ups s
    return (s, INetGroup.errNoConn)

/-- `IAppGroup::Input`. A conversation reset concerns no net conn. -/
def input (s : NetSide) (o : ByteOrder) (info : Info) (payload : List UInt8)
    (ups : List (UInt32 × SendEnv)) (n : Int) (env : SendEnv) : Except Fault NetSide :=
  match info.base.head with
  | none => .error .outOfBounds
  | some head =>
    if head.mCmd = EncHead.typeData then do
      let (s, n) ← s.netInput o info head.mConnKey ups n
      if n = INetGroup.errNoConn then s.sendNetConnRst o head.mConnKey env else return s
    else if head.mCmd = EncHead.typeNetconnRst then do
      match ← IAppGroup.decodeKeySafe o payload with
      | some key =>
        let (h, _) ←
          IAppGroup.onRecvNetConnRst s.mFakeNetGroup.group s.mFakeNetGroup.heap key
        return { s with mFakeNetGroup.heap := h }
      | none => return s
    else if head.mCmd = EncHead.typeKeepAliveReq ∨ head.mCmd = EncHead.typeKeepAliveResp then
      s.keepAliveInput o head.mCmd payload env
    else return s

/-! ## Everything that can happen -/

/-- What can happen to the net side of an app group. What is random or answered from outside is given. -/
inductive Event where
  /-- At start-up, after a redial, or by `CreateNetConn` before the `input` of a packet. -/
  | addNetConn (conn : NewConn)
  | sendData (conv : UInt32) (payload : List UInt8) (env : SendEnv)
  | input (o : ByteOrder) (info : Info) (payload : List UInt8) (ups : List (UInt32 × SendEnv))
    (n : Int) (env : SendEnv)
  | processTcpFinOrRst (info : TcpInfo)
  | onTcpError (p : ConnPtr)
  /-- `IAppGroup::Flush` -/
  | flush
  /-- A `MSG_CONN_ERR` is dispatched. -/
  | handleMessage
  /-- `NetConnKeepAlive::OnFlush` -/
  | onFlush (o : ByteOrder) (timestamp : UInt64) (env : IntKeyType → SendEnv)
  | onNetConnected
  | onNetDisconnected

/-- An event of the net group alone. -/
def netStep (s : NetSide) (e : ConnLife.Event) : Except Fault NetSide := do
  let net ← s.mFakeNetGroup.step e
  return { s with mFakeNetGroup := net }

/-- `KeepAliveRouteObserver::OnNetConnected` and `OnNetDisconnected` -/
def setOnline (s : NetSide) (online : Bool) : NetSide :=
  { s with mKeepAlive := { s.mKeepAlive.removeAllRequest with online := online } }.note .route

/-- What one event of a net group and its keep-alive does. -/
def step (s : NetSide) : Event → Except Fault NetSide
  | .addNetConn conn => s.netStep (.addNetConn conn.1)
  | .sendData conv payload env => s.sendData conv payload env
  | .input o info payload ups n env => s.input o info payload ups n env
  | .processTcpFinOrRst info => do
    let (h, _) ←
      IAppGroup.processTcpFinOrRst s.mFakeNetGroup.group s.mFakeNetGroup.heap info
    return { s with mFakeNetGroup.heap := h }
  | .onTcpError p => s.netStep (.onTcpError p)
  | .flush => s.netStep .flush
  | .handleMessage => s.netStep .handleMessage
  | .onFlush o timestamp env => s.onFlush o timestamp env
  | .onNetConnected => return s.setOnline true
  | .onNetDisconnected => return s.setOnline false

/-- The net side of a group with the given id, as `IAppGroup::IAppGroup` leaves it. -/
def new (id : IdBufType) : NetSide := { mHead := { mIdBuf := id } }

end NetSide

end Rsock
