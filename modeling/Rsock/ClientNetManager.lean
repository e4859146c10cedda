import Rsock.NetGroupLife

/-!
# `ClientNetManager`: redialing

When a TCP conn of the client is lost, its server port is dialed again (client/ClientNetManager.cpp,
client/CConnErrHandler.cpp): the handler of the net group turns the message about the dead conn into a
pending dial, a timer starts the dials that are due, and a dial that succeeds gives the group a new
conn. `CSockApp.step` is everything that can happen after start-up while the app is not closing.
-/

namespace Rsock

open CMem

/-- `ClientNetManager::DialHelper`, an entry of `mPending`. -/
structure DialHelper where
  info : ConnInfo
  nRetry : Int := 0
  nextRetryMs : UInt64 := 0
  durationMs : UInt64 := 1000
  /-- The number of the request, while one is running. -/
  req : Option Nat := none
  deriving DecidableEq

namespace DialHelper

/-- `DialHelper::dialFailed`: the entry waits for its next retry, from now on. -/
def dialFailed (d : DialHelper) (now : UInt64) : DialHelper :=
  let durationMs := if d.durationMs * 2 > 60000 then 1000 else d.durationMs * 2
  { d with nRetry := d.nRetry - 1, durationMs := durationMs, nextRetryMs := now + durationMs }

end DialHelper

/-- `class ClientNetManager` -/
structure ClientNetManager where
  mPending : List DialHelper := []
  mNetworkAlive : Bool := true
  /-- How many requests have been made. -/
  reqs : Nat := 0

namespace ClientNetManager

/-- `INT_MAX` -/
def maxRetry : Int := 2147483647

/-- `ClientNetManager::DialTcpAsync`: the info joins the dials that wait for their turn. -/
def dialTcpAsync (m : ClientNetManager) (info : ConnInfo) (now : UInt64) : ClientNetManager :=
  let helper : DialHelper := { info := info }
  { m with mPending := m.mPending ++
      [{ helper with nRetry := maxRetry, nextRetryMs := now + helper.durationMs }] }

/-- The loop of `ClientNetManager::flushPending`, where `connects` are the results of the calls of
    `NetUtil::ConnectTcp`. `reqs` counts the requests. -/
def flushLoop (now : UInt64) : List Bool → Nat → List DialHelper → List DialHelper × Nat
  | _, reqs, [] => ([], reqs)
  | connects, reqs, helper :: l =>
    if helper.nRetry ≤ 0 then flushLoop now connects reqs l
    else if helper.req.isNone ∧ now ≥ helper.nextRetryMs then
      if connects.headD false then
        let (l, n) := flushLoop now connects.tail (reqs + 1) l
        ({ helper with req := some reqs } :: l, n)
      else
        let (l, n) := flushLoop now connects.tail reqs l
        (helper.dialFailed now :: l, n)
    else
      let (l, n) := flushLoop now connects reqs l
      (helper :: l, n)

/-- `ClientNetManager::flushPending`. `connects` are the results of `NetUtil::ConnectTcp`. -/
def flushPending (m : ClientNetManager) (now : UInt64) (connects : List Bool) : ClientNetManager :=
  if m.mNetworkAlive then
    let (pending, reqs) := flushLoop now connects m.reqs m.mPending
    { m with mPending := pending, reqs := reqs }
  else m

end ClientNetManager

/-- `GetTcpInfo` of a handle with the addresses `sock`: a call that fails leaves the info as it is. -/
def getTcpInfo (nret : Int) (sock : ConnInfo) : TcpInfo :=
  if nret = 0 then TcpInfo.ofConnInfo sock else {}

/-- What `onTcpConnect` finds out about the handle of a request: the local address, the results of the
    three calls of `GetTcpInfo`, what the capture thread adds during the wait, the result of
    `uv_read_start` and the time. The peer is the one that was dialed. -/
structure ConnectEnv where
  src : UInt32
  sp : UInt16
  nret : Int := 0
  nretNew : Int := 0
  nretConnect : Int := 0
  wakes : List (List TcpAckPool.Add) := []
  late : List TcpAckPool.Add := []
  readStart : Int := 0
  now : UInt64

namespace ConnectEnv

/-- The addresses of the new handle's socket. -/
def sock (env : ConnectEnv) (info : ConnInfo) : ConnInfo :=
  { src := env.src, sp := env.sp, dst := info.dst, dp := info.dp }

def dialEnv (env : ConnectEnv) (info : ConnInfo) : DialEnv where
  nret := env.nret
  tcpInfo := getTcpInfo env.nret (env.sock info)
  wakes := env.wakes
  late := env.late
  sock := (getTcpInfo env.nretNew (env.sock info)).toConnInfo
  readStart := env.readStart
  now := env.now

end ConnectEnv

/-- The client: the net group of its `ClientGroup`, its net manager and its ack pool. -/
structure CSockApp where
  mBridge : ConnLife := {}
  mNetManager : ClientNetManager := {}
  mAckPool : TcpAckPool

namespace CSockApp

/-- The conns `addUdpNetConn` and `addTcpNetConn` give to the group at start-up. -/
def startUp (ackPool : TcpAckPool) (conns : List NetConn) : Except Fault CSockApp := do
  let bridge ← conns.foldlM ConnLife.addNetConn {}
  return { mBridge := bridge, mAckPool := ackPool }

/-- `CConnErrHandler::OnNetConnErr` -/
def onNetConnErr (s : CSockApp) (info : Info) (now : UInt64) : CSockApp :=
  match info with
  | .tcp i => { s with mNetManager := s.mNetManager.dialTcpAsync { i.toConnInfo with sp := 0 } now }
  | .udp _ => s

/-- `INetGroup::handleMessage`, with what its error handler does. -/
def handleMessage (s : CSockApp) (now : UInt64) : Except Fault CSockApp := do
  let (bridge, info) ← s.mBridge.handleMessage
  let s := { s with mBridge := bridge }
  match info with
  | some info => return s.onNetConnErr info now
  | none => return s

/-- `CConnErrHandler::TcpDialAsyncCb` with a conn. -/
def tcpDialAsyncCb (s : CSockApp) (conn : FakeTcp) (readStart : Int) : Except Fault CSockApp :=
  let (conn, n) := conn.init readStart
  if n ≠ 0 then return s
  else do
    let bridge ← s.mBridge.addNetConn (.fakeTcp conn)
    return { s with mBridge := bridge }

/-- `ClientNetManager::onTcpConnect` for the entry `d` of `mPending`, where `before` and `after` are the
    other entries. -/
def onTcpConnectEntry (s : CSockApp) (status : Int) (env : ConnectEnv)
    (before : List DialHelper) (d : DialHelper) (after : List DialHelper) :
    Except Fault CSockApp :=
  let failed := { d with req := none }.dialFailed env.now
  let s' := { s with mNetManager.mPending := before ++ failed :: after }
  if status ≠ 0 then return s'
  else do
    let (pool, c) ← ClientNetManager.createINetConn s.mAckPool (env.dialEnv d.info)
    let tcpInfo := getTcpInfo env.nretConnect (env.sock d.info)
    let dialFailed : CSockApp :=
      { s' with mAckPool := (pool.removeInfo (TcpInfo.ofConnInfo d.info)).1 }
    match c with
    | none => return dialFailed
    | some c =>
      if env.nretConnect ≠ 0 ∨ tcpInfo.dp = 0 ∨ tcpInfo.dst = 0 then return dialFailed
      else do
        let s ← tcpDialAsyncCb { s with mAckPool := (pool.removeInfo tcpInfo).1 } c env.readStart
        return { s with mNetManager.mPending := before ++ after }

/-- `ClientNetManager::onTcpConnect`: the loop looks for the entry with the request. -/
def onTcpConnect (s : CSockApp) (req : Nat) (status : Int) (env : ConnectEnv) :
    Except Fault CSockApp :=
  match s.mNetManager.mPending.span fun d => d.req ≠ some req with
  | (before, d :: after) => s.onTcpConnectEntry status env before d after
  | (_, []) => return s

/-- What can happen to a client with its net manager. -/
inductive Event where
  /-- The capture thread records a handshake. -/
  | addInfoFromPeer (a : TcpAckPool.Add)
  /-- `INetGroup::Input`; `CNetGroup::CreateNetConn` returns null. -/
  | input (info : Info) (ups : List OutCall) (n : Int)
  | send (call : OutCall)
  | flush
  /-- A reset or a keepalive timeout. -/
  | notifyErr (key : IntKeyType) (err : ErrCode)
  | onTcpError (p : ConnPtr)
  | handleMessage (now : UInt64)
  | flushPending (now : UInt64) (connects : List Bool)
  | onTcpConnect (req : Nat) (status : Int) (env : ConnectEnv)
  | onNetConnected
  | onNetDisconnected

/-- An event of the net group alone. -/
def bridgeStep (s : CSockApp) (e : ConnLife.Event) : Except Fault CSockApp := do
  let bridge ← s.mBridge.step e
  return { s with mBridge := bridge }

/-- What one event of the client does to its dials and pools. -/
def step (s : CSockApp) : Event → Except Fault CSockApp
  | .addInfoFromPeer a => return { s with mAckPool := (s.mAckPool.addInfoFromPeer a).1 }
  | .input info ups n => s.bridgeStep (.input info none ups n)
  | .send call => s.bridgeStep (.send call)
  | .flush => s.bridgeStep .flush
  | .notifyErr key err => s.bridgeStep (.notifyErr key err)
  | .onTcpError p => s.bridgeStep (.onTcpError p)
  | .handleMessage now => s.handleMessage now
  | .flushPending now connects =>
    return { s with mNetManager := s.mNetManager.flushPending now connects }
  | .onTcpConnect req status env => s.onTcpConnect req status env
  | .onNetConnected => return { s with mNetManager.mNetworkAlive := true }
  | .onNetDisconnected => return { s with mNetManager.mNetworkAlive := false }

end CSockApp

end Rsock
