import Rsock.TcpAckPool

/-!
# `ServerNetManager`

The accepted TCP handles of the server (server/ServerNetManager.cpp). A connection is established
when its handle is in `mPool` and its handshake is in the ack pool; the two are filled by different
threads. `uv_tcp_t *` is the number of the handle, and `mClosed` records the calls of `uv_close`.
-/

namespace Rsock

/-- A `uv_tcp_t`, by its number. -/
abbrev UvTcp := Nat

/-- `ServerNetManager::ConnHelper` -/
structure ConnHelper where
  conn : Option UvTcp
  expireMs : UInt64
  deriving DecidableEq

/-- `class ServerNetManager`, without its timer and its listening handles. -/
structure ServerNetManager where
  mTcpAckPool : TcpAckPool
  mPool : StdMap TcpInfo ConnHelper TcpCmpFn.Lt := StdMap.empty
  /-- The handles `closeTcp` was called with, latest first. -/
  mClosed : List UvTcp := []

namespace ServerNetManager

def poolPersistMs (s : ServerNetManager) : UInt64 := s.mTcpAckPool.expireIntervalMs

/-- The server closes the handle. -/
def closeTcp (s : ServerNetManager) (tcp : UvTcp) : ServerNetManager :=
  { s with mClosed := tcp :: s.mClosed }

/-- The pool of the acks forgets the info. -/
def removeInfo (s : ServerNetManager) (info : TcpInfo) : ServerNetManager :=
  { s with mTcpAckPool := (s.mTcpAckPool.removeInfo info).1 }

/-- `ServerNetManager::add2Pool`, where `GetTcpInfo` returns `nret` and leaves `tcpInfo`. -/
def add2Pool (s : ServerNetManager) (tcp : UvTcp) (nret : Int) (tcpInfo : TcpInfo) (now : UInt64) :
    ServerNetManager :=
  if nret = 0 then
    { s with mPool := s.mPool.emplace tcpInfo ⟨some tcp, now + s.poolPersistMs⟩ }
  else s.removeInfo tcpInfo

/-- `ServerNetManager::OnNewConnection`. `nret` and `tcpInfo` are what `GetTcpInfo` reports. -/
def onNewConnection (s : ServerNetManager) (tcp : UvTcp) (nret : Int) (tcpInfo : TcpInfo)
    (now : UInt64) : ServerNetManager :=
  s.add2Pool tcp nret tcpInfo now

/-- `ServerNetManager::GetTcp`: the handle, and the info as the caller sees it afterwards. `wakes` and
    `late` are what the capture thread adds while `Wait2TransferInfo` waits. -/
def getTcp (s : ServerNetManager) (info : TcpInfo) (wakes : List (List TcpAckPool.Add))
    (late : List TcpAckPool.Add) : ServerNetManager × Option UvTcp × TcpInfo :=
  match s.mPool.find? info with
  | none => (s.removeInfo info, none, info)
  | some (key, helper) =>
    match helper.conn with
    | none => (s, none, info)
    | some tcp =>
      let s := { s with mPool := s.mPool.erase key }
      match s.mTcpAckPool.wait2TransferInfo info wakes late with
      | (pool, some info) => ({ s with mTcpAckPool := pool }, some tcp, info)
      | (pool, none) => (({ s with mTcpAckPool := pool }.closeTcp tcp).removeInfo info, none, info)

/-- One pass of the loop of `ServerNetManager::OnFlush`. -/
def flushEntry (timestamp : UInt64) (s : ServerNetManager) (e : TcpInfo × ConnHelper) :
    ServerNetManager :=
  match e.2.conn with
  | some tcp =>
    if timestamp ≥ e.2.expireMs then { s.closeTcp tcp with mPool := s.mPool.erase e.1 } else s
  | none => { s with mPool := s.mPool.erase e.1 }

/-- `ServerNetManager::OnFlush`: handles that nobody has asked for in time are closed. -/
def onFlush (s : ServerNetManager) (timestamp : UInt64) : ServerNetManager :=
  s.mPool.entries.foldl (flushEntry timestamp) s

/-- One pass of the loop of `ServerNetManager::Close`. -/
def closeEntry (s : ServerNetManager) (e : TcpInfo × ConnHelper) : ServerNetManager :=
  match e.2.conn with
  | some tcp => { s.closeTcp tcp with mPool := s.mPool.assign e.1 { e.2 with conn := none } }
  | none => s

/-- `ServerNetManager::Close`, for the pool. -/
def close (s : ServerNetManager) : ServerNetManager := s.mPool.entries.foldl closeEntry s

/-! ## Events -/

/-- What the manager is called with. -/
inductive Event where
  /-- The capture thread records a handshake. -/
  | addInfoFromPeer (a : TcpAckPool.Add)
  /-- The event loop accepts a connection. -/
  | onNewConnection (tcp : UvTcp) (nret : Int) (tcpInfo : TcpInfo) (now : UInt64)
  /-- A data packet makes `SNetGroup::CreateNetConn` ask for the handle. -/
  | getTcp (info : TcpInfo) (wakes : List (List TcpAckPool.Add)) (late : List TcpAckPool.Add)

/-- One event, with the answer of `GetTcp`. -/
def step (s : ServerNetManager) : Event → ServerNetManager × Option (Option UvTcp × TcpInfo)
  | .addInfoFromPeer a =>
    ({ s with mTcpAckPool := (s.mTcpAckPool.addInfoFromPeer a).1 }, none)
  | .onNewConnection tcp nret tcpInfo now => (s.onNewConnection tcp nret tcpInfo now, none)
  | .getTcp info wakes late => ((s.getTcp info wakes late).1, some (s.getTcp info wakes late).2)

/-- A run, with the answers of the `GetTcp` calls in order. -/
def run (s : ServerNetManager) : List Event → ServerNetManager × List (Option UvTcp × TcpInfo)
  | [] => (s, [])
  | e :: es => (((s.step e).1.run es).1, (s.step e).2.toList ++ ((s.step e).1.run es).2)

end ServerNetManager

/-! ## The handles -/

/-- The net manager and the handles the event loop gives it, which are numbered as they come. -/
structure HandlePool where
  mgr : ServerNetManager
  /-- `Close` has been called: `mTcpAckPool` and the callback of `mListenPool` are null. -/
  closed : Bool := false
  /-- How many handles `OnNewConnection` has been called with. -/
  accepted : Nat := 0
  /-- The handles `GetTcp` has returned, latest first. -/
  handedOut : List UvTcp := []

namespace HandlePool

/-- The calls that bring handles into the pool or take them out. -/
inductive Call where
  | addInfoFromPeer (a : TcpAckPool.Add)
  /-- `TcpListenPool::newConn`: `GetTcpInfo` returns `nret` for the handle and leaves `tcpInfo`. -/
  | newConn (nret : Int) (tcpInfo : TcpInfo) (now : UInt64)
  | getTcp (info : TcpInfo) (wakes : List (List TcpAckPool.Add)) (late : List TcpAckPool.Add)
  | onFlush (timestamp : UInt64)
  | close

open CMem

/-- `GetTcp`. Without an ack pool it gets no further than the pool of handles. -/
def getTcp (s : HandlePool) (info : TcpInfo) (wakes : List (List TcpAckPool.Add))
    (late : List TcpAckPool.Add) : Except Fault HandlePool :=
  if s.closed then
    match s.mgr.mPool.get? info with
    | some ⟨none, _⟩ => return s
    | _ => .error .nullDeref
  else
    let (mgr, tcp, _) := s.mgr.getTcp info wakes late
    return { s with mgr := mgr, handedOut := tcp.toList ++ s.handedOut }

/-- What one call does to the pool and to the handles. -/
def step (s : HandlePool) : Call → Except Fault HandlePool
  | .addInfoFromPeer a => return { s with mgr := (s.mgr.step (.addInfoFromPeer a)).1 }
  | .newConn nret tcpInfo now =>
    if s.closed then .error .nullDeref
    else return { s with mgr := s.mgr.onNewConnection s.accepted nret tcpInfo now,
                         accepted := s.accepted + 1 }
  | .getTcp info wakes late => s.getTcp info wakes late
  | .onFlush timestamp => return { s with mgr := s.mgr.onFlush timestamp }
  | .close => return { s with mgr := s.mgr.close, closed := true }

end HandlePool

end Rsock
