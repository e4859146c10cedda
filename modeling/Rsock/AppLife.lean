import Rsock.Lib.Ownership
import Rsock.Lib.StdMap
import Rsock.RConn

/-!
# The application from start to end

`ISockApp` (src/ISockApp.cpp) creates the parts of the program one after the other, any of which may fail,
runs them and closes them. Most parts are observers: they register at a service (src/service/IService.cpp)
when they are initialized and unregister when they are closed, and a service calls whoever is registered.
Here is who creates, registers, calls, closes and deletes what; what the parts do otherwise is left out.

An object has the name of the part it plays. `World` has the services and counts the objects that exist:
to call or to delete an object that does not exist is a fault. A pointer of the source that may be null is
a `Bool`, or an `Option` of what it points to. What the system and its libraries answer is given
(`InitEnv`, `Event`). What belongs to these is no `Obj`: the event loop and its handles, and the handle and
the thread of the capture. Nor are the conns of a group.
-/

namespace Rsock

open CMem

/-! ## The services -/

/-- `class IService`. Its observers are in the order in which they have registered. -/
structure IService (α : Type) where
  mObserver : List α := []
  mInited : Bool := false
  mVisitCount : Nat := 0
  mBlock : Bool := false

namespace IService

variable {α : Type} [DecidableEq α]

/-- The result is 0. -/
def init (s : IService α) : Except Fault (IService α) := do
  cassert (s.mInited = false)
  return { s with mInited := true }

/-- The result is 0. -/
def close (s : IService α) : Except Fault Unit := cassert (s.mObserver = [])

/-- `ConcurrentModificationException`, which nothing catches, is a failed assertion here. -/
def registerObserver (s : IService α) (observer : α) : Except Fault (IService α × Int) := do
  cassert (s.mVisitCount = 0)
  cassert (s.mInited = true)
  if observer ∈ s.mObserver then return (s, -1)
  else return ({ s with mObserver := s.mObserver ++ [observer] }, 0)

def unRegisterObserver (s : IService α) (observer : α) : Except Fault (IService α × Int) := do
  cassert (s.mVisitCount = 0)
  cassert (s.mInited = true)
  if observer ∈ s.mObserver then return ({ s with mObserver := s.mObserver.erase observer }, 0)
  else return (s, -1)

end IService

namespace AppLife

/-- The names under which `ServiceManager` has the services. -/
inductive ServiceName where
  | netService | routeService | timerService
  deriving DecidableEq

/-- The `IAppGroup`s: the `ClientGroup` of a client, and the `SubGroup` of a server under a key. -/
inductive GroupId where
  | client
  | sub (key : String)
  deriving DecidableEq

/-- The objects. An `IAppGroup` owns the last four. -/
inductive Obj where
  | errorHandler
  | appNetObserver | appTimer
  | tcpAckPool
  | clientNetManager | serverNetManager | netManagerTimer
  | rcap
  | rconn | rconnReset | rawTcp | libnet | syncConn
  | clientNetObserver | serverGroup
  | group (g : GroupId)
  | netGroup (g : GroupId)
  | connReset (g : GroupId)
  | netConnKeepAlive (g : GroupId)
  | keepAliveRouteObserver (g : GroupId)
  deriving DecidableEq

/-- The state of the program, as far as it is told here. -/
structure World where
  /-- The services of `ServiceManager`, while it exists. -/
  services : Option (ServiceName → IService Obj) := none
  /-- How many objects there are of each name. -/
  live : Obj → Nat := fun _ => 0

/-- A part of the program. -/
abbrev M := StateT World (Except Fault)

/-- A part of the program that ends with a fault. -/
def fault {α : Type} (e : Fault) : M α := fun _ => .error e

/-- `ServiceUtil::GetService`. Without services it is a null pointer, which the callers use. -/
def getService (name : ServiceName) : M (IService Obj) := fun w =>
  match w.services with
  | none => .error .nullDeref
  | some services => .ok (services name, w)

def setService (name : ServiceName) (s : IService Obj) : M Unit := fun w =>
  .ok ((), { w with services := w.services.map fun services => Function.update services name s })

/-- `new` of an object. -/
def new (o : Obj) : M Unit := fun w => .ok ((), { w with live := Function.update w.live o (w.live o + 1) })

/-- `delete` of an object, which has to exist. -/
def delete (o : Obj) : M Unit := fun w =>
  if w.live o = 0 then .error .useAfterFree
  else .ok ((), { w with live := Function.update w.live o (w.live o - 1) })

/-- A member function of the object is called. -/
def call (o : Obj) : M Unit := fun w => if w.live o = 0 then .error .useAfterFree else .ok ((), w)

/-- A member function is called through the pointer `p` to the object. -/
def deref (p : Bool) (o : Obj) : M Unit := if p then call o else fault .nullDeref

/-- `RegisterObserver` of the service with the name. -/
def registerObserver (name : ServiceName) (o : Obj) : M Int := do
  let s ← getService name
  let (s, nret) ← s.registerObserver o
  setService name s
  return nret

/-- `UnRegisterObserver` of the service with the name. -/
def unRegisterObserver (name : ServiceName) (o : Obj) : M Int := do
  let s ← getService name
  let (s, nret) ← s.unRegisterObserver o
  setService name s
  return nret

/-- `if (p) { p->Close(); delete p; }`, where `Close` does nothing that is told here. -/
def deletePtr (p : Bool) (o : Obj) : M Unit := if p then delete o else return ()

/-- The same of an observer, which unregisters in its `Close`. -/
def closeObserver (name : ServiceName) (p : Bool) (o : Obj) : M Unit := do
  if p then
    let _ ← unRegisterObserver name o
    delete o
  else return ()

/-- `ServiceUtil::ForEach`: while the iterator exists, the service is being visited. -/
def forEach {σ : Type} (name : ServiceName) (f : σ → Obj → M σ) (a : σ) : M σ := do
  let s ← getService name
  setService name { s with mVisitCount := s.mVisitCount + 1 }
  let a ← s.mObserver.foldlM f a
  let s ← getService name
  setService name { s with mVisitCount := s.mVisitCount - 1 }
  return a

/-- What of the configuration the parts are created with. -/
structure Conf where
  isServer : Bool
  /-- `IdBuf2Str(conf.param.id)` -/
  id : String
  dev : String
  selfCapIp : String
  /-- `keepAliveIntervalSec * 1000` -/
  keepAliveMs : UInt32
  /-- `appKeepAliveSec * 1000` -/
  appKeepAliveMs : UInt32
  deriving DecidableEq

/-- The object behind `mNetManager`. -/
def Conf.netManager (conf : Conf) : Obj := if conf.isServer then .serverNetManager else .clientNetManager

/-- `IntervalMs` of the timer observers. -/
def intervalMs (conf : Conf) : Obj → UInt64
  | .appTimer => conf.appKeepAliveMs.toUInt64
  | .netConnKeepAlive _ => conf.keepAliveMs.toUInt64
  | _ => 1000

/-- `TimerService::RegisterObserver` -/
def registerTimer (conf : Conf) (o : Obj) : M Int :=
  if intervalMs conf o = 0 then return -1 else registerObserver .timerService o

/-! ## The parts -/

/-- What `RCap::doInit` is answered. -/
structure PcapEnv where
  /-- `ipv4OfDev` -/
  ipv4OfDev : Int × String
  /-- The filter is not empty. -/
  filter : Bool
  /-- `pcap_open_live` has opened the device. -/
  opened : Bool
  /-- What the steps after it have left in `nret`. -/
  nret : Int
  deriving DecidableEq

/-- An `RCap`. Of the capture handle and the capture thread is only known whether they are there. -/
structure RCap where
  mDev : String
  mDstIp : String
  mCap : Bool := false
  mInited : Bool := false
  mDone : Bool := false
  mHandler : Bool := false
  mCapThread : Bool := false
  deriving DecidableEq

namespace RCap

/-- `RCap::initDevAndIp` -/
def initDevAndIp (e : PcapEnv) (c : RCap) : RCap × Int :=
  if c.mDev.isEmpty then (c, -1)
  else if e.ipv4OfDev.1 ≠ 0 then (c, e.ipv4OfDev.1)
  else ({ c with mDstIp := e.ipv4OfDev.2 }, 0)

/-- What `doInit` does once the address is known. -/
def openLive (e : PcapEnv) (c : RCap) : M (RCap × Int) := do
  if e.filter then
    cassert (c.mDev.isEmpty = false)
    if e.opened then return ({ c with mCap := true }, e.nret)
    -- the error is logged with `pcap_geterr(mCap)`
    else fault .nullDeref
  else return (c, -1)

/-- `RCap::doInit` -/
def doInit (e : PcapEnv) (c : RCap) : M (RCap × Int) :=
  if c.mCap then return (c, -1)
  else if c.mDstIp.isEmpty then
    let (c, nret) := c.initDevAndIp e
    if nret ≠ 0 then return (c, nret) else c.openLive e
  else c.openLive e

/-- `RCap::Init`. The result of `doInit` is also returned if the route service refuses the observer. -/
def init (e : PcapEnv) (c : RCap) : M (RCap × Int) := do
  cassert (c.mInited = false)
  let (c, nret) ← c.doInit e
  let _ ← registerObserver .routeService .rcap
  return ({ c with mInited := true }, nret)

/-- `RCap::Run`, up to the loop of the capture. -/
def run (handler : Bool) (c : RCap) : M RCap := do
  cassert (c.mInited = true)
  cassert (handler = true)
  return { c with mHandler := handler }

/-- The new thread is in the loop of the capture before anything else happens. -/
def start (handler : Bool) (c : RCap) : M RCap := do
  cassert (c.mCapThread = false)
  let c ← c.run handler
  return { c with mCapThread := true }

def joinPcapThread (c : RCap) : RCap := { c with mCapThread := false }

/-- The old capture, if there is one, ends. -/
def stop (c : RCap) : RCap := if c.mCap then { c.joinPcapThread with mCap := false } else c

/-- `RCap::OnNetConnected`: the capture goes on at the new device. -/
def onNetConnected (ifName ip : String) (e : PcapEnv) (c : RCap) : M RCap := do
  let c := { c with mDev := ifName, mDstIp := ip }.stop
  let (c, n) ← c.doInit e
  if n = 0 then c.start c.mHandler else return c

/-- `RCap::Close`: the pcap handle is closed before the thread that uses it is joined. -/
def close (c : RCap) : M RCap := do
  let _ ← unRegisterObserver .routeService .rcap
  return { c with mCap := false, mHandler := false, mDone := true }

/-- `RCap::WaitAndClose` -/
def waitAndClose (c : RCap) : M RCap := do
  let c ← c.close
  return c.joinPcapThread

end RCap

/-- An `RConn`, with the pointers of its `RawTcp`. -/
structure RConn where
  mReset : Bool
  mRawTcp : Bool
  mTcpNet : Bool := false
  mSyncConn : Bool := false
  deriving DecidableEq

namespace RConn

/-- `RConn::RConn` -/
def create : M RConn := do
  new .rconn
  new .rawTcp
  new .rconnReset
  return { mReset := true, mRawTcp := true }

/-- `RawTcp::Init`. `libnet` is whether `libnet_init` succeeds, `syncConn` the result of `mSyncConn->Init()`. -/
def rawTcpInit (libnet : Bool) (syncConn : Int) (c : RConn) : M (RConn × Int) := do
  let _ ← registerObserver .routeService .rawTcp
  if libnet then
    new .libnet
    new .syncConn
    return ({ c with mTcpNet := true, mSyncConn := true }, syncConn)
  else return (c, -1)

/-- `RConn::Init` -/
def init (libnet : Bool) (syncConn : Int) (c : RConn) : M (RConn × Int) := do
  deref c.mRawTcp .rawTcp
  c.rawTcpInit libnet syncConn

/-- `RawTcp::Close` -/
def rawTcpClose (c : RConn) : M RConn := do
  let _ ← unRegisterObserver .routeService .rawTcp
  deletePtr c.mSyncConn .syncConn
  deletePtr c.mTcpNet .libnet
  return { c with mSyncConn := false, mTcpNet := false }

/-- `RConn::Close` -/
def close (c : RConn) : M RConn := do
  deletePtr c.mReset .rconnReset
  let c := { c with mReset := false }
  if c.mRawTcp then
    call .rawTcp
    let c ← c.rawTcpClose
    delete .rawTcp
    return { c with mRawTcp := false }
  else return c

/-- `RawTcp::OnNetConnected` -/
def onNetConnected (libnet : Bool) (c : RConn) : M RConn := do
  if libnet then
    new .libnet
    deletePtr c.mTcpNet .libnet
    return { c with mTcpNet := true }
  else return c

/-- `RawTcp::OnNetDisconnected` -/
def onNetDisconnected (c : RConn) : M RConn := do
  deletePtr c.mTcpNet .libnet
  return { c with mTcpNet := false }

end RConn

/-- The packets an `IAppGroup` gets, as far as they decide whom it calls. `noConn` is whether its net group
    has no conn for the packet. -/
inductive Cmd where
  | data (noConn : Bool)
  | convRst
  | netConnRst
  | keepAlive (noConn : Bool)
  /-- A reset or a keepalive that is too short for what it names. -/
  | shortRst
  | shortKeepAlive
  | other
  deriving DecidableEq

/-- `IAppGroup` with the pointer of its `NetConnKeepAlive`. -/
structure IAppGroup where
  mFakeNetGroup : Bool := true
  mResetHelper : Bool := false
  mKeepAlive : Bool := false
  mRouteObserver : Bool := false
  deriving DecidableEq

namespace IAppGroup

/-- `NetConnKeepAlive::Init` -/
def keepAliveInit (conf : Conf) (g : GroupId) (a : IAppGroup) : M (IAppGroup × Int) := do
  if a.mRouteObserver then
    let nret ← registerTimer conf (.netConnKeepAlive g)
    return (a, nret)
  else
    new (.keepAliveRouteObserver g)
    let a := { a with mRouteObserver := true }
    let nret ← registerObserver .routeService (.keepAliveRouteObserver g)
    if nret ≠ 0 then return (a, nret)
    else
      let nret ← registerTimer conf (.netConnKeepAlive g)
      return (a, nret)

/-- `NetConnKeepAlive::Close` -/
def keepAliveClose (g : GroupId) (a : IAppGroup) : M IAppGroup := do
  closeObserver .routeService a.mRouteObserver (.keepAliveRouteObserver g)
  let _ ← unRegisterObserver .timerService (.netConnKeepAlive g)
  return { a with mRouteObserver := false }

/-- `netGroupInit` is the result of `mFakeNetGroup->Init()`. -/
def init (conf : Conf) (g : GroupId) (netGroupInit : Int) (a : IAppGroup) : M (IAppGroup × Int) := do
  deref a.mFakeNetGroup (.netGroup g)
  if netGroupInit ≠ 0 then return (a, netGroupInit)
  else
    new (.connReset g)
    cassert (conf.keepAliveMs > 0)
    new (.netConnKeepAlive g)
    keepAliveInit conf g { a with mResetHelper := true, mKeepAlive := true }

/-- What `IAppGroup::Close` does with `mKeepAlive`. -/
def closeKeepAlive (g : GroupId) (a : IAppGroup) : M IAppGroup := do
  if a.mKeepAlive then
    call (.netConnKeepAlive g)
    let a ← a.keepAliveClose g
    delete (.netConnKeepAlive g)
    return { a with mKeepAlive := false }
  else return a

/-- What `IAppGroup::Close` does after `IGroup::Close`. -/
def close (g : GroupId) (a : IAppGroup) : M IAppGroup := do
  deletePtr a.mFakeNetGroup (.netGroup g)
  let a ← { a with mFakeNetGroup := false }.closeKeepAlive g
  deletePtr a.mResetHelper (.connReset g)
  return { a with mResetHelper := false }

/-- `IAppGroup::Input`, as far as it calls other objects. -/
def input (g : GroupId) (cmd : Cmd) (a : IAppGroup) : M Unit := do
  call (.group g)
  match cmd with
  | .data noConn =>
    deref a.mFakeNetGroup (.netGroup g)
    if noConn then
      deref a.mResetHelper (.connReset g)
      deref a.mFakeNetGroup (.netGroup g)
  | .convRst | .shortRst => deref a.mResetHelper (.connReset g)
  | .netConnRst =>
    deref a.mResetHelper (.connReset g)
    deref a.mFakeNetGroup (.netGroup g)
  | .keepAlive noConn =>
    deref a.mKeepAlive (.netConnKeepAlive g)
    deref a.mFakeNetGroup (.netGroup g)
    if noConn then
      deref a.mResetHelper (.connReset g)
      deref a.mFakeNetGroup (.netGroup g)
  | .shortKeepAlive => deref a.mKeepAlive (.netConnKeepAlive g)
  | .other => pure ()

/-- `IAppGroup::Alive` and `IAppGroup::Flush` ask the net group. -/
def askNetGroup (g : GroupId) (a : IAppGroup) : M Unit := do
  call (.group g)
  deref a.mFakeNetGroup (.netGroup g)

/-- `has` is whether the net group has the connection. -/
def processTcpFinOrRst (g : GroupId) (has : Bool) (a : IAppGroup) : M Bool := do
  a.askNetGroup g
  if has then
    deref a.mResetHelper (.connReset g)
    return true
  else return false

/-- `NetConnKeepAlive::OnFlush` -/
def keepAliveOnFlush (g : GroupId) (a : IAppGroup) : M Unit := do
  call (.netConnKeepAlive g)
  a.askNetGroup g
  deref a.mRouteObserver (.keepAliveRouteObserver g)

end IAppGroup

/-- What `ClientGroup::Init` is answered. -/
structure ListenEnv where
  /-- `mFakeNetGroup->Init()` -/
  netGroupInit : Int
  /-- The listening on UDP, and on the unix domain socket. -/
  udp : Int
  unixSock : Int
  deriving DecidableEq

/-- A `ClientGroup`, with its `IAppGroup` and the pointer of its net observer. -/
structure ClientGroup where
  mBtm : Bool := true
  base : IAppGroup := {}
  mNetObserver : Bool := false
  deriving DecidableEq

namespace ClientGroup

/-- `ClientGroup::Init` -/
def init (conf : Conf) (e : ListenEnv) (b : ClientGroup) : M (ClientGroup × Int) := do
  deref b.mBtm .rconn
  let (a, nret) ← b.base.init conf .client e.netGroupInit
  let b := { b with base := a }
  if nret ≠ 0 then return (b, nret)
  else if e.udp ≠ 0 then return (b, e.udp)
  else if e.unixSock ≠ 0 then return (b, e.unixSock)
  else if b.mNetObserver then return (b, -1)
  else
    new .clientNetObserver
    let nret ← registerObserver .netService .clientNetObserver
    return ({ b with mNetObserver := true }, nret)

end ClientGroup

/-- A `ServerGroup`, with its `SubGroup`s under their keys. -/
structure ServerGroup where
  mBtm : Bool := true
  mConns : StdMap String IAppGroup (· < ·) := StdMap.empty

namespace ServerGroup

/-- `ServerGroup::Init` -/
def init (b : ServerGroup) : M Int := do
  deref b.mBtm .rconn
  registerObserver .netService .serverGroup

/-- `IGroup::CloseConn` of the `SubGroup` under the key. -/
def closeConn (conf : Conf) (b : ServerGroup) (key : String) : M ServerGroup := do
  call (.group (.sub key))
  cassert (key ≠ conf.id)
  match b.mConns.get? key with
  | none => fault .assertFailed
  | some a =>
    let _ ← a.close (.sub key)
    delete (.group (.sub key))
    return { b with mConns := b.mConns.erase key }

/-- The loop over a copy of `mConns` in `IGroup::Close`. -/
def closeConns (conf : Conf) (b : ServerGroup) : M ServerGroup :=
  (b.mConns.entries.map Prod.fst).foldlM (closeConn conf) b

/-- `newConn`, which returns whether there is a new conn. -/
def newConn (conf : Conf) (key : String) (netGroupInit : Int) (b : ServerGroup) : M (ServerGroup × Bool) := do
  new (.netGroup (.sub key))
  new (.group (.sub key))
  let (a, nret) ← ({} : IAppGroup).init conf (.sub key) netGroupInit
  if nret ≠ 0 then
    let _ ← a.close (.sub key)
    delete (.group (.sub key))
    return (b, false)
  else return ({ b with mConns := b.mConns.emplace key a }, true)

/-- A packet of the group with the key. -/
def onRecv (conf : Conf) (key : String) (netGroupInit : Int) (cmd : Cmd) (b : ServerGroup) : M ServerGroup := do
  match b.mConns.get? key with
  | some a =>
    a.input (.sub key) cmd
    return b
  | none =>
    let (b, _) ← b.newConn conf key netGroupInit
    match b.mConns.get? key with
    | some a =>
      a.input (.sub key) cmd
      return b
    | none => return b

/-- The first loop of `IGroup::Flush` and the last one. -/
def askConns (b : ServerGroup) : M Unit := b.mConns.entries.forM fun e => e.2.askNetGroup (.sub e.1)

/-- `IGroup::Flush`. The `SubGroup`s under the keys `dead` say that they are not alive. -/
def flush (conf : Conf) (dead : String → Bool) (b : ServerGroup) : M ServerGroup := do
  b.askConns
  let b ← ((b.mConns.entries.map Prod.fst).filter dead).foldlM (closeConn conf) b
  b.askConns
  return b

/-- The loop of `ServerGroup::OnTcpFinOrRst`. -/
def onTcpFinOrRst (has : GroupId → Bool) : List (String × IAppGroup) → M Unit
  | [] => return ()
  | (key, a) :: conns => do
    if ← a.processTcpFinOrRst (.sub key) (has (.sub key)) then return () else onTcpFinOrRst has conns

end ServerGroup

/-- What `mBridge` points to. -/
inductive Bridge where
  | client (b : ClientGroup)
  | server (b : ServerGroup)

/-- `INetManager`, with the pointer to its `NetManagerTimer`. -/
structure INetManager where
  mTimer : Bool := false
  deriving DecidableEq

namespace INetManager

/-- `listen` is the result of the server's `mListenPool.Init()`. -/
def init (conf : Conf) (listen : Int) : M (INetManager × Int) := do
  new .netManagerTimer
  let m : INetManager := { mTimer := true }
  let nret ← registerTimer conf .netManagerTimer
  if nret ≠ 0 then return (m, nret)
  else if conf.isServer then return (m, listen)
  else
    let nret ← registerObserver .routeService .clientNetManager
    return (m, nret)

/-- `INetManager::Close` -/
def close (conf : Conf) (m : INetManager) : M INetManager := do
  closeObserver .timerService m.mTimer .netManagerTimer
  if conf.isServer then return { m with mTimer := false }
  else
    let _ ← unRegisterObserver .routeService .clientNetManager
    return { m with mTimer := false }

end INetManager

/-! ## `ISockApp` -/

/-- What the initialization is answered. -/
structure InitEnv where
  osInit : Int
  /-- `makeDaemon` -/
  daemon : Int
  /-- `initLog` -/
  log : Int
  listen : Int
  pcap : PcapEnv
  libnet : Bool
  syncConn : Int
  /-- Whether the `CNetGroup` of a client has a conn to start with. -/
  dialed : Bool
  bridge : ListenEnv
  deriving DecidableEq

/-- `mErrorHandler` is that of a `CSockApp`. -/
structure ISockApp where
  mErrorHandler : Bool := false
  mNetObserver : Bool := false
  mTimer : Bool := false
  mAckPool : Bool := false
  mNetManager : Option INetManager := none
  mCap : Option RCap := none
  mBtmConn : Option RConn := none
  mBridge : Option Bridge := none
  mInited : Bool := false
  mClosing : Bool := false

namespace ISockApp

variable (conf : Conf)

/-- The services are created and initialized. -/
def initServices : M Unit := fun w => do
  let s ← IService.init ({} : IService Obj)
  return ((), { w with services := some fun _ => s })

def initObservers (app : ISockApp) : M (ISockApp × Int) := do
  if app.mNetObserver then return (app, -1)
  else
    new .appNetObserver
    let nret ← registerObserver .netService .appNetObserver
    return ({ app with mNetObserver := true }, nret)

def initAckPool (app : ISockApp) : M (ISockApp × Int) := do
  cassert (conf.appKeepAliveMs ≠ 0)
  new .tcpAckPool
  let nret ← registerTimer conf .tcpAckPool
  return ({ app with mAckPool := true }, nret)

/-- `if (nret) { return -1; }` -/
def orFail (nret : Int) : Int := if nret ≠ 0 then -1 else 0

def initNetManager (e : InitEnv) (app : ISockApp) : M (ISockApp × Int) := do
  new conf.netManager
  let (m, nret) ← INetManager.init conf e.listen
  return ({ app with mNetManager := some m }, orFail nret)

def initCap (e : InitEnv) (app : ISockApp) : M (ISockApp × Int) := do
  new .rcap
  let (c, nret) ← RCap.init e.pcap { mDev := conf.dev, mDstIp := conf.selfCapIp }
  return ({ app with mCap := some c }, orFail nret)

def initBtmConn (e : InitEnv) (app : ISockApp) : M (ISockApp × Int) := do
  let c ← RConn.create
  let (c, nret) ← c.init e.libnet e.syncConn
  return ({ app with mBtmConn := some c }, nret)

/-- `mCap->Start(RConn::CapInputCb, mBtmConn)` -/
def startCap (app : ISockApp) : M (ISockApp × Int) := do
  match app.mCap with
  | none => fault .nullDeref
  | some c =>
    let c ← c.start true
    return ({ app with mCap := some c }, 0)

/-- `CreateBridgeConn` -/
def createBridgeConn (dialed : Bool) : M (Option Bridge) := do
  if conf.isServer then
    new .serverGroup
    return some (.server {})
  else
    new (.netGroup .client)
    call .clientNetManager
    if dialed then
      new (.group .client)
      return some (.client {})
    else
      delete (.netGroup .client)
      return none

def initBridge (e : InitEnv) (app : ISockApp) : M (ISockApp × Int) := do
  match ← createBridgeConn conf e.dialed with
  | none => return (app, -1)
  | some (.client b) =>
    let (b, nret) ← b.init conf e.bridge
    return ({ app with mBridge := some (.client b) }, orFail nret)
  | some (.server b) =>
    let nret ← b.init
    return ({ app with mBridge := some (.server b) }, orFail nret)

/-- A step of `doInit` and, if its result is 0, the rest. -/
def andThen (m : M (ISockApp × Int)) (rest : ISockApp → M (ISockApp × Int)) : M (ISockApp × Int) := do
  let (app, nret) ← m
  if nret ≠ 0 then return (app, nret) else rest app

/-- The steps of `doInit` that need the services, in their order. -/
def initParts (e : InitEnv) (app : ISockApp) : M (ISockApp × Int) :=
  andThen app.initObservers fun app =>
  andThen (app.initAckPool conf) fun app =>
  andThen (app.initNetManager conf e) fun app =>
  andThen (app.initCap conf e) fun app =>
  andThen (app.initBtmConn e) fun app =>
  andThen app.startCap fun app =>
  andThen (app.initBridge conf e) fun app =>
    return ({ app with mInited := true }, 0)

/-- `ISockApp::doInit`: the parts are made in this order, and the first that fails stops it. -/
def doInit (e : InitEnv) (app : ISockApp) : M (ISockApp × Int) := do
  if e.daemon ≠ 0 then return (app, -1)
  else if e.log ≠ 0 then return (app, -1)
  else
    initServices
    app.initParts conf e

/-- What `CSockApp::Init` does before `ISockApp::Init`. -/
def createErrorHandler (app : ISockApp) : M ISockApp := do
  if conf.isServer || app.mErrorHandler then return app
  else
    new .errorHandler
    return { app with mErrorHandler := true }

def init (e : InitEnv) (app : ISockApp) : M (ISockApp × Int) := do
  let app ← app.createErrorHandler conf
  if e.osInit ≠ 0 then return (app, e.osInit) else app.doInit conf e

/-- `StartTimer` -/
def startTimer (app : ISockApp) : M ISockApp := do
  if app.mTimer then return app
  else
    cassert (conf.appKeepAliveMs ≠ 0)
    new .appTimer
    let _ ← registerTimer conf .appTimer
    return { app with mTimer := true }

/-- `Start` up to `uv_run`. -/
def start (app : ISockApp) : M ISockApp := do
  cassert (app.mInited = true)
  app.startTimer conf

/-- `ISockApp::destroyObservers` -/
def destroyObservers (app : ISockApp) : M ISockApp := do
  closeObserver .netService app.mNetObserver .appNetObserver
  closeObserver .timerService app.mTimer .appTimer
  return { app with mNetObserver := false, mTimer := false }

/-- `mCap->WaitAndClose(); delete mCap;` -/
def closeCap (app : ISockApp) : M ISockApp := do
  match app.mCap with
  | none => return app
  | some c =>
    let _ ← c.waitAndClose
    delete .rcap
    return { app with mCap := none }

/-- `IGroup::Close` closes the `RConn` the group has below it. -/
def closeBtm (mBtm : Bool) (app : ISockApp) : M Unit := do
  if mBtm then
    match app.mBtmConn with
    | none => fault .useAfterFree
    | some c =>
      call .rconn
      let _ ← c.close
      delete .rconn

/-- `mBridge->Close(); delete mBridge;`. It closes and deletes the `RConn` too. -/
def closeBridge (app : ISockApp) : M ISockApp := do
  match app.mBridge with
  | none => return app
  | some (.client b) =>
    app.closeBtm b.mBtm
    let _ ← b.base.close .client
    closeObserver .netService b.mNetObserver .clientNetObserver
    delete (.group .client)
    return { app with mBridge := none, mBtmConn := none }
  | some (.server b) =>
    app.closeBtm b.mBtm
    let _ ← b.closeConns conf
    let _ ← unRegisterObserver .netService .serverGroup
    delete .serverGroup
    return { app with mBridge := none, mBtmConn := none }

/-- In case the bridge has not been created. -/
def closeBtmConn (app : ISockApp) : M ISockApp := do
  app.closeBtm app.mBtmConn.isSome
  return { app with mBtmConn := none }

def closeNetManager (app : ISockApp) : M ISockApp := do
  match app.mNetManager with
  | none => return app
  | some m =>
    let _ ← m.close conf
    delete conf.netManager
    return { app with mNetManager := none }

def closeAckPool (app : ISockApp) : M ISockApp := do
  closeObserver .timerService app.mAckPool .tcpAckPool
  return { app with mAckPool := false }

/-- `ServiceManager::Close`, if the manager exists. -/
def destroySingletons : M Unit := fun w => do
  match w.services with
  | none => return ((), w)
  | some services =>
    (services .netService).close
    (services .routeService).close
    (services .timerService).close
    return ((), { w with services := none })

/-- `CSockApp::Close` after `ISockApp::Close`. -/
def closeErrorHandler (app : ISockApp) : M ISockApp := do
  deletePtr app.mErrorHandler .errorHandler
  return { app with mErrorHandler := false }

/-- `Close` up to the services. -/
def closeParts (app : ISockApp) : M ISockApp := do
  let app ← app.destroyObservers
  let app ← app.closeCap
  let app ← app.closeBridge conf
  let app ← app.closeBtmConn
  let app ← app.closeNetManager conf
  app.closeAckPool

/-- `ISockApp::Close` -/
def close (app : ISockApp) : M ISockApp := do
  if app.mClosing then app.closeErrorHandler
  else
    let app ← { app with mClosing := true }.closeParts conf
    destroySingletons
    app.closeErrorHandler

end ISockApp

/-! ## The loop -/

/-- What makes the loop call the program. -/
inductive Event where
  /-- A packet of the group with the key has come. -/
  | recv (key : String) (netGroupInit : Int) (cmd : Cmd)
  /-- A FIN or a RST has come, for a connection of the groups in `has`. -/
  | tcpFinOrRst (has : GroupId → Bool)
  /-- The timer of the observer has expired. If it is that of the application, the groups in `dead` are. -/
  | timeout (o : Obj) (dead : String → Bool)
  /-- `RouteService::CheckNetworkStatusNow` has found a network that is not the old one, or none if a text is
      empty. -/
  | network (dev ip : String) (pcap : PcapEnv) (libnet : Bool)
  | exitSignal

namespace ISockApp

variable (conf : Conf)

/-- `RConn` hands a packet to the bridge. -/
def onRecv (key : String) (netGroupInit : Int) (cmd : Cmd) (app : ISockApp) : M ISockApp := do
  call .rawTcp
  call .rconn
  match app.mBridge with
  | none => fault .useAfterFree
  | some (.client b) =>
    b.base.input .client cmd
    return app
  | some (.server b) =>
    call .serverGroup
    let b ← b.onRecv conf key netGroupInit cmd
    return { app with mBridge := some (.server b) }

/-- `OnTcpFinOrRst` of the net observers. -/
def tcpFinOrRst (has : GroupId → Bool) (app : ISockApp) (o : Obj) : M ISockApp := do
  call o
  match o with
  | .appNetObserver =>
    if app.mClosing then
      let s ← getService .netService
      setService .netService { s with mBlock := true }
      return app
    else return app
  | .clientNetObserver =>
    match app.mBridge with
    | some (.client b) =>
      let _ ← b.base.processTcpFinOrRst .client (has .client)
      return app
    | _ => fault .useAfterFree
  | .serverGroup =>
    match app.mBridge with
    | some (.server b) =>
      ServerGroup.onTcpFinOrRst has b.mConns.entries
      return app
    | _ => fault .useAfterFree
  | _ => return app

/-- `RConn::OnRecv` and `NetService::NotifyTcpFinOrRst` -/
def notifyTcpFinOrRst (has : GroupId → Bool) (app : ISockApp) : M ISockApp := do
  call .rawTcp
  call .rconn
  let s ← getService .netService
  if s.mBlock then return app else forEach .netService (tcpFinOrRst has) app

/-- `ISockApp::Flush` -/
def flush (dead : String → Bool) (app : ISockApp) : M ISockApp := do
  match app.mBridge with
  | none => fault .nullDeref
  | some (.client b) =>
    b.base.askNetGroup .client
    return app
  | some (.server b) =>
    call .serverGroup
    let b ← b.flush conf dead
    return { app with mBridge := some (.server b) }

/-- The `IAppGroup` of which the `NetConnKeepAlive` has a pointer. -/
def appGroup (app : ISockApp) : GroupId → Option IAppGroup
  | .client => match app.mBridge with
    | some (.client b) => some b.base
    | _ => none
  | .sub key => match app.mBridge with
    | some (.server b) => b.mConns.get? key
    | _ => none

/-- `OnFlush` of the timer observers. -/
def onFlush (o : Obj) (dead : String → Bool) (app : ISockApp) : M ISockApp := do
  call o
  match o with
  | .appTimer => app.flush conf dead
  | .netManagerTimer =>
    call conf.netManager
    return app
  | .netConnKeepAlive g =>
    match app.appGroup g with
    | none => fault .useAfterFree
    | some a =>
      a.keepAliveOnFlush g
      return app
  | _ => return app

/-- `TimerService::onFlush` calls who is registered. -/
def timeout (o : Obj) (dead : String → Bool) (app : ISockApp) : M ISockApp := do
  let s ← getService .timerService
  if o ∈ s.mObserver then app.onFlush conf o dead else return app

/-- `OnNetConnected` of the route observers. -/
def onNetConnected (dev ip : String) (pcap : PcapEnv) (libnet : Bool) (app : ISockApp) (o : Obj) :
    M ISockApp := do
  call o
  match o with
  | .rcap =>
    match app.mCap with
    | none => fault .useAfterFree
    | some c =>
      let c ← c.onNetConnected dev ip pcap
      return { app with mCap := some c }
  | .rawTcp =>
    match app.mBtmConn with
    | none => fault .useAfterFree
    | some c =>
      let c ← c.onNetConnected libnet
      return { app with mBtmConn := some c }
  | .keepAliveRouteObserver g =>
    call (.netConnKeepAlive g)
    return app
  | _ => return app

/-- `OnNetDisconnected` of the route observers. -/
def onNetDisconnected (app : ISockApp) (o : Obj) : M ISockApp := do
  call o
  match o with
  | .rawTcp =>
    match app.mBtmConn with
    | none => fault .useAfterFree
    | some c =>
      let c ← c.onNetDisconnected
      return { app with mBtmConn := some c }
  | .keepAliveRouteObserver g =>
    call (.netConnKeepAlive g)
    return app
  | _ => return app

/-- `RouteService::NotifyOnline` and `RouteService::NotifyOffline` -/
def network (dev ip : String) (pcap : PcapEnv) (libnet : Bool) (app : ISockApp) : M ISockApp :=
  if dev.isEmpty || ip.isEmpty then forEach .routeService onNetDisconnected app
  else forEach .routeService (onNetConnected dev ip pcap libnet) app

end ISockApp

end AppLife

end Rsock
