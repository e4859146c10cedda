import Rsock.Lib.Run
import Rsock.RawTcp

/-!
# Going offline and online

`RouteService` (src/service/RouteService.cpp) asks for the WAN interface when a raw packet could not be
sent, and tells its observers. What it has found is kept in `ConfManager`, and only a change is
reported. `RawTcp` (conn/RawTcp.cpp) is an observer: it drops its libnet context when the network is
gone and opens a new one when there is a network again.
-/

namespace Rsock

open CMem

/-- `class ConfManager`, for the interface in use. -/
structure ConfManager where
  dev : String
  /-- `selfCapIp` -/
  ip : String
  deriving DecidableEq

namespace ConfManager

def updateDevInfo (c : ConfManager) (ifName ip : String) : ConfManager :=
  { c with dev := ifName, ip := ip }

def setDev (c : ConfManager) (dev : String) : ConfManager := { c with dev := dev }

def setIp (c : ConfManager) (ip : String) : ConfManager := { c with ip := ip }

end ConfManager

/-- `RouteUtil::SameNetwork` -/
def RouteUtil.sameNetwork (dev1 ip1 dev2 ip2 : String) : Bool := dev1 == dev2 && ip1 == ip2

/-- What `RouteManager::GetWanInfo` finds. -/
structure WanInfo where
  nret : Int
  dev : String
  ip : String
  deriving DecidableEq

/-- What opening an interface gives: whether `libnet_init` returns a context, and the link type. -/
structure LibnetInit where
  opened : Bool
  link : Datalink
  deriving DecidableEq

namespace RawTcp

/-- `RawTcp::OnNetConnected`, but for `mDev`. -/
def onNetConnected (r : RawTcp) (l : LibnetInit) : RawTcp :=
  if l.opened then { r with mDatalink := l.link, mTcpNet := true, mIp4TcpTag := 0, mTcpTag := 0 }
  else r

/-- `RawTcp::OnNetDisconnected` -/
def onNetDisconnected (r : RawTcp) : RawTcp :=
  if r.mTcpNet then { r with mIp4TcpTag := 0, mTcpTag := 0, mTcpNet := false } else r

end RawTcp

/-- `class RouteService`, with the message it waits for. -/
structure RouteService where
  mCheckIntervalSec : UInt64 := 1
  mBlock : Bool := false
  /-- The delay of the `MSG_CHECK` that waits in `mHandler`. -/
  mHandler : Option UInt64 := none
  deriving DecidableEq

namespace RouteService

/-- `RouteService::doubleIntervalSec` -/
def doubleIntervalSec (s : RouteService) : RouteService :=
  let sec := s.mCheckIntervalSec * 2
  { s with mCheckIntervalSec := if sec > 16 then 1 else sec }

/-- `RouteService::CheckNetworkStatusDelayed` -/
def checkNetworkStatusDelayed (s : RouteService) : RouteService :=
  if s.mBlock then s
  else if s.mHandler.isSome then s
  else { s with mHandler := some (s.mCheckIntervalSec * 1000) }.doubleIntervalSec

/-- What the observers are told. -/
inductive Notification where
  | online (dev ip : String)
  | offline
  deriving DecidableEq

end RouteService

/-- The service, the interface it has found, and the observer that sends through it. -/
structure Route where
  conf : ConfManager
  service : RouteService := {}
  rawTcp : RawTcp := {}
  /-- `RawTcp::mDev` -/
  mDev : String
  deriving DecidableEq

namespace Route

/-- `RawTcp::Init` on the configured interface; the program ends if it fails. -/
def init (conf : ConfManager) (l : LibnetInit) : Option Route :=
  if l.opened then some { conf := conf, rawTcp := { mDatalink := l.link }, mDev := conf.dev }
  else none

/-- `RouteService::CheckNetworkStatusNow`, with what it reports. -/
def checkNetworkStatusNow (s : Route) (wan : WanInfo) (l : LibnetInit) :
    Route × Option RouteService.Notification :=
  if s.service.mBlock then (s, none)
  else if wan.nret ≠ 0 ∨ wan.dev = "" ∨ wan.ip = "" then
    ({ s with conf := (s.conf.setDev "").setIp "", rawTcp := s.rawTcp.onNetDisconnected },
      some .offline)
  else if RouteUtil.sameNetwork s.conf.dev s.conf.ip wan.dev wan.ip then (s, none)
  else
    -- the new network is stored before the observers are told
    let s := { s with conf := s.conf.updateDevInfo wan.dev wan.ip }
    ({ s with rawTcp := s.rawTcp.onNetConnected l, mDev := wan.dev },
      some (.online wan.dev wan.ip))

/-- What can happen to the route service and to `RawTcp`, which reports failed sends. -/
inductive Event where
  | checkNetworkStatusNow (wan : WanInfo) (l : LibnetInit)
  /-- The waiting `MSG_CHECK` is dispatched. -/
  | handleMessage (wan : WanInfo) (l : LibnetInit)
  /-- `RawTcp::Output` of a packet. -/
  | output (res : RawTcp.LibnetRes) (info : TcpInfo) (buf : List UInt8)
  /-- `CNetGroup::Send` has found no conn. -/
  | checkNetworkStatusDelayed

/-- What one event does to the route. -/
def step (s : Route) : Event → Except Fault Route
  | .checkNetworkStatusNow wan l => return (s.checkNetworkStatusNow wan l).1
  | .handleMessage wan l =>
    if s.service.mHandler.isSome then
      return ({ s with service.mHandler := none }.checkNetworkStatusNow wan l).1
    else return s
  | .output res info buf =>
    let (r, sent) := s.rawTcp.output res info buf
    let s := { s with rawTcp := r }
    if sent.checkNetwork then return { s with service := s.service.checkNetworkStatusDelayed }
    else return s
  | .checkNetworkStatusDelayed => return { s with service := s.service.checkNetworkStatusDelayed }

end Route

end Rsock
