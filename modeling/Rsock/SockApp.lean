import Rsock.FakeTcp

/-!
# The UDP side of the apps

Binding the UDP sockets (`NetUtil::CreateBtmUdpConn`, `ISockApp::bindUdpConns`), registering them
with `RConn` (`CreateBtmConn` of `CSockApp` and `SSockApp`) and creating the `FakeUdp`s above them
(`CSockApp::addUdpNetConn`, `SNetGroup::CreateNetConn`). What the operating system answers for a
socket is a parameter (`UdpSock`).
-/

namespace Rsock

open CMem

/-- A libuv UDP handle and what happens to it. -/
structure UdpSock where
  mUdp : Nat
  /-- The local address and port `uv_udp_bind` gives it, unless it fails. -/
  bound : Option (UInt32 × UInt16)
  recvStart : Int

/-- `NetUtil::CreateBtmUdpConn` -/
def NetUtil.createBtmUdpConn (info : ConnInfo) (sock : UdpSock) :
    Except Fault (Option BtmUdpConn) :=
  match sock.bound with
  | none => return none
  | some (addr, port) => do
    let selfInfo := { info with src := addr, sp := port }
    let key ← KeyGenerator.keyForConnInfo (.udp selfInfo)
    return some ⟨KeyGenerator.strForIntKey key, sock.mUdp, selfInfo⟩

namespace BtmUdpConn

/-- `BtmUdpConn::Init` -/
def init (b : BtmUdpConn) (sock : UdpSock) : Except Fault Int :=
  match sock.bound with
  | none => return -1
  | some (addr, port) =>
    if port = 0 then return -1
    else do
      cassert (b.mInfo.src = addr ∧ b.mInfo.sp = port)
      let key ← KeyGenerator.keyForUdp b.mInfo
      cassert (b.mKey = KeyGenerator.strForIntKey key)
      return sock.recvStart

/-- `BtmUdpConn::fillInfo`, for a datagram from `addr` and `port`. -/
def fillInfo (b : BtmUdpConn) (addr : UInt32) (port : UInt16) : BtmUdpConn :=
  { b with mInfo.dst := addr, mInfo.dp := port }

end BtmUdpConn

namespace ISockApp

/-- One pass of the loop of `ISockApp::bindUdpConns`. -/
def bindUdpConn (info : ConnInfo) (sock : UdpSock) : Except Fault (Option BtmUdpConn) := do
  match ← NetUtil.createBtmUdpConn info sock with
  | none => return none
  | some conn =>
    let n ← conn.init sock
    return if n = 0 then some conn else none

/-- The loop of `ISockApp::bindUdpConns`, over the port pairs and the socket of each pass. -/
def bindLoop (src dst : UInt32) : List ((UInt16 × UInt16) × UdpSock) → Except Fault (List BtmUdpConn)
  | [] => return []
  | ((sp, dp), sock) :: l => do
    let conn ← bindUdpConn { src := src, dst := dst, sp := sp, dp := dp } sock
    let vec ← bindLoop src dst l
    return conn.toList ++ vec

/-- `ISockApp::bindUdpConns` -/
def bindUdpConns (src : UInt32) (ports : List UInt16) (dst : UInt32) (svrPorts : List UInt16)
    (socks : List UdpSock) : Except Fault (List BtmUdpConn) := do
  cassert (min ports.length svrPorts.length ≠ 0)
  bindLoop src dst ((ports.zip svrPorts).zip socks)

end ISockApp

def RConn.addUdpConn (c : RConn) (conn : BtmUdpConn) : RConn :=
  { c with mConns := c.mConns.emplace conn.mKey conn }

/-- `CSockApp::CreateBtmConn` -/
def CSockApp.createBtmConn (hashKey : List UInt8) (selfCapInt targetCapInt : UInt32)
    (capPorts : List UInt16) (socks : List UdpSock) : Except Fault RConn := do
  let ports := List.replicate capPorts.length 0
  let vec ← ISockApp.bindUdpConns selfCapInt ports targetCapInt capPorts socks
  return vec.foldl RConn.addUdpConn { mHashKey := hashKey }

/-- `SSockApp::CreateBtmConn` -/
def SSockApp.createBtmConn (hashKey : List UInt8) (selfCapInt : UInt32) (capPorts : List UInt16)
    (socks : List UdpSock) : Except Fault RConn := do
  let zeros := List.replicate capPorts.length 0
  let vec ← ISockApp.bindUdpConns selfCapInt capPorts 0 zeros socks
  return vec.foldl RConn.addUdpConn { mHashKey := hashKey, mRawTcp := { mIsServer := true } }

def FakeUdp.new (key : IntKeyType) (info : ConnInfo) : Except Fault FakeUdp := do
  let k ← KeyGenerator.keyForUdp info
  cassert (k = key)
  return { mIntKey := key, mInfo := info }

/-- The `FakeUdp` that `CSockApp::addUdpNetConn` puts above a bottom connection. -/
def CSockApp.udpNetConn (conn : BtmUdpConn) : Except Fault FakeUdp := do
  let key ← KeyGenerator.keyForConnInfo (.udp conn.mInfo)
  FakeUdp.new key conn.mInfo

/-- The `FakeUdp` that `SNetGroup::CreateNetConn` makes for a datagram that arrived on a bottom
    connection from `addr` and `port` with the header `head`. -/
def SNetGroup.udpNetConn (conn : BtmUdpConn) (addr : UInt32) (port : UInt16) (head : EncHead) :
    Except Fault FakeUdp :=
  FakeUdp.new head.mConnKey { (conn.fillInfo addr port).mInfo with head := some head }

/-- The bottom connections after a datagram from `addr` and `port` has arrived on the socket
    `udp`. -/
def RConn.recvDatagram (c : RConn) (udp : Nat) (addr : UInt32) (port : UInt16) : RConn :=
  { c with mConns := c.mConns.mapValues fun b =>
      if b.mUdp = udp then b.fillInfo addr port else b }

def RConn.recvDatagrams (c : RConn) (dgrams : List (Nat × UInt32 × UInt16)) : RConn :=
  dgrams.foldl (fun c d => c.recvDatagram d.1 d.2.1 d.2.2) c

/-! ## The two roles -/

/-- The parts of `RConfig` the UDP side reads. -/
structure UdpConf where
  hashKey : List UInt8
  selfCapInt : UInt32
  targetCapInt : UInt32
  capPorts : List UInt16

/-- The two programs. -/
inductive Role where
  | client
  | server
  deriving DecidableEq

namespace Role

/-- `CreateBtmConn` of the role's app. -/
def createBtmConn (conf : UdpConf) (socks : List UdpSock) : Role → Except Fault RConn
  | client =>
    CSockApp.createBtmConn conf.hashKey conf.selfCapInt conf.targetCapInt conf.capPorts socks
  | server => SSockApp.createBtmConn conf.hashKey conf.selfCapInt conf.capPorts socks

end Role

end Rsock
