import Rsock.RConn

/-!
# Net conns

`INetConn` and its two implementations `FakeTcp` and `FakeUdp` (conn/): the connections of a net
group. A `FakeTcp` keeps the sequence and acknowledgement number of the TCP connection whose
segments it forges.
-/

namespace Rsock

open CMem

/-- The errors an `INetConn` may have. -/
inductive ErrCode where
  | noErr
  | timeout
  | finRst
  deriving DecidableEq, Repr

/-- What `INetConn` adds to `IConn`. -/
structure INetConn where
  mIntKey : IntKeyType
  mNew : Bool := true
  mAlive : Bool := true
  mErrCode : ErrCode := .noErr
  mEstablishedTimeStampMs : UInt64 := 0
  deriving DecidableEq

namespace INetConn

/-- `INetConn::NotifyErr`, which ends the life of the conn. -/
def notifyErr (c : INetConn) (err : ErrCode) : INetConn :=
  { c with mErrCode := err, mAlive := false }

end INetConn

/-- `class FakeTcp` -/
structure FakeTcp extends INetConn where
  mInfo : TcpInfo
  deriving DecidableEq

/-- `class FakeUdp` -/
structure FakeUdp extends INetConn where
  mInfo : ConnInfo
  deriving DecidableEq

namespace FakeTcp

/-- `FakeTcp::FakeTcp`, on a handle whose socket has the addresses `sock`. -/
def new (sock : ConnInfo) (key : IntKeyType) (info : TcpInfo) (now : UInt64) :
    Except Fault FakeTcp := do
  cassert (sock.tuple = info.tuple)
  return { mIntKey := key, mInfo := info, mEstablishedTimeStampMs := now }

/-- `FakeTcp::SetISN` -/
def setISN (c : FakeTcp) (isn : UInt32) : FakeTcp := { c with mInfo := c.mInfo.updateSeq isn }

/-- `FakeTcp::SetAckISN` -/
def setAckISN (c : FakeTcp) (isn : UInt32) : FakeTcp := { c with mInfo := c.mInfo.updateAck isn }

end FakeTcp

namespace TcpUtil

/-- `TcpUtil::SetISN` -/
def setISN (c : FakeTcp) (info : TcpInfo) : FakeTcp := c.setISN (info.ack + 1)

/-- `TcpUtil::SetAckISN` -/
def setAckISN (conn : FakeTcp) (info : TcpInfo) : FakeTcp := conn.setAckISN (info.seq + 1)

end TcpUtil

namespace FakeTcp

/-- `FakeTcp::Init`. Both calls pass `mInfo` by reference, so the second one sees the `seq` the
    first one has written. The result is that of `uv_read_start`. -/
def init (c : FakeTcp) (readStart : Int) : FakeTcp × Int :=
  let c := TcpUtil.setISN c c.mInfo
  let c := TcpUtil.setAckISN c c.mInfo
  (c, readStart)

/-- `FakeTcp::Output` (through `INetConn::Output`), where `below` is the output callback: the
    conn, the result and what left below. -/
def output {σ : Type} (c : FakeTcp) (hd : EncHead) (payload : List UInt8)
    (below : Info → List UInt8 → Except Fault (Int × σ)) : Except Fault (FakeTcp × Int × σ) := do
  let c := { c with mNew := false, mInfo.head := some (hd.setConnKey c.mIntKey) }
  let (n, s) ← below (.tcp c.mInfo) payload
  let next := UInt32.ofNat payload.length + c.mInfo.seq + UInt32.ofNat RConn.headSize
  let c := if n ≥ 0 then { c with mInfo := c.mInfo.updateSeq next } else c
  return (c, n, s)

/-- `FakeTcp::OnRecv`, where `n` is the result of the upper layer. -/
def onRecv (c : FakeTcp) (info : TcpInfo) (n : Int) : Except Fault (FakeTcp × Int) := do
  cassert info.head.isSome
  let c := if n ≥ 0 ∧ c.mInfo.ack < info.seq then { c with mInfo := c.mInfo.updateAck info.seq }
    else c
  return (c, n)

end FakeTcp

/-- `FakeUdp::Output` -/
def FakeUdp.output {σ : Type} (c : FakeUdp) (hd : EncHead) (payload : List UInt8)
    (below : Info → List UInt8 → Except Fault (Int × σ)) : Except Fault (FakeUdp × Int × σ) := do
  let c := { c with mNew := false, mInfo.head := some (hd.setConnKey c.mIntKey) }
  let (n, s) ← below (.udp c.mInfo) payload
  return (c, n, s)

/-- The `INetConn`s of a net group. -/
inductive NetConn where
  | fakeTcp (c : FakeTcp)
  | fakeUdp (c : FakeUdp)
  deriving DecidableEq

namespace NetConn

/-- The part all net conns share. -/
def toINetConn : NetConn → INetConn
  | fakeTcp c => c.toINetConn
  | fakeUdp c => c.toINetConn

/-- `INetConn::IntKey` -/
def intKey (c : NetConn) : IntKeyType := c.toINetConn.mIntKey

/-- `INetConn::GetInfo` -/
def getInfo : NetConn → Info
  | fakeTcp c => .tcp c.mInfo
  | fakeUdp c => .udp c.mInfo

/-- `Alive()`: a `FakeUdp` always is. -/
def alive : NetConn → Bool
  | fakeTcp c => c.mAlive
  | fakeUdp _ => true

def notifyErr (err : ErrCode) : NetConn → NetConn
  | fakeTcp c => fakeTcp { c with toINetConn := c.toINetConn.notifyErr err }
  | fakeUdp c => fakeUdp { c with toINetConn := c.toINetConn.notifyErr err }

/-- `INetConn::Output`: the header gets the key of the conn. `below` is the output callback. -/
def output {σ : Type} (c : NetConn) (hd : EncHead) (payload : List UInt8)
    (below : Info → List UInt8 → Except Fault (Int × σ)) : Except Fault (NetConn × Int × σ) :=
  match c with
  | fakeTcp c => do
    let (c, r) ← c.output hd payload below
    return (fakeTcp c, r)
  | fakeUdp c => do
    let (c, r) ← c.output hd payload below
    return (fakeUdp c, r)

end NetConn

end Rsock
