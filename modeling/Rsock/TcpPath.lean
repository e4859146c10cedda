import Rsock.FakeTcp
import Rsock.Frame
import Rsock.Lib.Run

/-!
# The TCP path between two net conns

The layers a payload passes from one `FakeTcp` to the other: `FakeTcp::Output`, `RConn::Output`,
`RawTcp::Output`, the wire, `RawTcp::RawInput`, the sync connection, `RConn::OnRecv` and
`FakeTcp::OnRecv`. Segments are delivered once and in order; any number of them may be in flight.
-/

namespace Rsock

open CMem

/-- `RConn::Output` with the raw connection below it, as the output callback of a net conn: the
    result, the connection afterwards and the segment that was written. -/
def RConn.outputRaw (c : RConn) (md5 : Md5) (res : RawTcp.LibnetRes) (info : Info)
    (payload : List UInt8) : Except Fault (Int × RConn × Option RawTcp.Segment) := do
  match ← c.output md5 .little info payload with
  | .rawSend i buf =>
    let (raw, sent) := c.mRawTcp.output res i buf
    return (sent.n, { c with mRawTcp := raw }, sent.segment)
  | .udpSend _ _ buf => return (buf.length, c, none)
  | .ret n => return (n, c, none)

/-- The receiving side: what a delivered segment does to the net conn it is for, when the upper
    layer's result is `n`. -/
def FakeTcp.recvSegment (c : FakeTcp) (r : RConn) (md5 : Md5) (seg : RawTcp.Segment)
    (x : FrameRest) (n : Int) : Except Fault FakeTcp := do
  match ← r.mRawTcp.loopInput (seg.frame r.mRawTcp.mDatalink x) with
  | none => return c
  | some (info, buf) =>
    match ← r.onRecv md5 .little (.tcp info) buf with
    | .deliver (.tcp info) _ _ => do
      let (c, _) ← c.onRecv info n
      return c
    | _ => return c

/-- Two net conns, the sender's `RConn` and the segments in flight, oldest first. -/
structure TcpPath where
  sender : FakeTcp
  rconn : RConn
  wire : List RawTcp.Segment := []
  receiver : FakeTcp

namespace TcpPath

inductive Event where
  /-- The sender outputs a payload; libnet answers `res`. -/
  | output (hd : EncHead) (payload : List UInt8) (res : RawTcp.LibnetRes)
  /-- The oldest segment arrives in some frame; the receiver's upper layer returns `n`. -/
  | deliver (x : FrameRest) (n : Nat)

/-- One event, where `r` is the receiver's `RConn`. -/
def step (md5 : Md5) (r : RConn) (p : TcpPath) : Event → Except Fault TcpPath
  | .output hd payload res => do
    let (sender, _, rconn, seg) ← p.sender.output hd payload (p.rconn.outputRaw md5 res)
    return { p with sender := sender, rconn := rconn, wire := p.wire ++ seg.toList }
  | .deliver x n =>
    match p.wire with
    | [] => return p
    | seg :: wire => do
      let receiver ← p.receiver.recvSegment r md5 seg x n
      return { p with receiver := receiver, wire := wire }

end TcpPath

end Rsock
