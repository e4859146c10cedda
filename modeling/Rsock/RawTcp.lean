import Rsock.ConnInfo

/-!
# `RawTcp`: captured frames in, raw segments out

`RawTcp` (conn/RawTcp.cpp) reads the TCP segments pcap captures (`RawInput`), hands them to the
event loop through a sync connection (`cap2uv`, `syncInput`), and writes segments with libnet
(`Output`, `SendRawTcp`).

A captured frame is the list of its bytes and `hdr->len` is its length; a read that leaves it is an
`outOfBounds` fault. `RawInput` compares the ethernet type with a constant that is only right on a
little-endian host, so the host's byte order is fixed to little-endian here.
-/

namespace Rsock

open CMem

/-! ## Reading a frame -/

/-- The `w` bytes of the frame at offset `off`. -/
def rdBytes (frame : List UInt8) (off w : Nat) : Except Fault (List UInt8) :=
  if off + w ≤ frame.length then .ok ((frame.drop off).take w) else .error .outOfBounds

/-- An integer field of the frame as the host reads it. -/
def rdHost (frame : List UInt8) (off w : Nat) : Except Fault Nat := do
  let bs ← rdBytes frame off w
  return ByteOrder.little.load bs

/-- An integer field of the frame through `ntohs` or `ntohl`. -/
def rdNet (frame : List UInt8) (off w : Nat) : Except Fault Nat := do
  let bs ← rdBytes frame off w
  return ByteOrder.big.load bs

/-- The link layers `RawInput` knows. -/
inductive Datalink where
  | en10mb
  | null
  | other
  deriving DecidableEq, Repr

/-- `OM_PROTO_IP`, network order -/
def omProtoIp : Nat := 0x0008

@[simp] def libnetEthH : Nat := 14

def ipprotoTcp : Nat := 6

@[simp] def sizeofSA4 : Nat := 16

/-- `class RawTcp`. Of the pointers it holds, only whether they are null is used here. -/
structure RawTcp where
  mDatalink : Datalink := .en10mb
  mTcpAckPool : Bool := true
  mIsServer : Bool := false
  mIpId : UInt16 := 0
  mTcpNet : Bool := true
  mTcpTag : Int := 0
  mIp4TcpTag : Int := 0
  mSyncConn : Bool := true
  deriving DecidableEq

namespace RawTcp

/-- What `RawTcp::RawInput` does with a frame. -/
inductive RawAct where
  | ret (n : Int)
  /-- It records the handshake in the ack pool and returns 0. -/
  | addInfoFromPeer (info : TcpInfo) (flags : UInt8)
  /-- It returns `cap2uv(&info, payload, payload_len)`, `payload` being an offset in the frame. -/
  | cap2uv (info : TcpInfo) (payload : Nat) (payloadLen : Int)
  deriving DecidableEq

/-- The link header: a return code, or the offset of the IP header. -/
def linkHeader (r : RawTcp) (frame : List UInt8) : Except Fault (Int ⊕ Nat) :=
  match r.mDatalink with
  | .en10mb => do
    let etherType ← rdHost frame 12 2
    if etherType ≠ omProtoIp then return .inl 0 else return .inr libnetEthH
  | .null => do
    let type ← rdHost frame 0 4
    if 2 ≠ type then return .inl 0 else return .inr 4
  | .other => return .inl (-1)

/-- The `TcpInfo` of the segment whose IP header is at `ip` and whose TCP header is at `tcp`, seen
    from the receiving side. -/
def segmentInfo (frame : List UInt8) (ip tcp : Nat) : Except Fault TcpInfo := do
  let src ← rdHost frame (ip + 16) 4
  let sp ← rdNet frame (tcp + 2) 2
  let dst ← rdHost frame (ip + 12) 4
  let dp ← rdNet frame tcp 2
  let seq ← rdNet frame (tcp + 4) 4
  let ack ← rdNet frame (tcp + 8) 4
  let flag ← rdHost frame (tcp + 13) 1
  return { src := UInt32.ofNat src, sp := UInt16.ofNat sp, dst := UInt32.ofNat dst,
           dp := UInt16.ofNat dp, seq := UInt32.ofNat seq, ack := UInt32.ofNat ack,
           flag := UInt8.ofNat flag }

/-- `RawTcp::RawInput`, without the block that only logs. -/
def rawInput (r : RawTcp) (frame : List UInt8) : Except Fault RawAct :=
  if frame.length < 44 then return .ret 0
  else do
    match ← r.linkHeader frame with
    | .inl n => return .ret n
    | .inr ip =>
      let proto ← rdHost frame (ip + 9) 1
      if proto ≠ ipprotoTcp then return .ret 0
      else
        let vhl ← rdHost frame ip 1
        let tcp := ip + vhl % 16 * 4
        let offx2 ← rdHost frame (tcp + 12) 1
        let payload := tcp + offx2 / 16 * 4
        let ipLen ← rdNet frame (ip + 2) 2
        let payloadLen : Int := ipLen - (payload - ip : Nat)
        let info ← segmentInfo frame ip tcp
        if info.flag &&& thSyn ≠ 0 ∧ r.mTcpAckPool then
          return .addInfoFromPeer (if r.mIsServer then info.reverse else info) info.flag
        else if payloadLen < hashBufSize + 1 ∧ ¬ info.hasCloseFlag then return .ret 0
        else
          return .cap2uv { info with seq := info.seq + UInt32.ofInt payloadLen } payload payloadLen

/-- What `RawTcp::cap2uv` does with a segment. -/
inductive CapAct where
  | ret (n : Int)
  /-- It returns `mSyncConn->Send(len, buf)`. -/
  | send (buf : List UInt8)
  deriving DecidableEq

/-- `RawTcp::cap2uv`, with the payload at offset `payload` of the frame. -/
def cap2uv (r : RawTcp) (info : TcpInfo) (frame : List UInt8) (payload : Nat) (payloadLen : Int) :
    Except Fault CapAct :=
  -- `payload_len` is converted to `size_t` before the addition
  if (sizeT payloadLen + 2 * sizeofSA4) % 2 ^ 64 > omMaxPktSize then return .ret 0
  else do
    match ← info.encode .little (Cursor.start omMaxPktSize) omMaxPktSize with
    | none => return .ret 0
    | some p =>
      let src ← rdBytes frame payload (sizeT payloadLen)
      let p ← p.write src
      if r.mSyncConn then return .send p.written else return .ret (-1)

/-- What `RawTcp::syncInput` does with what it reads. -/
inductive SyncAct where
  | ret (n : Int)
  /-- It returns `rawTcp->Input(len, inbuf)`. -/
  | input (info : TcpInfo) (buf : List UInt8)
  deriving DecidableEq

/-- `RawTcp::syncInput` -/
def syncInput (buf : List UInt8) : Except Fault SyncAct :=
  if 0 < buf.length then do
    let (info, q) ← TcpInfo.decode {} .little buf buf.length
    match q with
    | none => return .ret (-1)
    | some p => return .input info p
  else return .ret 0

/-! ## Output -/

/-- A TCP segment as it is given to libnet, addresses in network and ports in host byte order. -/
structure Segment where
  src : UInt32
  sp : UInt16
  dst : UInt32
  dp : UInt16
  seq : UInt32
  ack : UInt32
  flag : UInt8
  ipId : UInt16
  payload : List UInt8
  deriving DecidableEq

/-- What libnet answers: `libnet_build_tcp`, `libnet_build_ipv4` and `libnet_write`. -/
structure LibnetRes where
  tcp : Int
  ip : Int
  written : Int
  deriving DecidableEq

/-- `RawTcp::SendRawTcp`: its result, the two tags and the segment, if one was written. -/
def sendRawTcp (res : LibnetRes) (seg : Segment) (ipTag : Int) :
    Int × Int × Int × Option Segment :=
  if res.tcp = -1 then (-1, -1, ipTag, none)
  else if res.ip = -1 then (-1, res.tcp, -1, none)
  else if res.written = -1 then (-1, res.tcp, res.ip, none)
  else (seg.payload.length, res.tcp, res.ip, some seg)

/-- What `RawTcp::Output` has sent. -/
structure Sent where
  n : Int
  segment : Option Segment
  /-- `RouteService::CheckNetworkStatusDelayed` is called. -/
  checkNetwork : Bool

/-- `RawTcp::Output` -/
def output (r : RawTcp) (res : LibnetRes) (info : TcpInfo) (buf : List UInt8) : RawTcp × Sent :=
  if r.mTcpNet then
    -- `payload_len` is a `uint16_t`
    let seg : Segment := ⟨info.src, info.sp, info.dst, info.dp, info.seq, info.ack, info.flag,
      r.mIpId, buf.take (buf.length % 2 ^ 16)⟩
    let (n, tcpTag, ipTag, sent) := sendRawTcp res seg r.mIp4TcpTag
    ({ r with mIpId := r.mIpId + 1, mTcpTag := tcpTag, mIp4TcpTag := ipTag }, ⟨n, sent, n < 0⟩)
  else (r, ⟨-1, none, true⟩)

end RawTcp

/-! ## The datagram sync connection -/

namespace UnixDgramSyncConn

/-- `UnixDgramSyncConn::pollCb` on a datagram written by `Send`: what `Input` is called with, if it
    is called. `read` drops what does not fit its buffer. -/
def pollCb (datagram : List UInt8) : Option (List UInt8) :=
  let buf := datagram.take omMaxPktSize
  if 0 < buf.length then some buf else none

end UnixDgramSyncConn

/-! ## From the capture thread to the event loop -/

/-- What `RawTcp::Input` is called with in the event loop after the capture thread has run
    `RawInput` on a frame, if it is called. -/
def RawTcp.loopInput (r : RawTcp) (frame : List UInt8) :
    Except Fault (Option (TcpInfo × List UInt8)) := do
  match ← r.rawInput frame with
  | .ret _ => return none
  | .addInfoFromPeer _ _ => return none
  | .cap2uv info payload payloadLen =>
    match ← r.cap2uv info frame payload payloadLen with
    | .ret _ => return none
    | .send datagram =>
      match UnixDgramSyncConn.pollCb datagram with
      | none => return none
      | some buf =>
        match ← RawTcp.syncInput buf with
        | .ret _ => return none
        | .input info buf => return some (info, buf)

end Rsock
