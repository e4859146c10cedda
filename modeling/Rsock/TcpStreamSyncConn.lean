import Rsock.Comm

/-!
# `TcpStreamSyncConn`: datagrams over a local byte stream

Where there are no Unix datagram sockets, the capture thread sends its datagrams to the event loop
over a TCP connection to itself (src/sync/TcpStreamSyncConn.cpp): `Send` puts a host-order count in
front of each, `rawInput` takes the stream apart again, however it is cut into reads.
-/

namespace Rsock

open CMem

namespace TcpStreamSyncConn

@[simp] def countSize : Nat := 4

@[simp] def maxBufSize : Nat := omMaxPktSize + countSize * 2

@[simp] def largeBufSize : Nat := rsockUvMaxBuf + maxBufSize

/-- `*(COUNT_TYPE *) p = n` -/
def storeCount (o : ByteOrder) (n : Nat) : List UInt8 := o.store countSize n

/-- `*(COUNT_TYPE *) p`, a signed 32-bit number. -/
def loadCount (o : ByteOrder) (bs : List UInt8) : Int := (BitVec.ofNat 32 (o.load bs)).toInt

def uvEof : Int := -4095

end TcpStreamSyncConn

open TcpStreamSyncConn

/-- `class TcpStreamSyncConn` -/
structure TcpStreamSyncConn where
  /-- Starts with data, not with the count. -/
  mTempBuf : Buf maxBufSize
  mNextLen : Nat := 0
  mBufLen : Nat := 0
  mLargeBuf : Buf largeBufSize

namespace TcpStreamSyncConn

/-- `TcpStreamSyncConn::doSend`: the bytes that go into the stream. -/
def doSend (buf : List UInt8) : Except Fault (List UInt8) :=
  if 0 < buf.length then do
    cassert (buf.length < omMaxPktSize)
    return buf
  else return []

/-- `TcpStreamSyncConn::Send` -/
def send (o : ByteOrder) (rbuf : List UInt8) : Except Fault (List UInt8) :=
  if 0 < rbuf.length then do
    let p ← (Cursor.start maxBufSize).write (storeCount o rbuf.length)
    let p ← p.write rbuf
    cassert (rbuf.length + countSize ≤ maxBufSize)
    doSend p.written
  else return []

/-- `TcpStreamSyncConn::markTempBuf` -/
def markTempBuf (c : TcpStreamSyncConn) (nextLen : Int) (buf : List UInt8) (bufLen : Nat) :
    Except Fault TcpStreamSyncConn := do
  cassert (0 ≤ nextLen)
  let temp ← if 0 < bufLen then do
      let (src, _) ← readBytes bufLen buf
      c.mTempBuf.memcpy 0 src
    else pure c.mTempBuf
  return { c with mTempBuf := temp, mBufLen := bufLen, mNextLen := nextLen.toNat }

/-- The loop of `rawInput`, without the check that only logs: the frames `Input` is called with. `p`
    points into `mLargeBuf`. -/
def inputLoop (c : TcpStreamSyncConn) (o : ByteOrder) (p : List UInt8) (left : Nat) :
    Except Fault (TcpStreamSyncConn × List (List UInt8)) :=
  if left < countSize then do
    let c ← c.markTempBuf 0 p left
    return (c, [])
  else do
    let (bs, p) ← readBytes countSize p
    let nextLen := loadCount o bs
    cassert (0 < nextLen ∧ nextLen < maxBufSize)
    if nextLen ≤ (left - countSize : Nat) then do
      let (frame, p) ← readBytes nextLen.toNat p
      let (c, frames) ← c.inputLoop o p (left - countSize - nextLen.toNat)
      return (c, frame :: frames)
    else do
      let c ← c.markTempBuf nextLen p (left - countSize)
      return (c, [])
termination_by left
decreasing_by
  simp only [countSize] at *
  omega

/-- `TcpStreamSyncConn::rawInput`. The frames `Input` is called with stand for its results, which
    the caller ignores. -/
def rawInput (c : TcpStreamSyncConn) (o : ByteOrder) (nread : Int) (buf : List UInt8) :
    Except Fault (TcpStreamSyncConn × List (List UInt8)) :=
  if 0 < nread then do
    cassert (c.mNextLen ≤ maxBufSize)
    cassert (nread ≤ largeBufSize)
    let (chunk, _) ← readBytes nread.toNat buf
    let totLen := nread.toNat + c.mBufLen
    if totLen > c.mNextLen then do
      -- a count that was taken off is put back in front
      let count := if c.mNextLen > 0 then storeCount o c.mNextLen else []
      let large ← c.mLargeBuf.memcpy 0 count
      let (temp, _) ← readBytes c.mBufLen c.mTempBuf.bytes
      let large ← large.memcpy count.length temp
      let large ← large.memcpy (count.length + c.mBufLen) chunk
      inputLoop { c with mLargeBuf := large } o large.bytes (totLen + count.length)
    else if totLen < c.mNextLen then do
      let temp ← c.mTempBuf.memcpy c.mBufLen chunk
      return ({ c with mTempBuf := temp, mBufLen := c.mBufLen + nread.toNat }, [])
    else do
      let temp ← c.mTempBuf.memcpy c.mBufLen chunk
      let (frame, _) ← readBytes totLen temp.bytes
      let c ← markTempBuf { c with mTempBuf := temp } 0 [] 0
      return (c, [frame])
  else if nread = uvEof then do
    let c ← c.markTempBuf 0 [] 0
    return (c, [])
  else if nread < 0 then .error .assertFailed
  else return (c, [])

/-- The reads of the event loop, one after another, with all frames `Input` is called with. -/
def feed (c : TcpStreamSyncConn) (o : ByteOrder) :
    List (List UInt8) → Except Fault (TcpStreamSyncConn × List (List UInt8))
  | [] => .ok (c, [])
  | chunk :: chunks => do
    let (c, frames) ← c.rawInput o chunk.length chunk
    let (c, frames') ← c.feed o chunks
    return (c, frames ++ frames')

end TcpStreamSyncConn

end Rsock
