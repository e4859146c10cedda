import Rsock.RawTcp

/-!
# Frames on the wire

The bytes of the frame that carries a TCP segment, as the network delivers it to a capturing host:
link header, IPv4 header, TCP header, payload and link-layer padding. What no reader of the frame
looks at is arbitrary (`FrameRest`).
-/

namespace Rsock

open CMem

/-- The parts of a frame that do not depend on the segment. -/
structure FrameRest where
  macs : Buf 12
  tos : UInt8
  fragment : Buf 2
  ttl : UInt8
  ipSum : Buf 2
  /-- The length of the IP options in 32-bit words. -/
  ipWords : Fin 11
  ipOptions : Buf (4 * ipWords)
  /-- The reserved bits beside the data offset. -/
  x2 : Fin 16
  window : Buf 2
  tcpSum : Buf 2
  urgent : Buf 2
  /-- The length of the TCP options in 32-bit words. -/
  tcpWords : Fin 11
  tcpOptions : Buf (4 * tcpWords)
  padding : List UInt8

namespace FrameRest

/-- No options and no padding. -/
def plain : FrameRest where
  macs := Buf.zeros 12
  tos := 0
  fragment := Buf.zeros 2
  ttl := 64
  ipSum := Buf.zeros 2
  ipWords := 0
  ipOptions := Buf.zeros 0
  x2 := 0
  window := Buf.zeros 2
  tcpSum := Buf.zeros 2
  urgent := Buf.zeros 2
  tcpWords := 0
  tcpOptions := Buf.zeros 0
  padding := []

/-- The link header of an IPv4 packet. -/
def linkBytes (x : FrameRest) : Datalink → List UInt8
  | .en10mb => x.macs.bytes ++ [0x08, 0x00]
  | .null => [2, 0, 0, 0]
  | .other => []

end FrameRest

namespace RawTcp.Segment

/-- The fixed part of the IPv4 header. -/
def ipHeader (seg : Segment) (x : FrameRest) : List UInt8 :=
  [UInt8.ofNat (0x40 + (5 + x.ipWords))] ++ ([x.tos] ++ (ByteOrder.big.store 2
      (20 + 4 * x.ipWords + (20 + 4 * x.tcpWords) + seg.payload.length) ++
    (ByteOrder.big.store 2 seg.ipId.toNat ++ (x.fragment.bytes ++ ([x.ttl] ++
    ([UInt8.ofNat ipprotoTcp] ++ (x.ipSum.bytes ++ (ByteOrder.little.store 4 seg.src.toNat ++
    ByteOrder.little.store 4 seg.dst.toNat))))))))

/-- The fixed part of the TCP header. -/
def tcpHeader (seg : Segment) (x : FrameRest) : List UInt8 :=
  ByteOrder.big.store 2 seg.sp.toNat ++ (ByteOrder.big.store 2 seg.dp.toNat ++
    (ByteOrder.big.store 4 seg.seq.toNat ++ (ByteOrder.big.store 4 seg.ack.toNat ++
    ([UInt8.ofNat (16 * (5 + x.tcpWords) + x.x2)] ++ ([seg.flag] ++ (x.window.bytes ++
    (x.tcpSum.bytes ++ x.urgent.bytes)))))))

/-- The frame that carries the segment over the given link. -/
def frame (seg : Segment) (d : Datalink) (x : FrameRest) : List UInt8 :=
  x.linkBytes d ++ (seg.ipHeader x ++ (x.ipOptions.bytes ++ (seg.tcpHeader x ++
    (x.tcpOptions.bytes ++ (seg.payload ++ x.padding)))))

/-- The `TcpInfo` of the segment seen from the receiving side. -/
def recvInfo (seg : Segment) : TcpInfo :=
  { src := seg.dst, sp := seg.dp, dst := seg.src, dp := seg.sp, seq := seg.seq, ack := seg.ack,
    flag := seg.flag }

end RawTcp.Segment

end Rsock
