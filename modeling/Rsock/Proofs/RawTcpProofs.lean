import Rsock.Frame
import Rsock.Proofs.CodecProofs

/-!
# Proofs: `RawTcp`

What `RawInput` does with the frame of a segment (`rawInput_frame`) and which captured frames it
reads only inside their bounds (`rawInput_inFrame_iff`).
-/

namespace Rsock

open CMem

namespace RawTcp

/-! ## Reading fields -/

theorem rdBytes_skip {a b : List UInt8} {off w : Nat} (h : a.length ≤ off) :
    rdBytes (a ++ b) off w = rdBytes b (off - a.length) w := by
  have hd : (a ++ b).drop off = b.drop (off - a.length) := by
    rw [List.drop_append, List.drop_eq_nil_of_le h, List.nil_append]
  unfold rdBytes
  rw [hd, List.length_append]
  congr 1
  exact propext (by omega)

theorem rdBytes_here {a b : List UInt8} {w : Nat} (h : a.length = w) :
    rdBytes (a ++ b) 0 w = .ok a := by
  subst h
  simp [rdBytes]

theorem rdBytes_all {a : List UInt8} {w : Nat} (h : a.length = w) :
    rdBytes a 0 w = .ok a := by
  subst h
  simp [rdBytes]

theorem rdBytes_left {a b : List UInt8} {off w : Nat} (h : off + w ≤ a.length) :
    rdBytes (a ++ b) off w = rdBytes a off w := by
  unfold rdBytes
  rw [if_pos h, if_pos (by rw [List.length_append]; omega), List.drop_append_of_le_length (by omega),
    List.take_append_of_le_length (by rw [List.length_drop]; omega)]

theorem rdHost_store {frame : List UInt8} {off w i : Nat}
    (h : rdBytes frame off w = .ok (ByteOrder.little.store w i)) (hi : i < 256 ^ w) :
    rdHost frame off w = .ok i := by
  rw [rdHost, h, ok_bind, ByteOrder.load_store_of_lt _ hi]
  rfl

theorem rdNet_store {frame : List UInt8} {off w i : Nat}
    (h : rdBytes frame off w = .ok (ByteOrder.big.store w i)) (hi : i < 256 ^ w) :
    rdNet frame off w = .ok i := by
  rw [rdNet, h, ok_bind, ByteOrder.load_store_of_lt _ hi]
  rfl

theorem rdHost_byte {frame : List UInt8} {off : Nat} {b : UInt8}
    (h : rdBytes frame off 1 = .ok [b]) : rdHost frame off 1 = .ok b.toNat := by
  rw [rdHost, h]
  simp [ByteOrder.load, ofLE, pure, Except.pure]

theorem ofInt_natCast (i : Nat) : UInt32.ofInt (i : Int) = UInt32.ofNat i := by
  have hi : ((i : Int) % 2 ^ 32).toNat = i % 2 ^ 32 := by omega
  rw [UInt32.ofInt, hi]
  exact UInt32.ofNat_mod_size

section Fields

variable (seg : Segment) (x : FrameRest)

@[simp] theorem Segment.length_ipHeader : (seg.ipHeader x).length = 20 := by
  simp [Segment.ipHeader]

@[simp] theorem Segment.length_tcpHeader : (seg.tcpHeader x).length = 20 := by
  simp [Segment.tcpHeader]

theorem ipHeader_fields :
    rdBytes (seg.ipHeader x) 0 1 = .ok [UInt8.ofNat (0x40 + (5 + x.ipWords))] ∧
    rdBytes (seg.ipHeader x) 2 2 = .ok (ByteOrder.big.store 2
      (20 + 4 * x.ipWords + (20 + 4 * x.tcpWords) + seg.payload.length)) ∧
    rdBytes (seg.ipHeader x) 9 1 = .ok [UInt8.ofNat ipprotoTcp] ∧
    rdBytes (seg.ipHeader x) 12 4 = .ok (ByteOrder.little.store 4 seg.src.toNat) ∧
    rdBytes (seg.ipHeader x) 16 4 = .ok (ByteOrder.little.store 4 seg.dst.toNat) := by
  unfold Segment.ipHeader
  simp (disch := simp) only [rdBytes_skip, List.length_singleton, ByteOrder.length_store,
    Buf.length_eq, Nat.reduceSub, Nat.sub_self, rdBytes_here, rdBytes_all, and_self]

theorem tcpHeader_fields :
    rdBytes (seg.tcpHeader x) 0 2 = .ok (ByteOrder.big.store 2 seg.sp.toNat) ∧
    rdBytes (seg.tcpHeader x) 2 2 = .ok (ByteOrder.big.store 2 seg.dp.toNat) ∧
    rdBytes (seg.tcpHeader x) 4 4 = .ok (ByteOrder.big.store 4 seg.seq.toNat) ∧
    rdBytes (seg.tcpHeader x) 8 4 = .ok (ByteOrder.big.store 4 seg.ack.toNat) ∧
    rdBytes (seg.tcpHeader x) 12 1 = .ok [UInt8.ofNat (16 * (5 + x.tcpWords) + x.x2)] ∧
    rdBytes (seg.tcpHeader x) 13 1 = .ok [seg.flag] := by
  unfold Segment.tcpHeader
  simp (disch := simp) only [rdBytes_skip, List.length_singleton, ByteOrder.length_store,
    Nat.reduceSub, Nat.sub_self, rdBytes_here, and_self]

end Fields

/-! ## The frame of a segment -/

section Frame

variable (seg : Segment) (d : Datalink) (x : FrameRest)

theorem rdBytes_frame_ip {k w : Nat} (h : k + w ≤ 20) :
    rdBytes (seg.frame d x) ((x.linkBytes d).length + k) w = rdBytes (seg.ipHeader x) k w := by
  unfold Segment.frame
  rw [rdBytes_skip (by omega), rdBytes_left (by simp; omega), Nat.add_sub_cancel_left]

theorem rdBytes_frame_tcp {k w : Nat} (h : k + w ≤ 20) :
    rdBytes (seg.frame d x) ((x.linkBytes d).length + (5 + x.ipWords) * 4 + k) w =
      rdBytes (seg.tcpHeader x) k w := by
  unfold Segment.frame
  rw [rdBytes_skip (by omega), rdBytes_skip (by simp; omega), rdBytes_skip (by simp; omega),
    rdBytes_left (by simp; omega)]
  congr 1
  simp
  omega

/-- Where the payload starts in the frame. -/
def payloadOffset : Nat := (x.linkBytes d).length + (5 + x.ipWords) * 4 + (5 + x.tcpWords) * 4

theorem rdBytes_frame_payload :
    rdBytes (seg.frame d x) (payloadOffset d x) seg.payload.length = .ok seg.payload := by
  unfold Segment.frame payloadOffset
  rw [rdBytes_skip (by omega), rdBytes_skip (by simp; omega), rdBytes_skip (by simp; omega),
    rdBytes_skip (by simp; omega), rdBytes_skip (by simp; omega)]
  rw [← rdBytes_here (b := x.padding) (Eq.refl seg.payload.length)]
  congr 1
  simp
  omega

theorem length_frame : (seg.frame d x).length =
    payloadOffset d x + seg.payload.length + x.padding.length := by
  simp [Segment.frame, payloadOffset]
  omega

variable {d}

theorem length_linkBytes (hd : d ≠ .other) :
    (x.linkBytes d).length = 14 ∨ (x.linkBytes d).length = 4 := by
  cases d with
  | en10mb => simp [FrameRest.linkBytes]
  | null => simp [FrameRest.linkBytes]
  | other => exact absurd rfl hd

theorem linkHeader_frame {r : RawTcp} (hd : r.mDatalink ≠ .other) :
    r.linkHeader (seg.frame r.mDatalink x) = .ok (.inr (x.linkBytes r.mDatalink).length) := by
  unfold linkHeader Segment.frame
  cases h : r.mDatalink with
  | en10mb =>
    simp only [FrameRest.linkBytes, List.append_assoc]
    rw [rdHost, rdBytes_skip (by simp), rdBytes_left (by simp), x.macs.length_eq, Nat.sub_self,
      rdBytes_all (by simp)]
    simp [ByteOrder.load, ofLE, omProtoIp, pure, Except.pure]
  | null =>
    simp only [FrameRest.linkBytes]
    rw [rdHost, rdBytes_left (by simp), rdBytes_all (by simp)]
    simp [ByteOrder.load, ofLE, pure, Except.pure]
  | other => exact absurd h hd

theorem segmentInfo_frame :
    segmentInfo (seg.frame d x) (x.linkBytes d).length
      ((x.linkBytes d).length + (5 + x.ipWords) * 4) = .ok seg.recvInfo := by
  obtain ⟨-, -, -, hsrc, hdst⟩ := ipHeader_fields seg x
  obtain ⟨hsp, hdp, hseq, hack, -, hflag⟩ := tcpHeader_fields seg x
  have hip (k w : Nat) (h : k + w ≤ 20) := rdBytes_frame_ip seg d x h
  have htcp (k w : Nat) (h : k + w ≤ 20) := rdBytes_frame_tcp seg d x h
  have hsp' : rdNet (seg.frame d x) ((x.linkBytes d).length + (5 + x.ipWords) * 4) 2 =
      .ok seg.sp.toNat := rdNet_store ((htcp 0 2 (by omega)).trans hsp) seg.sp.toNat_lt
  unfold segmentInfo
  rw [rdHost_store ((hip 16 4 (by omega)).trans hdst) seg.dst.toNat_lt,
    rdNet_store ((htcp 2 2 (by omega)).trans hdp) seg.dp.toNat_lt,
    rdHost_store ((hip 12 4 (by omega)).trans hsrc) seg.src.toNat_lt,
    hsp', rdNet_store ((htcp 4 4 (by omega)).trans hseq) seg.seq.toNat_lt,
    rdNet_store ((htcp 8 4 (by omega)).trans hack) seg.ack.toNat_lt,
    rdHost_byte ((htcp 13 1 (by omega)).trans hflag)]
  simp [Segment.recvInfo, pure, Except.pure]

theorem rawInput_frame {r : RawTcp} (hd : r.mDatalink ≠ .other)
    (hl : seg.payload.length ≤ 65415) :
    r.rawInput (seg.frame r.mDatalink x) = .ok (
      if seg.flag &&& thSyn ≠ 0 ∧ r.mTcpAckPool then
        .addInfoFromPeer (if r.mIsServer then seg.recvInfo.reverse else seg.recvInfo) seg.flag
      else if seg.payload.length < 9 ∧ ¬ seg.recvInfo.hasCloseFlag then .ret 0
      else .cap2uv { seg.recvInfo with seq := seg.seq + UInt32.ofNat seg.payload.length }
        (payloadOffset r.mDatalink x) seg.payload.length) := by
  obtain ⟨hvhl, hlen, hproto, -, -⟩ := ipHeader_fields seg x
  obtain ⟨-, -, -, -, hoff, -⟩ := tcpHeader_fields seg x
  have hip (k w : Nat) (h : k + w ≤ 20) := rdBytes_frame_ip seg r.mDatalink x h
  have htcp (k w : Nat) (h : k + w ≤ 20) := rdBytes_frame_tcp seg r.mDatalink x h
  have hiw := x.ipWords.isLt
  have htw := x.tcpWords.isLt
  have hx2 := x.x2.isLt
  have h44 : ¬ (seg.frame r.mDatalink x).length < 44 := by
    have hlink := length_linkBytes x hd
    rw [length_frame, payloadOffset]
    omega
  have hhl : (UInt8.ofNat (0x40 + (5 + x.ipWords.val))).toNat % 16 * 4 = (5 + x.ipWords) * 4 := by
    simp
    omega
  have hto : (UInt8.ofNat (16 * (5 + x.tcpWords.val) + x.x2.val)).toNat / 16 * 4 =
      (5 + x.tcpWords) * 4 := by
    simp
    omega
  have hvhl' : rdHost (seg.frame r.mDatalink x) (x.linkBytes r.mDatalink).length 1 = .ok _ :=
    rdHost_byte ((hip 0 1 (by omega)).trans hvhl)
  have hpay : ((20 + 4 * x.ipWords + (20 + 4 * x.tcpWords) + seg.payload.length : Nat) : Int) -
      (((x.linkBytes r.mDatalink).length + (5 + x.ipWords) * 4 + (5 + x.tcpWords) * 4 -
        (x.linkBytes r.mDatalink).length : Nat) : Int) = seg.payload.length := by
    omega
  unfold rawInput
  rw [if_neg h44, linkHeader_frame seg x hd, ok_bind]
  simp only []
  rw [rdHost_byte ((hip 9 1 (by omega)).trans hproto), ok_bind, if_neg (by decide), hvhl', ok_bind]
  simp only [hhl]
  rw [rdHost_byte ((htcp 12 1 (by omega)).trans hoff), ok_bind,
    rdNet_store ((hip 2 2 (by omega)).trans hlen) (by omega), ok_bind]
  simp only [hto, segmentInfo_frame, ok_bind, hpay]
  have hshort : ((seg.payload.length : Int) < (hashBufSize : Nat) + 1) ↔
      seg.payload.length < 9 := by
    simp only [hashBufSize]
    omega
  rw [apply_ite Except.ok, apply_ite Except.ok]
  simp only [hshort]
  rw [ofInt_natCast]
  rfl

end Frame

/-! ## From the capture thread to the event loop -/

/-- `cap2uv` passes on the payloads whose length is at most 1468, behind the info. -/
theorem cap2uv_ok (r : RawTcp) (info : TcpInfo) {frame payload : List UInt8} {off : Nat}
    (hp : rdBytes frame off payload.length = .ok payload) (hl : payload.length ≤ 65535) :
    r.cap2uv info frame off payload.length = .ok (
      if payload.length ≤ 1468 then
        if r.mSyncConn then .send (info.wire ++ payload) else .ret (-1)
      else .ret 0) := by
  have hsz : sizeT payload.length = payload.length := sizeT_natCast (by omega)
  have hguard : ((sizeT payload.length + 2 * sizeofSA4) % 2 ^ 64 > omMaxPktSize) ↔
      ¬ payload.length ≤ 1468 := by
    simp only [hsz, sizeofSA4, omMaxPktSize]
    omega
  unfold cap2uv
  by_cases h : payload.length ≤ 1468
  · rw [if_neg (hguard.not.2 (not_not.2 h)), if_pos h]
    obtain ⟨p, hpe, hpw, hpp⟩ := info.encode_little (p := Cursor.start omMaxPktSize) (by simp)
      omMaxPktSize (by rw [sizeT_natCast (by simp)]; decide)
    obtain ⟨q, hq, hqw, -⟩ := p.write_ok payload (by rw [hpp]; simp; omega)
    simp only [hpe, ok_bind, hsz, hp, hq, hqw, hpw, Cursor.written_start, List.nil_append]
    rw [apply_ite Except.ok]
    rfl
  · rw [if_pos (hguard.2 h), if_neg h]
    rfl

theorem syncInput_wire (info : TcpInfo) {p : List UInt8} (hp : p.length ≤ 65535) :
    syncInput (info.wire ++ p) = .ok (.input { info with head := none } p) := by
  have hlen : (info.wire ++ p).length = 21 + p.length := by simp
  unfold syncInput
  rw [if_pos (by omega), info.decode_wire _ _ _ (by rw [sizeT_natCast (by omega)]; omega)]
  rfl

theorem pollCb_wire (info : TcpInfo) {p : List UInt8} (hp : p.length ≤ 1468) :
    UnixDgramSyncConn.pollCb (info.wire ++ p) = some (info.wire ++ p) := by
  have hlen : (info.wire ++ p).length = 21 + p.length := by simp
  have htake : (info.wire ++ p).take omMaxPktSize = info.wire ++ p :=
    List.take_of_length_le (by rw [hlen, omMaxPktSize]; omega)
  unfold UnixDgramSyncConn.pollCb
  simp only [htake]
  rw [if_pos (by omega)]

/-- What the event loop gets of the frame of a data segment: everything up to a payload of 1468
    bytes, nothing above. -/
theorem loopInput_frame {r : RawTcp} (hd : r.mDatalink ≠ .other) (hs : r.mSyncConn = true)
    (seg : Segment) (x : FrameRest) (hsyn : seg.flag &&& thSyn = 0) (h9 : 9 ≤ seg.payload.length)
    (hl : seg.payload.length ≤ 65415) :
    r.loopInput (seg.frame r.mDatalink x) = .ok (
      if seg.payload.length ≤ 1468 then
        some ({ seg.recvInfo with seq := seg.seq + UInt32.ofNat seg.payload.length }, seg.payload)
      else none) := by
  unfold loopInput
  rw [rawInput_frame seg x hd hl, if_neg (by simp [hsyn]), if_neg (by omega), ok_bind]
  simp only []
  rw [cap2uv_ok r _ (rdBytes_frame_payload seg _ x) (by omega), if_pos hs, ok_bind]
  by_cases h : seg.payload.length ≤ 1468
  · simp only [if_pos h, pollCb_wire _ h, syncInput_wire _ (Nat.le_trans h (by decide)), ok_bind]
    rfl
  · simp only [if_neg h]
    rfl

/-! ## Arbitrary frames

`RawInput` checks the length of a frame once, against the least length of the two headers behind a
loopback link header. Whether it stays inside the frame is decided by the fields themselves. -/

/-- The integer the host reads at an offset of the frame. -/
def hostField (frame : List UInt8) (off w : Nat) : Nat :=
  ByteOrder.little.load ((frame.drop off).take w)

/-- The integer in network byte order at an offset of the frame. -/
def netField (frame : List UInt8) (off w : Nat) : Nat :=
  ByteOrder.big.load ((frame.drop off).take w)

theorem rdHost_ok {frame : List UInt8} {off w : Nat} (h : off + w ≤ frame.length) :
    rdHost frame off w = .ok (hostField frame off w) := by
  rw [rdHost, rdBytes, if_pos h]
  rfl

theorem rdNet_ok {frame : List UInt8} {off w : Nat} (h : off + w ≤ frame.length) :
    rdNet frame off w = .ok (netField frame off w) := by
  rw [rdNet, rdBytes, if_pos h]
  rfl

theorem rdHost_eq_ok {frame : List UInt8} {off w i : Nat} (h : rdHost frame off w = .ok i) :
    off + w ≤ frame.length := by
  unfold rdHost rdBytes at h
  split at h
  · assumption
  · simp at h

theorem netField_lt (frame : List UInt8) (off w : Nat) : netField frame off w < 256 ^ w := by
  have h := ofLE_lt ((frame.drop off).take w).reverse
  refine Nat.lt_of_lt_of_le h (Nat.pow_le_pow_right (by omega) ?_)
  rw [List.length_reverse, List.length_take]
  omega

/-- The size of the link header. -/
def linkSize : Datalink → Nat
  | .en10mb => libnetEthH
  | .null => 4
  | .other => 0

/-- The link header announces an IPv4 packet. -/
def IsIpv4 (frame : List UInt8) : Datalink → Prop
  | .en10mb => hostField frame 12 2 = omProtoIp
  | .null => hostField frame 0 4 = 2
  | .other => False

instance (frame : List UInt8) (d : Datalink) : Decidable (IsIpv4 frame d) :=
  match d with
  | .en10mb => inferInstanceAs (Decidable (hostField frame 12 2 = omProtoIp))
  | .null => inferInstanceAs (Decidable (hostField frame 0 4 = 2))
  | .other => inferInstanceAs (Decidable False)

theorem linkHeader_ok {r : RawTcp} {frame : List UInt8} (hd : r.mDatalink ≠ .other)
    (h44 : 44 ≤ frame.length) :
    r.linkHeader frame =
      .ok (if IsIpv4 frame r.mDatalink then .inr (linkSize r.mDatalink) else .inl 0) := by
  unfold linkHeader
  cases h : r.mDatalink with
  | en10mb =>
    simp only []
    rw [rdHost_ok (by omega), ok_bind, ite_not, apply_ite Except.ok]
    rfl
  | null =>
    simp only []
    rw [rdHost_ok (by omega), ok_bind, ite_not, apply_ite Except.ok]
    simp only [IsIpv4, eq_comm]
    rfl
  | other => exact absurd h hd

section InFrame

variable (frame : List UInt8) (d : Datalink)

/-- Where the IP header says the TCP header starts. -/
def tcpOffset : Nat := linkSize d + hostField frame (linkSize d) 1 % 16 * 4

/-- The sizes of the IP and TCP header together, as the two headers give them. -/
def headersSize : Nat :=
  hostField frame (linkSize d) 1 % 16 * 4 + hostField frame (tcpOffset frame d + 12) 1 / 16 * 4

/-- The length of the IP packet, as its header gives it. -/
def ipLen : Nat := netField frame (linkSize d + 2) 2

/-- The flags of the frame's TCP header. -/
def tcpFlags : UInt8 := UInt8.ofNat (hostField frame (tcpOffset frame d + 13) 1)

/-- The fields of the frame keep `RawInput` inside it: it is dropped before the TCP header is
    looked at, or the TCP header up to the flags lies inside it and the segment is a handshake, or
    too short to be of interest, or an IP packet with both headers that lies inside the frame. -/
def HeadersFit (r : RawTcp) : Prop :=
  frame.length < 44 ∨ ¬ IsIpv4 frame r.mDatalink ∨
    hostField frame (linkSize r.mDatalink + 9) 1 ≠ ipprotoTcp ∨
    (tcpOffset frame r.mDatalink + 14 ≤ frame.length ∧
      ((tcpFlags frame r.mDatalink &&& thSyn ≠ 0 ∧ r.mTcpAckPool = true) ∨
       (ipLen frame r.mDatalink < headersSize frame r.mDatalink + 9 ∧
          tcpFlags frame r.mDatalink &&& (thFin ||| thRst) = 0) ∨
       (headersSize frame r.mDatalink ≤ ipLen frame r.mDatalink ∧
          linkSize r.mDatalink + ipLen frame r.mDatalink ≤ frame.length)))

/-- `RawInput` reads no header field outside the frame and, when it calls `cap2uv`, passes a
    payload inside it, which `cap2uv` copies without leaving any object. -/
def InFrame (r : RawTcp) : Prop :=
  ∃ act, r.rawInput frame = .ok act ∧ ∀ info payload payloadLen,
    act = .cap2uv info payload payloadLen →
      0 ≤ payloadLen ∧ payload + payloadLen ≤ frame.length ∧
      ∃ a, r.cap2uv info frame payload payloadLen = .ok a

/-- The info in the frame's headers. -/
def infoAt : TcpInfo :=
  { src := UInt32.ofNat (hostField frame (linkSize d + 16) 4)
    sp := UInt16.ofNat (netField frame (tcpOffset frame d + 2) 2)
    dst := UInt32.ofNat (hostField frame (linkSize d + 12) 4)
    dp := UInt16.ofNat (netField frame (tcpOffset frame d) 2)
    seq := UInt32.ofNat (netField frame (tcpOffset frame d + 4) 4)
    ack := UInt32.ofNat (netField frame (tcpOffset frame d + 8) 4)
    flag := tcpFlags frame d }

variable {frame d}

theorem segmentInfo_ok (hip : linkSize d + 20 ≤ frame.length)
    (htcp : tcpOffset frame d + 14 ≤ frame.length) :
    segmentInfo frame (linkSize d) (tcpOffset frame d) = .ok (infoAt frame d) := by
  unfold segmentInfo
  simp (disch := omega) only [rdHost_ok, rdNet_ok, ok_bind]
  rfl

theorem le_of_segmentInfo {ip tcp : Nat} {i : TcpInfo} (h : segmentInfo frame ip tcp = .ok i) :
    tcp + 14 ≤ frame.length := by
  simp only [segmentInfo, bind_eq_ok] at h
  obtain ⟨_, -, _, -, _, -, _, -, _, -, _, -, _, hflag, -⟩ := h
  have hle : tcp + 13 + 1 ≤ frame.length := rdHost_eq_ok hflag
  omega

variable {r : RawTcp}

theorem linkSize_le : linkSize d ≤ 14 := by
  cases d <;> simp [linkSize]

theorem rawInput_tcp (hd : r.mDatalink ≠ .other) (h44 : 44 ≤ frame.length)
    (hip : IsIpv4 frame r.mDatalink)
    (hproto : hostField frame (linkSize r.mDatalink + 9) 1 = ipprotoTcp)
    (htcp : tcpOffset frame r.mDatalink + 14 ≤ frame.length) :
    r.rawInput frame = .ok (
      if tcpFlags frame r.mDatalink &&& thSyn ≠ 0 ∧ r.mTcpAckPool then
        .addInfoFromPeer (if r.mIsServer then (infoAt frame r.mDatalink).reverse
          else infoAt frame r.mDatalink) (tcpFlags frame r.mDatalink)
      else if ipLen frame r.mDatalink < headersSize frame r.mDatalink + 9 ∧
          ¬ (infoAt frame r.mDatalink).hasCloseFlag then .ret 0
      else
        let payloadLen : Int := ipLen frame r.mDatalink - headersSize frame r.mDatalink
        .cap2uv { infoAt frame r.mDatalink with
            seq := (infoAt frame r.mDatalink).seq + UInt32.ofInt payloadLen }
          (linkSize r.mDatalink + headersSize frame r.mDatalink) payloadLen) := by
  have hlink := linkSize_le (d := r.mDatalink)
  have hsize : tcpOffset frame r.mDatalink +
      hostField frame (tcpOffset frame r.mDatalink + 12) 1 / 16 * 4 =
        linkSize r.mDatalink + headersSize frame r.mDatalink := by
    unfold headersSize tcpOffset
    omega
  have hshort : ((ipLen frame r.mDatalink : Int) - headersSize frame r.mDatalink <
      (hashBufSize : Nat) + 1) ↔ ipLen frame r.mDatalink < headersSize frame r.mDatalink + 9 := by
    simp only [hashBufSize]
    omega
  unfold rawInput
  rw [if_neg (by omega), linkHeader_ok hd h44, if_pos hip, ok_bind]
  simp only []
  rw [rdHost_ok (by omega), ok_bind, if_neg (not_not.2 hproto), rdHost_ok (by omega), ok_bind]
  simp only [← tcpOffset.eq_def]
  rw [rdHost_ok (by omega), ok_bind, rdNet_ok (by omega), ok_bind, segmentInfo_ok (by omega) htcp,
    ok_bind]
  simp only [hsize, Nat.add_sub_cancel_left, ← ipLen.eq_def, hshort]
  rw [apply_ite Except.ok, apply_ite Except.ok]
  rfl

theorem cap2uv_inFrame (info : TcpInfo) {payload : Nat} {payloadLen : Int} (h0 : 0 ≤ payloadLen)
    (hl : payloadLen ≤ 65535) (h : payload + payloadLen ≤ frame.length) :
    ∃ a, r.cap2uv info frame payload payloadLen = .ok a := by
  obtain ⟨k, rfl⟩ := Int.eq_ofNat_of_zero_le h0
  have hk : ((frame.drop payload).take k).length = k := by
    rw [List.length_take, List.length_drop]
    omega
  have hrd : rdBytes frame payload ((frame.drop payload).take k).length =
      .ok ((frame.drop payload).take k) := by
    rw [hk, rdBytes, if_pos (by omega)]
  have hcap := cap2uv_ok r info hrd (by omega)
  rw [hk] at hcap
  exact ⟨_, hcap⟩

theorem le_of_rawInput {act : RawAct} (hd : r.mDatalink ≠ .other) (h44 : 44 ≤ frame.length)
    (hip : IsIpv4 frame r.mDatalink)
    (hproto : hostField frame (linkSize r.mDatalink + 9) 1 = ipprotoTcp)
    (h : r.rawInput frame = .ok act) : tcpOffset frame r.mDatalink + 14 ≤ frame.length := by
  have hlink := linkSize_le (d := r.mDatalink)
  unfold rawInput at h
  rw [if_neg (by omega), linkHeader_ok hd h44, if_pos hip, ok_bind] at h
  simp only [] at h
  rw [rdHost_ok (by omega), ok_bind, if_neg (not_not.2 hproto), rdHost_ok (by omega), ok_bind] at h
  obtain ⟨_, -, h⟩ := bind_eq_ok.1 h
  obtain ⟨_, -, h⟩ := bind_eq_ok.1 h
  obtain ⟨_, hinfo, -⟩ := bind_eq_ok.1 h
  exact le_of_segmentInfo hinfo

theorem inFrame_of_ne_cap2uv {act : RawAct} (h : r.rawInput frame = .ok act)
    (hne : ∀ info payload payloadLen, act ≠ .cap2uv info payload payloadLen) : InFrame frame r := by
  refine ⟨act, h, ?_⟩
  intro info payload payloadLen hcap
  exact absurd hcap (hne info payload payloadLen)

theorem inFrame_of_ret {n : Int} (h : r.rawInput frame = .ok (.ret n)) : InFrame frame r := by
  apply inFrame_of_ne_cap2uv h
  intro info payload payloadLen hcap
  cases hcap

theorem hasCloseFlag_infoAt : ¬ (infoAt frame d).hasCloseFlag ↔
    tcpFlags frame d &&& (thFin ||| thRst) = 0 := by
  simp [TcpInfo.hasCloseFlag, infoAt]

theorem inFrame_of_cap2uv {info : TcpInfo} {payload : Nat} {payloadLen : Int}
    (hl : payloadLen ≤ 65535) (h : r.rawInput frame = .ok (.cap2uv info payload payloadLen)) :
    InFrame frame r ↔ 0 ≤ payloadLen ∧ payload + payloadLen ≤ frame.length := by
  constructor
  · rintro ⟨act, hact, hcap⟩
    obtain rfl : .cap2uv info payload payloadLen = act := Except.ok.inj (h.symm.trans hact)
    obtain ⟨h0, hle, -⟩ := hcap _ _ _ rfl
    exact ⟨h0, hle⟩
  · rintro ⟨h0, hle⟩
    refine ⟨_, h, ?_⟩
    intro info' payload' payloadLen' heq
    obtain ⟨rfl, rfl, rfl⟩ := RawAct.cap2uv.inj heq
    exact ⟨h0, hle, cap2uv_inFrame info h0 hl hle⟩

theorem inFrame_tcp_iff (hd : r.mDatalink ≠ .other) (h44 : 44 ≤ frame.length)
    (hip : IsIpv4 frame r.mDatalink)
    (hproto : hostField frame (linkSize r.mDatalink + 9) 1 = ipprotoTcp)
    (htcp : tcpOffset frame r.mDatalink + 14 ≤ frame.length) :
    InFrame frame r ↔
      (tcpFlags frame r.mDatalink &&& thSyn ≠ 0 ∧ r.mTcpAckPool = true) ∨
      (ipLen frame r.mDatalink < headersSize frame r.mDatalink + 9 ∧
        tcpFlags frame r.mDatalink &&& (thFin ||| thRst) = 0) ∨
      (headersSize frame r.mDatalink ≤ ipLen frame r.mDatalink ∧
        linkSize r.mDatalink + ipLen frame r.mDatalink ≤ frame.length) := by
  have hraw := rawInput_tcp hd h44 hip hproto htcp
  by_cases hsyn : tcpFlags frame r.mDatalink &&& thSyn ≠ 0 ∧ r.mTcpAckPool = true
  · rw [if_pos hsyn] at hraw
    have hin : InFrame frame r := by
      apply inFrame_of_ne_cap2uv hraw
      intro info payload payloadLen hcap
      cases hcap
    exact iff_of_true hin (.inl hsyn)
  simp only [if_neg hsyn, hasCloseFlag_infoAt] at hraw
  by_cases hshort : ipLen frame r.mDatalink < headersSize frame r.mDatalink + 9 ∧
      tcpFlags frame r.mDatalink &&& (thFin ||| thRst) = 0
  · rw [if_pos hshort] at hraw
    exact iff_of_true (inFrame_of_ret hraw) (.inr (.inl hshort))
  rw [if_neg hshort] at hraw
  have hlen := netField_lt frame (linkSize r.mDatalink + 2) 2
  rw [inFrame_of_cap2uv (by unfold ipLen; omega) hraw]
  constructor
  · rintro ⟨h0, hle⟩
    refine .inr (.inr ⟨by omega, ?_⟩)
    push_cast at hle
    omega
  · rintro (hs | hs | ⟨h0, hle⟩)
    · exact absurd hs hsyn
    · exact absurd hs hshort
    · refine ⟨by omega, ?_⟩
      push_cast
      omega

/-- `RawInput` stays inside the frame exactly when the header fields fit. -/
theorem rawInput_inFrame_iff (hd : r.mDatalink ≠ .other) : InFrame frame r ↔ HeadersFit frame r := by
  by_cases h44 : frame.length < 44
  · refine iff_of_true (inFrame_of_ret (n := 0) ?_) (.inl h44)
    rw [rawInput, if_pos h44]
    rfl
  have h44' : 44 ≤ frame.length := by omega
  by_cases hip : IsIpv4 frame r.mDatalink
  swap
  · refine iff_of_true (inFrame_of_ret (n := 0) ?_) (.inr (.inl hip))
    rw [rawInput, if_neg h44, linkHeader_ok hd h44', if_neg hip]
    rfl
  by_cases hproto : hostField frame (linkSize r.mDatalink + 9) 1 = ipprotoTcp
  swap
  · have hlink := linkSize_le (d := r.mDatalink)
    refine iff_of_true (inFrame_of_ret (n := 0) ?_) (.inr (.inr (.inl hproto)))
    rw [rawInput, if_neg h44, linkHeader_ok hd h44', if_pos hip, ok_bind]
    simp only []
    rw [rdHost_ok (by omega), ok_bind, if_pos hproto]
    rfl
  -- from here on the TCP header is read, and only its own fields say whether it is all there
  by_cases htcp : tcpOffset frame r.mDatalink + 14 ≤ frame.length
  · rw [inFrame_tcp_iff hd h44' hip hproto htcp]
    constructor
    · intro h
      exact .inr (.inr (.inr ⟨htcp, h⟩))
    · rintro (h | h | h | ⟨-, h⟩)
      · exact absurd h h44
      · exact absurd hip h
      · exact absurd hproto h
      · exact h
  · refine iff_of_false ?_ ?_
    · rintro ⟨act, hact, -⟩
      exact htcp (le_of_rawInput hd h44' hip hproto hact)
    · rintro (h | h | h | ⟨h, -⟩)
      · exact h44 h
      · exact h hip
      · exact h hproto
      · exact htcp h

/-- A loopback frame with a 9-byte payload is read inside its bounds. -/
theorem rawInput_inFrame_plain :
    InFrame (Segment.frame ⟨1, 2, 3, 4, 5, 6, thAck, 7, [1, 2, 3, 4, 5, 6, 7, 8, 9]⟩ .null .plain)
      { mDatalink := .null } :=
  (rawInput_inFrame_iff (by decide)).2
    (.inr (.inr (.inr ⟨by decide, .inr (.inr ⟨by decide, by decide⟩)⟩)))

/-- An ethernet frame of 44 bytes ends inside the TCP header, and the `RST` of a loopback frame
    whose IP length is one short of its headers has a payload of length -1. -/
theorem not_rawInput_inFrame :
    ¬ InFrame (List.replicate 12 0 ++ [0x08, 0x00] ++ [0x45] ++ List.replicate 8 0 ++ [6] ++
      List.replicate 20 0) {} ∧
    ¬ InFrame ([2, 0, 0, 0] ++ [0x45, 0, 0, 39] ++ List.replicate 5 0 ++ [6] ++
      List.replicate 10 0 ++ List.replicate 12 0 ++ [0x50, thRst] ++ List.replicate 6 0)
      { mDatalink := .null } := by
  constructor
  · rintro ⟨act, hact, -⟩
    have herr : rawInput {} (List.replicate 12 0 ++ [0x08, 0x00] ++ [0x45] ++ List.replicate 8 0 ++
        [6] ++ List.replicate 20 0) = .error .outOfBounds := rfl
    rw [herr] at hact
    cases hact
  · rintro ⟨act, hact, hcap⟩
    have hneg : rawInput { mDatalink := .null } ([2, 0, 0, 0] ++ [0x45, 0, 0, 39] ++
        List.replicate 5 0 ++ [6] ++ List.replicate 10 0 ++ List.replicate 12 0 ++ [0x50, thRst] ++
        List.replicate 6 0) = .ok (.cap2uv { seq := 0xffffffff, flag := thRst } 44 (-1)) := rfl
    rw [hneg, Except.ok.injEq] at hact
    exact absurd (hcap _ _ _ hact.symm).1 (by decide)

end InFrame

end RawTcp

end Rsock
