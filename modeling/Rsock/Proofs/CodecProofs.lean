import Rsock.FakeTcp

/-!
# Proofs: the codecs

What the encoders write on a little-endian host (`EncHead.wire`, `TcpInfo.wire`), that the decoders
read it back on any host, and the packet round trip through `RConn`.
-/

namespace Rsock

open CMem

variable {n : Nat}

/-! ## Wire integers -/

theorem isLittleEndian_little : isLittleEndian .little = true := by decide

theorem isLittleEndian_big : isLittleEndian .big = false := by decide

/-- A little-endian machine writes the low byte first. -/
theorem encodeUint_little {w i : Nat} {p : Cursor n} (h : p.pos + w ≤ n) :
    ∃ q, encodeUint .little w i p = .ok q ∧ q.written = p.written ++ toLE w i ∧
      q.pos = p.pos + w := by
  obtain ⟨q, hq, hw, hp⟩ := p.write_ok (toLE w i) (by simpa using h)
  refine ⟨q, ?_, hw, by simpa using hp⟩
  rw [encodeUint, if_pos isLittleEndian_little]
  exact hq

theorem encodeUint8_ok {i : UInt8} {p : Cursor n} (h : p.pos + 1 ≤ n) :
    ∃ q, encodeUint8 i p = .ok q ∧ q.written = p.written ++ [i] ∧ q.pos = p.pos + 1 :=
  p.write_ok [i] h

/-- Either machine reads what is written with the low byte first. -/
theorem decodeUint_toLE (o : ByteOrder) (w i : Nat) (p : List UInt8) :
    decodeUint o w (toLE w i ++ p) = .ok (i % 256 ^ w, p) := by
  rw [decodeUint, readBytes_append (length_toLE w i)]
  cases o with
  | little => simp [isLittleEndian_little, ByteOrder.load, ofLE_toLE]
  | big => simp [isLittleEndian_big, ByteOrder.load, ofLE_toLE]

theorem decodeUint64_toLE (o : ByteOrder) (i : UInt64) (p : List UInt8) :
    decodeUint64 o (toLE 8 i.toNat ++ p) = .ok (i, p) := by
  have hi : i.toNat % 256 ^ 8 = i.toNat := Nat.mod_eq_of_lt i.toNat_lt
  rw [decodeUint64, decodeUint_toLE, hi]
  simp

theorem decodeUint32_toLE (o : ByteOrder) (i : UInt32) (p : List UInt8) :
    decodeUint32 o (toLE 4 i.toNat ++ p) = .ok (i, p) := by
  have hi : i.toNat % 256 ^ 4 = i.toNat := Nat.mod_eq_of_lt i.toNat_lt
  rw [decodeUint32, decodeUint_toLE, hi]
  simp

theorem decodeUint16_toLE (o : ByteOrder) (i : UInt16) (p : List UInt8) :
    decodeUint16 o (toLE 2 i.toNat ++ p) = .ok (i, p) := by
  have hi : i.toNat % 256 ^ 2 = i.toNat := Nat.mod_eq_of_lt i.toNat_lt
  rw [decodeUint16, decodeUint_toLE, hi]
  simp

theorem decodeUint8_cons (i : UInt8) (p : List UInt8) : decodeUint8 (i :: p) = .ok (i, p) := by
  rw [decodeUint8, ← List.singleton_append, readBytes_append (by simp)]
  rfl

/-! ## The header -/

/-- The bytes of a header on the wire. -/
def EncHead.wire (e : EncHead) : List UInt8 :=
  [EncHead.getMinEncSize] ++ [e.mCmd] ++ e.mIdBuf.bytes ++ toLE 4 e.mConv.toNat ++
    toLE 8 e.mConnKey.toNat ++ [e.resereved]

/-- A header takes 23 bytes. -/
@[simp] theorem EncHead.length_wire (e : EncHead) : e.wire.length = 23 := by
  simp [EncHead.wire, e.mIdBuf.length_eq]

theorem getMinEncSize_toNat : EncHead.getMinEncSize.toNat = 23 := by decide

/-- `Enc2Buf` writes the wire format, where there is room. -/
theorem EncHead.enc2Buf_little (e : EncHead) {p : Cursor n} (h : p.pos + 23 ≤ n) (bufLen : Int)
    (hb : 23 ≤ bufLen) :
    ∃ q, e.enc2Buf .little p bufLen = .ok ({ e with len := getMinEncSize }, some q) ∧
      q.written = p.written ++ e.wire ∧ q.pos = p.pos + 23 := by
  have hid : e.mIdBuf.bytes.length = 8 := e.mIdBuf.length_eq
  obtain ⟨p1, h1, w1, q1⟩ := encodeUint8_ok (i := getMinEncSize) (p := p) (by omega)
  obtain ⟨p2, h2, w2, q2⟩ := encodeUint8_ok (i := e.mCmd) (p := p1) (by omega)
  obtain ⟨p3, h3, w3, q3⟩ := p2.write_ok e.mIdBuf.bytes (by omega)
  obtain ⟨p4, h4, w4, q4⟩ := encodeUint_little (w := 4) (i := e.mConv.toNat) (p := p3) (by omega)
  obtain ⟨p5, h5, w5, q5⟩ := encodeUint_little (w := 8) (i := e.mConnKey.toNat) (p := p4) (by omega)
  obtain ⟨p6, h6, w6, q6⟩ := encodeUint8_ok (i := e.resereved) (p := p5) (by omega)
  have hpos : p6.pos = p.pos + 23 := by omega
  refine ⟨p6, ?_, ?_, hpos⟩
  · have hlast : (⟨p6.buf, p.pos + getMinEncSize.toNat⟩ : Cursor n) = p6 := by
      rw [getMinEncSize_toNat, ← hpos]
    rw [enc2Buf, if_pos (by rw [getSize, getMinEncSize_toNat]; exact hb)]
    simp only [getSize, h1, h2, h3, encodeUint32, h4, KeyGenerator.encodeKey, encodeUint64, h5, h6,
      ok_bind, hlast]
    rfl
  · rw [w6, w5, w4, w3, w2, w1, EncHead.wire]
    simp only [List.append_assoc]

/-- `DecodeBuf` reads the wire format back. -/
theorem EncHead.decodeBuf_wire (e e₀ : EncHead) (o : ByteOrder) (p : List UInt8) {bufLen : Int}
    (hb : 23 ≤ bufLen) :
    e₀.decodeBuf o (e.wire ++ p) bufLen = .ok ({ e with len := getMinEncSize }, some p) := by
  have hid : e.mIdBuf.bytes.length = idBufSize := e.mIdBuf.length_eq
  have hdrop : (e.wire ++ p).drop getMinEncSize.toNat = p := by
    rw [getMinEncSize_toNat, ← e.length_wire, List.drop_left]
  have hle : ¬ ((getMinEncSize.toNat : Int) > bufLen) := by
    rw [getMinEncSize_toNat]
    omega
  rw [decodeBuf, if_pos (by rw [getMinEncSize_toNat]; exact hb)]
  have hw : e.wire ++ p = getMinEncSize :: (e.mCmd :: (e.mIdBuf.bytes ++ (toLE 4 e.mConv.toNat ++
      (toLE 8 e.mConnKey.toNat ++ (e.resereved :: p))))) := by
    simp [EncHead.wire]
  rw [hw]
  simp only [decodeUint8_cons, ok_bind, if_neg hle, readBytes_append hid, Buf.memcpy_all,
    decodeUint32_toLE, KeyGenerator.decodeKey, decodeUint64_toLE]
  rw [← hw, hdrop]
  rfl

/-! ## `ConnInfo` and `TcpInfo` -/

/-- The bytes of a `ConnInfo`. -/
def ConnInfo.wire (i : ConnInfo) : List UInt8 :=
  toLE 4 i.src.toNat ++ toLE 4 i.dst.toNat ++ toLE 2 i.sp.toNat ++ toLE 2 i.dp.toNat

@[simp] theorem ConnInfo.length_wire (i : ConnInfo) : i.wire.length = 12 := by
  simp [ConnInfo.wire]

/-- `ConnInfo::Encode` writes the wire format. -/
theorem ConnInfo.encode_little (i : ConnInfo) {p : Cursor n} (h : p.pos + 12 ≤ n) (len : Int)
    (hl : sizeofConnInfo ≤ sizeT len) :
    ∃ q, i.encode .little p len = .ok (some q) ∧ q.written = p.written ++ i.wire ∧
      q.pos = p.pos + 12 := by
  obtain ⟨p1, h1, w1, q1⟩ := encodeUint_little (w := 4) (i := i.src.toNat) (p := p) (by omega)
  obtain ⟨p2, h2, w2, q2⟩ := encodeUint_little (w := 4) (i := i.dst.toNat) (p := p1) (by omega)
  obtain ⟨p3, h3, w3, q3⟩ := encodeUint_little (w := 2) (i := i.sp.toNat) (p := p2) (by omega)
  obtain ⟨p4, h4, w4, q4⟩ := encodeUint_little (w := 2) (i := i.dp.toNat) (p := p3) (by omega)
  refine ⟨p4, ?_, ?_, by omega⟩
  · rw [ConnInfo.encode, if_neg (by omega)]
    simp only [encodeUint32, encodeUint16, h1, h2, h3, h4, ok_bind, pure, Except.pure]
  · rw [w4, w3, w2, w1, ConnInfo.wire]
    simp only [List.append_assoc]

/-- `ConnInfo::Decode` reads it back. -/
theorem ConnInfo.decode_wire (i i₀ : ConnInfo) (o : ByteOrder) (p : List UInt8) {len : Int}
    (hl : 12 ≤ sizeT len) :
    i₀.decode o (i.wire ++ p) len = .ok ({ i with head := i₀.head }, some p) := by
  have hw : i.wire ++ p = toLE 4 i.src.toNat ++ (toLE 4 i.dst.toNat ++ (toLE 2 i.sp.toNat ++
      (toLE 2 i.dp.toNat ++ p))) := by
    simp [ConnInfo.wire]
  rw [ConnInfo.decode, if_neg (by omega), hw]
  simp only [decodeUint32_toLE, decodeUint16_toLE, ok_bind, pure, Except.pure]

/-- The bytes of a `TcpInfo` between the capture thread and the event loop. -/
def TcpInfo.wire (i : TcpInfo) : List UInt8 :=
  toLE 4 i.src.toNat ++ toLE 4 i.dst.toNat ++ toLE 2 i.sp.toNat ++ toLE 2 i.dp.toNat ++
    toLE 4 i.seq.toNat ++ toLE 4 i.ack.toNat ++ [i.flag]

@[simp] theorem TcpInfo.length_wire (i : TcpInfo) : i.wire.length = 21 := by
  simp [TcpInfo.wire]

theorem TcpInfo.wire_eq (i : TcpInfo) :
    i.wire = i.toConnInfo.wire ++ (toLE 4 i.seq.toNat ++ (toLE 4 i.ack.toNat ++ [i.flag])) := by
  simp only [TcpInfo.wire, ConnInfo.wire, List.append_assoc]

/-- `TcpInfo::Encode` writes the wire format. -/
theorem TcpInfo.encode_little (i : TcpInfo) {p : Cursor n} (h : p.pos + 21 ≤ n) (len : Int)
    (hl : sizeofTcpInfo ≤ sizeT len) :
    ∃ q, i.encode .little p len = .ok (some q) ∧ q.written = p.written ++ i.wire ∧
      q.pos = p.pos + 21 := by
  have hc : sizeofConnInfo ≤ sizeT len := by
    simp only [sizeofConnInfo, sizeofTcpInfo] at hl ⊢
    omega
  obtain ⟨p4, h4, w4, q4⟩ := i.toConnInfo.encode_little (p := p) (by omega) len hc
  obtain ⟨p5, h5, w5, q5⟩ := encodeUint_little (w := 4) (i := i.seq.toNat) (p := p4) (by omega)
  obtain ⟨p6, h6, w6, q6⟩ := encodeUint_little (w := 4) (i := i.ack.toNat) (p := p5) (by omega)
  obtain ⟨p7, h7, w7, q7⟩ := encodeUint8_ok (i := i.flag) (p := p6) (by omega)
  refine ⟨p7, ?_, ?_, by omega⟩
  · rw [TcpInfo.encode, if_neg (by omega), h4]
    simp only [encodeUint32, h5, h6, h7, ok_bind, pure, Except.pure]
  · rw [w7, w6, w5, w4, TcpInfo.wire_eq]
    simp only [List.append_assoc]

/-- Every host decodes the bytes of a `TcpInfo` to its fields; the header pointer is not
    transferred. -/
theorem TcpInfo.decode_wire (i i₀ : TcpInfo) (o : ByteOrder) (p : List UInt8) {len : Int}
    (hl : 12 ≤ sizeT len) :
    i₀.decode o (i.wire ++ p) len = .ok ({ i with head := i₀.head }, some p) := by
  have hw : i.wire ++ p = i.toConnInfo.wire ++ (toLE 4 i.seq.toNat ++ (toLE 4 i.ack.toNat ++
      (i.flag :: p))) := by
    simp [TcpInfo.wire_eq]
  have hread : ¬ ((i.wire ++ p).length -
      (toLE 4 i.seq.toNat ++ (toLE 4 i.ack.toNat ++ (i.flag :: p))).length < 4 + 4 + 1) := by
    rw [hw, List.length_append, i.toConnInfo.length_wire]
    omega
  rw [TcpInfo.decode, hw, i.toConnInfo.decode_wire i₀.toConnInfo o _ hl, ok_bind]
  rw [hw] at hread
  simp only [if_neg hread, decodeUint32_toLE, decodeUint8_cons, ok_bind, pure, Except.pure]

/-! ## Packets -/

@[simp] theorem length_hashOf (md5 : Md5) (key data : List UInt8) :
    (hashOf md5 key data).length = 8 := by
  simp [hashOf, (md5 _).length_eq]

/-- The bytes of a packet on the wire. -/
def RConn.packet (md5 : Md5) (hashKey : List UInt8) (head : EncHead) (payload : List UInt8) :
    List UInt8 :=
  hashOf md5 hashKey payload ++ head.wire ++ payload

/-- The hash, the header and the payload. -/
@[simp] theorem RConn.length_packet (md5 : Md5) (hashKey : List UInt8) (head : EncHead)
    (payload : List UInt8) :
    (RConn.packet md5 hashKey head payload).length = 31 + payload.length := by
  simp [RConn.packet]
  omega

/-- What `RConn::Output` assembles, and when it refuses. -/
theorem RConn.buildPacket_eq (md5 : Md5) (hashKey : List UInt8) (head : EncHead)
    {payload : List UInt8} (h : 0 < payload.length) :
    buildPacket md5 .little hashKey head payload =
      .ok (if payload.length ≤ 1469 then some (packet md5 hashKey head payload) else none) := by
  by_cases hl : payload.length ≤ 1469
  · have hsize : ¬ (hashBufSize + head.getSize.toNat + payload.length > omMaxPktSize) := by
      simp only [EncHead.getSize, getMinEncSize_toNat, hashBufSize, omMaxPktSize]
      omega
    obtain ⟨p, hp, wp, qp⟩ := (Cursor.start omMaxPktSize).write_ok
      (hashOf md5 hashKey payload) (by simp)
    have hpos : p.pos = 8 := by rw [qp]; simp
    obtain ⟨q, hq, wq, qq⟩ := head.enc2Buf_little (p := p) (by simp only [omMaxPktSize]; omega)
      ((omMaxPktSize : Int) - p.pos) (by simp only [omMaxPktSize]; omega)
    obtain ⟨r, hr, wr, -⟩ := q.write_ok payload (by simp only [omMaxPktSize]; omega)
    rw [buildPacket, if_neg hsize, computeHash, cassert_pos h]
    simp only [ok_bind, hp, hq, hr, if_pos hl]
    rw [wr, wq, wp, Cursor.written_start, List.nil_append]
    rfl
  · rw [buildPacket, if_pos, if_neg hl]
    · rfl
    · simp only [EncHead.getSize, getMinEncSize_toNat, hashBufSize, omMaxPktSize]
      omega

/-- A TCP packet goes to `RawTcp`. -/
theorem RConn.output_tcp (c : RConn) (md5 : Md5) {i : TcpInfo} {head : EncHead}
    {payload : List UInt8} (hh : i.head = some head) (h0 : 0 < payload.length)
    (h1 : payload.length ≤ 1469) :
    c.output md5 .little (.tcp i) payload =
      .ok (.rawSend i (packet md5 c.mHashKey head payload)) := by
  unfold RConn.output
  rw [if_pos h0]
  simp only [Info.base, hh, buildPacket_eq md5 c.mHashKey head h0, if_pos h1, ok_bind]
  rfl

/-- A UDP packet goes to the bottom conn under its key, if there is one. -/
theorem RConn.output_udp (c : RConn) (md5 : Md5) {i : ConnInfo} {head : EncHead}
    {payload : List UInt8} (hh : i.head = some head) (h0 : 0 < payload.length)
    (h1 : payload.length ≤ 1469) :
    c.output md5 .little (.udp i) payload = (KeyGenerator.keyForUdp i).map fun key =>
      match c.mConns.get? (KeyGenerator.strForIntKey key) with
      | some conn => .udpSend conn i (packet md5 c.mHashKey head payload)
      | none => .ret payload.length := by
  unfold RConn.output
  rw [if_pos h0]
  simp only [Info.base, hh, buildPacket_eq md5 c.mHashKey head h0, if_pos h1, ok_bind,
    KeyGenerator.keyForConnInfo]
  cases KeyGenerator.keyForUdp i with
  | error e => rfl
  | ok key =>
    simp only [ok_bind, Except.map]
    split <;> simp_all [pure, Except.pure]

theorem RConn.output_udp_of_get? (c : RConn) (md5 : Md5) {i : ConnInfo} {head : EncHead}
    {payload : List UInt8} {key : IntKeyType} {conn : BtmUdpConn} (hh : i.head = some head)
    (h0 : 0 < payload.length) (h1 : payload.length ≤ 1469) (hk : KeyGenerator.keyForUdp i = .ok key)
    (hc : c.mConns.get? (KeyGenerator.strForIntKey key) = some conn) :
    c.output md5 .little (.udp i) payload =
      .ok (.udpSend conn i (packet md5 c.mHashKey head payload)) := by
  rw [output_udp c md5 hh h0 h1, hk]
  simp only [Except.map, hc]

/-- A packet made with the hash key of the receiver is delivered. -/
theorem RConn.onRecv_packet (r : RConn) (md5 : Md5) (o : ByteOrder) (info : Info) (head : EncHead)
    {payload : List UInt8} (h : 0 < payload.length) :
    r.onRecv md5 o info (packet md5 r.mHashKey head payload) =
      .ok (.deliver (info.setHead { head with len := EncHead.getMinEncSize })
        { head with len := EncHead.getMinEncSize } payload) := by
  have hlen := length_packet md5 r.mHashKey head payload
  have hdrop : (packet md5 r.mHashKey head payload).drop hashBufSize = head.wire ++ payload := by
    rw [packet, List.append_assoc]
    exact List.drop_left' (length_hashOf ..)
  have htake : (packet md5 r.mHashKey head payload).take hashBufSize =
      hashOf md5 r.mHashKey payload := by
    rw [packet, List.append_assoc]
    exact List.take_left' (length_hashOf ..)
  have heq : hashEqual md5 (packet md5 r.mHashKey head payload) r.mHashKey payload = true := by
    rw [hashEqual, if_neg (by omega), htake]
    exact beq_self_eq_true _
  unfold RConn.onRecv
  rw [if_pos (by rw [hlen, headSize, getMinEncSize_toNat, hashBufSize]; omega), hdrop,
    EncHead.decodeBuf_wire _ _ _ _ (by rw [hlen, hashBufSize]; omega)]
  simp only [ok_bind, heq, if_true]
  rfl

/-- What `RConn::OnRecv` accepts has a payload. -/
theorem RConn.of_deliver {r : RConn} {md5 : Md5} {o : ByteOrder} {info info' : Info}
    {rbuf payload : List UInt8} {head : EncHead}
    (h : r.onRecv md5 o info rbuf = .ok (.deliver info' head payload)) :
    info' = info.setHead head ∧ payload ≠ [] := by
  unfold RConn.onRecv at h
  split at h
  · obtain ⟨⟨hd, q⟩, -, h⟩ := bind_eq_ok.mp h
    cases q with
    | none => cases h
    | some p =>
      dsimp only at h
      split at h
      · next heq =>
        obtain ⟨rfl, rfl, rfl⟩ := RecvAct.deliver.inj (Except.ok.inj h)
        refine ⟨rfl, ?_⟩
        rintro rfl
        cases heq
      · cases h
  · split at h
    · cases h
    · split at h <;> cases h

/-! ## The round trip -/

/-- `Output` finds the connection below for this info. -/
def RConn.Reaches (c : RConn) : Info → Prop
  | .tcp _ => True
  | .udp i => ∃ key conn, KeyGenerator.keyForUdp i = .ok key ∧
      c.mConns.get? (KeyGenerator.strForIntKey key) = some conn

/-- `RConn::Output` as the output callback of a net conn. The return value of the connection
    below is `ret`. -/
def RConn.outputCb (c : RConn) (md5 : Md5) (ret : OutAct → Int) (info : Info)
    (payload : List UInt8) : Except Fault (Int × OutAct) := do
  let act ← c.output md5 .little info payload
  return (ret act, act)

theorem RConn.outputCb_of_output {c : RConn} {md5 : Md5} {info : Info} {payload : List UInt8}
    {act : OutAct} (h : c.output md5 .little info payload = .ok act) (ret : OutAct → Int) :
    c.outputCb md5 ret info payload = .ok (ret act, act) := by
  rw [outputCb, h]
  rfl

theorem Info.base_setHead (info : Info) (hd : EncHead) : (info.setHead hd).base.head = some hd := by
  cases info <;> rfl

/-- The info a net conn passes down with a packet. -/
def NetConn.outInfo (c : NetConn) (hd : EncHead) : Info :=
  c.getInfo.setHead (hd.setConnKey c.intKey)

/-- A conn hands the payload down, with its addresses and the header with its key. -/
theorem NetConn.output_ok_iff {σ : Type} {c : NetConn} {hd : EncHead} {payload : List UInt8}
    {below : Info → List UInt8 → Except Fault (Int × σ)} {n : Int} {s : σ} :
    (∃ c', c.output hd payload below = .ok (c', n, s)) ↔
      below (c.outInfo hd) payload = .ok (n, s) := by
  cases c with
  | fakeTcp c =>
    simp only [NetConn.output, FakeTcp.output, NetConn.outInfo, NetConn.getInfo, Info.setHead,
      NetConn.intKey, NetConn.toINetConn]
    cases below _ payload with
    | error e => simp
    | ok r => simp [pure, Except.pure, Prod.ext_iff]
  | fakeUdp c =>
    simp only [NetConn.output, FakeUdp.output, NetConn.outInfo, NetConn.getInfo, Info.setHead,
      NetConn.intKey, NetConn.toINetConn]
    cases below _ payload with
    | error e => simp
    | ok r => simp [pure, Except.pure, Prod.ext_iff]

/-- The bytes the output callback hands down are the packet. -/
theorem RConn.outputCb_packet {s : RConn} {md5 : Md5} {ret : OutAct → Int} {info : Info}
    {head : EncHead} {payload pkt : List UInt8} {n : Int} {act : OutAct}
    (h0 : 0 < payload.length) (h1 : payload.length ≤ 1469)
    (h : s.outputCb md5 ret (info.setHead head) payload = .ok (n, act))
    (hp : act.packet? = some pkt) : pkt = packet md5 s.mHashKey head payload := by
  unfold outputCb at h
  obtain ⟨a, ha, hr⟩ := bind_eq_ok.1 h
  have hact : a = act := by
    simp only [pure, Except.pure, Except.ok.injEq, Prod.mk.injEq] at hr
    exact hr.2
  subst hact
  cases info with
  | tcp i =>
    rw [Info.setHead, output_tcp s md5 rfl h0 h1] at ha
    simp only [Except.ok.injEq] at ha
    subst ha
    exact (Option.some.inj hp).symm
  | udp i =>
    rw [Info.setHead, output_udp s md5 rfl h0 h1] at ha
    cases hk : KeyGenerator.keyForUdp { i with head := some head } with
    | error e => simp [hk, Except.map] at ha
    | ok key =>
      simp only [hk, Except.map, Except.ok.injEq] at ha
      subst ha
      split at hp
      · exact (Option.some.inj hp).symm
      · cases hp

theorem RConn.outputCb_of_reaches {s : RConn} (md5 : Md5) (ret : OutAct → Int) {info : Info}
    {head : EncHead} {payload : List UInt8} (h0 : 0 < payload.length)
    (h1 : payload.length ≤ 1469) (hr : s.Reaches info) :
    ∃ n act, s.outputCb md5 ret (info.setHead head) payload = .ok (n, act) ∧
      act.packet? = some (packet md5 s.mHashKey head payload) := by
  have hout : ∃ act, s.output md5 .little (info.setHead head) payload = .ok act ∧
      act.packet? = some (packet md5 s.mHashKey head payload) := by
    cases info with
    | tcp i => exact ⟨_, output_tcp s md5 rfl h0 h1, rfl⟩
    | udp i =>
      obtain ⟨key, conn, hk, hc⟩ := hr
      have hk' : KeyGenerator.keyForUdp { i with head := some head } = .ok key := hk
      exact ⟨_, output_udp_of_get? s md5 rfl h0 h1 hk' hc, rfl⟩
  obtain ⟨act, ha, hp⟩ := hout
  exact ⟨ret act, act, outputCb_of_output ha ret, hp⟩

/-- What a net conn sends through `RConn`, any `RConn` with the same hash key takes apart into the
    same payload and a header with the same command, id and conversation, and with the key of the
    sending conn. -/
theorem RConn.onRecv_output (md5 : Md5) (o : ByteOrder) (s r : RConn)
    (hkey : r.mHashKey = s.mHashKey) (c : NetConn) (hd : EncHead) (payload : List UInt8)
    (h0 : 1 ≤ payload.length) (h1 : payload.length ≤ 1469) (ret : OutAct → Int) (info : Info) :
    ∃ pkt hd',
      buildPacket md5 .little s.mHashKey (hd.setConnKey c.intKey) payload = .ok (some pkt) ∧
      (s.Reaches c.getInfo → ∃ c' n act,
        c.output hd payload (s.outputCb md5 ret) = .ok (c', n, act) ∧ act.packet? = some pkt) ∧
      (∀ c' n act pkt', c.output hd payload (s.outputCb md5 ret) = .ok (c', n, act) →
        act.packet? = some pkt' → pkt' = pkt) ∧
      r.onRecv md5 o info pkt = .ok (.deliver (info.setHead hd') hd' payload) ∧
      hd'.mCmd = hd.mCmd ∧ hd'.mIdBuf = hd.mIdBuf ∧ hd'.mConv = hd.mConv ∧
      hd'.mConnKey = c.intKey := by
  refine ⟨packet md5 s.mHashKey (hd.setConnKey c.intKey) payload,
    { hd.setConnKey c.intKey with len := EncHead.getMinEncSize }, ?_, ?_, ?_, ?_,
    rfl, rfl, rfl, rfl⟩
  · rw [buildPacket_eq md5 _ _ h0, if_pos h1]
  · intro hr
    obtain ⟨n, act, ha, hp⟩ := outputCb_of_reaches md5 ret h0 h1 hr
    obtain ⟨c', hc⟩ := NetConn.output_ok_iff.2 ha
    exact ⟨c', n, act, hc, hp⟩
  · intro c' n act pkt' hc hp
    exact outputCb_packet h0 h1 (NetConn.output_ok_iff.1 ⟨c', hc⟩) hp
  · rw [← hkey]
    exact onRecv_packet r md5 o info _ h0

/-- MD5 on the input `k*`, the hash key `k` followed by the payload byte `*`. -/
def md5OfStar : Md5 := fun _ =>
  ⟨[0x41, 0x66, 0x52, 0xde, 0xa6, 0x38, 0xa7, 0xe9, 0x63, 0xd4, 0x32, 0xca, 0x2b, 0xd0, 0x51, 0xd4],
    rfl⟩

/-- The round trip of the payload `*` under the hash key `k`. -/
theorem RConn.onRecv_output_star :
    ∃ pkt hd', (RConn.mk [107] {} StdMap.empty).onRecv md5OfStar .big (.udp {}) pkt =
        .ok (.deliver (Info.setHead hd' (.udp {})) hd' [42]) ∧
      hd'.mCmd = EncHead.typeData ∧ hd'.mConv = 7 ∧ hd'.mConnKey = 0x10010002 := by
  obtain ⟨pkt, hd', -, -, -, hr, hcmd, -, hconv, hkey⟩ := RConn.onRecv_output md5OfStar .big
    (RConn.mk [107] {} StdMap.empty) (RConn.mk [107] {} StdMap.empty) rfl
    (.fakeTcp { mIntKey := 0x10010002, mInfo := { sp := 2, dp := 1 } }) { mConv := 7 } [42]
    (by decide) (by decide) (fun _ => 0) (.udp {})
  exact ⟨pkt, hd', hr, hcmd, hconv, hkey⟩

/-! ## Where the payload starts

`EncHead::DecodeBuf` reads its fields at fixed offsets, but the pointer it returns is `len` bytes
behind the start, and `len` is only compared with the end of the buffer. -/

/-- A header that is cut off is refused. -/
theorem EncHead.decodeBuf_null (e : EncHead) (o : ByteOrder) {p : List UInt8}
    (h : p.length < 23 ∨ p.length < (p.headD 0).toNat) :
    ∃ e', e.decodeBuf o p p.length = .ok (e', none) := by
  by_cases hmin : p.length < 23
  · refine ⟨e, ?_⟩
    rw [decodeBuf, if_neg (by rw [getMinEncSize_toNat]; omega)]
    rfl
  · have hlen := h.resolve_left hmin
    cases p with
    | nil => exact absurd (by decide) hmin
    | cons len p' =>
      rw [decodeBuf, if_pos (by rw [getMinEncSize_toNat]; omega), decodeUint8_cons]
      simp only [ok_bind]
      have hnull : (len.toNat : Int) > (len :: p').length := Int.ofNat_lt.mpr hlen
      rw [if_pos hnull]
      exact ⟨_, rfl⟩

/-- On a buffer with room for the fields no read leaves it, and the length byte alone places the
    returned pointer. -/
theorem EncHead.decodeBuf_some (e : EncHead) (o : ByteOrder) {p : List UInt8}
    (hmin : 23 ≤ p.length) (hlen : (p.headD 0).toNat ≤ p.length) :
    ∃ e', e.decodeBuf o p p.length = .ok (e', some (p.drop (p.headD 0).toNat)) := by
  obtain ⟨len, cmd, p₁, rfl⟩ : ∃ len cmd p₁, p = len :: cmd :: p₁ := by
    match p with
    | [] => exact absurd hmin (by decide)
    | [_] => exact absurd hmin (by decide : ¬ 23 ≤ 1)
    | len :: cmd :: p₁ => exact ⟨len, cmd, p₁, rfl⟩
  have hp : 21 ≤ p₁.length := by
    simp only [List.length_cons] at hmin
    omega
  have hid : (p₁.take idBufSize).length = idBufSize := by
    rw [List.length_take, idBufSize]
    omega
  have hroom : 0 + (p₁.take idBufSize).length ≤ idBufSize := by
    rw [hid]
    decide
  obtain ⟨idBuf, hbuf, -⟩ := e.mIdBuf.memcpy_ok hroom
  have hnull : ¬ ((len.toNat : Int) > (len :: cmd :: p₁).length) :=
    fun h => Nat.not_lt.mpr hlen (Int.ofNat_lt.mp h)
  rw [decodeBuf, if_pos (by rw [getMinEncSize_toNat]; omega), decodeUint8_cons]
  simp only [ok_bind, if_neg hnull, decodeUint8_cons]
  -- the fields behind the command, each read where the one before it ends
  have h1 := readBytes_of_le (w := idBufSize) (p := p₁) (by rw [idBufSize]; omega)
  have h2 := readBytes_of_le (w := 4) (p := p₁.drop idBufSize)
    (by simp only [List.length_drop, idBufSize]; omega)
  have h3 := readBytes_of_le (w := 8) (p := (p₁.drop idBufSize).drop 4)
    (by simp only [List.length_drop, idBufSize]; omega)
  have h4 := readBytes_of_le (w := 1) (p := ((p₁.drop idBufSize).drop 4).drop 8)
    (by simp only [List.length_drop, idBufSize]; omega)
  simp only [decodeUint32, KeyGenerator.decodeKey, decodeUint64, decodeUint, decodeUint8, h1, hbuf,
    h2, h3, h4, ok_bind, pure, Except.pure]
  exact ⟨_, rfl⟩

/-- The bytes from `q` to the end of the buffer at `p`, at least `k` behind its start. -/
def StartsAt (k : Nat) (p q : List UInt8) : Prop := q <:+ p ∧ q.length + k ≤ p.length

theorem startsAt_drop_iff {k i : Nat} {p : List UInt8} (hi : i ≤ p.length) :
    StartsAt k p (p.drop i) ↔ k ≤ i := by
  have hlen : (p.drop i).length = p.length - i := List.length_drop
  constructor
  · rintro ⟨-, h⟩
    omega
  · intro h
    exact ⟨List.drop_suffix i p, by omega⟩

/-- The length byte of a packet, behind its hash. -/
def RConn.lenByte (rbuf : List UInt8) : Nat := ((rbuf.drop hashBufSize).headD 0).toNat

/-- `RConn::OnRecv` delivers a packet exactly when it is longer than hash and header, its length
    byte stays inside and the hash fits what that byte makes its payload. -/
theorem RConn.deliver_iff {r : RConn} {md5 : Md5} {o : ByteOrder} {info : Info}
    {rbuf payload : List UInt8} :
    (∃ info' head, r.onRecv md5 o info rbuf = .ok (.deliver info' head payload)) ↔
      31 < rbuf.length ∧ hashBufSize + lenByte rbuf ≤ rbuf.length ∧
        payload = rbuf.drop (hashBufSize + lenByte rbuf) ∧
        hashEqual md5 rbuf r.mHashKey payload = true := by
  have hsize : headSize = 31 := by decide
  by_cases hmin : 31 < rbuf.length
  · have hlen : ((rbuf.drop hashBufSize).length : Int) = (rbuf.length : Int) - hashBufSize := by
      rw [List.length_drop, hashBufSize]
      omega
    have hdrop : (rbuf.drop hashBufSize).length = rbuf.length - 8 := List.length_drop
    unfold onRecv
    rw [if_pos (by rw [hsize]; exact hmin), ← hlen]
    by_cases hin : hashBufSize + lenByte rbuf ≤ rbuf.length
    · obtain ⟨e', he'⟩ := EncHead.decodeBuf_some {} o (p := rbuf.drop hashBufSize) (by omega)
        (by unfold lenByte at hin; rw [hashBufSize] at hin hdrop ⊢; omega)
      have hpay : (rbuf.drop hashBufSize).drop ((rbuf.drop hashBufSize).headD 0).toNat =
          rbuf.drop (hashBufSize + lenByte rbuf) := List.drop_drop
      rw [he', hpay]
      simp only [ok_bind]
      by_cases heq : hashEqual md5 rbuf r.mHashKey (rbuf.drop (hashBufSize + lenByte rbuf)) = true
      · rw [if_pos heq]
        constructor
        · rintro ⟨info', head, h⟩
          obtain ⟨-, -, rfl⟩ := RecvAct.deliver.inj (Except.ok.inj h)
          exact ⟨hmin, hin, rfl, heq⟩
        · rintro ⟨-, -, rfl, -⟩
          exact ⟨_, _, rfl⟩
      · rw [if_neg heq]
        constructor
        · rintro ⟨info', head, h⟩
          cases h
        · rintro ⟨-, -, rfl, h⟩
          exact absurd h heq
    · obtain ⟨e', he'⟩ := EncHead.decodeBuf_null {} o (p := rbuf.drop hashBufSize)
        (.inr (by unfold lenByte at hin; rw [hashBufSize] at hin hdrop ⊢; omega))
      rw [he']
      constructor
      · rintro ⟨info', head, h⟩
        cases h
      · rintro ⟨-, h, -⟩
        exact absurd h hin
  · constructor
    · rintro ⟨info', head, h⟩
      unfold onRecv at h
      rw [if_neg (by rw [hsize]; exact hmin)] at h
      split at h
      · cases h
      · split at h <;> cases h
    · rintro ⟨h, -⟩
      exact absurd h hmin

/-- The payload is behind the header fields exactly when the length byte is at least the size of
    the fields: for `DecodeBuf` on any buffer with room for them, and for the packets `OnRecv`
    accepts. -/
theorem RConn.payload_past_header_iff (r : RConn) (md5 : Md5) (o : ByteOrder) (info : Info)
    (e : EncHead) (rbuf p : List UInt8) :
    ((∀ info' head payload, r.onRecv md5 o info rbuf = .ok (.deliver info' head payload) →
        payload ≠ [] ∧ StartsAt 31 rbuf payload) ↔
      rbuf.length ≤ 31 ∨ 23 ≤ lenByte rbuf ∨
        hashEqual md5 rbuf r.mHashKey (rbuf.drop (hashBufSize + lenByte rbuf)) = false) ∧
    ((∃ e' q, e.decodeBuf o p p.length = .ok (e', q) ∧ ∀ q' ∈ q, StartsAt 23 p q') ↔
      p.length < 23 ∨ 23 ≤ (p.headD 0).toNat) := by
  constructor
  · by_cases hlen : rbuf.length ≤ 31 ∨ 23 ≤ lenByte rbuf
    · refine iff_of_true ?_ (hlen.elim .inl fun h => .inr (.inl h))
      intro info' head payload h
      obtain ⟨hmin, hin, rfl, -⟩ := deliver_iff.mp ⟨info', head, h⟩
      have h23 : 23 ≤ lenByte rbuf := hlen.resolve_left (by omega)
      exact ⟨(of_deliver h).2, (startsAt_drop_iff hin).mpr (by rw [hashBufSize]; omega)⟩
    · -- a short length byte stays inside the packet, so the hash alone decides
      have hmin : 31 < rbuf.length := by omega
      have hin : hashBufSize + lenByte rbuf ≤ rbuf.length := by
        rw [hashBufSize]
        omega
      have hshort : ¬ StartsAt 31 rbuf (rbuf.drop (hashBufSize + lenByte rbuf)) := by
        rw [startsAt_drop_iff hin, hashBufSize]
        omega
      constructor
      · intro h
        refine .inr (.inr ?_)
        by_contra heq
        obtain ⟨info', head, hd⟩ := deliver_iff.mpr ⟨hmin, hin, rfl, by simpa using heq⟩
        exact hshort (h info' head _ hd).2
      · rintro h info' head payload hd
        obtain ⟨-, -, rfl, heq⟩ := deliver_iff.mp ⟨info', head, hd⟩
        have hne : hashEqual md5 rbuf r.mHashKey (rbuf.drop (hashBufSize + lenByte rbuf)) = false :=
          (h.resolve_left (by omega)).resolve_left (by omega)
        rw [hne] at heq
        cases heq
  · by_cases hnull : p.length < 23 ∨ p.length < (p.headD 0).toNat
    · obtain ⟨e', he'⟩ := e.decodeBuf_null o hnull
      refine iff_of_true ⟨e', none, he', fun q' hq' => by cases hq'⟩ ?_
      by_cases hmin : p.length < 23
      · exact .inl hmin
      · exact .inr (by have := hnull.resolve_left hmin; omega)
    · have hin : (p.headD 0).toNat ≤ p.length := by omega
      obtain ⟨e', he'⟩ := e.decodeBuf_some o (p := p) (by omega) hin
      constructor
      · rintro ⟨e'', q, hq, hstart⟩
        obtain ⟨rfl, rfl⟩ := Prod.mk.inj (Except.ok.inj (he'.symm.trans hq))
        exact .inr ((startsAt_drop_iff hin).mp (hstart _ rfl))
      · intro h
        have h23 : 23 ≤ (p.headD 0).toNat := h.resolve_left (by omega)
        refine ⟨e', _, he', fun q' hq' => ?_⟩
        obtain rfl := Option.some.inj hq'
        exact (startsAt_drop_iff hin).mpr h23

/-- A packet under the hash key `k` whose length byte is 22: the reserved byte `*` of its header
    becomes the first byte of the payload. -/
theorem RConn.payload_overlaps_header :
    ∃ rbuf info' head payload,
      (RConn.mk [107] {} StdMap.empty).onRecv md5OfStar .little (.udp {}) rbuf =
        .ok (.deliver info' head payload) ∧ ¬ StartsAt 31 rbuf payload := by
  have h : ∃ info' head, (RConn.mk [107] {} StdMap.empty).onRecv md5OfStar .little (.udp {})
      ([0x63, 0xd4, 0x32, 0xca, 0x2b, 0xd0, 0x51, 0xd4, 22] ++ List.replicate 21 0 ++ [42, 42]) =
        .ok (.deliver info' head [42, 42]) := RConn.deliver_iff.mpr (by decide)
  obtain ⟨info', head, h⟩ := h
  exact ⟨_, info', head, [42, 42], h, fun hs => absurd hs.2 (by decide)⟩

end Rsock
