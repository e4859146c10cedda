import Rsock.TcpPath
import Rsock.Proofs.RawTcpProofs

/-!
# Proofs: the TCP path between two net conns

* `outputRaw_spec`, `loopInput_frame`: what one payload becomes on the wire, and what of it the
  receiver's event loop gets.
* `safe_iff_noWrap`: over whole runs the receiver's acknowledgement number follows the sender's
  sequence number exactly as long as no delivered segment carries it past 2^32.
-/

namespace Rsock

open CMem

/-! ## Output -/

/-- The result is what libnet writes for the conn. -/
def RawTcp.Writes (r : RawTcp) (res : LibnetRes) : Prop :=
  r.mTcpNet = true ∧ res.tcp ≠ -1 ∧ res.ip ≠ -1 ∧ res.written ≠ -1

instance (r : RawTcp) (res : RawTcp.LibnetRes) : Decidable (r.Writes res) :=
  inferInstanceAs (Decidable (_ ∧ _ ∧ _ ∧ _))

/-- The segment `RawTcp::Output` gives to libnet. -/
def RawTcp.segmentOf (r : RawTcp) (info : TcpInfo) (buf : List UInt8) : Segment :=
  ⟨info.src, info.sp, info.dst, info.dp, info.seq, info.ack, info.flag, r.mIpId, buf⟩

/-- `RawTcp::Output` either writes the whole buffer or reports -1 and writes nothing. -/
theorem RawTcp.output_spec (r : RawTcp) (res : LibnetRes) (info : TcpInfo) (buf : List UInt8)
    (hl : buf.length < 2 ^ 16) :
    (r.output res info buf).2.n = (if r.Writes res then (buf.length : Int) else -1) ∧
    (r.output res info buf).2.segment =
      if r.Writes res then some (r.segmentOf info buf) else none := by
  have htake : buf.take (buf.length % 2 ^ 16) = buf := by
    rw [Nat.mod_eq_of_lt hl, List.take_length]
  unfold output sendRawTcp Writes segmentOf
  simp only [htake]
  by_cases hn : r.mTcpNet = true
  · by_cases h1 : res.tcp = -1
    · simp [hn, h1]
    · by_cases h2 : res.ip = -1
      · simp [hn, h1, h2]
      · by_cases h3 : res.written = -1
        · simp [hn, h1, h2, h3]
        · simp [hn, h1, h2, h3]
  · simp [hn]

/-- What a net conn's payload becomes below: it is refused, or its packet is given to libnet. -/
theorem RConn.outputRaw_spec (c : RConn) (md5 : Md5) (res : RawTcp.LibnetRes) {i : TcpInfo}
    {head : EncHead} {payload : List UInt8} (hh : i.head = some head) (h0 : 0 < payload.length) :
    ∃ raw, c.outputRaw md5 res (.tcp i) payload = .ok (
      if payload.length ≤ 1469 ∧ c.mRawTcp.Writes res then
        ((31 + payload.length : Nat), { c with mRawTcp := raw },
          some (c.mRawTcp.segmentOf i (packet md5 c.mHashKey head payload)))
      else (-1, { c with mRawTcp := raw }, none)) := by
  by_cases h1 : payload.length ≤ 1469
  · obtain ⟨hn, hseg⟩ := c.mRawTcp.output_spec res i
      (packet md5 c.mHashKey head payload) (by rw [length_packet]; omega)
    rw [length_packet] at hn
    refine ⟨(c.mRawTcp.output res i (packet md5 c.mHashKey head payload)).1, ?_⟩
    unfold outputRaw
    rw [output_tcp c md5 hh h0 h1, ok_bind]
    simp only [hn, hseg, h1, true_and]
    split <;> rfl
  · refine ⟨c.mRawTcp, ?_⟩
    unfold outputRaw output
    rw [if_pos h0, if_neg (fun h => h1 h.1)]
    simp only [Info.base, hh, buildPacket_eq md5 c.mHashKey head h0, if_neg h1, ok_bind]
    rfl

/-- The info a `FakeTcp` passes down with a packet. -/
def FakeTcp.outInfo (c : FakeTcp) (hd : EncHead) : TcpInfo :=
  { c.mInfo with head := some (hd.setConnKey c.mIntKey) }

theorem FakeTcp.output_of_below {σ : Type} {c : FakeTcp} {hd : EncHead} {payload : List UInt8}
    {below : Info → List UInt8 → Except Fault (Int × σ)} {n : Int} {x : σ}
    (h : below (.tcp (c.outInfo hd)) payload = .ok (n, x)) :
    ∃ c', c.output hd payload below = .ok (c', n, x) ∧ c'.mInfo.flag = c.mInfo.flag ∧
      c'.mInfo.seq =
        if n ≥ 0 then c.mInfo.seq + UInt32.ofNat (31 + payload.length) else c.mInfo.seq := by
  have hseq : UInt32.ofNat payload.length + c.mInfo.seq + UInt32.ofNat RConn.headSize =
      c.mInfo.seq + UInt32.ofNat (31 + payload.length) := by
    have hh : RConn.headSize = 31 := by decide
    rw [hh, UInt32.ofNat_add]
    ac_rfl
  simp only [FakeTcp.outInfo] at h
  simp only [FakeTcp.output, h, ok_bind]
  refine ⟨_, rfl, ?_, ?_⟩
  · simp only [TcpInfo.updateSeq]
    split <;> rfl
  · simp only [TcpInfo.updateSeq, ← hseq]
    split <;> rfl

/-- `FakeTcp::Output` with the whole path below it. A payload that libnet writes advances `seq` by
    the length of the segment's payload; otherwise the result is -1 and `seq` stays. -/
theorem FakeTcp.output_raw (c : FakeTcp) (hd : EncHead) (s : RConn) (md5 : Md5)
    (res : RawTcp.LibnetRes) (payload : List UInt8) (h0 : 0 < payload.length) :
    ∃ c' raw, c'.mInfo.flag = c.mInfo.flag ∧
      ((payload.length ≤ 1469 ∧ s.mRawTcp.Writes res ∧
        c'.mInfo.seq = c.mInfo.seq + UInt32.ofNat (31 + payload.length) ∧
        c.output hd payload (s.outputRaw md5 res) =
          .ok (c', (31 + payload.length : Nat), { s with mRawTcp := raw },
            some (s.mRawTcp.segmentOf (c.outInfo hd)
              (RConn.packet md5 s.mHashKey (hd.setConnKey c.mIntKey) payload)))) ∨
       (¬ (payload.length ≤ 1469 ∧ s.mRawTcp.Writes res) ∧ c'.mInfo.seq = c.mInfo.seq ∧
        c.output hd payload (s.outputRaw md5 res) =
          .ok (c', -1, { s with mRawTcp := raw }, none))) := by
  obtain ⟨raw, hraw⟩ := s.outputRaw_spec md5 res (i := c.outInfo hd) rfl h0
  by_cases h : payload.length ≤ 1469 ∧ s.mRawTcp.Writes res
  · rw [if_pos h] at hraw
    obtain ⟨c', hout, hflag, hseq⟩ := FakeTcp.output_of_below hraw
    rw [if_pos (by omega)] at hseq
    exact ⟨c', raw, hflag, .inl ⟨h.1, h.2, hseq, hout⟩⟩
  · rw [if_neg h] at hraw
    obtain ⟨c', hout, hflag, hseq⟩ := FakeTcp.output_of_below hraw
    rw [if_neg (by omega)] at hseq
    exact ⟨c', raw, hflag, .inr ⟨h, hseq, hout⟩⟩

/-! ## Delivery -/

theorem FakeTcp.onRecv_ack (c : FakeTcp) (info : TcpInfo) (hh : info.head.isSome) (n : Nat) :
    ∃ c', c.onRecv info n = .ok (c', n) ∧
      c'.mInfo.ack = if c.mInfo.ack < info.seq then info.seq else c.mInfo.ack := by
  have hn : (n : Int) ≥ 0 := by omega
  unfold FakeTcp.onRecv
  rw [cassert_pos hh, ok_bind]
  refine ⟨_, rfl, ?_⟩
  by_cases h : c.mInfo.ack < info.seq
  · simp only [if_pos h, if_pos (And.intro hn h)]
    rfl
  · have h' : ¬ ((n : Int) ≥ 0 ∧ c.mInfo.ack < info.seq) := by
      rintro ⟨-, hlt⟩
      exact h hlt
    simp only [if_neg h, if_neg h']

/-- A segment that carries a packet of a `FakeTcp`, small enough for the receiver. -/
def RawTcp.Segment.Carries (seg : RawTcp.Segment) (md5 : Md5) (hashKey : List UInt8) : Prop :=
  seg.flag = thAck ∧ ∃ head payload, 0 < payload.length ∧ payload.length ≤ 1437 ∧
    seg.payload = RConn.packet md5 hashKey head payload

/-- Delivering such a segment raises `ack` to the sequence number behind it, when that is larger
    as an unsigned number. -/
theorem FakeTcp.recvSegment_ack (c : FakeTcp) {r : RConn} {md5 : Md5} {seg : RawTcp.Segment}
    (x : FrameRest) (n : Nat) (hd : r.mRawTcp.mDatalink ≠ .other)
    (hs : r.mRawTcp.mSyncConn = true) (hc : seg.Carries md5 r.mHashKey) :
    ∃ c', c.recvSegment r md5 seg x n = .ok c' ∧
      c'.mInfo.ack = if c.mInfo.ack < seg.seq + UInt32.ofNat seg.payload.length then
        seg.seq + UInt32.ofNat seg.payload.length else c.mInfo.ack := by
  obtain ⟨hflag, head, payload, h0, h1, hp⟩ := hc
  have hlen : seg.payload.length = 31 + payload.length := by rw [hp, RConn.length_packet]
  unfold FakeTcp.recvSegment
  rw [RawTcp.loopInput_frame hd hs seg x (by rw [hflag]; decide) (by omega) (by omega),
    if_pos (by omega), ok_bind]
  simp only [hp, RConn.onRecv_packet r md5 .little _ head h0, ok_bind, Info.setHead]
  obtain ⟨c', hc', hack⟩ := c.onRecv_ack { seg.recvInfo with
    seq := seg.seq + UInt32.ofNat (RConn.packet md5 r.mHashKey head payload).length
    head := some { head with len := EncHead.getMinEncSize } } rfl n
  rw [hc']
  exact ⟨c', rfl, hack⟩

/-! ## Runs -/

namespace TcpPath

/-- Payload sizes both ends accept, and those the sender refuses. -/
def Event.Accepted : Event → Prop
  | .output _ payload _ =>
    0 < payload.length ∧ (payload.length ≤ 1437 ∨ 1469 < payload.length)
  | .deliver _ _ => True

/-- The sequence number of the oldest segment in flight, or the sender's when there is none. -/
def nextSeq (wire : List RawTcp.Segment) (seq : UInt32) : UInt32 :=
  match wire with
  | [] => seq
  | seg :: _ => seg.seq

/-- The receiver expects the segment that comes next. -/
def Tracks (p : TcpPath) : Prop :=
  p.receiver.mInfo.ack = nextSeq p.wire p.sender.mInfo.seq

/-- What is right about one event: afterwards the receiver expects the segment that comes next, and
    an output that returned a negative value has changed neither counter. -/
def Right (md5 : Md5) (p : TcpPath) (e : Event) (p' : TcpPath) : Prop :=
  p'.Tracks ∧
    match e with
    | .output hd payload res =>
      ∀ c n x, p.sender.output hd payload (p.rconn.outputRaw md5 res) = .ok (c, n, x) → n < 0 →
        p'.sender.mInfo.seq = p.sender.mInfo.seq ∧ p'.receiver.mInfo.ack = p.receiver.mInfo.ack
    | .deliver _ _ => True

/-- The segment that is delivered does not take the sequence number past 2^32. -/
def NoWrap (p : TcpPath) : Event → Prop
  | .output _ _ _ => True
  | .deliver _ _ => ∀ seg ∈ p.wire.head?, seg.seq.toNat + seg.payload.length < 2 ^ 32

/-- The sequence numbers of the segments follow each other from `a` to `b`. -/
def Chain : UInt32 → List RawTcp.Segment → UInt32 → Prop
  | a, [], b => a = b
  | a, seg :: wire, b => seg.seq = a ∧ Chain (seg.seq + UInt32.ofNat seg.payload.length) wire b

theorem Chain.nextSeq_eq {a b : UInt32} {wire : List RawTcp.Segment} (h : Chain a wire b) :
    nextSeq wire b = a := by
  cases wire with
  | nil => exact h.symm
  | cons seg wire => exact h.1

theorem Chain.append {a b : UInt32} {wire : List RawTcp.Segment} {seg : RawTcp.Segment}
    (h : Chain a wire b) (hseg : seg.seq = b) :
    Chain a (wire ++ [seg]) (b + UInt32.ofNat seg.payload.length) := by
  induction wire generalizing a with
  | nil =>
    obtain rfl : a = b := h
    exact ⟨hseg, by rw [hseg]; rfl⟩
  | cons s wire ih => exact ⟨h.1, ih h.2⟩

/-- The invariant of a path on which everything has been right so far. -/
structure Inv (md5 : Md5) (r : RConn) (p : TcpPath) : Prop where
  /-- Net conns are constructed with the flag `TH_ACK`. -/
  flag : p.sender.mInfo.flag = thAck
  key : p.rconn.mHashKey = r.mHashKey
  carries : ∀ seg ∈ p.wire, seg.Carries md5 r.mHashKey
  chain : Chain p.receiver.mInfo.ack p.wire p.sender.mInfo.seq

variable {md5 : Md5} {r : RConn} {p : TcpPath}

theorem Inv.tracks (h : Inv md5 r p) : p.Tracks := h.chain.nextSeq_eq.symm

theorem step_output_eq {hd : EncHead} {payload : List UInt8} {res : RawTcp.LibnetRes}
    {c : FakeTcp} {n : Int} {rconn : RConn} {seg : Option RawTcp.Segment}
    (h : p.sender.output hd payload (p.rconn.outputRaw md5 res) = .ok (c, n, rconn, seg)) :
    step md5 r p (.output hd payload res) =
      .ok { p with sender := c, rconn := rconn, wire := p.wire ++ seg.toList } := by
  rw [step, h]
  rfl

theorem step_output (h : Inv md5 r p) (hd : EncHead) {payload : List UInt8}
    (res : RawTcp.LibnetRes) (ha : (Event.output hd payload res).Accepted) :
    ∃ p', step md5 r p (.output hd payload res) = .ok p' ∧ Inv md5 r p' ∧
      Right md5 p (.output hd payload res) p' := by
  obtain ⟨h0, hsize⟩ := ha
  obtain ⟨c', raw, hflag, hout⟩ := p.sender.output_raw hd p.rconn md5 res payload h0
  rcases hout with ⟨hl, hw, hseq, hout⟩ | ⟨hl, hseq, hout⟩
  · -- the segment is on the wire
    set seg := p.rconn.mRawTcp.segmentOf (p.sender.outInfo hd)
      (RConn.packet md5 p.rconn.mHashKey (hd.setConnKey p.sender.mIntKey) payload) with hseg
    have hlen : seg.payload.length = 31 + payload.length := RConn.length_packet ..
    have hinv : Inv md5 r { p with
        sender := c', rconn := { p.rconn with mRawTcp := raw }, wire := p.wire ++ [seg] } := by
      refine ⟨hflag.trans h.flag, h.key, ?_, ?_⟩
      · intro s hs
        rcases List.mem_append.1 hs with hs | hs
        · exact h.carries s hs
        · obtain rfl := List.mem_singleton.1 hs
          exact ⟨h.flag, _, payload, h0, by omega, by rw [← h.key]; rfl⟩
      · show Chain _ _ c'.mInfo.seq
        rw [hseq, ← hlen]
        exact h.chain.append rfl
    refine ⟨_, step_output_eq hout, hinv, hinv.tracks, ?_⟩
    intro c n x hc hn
    rw [hout] at hc
    obtain ⟨-, rfl, -⟩ := Prod.mk.injEq .. ▸ Except.ok.inj hc
    omega
  · have hinv : Inv md5 r { p with
        sender := c', rconn := { p.rconn with mRawTcp := raw }, wire := p.wire ++ [] } := by
      refine ⟨hflag.trans h.flag, h.key, ?_, ?_⟩
      · rw [List.append_nil]
        exact h.carries
      · show Chain _ (p.wire ++ []) c'.mInfo.seq
        rw [List.append_nil, hseq]
        exact h.chain
    refine ⟨_, step_output_eq hout, hinv, hinv.tracks, ?_⟩
    intro c n x hc hn
    exact ⟨hseq, rfl⟩

/-- The unsigned comparison of `OnRecv` sees that a segment is new exactly when its end does not
    wrap around. -/
theorem lt_add_iff {a : UInt32} {k : Nat} (h0 : 0 < k) (h1 : k < 2 ^ 32) :
    a < a + UInt32.ofNat k ↔ a.toNat + k < 2 ^ 32 := by
  have ha := a.toNat_lt
  rw [UInt32.lt_iff_toNat_lt, UInt32.toNat_add, UInt32.toNat_ofNat_of_lt' h1]
  omega

theorem ne_add {a : UInt32} {k : Nat} (h0 : 0 < k) (h1 : k < 2 ^ 32) :
    a ≠ a + UInt32.ofNat k := by
  intro h
  have ha := a.toNat_lt
  have h' := congrArg UInt32.toNat h
  rw [UInt32.toNat_add, UInt32.toNat_ofNat_of_lt' h1] at h'
  omega

/-- A delivery keeps the invariant exactly when the segment does not wrap around. -/
theorem step_deliver (h : Inv md5 r p) (hd : r.mRawTcp.mDatalink ≠ .other)
    (hs : r.mRawTcp.mSyncConn = true) (x : FrameRest) (n : Nat) :
    ∃ p', step md5 r p (.deliver x n) = .ok p' ∧ (NoWrap p (.deliver x n) → Inv md5 r p') ∧
      (p'.Tracks → NoWrap p (.deliver x n)) := by
  cases hw : p.wire with
  | nil =>
    refine ⟨p, by simp [step, hw, pure, Except.pure], ?_, ?_⟩
    · intro _
      exact h
    · intro _ seg hseg
      simp [hw] at hseg
  | cons seg wire =>
    have hcarries : seg.Carries md5 r.mHashKey := h.carries seg (by simp [hw])
    have hlen : 0 < seg.payload.length ∧ seg.payload.length < 2 ^ 32 := by
      obtain ⟨-, head, payload, h0, h1, hp⟩ := hcarries
      rw [hp, RConn.length_packet]
      omega
    obtain ⟨c', hrecv, hack⟩ := p.receiver.recvSegment_ack x n hd hs hcarries
    have hchain := h.chain
    rw [hw] at hchain
    obtain ⟨hseq, hrest⟩ := hchain
    rw [← hseq] at hack
    have hno : NoWrap p (.deliver x n) ↔ seg.seq.toNat + seg.payload.length < 2 ^ 32 := by
      simp [NoWrap, hw]
    refine ⟨{ p with receiver := c', wire := wire }, by simp [step, hw, hrecv, pure, Except.pure],
      ?_, ?_⟩
    · intro hnw
      have hnew : seg.seq < seg.seq + UInt32.ofNat seg.payload.length :=
        (lt_add_iff hlen.1 hlen.2).2 (hno.1 hnw)
      rw [if_pos hnew] at hack
      refine ⟨h.flag, h.key, ?_, ?_⟩
      · intro s hs
        exact h.carries s (by rw [hw]; exact List.mem_cons_of_mem _ hs)
      · show Chain c'.mInfo.ack wire p.sender.mInfo.seq
        rw [hack]
        exact hrest
    · intro htr
      by_contra hnw
      have hold : ¬ seg.seq < seg.seq + UInt32.ofNat seg.payload.length := by
        intro hlt
        exact hnw (hno.2 ((lt_add_iff hlen.1 hlen.2).1 hlt))
      rw [if_neg hold] at hack
      have hnext : c'.mInfo.ack = seg.seq + UInt32.ofNat seg.payload.length :=
        htr.trans hrest.nextSeq_eq
      exact ne_add hlen.1 hlen.2 (hack.symm.trans hnext)

/-- From any state that satisfies the invariant, every event of a run is right exactly when no
    delivered segment wraps around. -/
theorem safe_iff_noWrap (hd : r.mRawTcp.mDatalink ≠ .other) (hs : r.mRawTcp.mSyncConn = true)
    (h : Inv md5 r p) {es : List Event} (hes : ∀ e ∈ es, e.Accepted) :
    TransSys.Safe (step md5 r) (Right md5) p es ↔ TransSys.EachStep (step md5 r) NoWrap p es := by
  refine TransSys.safe_iff_eachStep (J := Inv md5 r) (A := Event.Accepted) ?_ ?_ es p h hes
  · intro p e p' hp ha hstep hright
    cases e with
    | output hd' payload res =>
      obtain ⟨p'', hstep', hinv, -⟩ := step_output hp hd' res ha
      obtain rfl := Except.ok.inj (hstep.symm.trans hstep')
      exact hinv
    | deliver x n =>
      obtain ⟨p'', hstep', hinv, hno⟩ := step_deliver hp hd hs x n
      obtain rfl := Except.ok.inj (hstep.symm.trans hstep')
      exact hinv (hno hright.1)
  · intro p e hp ha
    cases e with
    | output hd' payload res =>
      obtain ⟨p', hstep, -, hright⟩ := step_output hp hd' res ha
      exact iff_of_true ⟨p', hstep, hright⟩ trivial
    | deliver x n =>
      obtain ⟨p', hstep, hinv, hno⟩ := step_deliver hp hd hs x n
      constructor
      · rintro ⟨p'', hstep', htr, -⟩
        obtain rfl := Except.ok.inj (hstep.symm.trans hstep')
        exact hno htr
      · intro hnw
        exact ⟨p', hstep, (hinv hnw).tracks, trivial⟩

/-- Two net conns that agree when nothing is in flight: every event of a run is right exactly when
    no delivered segment takes the sequence number past 2^32. -/
theorem tracks_iff_noWrap (md5 : Md5) (r : RConn) (hd : r.mRawTcp.mDatalink ≠ .other)
    (hs : r.mRawTcp.mSyncConn = true) (p : TcpPath) (hflag : p.sender.mInfo.flag = thAck)
    (hkey : p.rconn.mHashKey = r.mHashKey) (hwire : p.wire = [])
    (hack : p.receiver.mInfo.ack = p.sender.mInfo.seq) (es : List Event)
    (hes : ∀ e ∈ es, e.Accepted) :
    TransSys.Safe (step md5 r) (Right md5) p es ↔ TransSys.EachStep (step md5 r) NoWrap p es :=
  safe_iff_noWrap hd hs ⟨hflag, hkey, by simp [hwire], by rw [hwire]; exact hack⟩ hes

/-- A path with nothing in flight whose two ends agree on `seq`. -/
def ofSeq (seq : UInt32) : TcpPath where
  sender := { mIntKey := 1, mInfo := { seq := seq } }
  rconn := ⟨[107], {}, StdMap.empty⟩
  receiver := { mIntKey := 1, mInfo := { ack := seq } }

/-- The sender outputs `*` and the segment is delivered. -/
def starRun : List Event := [.output {} [42] ⟨1, 1, 1⟩, .deliver .plain 1]

theorem starRun_accepted : ∀ e ∈ starRun, e.Accepted := by
  simp [starRun, Event.Accepted]

theorem eachStep_starRun {seq : UInt32} :
    TransSys.EachStep (step md5OfStar ⟨[107], {}, StdMap.empty⟩) NoWrap (ofSeq seq) starRun ↔
      seq.toNat + 32 < 2 ^ 32 := by
  obtain ⟨c', raw, -, hout⟩ := (ofSeq seq).sender.output_raw {} (ofSeq seq).rconn md5OfStar
    ⟨1, 1, 1⟩ [42] (by decide)
  rcases hout with ⟨-, -, -, hout⟩ | ⟨hno, -⟩
  · have hstep := step_output_eq (r := ⟨[107], {}, StdMap.empty⟩) hout
    constructor
    · rintro ⟨-, h⟩
      have hwrap := (h _ hstep).1 _ rfl
      rwa [RawTcp.segmentOf, RConn.length_packet] at hwrap
    · intro h
      refine ⟨trivial, ?_⟩
      intro s' hs'
      refine ⟨?_, fun _ _ => trivial⟩
      obtain rfl := Except.ok.inj (hstep.symm.trans hs')
      rintro seg ⟨⟩
      rwa [RawTcp.segmentOf, RConn.length_packet]
  · exact absurd ⟨by decide, show RawTcp.Writes {} ⟨1, 1, 1⟩ by decide⟩ hno

/-- The run starting at 5 is right. -/
theorem tracks_of_five : TransSys.Safe (step md5OfStar ⟨[107], {}, StdMap.empty⟩)
    (Right md5OfStar) (ofSeq 5) starRun :=
  (tracks_iff_noWrap md5OfStar ⟨[107], {}, StdMap.empty⟩ (by decide) rfl (ofSeq 5) rfl rfl rfl rfl
    starRun starRun_accepted).2 (eachStep_starRun.2 (by decide))

/-- The same run starting at 2^32 - 1 is not: the receiver does not see that the segment is new. -/
theorem not_tracks_of_max : ¬ TransSys.Safe (step md5OfStar ⟨[107], {}, StdMap.empty⟩)
    (Right md5OfStar) (ofSeq 0xffffffff) starRun := by
  have hinv : Inv md5OfStar ⟨[107], {}, StdMap.empty⟩ (ofSeq 0xffffffff) :=
    ⟨rfl, rfl, by simp [ofSeq], rfl⟩
  rw [safe_iff_noWrap (by decide) rfl hinv starRun_accepted, eachStep_starRun]
  decide

end TcpPath

/-! ## Sizes -/

/-- The info a receiver should get with a segment of `info` that carries `k` bytes. -/
def TcpInfo.received (info : TcpInfo) (k : Nat) : TcpInfo :=
  { src := info.dst, sp := info.dp, dst := info.src, dp := info.sp,
    seq := info.seq + UInt32.ofNat k, ack := info.ack, flag := info.flag }

theorem loopInput_output (md5 : Md5) (s : RConn) (res : RawTcp.LibnetRes)
    (hw : s.mRawTcp.Writes res) (c : FakeTcp) (hflag : c.mInfo.flag = thAck) (hd : EncHead)
    (payload : List UInt8) (h0 : 1 ≤ payload.length) (h1 : payload.length ≤ 1469) (r : RawTcp)
    (hdl : r.mDatalink ≠ .other) (hs : r.mSyncConn = true) (x : FrameRest) :
    ∃ c' n s' seg pkt, c.output hd payload (s.outputRaw md5 res) = .ok (c', n, s', some seg) ∧
      RConn.buildPacket md5 .little s.mHashKey (hd.setConnKey c.mIntKey) payload =
        .ok (some pkt) ∧
      r.loopInput (seg.frame r.mDatalink x) = .ok (
        if payload.length ≤ 1437 then some (c.mInfo.received pkt.length, pkt) else none) := by
  obtain ⟨c', raw, -, hout⟩ := c.output_raw hd s md5 res payload h0
  rcases hout with ⟨-, -, -, hout⟩ | ⟨hno, -⟩
  swap
  · exact absurd ⟨h1, hw⟩ hno
  set pkt := RConn.packet md5 s.mHashKey (hd.setConnKey c.mIntKey) payload with hpkt
  set seg := s.mRawTcp.segmentOf (c.outInfo hd) pkt with hseg
  have hlen : pkt.length = 31 + payload.length := RConn.length_packet ..
  have hpay : seg.payload = pkt := rfl
  refine ⟨c', _, _, seg, pkt, hout, ?_, ?_⟩
  · rw [RConn.buildPacket_eq md5 _ _ h0, if_pos h1]
  · have hsyn : seg.flag &&& thSyn = 0 := by
      show c.mInfo.flag &&& thSyn = 0
      rw [hflag]
      decide
    rw [RawTcp.loopInput_frame hdl hs seg x hsyn (by rw [hpay]; omega) (by rw [hpay]; omega), hpay]
    by_cases h : payload.length ≤ 1437
    · rw [if_pos (by omega), if_pos h]
      rfl
    · rw [if_neg (by omega), if_neg h]

/-- The receiver's event loop gets a packet that a `FakeTcp` sent, with the segment's info, exactly
    when the payload has at most 1437 bytes, although `RConn::Output` accepts 1469. -/
theorem loopInput_output_iff (md5 : Md5) (s : RConn) (res : RawTcp.LibnetRes)
    (hw : s.mRawTcp.Writes res) (c : FakeTcp) (hflag : c.mInfo.flag = thAck) (hd : EncHead)
    (payload : List UInt8) (h0 : 1 ≤ payload.length)
    (h1 : hashBufSize + hd.getSize.toNat + payload.length ≤ omMaxPktSize) (r : RawTcp)
    (hdl : r.mDatalink ≠ .other) (hs : r.mSyncConn = true) (x : FrameRest) :
    ∃ c' n s' seg pkt, c.output hd payload (s.outputRaw md5 res) = .ok (c', n, s', some seg) ∧
      RConn.buildPacket md5 .little s.mHashKey (hd.setConnKey c.mIntKey) payload =
        .ok (some pkt) ∧
      (r.loopInput (seg.frame r.mDatalink x) =
          .ok (some (c.mInfo.received pkt.length, pkt)) ↔ payload.length ≤ 1437) := by
  have h1' : payload.length ≤ 1469 := by
    rw [EncHead.getSize, getMinEncSize_toNat, hashBufSize, omMaxPktSize] at h1
    omega
  obtain ⟨c', n, s', seg, pkt, hout, hpkt, hloop⟩ :=
    loopInput_output md5 s res hw c hflag hd payload h0 h1' r hdl hs x
  refine ⟨c', n, s', seg, pkt, hout, hpkt, ?_⟩
  rw [hloop]
  by_cases h : payload.length ≤ 1437
  · rw [if_pos h]
    exact iff_of_true rfl h
  · rw [if_neg h]
    exact iff_of_false (by simp) h

/-- The packet of the payload `*` gets through. -/
theorem loopInput_output_star : ∃ seg pkt,
    RConn.buildPacket md5OfStar .little [107] (EncHead.setConnKey {} 1) [42] = .ok (some pkt) ∧
      RawTcp.loopInput {} (RawTcp.Segment.frame seg .en10mb .plain) =
        .ok (some (TcpInfo.received {} pkt.length, pkt)) := by
  obtain ⟨-, -, -, seg, pkt, -, hpkt, hiff⟩ := loopInput_output_iff md5OfStar
    ⟨[107], {}, StdMap.empty⟩ ⟨1, 1, 1⟩ (by decide) { mIntKey := 1, mInfo := {} } rfl {} [42]
    (by decide) (by decide) {} (by decide) rfl .plain
  exact ⟨seg, pkt, hpkt, hiff.2 (by decide)⟩

/-- The packet of 1438 times `*` is accepted by `RConn::Output` and dropped by the receiver. -/
theorem loopInput_output_dropped : ∃ c' n s' seg,
    FakeTcp.output { mIntKey := 1, mInfo := {} } {} (List.replicate 1438 42)
        (RConn.outputRaw ⟨[107], {}, StdMap.empty⟩ md5OfStar ⟨1, 1, 1⟩) =
      .ok (c', n, s', some seg) ∧
    RawTcp.loopInput {} (RawTcp.Segment.frame seg .en10mb .plain) = .ok none := by
  have hl : (List.replicate 1438 (42 : UInt8)).length = 1438 := List.length_replicate
  obtain ⟨c', n, s', seg, pkt, hout, -, hloop⟩ := loopInput_output md5OfStar
    ⟨[107], {}, StdMap.empty⟩ ⟨1, 1, 1⟩ (by decide) { mIntKey := 1, mInfo := {} } rfl {}
    (List.replicate 1438 42) (by omega) (by omega) {} (by decide) rfl .plain
  refine ⟨c', n, s', seg, hout, ?_⟩
  rw [hl, if_neg (by decide)] at hloop
  exact hloop

/-! ## The handshake -/

/-- The two ends of a connection agree on both counters. -/
def FakeTcp.Agree (client server : FakeTcp) : Prop :=
  client.mInfo.ack = server.mInfo.seq ∧ server.mInfo.ack = client.mInfo.seq

/-- `Init` sets both counters from the recorded `ack`: `SetAckISN` reads the `seq` that `SetISN` has
    just written. -/
theorem FakeTcp.init_counters (c : FakeTcp) (n : Int) :
    (c.init n).1.mInfo.seq = c.mInfo.ack + 1 ∧ (c.init n).1.mInfo.ack = c.mInfo.ack + 1 + 1 :=
  ⟨rfl, rfl⟩

/-- `Init` sets `ack` to the recorded `seq` plus one only for the records whose `seq` follows their
    `ack`. -/
theorem FakeTcp.init_ack_iff (c : FakeTcp) (n : Int) :
    (c.init n).1.mInfo.ack = c.mInfo.seq + 1 ↔ c.mInfo.seq = c.mInfo.ack + 1 := by
  rw [(c.init_counters n).2, UInt32.add_left_inj, eq_comm]

theorem FakeTcp.new_of_record (rec : TcpInfo) (key : IntKeyType) (now : UInt64) :
    FakeTcp.new rec.toConnInfo key rec now =
      .ok { mIntKey := key, mInfo := rec, mEstablishedTimeStampMs := now } := by
  rw [FakeTcp.new, cassert_pos rfl]
  rfl

/-- What both ends record of the same handshake segment. -/
theorem RawTcp.rawInput_syn {r : RawTcp} (hd : r.mDatalink ≠ .other) (hp : r.mTcpAckPool = true)
    {seg : Segment} (hflag : seg.flag &&& thSyn ≠ 0) (hl : seg.payload.length ≤ 65415)
    (x : FrameRest) :
    r.rawInput (seg.frame r.mDatalink x) = .ok (.addInfoFromPeer
      (if r.mIsServer then seg.recvInfo.reverse else seg.recvInfo) seg.flag) := by
  rw [rawInput_frame seg x hd hl, if_pos ⟨hflag, hp⟩]

theorem not_agree_of_isn (c s : UInt32) : ¬ (c + 1 + 1 + 1 = s + 1 ∧ s + 1 + 1 = c + 1 + 1) := by
  rintro ⟨h1, h2⟩
  have h1' := congrArg UInt32.toNat h1
  have h2' := congrArg UInt32.toNat h2
  have hc := c.toNat_lt
  have hs := s.toNat_lt
  simp only [UInt32.toNat_add, UInt32.toNat_one] at h1' h2'
  omega

/-- Both ends record the same `SYN|ACK` and initialise a `FakeTcp` from it: their counters disagree
    for every pair of initial sequence numbers, and at most one of the two `ack`s is the recorded
    `seq` plus one. -/
theorem FakeTcp.init_not_agree (isnC isnS : UInt32) (seg : RawTcp.Segment)
    (hflag : seg.flag = thSyn ||| thAck) (hseq : seg.seq = isnS) (hack : seg.ack = isnC + 1)
    (hl : seg.payload.length ≤ 65415) (client server : RawTcp)
    (hclient : client.mIsServer = false ∧ client.mTcpAckPool = true ∧ client.mDatalink ≠ .other)
    (hserver : server.mIsServer = true ∧ server.mTcpAckPool = true ∧ server.mDatalink ≠ .other)
    (x y : FrameRest) (keyC keyS : IntKeyType) (nowC nowS : UInt64) (n m : Int) :
    ∃ recC recS c s,
      client.rawInput (seg.frame client.mDatalink x) = .ok (.addInfoFromPeer recC seg.flag) ∧
      server.rawInput (seg.frame server.mDatalink y) = .ok (.addInfoFromPeer recS seg.flag) ∧
      FakeTcp.new recC.toConnInfo keyC recC nowC = .ok c ∧
      FakeTcp.new recS.toConnInfo keyS recS nowS = .ok s ∧
      ¬ (c.init n).1.Agree (s.init m).1 ∧
      ((c.init n).1.mInfo.ack = recC.seq + 1 ↔ isnS = isnC + 1 + 1) ∧
      ((s.init m).1.mInfo.ack = recS.seq + 1 ↔ isnC = isnS) := by
  have hsyn : seg.flag &&& thSyn ≠ 0 := by rw [hflag]; decide
  have hrecC := RawTcp.rawInput_syn hclient.2.2 hclient.2.1 hsyn hl x
  have hrecS := RawTcp.rawInput_syn hserver.2.2 hserver.2.1 hsyn hl y
  rw [if_neg (by simp [hclient.1])] at hrecC
  rw [if_pos hserver.1] at hrecS
  refine ⟨_, _, _, _, hrecC, hrecS, new_of_record _ keyC nowC, new_of_record _ keyS nowS,
    ?_, ?_, ?_⟩
  · rw [Agree, (init_counters _ n).1, (init_counters _ n).2, (init_counters _ m).1,
      (init_counters _ m).2]
    show ¬ (seg.ack + 1 + 1 = seg.seq + 1 ∧ seg.seq + 1 + 1 = seg.ack + 1)
    rw [hack, hseq]
    exact not_agree_of_isn isnC isnS
  · refine (init_ack_iff _ n).trans ?_
    show seg.seq = seg.ack + 1 ↔ _
    rw [hack, hseq]
  · refine (init_ack_iff _ m).trans ?_
    show seg.ack = seg.seq + 1 ↔ _
    rw [hack, hseq, UInt32.add_left_inj]

/-- The `SYN|ACK` of a connection with the initial sequence numbers `c` and `s`. -/
def RawTcp.Segment.synAck (c s : UInt32) : RawTcp.Segment :=
  ⟨1, 80, 2, 4000, s, c + 1, thSyn ||| thAck, 0, []⟩

/-- The initial sequence numbers 100 and 200. -/
theorem FakeTcp.init_not_agree_100_200 :
    ∃ recC recS c s,
      RawTcp.rawInput {} ((RawTcp.Segment.synAck 100 200).frame .en10mb .plain) =
        .ok (.addInfoFromPeer recC (thSyn ||| thAck)) ∧
      RawTcp.rawInput { mIsServer := true }
        ((RawTcp.Segment.synAck 100 200).frame .en10mb .plain) =
        .ok (.addInfoFromPeer recS (thSyn ||| thAck)) ∧
      FakeTcp.new recC.toConnInfo 1 recC 0 = .ok c ∧ FakeTcp.new recS.toConnInfo 1 recS 0 = .ok s ∧
      ¬ (c.init 0).1.Agree (s.init 0).1 := by
  obtain ⟨recC, recS, c, s, hrecC, hrecS, hc, hs, hnot, -⟩ := FakeTcp.init_not_agree 100 200
    (.synAck 100 200) rfl rfl rfl (by decide) {} { mIsServer := true } (by decide) (by decide)
    .plain .plain 1 1 0 0 0 0
  exact ⟨recC, recS, c, s, hrecC, hrecS, hc, hs, hnot⟩

/-- From the records of that handshake the client gets 102 and 103 where the server gets 201 and
    202, and neither `ack` is the recorded `seq` plus one. -/
theorem FakeTcp.init_counters_100_200 :
    ∃ recC recS c s,
      RawTcp.rawInput {} ((RawTcp.Segment.synAck 100 200).frame .en10mb .plain) =
        .ok (.addInfoFromPeer recC (thSyn ||| thAck)) ∧
      RawTcp.rawInput { mIsServer := true }
        ((RawTcp.Segment.synAck 100 200).frame .en10mb .plain) =
        .ok (.addInfoFromPeer recS (thSyn ||| thAck)) ∧
      FakeTcp.new recC.toConnInfo 1 recC 0 = .ok c ∧ FakeTcp.new recS.toConnInfo 1 recS 0 = .ok s ∧
      ((c.init 0).1.mInfo.seq = 102 ∧ (c.init 0).1.mInfo.ack = 103) ∧
      ((s.init 0).1.mInfo.seq = 201 ∧ (s.init 0).1.mInfo.ack = 202) ∧
      (recC.seq = 200 ∧ recS.seq = 101) ∧ ¬ (c.init 0).1.Agree (s.init 0).1 := by
  refine ⟨_, _, _, _, RawTcp.rawInput_syn (by decide) rfl (by decide) (by decide) .plain,
    RawTcp.rawInput_syn (by decide) rfl (by decide) (by decide) .plain, new_of_record _ 1 0,
    new_of_record _ 1 0, ⟨rfl, rfl⟩, ⟨rfl, rfl⟩, ⟨rfl, rfl⟩, ?_⟩
  rintro ⟨h, -⟩
  exact absurd h (by decide)

end Rsock
