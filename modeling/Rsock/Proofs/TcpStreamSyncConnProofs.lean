import Rsock.Lib.Run
import Rsock.TcpStreamSyncConn

/-!
# Proofs: `TcpStreamSyncConn`

The framing is lossless. The invariant between two reads is that the bytes held back (`pending`),
followed by the rest of the stream, are the encoding of the frames still to come.
-/

namespace Rsock

open CMem

namespace TcpStreamSyncConn

variable {c : TcpStreamSyncConn} {o : ByteOrder}

/-! ## The encoding -/

/-- A frame with its length in front of it. -/
def encode (o : ByteOrder) (frame : List UInt8) : List UInt8 :=
  storeCount o frame.length ++ frame

/-- The frames as one stream. -/
def stream (o : ByteOrder) (frames : List (List UInt8)) : List UInt8 :=
  (frames.map (encode o)).flatten

/-- Every frame is of a length the connection sends. -/
def Legal (frames : List (List UInt8)) : Prop :=
  ∀ f ∈ frames, 1 ≤ f.length ∧ f.length ≤ 1495

@[simp] theorem length_storeCount (o : ByteOrder) (n : Nat) : (storeCount o n).length = 4 := by
  simp [storeCount]

theorem loadCount_storeCount (o : ByteOrder) {n : Nat} (h : n < 2 ^ 31) :
    loadCount o (storeCount o n) = n := by
  rw [loadCount, storeCount, ByteOrder.load_store_of_lt o (by simp only [countSize]; omega),
    BitVec.toInt_ofNat']
  simp only [Int.bmod]
  omega

@[simp] theorem stream_nil (o : ByteOrder) : stream o [] = [] := rfl

@[simp] theorem stream_cons (o : ByteOrder) (f : List UInt8) (fs : List (List UInt8)) :
    stream o (f :: fs) = storeCount o f.length ++ (f ++ stream o fs) := by
  simp [stream, encode]

theorem send_eq (o : ByteOrder) {frame : List UInt8} (h0 : 1 ≤ frame.length)
    (h1 : frame.length ≤ 1495) : send o frame = .ok (encode o frame) := by
  obtain ⟨p, hp, hpw, hpp⟩ := (Cursor.start maxBufSize).write_ok (storeCount o frame.length)
    (by simp)
  rw [Cursor.written_start, List.nil_append] at hpw
  rw [Cursor.pos_start, length_storeCount] at hpp
  obtain ⟨q, hq, hqw, -⟩ := p.write_ok frame (by simp; omega)
  have hlen : (encode o frame).length = 4 + frame.length := by simp [encode]
  rw [send, if_pos (by omega), hp, ok_bind, hq, ok_bind,
    cassert_pos (by simp only [countSize, maxBufSize, omMaxPktSize]; omega), ok_bind, hqw, hpw,
    ← encode, doSend, if_pos (by omega), cassert_pos (by simp only [omMaxPktSize]; omega)]
  rfl

/-! ## Between two reads -/

/-- The count that is put back in front of the held-back body. -/
def countOf (c : TcpStreamSyncConn) (o : ByteOrder) : List UInt8 :=
  if c.mNextLen > 0 then storeCount o c.mNextLen else []

/-- The held-back bytes of `mTempBuf`. -/
def tempOf (c : TcpStreamSyncConn) : List UInt8 := c.mTempBuf.bytes.take c.mBufLen

/-- The bytes taken from the stream that belong to a frame `Input` has not been called with. -/
def pending (c : TcpStreamSyncConn) (o : ByteOrder) : List UInt8 := c.countOf o ++ c.tempOf

/-- Part of a count is held back, or part of a body. -/
def Between (c : TcpStreamSyncConn) : Prop :=
  (c.mNextLen = 0 ∧ c.mBufLen < 4) ∨ (0 < c.mNextLen ∧ c.mBufLen < c.mNextLen)

/-- The invariant between two reads: `rest` is what is still to be read, `todo` the frames `Input`
    has still to be called with. -/
structure Inv (o : ByteOrder) (c : TcpStreamSyncConn) (rest : List UInt8)
    (todo : List (List UInt8)) : Prop where
  legal : Legal todo
  between : c.Between
  nextLen_le : c.mNextLen ≤ 1495
  stream_eq : c.pending o ++ rest = stream o todo

theorem markTempBuf_ok (c : TcpStreamSyncConn) (nextLen : Nat) (src junk : List UInt8)
    (h : src.length ≤ 1508) :
    ∃ c', c.markTempBuf nextLen (src ++ junk) src.length = .ok c' ∧ c'.mNextLen = nextLen ∧
      c'.mBufLen = src.length ∧ c'.mTempBuf.bytes.take c'.mBufLen = src := by
  unfold markTempBuf
  rw [cassert_pos (by omega), ok_bind]
  by_cases h0 : 0 < src.length
  · have hfit : 0 + src.length ≤ maxBufSize := by simp; omega
    obtain ⟨b, hb, hbt⟩ := c.mTempBuf.memcpy_ok hfit
    rw [if_pos h0, readBytes_append rfl, ok_bind]
    simp only [hb, ok_bind]
    refine ⟨_, rfl, by simp, rfl, ?_⟩
    simpa using hbt
  · rw [if_neg h0]
    refine ⟨_, rfl, by simp, rfl, ?_⟩
    have hnil : src = [] := List.length_eq_zero_iff.1 (by omega)
    simp [hnil]

/-! ## The loop -/

theorem exists_append_of_append_eq {α : Type} {a b d e : List α} (h : a ++ b = d ++ e)
    (hl : d.length ≤ a.length) : ∃ a', a = d ++ a' ∧ a' ++ b = e := by
  rcases List.append_eq_append_iff.1 h with ⟨d', hd, hb⟩ | ⟨a', ha, he⟩
  · have hd' : d' = [] := by
      rw [hd, List.length_append] at hl
      exact List.length_eq_zero_iff.1 (by omega)
    exact ⟨[], by simp [hd, hd'], by simp [hb, hd']⟩
  · exact ⟨a', ha, he.symm⟩

theorem inv_markTempBuf {c' : TcpStreamSyncConn} {src rest : List UInt8} {todo : List (List UInt8)}
    {nextLen : Nat} (hn : c'.mNextLen = nextLen) (hl : c'.mBufLen = src.length)
    (ht : c'.mTempBuf.bytes.take c'.mBufLen = src) (hlegal : Legal todo)
    (hb : (nextLen = 0 ∧ src.length < 4) ∨ (0 < nextLen ∧ src.length < nextLen))
    (hle : nextLen ≤ 1495)
    (hs : (if nextLen > 0 then storeCount o nextLen else []) ++ src ++ rest = stream o todo) :
    Inv o c' rest todo := by
  refine ⟨hlegal, ?_, by omega, ?_⟩
  · unfold Between
    rw [hn, hl]
    exact hb
  · rw [pending, countOf, tempOf, hn, ht]
    exact hs

theorem inputLoop_short (c : TcpStreamSyncConn) {L : List UInt8} (junk : List UInt8)
    (h : L.length < 4) :
    c.inputLoop o (L ++ junk) L.length =
      (c.markTempBuf (0 : Nat) (L ++ junk) L.length).map fun c => (c, []) := by
  rw [inputLoop, if_pos (by simpa using h)]
  rfl

section Pass

variable (c : TcpStreamSyncConn) {f : List UInt8} (B junk : List UInt8)
  (h0 : 1 ≤ f.length) (h1 : f.length < 1508)

include h0 h1

theorem inputLoop_count :
    c.inputLoop o (storeCount o f.length ++ B ++ junk) (storeCount o f.length ++ B).length =
      if f.length ≤ B.length then do
        let (frame, p) ← readBytes f.length (B ++ junk)
        let (c, frames) ← c.inputLoop o p (B.length - f.length)
        return (c, frame :: frames)
      else (c.markTempBuf f.length (B ++ junk) B.length).map fun c => (c, []) := by
  have hload : loadCount o (storeCount o f.length) = f.length := loadCount_storeCount o (by omega)
  have hassert : 0 < (f.length : Int) ∧ (f.length : Int) < maxBufSize := by
    simp only [maxBufSize, omMaxPktSize, countSize]
    omega
  have hlen : (storeCount o f.length ++ B).length - countSize = B.length := by simp
  rw [inputLoop, if_neg (by simp), List.append_assoc, readBytes_append (by simp), ok_bind]
  simp only [hload, cassert_pos hassert, ok_bind, hlen, Int.toNat_natCast, Int.ofNat_le]
  rfl

theorem inputLoop_complete :
    c.inputLoop o (storeCount o f.length ++ (f ++ B) ++ junk)
        (storeCount o f.length ++ (f ++ B)).length =
      (c.inputLoop o (B ++ junk) B.length).map fun r => (r.1, f :: r.2) := by
  have hlen : (f ++ B).length - f.length = B.length := by simp
  rw [inputLoop_count c (f ++ B) junk h0 h1, if_pos (by simp), List.append_assoc,
    readBytes_append rfl, ok_bind]
  simp only [hlen]
  cases c.inputLoop o (B ++ junk) B.length <;> rfl

end Pass

/-- The loop on the bytes `L`, the beginning of a stream: it calls `Input` with the frames that are
    complete and holds back the rest. -/
theorem inputLoop_ok (junk : List UInt8) {rest : List UInt8} {fs : List (List UInt8)}
    (hlegal : Legal fs) : ∀ {c : TcpStreamSyncConn} {L : List UInt8}, L ++ rest = stream o fs →
      ∃ c' done todo, c.inputLoop o (L ++ junk) L.length = .ok (c', done) ∧ fs = done ++ todo ∧
        Inv o c' rest todo := by
  -- one frame of the stream for each pass of the loop
  induction fs with
  | nil =>
    intro c L h
    obtain rfl : L = [] := (List.append_eq_nil_iff.1 h).1
    obtain ⟨c', hc', hn, hl, ht⟩ := markTempBuf_ok c 0 [] junk (by simp)
    refine ⟨c', [], [], ?_, rfl, inv_markTempBuf hn hl ht hlegal (.inl (by simp)) (by simp) h⟩
    rw [inputLoop_short c junk (by simp), hc']
    rfl
  | cons f fs ih =>
    intro c L h
    obtain ⟨hf, hfs⟩ := List.forall_mem_cons.1 hlegal
    by_cases h4 : L.length < 4
    · -- not even the count is complete
      obtain ⟨c', hc', hn, hl, ht⟩ := markTempBuf_ok c 0 L junk (by omega)
      refine ⟨c', [], f :: fs, ?_, rfl,
        inv_markTempBuf hn hl ht hlegal (.inl ⟨rfl, h4⟩) (by simp) h⟩
      rw [inputLoop_short c junk h4, hc']
      rfl
    rw [stream_cons] at h
    obtain ⟨B, rfl, hB⟩ := exists_append_of_append_eq h (by rw [length_storeCount]; omega)
    by_cases hfB : f.length ≤ B.length
    · obtain ⟨B', rfl, hB'⟩ := exists_append_of_append_eq hB hfB
      obtain ⟨c', done, todo, hloop, hfs', hinv⟩ := ih hfs hB'
      refine ⟨c', f :: done, todo, ?_, by rw [hfs', List.cons_append], hinv⟩
      rw [inputLoop_complete c B' junk hf.1 (by omega), hloop]
      rfl
    · -- the frame is held back with its count
      obtain ⟨c', hc', hn, hl, ht⟩ := markTempBuf_ok c f.length B junk (by omega)
      refine ⟨c', [], f :: fs, ?_, rfl,
        inv_markTempBuf hn hl ht hlegal (.inr ⟨by omega, by omega⟩) hf.2 ?_⟩
      · rw [inputLoop_count c B junk hf.1 (by omega), if_neg hfB, hc']
        rfl
      · rw [if_pos (by omega), stream_cons, List.append_assoc, hB]

/-! ## One read -/

theorem length_countOf_le (c : TcpStreamSyncConn) (o : ByteOrder) : (c.countOf o).length ≤ 4 := by
  unfold countOf
  split <;> simp

theorem Inv.bufLen_le {rest : List UInt8} {todo : List (List UInt8)} (h : Inv o c rest todo) :
    c.mBufLen ≤ 1494 := by
  have hle := h.nextLen_le
  rcases h.between with ⟨-, hb⟩ | ⟨-, hb⟩ <;> omega

theorem length_tempOf (h : c.mBufLen ≤ 1508) : c.tempOf.length = c.mBufLen := by
  rw [tempOf, List.length_take, c.mTempBuf.length_eq]
  simp only [maxBufSize, omMaxPktSize, countSize]
  omega

theorem readBytes_tempBuf (h : c.mBufLen ≤ 1508) :
    readBytes c.mBufLen c.mTempBuf.bytes = .ok (c.tempOf, c.mTempBuf.bytes.drop c.mBufLen) := by
  rw [readBytes, if_pos, tempOf]
  rw [c.mTempBuf.length_eq]
  simp only [maxBufSize, omMaxPktSize, countSize]
  omega

theorem readBytes_self (chunk : List UInt8) : readBytes chunk.length chunk = .ok (chunk, []) := by
  simp [readBytes]

theorem exists_largeBuf (chunk : List UInt8) (h : c.mBufLen ≤ 1508)
    (hfit : (c.countOf o).length + c.mBufLen + chunk.length ≤ 67044) :
    ∃ b₁ b₂ b₃ : Buf largeBufSize, c.mLargeBuf.memcpy 0 (c.countOf o) = .ok b₁ ∧
      b₁.memcpy (c.countOf o).length c.tempOf = .ok b₂ ∧
      b₂.memcpy ((c.countOf o).length + c.mBufLen) chunk = .ok b₃ ∧
      ∃ junk, b₃.bytes = c.pending o ++ chunk ++ junk := by
  have htemp := length_tempOf h
  have hsize : largeBufSize = 67044 := rfl
  obtain ⟨b₁, h₁, t₁⟩ := c.mLargeBuf.memcpy_ok (by omega : 0 + (c.countOf o).length ≤ largeBufSize)
  obtain ⟨b₂, h₂, t₂⟩ := b₁.memcpy_ok
    (by omega : (c.countOf o).length + c.tempOf.length ≤ largeBufSize)
  obtain ⟨b₃, h₃, t₃⟩ := b₂.memcpy_ok
    (by omega : (c.countOf o).length + c.mBufLen + chunk.length ≤ largeBufSize)
  rw [Nat.zero_add, List.take_zero, List.nil_append] at t₁
  rw [t₁, htemp] at t₂
  rw [t₂, ← pending] at t₃
  refine ⟨b₁, b₂, b₃, h₁, h₂, h₃, b₃.bytes.drop ((c.countOf o).length + c.mBufLen + chunk.length),
    ?_⟩
  rw [← t₃, List.take_append_drop]

theorem exists_tempBuf (c : TcpStreamSyncConn) (chunk : List UInt8)
    (hc : c.mBufLen + chunk.length ≤ 1495) :
    ∃ b : Buf maxBufSize, c.mTempBuf.memcpy c.mBufLen chunk = .ok b ∧
      b.bytes.take (c.mBufLen + chunk.length) = c.tempOf ++ chunk := by
  have hsize : maxBufSize = 1508 := rfl
  exact c.mTempBuf.memcpy_ok (by omega)

section Read

variable {chunk rest : List UInt8} {fs : List (List UInt8)} (h : Inv o c (chunk ++ rest) fs)
  (h0 : chunk ≠ []) (h1 : chunk.length ≤ 65536)

include h h0 h1

theorem rawInput_greater (hgt : chunk.length + c.mBufLen > c.mNextLen) :
    ∃ c' done todo, c.rawInput o chunk.length chunk = .ok (c', done) ∧ fs = done ++ todo ∧
      Inv o c' rest todo := by
  have hpos : 0 < chunk.length := List.length_pos_iff.2 h0
  have hbuf := h.bufLen_le
  have hbuf' : c.mBufLen ≤ 1508 := by omega
  have hsize : maxBufSize = 1508 ∧ largeBufSize = 67044 := ⟨rfl, rfl⟩
  have hcount := c.length_countOf_le o
  obtain ⟨b₁, b₂, b₃, hb₁, hb₂, hb₃, junk, hjunk⟩ :=
    exists_largeBuf (o := o) chunk hbuf' (by omega)
  have hL : c.pending o ++ chunk ++ rest = stream o fs := by
    rw [List.append_assoc]
    exact h.stream_eq
  have hlen : chunk.length + c.mBufLen + (c.countOf o).length = (c.pending o ++ chunk).length := by
    rw [pending, List.length_append, List.length_append, length_tempOf hbuf']
    omega
  obtain ⟨c', done, todo, hloop, hfs, hinv⟩ :=
    inputLoop_ok (c := { c with mLargeBuf := b₃ }) junk h.legal hL
  refine ⟨c', done, todo, ?_, hfs, hinv⟩
  have hnext := h.nextLen_le
  rw [rawInput, if_pos (by omega), cassert_pos (by omega), ok_bind, cassert_pos (by omega), ok_bind,
    Int.toNat_natCast, readBytes_self, ok_bind]
  simp only [if_pos hgt, ← countOf.eq_def, hb₁, hb₂, hb₃, ok_bind, readBytes_tempBuf hbuf']
  rw [hjunk, hlen, hloop]

theorem rawInput_less (hlt : chunk.length + c.mBufLen < c.mNextLen) :
    ∃ c', c.rawInput o chunk.length chunk = .ok (c', []) ∧ Inv o c' rest fs := by
  have hpos : 0 < chunk.length := List.length_pos_iff.2 h0
  have hnext := h.nextLen_le
  have hsize : maxBufSize = 1508 ∧ largeBufSize = 67044 := ⟨rfl, rfl⟩
  obtain ⟨b, hb, hbt⟩ := exists_tempBuf c chunk (by omega)
  refine ⟨{ c with mTempBuf := b, mBufLen := c.mBufLen + chunk.length }, ?_,
    ⟨h.legal, .inr ⟨by simp only; omega, by simp only; omega⟩, hnext, ?_⟩⟩
  · rw [rawInput, if_pos (by omega), cassert_pos (by omega), ok_bind, cassert_pos (by omega),
      ok_bind, Int.toNat_natCast, readBytes_self, ok_bind]
    simp only [if_neg (Nat.not_lt.2 (Nat.le_of_lt hlt)), if_pos hlt, hb, ok_bind]
    rfl
  · rw [pending, tempOf, hbt, ← h.stream_eq, pending]
    simp only [List.append_assoc]
    rfl

theorem rawInput_equal (heq : chunk.length + c.mBufLen = c.mNextLen) :
    ∃ c' f todo, c.rawInput o chunk.length chunk = .ok (c', [f]) ∧ fs = f :: todo ∧
      Inv o c' rest todo := by
  have hpos : 0 < chunk.length := List.length_pos_iff.2 h0
  have hnext := h.nextLen_le
  have hbuf := h.bufLen_le
  have hsize : maxBufSize = 1508 ∧ largeBufSize = 67044 := ⟨rfl, rfl⟩
  obtain ⟨b, hb, hbt⟩ := exists_tempBuf c chunk (by omega)
  have hcount : c.countOf o = storeCount o c.mNextLen := if_pos (by omega)
  -- the held-back bytes and the new ones are the body of the next frame
  have hs : storeCount o c.mNextLen ++ (c.tempOf ++ chunk ++ rest) = stream o fs := by
    rw [← h.stream_eq, pending, hcount]
    simp only [List.append_assoc]
  cases fs with
  | nil =>
    have hlen := congrArg List.length hs
    simp at hlen
  | cons f fs =>
    obtain ⟨hf, hfs⟩ := List.forall_mem_cons.1 h.legal
    rw [stream_cons] at hs
    obtain ⟨hcnt, hbody⟩ := List.append_inj hs (by simp)
    have hn : c.mNextLen = f.length := by
      have hload := congrArg (loadCount o) hcnt
      rw [loadCount_storeCount o (by omega), loadCount_storeCount o (by omega)] at hload
      omega
    obtain ⟨hf', hrest⟩ := List.append_inj hbody (by
      rw [List.length_append, length_tempOf (by omega)]
      omega)
    obtain ⟨c', hc', hn', hl', ht'⟩ := markTempBuf_ok { c with mTempBuf := b } 0 [] [] (by simp)
    refine ⟨c', f, fs, ?_, rfl,
      inv_markTempBuf hn' hl' ht' hfs (.inl (by simp)) (by simp) (by simpa using hrest)⟩
    have hread : readBytes (chunk.length + c.mBufLen) b.bytes =
        .ok (f, b.bytes.drop (chunk.length + c.mBufLen)) := by
      rw [readBytes, if_pos (by rw [b.length_eq]; omega), Nat.add_comm, hbt, hf']
    rw [rawInput, if_pos (by omega), cassert_pos (by omega), ok_bind, cassert_pos (by omega),
      ok_bind, Int.toNat_natCast, readBytes_self, ok_bind]
    simp only [if_neg (Nat.not_lt.2 (Nat.le_of_eq heq)), if_neg (Nat.not_lt.2 (Nat.le_of_eq heq.symm)),
      hb, ok_bind, hread]
    have hmark : markTempBuf { c with mTempBuf := b } 0 [] 0 = .ok c' := hc'
    rw [hmark]
    rfl

/-- One read keeps the invariant: the frames it completes are the next ones. -/
theorem rawInput_ok : ∃ c' done todo, c.rawInput o chunk.length chunk = .ok (c', done) ∧
    fs = done ++ todo ∧ Inv o c' rest todo := by
  rcases Nat.lt_trichotomy (chunk.length + c.mBufLen) c.mNextLen with hlt | heq | hgt
  · obtain ⟨c', hc', hinv⟩ := rawInput_less h h0 h1 hlt
    exact ⟨c', [], fs, hc', rfl, hinv⟩
  · obtain ⟨c', f, todo, hc', hfs, hinv⟩ := rawInput_equal h h0 h1 heq
    exact ⟨c', [f], todo, hc', hfs, hinv⟩
  · exact rawInput_greater h h0 h1 hgt

end Read

/-! ## All reads -/

theorem feed_ok {chunks : List (List UInt8)} (hc : ∀ chunk ∈ chunks, chunk ≠ [] ∧ chunk.length ≤ 65536) :
    ∀ {c : TcpStreamSyncConn} {rest : List UInt8} {fs : List (List UInt8)},
      Inv o c (chunks.flatten ++ rest) fs →
      ∃ c' done todo, c.feed o chunks = .ok (c', done) ∧ fs = done ++ todo ∧ Inv o c' rest todo := by
  induction chunks with
  | nil =>
    intro c rest fs h
    exact ⟨c, [], fs, rfl, rfl, h⟩
  | cons chunk chunks ih =>
    intro c rest fs h
    obtain ⟨⟨h0, h1⟩, hrest⟩ := List.forall_mem_cons.1 hc
    rw [List.flatten_cons, List.append_assoc] at h
    obtain ⟨c₁, done₁, todo₁, hraw, rfl, hinv₁⟩ := rawInput_ok h h0 h1
    obtain ⟨c₂, done₂, todo₂, hfeed, rfl, hinv₂⟩ := ih hrest hinv₁
    refine ⟨c₂, done₁ ++ done₂, todo₂, ?_, by rw [List.append_assoc], hinv₂⟩
    rw [feed, hraw, ok_bind]
    simp only [hfeed, ok_bind]
    rfl

theorem Inv.todo_eq_nil {todo : List (List UInt8)} (h : Inv o c [] todo) : todo = [] := by
  have hbuf := h.bufLen_le
  have hs := h.stream_eq
  rw [List.append_nil, pending] at hs
  cases todo with
  | nil => rfl
  | cons f fs =>
    have hf := (List.forall_mem_cons.1 h.legal).1
    have hlen := congrArg List.length hs
    rw [stream_cons] at hs hlen
    have htemp : c.tempOf.length = c.mBufLen := length_tempOf (by omega)
    simp only [List.length_append, htemp, length_storeCount] at hlen
    rcases h.between with ⟨hn, hb⟩ | ⟨hn, hb⟩
    · have hcount : c.countOf o = [] := if_neg (by omega)
      rw [hcount, List.length_nil] at hlen
      omega
    · have hcount : c.countOf o = storeCount o c.mNextLen := if_pos hn
      rw [hcount] at hs hlen
      have hload := congrArg (loadCount o) (List.append_inj hs (by simp)).1
      have hle := h.nextLen_le
      rw [loadCount_storeCount o (by omega), loadCount_storeCount o (by omega)] at hload
      rw [length_storeCount] at hlen
      omega

theorem inv_start (o : ByteOrder) {frames : List (List UInt8)} (hf : Legal frames)
    (hn : c.mNextLen = 0) (hb : c.mBufLen = 0) : Inv o c (stream o frames) frames := by
  refine ⟨hf, .inl ⟨hn, by omega⟩, by omega, ?_⟩
  simp [pending, countOf, tempOf, hn, hb]

/-- Lossless framing: however the encodings of some frames are cut into reads, `Input` is called
    with exactly these frames, nothing faults, and between two reads only part of a count or part of
    a body is held back. -/
theorem feed_stream (o : ByteOrder) (frames : List (List UInt8))
    (hf : ∀ f ∈ frames, 1 ≤ f.length ∧ f.length ≤ 1495) (chunks : List (List UInt8))
    (hc : ∀ chunk ∈ chunks, chunk ≠ [] ∧ chunk.length ≤ rsockUvMaxBuf)
    (hcut : chunks.flatten = (frames.map (encode o)).flatten) (c : TcpStreamSyncConn)
    (hn : c.mNextLen = 0) (hb : c.mBufLen = 0) :
    (∀ f ∈ frames, send o f = .ok (encode o f)) ∧
    (∃ c', c.feed o chunks = .ok (c', frames)) ∧
    ∀ k ≤ chunks.length, ∃ c' done, c.feed o (chunks.take k) = .ok (c', done) ∧ done <+: frames ∧
      c'.Between := by
  have hinv : Inv o c (chunks.flatten ++ []) frames := by
    rw [List.append_nil, hcut]
    exact inv_start o hf hn hb
  refine ⟨?_, ?_, ?_⟩
  · intro f hmem
    obtain ⟨h0, h1⟩ := hf f hmem
    exact send_eq o h0 h1
  · obtain ⟨c', done, todo, hfeed, rfl, hinv'⟩ := feed_ok hc hinv
    rw [hinv'.todo_eq_nil, List.append_nil]
    exact ⟨c', hfeed⟩
  · intro k _
    rw [List.append_nil, ← List.take_append_drop k chunks, List.flatten_append] at hinv
    have hc' : ∀ chunk ∈ chunks.take k, chunk ≠ [] ∧ chunk.length ≤ 65536 := by
      intro chunk hmem
      exact hc chunk (List.mem_of_mem_take hmem)
    obtain ⟨c', done, todo, hfeed, rfl, hinv'⟩ := feed_ok hc' hinv
    exact ⟨c', done, hfeed, ⟨todo, rfl⟩, hinv'.between⟩

/-- Two frames whose encodings arrive in three reads, cut inside a count and inside a body. -/
theorem feed_stream_three_reads : ∃ c',
    feed { mTempBuf := Buf.zeros _, mLargeBuf := Buf.zeros _ } .little
      [[2, 0], [0, 0, 7], [8, 1, 0, 0, 0, 9]] = .ok (c', [[7, 8], [9]]) :=
  (feed_stream .little [[7, 8], [9]] (by decide) [[2, 0], [0, 0, 7], [8, 1, 0, 0, 0, 9]] (by decide)
    (by decide) { mTempBuf := Buf.zeros _, mLargeBuf := Buf.zeros _ } rfl rfl).2.1

/-! ## The buffers

Whatever the stream holds, as long as its counts are accepted. -/

open TransSys

/-- What one read gives to `rawInput`. -/
abbrev Chunk := { chunk : List UInt8 // chunk ≠ [] ∧ chunk.length ≤ rsockUvMaxBuf }

/-- One read. -/
def read (o : ByteOrder) (c : TcpStreamSyncConn) (chunk : Chunk) : Except Fault TcpStreamSyncConn := do
  let (c, _) ← c.rawInput o chunk.1.length chunk.1
  return c

/-- What `rawInput` copies into `mLargeBuf`, or else into `mTempBuf`, is no longer than the buffer. -/
def CopiesFit (c : TcpStreamSyncConn) (chunk : Chunk) : Prop :=
  if c.mNextLen < chunk.1.length + c.mBufLen then
    (if 0 < c.mNextLen then countSize else 0) + c.mBufLen + chunk.1.length ≤ largeBufSize
  else c.mBufLen + chunk.1.length ≤ maxBufSize

/-- It is not so that a read of full size, or of one byte less, comes when 1505 or 1506 bytes of a frame
    of 1506 or 1507 bytes are held back. -/
def NotFull (c : TcpStreamSyncConn) (chunk : Chunk) : Prop :=
  ¬ (c.mBufLen = 1505 ∧ chunk.1.length = 65536 ∨ c.mBufLen = 1506 ∧ 65535 ≤ chunk.1.length)

/-- Between two reads, part of a count or part of a body is held back, and the count was accepted. -/
structure Held (c : TcpStreamSyncConn) : Prop where
  between : c.Between
  nextLen_lt : c.mNextLen < maxBufSize

theorem Held.bufLen_le (h : Held c) : c.mBufLen ≤ 1506 := by
  have hlt : c.mNextLen < 1508 := h.nextLen_lt
  rcases h.between with ⟨-, hb⟩ | ⟨-, hb⟩ <;> omega

theorem copiesFit_iff (h : Held c) (chunk : Chunk) : CopiesFit c chunk ↔ NotFull c chunk := by
  have hnext : c.mNextLen < 1508 := h.nextLen_lt
  have hlen : chunk.1.length ≤ 65536 := chunk.2.2
  have hpos : 0 < chunk.1.length := List.length_pos_iff.mpr chunk.2.1
  have hbuf := h.bufLen_le
  unfold CopiesFit NotFull
  simp only [countSize, largeBufSize, rsockUvMaxBuf, maxBufSize, omMaxPktSize]
  have hcount : (if 0 < c.mNextLen then 4 else 0) ≤ 4 := by split <;> omega
  rcases h.between with ⟨hn, hb⟩ | ⟨hn, hb⟩
  · split <;> omega
  · rw [if_pos hn]
    split <;> omega

theorem avoids_markTempBuf (c : TcpStreamSyncConn) {nextLen : Int} {p : List UInt8} {bufLen : Nat}
    (hp : bufLen ≤ p.length) (hfit : bufLen ≤ maxBufSize) (hn : 0 ≤ nextLen ∧ nextLen < maxBufSize)
    (hb : nextLen = 0 ∧ bufLen < 4 ∨ 0 < nextLen ∧ (bufLen : Int) < nextLen) :
    Avoids .outOfBounds (c.markTempBuf nextLen p bufLen) Held := by
  unfold markTempBuf
  refine (avoids_cassert hn.1).bind fun _ _ => ?_
  have hheld : ∀ temp, Held { c with mTempBuf := temp, mBufLen := bufLen, mNextLen := nextLen.toNat } := by
    intro temp
    refine ⟨?_, ?_⟩
    · unfold Between
      simp only
      omega
    · simp only
      omega
  by_cases hpos : 0 < bufLen
  · rw [if_pos hpos]
    refine (avoids_readBytes hp).bind ?_
    rintro _ rfl
    have hlen : 0 + (p.take bufLen).length ≤ maxBufSize := by
      rw [List.length_take]
      omega
    exact (c.mTempBuf.avoids_memcpy hlen).bind fun temp _ => avoids_ok (hheld temp)
  · rw [if_neg hpos]
    exact avoids_ok (hheld c.mTempBuf)

theorem avoids_inputLoop {left : Nat} : ∀ {c : TcpStreamSyncConn} {p : List UInt8}, left ≤ p.length →
    Avoids .outOfBounds (c.inputLoop o p left) fun r => Held r.1 := by
  -- every pass takes a count at least
  induction left using Nat.strong_induction_on with
  | _ left ih =>
    intro c p hp
    have hsize : maxBufSize = 1508 := rfl
    rw [inputLoop]
    split
    · next hshort =>
      have hshort' : left < 4 := hshort
      refine (avoids_markTempBuf c hp (by omega) (by omega) (.inl ⟨rfl, hshort'⟩)).bind ?_
      exact fun c' hc' => avoids_ok hc'
    · next hshort =>
      have hfour : countSize = 4 := rfl
      have hcount : countSize ≤ left := Nat.not_lt.mp hshort
      refine (avoids_readBytes (Nat.le_trans hcount hp)).bind ?_
      rintro _ rfl
      refine (avoids_cassert_of_ne (by decide)).bind fun _ hassert => ?_
      have hrest : left - countSize ≤ (p.drop countSize).length := by
        rw [List.length_drop]
        omega
      split
      · next hle =>
        refine (avoids_readBytes (by omega)).bind ?_
        rintro _ rfl
        refine (ih _ ?_ ?_).bind fun r hr => avoids_ok hr
        · omega
        · rw [List.length_drop]
          omega
      · next hgt =>
        refine (avoids_markTempBuf c hrest (by omega) (by omega) (.inr ⟨hassert.1, ?_⟩)).bind ?_
        · exact Int.not_le.mp hgt
        · exact fun c' hc' => avoids_ok hc'

theorem avoids_read {chunk : Chunk} (h : Held c) (hfit : CopiesFit c chunk) :
    Avoids .outOfBounds (read o c chunk) Held := by
  obtain ⟨chunk, hne, hlen⟩ := chunk
  have hpos : 0 < chunk.length := List.length_pos_iff.mpr hne
  have hbuf := h.bufLen_le
  have hsize : maxBufSize = 1508 ∧ largeBufSize = 67044 := ⟨rfl, rfl⟩
  unfold read rawInput
  refine Avoids.bind (Q := fun r => Held r.1) ?_ fun r hr => avoids_ok hr
  rw [if_pos (by simpa using hpos)]
  refine (avoids_cassert_of_ne (by decide)).bind fun _ _ => ?_
  refine (avoids_cassert_of_ne (by decide)).bind fun _ _ => ?_
  rw [Int.toNat_natCast, readBytes_self, ok_bind]
  unfold CopiesFit at hfit
  simp only at hfit ⊢
  by_cases hgt : c.mNextLen < chunk.length + c.mBufLen
  · rw [if_pos hgt] at hfit ⊢
    have hcount : (c.countOf o).length = if 0 < c.mNextLen then countSize else 0 := by
      unfold countOf
      split <;> simp
    obtain ⟨b₁, b₂, b₃, hb₁, hb₂, hb₃, junk, hjunk⟩ :=
      exists_largeBuf (o := o) (c := c) chunk (by omega) (by omega)
    simp only [← countOf.eq_def, hb₁, hb₂, hb₃, ok_bind, readBytes_tempBuf (c := c) (by omega)]
    refine avoids_inputLoop ?_
    rw [b₃.length_eq]
    omega
  · rw [if_neg hgt] at hfit ⊢
    have hmemcpy := c.mTempBuf.avoids_memcpy (e := .outOfBounds) hfit
    by_cases hlt : chunk.length + c.mBufLen < c.mNextLen
    · rw [if_pos hlt]
      refine hmemcpy.bind fun temp _ => avoids_ok ⟨.inr ⟨?_, ?_⟩, h.nextLen_lt⟩
      · simp only
        omega
      · simp only
        omega
    · rw [if_neg hlt]
      refine hmemcpy.bind fun temp _ => ?_
      refine (avoids_readBytes (by rw [temp.length_eq]; omega)).bind fun _ _ => ?_
      refine Avoids.bind (Q := Held) ?_ fun c' hc' => avoids_ok hc'
      exact avoids_markTempBuf _ (by simp) (by omega) (by omega) (.inl ⟨rfl, by decide⟩)

/-- The last of the three copies leaves `mLargeBuf`. -/
theorem read_of_not_fits {chunk : Chunk} (h : Held c) (hfull : ¬ CopiesFit c chunk) :
    read o c chunk = .error .outOfBounds := by
  obtain ⟨chunk, hne, hlen⟩ := chunk
  have hlen' : chunk.length ≤ 65536 := hlen
  have hpos : 0 < chunk.length := List.length_pos_iff.mpr hne
  have hbuf := h.bufLen_le
  have hnext : c.mNextLen < 1508 := h.nextLen_lt
  have hsize : maxBufSize = 1508 ∧ largeBufSize = 67044 := ⟨rfl, rfl⟩
  have hgt : c.mNextLen < chunk.length + c.mBufLen := by
    by_contra hle
    refine hfull ?_
    unfold CopiesFit
    rw [if_neg hle]
    show c.mBufLen + chunk.length ≤ maxBufSize
    omega
  have hcount : (c.countOf o).length = if 0 < c.mNextLen then countSize else 0 := by
    unfold countOf
    split <;> simp
  have hover : ¬ (c.countOf o).length + c.mBufLen + chunk.length ≤ largeBufSize := by
    unfold CopiesFit at hfull
    rwa [if_pos hgt, ← hcount] at hfull
  have hcount4 := c.length_countOf_le o
  obtain ⟨b₁, hb₁, -⟩ := c.mLargeBuf.memcpy_ok
    (by omega : 0 + (c.countOf o).length ≤ largeBufSize)
  have htemp : c.tempOf.length = c.mBufLen := length_tempOf (by omega)
  obtain ⟨b₂, hb₂, -⟩ := b₁.memcpy_ok
    (by omega : (c.countOf o).length + c.tempOf.length ≤ largeBufSize)
  have hb₃ : b₂.memcpy ((c.countOf o).length + c.mBufLen) chunk = .error .outOfBounds :=
    dif_neg hover
  unfold read rawInput
  rw [if_pos (by simpa using hpos), cassert_pos (by omega), ok_bind, cassert_pos (by simp; omega),
    ok_bind, Int.toNat_natCast, readBytes_self, ok_bind]
  simp only [if_pos hgt, ← countOf.eq_def, hb₁, hb₂, hb₃, ok_bind, readBytes_tempBuf (c := c) (by omega)]
  rfl

theorem Held.read {chunk : Chunk} {c' : TcpStreamSyncConn} (h : Held c)
    (hr : read o c chunk = .ok c') : Held c' := by
  by_cases hfit : CopiesFit c chunk
  · exact (avoids_read h hfit).2 c' hr
  · rw [read_of_not_fits h hfit] at hr
    cases hr

theorem held_start (temp : Buf maxBufSize) (large : Buf largeBufSize) :
    Held { mTempBuf := temp, mLargeBuf := large } :=
  ⟨.inl ⟨rfl, Nat.succ_pos 3⟩, Nat.succ_pos 1507⟩

/-- For every stream, whatever its reads are: the copies fit into the two buffers exactly if no read of
    full size comes when all but one or two bytes of a frame of the greatest length are held back. A
    stream with a count that is not accepted ends with the assertion. -/
theorem reassembly_fits_iff (o : ByteOrder) (temp : Buf maxBufSize) (large : Buf largeBufSize)
    (chunks : List Chunk) :
    (EachStep (read o) CopiesFit { mTempBuf := temp, mLargeBuf := large } chunks ∧
      run (read o) { mTempBuf := temp, mLargeBuf := large } chunks ≠ .error .outOfBounds ∧
      Always (read o) (fun _ _ c' => c'.mBufLen ≤ maxBufSize)
        { mTempBuf := temp, mLargeBuf := large } chunks) ↔
    EachStep (read o) NotFull { mTempBuf := temp, mLargeBuf := large } chunks := by
  have hstart := held_start temp large
  have hfits : EachStep (read o) CopiesFit _ chunks ↔ EachStep (read o) NotFull _ chunks :=
    eachStep_congr (J := Held) (fun _ _ _ h hr => h.read hr)
      (fun _ chunk h => copiesFit_iff h chunk) chunks _ hstart
  rw [hfits]
  refine ⟨And.left, fun hfull => ⟨hfull, ?_, ?_⟩⟩
  · exact (avoids_of_eachStep (fun _ _ h hfit => avoids_read h hfit) hstart (hfits.mpr hfull)).1
  · refine always_of_eachStep (J := Held) ?_ hstart hfull
    intro c chunk c' h _ hr
    have hbuf := (h.read hr).bufLen_le
    have hsize : maxBufSize = 1508 := rfl
    exact ⟨by omega, h.read hr⟩

/-- A count and part of the body. -/
theorem read_part (o : ByteOrder) (hn : c.mNextLen = 0) (hb : c.mBufLen = 0) {n : Nat} (chunk : Chunk)
    (body : List UInt8) (hchunk : chunk.1 = storeCount o n ++ body) (h1508 : n < 1508)
    (hbody : body.length < n) :
    ∃ c', read o c chunk = .ok c' ∧ c'.mNextLen = n ∧ c'.mBufLen = body.length := by
  obtain ⟨chunk, hne, hlen⟩ := chunk
  obtain rfl : chunk = storeCount o n ++ body := hchunk
  have hlen' : (storeCount o n ++ body).length ≤ 65536 := hlen
  have hpos : 0 < (storeCount o n ++ body).length := List.length_pos_iff.mpr hne
  have hcount : c.countOf o = [] := if_neg (by omega)
  have hpending : c.pending o = [] := by simp [pending, hcount, tempOf, hb]
  have hsize : maxBufSize = 1508 ∧ largeBufSize = 67044 := ⟨rfl, rfl⟩
  obtain ⟨b₁, b₂, b₃, hb₁, hb₂, hb₃, junk, hjunk⟩ :=
    exists_largeBuf (o := o) (c := c) (storeCount o n ++ body) (by omega)
      (by rw [hcount, List.length_nil]; omega)
  rw [hpending, List.nil_append] at hjunk
  have hf : (List.replicate n (0 : UInt8)).length = n := List.length_replicate
  have hloop := inputLoop_count (o := o) { c with mLargeBuf := b₃ } (f := List.replicate n 0) body junk
    (by omega) (by omega)
  rw [hf, if_neg (by omega)] at hloop
  obtain ⟨c', hc', hn', hl', -⟩ := markTempBuf_ok { c with mLargeBuf := b₃ } n body junk (by omega)
  refine ⟨c', ?_, hn', hl'⟩
  have hleft : (storeCount o n ++ body).length + c.mBufLen + (c.countOf o).length =
      (storeCount o n ++ body).length := by
    rw [hb, hcount]
    rfl
  have hraw : c.rawInput o (storeCount o n ++ body).length (storeCount o n ++ body) = .ok (c', []) := by
    rw [rawInput, if_pos (by omega), cassert_pos (by omega), ok_bind, cassert_pos (by omega), ok_bind,
      Int.toNat_natCast, readBytes_self, ok_bind]
    simp only [if_pos (show (storeCount o n ++ body).length + c.mBufLen > c.mNextLen by omega),
      ← countOf.eq_def, hb₁, hb₂, hb₃, ok_bind, readBytes_tempBuf (c := c) (by omega)]
    rw [hleft, hjunk, hloop, hc']
    rfl
  unfold read
  rw [hraw]
  rfl

theorem overflows_second {chunk₁ chunk₂ : Chunk} {c' : TcpStreamSyncConn} (h : Held c)
    (hr : read o c chunk₁ = .ok c') (hfull : ¬ CopiesFit c' chunk₂) :
    run (read o) c [chunk₁, chunk₂] = .error .outOfBounds ∧
    ¬ EachStep (read o) CopiesFit c [chunk₁, chunk₂] := by
  constructor
  · rw [run, hr, ok_bind, run, read_of_not_fits (h.read hr) hfull]
    rfl
  · rintro ⟨-, hrest⟩
    obtain ⟨hfit, -⟩ := hrest c' hr
    exact hfull hfit

/-- All but one byte of a frame of 1507 bytes. -/
def cutFrame : Chunk :=
  ⟨storeCount .little 1507 ++ List.replicate 1506 0, by
    have hlen : (storeCount .little 1507 ++ List.replicate 1506 0).length = 1510 := by
      rw [List.length_append, length_storeCount, List.length_replicate]
    exact ⟨List.ne_nil_of_length_pos (by omega), by rw [hlen]; decide⟩⟩

/-- A read of full size. -/
def fullRead : Chunk :=
  ⟨List.replicate 65536 0, by
    have hlen : (List.replicate 65536 (0 : UInt8)).length = 65536 := List.length_replicate
    exact ⟨List.ne_nil_of_length_pos (by omega), by rw [hlen]; decide⟩⟩

/-- The greatest frame, cut before its last byte, and then a read of full size: 4, 1506 and 65536 bytes
    are copied into a buffer of 67044. -/
theorem full_read_overflows :
    run (read .little) { mTempBuf := Buf.zeros _, mLargeBuf := Buf.zeros _ } [cutFrame, fullRead] =
      .error .outOfBounds ∧
    ¬ EachStep (read .little) CopiesFit { mTempBuf := Buf.zeros _, mLargeBuf := Buf.zeros _ }
      [cutFrame, fullRead] := by
  have hstart := held_start (Buf.zeros _) (Buf.zeros _)
  obtain ⟨c, hc, -, hbuf⟩ := read_part .little (c := { mTempBuf := Buf.zeros _, mLargeBuf := Buf.zeros _ })
    rfl rfl cutFrame (List.replicate 1506 0) rfl (by decide)
    (by rw [List.length_replicate]; decide)
  have hbuf' : c.mBufLen = 1506 := hbuf.trans List.length_replicate
  have hlen : fullRead.1.length = 65536 := List.length_replicate
  have hfull : ¬ CopiesFit c fullRead := by
    rw [copiesFit_iff (hstart.read hc)]
    unfold NotFull
    omega
  exact overflows_second hstart hc hfull

end TcpStreamSyncConn

end Rsock
