import Rsock.Proofs.CodecProofs
import Rsock.RawTcp

/-!
# Proofs: the wire format on every host

When the encoders write the little-endian bytes every host decodes, and for which lengths
`TcpInfo::Decode` is exact.
-/

namespace Rsock

open CMem

variable {n : Nat} {α : Type}

/-! ## Wire integers -/

/-- From `p` to `q` the bytes `bs` were written, and no others. -/
def WroteAt (p q : Cursor n) (bs : List UInt8) : Prop :=
  q.pos = p.pos + bs.length ∧
    q.buf.bytes = p.buf.bytes.take p.pos ++ (bs ++ p.buf.bytes.drop (p.pos + bs.length))

/-- Wherever there is room, the encoder writes the bytes `bs`. -/
def Encodes (enc : (n : Nat) → Cursor n → Except Fault (Cursor n)) (bs : List UInt8) : Prop :=
  ∀ (n : Nat) (p : Cursor n), p.pos + bs.length ≤ n → ∃ q, enc n p = .ok q ∧ WroteAt p q bs

/-- Every host decodes the bytes `bs` to `a`. -/
def Decodes (dec : ByteOrder → List UInt8 → Except Fault (α × List UInt8)) (bs : List UInt8)
    (a : α) : Prop :=
  ∀ o rest, dec o (bs ++ rest) = .ok (a, rest)

/-- A write with room for it succeeds and writes exactly its bytes. -/
theorem wroteAt_write {p : Cursor n} {bs : List UInt8} (h : p.pos + bs.length ≤ n) :
    ∃ q, p.write bs = .ok q ∧ WroteAt p q bs := by
  obtain ⟨b, hb, hbytes⟩ := p.buf.memcpy_bytes h
  refine ⟨⟨b, p.pos + bs.length⟩, ?_, rfl, hbytes⟩
  rw [Cursor.write, hb]
  rfl

/-- On a little-endian host the bytes are the number's own. -/
theorem encodes_little (w i : Nat) : Encodes (fun _ => encodeUint .little w i) (toLE w i) := by
  intro n p h
  obtain ⟨q, hq, hw⟩ := wroteAt_write h
  exact ⟨q, (if_pos isLittleEndian_little).trans hq, hw⟩

/-- The size in bytes is taken for one in bits. -/
theorem encodeUint_big_fails {w : Nat} (hw : w % 8 ≠ 0) (i : Nat) (p : Cursor n) :
    encodeUint .big w i p = .error .assertFailed := by
  rw [encodeUint, if_neg (by rw [isLittleEndian_big]; decide), bigEndianToLittleN, cassert_neg hw]
  rfl

/-- A width that is not a whole number of 8 bytes fails the assertion on a big-endian host. -/
theorem not_encodes_big {w : Nat} (hw : w % 8 ≠ 0) (i : Nat) :
    ¬ Encodes (fun _ => encodeUint .big w i) (toLE w i) := by
  intro h
  obtain ⟨q, hq, -⟩ := h w (Cursor.start w) (by simp)
  cases (encodeUint_big_fails hw i (Cursor.start w)).symm.trans hq

/-- Of eight bytes only the first one is written. -/
theorem encodeUint_big_eight {i : Nat} {p : Cursor n} (h : p.pos + 8 ≤ n) :
    ∃ q, encodeUint .big 8 i p = .ok q ∧
      q.buf.bytes = p.buf.bytes.take p.pos ++ (toLE 1 i ++ p.buf.bytes.drop (p.pos + 1)) := by
  have hroom : p.pos + (toLE 1 i).length ≤ n := by
    rw [length_toLE]
    omega
  obtain ⟨b, hb, hbytes⟩ := p.buf.memcpy_bytes hroom
  refine ⟨⟨b, p.pos + 8⟩, ?_, by rw [hbytes, length_toLE]⟩
  rw [encodeUint, if_neg (by rw [isLittleEndian_big]; decide), bigEndianToLittleN,
    cassert_pos (by decide), ok_bind, cassert_pos (by decide), ok_bind, Nat.div_self (by decide), hb]
  rfl

/-- A buffer of eight equal bytes. -/
def evenCursor (b : UInt8) : Cursor 8 := ⟨⟨List.replicate 8 b, rfl⟩, 0⟩

/-- Eight bytes are written in the wrong order on a big-endian host. -/
theorem not_encodes_big_eight (i : Nat) : ¬ Encodes (fun _ => encodeUint .big 8 i) (toLE 8 i) := by
  intro h
  -- the second byte of the result is the one the buffer had before, for any such byte
  have hbyte : ∀ b : UInt8, (toLE 8 i)[1]? = some b := by
    intro b
    obtain ⟨q, hq, -, hw⟩ := h 8 (evenCursor b) (by rw [length_toLE]; exact le_rfl)
    obtain ⟨q', hq', hw'⟩ := encodeUint_big_eight (i := i) (p := evenCursor b) le_rfl
    obtain rfl := Except.ok.inj (hq.symm.trans hq')
    have heq := congrArg (·[1]?) (hw.symm.trans hw')
    exact heq
  exact absurd (Option.some.inj ((hbyte 0).symm.trans (hbyte 1))) (by decide)

/-- At the widths the code uses, the format is written on little-endian hosts only. -/
theorem encodes_uint_iff {w : Nat} (o : ByteOrder) (i : Nat) (hw : w % 8 ≠ 0 ∨ w = 8) :
    Encodes (fun _ => encodeUint o w i) (toLE w i) ↔ o = .little := by
  cases o with
  | little => exact iff_of_true (encodes_little w i) rfl
  | big =>
    refine iff_of_false ?_ (by decide)
    rcases hw with hw | rfl
    · exact not_encodes_big hw i
    · exact not_encodes_big_eight i

theorem written_of_encodeUint {w i : Nat} {p q : Cursor n} (h : encodeUint .little w i p = .ok q) :
    q.written = p.written ++ toLE w i :=
  Cursor.written_of_write ((if_pos isLittleEndian_little).symm.trans h)

/-! ## Headers and infos -/

/-- A header encoded on the host `o` is decoded to the same header everywhere. -/
def EncHead.Travels (o : ByteOrder) (e : EncHead) : Prop :=
  ∀ (n : Nat) (p : Cursor n) (bufLen : Int), p.pos + 23 ≤ n → 23 ≤ bufLen →
    ∃ e' q bs, e.enc2Buf o p bufLen = .ok (e', some q) ∧ q.written = p.written ++ bs ∧
      ∀ o' e₀ rest bufLen', 23 ≤ bufLen' →
        EncHead.decodeBuf e₀ o' (bs ++ rest) bufLen' =
          .ok ({ e with len := getMinEncSize }, some rest)

/-- A header travels exactly from a little-endian host. -/
theorem EncHead.travels_iff (o : ByteOrder) (e : EncHead) : e.Travels o ↔ o = .little := by
  cases o with
  | little =>
    refine iff_of_true ?_ rfl
    intro n p bufLen hroom hlen
    obtain ⟨q, hq, hw, -⟩ := e.enc2Buf_little hroom bufLen hlen
    exact ⟨_, q, e.wire, hq, hw, fun o' e₀ rest bufLen' h => e.decodeBuf_wire e₀ o' rest h⟩
  | big =>
    refine iff_of_false ?_ (by decide)
    intro h
    obtain ⟨e', q, -, hq, -⟩ := h 23 (Cursor.start 23) 23 (by simp) (by decide)
    have hid : e.mIdBuf.bytes.length = 8 := e.mIdBuf.length_eq
    obtain ⟨p₁, h₁, -, hp₁⟩ := encodeUint8_ok (i := getMinEncSize) (p := Cursor.start 23) (by simp)
    obtain ⟨p₂, h₂, -, hp₂⟩ := encodeUint8_ok (i := e.mCmd) (p := p₁) (by simp at hp₁; omega)
    obtain ⟨p₃, h₃, -, -⟩ := p₂.write_ok e.mIdBuf.bytes (by simp at hp₁; omega)
    rw [enc2Buf, if_pos (by rw [getSize, getMinEncSize_toNat]; decide)] at hq
    simp only [getSize, h₁, h₂, h₃, encodeUint32, encodeUint_big_fails (w := 4) (by decide), ok_bind,
      error_bind] at hq
    cases hq

/-- A length that is not negative keeps its value as a `size_t`. -/
theorem sizeT_of_nonneg (len : Int32) (h : 0 ≤ len.toInt) : (sizeT len.toInt : Int) = len.toInt := by
  have hlt := len.toInt_lt
  unfold sizeT
  omega

/-- An info encoded on the host `o` is decoded to the same fields everywhere. The header pointer is not
    transferred. -/
def ConnInfo.Travels (o : ByteOrder) (i : ConnInfo) : Prop :=
  ∀ (n : Nat) (p : Cursor n) (len : Int32), p.pos + 12 ≤ n → 32 ≤ len.toInt →
    ∃ q bs, i.encode o p len.toInt = .ok (some q) ∧ q.written = p.written ++ bs ∧
      ∀ o' i₀ rest (len' : Int32), 12 ≤ len'.toInt →
        ConnInfo.decode i₀ o' (bs ++ rest) len'.toInt = .ok ({ i with head := i₀.head }, some rest)

theorem ConnInfo.encode_big_fails (i : ConnInfo) (p : Cursor n) {len : Int}
    (hl : sizeofConnInfo ≤ sizeT len) : i.encode .big p len = .error .assertFailed := by
  rw [ConnInfo.encode, if_neg (by omega), encodeUint32, encodeUint_big_fails (by decide)]
  rfl

/-- An info travels exactly from a little-endian host. -/
theorem ConnInfo.travels_iff (o : ByteOrder) (i : ConnInfo) : i.Travels o ↔ o = .little := by
  cases o with
  | little =>
    refine iff_of_true ?_ rfl
    intro n p len hroom hlen
    have hsize := sizeT_of_nonneg len (by omega)
    obtain ⟨q, hq, hw, -⟩ := i.encode_little hroom len.toInt (by rw [sizeofConnInfo]; omega)
    refine ⟨q, i.wire, hq, hw, fun o' i₀ rest len' h => ?_⟩
    have hsize' := sizeT_of_nonneg len' (by omega)
    exact i.decode_wire i₀ o' rest (by omega)
  | big =>
    refine iff_of_false ?_ (by decide)
    intro h
    obtain ⟨q, -, hq, -⟩ := h 12 (Cursor.start 12) 32 (by simp) (by decide)
    rw [i.encode_big_fails _ (by decide)] at hq
    cases hq

/-- In the byte order `o` the code's `Encode` appends bytes to whatever has been written, and its `Decode`
    reads `i` back from them in every byte order, up to the header pointer, which is no part of the wire
    format. -/
def TcpInfo.Travels (o : ByteOrder) (i : TcpInfo) : Prop :=
  ∀ (n : Nat) (p : Cursor n) (len : Int32), p.pos + 21 ≤ n → 48 ≤ len.toInt →
    ∃ q bs, i.encode o p len.toInt = .ok (some q) ∧ q.written = p.written ++ bs ∧
      ∀ o' i₀ rest (len' : Int32), 21 ≤ len'.toInt →
        TcpInfo.decode i₀ o' (bs ++ rest) len'.toInt = .ok ({ i with head := i₀.head }, some rest)

theorem TcpInfo.encode_big_fails (i : TcpInfo) (p : Cursor n) {len : Int}
    (hl : sizeofTcpInfo ≤ sizeT len) : i.encode .big p len = .error .assertFailed := by
  have hc : sizeofConnInfo ≤ sizeT len := by
    rw [sizeofConnInfo]
    rw [sizeofTcpInfo] at hl
    omega
  rw [TcpInfo.encode, if_neg (by omega), i.toConnInfo.encode_big_fails p hc]
  rfl

/-- A TCP info travels exactly from a little-endian host. -/
theorem TcpInfo.travels_iff (o : ByteOrder) (i : TcpInfo) : i.Travels o ↔ o = .little := by
  cases o with
  | little =>
    refine iff_of_true ?_ rfl
    intro n p len hroom hlen
    have hsize := sizeT_of_nonneg len (by omega)
    obtain ⟨q, hq, hw, -⟩ := i.encode_little hroom len.toInt (by rw [sizeofTcpInfo]; omega)
    refine ⟨q, i.wire, hq, hw, fun o' i₀ rest len' h => ?_⟩
    have hsize' := sizeT_of_nonneg len' (by omega)
    exact i.decode_wire i₀ o' rest (by omega)
  | big =>
    refine iff_of_false ?_ (by decide)
    intro h
    obtain ⟨q, -, hq, -⟩ := h 21 (Cursor.start 21) 48 (by simp) (by decide)
    rw [i.encode_big_fails _ (by decide)] at hq
    cases hq

/-- Single bytes are written on every host, everything longer only on a little-endian one. What is
    written there, every host decodes. -/
theorem wire_format_iff (o : ByteOrder) (i₈ : UInt8) (i₁₆ : UInt16) (i₃₂ : UInt32) (i₆₄ : UInt64)
    (key : IntKeyType) (e : EncHead) (c : ConnInfo) (t : TcpInfo) :
    (Encodes (fun _ => encodeUint8 i₈) [i₈] ∧ Decodes (fun _ => decodeUint8) [i₈] i₈) ∧
    (Encodes (fun _ => encodeUint16 o i₁₆) (toLE 2 i₁₆.toNat) ∧
      Decodes decodeUint16 (toLE 2 i₁₆.toNat) i₁₆ ↔ o = .little) ∧
    (Encodes (fun _ => encodeUint32 o i₃₂) (toLE 4 i₃₂.toNat) ∧
      Decodes decodeUint32 (toLE 4 i₃₂.toNat) i₃₂ ↔ o = .little) ∧
    (Encodes (fun _ => encodeUint64 o i₆₄) (toLE 8 i₆₄.toNat) ∧
      Decodes decodeUint64 (toLE 8 i₆₄.toNat) i₆₄ ↔ o = .little) ∧
    (Encodes (fun _ p => KeyGenerator.encodeKey o p key) (toLE 8 key.toNat) ∧
      Decodes KeyGenerator.decodeKey (toLE 8 key.toNat) key ↔ o = .little) ∧
    (e.Travels o ↔ o = .little) ∧ (c.Travels o ↔ o = .little) ∧ (t.Travels o ↔ o = .little) := by
  have h16 : Decodes decodeUint16 (toLE 2 i₁₆.toNat) i₁₆ := fun o' rest => decodeUint16_toLE o' i₁₆ rest
  have h32 : Decodes decodeUint32 (toLE 4 i₃₂.toNat) i₃₂ := fun o' rest => decodeUint32_toLE o' i₃₂ rest
  have h64 : ∀ i : UInt64, Decodes decodeUint64 (toLE 8 i.toNat) i :=
    fun i o' rest => decodeUint64_toLE o' i rest
  have hkey : Decodes KeyGenerator.decodeKey (toLE 8 key.toNat) key := h64 key
  refine ⟨⟨fun n p h => wroteAt_write h, fun _ rest => decodeUint8_cons i₈ rest⟩, ?_, ?_, ?_, ?_,
    e.travels_iff o, c.travels_iff o, t.travels_iff o⟩
  · rw [and_iff_left h16]
    exact encodes_uint_iff o _ (.inl (by decide))
  · rw [and_iff_left h32]
    exact encodes_uint_iff o _ (.inl (by decide))
  · rw [and_iff_left (h64 i₆₄)]
    exact encodes_uint_iff o _ (.inr rfl)
  · rw [and_iff_left hkey]
    exact encodes_uint_iff o _ (.inr rfl)

/-- On a big-endian host 1 trips the assertion as a `uint32`, and as a `uint64` only its first byte is
    written. -/
theorem big_endian_not_written :
    encodeUint32 .big 1 (Cursor.start 4) = .error .assertFailed ∧
    ∃ q, encodeUint64 .big 0x0102 (Cursor.start 8) = .ok q ∧ q.buf.bytes = [2, 0, 0, 0, 0, 0, 0, 0] ∧
      toLE 8 0x0102 = [2, 1, 0, 0, 0, 0, 0, 0] := by
  refine ⟨encodeUint_big_fails (by decide) _ _, ?_⟩
  obtain ⟨q, hq, hw⟩ := encodeUint_big_eight (i := 0x0102) (p := Cursor.start 8) (by decide)
  exact ⟨q, hq, hw, by decide⟩

/-! ## `TcpInfo::Decode` and the length

The base class checks the length for its own 12 bytes. The second check looks at the bytes already
read, which are those 12, so the 9 bytes behind them are read whatever the length is. -/

/-- A decoder that reads `w` bytes. -/
def ReadsWidth (w : Nat) (dec : List UInt8 → Except Fault (α × List UInt8)) : Prop :=
  ∀ p, (p.length < w → dec p = .error .outOfBounds) ∧ (w ≤ p.length → ∃ a, dec p = .ok (a, p.drop w))

/-- What is done with the value afterwards does not change how many bytes are read. -/
theorem readsWidth_map {β : Type} {w : Nat} {dec : List UInt8 → Except Fault (α × List UInt8)}
    (h : ReadsWidth w dec) (f : α → β) :
    ReadsWidth w fun p => dec p >>= fun r => pure (f r.1, r.2) := by
  intro p
  refine ⟨fun hlt => ?_, fun hle => ?_⟩
  · simp only [(h p).1 hlt, error_bind]
  · obtain ⟨a, ha⟩ := (h p).2 hle
    exact ⟨f a, by simp only [ha, ok_bind]; rfl⟩

theorem readsWidth_readBytes (w : Nat) : ReadsWidth w (readBytes w) :=
  fun _ => ⟨fun h => if_neg (Nat.not_le.mpr h), fun h => ⟨_, readBytes_of_le h⟩⟩

/-- An integer of width `w` is read from `w` bytes in both byte orders. -/
theorem readsWidth_uint (o : ByteOrder) (w : Nat) : ReadsWidth w (decodeUint o w) :=
  readsWidth_map (readsWidth_readBytes w) fun bs =>
    if isLittleEndian o then o.load bs else o.load bs.reverse

theorem readsWidth_uint32 (o : ByteOrder) : ReadsWidth 4 (decodeUint32 o) :=
  readsWidth_map (readsWidth_uint o 4) _

theorem readsWidth_uint16 (o : ByteOrder) : ReadsWidth 2 (decodeUint16 o) :=
  readsWidth_map (readsWidth_uint o 2) _

theorem readsWidth_uint8 : ReadsWidth 1 decodeUint8 :=
  readsWidth_map (readsWidth_readBytes 1) fun bs => bs.headD 0

section Bind

variable {β : Type} {w : Nat} {dec : List UInt8 → Except Fault (α × List UInt8)} {p : List UInt8}
  {f : α × List UInt8 → Except Fault β}

/-- If the rest fails after a read, so do both together. -/
theorem ReadsWidth.bind_fails (h : ReadsWidth w dec)
    (hf : ∀ a, w ≤ p.length → f (a, p.drop w) = .error .outOfBounds) :
    (dec p >>= f) = .error .outOfBounds := by
  by_cases hlt : p.length < w
  · rw [(h p).1 hlt, error_bind]
  · obtain ⟨a, ha⟩ := (h p).2 (Nat.not_lt.mp hlt)
    rw [ha, ok_bind]
    exact hf a (Nat.not_lt.mp hlt)

/-- If the rest succeeds after a read with enough bytes, so do both together. -/
theorem ReadsWidth.bind_ok {Q : β → Prop} (h : ReadsWidth w dec) (hle : w ≤ p.length)
    (hf : ∀ a, ∃ b, f (a, p.drop w) = .ok b ∧ Q b) : ∃ b, (dec p >>= f) = .ok b ∧ Q b := by
  obtain ⟨a, ha⟩ := (h p).2 hle
  rw [ha, ok_bind]
  exact hf a

end Bind

section Lengths

variable {o : ByteOrder} {buf : List UInt8} {len : Int}

/-- With fewer than 12 bytes at hand a length that is not refused makes `Decode` read past the buffer. -/
theorem ConnInfo.decode_short (i : ConnInfo) (hl : 12 ≤ sizeT len) (h : buf.length < 12) :
    i.decode o buf len = .error .outOfBounds := by
  rw [ConnInfo.decode, if_neg (by omega)]
  refine (readsWidth_uint32 o).bind_fails fun src h₁ => ?_
  refine (readsWidth_uint32 o).bind_fails fun dst h₂ => ?_
  refine (readsWidth_uint16 o).bind_fails fun sp h₃ => ?_
  refine (readsWidth_uint16 o).bind_fails fun dp h₄ => ?_
  simp only [List.length_drop] at h₂ h₃ h₄
  omega

/-- With 12 bytes at hand and a length that is not refused `Decode` stops after them. -/
theorem ConnInfo.decode_long (i : ConnInfo) (o : ByteOrder) (buf : List UInt8) (len : Int)
    (hl : 12 ≤ sizeT len) (h : 12 ≤ buf.length) :
    ∃ r, i.decode o buf len = .ok r ∧ r.2 = some (buf.drop 12) := by
  rw [ConnInfo.decode, if_neg (by omega)]
  refine (readsWidth_uint32 o).bind_ok (by omega) fun src => ?_
  refine (readsWidth_uint32 o).bind_ok (by rw [List.length_drop]; omega) fun dst => ?_
  refine (readsWidth_uint16 o).bind_ok (by simp only [List.length_drop]; omega) fun sp => ?_
  refine (readsWidth_uint16 o).bind_ok (by simp only [List.length_drop]; omega) fun dp => ?_
  exact ⟨_, rfl, by simp only [List.drop_drop]⟩

theorem ConnInfo.written_of_encode {i : ConnInfo} {p q : Cursor n}
    (h : i.encode .little p len = .ok (some q)) : q.written = p.written ++ i.wire := by
  rw [ConnInfo.encode] at h
  split at h
  · cases h
  · obtain ⟨p₁, h₁, h⟩ := bind_eq_ok.mp h
    obtain ⟨p₂, h₂, h⟩ := bind_eq_ok.mp h
    obtain ⟨p₃, h₃, h⟩ := bind_eq_ok.mp h
    obtain ⟨p₄, h₄, h⟩ := bind_eq_ok.mp h
    obtain rfl := Option.some.inj (Except.ok.inj h)
    rw [written_of_encodeUint h₄, written_of_encodeUint h₃, written_of_encodeUint h₂,
      written_of_encodeUint h₁, ConnInfo.wire]
    simp only [List.append_assoc]

namespace TcpInfo

/-- A length below 12 is refused before anything is read. -/
theorem decode_null (i : TcpInfo) (hl : sizeT len < 12) : i.decode o buf len = .ok (i, none) := by
  rw [TcpInfo.decode, ConnInfo.decode, if_pos (by omega)]
  rfl

/-- The second check always passes: 12 bytes have been read by then. -/
theorem decode_rest (i : TcpInfo) (o : ByteOrder) (buf : List UInt8) (len : Int)
    (hl : 12 ≤ sizeT len) (h : 12 ≤ buf.length) :
    ∃ c, i.decode o buf len = do
      let (seq, p) ← decodeUint32 o (buf.drop 12)
      let (ack, p) ← decodeUint32 o p
      let (flag, p) ← decodeUint8 p
      return ({ i with toConnInfo := c, seq := seq, ack := ack, flag := flag }, some p) := by
  obtain ⟨⟨c, q⟩, hc, rfl⟩ := i.toConnInfo.decode_long o buf len hl h
  have hread : ¬ (buf.length - (buf.drop 12).length < 4 + 4 + 1) := by
    rw [List.length_drop]
    omega
  refine ⟨c, ?_⟩
  rw [TcpInfo.decode, hc]
  simp only [ok_bind, if_neg hread]

/-- With fewer than 21 bytes at hand a length that is not refused makes `Decode` read past the buffer. -/
theorem decode_short (i : TcpInfo) (hl : 12 ≤ sizeT len) (h : buf.length < 21) :
    i.decode o buf len = .error .outOfBounds := by
  by_cases h12 : buf.length < 12
  · rw [TcpInfo.decode, i.toConnInfo.decode_short hl h12]
    rfl
  · obtain ⟨c, hc⟩ := i.decode_rest o buf len hl (Nat.not_lt.mp h12)
    rw [hc]
    refine (readsWidth_uint32 o).bind_fails fun seq h₁ => ?_
    refine (readsWidth_uint32 o).bind_fails fun ack h₂ => ?_
    refine readsWidth_uint8.bind_fails fun flag h₃ => ?_
    simp only [List.length_drop] at h₁ h₂ h₃
    omega

/-- With 21 bytes at hand and a length that is not refused `Decode` stops after them. -/
theorem decode_long (i : TcpInfo) (o : ByteOrder) (buf : List UInt8) (len : Int)
    (hl : 12 ≤ sizeT len) (h : 21 ≤ buf.length) :
    ∃ r, i.decode o buf len = .ok r ∧ r.2 = some (buf.drop 21) := by
  obtain ⟨c, hc⟩ := i.decode_rest o buf len hl (by omega)
  rw [hc]
  refine (readsWidth_uint32 o).bind_ok (by rw [List.length_drop]; omega) fun seq => ?_
  refine (readsWidth_uint32 o).bind_ok (by simp only [List.length_drop]; omega) fun ack => ?_
  refine readsWidth_uint8.bind_ok (by simp only [List.length_drop]; omega) fun flag => ?_
  exact ⟨_, rfl, by simp only [List.drop_drop]⟩

/-- What `Decode` promises for the first `len` bytes of a buffer. -/
structure DecodeExact (i : TcpInfo) (o : ByteOrder) (buf : List UInt8) (len : Int) : Prop where
  /-- It does not read beyond them. -/
  inside : i.decode o (buf.take len.toNat) len ≠ .error .outOfBounds
  nonnull_iff : ∃ i' q, i.decode o buf len = .ok (i', q) ∧ (q.isSome ↔ 21 ≤ len)
  remaining : ∀ i' p, i.decode o (buf.take len.toNat) len = .ok (i', some p) →
    (p.length : Int) = len - 21

/-- `Decode` keeps to its bytes exactly when the length is refused or covers the whole info. -/
theorem decodeExact_iff (i : TcpInfo) (o : ByteOrder) {len : Int32} (hlen : len.toInt ≤ buf.length) :
    i.DecodeExact o buf len.toInt ↔ 0 ≤ len.toInt ∧ len.toInt < 12 ∨ 21 ≤ len.toInt := by
  have htake : (buf.take len.toInt.toNat).length = len.toInt.toNat := by
    rw [List.length_take]
    omega
  by_cases hneg : len.toInt < 0
  · have hsize : 12 ≤ sizeT len.toInt := by
      have := len.le_toInt
      unfold sizeT
      omega
    refine iff_of_false (fun h => h.inside (i.decode_short hsize ?_)) (by omega)
    omega
  · have hsize := sizeT_of_nonneg len (by omega)
    by_cases h12 : len.toInt < 12
    · refine iff_of_true ⟨?_, ⟨i, none, i.decode_null (by omega), ?_⟩, ?_⟩ (.inl ⟨by omega, h12⟩)
      · rw [i.decode_null (by omega)]
        simp
      · exact iff_of_false (by decide) (by omega)
      · intro i' p hp
        rw [i.decode_null (by omega)] at hp
        cases hp
    · by_cases h21 : len.toInt < 21
      · refine iff_of_false (fun h => h.inside (i.decode_short (by omega) ?_)) (by omega)
        omega
      · obtain ⟨⟨i₁, q₁⟩, hd₁, rfl⟩ := i.decode_long o (buf.take len.toInt.toNat) len.toInt
          (by omega) (by omega)
        obtain ⟨⟨i₂, q₂⟩, hd₂, rfl⟩ := i.decode_long o buf len.toInt (by omega)
          (by omega)
        refine iff_of_true ⟨?_, ⟨i₂, _, hd₂, ?_⟩, ?_⟩ (.inr (by omega))
        · rw [hd₁]
          simp
        · exact iff_of_true rfl (by omega)
        · intro i' p hp
          obtain ⟨-, hp⟩ := Prod.mk.inj (Except.ok.inj (hd₁.symm.trans hp))
          rw [← Option.some.inj hp, List.length_drop]
          omega

/-- `RawTcp::syncInput` passes on what follows the 21 bytes. -/
def SyncExact (buf : List UInt8) : Prop :=
  ∃ act, RawTcp.syncInput buf = .ok act ∧
    ∀ info p, act = .input info p → (p.length : Int) = (buf.length : Int) - 21

/-- A frame of the sync connection is read within its bytes exactly when it is refused or holds a whole
    info. -/
theorem syncExact_iff {buf : List UInt8} (hbuf : buf.length < 2 ^ 31) :
    SyncExact buf ↔ buf.length < 12 ∨ 21 ≤ buf.length := by
  have hsize : sizeT buf.length = buf.length := sizeT_natCast (by omega)
  unfold SyncExact RawTcp.syncInput
  by_cases hpos : 0 < buf.length
  · rw [if_pos hpos]
    by_cases h12 : buf.length < 12
    · rw [decode_null _ (by omega)]
      exact iff_of_true ⟨_, rfl, fun _ _ h => by cases h⟩ (.inl h12)
    · by_cases h21 : buf.length < 21
      · rw [decode_short _ (by omega) h21]
        refine iff_of_false ?_ (by omega)
        rintro ⟨act, h, -⟩
        cases h
      · obtain ⟨⟨i, q⟩, hd, rfl⟩ := decode_long {} .little buf buf.length
          (by omega) (by omega)
        rw [hd]
        refine iff_of_true ⟨_, rfl, fun info p h => ?_⟩ (.inr (by omega))
        obtain ⟨-, rfl⟩ := RawTcp.SyncAct.input.inj h
        rw [List.length_drop]
        omega
  · rw [if_neg hpos]
    exact iff_of_true ⟨_, rfl, fun _ _ h => by cases h⟩ (.inl (by omega))

/-- What was written at all is the encoding. -/
theorem written_of_encode {i : TcpInfo} {p q : Cursor n} (h : i.encode o p len = .ok (some q)) :
    q.written = p.written ++ i.wire := by
  have hsize : sizeofTcpInfo ≤ sizeT len := by
    by_contra hlt
    rw [TcpInfo.encode, if_pos (by omega)] at h
    cases h
  cases o with
  | big =>
    rw [i.encode_big_fails p hsize] at h
    cases h
  | little =>
    rw [TcpInfo.encode, if_neg (by omega)] at h
    obtain ⟨r, hr, h⟩ := bind_eq_ok.mp h
    cases r with
    | none => cases h
    | some p₁ =>
      obtain ⟨p₂, h₂, h⟩ := bind_eq_ok.mp h
      obtain ⟨p₃, h₃, h⟩ := bind_eq_ok.mp h
      obtain ⟨p₄, h₄, h⟩ := bind_eq_ok.mp h
      obtain rfl := Option.some.inj (Except.ok.inj h)
      rw [Cursor.written_of_write h₄, written_of_encodeUint h₃, written_of_encodeUint h₂,
        ConnInfo.written_of_encode hr, TcpInfo.wire_eq]
      simp only [List.append_assoc]

/-- What was encoded is decoded to the same fields, and `Decode` does what it promises exactly for the
    lengths that are refused by the check of the base class or that leave room for all 21 bytes. -/
theorem decode_exact_iff (i i₀ : TcpInfo) (o o' : ByteOrder) (p : Cursor n) (room : Int)
    (rest buf : List UInt8) (len : Int32) (hlen : len.toInt ≤ buf.length) :
    (∀ q, i.encode o p room = .ok (some q) → ∃ bs, bs.length = 21 ∧ q.written = p.written ++ bs ∧
      ∀ len' : Int32, 21 ≤ len'.toInt →
        i₀.decode o' (bs ++ rest) len'.toInt = .ok ({ i with head := i₀.head }, some rest)) ∧
    (i₀.DecodeExact o' buf len.toInt ↔ 0 ≤ len.toInt ∧ len.toInt < 12 ∨ 21 ≤ len.toInt) ∧
    (SyncExact (buf.take len.toInt.toNat) ↔ len.toInt < 12 ∨ 21 ≤ len.toInt) := by
  refine ⟨?_, i₀.decodeExact_iff o' hlen, ?_⟩
  · intro q hq
    refine ⟨i.wire, i.length_wire, written_of_encode hq, fun len' h => ?_⟩
    have hsize := sizeT_of_nonneg len' (by omega)
    exact i.decode_wire i₀ o' rest (by omega)
  · have hlt := len.toInt_lt
    have htake : (buf.take len.toInt.toNat).length = len.toInt.toNat := by
      rw [List.length_take]
      omega
    rw [syncExact_iff (by omega), htake]
    omega

/-- An info that is written on a little-endian host and read on a big-endian one. -/
theorem decode_exact_of_21_bytes :
    (∃ bs, bs.length = 21 ∧
      TcpInfo.decode {} .big bs 21 = .ok ({ sp := 80, dp := 10001, seq := 7 }, some [])) ∧
    TcpInfo.DecodeExact {} .big (List.replicate 21 0) 21 ∧ SyncExact (List.replicate 21 0) := by
  obtain ⟨q, hq, -⟩ := encode_little { sp := 80, dp := 10001, seq := 7 } (p := Cursor.start 48)
    (by decide) 48 (by decide)
  obtain ⟨hround, hdec, hsync⟩ := decode_exact_iff { sp := 80, dp := 10001, seq := 7 } {} .little .big
    (Cursor.start 48) 48 [] (List.replicate 21 0) 21 (by decide)
  refine ⟨?_, hdec.mpr (by decide), hsync.mpr (by decide)⟩
  obtain ⟨bs, hbs, -, hd⟩ := hround q hq
  refine ⟨bs, hbs, ?_⟩
  have h21 := hd 21 (by decide)
  rw [List.append_nil] at h21
  exact h21

/-- A zeroed buffer of 21 bytes and the length 15: the pointer behind all of them is returned, so that
    15 - 21 bytes are left. Of 15 bytes the last 6 that are read are not there. -/
theorem decode_of_15_bytes :
    (∃ i', TcpInfo.decode {} .little (List.replicate 21 0) 15 = .ok (i', some [])) ∧
    TcpInfo.decode {} .little (List.replicate 15 0) 15 = .error .outOfBounds ∧
    RawTcp.syncInput (List.replicate 15 0) = .error .outOfBounds := by
  refine ⟨?_, decode_short _ (by decide) (by decide), ?_⟩
  · obtain ⟨⟨i', q⟩, hd, rfl⟩ := decode_long {} .little (List.replicate 21 0) 15
      (by decide) (by decide)
    exact ⟨i', hd⟩
  · rw [RawTcp.syncInput, if_pos (by decide), decode_short _ (by decide) (by decide)]
    rfl

end TcpInfo

end Lengths

end Rsock
