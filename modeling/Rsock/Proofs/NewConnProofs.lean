import Rsock.Proofs.NetConnKeepAliveProofs

/-!
# Proofs: keepalive requests for conns the peer knows

The peer gets to know a conn by a data packet, and a request is made only for a conn that is not new.
But any packet makes a conn old, also a control packet that happens to be sent through it. A data
packet has been output through every conn that is not new exactly as long as no control packet is
output through a new one.
-/

namespace Rsock

open CMem TransSys INetGroup

namespace NetSide

variable {s s' : NetSide}

/-- A data packet has been output through every conn that is not new. -/
def DataFirst (s : NetSide) : Prop :=
  ∀ p, IsOld s.mFakeNetGroup.heap p → (p, EncHead.typeData) ∈ outputs s.notes

/-- Every request was made for a conn through which a data packet had been output. -/
def RequestsKnown (ns : List Note) : Prop :=
  ∀ pre p k, pre ++ [.request p k] <+: ns → (p, EncHead.typeData) ∈ outputs pre

/-- The calls of `doSend` the event makes, with the packets of the conns `doSendConn` picks. -/
def calls (s : NetSide) (e : Event) : List SentCall :=
  match s.step e with
  | .ok s' => s'.sends.drop s.sends.length
  | .error _ => []

/-- No conn `doSend` picks for a control packet of the event is new before the event. -/
def ControlOnOld (s : NetSide) (e : Event) : Prop :=
  ∀ c ∈ s.calls e, c.call.hd.mCmd ≠ EncHead.typeData → ∀ pkt, c.packet = some pkt →
    IsOld s.mFakeNetGroup.heap pkt.p

/-! ## What an event does -/

/-- The event sends data, or it sends control packets and makes requests for conns that are not new. -/
structure Talks (s s' : NetSide) : Prop where
  goes : Goes s s'
  notes : ∃ ns, s'.notes = s.notes ++ ns ∧
    ((∀ e ∈ outputs ns, e.2 = EncHead.typeData) ∨ ∀ e ∈ outputs ns, e.2 ≠ EncHead.typeData) ∧
    ∀ p k, .request p k ∈ ns →
      IsOld s.mFakeNetGroup.heap p ∨ ∃ cmd ≠ EncHead.typeData, (p, cmd) ∈ outputs ns

/-- The event adds a new conn, or deletes one. -/
structure Conns (s s' : NetSide) : Prop where
  head : s'.mHead = s.mHead
  sends : s'.sends = s.sends
  notes : s'.notes = s.notes
  length : s.mFakeNetGroup.heap.cells.length ≤ s'.mFakeNetGroup.heap.cells.length
  conn : ∀ q c, s'.mFakeNetGroup.heap.get? q = some c →
    s.mFakeNetGroup.heap.get? q = some c ∨
      s.mFakeNetGroup.heap.cells.length ≤ q ∧ c.toINetConn.mNew = true

theorem Answers.talks (h : Answers s s') : Talks s s' := by
  obtain ⟨l, hl, hcmd⟩ := h.notes
  refine ⟨h.goes, _, hl, .inr ?_, ?_⟩
  · rw [outputs_map_output]
    exact hcmd
  · intro p k hpk
    obtain ⟨e, -, he⟩ := List.mem_map.mp hpk
    cases he

/-- Only the records of the keepalive change. -/
theorem talks_of_note {n : Note} (hhead : s'.mHead = s.mHead)
    (hnet : s'.mFakeNetGroup = s.mFakeNetGroup) (hsends : s'.sends = s.sends) (hnotes : s'.notes = s.notes ++ [n])
    (hout : outputs [n] = []) (hreq : ∀ p k, n ≠ .request p k) : Talks s s' := by
  refine ⟨goes_of_eq [n] hhead hnet hsends hnotes hout, [n], hnotes, .inl ?_, ?_⟩
  · rw [hout]
    simp
  · intro p k hpk
    exact absurd (List.mem_singleton.mp hpk).symm (hreq p k)

theorem Sends.talks {cmd : UInt8} (h : Sends cmd s s') : Talks s s' := by
  obtain ⟨as, -, hnotes, hcmd⟩ := h.does
  refine ⟨h.goes, _, hnotes, ?_, ?_⟩
  · rw [outputs_map_output]
    by_cases hdata : cmd = EncHead.typeData
    · exact .inl (hdata ▸ hcmd)
    · refine .inr fun e he => ?_
      rw [hcmd e he]
      exact hdata
  · intro p k hpk
    obtain ⟨e, -, he⟩ := List.mem_map.mp hpk
    cases he

theorem talks_sendData {conv : UInt32} {payload : List UInt8} {env : SendEnv}
    (hr : s.sendData conv payload env = .ok s') : Talks s s' := by
  obtain ⟨⟨hhead, hcloses, hdoes, hsent⟩, hnotes⟩ := (sends_send hr).talks
  exact ⟨⟨hhead, hcloses, hdoes, hsent⟩, hnotes⟩

/-- `AddNetConn` only adds a new conn. -/
theorem conns_addNetConn {conn : NewConn} (hL : s.mFakeNetGroup.Ledger)
    (hr : s.netStep (.addNetConn conn.1) = .ok s') : Conns s s' := by
  obtain ⟨net, hstep, hr⟩ := bind_eq_ok.mp hr
  obtain rfl := Except.ok.inj hr
  obtain ⟨hheap, -⟩ := ConnLife.addNetConn_cases hL.inv hstep
  refine ⟨rfl, rfl, rfl, ?_, ?_⟩
  · rw [hheap, Heap.length_alloc]
    exact Nat.le_succ _
  · intro q c hc
    rw [hheap] at hc
    rcases Heap.get?_alloc_cases hc with hold | ⟨hle, rfl⟩
    · exact .inl hold
    · exact .inr ⟨hle, conn.2⟩

/-- A message of the handler only deletes a conn. -/
theorem conns_handleMessage (hL : s.mFakeNetGroup.Ledger) (hr : s.netStep .handleMessage = .ok s') :
    Conns s s' := by
  obtain ⟨net, hstep, hr⟩ := bind_eq_ok.mp hr
  obtain rfl := Except.ok.inj hr
  obtain ⟨⟨net', info⟩, hmsg, hstep⟩ := bind_eq_ok.mp hstep
  obtain rfl := Except.ok.inj hstep
  rcases ConnLife.handleMessage_spec hL hmsg with ⟨rfl, -⟩ | ⟨p, c, -, -, -, -, -, hlen, hleft⟩
  · exact ⟨rfl, rfl, rfl, le_rfl, fun _ _ h => .inl h⟩
  · exact ⟨rfl, rfl, rfl, hlen.ge, fun q d hd => .inl (hleft q d hd)⟩

/-- An event either talks or changes which conns there are. -/
theorem step_cases {e : Event} (hI : Inv s) (hr : s.step e = .ok s') : Talks s s' ∨ Conns s s' := by
  cases e with
  | addNetConn conn => exact .inr (conns_addNetConn hI.ledger hr)
  | sendData conv payload env => exact .inl (talks_sendData hr)
  | input o info payload ups n env =>
    rcases input_cases hr with hans | ⟨key, rfl⟩
    · exact .inl hans.talks
    · exact .inl (talks_of_note rfl rfl rfl rfl rfl (by simp))
  | processTcpFinOrRst info =>
    obtain ⟨⟨h', b⟩, hrst, hr⟩ := bind_eq_ok.mp hr
    obtain rfl := Except.ok.inj hr
    exact .inl (answers_processTcpFinOrRst hrst).talks
  | onTcpError p => exact .inl (answers_onTcpError hr).talks
  | flush => exact .inl (answers_flush hI.ledger hr).talks
  | handleMessage => exact .inr (conns_handleMessage hI.ledger hr)
  | onFlush o timestamp env =>
    obtain ⟨-, hgoes, ns, hns, hcmd, hreq, -⟩ := onFlush_spec hI hr
    have hctl : ∀ e ∈ outputs ns, e.2 ≠ EncHead.typeData := by
      intro e he
      rw [hcmd e he]
      decide
    refine .inl ⟨hgoes, ns, hns, .inr hctl, ?_⟩
    intro p k hpk
    rcases hreq p k hpk with hold | ⟨cmd, hout⟩
    · exact .inl hold
    · exact .inr ⟨cmd, hctl _ hout, hout⟩
  | onNetConnected =>
    obtain rfl := Except.ok.inj hr
    exact .inl (talks_of_note rfl rfl rfl rfl rfl (by simp))
  | onNetDisconnected =>
    obtain rfl := Except.ok.inj hr
    exact .inl (talks_of_note rfl rfl rfl rfl rfl (by simp))

/-! ## Runs -/

/-- No packet has been output through a new conn, or through one that does not exist yet. -/
def NewUnused (s : NetSide) : Prop :=
  ∀ e ∈ outputs s.notes, e.1 < s.mFakeNetGroup.heap.cells.length ∧
    ∀ c, s.mFakeNetGroup.heap.get? e.1 = some c → c.toINetConn.mNew = false

/-- What a run keeps whose control packets go over old conns: the header says data, no new conn has been
    used, and every old one and every request comes after a data packet. -/
structure NewInv (s : NetSide) : Prop where
  inv : Inv s
  head : s.mHead.mCmd = EncHead.typeData
  unused : NewUnused s
  data : DataFirst s
  requests : RequestsKnown s.notes

/-- Talking neither makes nor deletes a conn. -/
theorem Talks.sameCells (h : Talks s s') (hL : s.mFakeNetGroup.Ledger) :
    SameCells s.mFakeNetGroup.heap s'.mFakeNetGroup.heap := by
  obtain ⟨as, -, hall, -⟩ := h.goes.does
  exact (moves_of_doesAll hall hL.inv (List.nodup_append.mp hL.nodup).1).2.2

/-- A conn after talking was there before it. -/
theorem Talks.live {p : ConnPtr} {c' : NetConn} (h : Talks s s') (hL : s.mFakeNetGroup.Ledger)
    (hc' : s'.mFakeNetGroup.heap.get? p = some c') : ∃ c, s.mFakeNetGroup.heap.get? p = some c := by
  refine Option.ne_none_iff_exists'.mp ?_
  rw [ne_eq, ← (h.sameCells hL).2 p, hc']
  simp

/-- Talking through a conn makes it old, so new conns stay unused. -/
theorem Talks.newUnused (h : Talks s s') (hL : s.mFakeNetGroup.Ledger) (hu : NewUnused s) :
    NewUnused s' := by
  obtain ⟨ns, hns, -, -⟩ := h.notes
  have hold : ∀ p, IsOld s'.mFakeNetGroup.heap p ↔
      IsOld s.mFakeNetGroup.heap p ∨ ∃ cmd, (p, cmd) ∈ outputs ns := h.goes.isOld_iff hns
  intro e he
  rw [hns, outputs_append] at he
  rcases List.mem_append.mp he with he | he
  · obtain ⟨hlt, hnew⟩ := hu e he
    refine ⟨(h.sameCells hL).1 ▸ hlt, ?_⟩
    intro c' hc'
    obtain ⟨c, hc⟩ := h.live hL hc'
    obtain ⟨d, hd, hdold⟩ := (hold e.1).mpr (.inl ⟨c, hc, hnew c hc⟩)
    obtain rfl : d = c' := Option.some.inj (hd.symm.trans hc')
    exact hdold
  · obtain ⟨d, hd, hdold⟩ := (hold e.1).mpr (.inr ⟨e.2, he⟩)
    refine ⟨Heap.lt_of_get? hd, ?_⟩
    intro c' hc'
    obtain rfl : d = c' := Option.some.inj (hd.symm.trans hc')
    exact hdold

/-- A conn that was just added has not been used. -/
theorem Conns.newUnused (h : Conns s s') (hu : NewUnused s) : NewUnused s' := by
  intro e he
  rw [h.notes] at he
  obtain ⟨hlt, hnew⟩ := hu e he
  refine ⟨Nat.lt_of_lt_of_le hlt h.length, ?_⟩
  intro c hc
  rcases h.conn e.1 c hc with hc | ⟨hle, -⟩
  · exact hnew c hc
  · exact absurd hlt (Nat.not_lt.mpr hle)

/-- A conn that was just added is new, so nothing is asked of it. -/
theorem Conns.dataFirst (h : Conns s s') (hd : DataFirst s) : DataFirst s' := by
  rintro p ⟨c, hc, hold⟩
  rw [h.notes]
  rcases h.conn p c hc with hc | ⟨-, hnew⟩
  · exact hd p ⟨c, hc, hold⟩
  · rw [hold] at hnew
    cases hnew

/-- Of the notes of an event, a control packet is output through no new conn exactly if a data packet
    has been output through all conns that are not new after it. -/
theorem Talks.dataFirst_iff {ns : List Note} (h : Talks s s') (hns : s'.notes = s.notes ++ ns)
    (hL : s.mFakeNetGroup.Ledger) (hu : NewUnused s) (hd : DataFirst s) :
    DataFirst s' ↔ ∀ p cmd, (p, cmd) ∈ outputs ns → cmd ≠ EncHead.typeData →
      IsOld s.mFakeNetGroup.heap p := by
  have hold := h.goes.isOld_iff hns
  have hmem : ∀ p, (p, EncHead.typeData) ∈ outputs s'.notes ↔
      (p, EncHead.typeData) ∈ outputs s.notes ∨ (p, EncHead.typeData) ∈ outputs ns := by
    intro p
    rw [hns, outputs_append, List.mem_append]
  constructor
  · intro hd' p cmd hp hcmd
    obtain ⟨ms, hms, hkind, -⟩ := h.notes
    obtain rfl : ms = ns := List.append_cancel_left (hms.symm.trans hns)
    have hctl : ∀ e ∈ outputs ms, e.2 ≠ EncHead.typeData :=
      hkind.elim (fun hdata => absurd (hdata _ hp) hcmd) id
    have hp' : IsOld s'.mFakeNetGroup.heap p := (hold p).mpr (.inr ⟨cmd, hp⟩)
    rcases (hmem p).mp (hd' p hp') with hout | hout
    · obtain ⟨c', hc', -⟩ := hp'
      obtain ⟨c, hc⟩ := h.live hL hc'
      exact ⟨c, hc, (hu _ hout).2 c hc⟩
    · exact absurd rfl (hctl _ hout)
  · intro hq p hp
    rw [hmem]
    rcases (hold p).mp hp with hp | ⟨cmd, hp⟩
    · exact .inl (hd p hp)
    · by_cases hcmd : cmd = EncHead.typeData
      · exact .inr (hcmd ▸ hp)
      · exact .inl (hd p (hq p cmd hp hcmd))

theorem Talks.requestsKnown (h : Talks s s') (hd : DataFirst s) (hreq : RequestsKnown s.notes)
    {ns : List Note} (hns : s'.notes = s.notes ++ ns)
    (hq : ∀ p cmd, (p, cmd) ∈ outputs ns → cmd ≠ EncHead.typeData →
      IsOld s.mFakeNetGroup.heap p) : RequestsKnown s'.notes := by
  obtain ⟨ms, hms, -, hasked⟩ := h.notes
  obtain rfl : ms = ns := List.append_cancel_left (hms.symm.trans hns)
  intro pre p k hpre
  rw [hns] at hpre
  rcases List.prefix_or_prefix_of_prefix hpre (List.prefix_append s.notes ms) with hbefore | hafter
  · exact hreq pre p k hbefore
  rcases List.prefix_concat_iff.mp hafter with heq | ⟨l, rfl⟩
  · exact hreq pre p k (heq ▸ List.prefix_refl _)
  · rw [List.append_assoc, List.prefix_append_right_inj] at hpre
    have hold : IsOld s.mFakeNetGroup.heap p := by
      rcases hasked p k (hpre.subset (by simp)) with hold | ⟨cmd, hcmd, hout⟩
      · exact hold
      · exact hq p cmd hout hcmd
    rw [outputs_append]
    exact List.mem_append_left _ (hd p hold)

/-- An event keeps the invariant if data has still gone first after it. -/
theorem newInv_step {e : Event} (hN : NewInv s) (hr : s.step e = .ok s')
    (h : DataFirst s' ∧ RequestsKnown s'.notes) : NewInv s' := by
  have hI' : Inv s' := inv_step hN.inv hr
  rcases step_cases hN.inv hr with htalks | hconns
  · exact ⟨hI', htalks.goes.head hN.head, htalks.newUnused hN.inv.ledger hN.unused, h.1, h.2⟩
  · exact ⟨hI', hconns.head ▸ hN.head, hconns.newUnused hN.unused, h.1, h.2⟩

/-- What the recorded calls and the notes say of the conns of control packets is the same. -/
theorem Talks.controlOnOld_iff {e : Event} {ns : List Note} (h : Talks s s')
    (hr : s.step e = .ok s') (hns : s'.notes = s.notes ++ ns) :
    s.ControlOnOld e ↔ ∀ p cmd, (p, cmd) ∈ outputs ns → cmd ≠ EncHead.typeData →
      IsOld s.mFakeNetGroup.heap p := by
  obtain ⟨ss, ms, hss, hms, hsent⟩ := h.goes.sent
  obtain rfl : ms = ns := List.append_cancel_left (hms.symm.trans hns)
  have hcalls : s.calls e = ss := by
    rw [calls, hr]
    show s'.sends.drop s.sends.length = ss
    rw [hss, List.drop_left]
  rw [ControlOnOld, hcalls, ← hsent]
  constructor
  · intro hq p cmd hp hcmd
    obtain ⟨c, hc, pkt, hpkt, rfl, rfl⟩ := mem_outsOf.mp hp
    exact hq c hc hcmd pkt hpkt
  · intro hq c hc hcmd pkt hpkt
    exact hq pkt.p _ (mem_outsOf.mpr ⟨c, hc, pkt, hpkt, rfl, rfl⟩) hcmd

/-- The event keeps data before requests exactly when its control packets go over old conns. -/
theorem dataFirst_iff_controlOnOld {e : Event} (hN : NewInv s) :
    (∀ s', s.step e = .ok s' → DataFirst s' ∧ RequestsKnown s'.notes) ↔ s.ControlOnOld e := by
  cases hr : s.step e with
  | error err =>
    have hcalls : s.calls e = [] := by rw [calls, hr]
    rw [ControlOnOld, hcalls]
    simp
  | ok s' =>
    rcases step_cases hN.inv hr with htalks | hconns
    · obtain ⟨ns, hns, -⟩ := htalks.notes
      have hiff := htalks.dataFirst_iff hns hN.inv.ledger hN.unused hN.data
      rw [htalks.controlOnOld_iff hr hns]
      constructor
      · intro h
        exact hiff.mp (h s' rfl).1
      · rintro hq s₁ hs₁
        obtain rfl := Except.ok.inj hs₁
        exact ⟨hiff.mpr hq, htalks.requestsKnown hN.data hN.requests hns hq⟩
    · have hcalls : s.calls e = [] := by
        rw [calls, hr]
        show s'.sends.drop s.sends.length = []
        rw [hconns.sends, List.drop_length]
      constructor
      · intro _ c hc
        rw [hcalls] at hc
        cases hc
      · rintro - s₁ hs₁
        obtain rfl := Except.ok.inj hs₁
        exact ⟨hconns.dataFirst hN.data, hconns.notes ▸ hN.requests⟩

/-- The invariant holds before the first event. -/
theorem newInv_new (id : IdBufType) : NewInv (new id) where
  inv := inv_new id
  head := rfl
  unused := by
    intro e he
    cases he
  data := by
    rintro p ⟨c, hc, -⟩
    cases hc
  requests := by
    intro pre p k hpre
    have := hpre.length_le
    simp [new] at this

/-- In every run, a data packet has been output through every conn that is not new and every request
    is made for such a conn, exactly if no event outputs a control packet through a new conn. -/
theorem data_before_request_iff (id : IdBufType) (es : List Event) :
    Always step (fun _ _ s => DataFirst s ∧ RequestsKnown s.notes) (new id) es ↔
      EachStep step ControlOnOld (new id) es :=
  always_iff_eachStep (fun _ _ _ hN hr h => newInv_step hN hr h)
    (fun _ _ hN => dataFirst_iff_controlOnOld hN) es (new id) (newInv_new id)

/-- A `FakeTcp` from port 40001 to port 10002. -/
def conn10002 : FakeTcp where
  mIntKey := KeyGenerator.portKey KeyGenerator.typeTcp 40001 10002
  mInfo := { src := 1, sp := 40001, dst := 2, dp := 10002 }

/-- Data is sent through the first of two conns. A packet of an unknown conversation comes in, and the
    conn picked for the reset is the second. -/
def resetOnNew : List Event :=
  [.addNetConn ⟨.fakeTcp ConnLife.conn10001, conn10001_mNew⟩,
    .addNetConn ⟨.fakeTcp conn10002, rfl⟩,
    .sendData 1 [0] { sent with picks := [0] },
    .input .little (.tcp { src := 2, sp := 10001, dst := 1, dp := 40000,
                           head := some { mConv := 7, mConnKey := ConnLife.conn10001.mIntKey } })
      [0] [(7, { sent with picks := [1] })] 0 sent,
    .onFlush .little 20000 fun _ => sent]

/-- The second conn is not new and a request is made for it, but no data has been sent through it. -/
theorem request_for_unknown_conn : ∃ s, run step (new (Buf.zeros 8)) resetOnNew = .ok s ∧
    ¬ DataFirst s ∧ ¬ RequestsKnown s.notes := by
  let key := ConnLife.conn10001.mIntKey
  let key' := conn10002.mIntKey
  obtain ⟨s, hs, hafter⟩ := exists_of_toOption (x := run step (new (Buf.zeros 8)) resetOnNew)
    (f := fun s => (s.notes, (s.mFakeNetGroup.heap.get? 1).map fun c => c.toINetConn.mNew))
    (b := ([.output 0 0, .output 1 1, .flush [key, key'], .canSend key, .request 0 key, .output 0 3,
      .canSend key', .request 1 key', .output 0 3], some false)) (by decide +kernel)
  obtain ⟨hnotes, hnew⟩ := Prod.mk.inj hafter
  obtain ⟨c, hc, hold⟩ := Option.map_eq_some_iff.mp hnew
  refine ⟨s, hs, ?_, ?_⟩
  · intro hd
    have hmem := hd 1 ⟨c, hc, hold⟩
    rw [hnotes] at hmem
    exact absurd hmem (by decide)
  · intro hreq
    have hmem := hreq [.output 0 0, .output 1 1, .flush [key, key'], .canSend key, .request 0 key,
      .output 0 3, .canSend key'] 1 key' ⟨[.output 0 3], hnotes.symm⟩
    exact absurd hmem (by decide)

end NetSide

end Rsock
