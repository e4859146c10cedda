import Rsock.NetConnKeepAlive
import Rsock.Proofs.NetGroupLifeProofs

/-!
# Proofs: what an app group sends

Every operation of `NetSide` does some of four things to its conns (`Goes`), and all packets it outputs
are noted and recorded. A conn is not new exactly if a packet has been output on it.
-/

namespace Rsock

open CMem INetGroup

/-! ## Conns that have sent something -/

/-- The conn is not new. -/
def IsOld (h : Heap NetConn) (p : ConnPtr) : Prop :=
  ∃ c, h.get? p = some c ∧ c.toINetConn.mNew = false

theorem isOld_store {h : Heap NetConn} {p q : ConnPtr} {c c' : NetConn} (hc : h.get? p = some c) :
    IsOld (h.store p c') q ↔
      p = q ∧ c'.toINetConn.mNew = false ∨ p ≠ q ∧ IsOld h q := by
  by_cases hpq : p = q
  · subst hpq
    simp [IsOld, Heap.get?_store_self hc]
  · simp [IsOld, hpq, Heap.get?_store_of_ne hpq]

theorem mNew_output {σ : Type} {c c' : NetConn} {hd : EncHead} {payload : List UInt8}
    {below : Info → List UInt8 → Except Fault (Int × σ)} {r : Int × σ}
    (h : c.output hd payload below = .ok (c', r)) : c'.toINetConn.mNew = false := by
  rcases NetConn.output_cases h with ⟨t, seq, -, rfl⟩ | ⟨u, -, rfl⟩
  · rfl
  · rfl

theorem mNew_onRecv {c c' : NetConn} {info : Info} {n n' : Int}
    (h : c.onRecv info n = .ok (c', n')) : c'.toINetConn.mNew = c.toINetConn.mNew := by
  rcases NetConn.onRecv_cases h with rfl | ⟨t, i, rfl, -, -, -, rfl⟩
  · rfl
  · rfl

theorem isOld_iff_of_eq {h : Heap NetConn} {p : ConnPtr} {c c' : NetConn} (hc : h.get? p = some c)
    (hnew : c'.toINetConn.mNew = c.toINetConn.mNew) (q : ConnPtr) :
    IsOld (h.store p c') q ↔ IsOld h q := by
  rw [isOld_store hc]
  by_cases hpq : p = q
  · subst hpq
    simp [IsOld, hc, hnew]
  · simp [hpq]

theorem mNew_notifyErr (c : NetConn) (err : ErrCode) :
    (c.notifyErr err).toINetConn.mNew = c.toINetConn.mNew := by
  cases c <;> rfl

theorem exists_mem_outs_output {p q : ConnPtr} {hd : EncHead} {n : Int} {as : List ConnAct} :
    (∃ cmd, (q, cmd) ∈ outs (.output p hd n :: as)) ↔ p = q ∨ ∃ cmd, (q, cmd) ∈ outs as := by
  have hcons : outs (.output p hd n :: as) = (p, hd.mCmd) :: outs as := rfl
  rw [hcons]
  simp [exists_or, eq_comm]

/-- A conn is not new any more exactly if a packet has been output on it. -/
theorem isOld_doesAll {g g' : INetGroup} {h h' : Heap NetConn} {as : List ConnAct}
    (hall : DoesAll g h as g' h') (q : ConnPtr) :
    IsOld h' q ↔ IsOld h q ∨ ∃ cmd, (q, cmd) ∈ outs as := by
  induction hall with
  | nil => simp [outs]
  | cons hdoes _ ih =>
    rw [ih]
    cases hdoes with
    | childConnErr _ _ _ _ => rfl
    | output _ hc _ hout =>
      rw [isOld_store hc, exists_mem_outs_output, mNew_output hout]
      tauto
    | onRecv hc hrecv =>
      rw [isOld_iff_of_eq hc (mNew_onRecv hrecv)]
      rfl
    | notifyErr hc =>
      rw [isOld_iff_of_eq hc (mNew_notifyErr _ _)]
      rfl

/-! ## The packet of one call -/

namespace INetGroup

variable {g g' : INetGroup} {h h' : Heap NetConn} {p : ConnPtr}

/-- A pass that does not return changes no conn. -/
theorem doSendPass_none {call : SendCall} {pick : Nat}
    (hr : doSendPass call pick g h = .ok (g', h', none)) : h' = h := by
  obtain ⟨k, p, c, -, -, hcases⟩ := doSendPass_cases hr
  rcases hcases with ⟨-, -, -, hh, -⟩ | ⟨-, -, c', n, -, -, -, hnone⟩ | ⟨-, -, hh, -⟩
  · exact hh
  · cases hnone
  · exact hh

theorem exists_of_doSendLoopConn {call : SendCall} {picks : List Nat}
    (hp : doSendLoopConn call picks g h = some p) : ∃ c, h.get? p = some c := by
  induction picks generalizing g with
  | nil => cases hp
  | cons pick picks ih =>
    rw [doSendLoopConn] at hp
    cases hpass : doSendPass call pick g h with
    | error e =>
      rw [hpass] at hp
      cases hp
    | ok r =>
      obtain ⟨g₁, h₁, r⟩ := r
      rw [hpass] at hp
      cases r with
      | some n =>
        obtain ⟨k, q, c, hk, hc, -⟩ := doSendPass_cases hpass
        dsimp only at hp
        rw [hk] at hp
        obtain rfl : q = p := Option.some.inj hp
        exact ⟨c, hc⟩
      | none =>
        obtain rfl := doSendPass_none hpass
        exact ih hp

theorem exists_of_doSendConn {call : SendCall} (hp : g.doSendConn h call = some p) :
    ∃ c, h.get? p = some c := by
  unfold doSendConn at hp
  split at hp
  · exact exists_of_doSendLoopConn hp
  · cases hp

variable {call : OutCall} {pkt : OutPacket}

/-- The callback of `doSendPacket` passes on what it gets. -/
theorem output_passes (c : NetConn) (call : OutCall) :
    ∃ c', c.output call.hd call.payload
        (fun info payload => .ok (call.out info payload, info, payload)) =
      .ok (c', call.out (c.outInfo call.hd) call.payload, c.outInfo call.hd, call.payload) :=
  NetConn.output_ok_iff.mpr rfl

/-- The packet leaves on the conn `doSend` has picked, with the addresses of the conn, the header of the
    call with the key of the conn, and the payload. -/
theorem doSendPacket_spec (hp : g.doSendPacket h call = some pkt) :
    g.doSendConn h call.toSendCall = some pkt.p ∧ h.get? pkt.p = some pkt.conn ∧
      pkt.info = pkt.conn.outInfo call.hd ∧ pkt.payload = call.payload ∧
      pkt.ret = call.out pkt.info pkt.payload := by
  obtain ⟨p, hconn, hp⟩ := Option.bind_eq_some_iff.mp hp
  obtain ⟨conn, hc, hp⟩ := Option.bind_eq_some_iff.mp hp
  obtain ⟨c', hout⟩ := output_passes conn call
  rw [hout] at hp
  obtain rfl := Option.some.inj hp
  exact ⟨hconn, hc, rfl, rfl, rfl⟩

theorem doSendPacket_of_conn (hp : g.doSendConn h call.toSendCall = some p) :
    ∃ pkt, g.doSendPacket h call = some pkt ∧ pkt.p = p := by
  obtain ⟨conn, hc⟩ := exists_of_doSendConn hp
  obtain ⟨c', hout⟩ := output_passes conn call
  refine ⟨⟨p, conn, conn.outInfo call.hd, call.payload, call.out (conn.outInfo call.hd) call.payload⟩,
    ?_, rfl⟩
  simp only [doSendPacket, hp, hc, hout, Option.bind_eq_bind, Option.bind_some]
  rfl

/-- A packet is output exactly if a conn is picked. -/
theorem map_doSendPacket :
    (g.doSendPacket h call).map OutPacket.p = g.doSendConn h call.toSendCall := by
  cases hconn : g.doSendConn h call.toSendCall with
  | none =>
    simp only [doSendPacket, hconn, Option.bind_eq_bind, Option.bind_none, Option.map_none]
  | some p =>
    obtain ⟨pkt, hpkt, rfl⟩ := doSendPacket_of_conn hconn
    rw [hpkt]
    rfl

end INetGroup

namespace NetSide

variable {s s' s'' : NetSide} {cmd : UInt8} {o : ByteOrder} {env : SendEnv}

@[simp] theorem note_mKeepAlive (n : Note) : (s.note n).mKeepAlive = s.mKeepAlive := rfl

@[simp] theorem note_mFakeNetGroup (n : Note) : (s.note n).mFakeNetGroup = s.mFakeNetGroup := rfl

@[simp] theorem note_notes (n : Note) : (s.note n).notes = s.notes ++ [n] := rfl

/-! ## Sending -/

/-- The conns the packets of the calls have been output on, with the commands. -/
def outsOf (ss : List SentCall) : List (ConnPtr × UInt8) :=
  ss.filterMap fun e => e.packet.map fun pkt => (pkt.p, e.call.hd.mCmd)

theorem outsOf_append (ss ts : List SentCall) : outsOf (ss ++ ts) = outsOf ss ++ outsOf ts :=
  List.filterMap_append

theorem mem_outsOf {ss : List SentCall} {p : ConnPtr} : (p, cmd) ∈ outsOf ss ↔
    ∃ e ∈ ss, ∃ pkt, e.packet = some pkt ∧ pkt.p = p ∧ e.call.hd.mCmd = cmd := by
  simp [outsOf, List.mem_filterMap]

theorem outsOf_singleton (e : SentCall) :
    outsOf [e] = (e.packet.map OutPacket.p).toList.map (·, e.call.hd.mCmd) := by
  cases he : e.packet <;> simp [outsOf, he]

@[simp] theorem record_mFakeNetGroup (call : OutCall) (packet : Option OutPacket) :
    (s.record call packet).mFakeNetGroup = s.mFakeNetGroup := by
  cases packet <;> rfl

@[simp] theorem record_mKeepAlive (call : OutCall) (packet : Option OutPacket) :
    (s.record call packet).mKeepAlive = s.mKeepAlive := by
  cases packet <;> rfl

@[simp] theorem record_mCmd (call : OutCall) (packet : Option OutPacket) :
    (s.record call packet).mHead.mCmd = s.mHead.mCmd := by
  cases packet <;> rfl

@[simp] theorem record_mIdBuf (call : OutCall) (packet : Option OutPacket) :
    (s.record call packet).mHead.mIdBuf = s.mHead.mIdBuf := by
  cases packet <;> rfl

@[simp] theorem record_sends (call : OutCall) (packet : Option OutPacket) :
    (s.record call packet).sends = s.sends ++ [⟨call, packet⟩] := by
  cases packet <;> rfl

/-- The packet is noted. -/
theorem record_notes (call : OutCall) (packet : Option OutPacket) :
    (s.record call packet).notes =
      s.notes ++ (outsOf [⟨call, packet⟩]).map fun e => .output e.1 e.2 := by
  cases packet with
  | none => exact (List.append_nil _).symm
  | some pkt => rfl

/-- The packet of the call has the addresses of its conn, the header of the call with the key of the
    conn, and the payload of the call. -/
def SentRight (e : SentCall) : Prop :=
  ∀ pkt, e.packet = some pkt →
    pkt.info = pkt.conn.getInfo.setHead (e.call.hd.setConnKey pkt.conn.intKey) ∧
      pkt.payload = e.call.payload

/-- From `s` to `s'` there has been this call of `doSend` and no other. -/
structure Calls (call : OutCall) (s s' : NetSide) : Prop where
  id : s'.mHead.mIdBuf = s.mHead.mIdBuf
  sends : s'.sends = s.sends ++
    [⟨call, s.mFakeNetGroup.group.doSendPacket s.mFakeNetGroup.heap call⟩]
  notes : ∃ l : List (ConnPtr × UInt8), s'.notes = s.notes ++ l.map fun e => .output e.1 e.2

theorem sentRight_doSendPacket (g : INetGroup) (h : Heap NetConn) (call : OutCall) :
    SentRight ⟨call, g.doSendPacket h call⟩ := by
  intro pkt hpkt
  obtain ⟨-, -, hinfo, hpay, -⟩ := doSendPacket_spec hpkt
  exact ⟨hinfo, hpay⟩

theorem calls_send {payload : List UInt8} {key : IntKeyType}
    (hr : s.send payload key env = .ok s') : Calls (s.sendCall payload key env) s s' := by
  obtain ⟨net, -, hr⟩ := bind_eq_ok.mp hr
  obtain rfl := Except.ok.inj hr
  exact ⟨record_mIdBuf _ _, record_sends _ _, _, record_notes _ _⟩

/-- The header of the call is that of the group with the command. -/
theorem calls_sendWithCmd {payload : List UInt8} {key : IntKeyType}
    (hr : s.sendWithCmd cmd payload key env = .ok s') :
    Calls ({ s with mHead := s.mHead.setCmd cmd }.sendCall payload key env) s s' := by
  obtain ⟨s₁, hsend, hr⟩ := bind_eq_ok.mp hr
  obtain rfl := Except.ok.inj hr
  obtain ⟨hid, hsends, hnotes⟩ := calls_send hsend
  exact ⟨hid, hsends, hnotes⟩

/-- From `s` to `s'` packets with the command have been sent. -/
structure Sends (cmd : UInt8) (s s' : NetSide) : Prop where
  head : s.mHead.mCmd = EncHead.typeData → s'.mHead.mCmd = EncHead.typeData
  keepAlive : s'.mKeepAlive = s.mKeepAlive
  closes : s'.mFakeNetGroup.closes = s.mFakeNetGroup.closes
  does : ∃ as, DoesAll s.mFakeNetGroup.group s.mFakeNetGroup.heap as s'.mFakeNetGroup.group
    s'.mFakeNetGroup.heap ∧ s'.notes = s.notes ++ (outs as).map (fun e => .output e.1 e.2) ∧
    ∀ e ∈ outs as, e.2 = cmd
  sent : ∃ ss, s'.sends = s.sends ++ ss ∧
    s'.notes = s.notes ++ (outsOf ss).map fun e => .output e.1 e.2

theorem Sends.refl (cmd : UInt8) (s : NetSide) : Sends cmd s s :=
  ⟨id, rfl, rfl, ⟨[], .nil _ _, (List.append_nil _).symm, fun _ he => by cases he⟩,
    [], (List.append_nil _).symm, (List.append_nil _).symm⟩

theorem Sends.trans (h₁ : Sends cmd s s') (h₂ : Sends cmd s' s'') : Sends cmd s s'' := by
  obtain ⟨as, hall, hnotes, hcmd⟩ := h₁.does
  obtain ⟨bs, hall', hnotes', hcmd'⟩ := h₂.does
  obtain ⟨ss, hss, hsent⟩ := h₁.sent
  obtain ⟨ts, hts, hsent'⟩ := h₂.sent
  refine ⟨h₂.head ∘ h₁.head, h₂.keepAlive.trans h₁.keepAlive, h₂.closes.trans h₁.closes,
    ⟨as ++ bs, hall.append hall', ?_, ?_⟩, ss ++ ts, ?_, ?_⟩
  · rw [hnotes', hnotes, outs_append, List.map_append, List.append_assoc]
  · intro e he
    rw [outs_append] at he
    exact (List.mem_append.mp he).elim (hcmd e) (hcmd' e)
  · rw [hts, hss, List.append_assoc]
  · rw [hsent', hsent, outsOf_append, List.map_append, List.append_assoc]

theorem sends_send {payload : List UInt8} {key : IntKeyType}
    (hr : s.send payload key env = .ok s') : Sends s.mHead.mCmd s s' := by
  obtain ⟨net, hstep, hr⟩ := bind_eq_ok.mp hr
  obtain rfl := Except.ok.inj hr
  obtain ⟨⟨g, h, r⟩, hsend, hstep⟩ := bind_eq_ok.mp hstep
  obtain rfl := Except.ok.inj hstep
  obtain ⟨as, hall, houts⟩ := doesAll_doSend hsend
  let packet := s.mFakeNetGroup.group.doSendPacket s.mFakeNetGroup.heap (s.sendCall payload key env)
  have hrec : outsOf [⟨s.sendCall payload key env, packet⟩] = outs as := by
    rw [outsOf_singleton, houts, map_doSendPacket]
    rfl
  refine ⟨?_, record_mKeepAlive _ _, ?_, ⟨as, ?_, ?_, ?_⟩, [⟨s.sendCall payload key env, packet⟩], ?_, ?_⟩
  · rw [record_mCmd]
    exact id
  · rw [record_mFakeNetGroup]
  · rw [record_mFakeNetGroup]
    exact hall
  · rw [record_notes, hrec]
  · intro e he
    rw [houts] at he
    obtain ⟨p, -, rfl⟩ := List.mem_map.mp he
    rfl
  · exact record_sends _ _
  · exact record_notes _ _

theorem sends_sendWithCmd {payload : List UInt8} {key : IntKeyType}
    (hr : s.sendWithCmd cmd payload key env = .ok s') : Sends cmd s s' := by
  obtain ⟨s₁, hsend, hr⟩ := bind_eq_ok.mp hr
  obtain rfl := Except.ok.inj hr
  obtain ⟨-, hka, hcl, hdoes, hsent⟩ := sends_send hsend
  exact ⟨fun _ => rfl, hka, hcl, hdoes, hsent⟩

theorem sends_sendNetConnRst {key : IntKeyType} (hr : s.sendNetConnRst o key env = .ok s') :
    Sends EncHead.typeNetconnRst s s' := by
  obtain ⟨p, -, hr⟩ := bind_eq_ok.mp hr
  exact sends_sendWithCmd hr

theorem sends_sendConvRst {conv : UInt32} (hr : s.sendConvRst o conv env = .ok s') :
    Sends EncHead.typeConvRst s s' := by
  obtain ⟨p, -, hr⟩ := bind_eq_ok.mp hr
  exact sends_sendWithCmd hr

theorem sends_sendRequest {key : IntKeyType} (hr : s.sendRequest o key env = .ok s') :
    Sends EncHead.typeKeepAliveReq s s' := by
  obtain ⟨p, -, hr⟩ := bind_eq_ok.mp hr
  exact sends_sendWithCmd hr

theorem sends_sendResponse {key : IntKeyType} (hr : s.sendResponse o key env = .ok s') :
    Sends EncHead.typeKeepAliveResp s s' := by
  obtain ⟨p, -, hr⟩ := bind_eq_ok.mp hr
  exact sends_sendWithCmd hr

theorem sends_sendConvRsts {ups : List (UInt32 × SendEnv)} (hr : sendConvRsts o ups s = .ok s') :
    Sends EncHead.typeConvRst s s' := by
  induction ups generalizing s with
  | nil =>
    obtain rfl := Except.ok.inj hr
    exact Sends.refl _ _
  | cons up ups ih =>
    obtain ⟨s₁, hup, hr⟩ := bind_eq_ok.mp hr
    exact (sends_sendConvRst hup).trans (ih hr)

/-! ## What every operation does to the net group -/

/-- The outputs among the notes. -/
def outputs (ns : List Note) : List (ConnPtr × UInt8) :=
  ns.filterMap fun
    | .output p cmd => some (p, cmd)
    | _ => none

theorem outputs_append (ns ms : List Note) : outputs (ns ++ ms) = outputs ns ++ outputs ms :=
  List.filterMap_append ..

theorem outputs_map_output (l : List (ConnPtr × UInt8)) :
    outputs (l.map fun e => .output e.1 e.2) = l := by
  induction l with
  | nil => rfl
  | cons e l ih => exact congrArg (e :: ·) ih

/-- From `s` to `s'` the net group has only done things to its conns, and all outputs are noted and
    recorded. -/
structure Goes (s s' : NetSide) : Prop where
  head : s.mHead.mCmd = EncHead.typeData → s'.mHead.mCmd = EncHead.typeData
  closes : s'.mFakeNetGroup.closes = s.mFakeNetGroup.closes
  does : ∃ as ns, DoesAll s.mFakeNetGroup.group s.mFakeNetGroup.heap as s'.mFakeNetGroup.group
    s'.mFakeNetGroup.heap ∧ s'.notes = s.notes ++ ns ∧ outputs ns = outs as
  sent : ∃ ss ns, s'.sends = s.sends ++ ss ∧ s'.notes = s.notes ++ ns ∧ outsOf ss = outputs ns

theorem Goes.trans (h₁ : Goes s s') (h₂ : Goes s' s'') : Goes s s'' := by
  obtain ⟨as, ns, hall, hnotes, houts⟩ := h₁.does
  obtain ⟨as', ns', hall', hnotes', houts'⟩ := h₂.does
  obtain ⟨ss, ms, hss, hms, hsent⟩ := h₁.sent
  obtain ⟨ss', ms', hss', hms', hsent'⟩ := h₂.sent
  refine ⟨h₂.head ∘ h₁.head, h₂.closes.trans h₁.closes,
    ⟨as ++ as', ns ++ ns', hall.append hall', ?_, ?_⟩, ss ++ ss', ms ++ ms', ?_, ?_, ?_⟩
  · rw [hnotes', hnotes, List.append_assoc]
  · rw [outputs_append, outs_append, houts, houts']
  · rw [hss', hss, List.append_assoc]
  · rw [hms', hms, List.append_assoc]
  · rw [outsOf_append, outputs_append, hsent, hsent']

theorem Sends.goes (h : Sends cmd s s') : Goes s s' := by
  obtain ⟨as, hall, hnotes, -⟩ := h.does
  obtain ⟨ss, hss, hsent⟩ := h.sent
  exact ⟨h.head, h.closes, ⟨as, _, hall, hnotes, outputs_map_output _⟩, ss, _, hss, hsent,
    (outputs_map_output _).symm⟩

/-- Nothing happens to the net group. -/
theorem goes_of_eq (ns : List Note) (hhead : s'.mHead = s.mHead)
    (hnet : s'.mFakeNetGroup = s.mFakeNetGroup) (hsends : s'.sends = s.sends)
    (hnotes : s'.notes = s.notes ++ ns) (hns : outputs ns = []) : Goes s s' := by
  refine ⟨fun h => by rw [hhead, h], by rw [hnet], ⟨[], ns, ?_, hnotes, hns⟩, [], ns, ?_, hnotes,
    hns.symm⟩
  · rw [hnet]
    exact .nil _ _
  · rw [hsends, List.append_nil]

theorem Goes.refl (s : NetSide) : Goes s s :=
  goes_of_eq [] rfl rfl rfl (List.append_nil _).symm rfl

theorem Goes.ledger (h : Goes s s') (hL : s.mFakeNetGroup.Ledger) : s'.mFakeNetGroup.Ledger := by
  obtain ⟨as, ns, hall, -⟩ := h.does
  have hL' := (ConnLife.ledger_of_moves hL (moves_of_doesAll hall)).1
  rw [← h.closes] at hL'
  exact hL'

theorem Goes.evolves (h : Goes s s') :
    Heap.Evolves NetConn.Like s.mFakeNetGroup.heap s'.mFakeNetGroup.heap := by
  obtain ⟨as, ns, hall, -⟩ := h.does
  exact (keeps_doesAll (P := Any) (fun _ _ _ _ => trivial) hall).evolves

theorem Goes.isOld_iff {ns : List Note} (h : Goes s s') (hns : s'.notes = s.notes ++ ns)
    (p : ConnPtr) :
    IsOld s'.mFakeNetGroup.heap p ↔
      IsOld s.mFakeNetGroup.heap p ∨ ∃ cmd, (p, cmd) ∈ outputs ns := by
  obtain ⟨as, ms, hall, hnotes, houts⟩ := h.does
  obtain rfl : ms = ns := List.append_cancel_left (hnotes.symm.trans hns)
  rw [isOld_doesAll hall, houts]

/-! ## Received packets and errors -/

/-- From `s` to `s'` nothing but control packets have been sent. -/
structure Answers (s s' : NetSide) : Prop where
  goes : Goes s s'
  keepAlive : s'.mKeepAlive = s.mKeepAlive
  notes : ∃ l : List (ConnPtr × UInt8), s'.notes = s.notes ++ l.map (fun e => .output e.1 e.2) ∧
    ∀ e ∈ l, e.2 ≠ EncHead.typeData

theorem Answers.refl (s : NetSide) : Answers s s :=
  ⟨Goes.refl s, rfl, [], (List.append_nil _).symm, by simp⟩

theorem Answers.trans (h₁ : Answers s s') (h₂ : Answers s' s'') : Answers s s'' := by
  obtain ⟨l, hl, hcmd⟩ := h₁.notes
  obtain ⟨l', hl', hcmd'⟩ := h₂.notes
  refine ⟨h₁.goes.trans h₂.goes, h₂.keepAlive.trans h₁.keepAlive, l ++ l', ?_, ?_⟩
  · rw [hl', hl, List.map_append, List.append_assoc]
  · intro e he
    exact (List.mem_append.mp he).elim (hcmd e) (hcmd' e)

theorem Sends.answers (h : Sends cmd s s') (hcmd : cmd ≠ EncHead.typeData) : Answers s s' := by
  obtain ⟨as, -, hnotes, hall⟩ := h.does
  refine ⟨h.goes, h.keepAlive, outs as, hnotes, ?_⟩
  intro e he
  rw [hall e he]
  exact hcmd

/-- Only conns are changed, and nothing is output. -/
theorem answers_of_doesAll {h' : Heap NetConn} {as : List ConnAct}
    (hall : DoesAll s.mFakeNetGroup.group s.mFakeNetGroup.heap as s.mFakeNetGroup.group h')
    (houts : outs as = []) : Answers s { s with mFakeNetGroup.heap := h' } :=
  ⟨⟨id, rfl, ⟨as, [], hall, (List.append_nil _).symm, houts.symm⟩, [], [],
      (List.append_nil _).symm, (List.append_nil _).symm, rfl⟩, rfl, [],
    (List.append_nil _).symm, by simp⟩

theorem answers_netInput {info : Info} {connKey : IntKeyType} {ups : List (UInt32 × SendEnv)}
    {n n' : Int} (hr : s.netInput o info connKey ups n = .ok (s', n')) : Answers s s' := by
  obtain ⟨conn, -, hr⟩ := bind_eq_ok.mp hr
  cases conn with
  | some p =>
    obtain ⟨s₁, hups, hr⟩ := bind_eq_ok.mp hr
    obtain ⟨c, hc, hr⟩ := bind_eq_ok.mp hr
    obtain ⟨⟨c', n₁⟩, hrecv, hr⟩ := bind_eq_ok.mp hr
    cases hr
    refine ((sends_sendConvRsts hups).answers (by decide)).trans ?_
    exact answers_of_doesAll (.single (.onRecv (Heap.deref_eq_ok.mp hc) hrecv)) rfl
  | none =>
    obtain ⟨s₁, hups, hr⟩ := bind_eq_ok.mp hr
    cases hr
    exact (sends_sendConvRsts hups).answers (by decide)

theorem answers_onRecvNetConnRst {h' : Heap NetConn} {key : IntKeyType} {b : Bool}
    (hr : IAppGroup.onRecvNetConnRst s.mFakeNetGroup.group s.mFakeNetGroup.heap key = .ok (h', b)) :
    Answers s { s with mFakeNetGroup.heap := h' } := by
  obtain ⟨as, hall, houts⟩ := doesAll_notifyErr hr
  exact answers_of_doesAll hall houts

theorem answers_processTcpFinOrRst {info : TcpInfo} {h' : Heap NetConn} {b : Bool}
    (hr : IAppGroup.processTcpFinOrRst s.mFakeNetGroup.group s.mFakeNetGroup.heap info =
      .ok (h', b)) : Answers s { s with mFakeNetGroup.heap := h' } := by
  obtain ⟨key, -, hr⟩ := bind_eq_ok.mp hr
  obtain ⟨conn, -, hr⟩ := bind_eq_ok.mp hr
  cases conn with
  | some p =>
    obtain ⟨c, -, hr⟩ := bind_eq_ok.mp hr
    exact answers_onRecvNetConnRst hr
  | none =>
    cases hr
    exact Answers.refl s

/-- A received packet is answered, or it is a response and clears the record of its key. -/
theorem input_cases {info : Info} {payload : List UInt8} {ups : List (UInt32 × SendEnv)} {n : Int}
    (hr : s.input o info payload ups n env = .ok s') :
    Answers s s' ∨ ∃ key,
      s' = { s with mKeepAlive := s.mKeepAlive.removeRequest key }.note (.response key) := by
  unfold input at hr
  split at hr
  · cases hr
  next head _ =>
  split at hr
  · obtain ⟨⟨s₁, n₁⟩, hin, hr⟩ := bind_eq_ok.mp hr
    have hans : Answers s s₁ := answers_netInput hin
    dsimp only at hr
    split at hr
    · exact .inl (hans.trans ((sends_sendNetConnRst hr).answers (by decide)))
    · obtain rfl := Except.ok.inj hr
      exact .inl hans
  split at hr
  · obtain ⟨key, -, hr⟩ := bind_eq_ok.mp hr
    cases key with
    | some key =>
      obtain ⟨⟨h', b⟩, hrst, hr⟩ := bind_eq_ok.mp hr
      obtain rfl := Except.ok.inj hr
      exact .inl (answers_onRecvNetConnRst hrst)
    | none =>
      obtain rfl := Except.ok.inj hr
      exact .inl (Answers.refl s)
  split at hr
  · obtain ⟨key, -, hr⟩ := bind_eq_ok.mp hr
    cases key with
    | none =>
      obtain rfl := Except.ok.inj hr
      exact .inl (Answers.refl s)
    | some key =>
      dsimp only at hr
      split at hr
      · obtain ⟨conn, -, hr⟩ := bind_eq_ok.mp hr
        cases conn with
        | some p => exact .inl ((sends_sendResponse hr).answers (by decide))
        | none => exact .inl ((sends_sendNetConnRst hr).answers (by decide))
      · split at hr
        · obtain ⟨_, -, hr⟩ := bind_eq_ok.mp hr
          obtain rfl := Except.ok.inj hr
          exact .inr ⟨key, rfl⟩
        · obtain rfl := Except.ok.inj hr
          exact .inl (Answers.refl s)
  · obtain rfl := Except.ok.inj hr
    exact .inl (Answers.refl s)

theorem answers_flush (hL : s.mFakeNetGroup.Ledger) (hr : s.netStep .flush = .ok s') :
    Answers s s' := by
  obtain ⟨net, hstep, hr⟩ := bind_eq_ok.mp hr
  obtain ⟨g', hflush, hstep⟩ := bind_eq_ok.mp hstep
  obtain rfl := Except.ok.inj hstep
  obtain rfl := Except.ok.inj hr
  obtain ⟨as, hall, houts⟩ := doesAll_flush hL.inv hflush
  exact ⟨⟨id, rfl, ⟨as, [], hall, (List.append_nil _).symm, houts.symm⟩, [], [],
      (List.append_nil _).symm, (List.append_nil _).symm, rfl⟩, rfl, [],
    (List.append_nil _).symm, by simp⟩

theorem answers_onTcpError {p : ConnPtr} (hr : s.netStep (.onTcpError p) = .ok s') :
    Answers s s' := by
  obtain ⟨net, hstep, hr⟩ := bind_eq_ok.mp hr
  obtain rfl := Except.ok.inj hr
  rw [ConnLife.step] at hstep
  split at hstep
  · obtain rfl := Except.ok.inj hstep
    exact Answers.refl s
  · obtain ⟨h', herr, hstep⟩ := bind_eq_ok.mp hstep
    obtain rfl := Except.ok.inj hstep
    obtain ⟨c, hc, herr⟩ := bind_eq_ok.mp herr
    cases c with
    | fakeTcp c =>
      obtain rfl := Except.ok.inj herr
      exact answers_of_doesAll (.single (.notifyErr (Heap.deref_eq_ok.mp hc))) rfl
    | fakeUdp c => cases herr

end NetSide

end Rsock
