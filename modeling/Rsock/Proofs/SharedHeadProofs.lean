import Rsock.SharedHead
import Rsock.Proofs.NewConnProofs

/-!
# Proofs: the shared header

The header of a group is a data header whenever no call is under way (`Hands.data`), so a conn that only
writes its conversation still sends data, and every control call puts the command back. The key need not
be restored: it is written anew for every packet. What is handed to `doSend` is what the notes say: a
request has the command and the key it was noted with (`requests_sent`).
-/

namespace Rsock

open CMem TransSys INetGroup

namespace NetSide

variable {s s' s'' : NetSide} {cmd : UInt8} {o : ByteOrder} {env : SendEnv} {P Q : EncHead → Prop}

/-! ## The calls of `doSend` -/

/-- The keys of the requests among the notes. -/
def requests (ns : List Note) : List IntKeyType :=
  ns.filterMap fun
    | .request _ key => some key
    | _ => none

/-- The packet is a keep-alive request. -/
def IsRequest (e : SentCall) : Prop := e.call.hd.mCmd = EncHead.typeKeepAliveReq

instance decidableIsRequest (e : SentCall) : Decidable (IsRequest e) :=
  inferInstanceAs (Decidable (_ = _))

/-- The call is a keepalive request for the key, which is its payload. -/
structure RequestFor (key : IntKeyType) (e : SentCall) : Prop where
  cmd : e.call.hd.mCmd = EncHead.typeKeepAliveReq
  anyConn : e.call.keyOfConnToReset = 0
  payload : ∃ o p, KeyGenerator.encodeKey o (Cursor.start 32) key = .ok p ∧
    e.call.payload = p.written

theorem requests_append (ns ms : List Note) : requests (ns ++ ms) = requests ns ++ requests ms :=
  List.filterMap_append

theorem requests_map_output (l : List (ConnPtr × UInt8)) :
    requests (l.map fun e => .output e.1 e.2) = [] := by
  rw [requests, List.filterMap_eq_nil_iff]
  intro n hn
  obtain ⟨e, -, rfl⟩ := List.mem_map.mp hn
  rfl

/-- From `s` to `s'` only headers with `P` have been handed to `doSend`, with the id of the group, and
    a request for every one that is noted. -/
structure Hands (P : EncHead → Prop) (s s' : NetSide) : Prop where
  id : s'.mHead.mIdBuf = s.mHead.mIdBuf
  data : s.mHead.mCmd = EncHead.typeData → s'.mHead.mCmd = EncHead.typeData
  sent : ∃ ss ns, s'.sends = s.sends ++ ss ∧ s'.notes = s.notes ++ ns ∧
    (∀ e ∈ ss, SentRight e ∧ e.call.hd.mIdBuf = s.mHead.mIdBuf ∧ P e.call.hd) ∧
    List.Forall₂ RequestFor (requests ns) (ss.filter IsRequest)

/-- Nothing is handed to `doSend`, and no request noted. -/
theorem hands_of_eq (ns : List Note) (hhead : s'.mHead = s.mHead) (hsends : s'.sends = s.sends)
    (hnotes : s'.notes = s.notes ++ ns) (hns : requests ns = []) : Hands P s s' := by
  refine ⟨by rw [hhead], fun h => by rw [hhead, h], [], ns, ?_, hnotes, by simp, ?_⟩
  · rw [hsends, List.append_nil]
  · rw [hns]
    exact .nil

theorem Hands.refl (P : EncHead → Prop) (s : NetSide) : Hands P s s :=
  hands_of_eq [] rfl rfl (List.append_nil _).symm rfl

theorem Hands.trans (h₁ : Hands P s s') (h₂ : Hands P s' s'') : Hands P s s'' := by
  obtain ⟨ss, ns, hss, hns, hall, hreq⟩ := h₁.sent
  obtain ⟨ts, ms, hts, hms, hall', hreq'⟩ := h₂.sent
  refine ⟨h₂.id.trans h₁.id, h₂.data ∘ h₁.data, ss ++ ts, ns ++ ms, ?_, ?_, ?_, ?_⟩
  · rw [hts, hss, List.append_assoc]
  · rw [hms, hns, List.append_assoc]
  · intro e he
    rcases List.mem_append.mp he with he | he
    · exact hall e he
    · obtain ⟨hright, hid, hP⟩ := hall' e he
      exact ⟨hright, hid.trans h₁.id, hP⟩
  · rw [requests_append, List.filter_append]
    exact List.rel_append hreq hreq'

/-- A weaker condition holds of what was handed over, too. -/
theorem Hands.mono (h : Hands P s s') (hPQ : ∀ hd, P hd → Q hd) : Hands Q s s' := by
  obtain ⟨ss, ns, hss, hns, hall, hreq⟩ := h.sent
  refine ⟨h.id, h.data, ss, ns, hss, hns, ?_, hreq⟩
  intro e he
  obtain ⟨hright, hid, hP⟩ := hall e he
  exact ⟨hright, hid, hPQ _ hP⟩

/-- One call that is no request. -/
theorem Calls.hands {call : OutCall} (h : Calls call s s')
    (hdata : s.mHead.mCmd = EncHead.typeData → s'.mHead.mCmd = EncHead.typeData)
    (hid : call.hd.mIdBuf = s.mHead.mIdBuf) (hP : P call.hd)
    (hcmd : call.hd.mCmd ≠ EncHead.typeKeepAliveReq) : Hands P s s' := by
  obtain ⟨l, hnotes⟩ := h.notes
  refine ⟨h.id, hdata, _, _, h.sends, hnotes, ?_, ?_⟩
  · intro e he
    obtain rfl := List.mem_singleton.mp he
    exact ⟨sentRight_doSendPacket _ _ _, hid, hP⟩
  · have hnone : ¬ IsRequest ⟨call, s.mFakeNetGroup.group.doSendPacket s.mFakeNetGroup.heap call⟩ :=
      hcmd
    rw [requests_map_output, List.filter_singleton, decide_eq_false hnone]
    exact .nil

/-- `SendData` hands over a data packet with the conv of its caller. -/
theorem hands_sendData {conv : UInt32} {payload : List UInt8} (hd : s.mHead.mCmd = EncHead.typeData)
    (hr : s.sendData conv payload env = .ok s') :
    Hands (fun hd => hd.mCmd = EncHead.typeData ∧ hd.mConv = conv) s s' := by
  have hsends := sends_send hr
  obtain ⟨hid, hcall, hnotes⟩ := calls_send hr
  refine Calls.hands ⟨hid, hcall, hnotes⟩ hsends.head rfl ⟨hd, rfl⟩ ?_
  show s.mHead.mCmd ≠ EncHead.typeKeepAliveReq
  rw [hd]
  decide

/-- `SendWithCmd` hands over a packet with the command of its caller. -/
theorem hands_sendWithCmd {payload : List UInt8} {key : IntKeyType}
    (hcmd : cmd ≠ EncHead.typeKeepAliveReq) (hr : s.sendWithCmd cmd payload key env = .ok s') :
    Hands (·.mCmd = cmd) s s' :=
  (calls_sendWithCmd hr).hands (sends_sendWithCmd hr).head rfl rfl hcmd

/-- `SendNetConnRst` hands over a reset of a net conn. -/
theorem hands_sendNetConnRst {key : IntKeyType} (hr : s.sendNetConnRst o key env = .ok s') :
    Hands (·.mCmd = EncHead.typeNetconnRst) s s' := by
  obtain ⟨p, -, hr⟩ := bind_eq_ok.mp hr
  exact hands_sendWithCmd (by decide) hr

/-- `SendResponse` hands over a keep-alive response. -/
theorem hands_sendResponse {key : IntKeyType} (hr : s.sendResponse o key env = .ok s') :
    Hands (·.mCmd = EncHead.typeKeepAliveResp) s s' := by
  obtain ⟨p, -, hr⟩ := bind_eq_ok.mp hr
  exact hands_sendWithCmd (by decide) hr

/-- Every conv without a conn is answered with a reset of the conv. -/
theorem hands_sendConvRsts {ups : List (UInt32 × SendEnv)} (hr : sendConvRsts o ups s = .ok s') :
    Hands (·.mCmd = EncHead.typeConvRst) s s' := by
  induction ups generalizing s with
  | nil =>
    obtain rfl := Except.ok.inj hr
    exact Hands.refl _ _
  | cons up ups ih =>
    obtain ⟨s₁, hup, hr⟩ := bind_eq_ok.mp hr
    obtain ⟨p, -, hup⟩ := bind_eq_ok.mp hup
    have hhead : Hands (·.mCmd = EncHead.typeConvRst) s s₁ := hands_sendWithCmd (by decide) hup
    exact hhead.trans (ih hr)

/-- The command of what an input is answered with. -/
def IsAnswer (hd : EncHead) : Prop :=
  hd.mCmd = EncHead.typeConvRst ∨ hd.mCmd = EncHead.typeNetconnRst ∨
    hd.mCmd = EncHead.typeKeepAliveResp

/-- The packets sent while one is received are resets of convs. -/
theorem hands_netInput {info : Info} {connKey : IntKeyType} {ups : List (UInt32 × SendEnv)}
    {n n' : Int} (hr : s.netInput o info connKey ups n = .ok (s', n')) :
    Hands (·.mCmd = EncHead.typeConvRst) s s' := by
  obtain ⟨conn, -, hr⟩ := bind_eq_ok.mp hr
  cases conn with
  | some p =>
    obtain ⟨s₁, hups, hr⟩ := bind_eq_ok.mp hr
    obtain ⟨c, -, hr⟩ := bind_eq_ok.mp hr
    obtain ⟨r, -, hr⟩ := bind_eq_ok.mp hr
    obtain ⟨rfl, -⟩ := Prod.mk.inj (Except.ok.inj hr)
    obtain ⟨hid, hdata, hsent⟩ := hands_sendConvRsts hups
    exact ⟨hid, hdata, hsent⟩
  | none =>
    obtain ⟨s₁, hups, hr⟩ := bind_eq_ok.mp hr
    obtain ⟨rfl, -⟩ := Prod.mk.inj (Except.ok.inj hr)
    exact hands_sendConvRsts hups

/-- A keep-alive packet is answered with an answer, or not at all. -/
theorem hands_keepAliveInput {payload : List UInt8}
    (hr : s.keepAliveInput o cmd payload env = .ok s') : Hands IsAnswer s s' := by
  obtain ⟨key, -, hr⟩ := bind_eq_ok.mp hr
  cases key with
  | none =>
    obtain rfl := Except.ok.inj hr
    exact Hands.refl _ _
  | some key =>
    dsimp only at hr
    split at hr
    · obtain ⟨conn, -, hr⟩ := bind_eq_ok.mp hr
      cases conn with
      | some p => exact (hands_sendResponse hr).mono fun hd h => .inr (.inr h)
      | none => exact (hands_sendNetConnRst hr).mono fun hd h => .inr (.inl h)
    · split at hr
      · obtain ⟨conn, -, hr⟩ := bind_eq_ok.mp hr
        obtain rfl := Except.ok.inj hr
        exact hands_of_eq [.response key] rfl rfl rfl rfl
      · obtain rfl := Except.ok.inj hr
        exact Hands.refl _ _

/-- Every packet is answered with an answer, or not at all. -/
theorem hands_input {info : Info} {payload : List UInt8} {ups : List (UInt32 × SendEnv)} {n : Int}
    (hr : s.input o info payload ups n env = .ok s') : Hands IsAnswer s s' := by
  unfold input at hr
  split at hr
  · cases hr
  split at hr
  · obtain ⟨⟨s₁, n₁⟩, hin, hr⟩ := bind_eq_ok.mp hr
    have hin' : Hands IsAnswer s s₁ := (hands_netInput hin).mono fun hd h => .inl h
    dsimp only at hr
    split at hr
    · exact hin'.trans ((hands_sendNetConnRst hr).mono fun hd h => .inr (.inl h))
    · obtain rfl := Except.ok.inj hr
      exact hin'
  split at hr
  · obtain ⟨key, -, hr⟩ := bind_eq_ok.mp hr
    cases key with
    | some key =>
      obtain ⟨r, -, hr⟩ := bind_eq_ok.mp hr
      obtain rfl := Except.ok.inj hr
      exact hands_of_eq [] rfl rfl (List.append_nil _).symm rfl
    | none =>
      obtain rfl := Except.ok.inj hr
      exact Hands.refl _ _
  split at hr
  · exact hands_keepAliveInput hr
  · obtain rfl := Except.ok.inj hr
    exact Hands.refl _ _

/-! ### `OnFlush` -/

/-- Dropping the requests of conns that are gone changes the requests only. -/
theorem removeInvalidRequest_eq {keys : List IntKeyType}
    (hr : removeInvalidRequest keys s = .ok s') : ∃ ka, s' = { s with mKeepAlive := ka } := by
  induction keys generalizing s with
  | nil =>
    obtain rfl := Except.ok.inj hr
    exact ⟨_, rfl⟩
  | cons key keys ih =>
    obtain ⟨conn, -, hr⟩ := bind_eq_ok.mp hr
    cases conn with
    | some p => exact ih hr
    | none =>
      obtain ⟨ka, rfl⟩ := ih hr
      exact ⟨ka, rfl⟩

/-- The note and the call of one request. -/
theorem hands_sendRequest {key : IntKeyType} {p : ConnPtr} {ka : NetConnKeepAlive} (ns : List Note)
    (hns : requests ns = [])
    (hr : NetSide.sendRequest { s with mKeepAlive := ka, notes := s.notes ++ ns ++ [.request p key] }
      o key env = .ok s') : Hands (·.mCmd = EncHead.typeKeepAliveReq) s s' := by
  obtain ⟨q, hq, hr⟩ := bind_eq_ok.mp hr
  have hhead := (sends_sendWithCmd hr).head
  obtain ⟨hid, hsends, l, hnotes⟩ := calls_sendWithCmd hr
  refine ⟨hid, hhead, _, ns ++ [.request p key] ++ l.map fun e => .output e.1 e.2, hsends, ?_, ?_, ?_⟩
  · rw [hnotes]
    simp only [List.append_assoc]
  · intro e he
    obtain rfl := List.mem_singleton.mp he
    exact ⟨sentRight_doSendPacket _ _ _, rfl, rfl⟩
  · rw [requests_append, requests_append, hns, requests_map_output]
    exact .cons ⟨rfl, rfl, o, q, hq, rfl⟩ .nil

/-- A request hands over a keep-alive request. -/
theorem hands_request {p : ConnPtr} {key : IntKeyType} (hr : s.request o p key env = .ok s') :
    Hands (·.mCmd = EncHead.typeKeepAliveReq) s s' := by
  unfold request at hr
  dsimp only at hr
  cases hget : (s.note (.canSend key)).mKeepAlive.mReqMap.get? key with
  | some n =>
    rw [hget] at hr
    dsimp only at hr
    split at hr
    · exact hands_sendRequest [.canSend key] rfl hr
    · obtain rfl := Except.ok.inj hr
      exact hands_of_eq [.canSend key] rfl rfl rfl rfl
  | none =>
    rw [hget] at hr
    exact hands_sendRequest [.canSend key] rfl hr

/-- The loop over the conns hands over keep-alive requests only. -/
theorem hands_requestLoop {timestamp : UInt64} {env : IntKeyType → SendEnv} {ps : List ConnPtr}
    (hr : requestLoop o timestamp env ps s = .ok s') :
    Hands (·.mCmd = EncHead.typeKeepAliveReq) s s' := by
  induction ps generalizing s with
  | nil =>
    obtain rfl := Except.ok.inj hr
    exact Hands.refl _ _
  | cons p ps ih =>
    obtain ⟨conn, -, hr⟩ := bind_eq_ok.mp hr
    split at hr
    · obtain ⟨s₁, hreq, hr⟩ := bind_eq_ok.mp hr
      exact (hands_request hreq).trans (ih hr)
    · exact ih hr

/-- The loop over the requests that timed out hands over nothing. -/
theorem hands_timeoutLoop {l : List (IntKeyType × Int)} (hr : timeoutLoop l s = .ok s') :
    Hands P s s' := by
  induction l generalizing s with
  | nil =>
    obtain rfl := Except.ok.inj hr
    exact Hands.refl _ _
  | cons e l ih =>
    unfold timeoutLoop at hr
    split at hr
    · obtain ⟨⟨h, b⟩, -, hr⟩ := bind_eq_ok.mp hr
      refine Hands.trans ?_ (ih hr)
      exact hands_of_eq [.timeout e.1 b] rfl rfl rfl rfl
    · exact ih hr

/-- `OnFlush` hands over keep-alive requests only. -/
theorem hands_onFlush {timestamp : UInt64} {env : IntKeyType → SendEnv}
    (hr : s.onFlush o timestamp env = .ok s') :
    Hands (·.mCmd = EncHead.typeKeepAliveReq) s s' := by
  obtain ⟨s₁, hrm, hr⟩ := bind_eq_ok.mp hr
  have hbegin : Hands (·.mCmd = EncHead.typeKeepAliveReq) s s₁ := by
    obtain ⟨ka, rfl⟩ := removeInvalidRequest_eq hrm
    exact hands_of_eq [.flush (s.mFakeNetGroup.group.mConnMap.entries.map Prod.fst)] rfl rfl rfl rfl
  split at hr
  · obtain ⟨s₂, hreq, hr⟩ := bind_eq_ok.mp hr
    exact (hbegin.trans (hands_requestLoop hreq)).trans (hands_timeoutLoop hr)
  · obtain rfl := Except.ok.inj hr
    exact hbegin

/-! ### Any event -/

/-- The headers an event hands to `doSend`. -/
def Event.Heads : Event → EncHead → Prop
  | .sendData conv _ _ => fun hd => hd.mCmd = EncHead.typeData ∧ hd.mConv = conv
  | .input _ _ _ _ _ _ => IsAnswer
  | .onFlush _ _ _ => (·.mCmd = EncHead.typeKeepAliveReq)
  | _ => fun _ => False

/-- The key is written into the header later. -/
theorem heads_setConnKey {e : Event} {hd : EncHead} {key : IntKeyType} (h : e.Heads hd) :
    e.Heads (hd.setConnKey key) := by
  cases e <;> exact h

/-- What happens to the conns hands over nothing. -/
theorem hands_netStep {e : ConnLife.Event} (hr : s.netStep e = .ok s') : Hands P s s' := by
  obtain ⟨net, -, hr⟩ := bind_eq_ok.mp hr
  obtain rfl := Except.ok.inj hr
  exact hands_of_eq [] rfl rfl (List.append_nil _).symm rfl

/-- An event that sends no data. -/
def Event.NoData : Event → Prop
  | .sendData _ _ _ => False
  | _ => True

theorem Event.NoData.not_data {e : Event} (he : e.NoData) {hd : EncHead} (h : e.Heads hd) :
    hd.mCmd ≠ EncHead.typeData := by
  cases e with
  | sendData conv payload env => exact he.elim
  | input o info payload ups n env =>
    rcases h with h | h | h <;> rw [h] <;> decide
  | onFlush o timestamp env =>
    have hreq : hd.mCmd = EncHead.typeKeepAliveReq := h
    rw [hreq]
    decide
  | _ => exact h.elim

/-- An event without data hands over packets with its own headers, whatever command was left before. -/
theorem hands_noData {e : Event} (he : e.NoData) (hr : s.step e = .ok s') : Hands e.Heads s s' := by
  cases e with
  | addNetConn conn => exact hands_netStep hr
  | sendData conv payload env => exact he.elim
  | input o info payload ups n env => exact hands_input hr
  | processTcpFinOrRst info =>
    obtain ⟨r, -, hr⟩ := bind_eq_ok.mp hr
    obtain rfl := Except.ok.inj hr
    exact hands_of_eq [] rfl rfl (List.append_nil _).symm rfl
  | onTcpError p => exact hands_netStep hr
  | flush => exact hands_netStep hr
  | handleMessage => exact hands_netStep hr
  | onFlush o timestamp env => exact hands_onFlush hr
  | onNetConnected =>
    obtain rfl := Except.ok.inj hr
    exact hands_of_eq [.route] rfl rfl rfl rfl
  | onNetDisconnected =>
    obtain rfl := Except.ok.inj hr
    exact hands_of_eq [.route] rfl rfl rfl rfl

/-- An event hands over packets with its own headers. -/
theorem hands_step {e : Event} (hd : s.mHead.mCmd = EncHead.typeData) (hr : s.step e = .ok s') :
    Hands e.Heads s s' := by
  cases e with
  | sendData conv payload env => exact hands_sendData hd hr
  | _ => exact hands_noData trivial hr

/-- In every run the requests that are noted are the packets with this command that are handed to
    `doSend`, and each has the key it was noted with as its payload. -/
theorem requests_sent (id : IdBufType) (es : List Event) (s : NetSide)
    (hr : run step (new id) es = .ok s) :
    List.Forall₂ RequestFor (requests s.notes) (s.sends.filter IsRequest) := by
  have hI : s.mHead.mCmd = EncHead.typeData ∧
      List.Forall₂ RequestFor (requests s.notes) (s.sends.filter IsRequest) := by
    refine run_invariant (J := fun s : NetSide => s.mHead.mCmd = EncHead.typeData ∧
      List.Forall₂ RequestFor (requests s.notes) (s.sends.filter IsRequest)) ?_ ⟨rfl, .nil⟩ hr
    rintro s e s' ⟨hd, hall⟩ hstep
    obtain ⟨-, hdata, ss, ns, hss, hns, -, hreq⟩ := hands_step hd hstep
    refine ⟨hdata hd, ?_⟩
    rw [hns, hss, requests_append, List.filter_append]
    exact List.rel_append hall hreq
  exact hI.2

end NetSide

/-! ## Every packet of a run -/

namespace SharedHead

open NetSide

variable {s s' : SharedHead} {c : Call} {pkt : OutPacket}

/-- The header is the one the call has to send. -/
def Call.Carries : Call → EncHead → Prop
  | .connSend conv _ _ => fun hd => hd.mCmd = EncHead.typeData ∧ hd.mConv = conv
  | .doSendCmd cmd _ _ => (·.mCmd = cmd)
  | .sendNetConnReset _ _ _ => (·.mCmd = EncHead.typeNetconnRst)
  | .other e => e.Heads

/-- The packet goes out with the addresses of its conn, and with a header that is right for the call
    and has the key of the conn. -/
def Fresh (c : Call) (pkt : OutPacket) : Prop :=
  ∃ hd, pkt.info = pkt.conn.getInfo.setHead hd ∧ hd.mConnKey = pkt.conn.intKey ∧ c.Carries hd

/-- The calls of `doSend` from `s` to `s'` have right packets, and headers with `P`. -/
def Made (P : EncHead → Prop) (s s' : NetSide) : Prop :=
  ∃ ss, s'.sends = s.sends ++ ss ∧ ∀ e ∈ ss, SentRight e ∧ P e.call.hd

theorem made_of_hands {P : EncHead → Prop} {net net' : NetSide} (h : Hands P net net') :
    Made P net net' := by
  obtain ⟨ss, -, hss, -, hall, -⟩ := h.sent
  exact ⟨ss, hss, fun e he => ⟨(hall e he).1, (hall e he).2.2⟩⟩

theorem made_of_calls {P : EncHead → Prop} {net net' : NetSide} {o : OutCall}
    (h : Calls o net net') (hP : P o.hd) : Made P net net' := by
  refine ⟨_, h.sends, fun e he => ?_⟩
  obtain rfl := List.mem_singleton.mp he
  exact ⟨sentRight_doSendPacket _ _ _, hP⟩

/-- What a call does to the net side: it hands over what it has to, and the group sends something or
    gets or loses a conn. -/
theorem netCall_spec {net net' : NetSide} (hI : NetSide.Inv net)
    (hd : net.mHead.mCmd = EncHead.typeData) (hr : netCall net c = .ok net') :
    Made c.Carries net net' ∧ NetSide.Inv net' ∧ net'.mHead.mCmd = EncHead.typeData ∧
      (Talks net net' ∨ Conns net net') := by
  cases c with
  | connSend conv payload env =>
    have hhands := hands_sendData hd hr
    exact ⟨made_of_hands hhands, inv_step (e := .sendData conv payload env) hI hr, hhands.data hd,
      .inl (talks_sendData hr)⟩
  | doSendCmd cmd payload env =>
    have hsends := sends_sendWithCmd hr
    exact ⟨made_of_calls (calls_sendWithCmd hr) rfl, hsends.inv hI, hsends.head hd, .inl hsends.talks⟩
  | sendNetConnReset payload key env =>
    have hsends := sends_sendWithCmd hr
    exact ⟨made_of_calls (calls_sendWithCmd hr) rfl, hsends.inv hI, hsends.head hd, .inl hsends.talks⟩
  | other e =>
    have hhands := hands_step hd hr
    exact ⟨made_of_hands hhands, inv_step hI hr, hhands.data hd, step_cases hI hr⟩

/-- The header is a data header, no packet had a wrong one, and the packets are all that has been
    output. -/
structure Inv (s : SharedHead) : Prop where
  inv : NetSide.Inv s.net
  head : s.net.mHead.mCmd = EncHead.typeData
  unused : NewUnused s.net
  old : ∀ p, IsOld s.net.mFakeNetGroup.heap p → ∃ cmd, (p, cmd) ∈ outputs s.net.notes
  sends : outsOf s.net.sends = outputs s.net.notes
  packets : s.packets.map Prod.snd = s.net.sends.filterMap SentCall.packet
  fresh : ∀ e ∈ s.packets, Fresh e.1 e.2

/-- The invariant holds before the first call. -/
theorem inv_new (id : IdBufType) : Inv { net := NetSide.new id } where
  inv := NetSide.inv_new id
  head := rfl
  unused := (newInv_new id).unused
  old := by
    rintro p ⟨c, hc, -⟩
    cases hc
  sends := rfl
  packets := rfl
  fresh := by
    intro e he
    cases he

theorem old_of_talks {net net' : NetSide} (h : Talks net net')
    (hold : ∀ p, IsOld net.mFakeNetGroup.heap p → ∃ cmd, (p, cmd) ∈ outputs net.notes) :
    ∀ p, IsOld net'.mFakeNetGroup.heap p → ∃ cmd, (p, cmd) ∈ outputs net'.notes := by
  obtain ⟨ns, hns, -⟩ := h.notes
  intro p hp
  rw [hns, outputs_append]
  rcases (h.goes.isOld_iff hns p).mp hp with hp | ⟨cmd, hcmd⟩
  · obtain ⟨cmd, hcmd⟩ := hold p hp
    exact ⟨cmd, List.mem_append_left _ hcmd⟩
  · exact ⟨cmd, List.mem_append_right _ hcmd⟩

theorem old_of_conns {net net' : NetSide} (h : Conns net net')
    (hold : ∀ p, IsOld net.mFakeNetGroup.heap p → ∃ cmd, (p, cmd) ∈ outputs net.notes) :
    ∀ p, IsOld net'.mFakeNetGroup.heap p → ∃ cmd, (p, cmd) ∈ outputs net'.notes := by
  rintro p ⟨c, hc, hnew⟩
  rw [h.notes]
  rcases h.conn p c hc with hc | ⟨-, hnew'⟩
  · exact hold p ⟨c, hc, hnew⟩
  · rw [hnew] at hnew'
    cases hnew'

/-- A call of one of the three users of the header keeps the invariant. -/
theorem inv_call (hI : Inv s) (hr : s.call c = .ok s') : Inv s' := by
  obtain ⟨net, hcall, hr⟩ := bind_eq_ok.mp hr
  obtain rfl := Except.ok.inj hr
  obtain ⟨⟨ss, hss, hall⟩, hinv, hhead, hdoes⟩ := netCall_spec hI.inv hI.head hcall
  have hnew : net.sends.drop s.net.sends.length = ss := by rw [hss, List.drop_left]
  have hsame : (NewUnused net ∧ (∀ p, IsOld net.mFakeNetGroup.heap p →
      ∃ cmd, (p, cmd) ∈ outputs net.notes)) ∧ outsOf net.sends = outputs net.notes := by
    rcases hdoes with htalks | hconns
    · refine ⟨⟨htalks.newUnused hI.inv.ledger hI.unused, old_of_talks htalks hI.old⟩, ?_⟩
      obtain ⟨ts, ns, hts, hns, hsent⟩ := htalks.goes.sent
      rw [hts, hns, outsOf_append, outputs_append, hI.sends, hsent]
    · refine ⟨⟨hconns.newUnused hI.unused, old_of_conns hconns hI.old⟩, ?_⟩
      rw [hconns.sends, hconns.notes, hI.sends]
  refine ⟨hinv, hhead, hsame.1.1, hsame.1.2, hsame.2, ?_, ?_⟩
  · rw [hnew, List.map_append, hI.packets, hss, List.filterMap_append]
    simp [Function.comp_def]
  · intro e he
    rw [hnew] at he
    rcases List.mem_append.mp he with he | he
    · exact hI.fresh e he
    · obtain ⟨pkt, hpkt, rfl⟩ := List.mem_map.mp he
      obtain ⟨sent, hsent, hpkt⟩ := List.mem_filterMap.mp hpkt
      obtain ⟨hright, hcarries⟩ := hall sent hsent
      refine ⟨sent.call.hd.setConnKey pkt.conn.intKey, (hright pkt hpkt).1, rfl, ?_⟩
      cases c with
      | connSend conv payload env => exact hcarries
      | doSendCmd cmd payload env => exact hcarries
      | sendNetConnReset payload key env => exact hcarries
      | other e => exact heads_setConnKey hcarries

/-- After any calls, whether their packets were sent or not, the header of the group is a data header
    again, and every packet has left with the command, the conversation and the key it should have. The
    packets are all that has been output: a conn is not new exactly if one has left on it. -/
theorem headers_fresh (id : IdBufType) (cs : List Call) (s : SharedHead)
    (hr : run call { net := NetSide.new id } cs = .ok s) :
    s.net.mHead.mCmd = EncHead.typeData ∧ (∀ e ∈ s.packets, Fresh e.1 e.2) ∧
      ∀ p conn, s.net.mFakeNetGroup.heap.get? p = some conn →
        (conn.toINetConn.mNew = false ↔ ∃ e ∈ s.packets, e.2.p = p) := by
  have hI : Inv s := run_invariant (J := Inv) (fun s c s' hI hs' => inv_call hI hs') (inv_new id) hr
  have hleft : ∀ p, (∃ cmd, (p, cmd) ∈ outputs s.net.notes) ↔ ∃ e ∈ s.packets, e.2.p = p := by
    intro p
    rw [← hI.sends]
    constructor
    · rintro ⟨cmd, hcmd⟩
      obtain ⟨sent, hsent, pkt, hpkt, hp, -⟩ := mem_outsOf.mp hcmd
      have hmem : pkt ∈ s.packets.map Prod.snd := by
        rw [hI.packets]
        exact List.mem_filterMap.mpr ⟨sent, hsent, hpkt⟩
      obtain ⟨e, he, rfl⟩ := List.mem_map.mp hmem
      exact ⟨e, he, hp⟩
    · rintro ⟨e, he, hp⟩
      have hmem : e.2 ∈ s.packets.map Prod.snd := List.mem_map_of_mem he
      rw [hI.packets] at hmem
      obtain ⟨sent, hsent, hpkt⟩ := List.mem_filterMap.mp hmem
      exact ⟨_, mem_outsOf.mpr ⟨sent, hsent, e.2, hpkt, hp, rfl⟩⟩
  refine ⟨hI.head, hI.fresh, ?_⟩
  intro p conn hconn
  rw [← hleft p]
  constructor
  · intro hnew
    exact hI.old p ⟨conn, hconn, hnew⟩
  · rintro ⟨cmd, hcmd⟩
    exact (hI.unused _ hcmd).2 conn hconn

theorem conn10001_isNew :
    (NetConn.fakeTcp ConnLife.conn10001).toINetConn.mNew = true := rfl

/-- A conn sends for two conversations, with a reset and a keepalive request in between. -/
theorem headers_fresh_interleaved : ∃ s, run call { net := NetSide.new (Buf.zeros 8) }
      [.other (.addNetConn ⟨.fakeTcp ConnLife.conn10001, conn10001_isNew⟩),
        .connSend 7 [1] ⟨[0], fun _ _ => 1⟩, .sendNetConnReset [2] 5 ⟨[3], fun _ _ => -1⟩,
        .doSendCmd EncHead.typeKeepAliveReq [3] ⟨[1], fun _ _ => 1⟩,
        .connSend 8 [4] ⟨[0], fun _ _ => 1⟩] = .ok s ∧
    s.packets.length = 4 ∧ ∀ e ∈ s.packets, Fresh e.1 e.2 := by
  obtain ⟨s, hs, hlen⟩ := exists_of_toOption (x := run call { net := NetSide.new (Buf.zeros 8) }
      [.other (.addNetConn ⟨.fakeTcp ConnLife.conn10001, conn10001_isNew⟩),
        .connSend 7 [1] ⟨[0], fun _ _ => 1⟩, .sendNetConnReset [2] 5 ⟨[3], fun _ _ => -1⟩,
        .doSendCmd EncHead.typeKeepAliveReq [3] ⟨[1], fun _ _ => 1⟩,
        .connSend 8 [4] ⟨[0], fun _ _ => 1⟩])
    (f := fun s => s.packets.length) (b := 4) (by decide +kernel)
  exact ⟨s, hs, hlen, (headers_fresh (Buf.zeros 8) _ s hs).2.1⟩

end SharedHead

end Rsock
