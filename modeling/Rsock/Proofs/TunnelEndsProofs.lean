import Rsock.Tunnel
import Rsock.Proofs.ConvResetProofs
import Rsock.Proofs.SharedHeadProofs
import Mathlib.Data.List.Induction

/-!
# Proofs: the two ends of the tunnel

A client gives no number to two addresses as long as its counter does not wrap. A `SubGroup` has one id
and an `SConn` one number for ever, and a packet is passed to a socket with its number.
-/

namespace Rsock

open CMem TransSys

/-! ## The numbers a client has given out -/

namespace ClientConns

variable {s s' : ClientConns} {p : Ptr} {v : UInt32}

/-- Who has used a number has sent a datagram under it. -/
theorem exists_sent_of_mem_users {a : SockAddr} {ns : List Note} (h : a ∈ users v ns) :
    ∃ y, .sent a v y ∈ ns := by
  induction ns using List.reverseRecOn with
  | nil => cases h
  | append_singleton ns n ih =>
    rw [users_concat] at h
    have hold : a ∈ users v ns → ∃ y, .sent a v y ∈ ns ++ [n] := by
      intro ha
      obtain ⟨y, hy⟩ := ih ha
      exact ⟨y, List.mem_append_left _ hy⟩
    cases n with
    | sent addr conv payload =>
      rw [usersNote] at h
      split at h
      next hv =>
        rcases List.mem_cons.mp h with rfl | h
        · exact ⟨payload, by simp [hv]⟩
        · exact hold h
      next => exact hold h
    | delivered dest payload => exact hold h
    | convRst conv => exact hold h
    | closed conv =>
      rw [usersNote] at h
      split at h
      · cases h
      · exact hold h

/-- No number has been given to two addresses, and the counter has passed all of them. -/
structure Numbered (s : ClientConns) : Prop where
  le : ∀ a v y, .sent a v y ∈ s.notes → v.toNat ≤ s.mConvCounter.toNat
  owner : ∀ a a' v y y', .sent a v y ∈ s.notes → .sent a' v y' ∈ s.notes → a = a'

/-- If the event opens a conversation, then the counter can go on. -/
def NoWrap (s : ClientConns) : Event → Prop
  | .udpRecvCb sAddr port payload _ =>
    payload ≠ [] → s.connOfKey (CConn.buildKey (.inet sAddr port)) = none →
      s.mConvCounter.toNat + 1 < 2 ^ 32
  | .pollCb sunPath _ _ => sunPath = []
  | _ => True

instance decidableNoWrap (s : ClientConns) (e : Event) : Decidable (s.NoWrap e) :=
  match e with
  | .udpRecvCb sAddr port payload _ =>
    inferInstanceAs (Decidable (payload ≠ [] →
      s.connOfKey (CConn.buildKey (.inet sAddr port)) = none → s.mConvCounter.toNat + 1 < 2 ^ 32))
  | .pollCb sunPath _ _ => inferInstanceAs (Decidable (sunPath = []))
  | .input _ _ _ _ => .isTrue trivial
  | .flush => .isTrue trivial
  | .close => .isTrue trivial

/-- No number has been used before the first event. -/
theorem numbered_new (id : IdBufType) : Numbered (new id) where
  le := by
    intro a v y h
    cases h
  owner := by
    intro a a' v y y' h
    cases h

/-- The numbers stay in order while neither the counter moves nor a datagram is sent. -/
theorem Numbered.of_notes {ns : List Note} (hN : Numbered s) (hcount : s'.mConvCounter = s.mConvCounter)
    (hnotes : s'.notes = s.notes ++ ns) (hns : ∀ a v y, .sent a v y ∉ ns) : Numbered s' := by
  have hback : ∀ a v y, .sent a v y ∈ s'.notes → .sent a v y ∈ s.notes := by
    intro a v y h
    rw [hnotes] at h
    exact (List.mem_append.mp h).resolve_right (hns a v y)
  refine ⟨?_, ?_⟩
  · intro a v y h
    rw [hcount]
    exact hN.le a v y (hback a v y h)
  · intro a a' v y y' h h'
    exact hN.owner a a' v y y' (hback a v y h) (hback a' v y' h')

/-- Without a wrap the counter goes up by one. -/
theorem toNat_succ (hlt : s.mConvCounter.toNat + 1 < 2 ^ 32) :
    (s.mConvCounter + 1).toNat = s.mConvCounter.toNat + 1 := by
  rw [UInt32.toNat_add]
  exact Nat.mod_eq_of_lt hlt

/-- Without a wrap the next number has not been used. -/
theorem Numbered.freshConv {e : Event} (hI : Inv s) (hN : Numbered s) (hw : s.NoWrap e) :
    s.FreshConv e := by
  cases e with
  | udpRecvCb a port payload n =>
    intro hp hkey p c hc heq
    have hlt := hw hp hkey
    have huser := (hI.users c.obj.mConv c.obj.mAddr).mpr ⟨p, c.obj, ⟨c, hc, rfl⟩, rfl, rfl⟩
    obtain ⟨y, hy⟩ := exists_sent_of_mem_users huser
    have hle := hN.le _ _ y hy
    rw [heq, toNat_succ hlt] at hle
    omega
  | pollCb sunPath payload n => exact hw
  | input o info payload n => trivial
  | flush => trivial
  | close => trivial

/-- Closing a conn leaves the counter alone. -/
theorem mConvCounter_closeConn (hr : s.closeConn p = .ok s') : s'.mConvCounter = s.mConvCounter := by
  obtain ⟨c, -, hr⟩ := bind_eq_ok.mp hr
  obtain ⟨-, -, hr⟩ := bind_eq_ok.mp hr
  obtain ⟨-, -, hr⟩ := bind_eq_ok.mp hr
  obtain ⟨s₁, hs₁, hr⟩ := bind_eq_ok.mp hr
  obtain ⟨h, -, hr⟩ := bind_eq_ok.mp hr
  obtain rfl := Except.ok.inj hr
  obtain ⟨g, -, hs₁⟩ := bind_eq_ok.mp hs₁
  obtain ⟨d, -, hs₁⟩ := bind_eq_ok.mp hs₁
  obtain rfl := Except.ok.inj hs₁
  rfl

theorem mConvCounter_cconSend {addr : SockAddr} {payload : List UInt8} {n : Int}
    (hr : s.cconSend p addr payload n = .ok s') : s'.mConvCounter = s.mConvCounter := by
  obtain ⟨c, -, hr⟩ := bind_eq_ok.mp hr
  obtain rfl := Except.ok.inj hr
  rfl

/-- A datagram of an address without a conn takes the next number. -/
theorem mConvCounter_onLocalRecv {addr : SockAddr} {payload : List UInt8} {n : Int}
    (hkey : s.connOfKey (CConn.buildKey addr) = none) (hr : s.onLocalRecv addr payload n = .ok s') :
    s'.mConvCounter = s.mConvCounter + 1 := by
  unfold onLocalRecv at hr
  dsimp only at hr
  rw [hkey] at hr
  have hcount := mConvCounter_cconSend hr
  exact hcount

theorem mConvCounter_onRecv {payload : List UInt8} {n : Int} (hr : s.onRecv v payload n = .ok s') :
    s'.mConvCounter = s.mConvCounter := by
  obtain ⟨-, -, hr⟩ := bind_eq_ok.mp hr
  cases hget : s.mConvMap.get? v with
  | none =>
    rw [hget] at hr
    obtain rfl := Except.ok.inj hr
    rfl
  | some p =>
    rw [hget] at hr
    obtain ⟨c, -, hr⟩ := bind_eq_ok.mp hr
    obtain rfl := Except.ok.inj hr
    rfl

/-- From `s` to `s'` nothing has been sent or delivered. -/
structure Quiet (s s' : ClientConns) : Prop where
  counter : s'.mConvCounter = s.mConvCounter
  notes : ∃ ns, s'.notes = s.notes ++ ns ∧ (∀ a v y, .sent a v y ∉ ns) ∧
    ∀ dest x, .delivered dest x ∉ ns

theorem quiet_of_eq (hcount : s'.mConvCounter = s.mConvCounter) (hnotes : s'.notes = s.notes) :
    Quiet s s' :=
  ⟨hcount, [], by rw [hnotes, List.append_nil], by simp, by simp⟩

theorem Quiet.trans {s'' : ClientConns} (h₁ : Quiet s s') (h₂ : Quiet s' s'') : Quiet s s'' := by
  obtain ⟨ns, hns, hsent, hdel⟩ := h₁.notes
  obtain ⟨ms, hms, hsent', hdel'⟩ := h₂.notes
  refine ⟨h₂.counter.trans h₁.counter, ns ++ ms, by rw [hms, hns, List.append_assoc], ?_, ?_⟩
  · intro a v y h
    exact (List.mem_append.mp h).elim (hsent a v y) (hsent' a v y)
  · intro dest x h
    exact (List.mem_append.mp h).elim (hdel dest x) (hdel' dest x)

theorem quiet_closeConn (hr : s.closeConn p = .ok s') : Quiet s s' := by
  obtain ⟨c, -, -, -, hnotes⟩ := closeConn_cases hr
  exact ⟨mConvCounter_closeConn hr, _, hnotes, by simp, by simp⟩

/-- Closing conns is quiet. -/
theorem quiet_closeConns {ps : List Ptr} (hr : ps.foldlM closeConn s = .ok s') : Quiet s s' :=
  foldlM_invariant (J := Quiet s) (fun _ _ _ hJ hstep => hJ.trans (quiet_closeConn hstep))
    (quiet_of_eq rfl rfl) hr

/-- `Input` gives the payload of a data packet to the conn with its number, closes a conn, or does
    nothing. -/
theorem input_packet_cases {o : ByteOrder} {info : Info} {payload : List UInt8} {n : Int}
    (hr : s.input o info payload n = .ok s') :
    (∃ head, info.base.head = some head ∧ head.mCmd = EncHead.typeData ∧ payload ≠ [] ∧
      s.onRecv head.mConv payload n = .ok s') ∨ (∃ p, s.closeConn p = .ok s') ∨ s' = s := by
  cases hhead : info.base.head with
  | none =>
    rw [input, hhead] at hr
    cases hr
  | some head =>
    by_cases hcmd : head.mCmd = EncHead.typeData
    · rw [input, hhead] at hr
      dsimp only at hr
      rw [if_pos hcmd] at hr
      split at hr
      next hp => exact .inl ⟨head, rfl, hcmd, List.length_pos_iff.mp hp, hr⟩
      next => exact .inr (.inr (Except.ok.inj hr).symm)
    · rw [input, hhead] at hr
      dsimp only at hr
      rw [if_neg hcmd] at hr
      split at hr
      · obtain ⟨⟨s₁, m⟩, hrst, hr⟩ := bind_eq_ok.mp hr
        obtain rfl := Except.ok.inj hr
        rcases ConnReset.inputConvRst_cases hrst with rfl | ⟨p, hclose⟩
        · exact .inr (.inr rfl)
        · exact .inr (.inl ⟨p, hclose⟩)
      · exact .inr (.inr (Except.ok.inj hr).symm)

/-- What an event adds to the notes: a datagram that is sent, a payload that is delivered to the address
    that sends with its number, or neither. -/
theorem step_cases {e : Event} (hI : Inv s) (hw : s.NoWrap e) (hr : s.step e = .ok s') :
    Quiet s s' ∨
    (∃ a y v, s'.notes = s.notes ++ [.sent a v y] ∧
      (s'.mConvCounter = s.mConvCounter ∧ a ∈ users v s.notes ∨
        s.mConvCounter.toNat + 1 < 2 ^ 32 ∧ v = s.mConvCounter + 1 ∧
          s'.mConvCounter = s.mConvCounter + 1)) ∨
    (∃ o info head payload n a, e = .input o info payload n ∧ info.base.head = some head ∧
      head.mCmd = EncHead.typeData ∧ s'.mConvCounter = s.mConvCounter ∧
      s'.notes = s.notes ++ [.delivered (.sockaddr a) payload] ∧ a ∈ users head.mConv s.notes) := by
  cases e with
  | udpRecvCb a port payload n =>
    change s.udpRecvCb a port payload n = .ok s' at hr
    unfold udpRecvCb at hr
    split at hr
    next hp =>
      right; left
      cases hkey : s.connOfKey (CConn.buildKey (.inet a port)) with
      | some p =>
        rw [onLocalRecv_of_connOfKey hkey] at hr
        obtain ⟨c, hc⟩ := hI.conns.live_of_holds ⟨_, IGroup.mem_of_connOfKey hkey⟩
        have hself : s.Has p c.obj := ⟨c, hc, rfl⟩
        obtain ⟨a', port', haddr⟩ := hI.inet p c.obj hself
        have hk := hI.key _ p c.obj (IGroup.mem_of_connOfKey hkey) hself
        rw [haddr] at hk
        have hsame := CConn.buildKey_inet_inj hk
        rw [cconSend_ok hc] at hr
        obtain rfl := Except.ok.inj hr
        refine ⟨_, payload, c.obj.mConv, rfl, .inl ⟨rfl, ?_⟩⟩
        exact (hI.users _ _).mpr ⟨p, c.obj, hself, rfl, haddr.trans hsame.symm⟩
      | none =>
        have hlt := hw (List.length_pos_iff.mp hp) hkey
        obtain ⟨s₁, hs₁, hadds⟩ := adds_onLocalRecv payload n hI.conns hkey
        obtain rfl := Except.ok.inj (hs₁.symm.trans hr)
        refine ⟨_, payload, _, hadds.notes, .inr ⟨hlt, rfl, ?_⟩⟩
        exact mConvCounter_onLocalRecv hkey hr
    next =>
      obtain rfl := Except.ok.inj hr
      exact .inl (quiet_of_eq rfl rfl)
  | pollCb sunPath payload n =>
    obtain rfl : sunPath = [] := hw
    obtain rfl := Except.ok.inj hr
    exact .inl (quiet_of_eq rfl rfl)
  | input o info payload n =>
    rcases input_packet_cases hr with ⟨head, hhead, hcmd, hp, hr⟩ | ⟨p, hclose⟩ | rfl
    · obtain ⟨s₁, hs₁, -, hroute⟩ := onRecv_spec (v := head.mConv) (n := n) hI hp
      obtain rfl := Except.ok.inj (hs₁.symm.trans hr)
      have hcount := mConvCounter_onRecv hr
      rcases hroute with ⟨-, hnotes⟩ | ⟨a, ha, -, hnotes⟩
      · exact .inl ⟨hcount, _, hnotes, by simp, by simp⟩
      · exact .inr (.inr ⟨o, info, head, payload, n, a, rfl, hhead, hcmd, hcount, hnotes, ha⟩)
    · exact .inl (quiet_closeConn hclose)
    · exact .inl (quiet_of_eq rfl rfl)
  | flush =>
    obtain ⟨ps, -, hr⟩ := bind_eq_ok.mp hr
    obtain ⟨s₁, hs₁, hr⟩ := bind_eq_ok.mp hr
    obtain ⟨h, -, hr⟩ := bind_eq_ok.mp hr
    obtain rfl := Except.ok.inj hr
    exact .inl ((quiet_closeConns hs₁).trans (quiet_of_eq rfl rfl))
  | close =>
    obtain ⟨s₁, hs₁, hr⟩ := bind_eq_ok.mp hr
    obtain rfl := Except.ok.inj hr
    exact .inl ((quiet_closeConns hs₁).trans (quiet_of_eq rfl rfl))

/-- An event only adds notes. -/
theorem notes_step {e : Event} (hI : Inv s) (hw : s.NoWrap e) (hr : s.step e = .ok s') :
    ∃ ns, s'.notes = s.notes ++ ns := by
  rcases step_cases hI hw hr with hq | ⟨a, y, v, hnotes, -⟩ |
    ⟨_, _, _, _, _, a, _, _, _, _, hnotes, _⟩
  · obtain ⟨ns, hns, -⟩ := hq.notes
    exact ⟨ns, hns⟩
  · exact ⟨_, hnotes⟩
  · exact ⟨_, hnotes⟩

/-- An event that does not wrap the counter keeps the numbers in order. -/
theorem numbered_step {e : Event} (hI : Inv s) (hN : Numbered s) (hw : s.NoWrap e)
    (hr : s.step e = .ok s') : Numbered s' := by
  rcases step_cases hI hw hr with hq | ⟨a, y, v, hnotes, hv⟩ |
    ⟨_, _, _, _, _, a, _, _, _, hcount, hnotes, _⟩
  · obtain ⟨ns, hns, hsent, -⟩ := hq.notes
    exact hN.of_notes hq.counter hns hsent
  · have hcases : ∀ b w z, .sent b w z ∈ s'.notes → .sent b w z ∈ s.notes ∨ b = a ∧ w = v := by
      intro b w z h
      rw [hnotes, List.mem_append, List.mem_singleton] at h
      rcases h with h | h
      · exact .inl h
      · obtain ⟨rfl, rfl, -⟩ := Note.sent.inj h
        exact .inr ⟨rfl, rfl⟩
    rcases hv with ⟨hcount, huser⟩ | ⟨hlt, rfl, hcount⟩
    · -- the number has been used before, by the same address
      obtain ⟨y₀, hy₀⟩ := exists_sent_of_mem_users huser
      have hown : ∀ b w z, .sent b w z ∈ s'.notes → ∃ z', .sent b w z' ∈ s.notes := by
        intro b w z h
        rcases hcases b w z h with h | ⟨rfl, rfl⟩
        · exact ⟨z, h⟩
        · exact ⟨y₀, hy₀⟩
      refine ⟨?_, ?_⟩
      · intro b w z h
        obtain ⟨z', hz'⟩ := hown b w z h
        rw [hcount]
        exact hN.le b w z' hz'
      · intro b b' w z z' h h'
        obtain ⟨x, hx⟩ := hown b w z h
        obtain ⟨x', hx'⟩ := hown b' w z' h'
        exact hN.owner b b' w x x' hx hx'
    · -- the number is a new one
      have hnew : ∀ b z, .sent b (s.mConvCounter + 1) z ∉ s.notes := by
        intro b z h
        have hle := hN.le b _ z h
        rw [toNat_succ hlt] at hle
        omega
      refine ⟨?_, ?_⟩
      · intro b w z h
        rw [hcount, toNat_succ hlt]
        rcases hcases b w z h with h | ⟨-, rfl⟩
        · exact (hN.le b w z h).trans (Nat.le_succ _)
        · exact (toNat_succ hlt).le
      · intro b b' w z z' h h'
        rcases hcases b w z h with h | ⟨rfl, rfl⟩
        · rcases hcases b' w z' h' with h' | ⟨rfl, rfl⟩
          · exact hN.owner b b' w z z' h h'
          · exact absurd h (hnew b z)
        · rcases hcases b' _ z' h' with h' | ⟨rfl, -⟩
          · exact absurd h' (hnew b' z')
          · rfl
  · exact hN.of_notes hcount hnotes (by simp)

end ClientConns

/-! ## What a group sends -/

theorem onWire_append (ss ts : List SentCall) : onWire (ss ++ ts) = onWire ss ++ onWire ts :=
  List.filterMap_append

/-- What is sent of a call has its payload, and its header but for the key. -/
theorem mem_onWire {ss : List SentCall} (hright : ∀ c ∈ ss, NetSide.SentRight c)
    {e : EncHead × List UInt8} (he : e ∈ onWire ss) :
    ∃ c ∈ ss, ∃ key, e = (c.call.hd.setConnKey key, c.call.payload) := by
  obtain ⟨c, hc, he⟩ := List.mem_filterMap.mp he
  obtain ⟨pkt, hpkt, he⟩ := Option.bind_eq_some_iff.mp he
  obtain ⟨hinfo, hpay⟩ := hright c hc pkt hpkt
  unfold OutPacket.onWire at he
  split at he
  · rw [hinfo, Info.base_setHead, Option.map_some, hpay] at he
    exact ⟨c, hc, pkt.conn.intKey, (Option.some.inj he).symm⟩
  · cases he

namespace NetSide

variable {s s' s'' : NetSide} {P : EncHead → Prop}

/-- From `s` to `s'` no data has been handed to `doSend`. -/
def NoData (s s' : NetSide) : Prop := Hands (·.mCmd ≠ EncHead.typeData) s s'

/-- Packets that are not data put no data on the wire. -/
theorem Hands.noData (h : Hands P s s') (hP : ∀ hd, P hd → hd.mCmd ≠ EncHead.typeData) :
    NoData s s' := h.mono hP

theorem noData_step {e : Event} (he : e.NoData) (hr : s.step e = .ok s') : NoData s s' :=
  (hands_noData he hr).noData fun _ h => he.not_data h

/-- A reset of a net conn is no data. -/
theorem noData_sendNetConnRst {o : ByteOrder} {key : IntKeyType} {env : SendEnv}
    (hr : s.sendNetConnRst o key env = .ok s') : NoData s s' := by
  refine (hands_sendNetConnRst hr).noData fun hd h => ?_
  rw [h]
  decide

/-- Only the conns change. -/
theorem noData_of_eq (hhead : s'.mHead = s.mHead) (hsends : s'.sends = s.sends)
    (hnotes : s'.notes = s.notes) : NoData s s' :=
  hands_of_eq [] hhead hsends (by rw [hnotes, List.append_nil]) rfl

/-- The packets that are sent have the id of the group, and are no data. -/
theorem NoData.onWire (h : NoData s s') : ∃ ss, s'.sends = s.sends ++ ss ∧ ∀ e ∈ onWire ss,
    e.1.mIdBuf = s.mHead.mIdBuf ∧ e.1.mCmd ≠ EncHead.typeData := by
  obtain ⟨ss, -, hss, -, hall, -⟩ := h.sent
  refine ⟨ss, hss, fun e he => ?_⟩
  obtain ⟨c, hc, key, rfl⟩ := mem_onWire (fun c hc => (hall c hc).1) he
  exact ⟨(hall c hc).2.1, (hall c hc).2.2⟩

/-- A datagram is sent with the id of the group and the number, if at all. -/
theorem sendData_onWire {conv : UInt32} {payload : List UInt8} {env : SendEnv}
    (hd : s.mHead.mCmd = EncHead.typeData) (hr : s.sendData conv payload env = .ok s') :
    ∃ ss, s'.sends = s.sends ++ ss ∧ ∀ e ∈ onWire ss, e.1.mIdBuf = s.mHead.mIdBuf ∧
      e.1.mCmd = EncHead.typeData ∧ e.1.mConv = conv ∧ e.2 = payload := by
  refine ⟨_, (calls_send hr).sends, fun e he => ?_⟩
  obtain ⟨c, hc, key, rfl⟩ := mem_onWire (fun c hc => by
    obtain rfl := List.mem_singleton.mp hc
    exact sentRight_doSendPacket _ _ _) he
  obtain rfl := List.mem_singleton.mp hc
  exact ⟨rfl, hd, rfl, rfl⟩

end NetSide

/-! ## What a `SubGroup` keeps, and what it passes to its sockets -/

namespace SubGroup

variable {s s' s'' : SubGroup} {info : Info} {payload : List UInt8} {n : Int}

/-- Every conn is under a key of its number, the header is a data header with the id the group is named
    after, and the callbacks are set. -/
structure Named (s : SubGroup) : Prop where
  conns : IGroup.Each ConvKey s.toIGroup
  id : idBuf2Str s.net.mHead.mIdBuf = s.mKey
  cmd : s.net.mHead.mCmd = EncHead.typeData
  bound : Bound s

theorem named_new (id : IdBufType) (mgr : ServerNetManager) : Named (new id mgr) :=
  ⟨IGroup.each_empty _ _, rfl, rfl, bound_new id mgr⟩

/-- From `s` to `s'` the group has kept its key, the id and the command of its header and its callbacks,
    and its conns their numbers. -/
structure Keeps (s s' : SubGroup) : Prop where
  runs : IGroup.Runs ConvKey s.toIGroup s'.toIGroup
  id : s'.net.mHead.mIdBuf = s.net.mHead.mIdBuf
  cmd : s.net.mHead.mCmd = EncHead.typeData → s'.net.mHead.mCmd = EncHead.typeData
  bound : Bound s → Bound s'

/-- A group that has kept its conns and callbacks is still named. -/
theorem Keeps.named (h : Keeps s s') (hs : Named s) : Named s' where
  conns := hs.conns.of_runs h.runs
  id := by
    rw [h.id, IGroup.mKey_of_runs h.runs]
    exact hs.id
  cmd := h.cmd hs.cmd
  bound := h.bound hs.bound

/-- The server sends no data while a net conn takes a packet. -/
theorem noData_connInput {p : ConnPtr} (hr : s.connInput p info payload = .ok (s', n)) :
    s.net.NoData s'.net := by
  obtain ⟨s₁, c, c', m, hup, -, -, rfl⟩ := connInput_cases hr
  rw [← hup.net]
  exact NetSide.noData_of_eq rfl rfl rfl

/-- The server sends no data while the net group takes a packet. -/
theorem noData_netInput {env : AcceptEnv} {head : EncHead}
    (hr : s.netInput env info head payload = .ok (s', n)) : s.net.NoData s'.net := by
  unfold netInput at hr
  split at hr
  · obtain ⟨conn, -, hr⟩ := bind_eq_ok.mp hr
    cases conn with
    | some p => exact noData_connInput hr
    | none =>
      obtain ⟨⟨mgr, conn⟩, -, hr⟩ := bind_eq_ok.mp hr
      cases conn with
      | some conn =>
        obtain ⟨⟨s₁, p⟩, hadd, hr⟩ := bind_eq_ok.mp hr
        obtain ⟨net, -, hadd⟩ := bind_eq_ok.mp hadd
        obtain ⟨rfl, -⟩ := Prod.mk.inj (Except.ok.inj hadd)
        have hadded : s.net.NoData { s.net with mFakeNetGroup := net } :=
          NetSide.noData_of_eq rfl rfl rfl
        exact hadded.trans (noData_connInput hr)
      | none =>
        obtain ⟨⟨s₁, n₁⟩, hs₁, hr⟩ := bind_eq_ok.mp hr
        obtain ⟨rfl, -⟩ := Prod.mk.inj (Except.ok.inj hr)
        have hnet := (goesUp_defaultInput hs₁).net
        exact NetSide.noData_of_eq (congrArg NetSide.mHead hnet) (congrArg NetSide.sends hnet)
          (congrArg NetSide.notes hnet)
  · obtain ⟨rfl, -⟩ := Prod.mk.inj (Except.ok.inj hr)
    exact NetSide.Hands.refl _ _

/-- A packet is answered with no data. -/
theorem noData_input {o : ByteOrder} {env : AcceptEnv} {answer : SendEnv}
    (hr : s.input o env info payload answer = .ok s') : s.net.NoData s'.net := by
  unfold input at hr
  split at hr
  · cases hr
  split at hr
  · obtain ⟨⟨s₁, n₁⟩, hs₁, hr⟩ := bind_eq_ok.mp hr
    have hin := noData_netInput hs₁
    dsimp only at hr
    split at hr
    · obtain ⟨net, hrst, hr⟩ := bind_eq_ok.mp hr
      obtain rfl := Except.ok.inj hr
      exact hin.trans (NetSide.noData_sendNetConnRst hrst)
    · obtain rfl := Except.ok.inj hr
      exact hin
  split at hr
  · obtain ⟨⟨s₁, m⟩, hrst, hr⟩ := bind_eq_ok.mp hr
    obtain rfl := Except.ok.inj hr
    rcases ConnReset.inputConvRst_cases hrst with rfl | ⟨p, hclose⟩
    · exact NetSide.Hands.refl _ _
    · obtain ⟨g, -, hclose⟩ := bind_eq_ok.mp hclose
      obtain rfl := Except.ok.inj hclose
      exact NetSide.Hands.refl _ _
  · obtain ⟨net, hnet, hr⟩ := bind_eq_ok.mp hr
    obtain rfl := Except.ok.inj hr
    exact NetSide.noData_step (e := .input o info payload [] 0 answer) trivial hnet

/-- `Input` keeps the key, the id of the header and the callbacks. -/
theorem keeps_input {o : ByteOrder} {env : AcceptEnv} {answer : SendEnv}
    (hr : s.input o env info payload answer = .ok s') : Keeps s s' :=
  ⟨(input_spec hr).1, (noData_input hr).id, (noData_input hr).data, (input_spec hr).2⟩

/-- An event other than a datagram from the target. -/
def Event.NoData : Event → Prop
  | .sconnSend _ _ _ _ => False
  | _ => True

theorem noData_step {e : Event} (he : e.NoData) (hr : s.step e = .ok s') : s.net.NoData s'.net := by
  have hnet : ∀ (s₁ : SubGroup) {e : NetSide.Event}, e.NoData → s₁.net = s.net →
      s₁.netStep e = .ok s' → s.net.NoData s'.net := by
    intro s₁ e he hs₁ hr
    obtain ⟨net, hstep, hr⟩ := bind_eq_ok.mp hr
    obtain rfl := Except.ok.inj hr
    rw [← hs₁]
    exact NetSide.noData_step he hstep
  cases e with
  | input o env info payload answer => exact noData_input hr
  | sconnSend p payload env n => exact he.elim
  | processTcpFinOrRst info => exact hnet s (by trivial) rfl hr
  | onTcpError p => exact hnet s (by trivial) rfl hr
  | flush =>
    obtain ⟨g, -, hr⟩ := bind_eq_ok.mp hr
    exact hnet { s with toIGroup := g } (by trivial) rfl hr
  | handleMessage => exact hnet s (by trivial) rfl hr
  | onFlush o timestamp env => exact hnet s (by trivial) rfl hr
  | onNetConnected => exact hnet s (by trivial) rfl hr
  | onNetDisconnected => exact hnet s (by trivial) rfl hr
  | netManager mgr =>
    obtain rfl := Except.ok.inj hr
    exact NetSide.Hands.refl _ _

/-- A datagram from the target is handed on with the number of its conn. -/
theorem sconnSend_cases {p : Ptr} {env : SendEnv}
    (hr : s.step (.sconnSend p payload env n) = .ok s') :
    ∃ c net, s.mHeap.get? p = some c ∧ s.net.sendData c.obj.mConv payload env = .ok net ∧
      s' = ({ s with mHeap := s.mHeap.store p (c.send n) }).setNet net := by
  obtain ⟨c, hc, hr⟩ := bind_eq_ok.mp hr
  obtain ⟨net, hsend, hr⟩ := bind_eq_ok.mp hr
  exact ⟨c, net, Heap.deref_eq_ok.mp hc, hsend, (Except.ok.inj hr).symm⟩

/-- An event keeps the key, the id of the header and the callbacks. -/
theorem keeps_step {e : Event} (hr : s.step e = .ok s') : Keeps s s' := by
  have hrest := fun hB => bound_step (s := s) hB hr
  cases e with
  | sconnSend p payload env n =>
    obtain ⟨c, net, -, hsend, rfl⟩ := sconnSend_cases hr
    exact ⟨runs_step hr, (NetSide.calls_send hsend).id, (NetSide.sends_send hsend).head, hrest⟩
  | _ =>
    have hno := noData_step (by trivial) hr
    exact ⟨runs_step hr, hno.id, hno.data, hrest⟩

theorem Keeps.refl (s : SubGroup) : Keeps s s := ⟨IGroup.Runs.refl _ _, rfl, fun h => h, fun h => h⟩

theorem Keeps.trans (h₁ : Keeps s s') (h₂ : Keeps s' s'') : Keeps s s'' :=
  ⟨h₁.runs.trans h₂.runs, h₂.id.trans h₁.id, h₂.cmd ∘ h₁.cmd, h₂.bound ∘ h₁.bound⟩

/-- From `s` to `s'` nothing but the payload has been passed to a socket, and that to one with the
    number. -/
def Passes (conv : UInt32) (payload : List UInt8) (s s' : SubGroup) : Prop :=
  ∃ ns, s'.notes = s.notes ++ ns ∧ ∀ c y, .onRecv c y ∈ ns → y = payload ∧
    ∃ conn, s'.mHeap.get? c = some conn ∧ conn.obj.mConv = conv

theorem passes_refl (conv : UInt32) (payload : List UInt8) (s : SubGroup) : Passes conv payload s s :=
  ⟨[], (List.append_nil _).symm, by simp⟩

/-- A conn passes the payload on to its own socket. -/
theorem passes_sconnInput {p : Ptr} {c : IConn SConn} (hc : s.mHeap.get? p = some c)
    (hr : s.sconnInput p payload = .ok (s', n)) : Passes c.obj.mConv payload s s' := by
  rw [sconnInput_eq hc] at hr
  obtain ⟨rfl, -⟩ := Prod.mk.inj (Except.ok.inj hr)
  refine ⟨_, rfl, ?_⟩
  intro q y hq
  obtain ⟨rfl, rfl⟩ := Note.onRecv.inj (List.mem_singleton.mp hq)
  exact ⟨rfl, _, Heap.get?_store_self hc, rfl⟩

/-- What `OnRecv` passes on goes to a conn with the header's number. -/
theorem passes_onRecv {info : ConnInfo} {head : EncHead} (hs : Named s) (hhead : info.head = some head)
    (hr : s.onRecv info payload = .ok (s', n)) : Passes head.mConv payload s s' := by
  unfold onRecv at hr
  rw [hhead] at hr
  split at hr
  next =>
    dsimp only at hr
    cases hkey : s.connOfKey (KeyGenerator.buildConvKey info.dst head.mConv) with
    | some p =>
      rw [hkey] at hr
      obtain ⟨c, hc⟩ := hs.conns.inv.live_of_holds ⟨_, IGroup.mem_of_connOfKey hkey⟩
      obtain ⟨dst, hdst⟩ := hs.conns.each p c hc
      have hk := hs.conns.inv.key_of_mem (IGroup.mem_of_connOfKey hkey) hc.2
      have hconv := KeyGenerator.buildConvKey_conv (hk.symm.trans hdst)
      rw [hconv]
      exact passes_sconnInput hc.2 hr
    | none =>
      rw [hkey] at hr
      have hpass := passes_sconnInput (Heap.get?_alloc_self) hr
      exact hpass
  next =>
    obtain ⟨rfl, -⟩ := Prod.mk.inj (Except.ok.inj hr)
    exact passes_refl _ _ _

/-- What the callback of the net group passes on goes to a conn with the header's number. -/
theorem passes_netOnRecv {head : EncHead} (hs : Named s) (hhead : info.base.head = some head)
    (hr : s.netOnRecv info payload = .ok (s', n)) : Passes head.mConv payload s s' := by
  unfold netOnRecv at hr
  split at hr
  · exact passes_onRecv hs hhead hr
  · obtain ⟨rfl, -⟩ := Prod.mk.inj (Except.ok.inj hr)
    exact passes_refl _ _ _

/-- What a net conn passes on goes to a conn with the header's number. -/
theorem passes_connInput {p : ConnPtr} {head : EncHead} (hs : Named s)
    (hhead : info.base.head = some head) (hr : s.connInput p info payload = .ok (s', n)) :
    Passes head.mConv payload s s' := by
  obtain ⟨⟨s₁, m⟩, hs₁, hr⟩ := bind_eq_ok.mp hr
  obtain ⟨c, -, hr⟩ := bind_eq_ok.mp hr
  obtain ⟨r, -, hr⟩ := bind_eq_ok.mp hr
  obtain ⟨rfl, -⟩ := Prod.mk.inj (Except.ok.inj hr)
  have hpass : Passes head.mConv payload s s₁ := by
    unfold connOnRecv at hs₁
    split at hs₁
    · exact passes_netOnRecv hs hhead hs₁
    · obtain ⟨rfl, -⟩ := Prod.mk.inj (Except.ok.inj hs₁)
      exact passes_refl _ _ _
  exact hpass

theorem named_addNetConn {conn : NetConn} {p : ConnPtr} (hs : Named s)
    (hr : s.addNetConn conn = .ok (s', p)) : Named s' ∧ s'.notes = s.notes := by
  have hB := bound_addNetConn hs.bound hr
  obtain ⟨net, -, hr⟩ := bind_eq_ok.mp hr
  obtain ⟨rfl, -⟩ := Prod.mk.inj (Except.ok.inj hr)
  exact ⟨⟨hs.conns, hs.id, hs.cmd, hB⟩, rfl⟩

/-- Whichever way a packet comes, what is passed on goes to a conn with the header's number. -/
theorem passes_netInput {env : AcceptEnv} {head : EncHead} (hs : Named s)
    (hhead : info.base.head = some head) (hr : s.netInput env info head payload = .ok (s', n)) :
    Passes head.mConv payload s s' := by
  unfold netInput at hr
  split at hr
  · obtain ⟨conn, -, hr⟩ := bind_eq_ok.mp hr
    cases conn with
    | some p => exact passes_connInput hs hhead hr
    | none =>
      obtain ⟨⟨mgr, conn⟩, -, hr⟩ := bind_eq_ok.mp hr
      have hB := hs.bound
      have hs₀ : Named { s with mNetManager := mgr } :=
        ⟨hs.conns, hs.id, hs.cmd, hB.net, hB.conns, hB.defaultRecv, hB.netRecv⟩
      cases conn with
      | some conn =>
        obtain ⟨⟨s₁, p⟩, hadd, hr⟩ := bind_eq_ok.mp hr
        obtain ⟨hs₁, hnotes⟩ := named_addNetConn hs₀ hadd
        have hpass := passes_connInput hs₁ hhead hr
        rw [Passes, hnotes] at hpass
        exact hpass
      | none =>
        obtain ⟨⟨s₁, n₁⟩, hs₁, hr⟩ := bind_eq_ok.mp hr
        obtain ⟨rfl, -⟩ := Prod.mk.inj (Except.ok.inj hr)
        unfold defaultInput at hs₁
        split at hs₁
        · have hpass := passes_netOnRecv hs₀ hhead hs₁
          exact hpass
        · obtain ⟨rfl, -⟩ := Prod.mk.inj (Except.ok.inj hs₁)
          exact passes_refl _ _ s
  · obtain ⟨rfl, -⟩ := Prod.mk.inj (Except.ok.inj hr)
    exact passes_refl _ _ _

/-- Only a data packet is passed on, and only to a socket with its number. -/
theorem input_passes {o : ByteOrder} {env : AcceptEnv} {answer : SendEnv} {head : EncHead}
    (hs : Named s) (hhead : info.base.head = some head)
    (hr : s.input o env info payload answer = .ok s') :
    s'.notes = s.notes ∨ head.mCmd = EncHead.typeData ∧ Passes head.mConv payload s s' := by
  unfold input at hr
  rw [hhead] at hr
  dsimp only at hr
  split at hr
  next hcmd =>
    refine .inr ⟨hcmd, ?_⟩
    obtain ⟨⟨s₁, n₁⟩, hs₁, hr⟩ := bind_eq_ok.mp hr
    have hpass := passes_netInput hs hhead hs₁
    dsimp only at hr
    split at hr
    · obtain ⟨net, -, hr⟩ := bind_eq_ok.mp hr
      obtain rfl := Except.ok.inj hr
      obtain ⟨ns, hns, hmem⟩ := hpass
      refine ⟨ns ++ [.netConnRst head.mConnKey], ?_, ?_⟩
      · rw [← List.append_assoc, ← hns]
        rfl
      · intro c y hc
        rcases List.mem_append.mp hc with hc | hc
        · exact hmem c y hc
        · cases List.mem_singleton.mp hc
    · obtain rfl := Except.ok.inj hr
      exact hpass
  next =>
  split at hr
  · obtain ⟨⟨s₁, m⟩, hrst, hr⟩ := bind_eq_ok.mp hr
    obtain rfl := Except.ok.inj hr
    rcases ConnReset.inputConvRst_cases hrst with rfl | ⟨p, hclose⟩
    · exact .inl rfl
    · obtain ⟨g, -, hclose⟩ := bind_eq_ok.mp hclose
      obtain rfl := Except.ok.inj hclose
      exact .inl rfl
  · obtain ⟨net, -, hr⟩ := bind_eq_ok.mp hr
    obtain rfl := Except.ok.inj hr
    exact .inl rfl

end SubGroup

/-! ## A client -/

namespace Tunnel.Client

variable {c c' : Client} {id : IdBufType} {o : ByteOrder} {info : Info} {payload : List UInt8}

/-- No number has two addresses, the header is a data header with the id, and what has been sent as data
    is a datagram of a local program. -/
structure Inv (id : IdBufType) (c : Client) : Prop where
  conns : ClientConns.Inv c.conns
  numbered : c.conns.Numbered
  net : NetSide.Inv c.net
  idBuf : c.net.mHead.mIdBuf = id
  cmd : c.net.mHead.mCmd = EncHead.typeData
  up : ∀ e ∈ onWire c.net.sends, e.1.mIdBuf = id ∧ (e.1.mCmd = EncHead.typeData →
    ∃ a, .sent a e.1.mConv e.2 ∈ c.conns.notes)

/-- The invariant of a client holds before the first event. -/
theorem inv_new (id : IdBufType) : Inv id (new id) where
  conns := ClientConns.inv_new id
  numbered := ClientConns.numbered_new id
  net := NetSide.inv_new id
  idBuf := rfl
  cmd := rfl
  up := by
    intro e he
    cases he

/-- The net side sends no data. -/
theorem Inv.of_noData {conns : ClientConns} {net : NetSide} (hI : Inv id c)
    (hconns : ClientConns.Inv conns) (hnumbered : conns.Numbered)
    (hgrow : ∃ ns, conns.notes = c.conns.notes ++ ns) (hnet : NetSide.Inv net)
    (hno : c.net.NoData net) : Inv id ⟨conns, net⟩ := by
  obtain ⟨ns, hns⟩ := hgrow
  obtain ⟨ss, hss, hwire⟩ := hno.onWire
  refine ⟨hconns, hnumbered, hnet, hno.id.trans hI.idBuf, hno.data hI.cmd, ?_⟩
  intro e he
  rw [hss, onWire_append] at he
  rcases List.mem_append.mp he with he | he
  · refine ⟨(hI.up e he).1, fun hcmd => ?_⟩
    obtain ⟨a, ha⟩ := (hI.up e he).2 hcmd
    exact ⟨a, by rw [hns]; exact List.mem_append_left _ ha⟩
  · obtain ⟨hid, hcmd⟩ := hwire e he
    exact ⟨hid.trans hI.idBuf, fun h => absurd h hcmd⟩

/-- The conns do something, and the net side sends no data. -/
theorem Inv.of_step {e : ClientConns.Event} {e' : NetSide.Event} (hI : Inv id c)
    (hw : c.conns.NoWrap e) (hconns : c.conns.step e = .ok c'.conns) (he : e'.NoData)
    (hnet : c.net.step e' = .ok c'.net) : Inv id c' :=
  hI.of_noData (ClientConns.inv_step hI.conns (hI.numbered.freshConv hI.conns hw) hconns)
    (ClientConns.numbered_step hI.conns hI.numbered hw hconns)
    (ClientConns.notes_step hI.conns hw hconns) (NetSide.inv_step hI.net hnet)
    (NetSide.noData_step he hnet)

/-! ### Datagrams from local programs -/

theorem foldlM_cconSend_of_quiet {env : SendEnv} {ns : List ClientConns.Note} {net : NetSide}
    (hns : ∀ a v y, .sent a v y ∉ ns) : ns.foldlM (cconSend env) net = .ok net := by
  induction ns with
  | nil => rfl
  | cons n ns ih =>
    have hn : cconSend env net n = .ok net := by
      cases n with
      | sent a v y => exact absurd List.mem_cons_self (hns a v y)
      | delivered dest x => rfl
      | convRst v => rfl
      | closed v => rfl
    rw [List.foldlM_cons, hn, ok_bind]
    exact ih fun a v y h => hns a v y (List.mem_cons_of_mem _ h)

/-- A datagram is sent with the number its conn has, or not sent at all. -/
theorem udpRecvCb_cases {a : UInt32} {port : UInt16} {env : SendEnv} {ret : Int}
    (hI : ClientConns.Inv c.conns) (hw : c.conns.NoWrap (.udpRecvCb a port payload ret))
    (hr : c.udpRecvCb a port payload env ret = .ok c') :
    c.conns.step (.udpRecvCb a port payload ret) = .ok c'.conns ∧
      (ClientConns.Quiet c.conns c'.conns ∧ c'.net = c.net ∨
        ∃ addr v y, c'.conns.notes = c.conns.notes ++ [.sent addr v y] ∧
          c.net.sendData v y env = .ok c'.net) := by
  obtain ⟨conns, hconns, hr⟩ := bind_eq_ok.mp hr
  obtain ⟨net, hnet, hr⟩ := bind_eq_ok.mp hr
  obtain rfl := Except.ok.inj hr
  have hstep : c.conns.step (.udpRecvCb a port payload ret) = .ok conns := hconns
  refine ⟨hstep, ?_⟩
  rcases ClientConns.step_cases hI hw hstep with hq | ⟨addr, y, v, hnotes, -⟩ | ⟨_, _, _, _, _, _, he, _⟩
  · obtain ⟨ns, hns, hsent, -⟩ := hq.notes
    rw [hns, List.drop_left, foldlM_cconSend_of_quiet hsent] at hnet
    exact .inl ⟨hq, (Except.ok.inj hnet).symm⟩
  · rw [hnotes, List.drop_left] at hnet
    obtain ⟨net', hsend, hnet⟩ := bind_eq_ok.mp hnet
    obtain rfl := Except.ok.inj hnet
    exact .inr ⟨addr, v, y, hnotes, hsend⟩
  · cases he

/-- A datagram of a user keeps the client's invariant. -/
theorem Inv.udpRecvCb {a : UInt32} {port : UInt16} {env : SendEnv} {ret : Int} (hI : Inv id c)
    (hw : c.conns.NoWrap (.udpRecvCb a port payload ret))
    (hr : c.udpRecvCb a port payload env ret = .ok c') : Inv id c' := by
  obtain ⟨hstep, hcases⟩ := udpRecvCb_cases hI.conns hw hr
  have hconns := ClientConns.inv_step hI.conns (hI.numbered.freshConv hI.conns hw) hstep
  have hnumbered := ClientConns.numbered_step hI.conns hI.numbered hw hstep
  rcases hcases with ⟨hq, hnet⟩ | ⟨addr, v, y, hnotes, hsend⟩
  · obtain ⟨ns, hns, -⟩ := hq.notes
    refine hI.of_noData hconns hnumbered ⟨ns, hns⟩ (hnet ▸ hI.net) ?_
    rw [hnet]
    exact NetSide.Hands.refl _ _
  · obtain ⟨ss, hss, hwire⟩ := NetSide.sendData_onWire hI.cmd hsend
    have hhead := (NetSide.sends_send hsend).head
    refine ⟨hconns, hnumbered, NetSide.inv_step (e := .sendData v y env) hI.net hsend,
      (NetSide.calls_send hsend).id.trans hI.idBuf, hhead hI.cmd, ?_⟩
    intro e he
    rw [hss, onWire_append] at he
    rcases List.mem_append.mp he with he | he
    · refine ⟨(hI.up e he).1, fun hcmd => ?_⟩
      obtain ⟨b, hb⟩ := (hI.up e he).2 hcmd
      exact ⟨b, by rw [hnotes]; exact List.mem_append_left _ hb⟩
    · obtain ⟨hid, -, hconv, hpay⟩ := hwire e he
      refine ⟨hid.trans hI.idBuf, fun _ => ⟨addr, ?_⟩⟩
      rw [hnotes, hconv, hpay]
      exact List.mem_append_right _ (List.mem_singleton_self _)

/-! ### Everything else -/

/-- A packet either changes nothing, or both halves of the client take it. -/
theorem input_cases {env : InputEnv} (hr : c.input o info payload env = .ok c') :
    c' = c ∨ ∃ ups, c.conns.step (.input o info payload env.ret) = .ok c'.conns ∧
      c.net.step (.input o info payload ups env.n env.answer) = .ok c'.net := by
  cases hhead : info.base.head with
  | none =>
    rw [input, hhead] at hr
    cases hr
  | some head =>
    rw [input, hhead] at hr
    dsimp only at hr
    split at hr
    · exact .inl (Except.ok.inj hr).symm
    · obtain ⟨conns, hconns, hr⟩ := bind_eq_ok.mp hr
      obtain ⟨net, hnet, hr⟩ := bind_eq_ok.mp hr
      obtain rfl := Except.ok.inj hr
      exact .inr ⟨_, hconns, hnet⟩

/-- Both halves of the client flush. -/
theorem flush_cases (hr : c.flush = .ok c') :
    c.conns.step .flush = .ok c'.conns ∧ c.net.step .flush = .ok c'.net := by
  obtain ⟨conns, hconns, hr⟩ := bind_eq_ok.mp hr
  obtain ⟨net, hnet, hr⟩ := bind_eq_ok.mp hr
  obtain rfl := Except.ok.inj hr
  exact ⟨hconns, hnet⟩

/-- What happens to the net conns sends no data and leaves the users' conns alone. -/
theorem netStep_cases {e : NetSide.Event} (hr : c.netStep e = .ok c') :
    c' = c ∨ e.NoData ∧ c'.conns = c.conns ∧ c.net.step e = .ok c'.net := by
  have hrest : ∀ e : NetSide.Event, e.NoData →
      (do let net ← c.net.step e; return { c with net := net }) = .ok c' →
      c' = c ∨ e.NoData ∧ c'.conns = c.conns ∧ c.net.step e = .ok c'.net := by
    intro e he hr
    obtain ⟨net, hnet, hr⟩ := bind_eq_ok.mp hr
    obtain rfl := Except.ok.inj hr
    exact .inr ⟨he, rfl, hnet⟩
  cases e with
  | sendData conv payload env => exact .inl (Except.ok.inj hr).symm
  | input o info payload ups n env => exact .inl (Except.ok.inj hr).symm
  | flush => exact .inl (Except.ok.inj hr).symm
  | _ => exact hrest _ trivial hr

end Tunnel.Client

end Rsock
