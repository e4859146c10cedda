import Rsock.SubGroup
import Rsock.Proofs.ClientConnsProofs
import Rsock.Proofs.NetConnKeepAliveProofs
import Rsock.Proofs.ServerNetManagerProofs

/-!
# Proofs: the conversations of the server

The callbacks that lead from the net conns to the conversations are set whenever a packet can come: for
every conn in the tables of the net group, for the default conn and for the net group itself. So every
data packet goes up to one conversation, over a net conn or over the default conn, and only the result
of the way up says which of them it was.
-/

namespace Rsock

open CMem TransSys INetGroup

namespace SubGroup

variable {s s' s'' : SubGroup} {info : Info} {payload : List UInt8} {n : Int}

/-! ## What the way up changes -/

/-- The server puts a conn under its number and an address of the client. -/
def ConvKey (k : String) (o : SConn) : Prop := ∃ dst, k = KeyGenerator.buildConvKey dst o.mConv

/-- The keys of the resets among the notes. -/
def resets (ns : List Note) : List IntKeyType :=
  ns.filterMap fun
    | .netConnRst key => some key
    | .onRecv _ _ => none

/-- From `s` to `s'` a packet has gone up: the net side and the callbacks are as they were. -/
structure GoesUp (s s' : SubGroup) : Prop where
  runs : IGroup.Runs ConvKey s.toIGroup s'.toIGroup
  notes : ∃ ns, s'.notes = s.notes ++ ns ∧ resets ns = []
  net : s'.net = s.net
  recvConns : s'.recvConns = s.recvConns
  defaultRecv : s'.defaultRecv = s.defaultRecv
  netRecv : s'.netRecv = s.netRecv

theorem GoesUp.refl (s : SubGroup) : GoesUp s s :=
  ⟨IGroup.Runs.refl _ _, ⟨[], (List.append_nil _).symm, rfl⟩, rfl, rfl, rfl, rfl⟩

theorem resets_append (ns ms : List Note) : resets (ns ++ ms) = resets ns ++ resets ms :=
  List.filterMap_append

theorem GoesUp.trans (h₁ : GoesUp s s') (h₂ : GoesUp s' s'') : GoesUp s s'' where
  runs := h₁.runs.trans h₂.runs
  notes := by
    obtain ⟨ns, hns, hrst⟩ := h₁.notes
    obtain ⟨ms, hms, hrst'⟩ := h₂.notes
    exact ⟨ns ++ ms, by rw [hms, hns, List.append_assoc], by rw [resets_append, hrst, hrst']; rfl⟩
  net := h₂.net.trans h₁.net
  recvConns := h₂.recvConns.trans h₁.recvConns
  defaultRecv := h₂.defaultRecv.trans h₁.defaultRecv
  netRecv := h₂.netRecv.trans h₁.netRecv

/-- What a conn takes goes up. -/
theorem goesUp_sconnInput {p : Ptr} (hr : s.sconnInput p payload = .ok (s', n)) : GoesUp s s' := by
  obtain ⟨c, hc, hr⟩ := bind_eq_ok.mp hr
  obtain ⟨rfl, rfl⟩ := Prod.mk.inj (Except.ok.inj hr)
  refine ⟨IGroup.runs_step (e := .call (.input p payload.length)) ?_ (by simp),
    ⟨[.onRecv p payload], rfl, rfl⟩, rfl, rfl, rfl, rfl⟩
  rw [IGroup.step, IGroup.call, hc]
  rfl

/-- A new conn leaves the net side and the callbacks alone. -/
theorem goesUp_newConn (s : SubGroup) (dst conv : UInt32) :
    GoesUp s (s.newConn (KeyGenerator.buildConvKey dst conv) conv).1 := by
  refine ⟨IGroup.runs_step (e := .call (.addConn (KeyGenerator.buildConvKey dst conv) ⟨conv⟩)) rfl ?_,
    ⟨[], (List.append_nil _).symm, rfl⟩, rfl, rfl, rfl, rfl⟩
  intro k o he
  obtain ⟨rfl, rfl⟩ := IGroup.Call.addConn.inj (IGroup.Event.call.inj he)
  exact ⟨dst, rfl⟩

/-- What `OnRecv` takes goes up. -/
theorem goesUp_onRecv {info : ConnInfo} (hr : s.onRecv info payload = .ok (s', n)) :
    GoesUp s s' := by
  unfold onRecv at hr
  split at hr
  · split at hr
    · cases hr
    next head _ =>
    dsimp only at hr
    split at hr
    · exact goesUp_sconnInput hr
    · exact (goesUp_newConn s info.dst head.mConv).trans (goesUp_sconnInput hr)
  · obtain ⟨rfl, -⟩ := Prod.mk.inj (Except.ok.inj hr)
    exact GoesUp.refl _

/-- What the callback of the net group takes goes up. -/
theorem goesUp_netOnRecv (hr : s.netOnRecv info payload = .ok (s', n)) : GoesUp s s' := by
  unfold netOnRecv at hr
  split at hr
  · exact goesUp_onRecv hr
  · obtain ⟨rfl, -⟩ := Prod.mk.inj (Except.ok.inj hr)
    exact GoesUp.refl _

/-- What the callback of a net conn takes goes up. -/
theorem goesUp_connOnRecv {p : ConnPtr} (hr : s.connOnRecv p info payload = .ok (s', n)) :
    GoesUp s s' := by
  unfold connOnRecv at hr
  split at hr
  · exact goesUp_netOnRecv hr
  · obtain ⟨rfl, -⟩ := Prod.mk.inj (Except.ok.inj hr)
    exact GoesUp.refl _

/-- What the default conn takes goes up. -/
theorem goesUp_defaultInput (hr : s.defaultInput info payload = .ok (s', n)) : GoesUp s s' := by
  unfold defaultInput at hr
  split at hr
  · exact goesUp_netOnRecv hr
  · obtain ⟨rfl, -⟩ := Prod.mk.inj (Except.ok.inj hr)
    exact GoesUp.refl _

/-! ## The callbacks -/

/-- The callbacks a packet needs are set. -/
structure Bound (s : SubGroup) : Prop where
  net : NetSide.Inv s.net
  conns : ∀ p ∈ netConns s.net, p ∈ s.recvConns
  defaultRecv : s.defaultRecv = true
  netRecv : s.netRecv = true

/-- The callbacks are set from the start, and there is no net conn yet. -/
theorem bound_new (id : IdBufType) (mgr : ServerNetManager) : Bound (new id mgr) where
  net := NetSide.inv_new id
  conns := by
    intro p hp
    cases hp
  defaultRecv := rfl
  netRecv := rfl

/-- Going up leaves the callbacks bound. -/
theorem GoesUp.bound (h : GoesUp s s') (hB : Bound s) : Bound s' where
  net := h.net ▸ hB.net
  conns := by
    rw [h.net, h.recvConns]
    exact hB.conns
  defaultRecv := h.defaultRecv.trans hB.defaultRecv
  netRecv := h.netRecv.trans hB.netRecv

/-- `RemoveConn` clears the callbacks of conns that are no longer in the tables, and only these. -/
theorem bound_setNet {net : NetSide} (hB : Bound s) (hI : NetSide.Inv net)
    (hsub : netConns net ⊆ netConns s.net) : Bound (s.setNet net) where
  net := hI
  conns := by
    intro p hp
    exact List.mem_filter.mpr ⟨hB.conns p (hsub hp), decide_eq_true (.inr hp)⟩
  defaultRecv := hB.defaultRecv
  netRecv := hB.netRecv

/-! ### The tables of the net group -/

theorem ptrs_subset_of_doesAll {g g' : INetGroup} {h h' : Heap NetConn} {as : List ConnAct}
    (hall : DoesAll g h as g' h') :
    g'.mConns.entries.map Prod.snd ⊆ g.mConns.entries.map Prod.snd := by
  induction hall with
  | nil => exact List.Subset.refl _
  | cons hdoes _ ih =>
    refine List.Subset.trans ih ?_
    cases hdoes with
    | childConnErr _ _ _ hr =>
      obtain ⟨c, -, rfl⟩ := childConnErrCb_cases hr
      intro p hp
      obtain ⟨e, he, rfl⟩ := List.mem_map.mp hp
      exact List.mem_map_of_mem (StdMap.mem_erase.mp he).1
    | output _ _ _ _ => exact List.Subset.refl _
    | onRecv _ _ => exact List.Subset.refl _
    | notifyErr _ => exact List.Subset.refl _

theorem netConns_of_goes {net net' : NetSide} (h : net.Goes net') : netConns net' ⊆ netConns net := by
  obtain ⟨as, ns, hall, -⟩ := h.does
  exact ptrs_subset_of_doesAll hall

/-- A message of the handler adds no net conn. -/
theorem netConns_handleMessage {net net' : NetSide} (hr : net.netStep .handleMessage = .ok net') :
    netConns net' ⊆ netConns net := by
  obtain ⟨life, hstep, hr⟩ := bind_eq_ok.mp hr
  obtain rfl := Except.ok.inj hr
  obtain ⟨⟨life', info⟩, hmsg, hstep⟩ := bind_eq_ok.mp hstep
  obtain rfl := Except.ok.inj hstep
  rcases ConnLife.handleMessage_cases hmsg with ⟨-, rfl, -⟩ | ⟨p, ps, c, -, -, -, hclose⟩
  · exact List.Subset.refl _
  · obtain ⟨h', -, rfl⟩ := ConnLife.closeAndDelete_cases hclose
    exact List.Subset.refl _

/-- No event but `AddNetConn` puts a conn in the tables. -/
theorem netConns_step {net net' : NetSide} {e : NetSide.Event} (hI : NetSide.Inv net)
    (hadd : ∀ conn, e ≠ .addNetConn conn) (hr : net.step e = .ok net') :
    netConns net' ⊆ netConns net := by
  cases e with
  | addNetConn conn => exact absurd rfl (hadd conn)
  | sendData conv payload env =>
    have hsub := netConns_of_goes (NetSide.sends_send hr).goes
    exact hsub
  | input o info payload ups n env =>
    rcases NetSide.input_cases hr with hans | ⟨key, rfl⟩
    · exact netConns_of_goes hans.goes
    · exact List.Subset.refl _
  | processTcpFinOrRst info =>
    obtain ⟨⟨h', b⟩, -, hr⟩ := bind_eq_ok.mp hr
    obtain rfl := Except.ok.inj hr
    exact List.Subset.refl _
  | onTcpError p => exact netConns_of_goes (NetSide.answers_onTcpError hr).goes
  | flush => exact netConns_of_goes (NetSide.answers_flush hI.ledger hr).goes
  | handleMessage => exact netConns_handleMessage hr
  | onFlush o timestamp env => exact netConns_of_goes (NetSide.onFlush_spec hI hr).2.1
  | onNetConnected =>
    obtain rfl := Except.ok.inj hr
    exact List.Subset.refl _
  | onNetDisconnected =>
    obtain rfl := Except.ok.inj hr
    exact List.Subset.refl _

/-- The callbacks stay bound while the net group works. -/
theorem bound_netStep {e : NetSide.Event} (hB : Bound s) (hadd : ∀ conn, e ≠ .addNetConn conn)
    (hr : s.netStep e = .ok s') : Bound s' := by
  obtain ⟨net, hstep, hr⟩ := bind_eq_ok.mp hr
  obtain rfl := Except.ok.inj hr
  exact bound_setNet hB (NetSide.inv_step hB.net hstep) (netConns_step hB.net hadd hstep)

/-! ### Received packets -/

/-- `AddNetConn` binds the callback of the conn it adds. -/
theorem bound_addNetConn {conn : NetConn} {p : ConnPtr} (hB : Bound s)
    (hr : s.addNetConn conn = .ok (s', p)) : Bound s' := by
  obtain ⟨life, hadd, hr⟩ := bind_eq_ok.mp hr
  obtain ⟨rfl, rfl⟩ := Prod.mk.inj (Except.ok.inj hr)
  refine ⟨?_, ?_, hB.defaultRecv, hB.netRecv⟩
  · exact ⟨(ConnLife.ledger_addNetConn hB.net.ledger hadd).1, hB.net.counted, hB.net.justified⟩
  · intro q hq
    rcases ConnLife.mem_ptrs_addNetConn hadd hq with hq | rfl
    · exact List.mem_cons_of_mem _ (hB.conns q hq)
    · exact List.mem_cons_self

/-- A packet for a net conn goes up first; then the conn counts what was taken. -/
theorem connInput_cases {p : ConnPtr} (hr : s.connInput p info payload = .ok (s', n)) :
    ∃ s₁ c c' m, GoesUp s s₁ ∧ s₁.net.mFakeNetGroup.heap.get? p = some c ∧
      c.onRecv info m = .ok (c', n) ∧
      s' = { s₁ with net := { s₁.net with
        mFakeNetGroup.heap := s₁.net.mFakeNetGroup.heap.store p c' } } := by
  obtain ⟨⟨s₁, m⟩, hs₁, hr⟩ := bind_eq_ok.mp hr
  obtain ⟨c, hc, hr⟩ := bind_eq_ok.mp hr
  obtain ⟨⟨c', n'⟩, hrecv, hr⟩ := bind_eq_ok.mp hr
  obtain ⟨rfl, rfl⟩ := Prod.mk.inj (Except.ok.inj hr)
  exact ⟨s₁, c, c', m, goesUp_connOnRecv hs₁, Heap.deref_eq_ok.mp hc, hrecv, rfl⟩

/-- A packet for a net conn leaves the callbacks bound. -/
theorem bound_connInput {p : ConnPtr} (hB : Bound s)
    (hr : s.connInput p info payload = .ok (s', n)) : Bound s' := by
  obtain ⟨s₁, c, c', m, hup, hc, hrecv, rfl⟩ := connInput_cases hr
  have hB₁ := hup.bound hB
  have hans := NetSide.answers_of_doesAll (s := s₁.net) (.single (.onRecv hc hrecv)) rfl
  exact ⟨hans.inv hB₁.net, hB₁.conns, hB₁.defaultRecv, hB₁.netRecv⟩

/-- A packet for a net conn is a run of the group. -/
theorem runs_connInput {p : ConnPtr} (hr : s.connInput p info payload = .ok (s', n)) :
    IGroup.Runs ConvKey s.toIGroup s'.toIGroup := by
  obtain ⟨s₁, c, c', m, hup, -, -, rfl⟩ := connInput_cases hr
  exact hup.runs

/-- What one data packet does. -/
theorem netInput_spec {env : AcceptEnv} {head : EncHead}
    (hr : s.netInput env info head payload = .ok (s', n)) :
    IGroup.Runs ConvKey s.toIGroup s'.toIGroup ∧ (Bound s → Bound s') := by
  unfold netInput at hr
  split at hr
  · obtain ⟨conn, -, hr⟩ := bind_eq_ok.mp hr
    cases conn with
    | some p => exact ⟨runs_connInput hr, fun hB => bound_connInput hB hr⟩
    | none =>
      obtain ⟨⟨mgr, conn⟩, -, hr⟩ := bind_eq_ok.mp hr
      have hmgr : Bound s → Bound { s with mNetManager := mgr } :=
        fun hB => ⟨hB.net, hB.conns, hB.defaultRecv, hB.netRecv⟩
      cases conn with
      | some conn =>
        obtain ⟨⟨s₁, p⟩, hadd, hr⟩ := bind_eq_ok.mp hr
        refine ⟨?_, fun hB => bound_connInput (bound_addNetConn (hmgr hB) hadd) hr⟩
        obtain ⟨net, -, hadd⟩ := bind_eq_ok.mp hadd
        obtain ⟨rfl, -⟩ := Prod.mk.inj (Except.ok.inj hadd)
        have hruns := runs_connInput hr
        exact hruns
      | none =>
        obtain ⟨⟨s₁, n₁⟩, hs₁, hr⟩ := bind_eq_ok.mp hr
        obtain ⟨rfl, -⟩ := Prod.mk.inj (Except.ok.inj hr)
        have hup := goesUp_defaultInput hs₁
        exact ⟨hup.runs, fun hB => hup.bound (hmgr hB)⟩
  · obtain ⟨rfl, -⟩ := Prod.mk.inj (Except.ok.inj hr)
    exact ⟨IGroup.Runs.refl _ _, id⟩

/-- Closing a conn leaves the callbacks bound. -/
theorem bound_closeConn {p : Ptr} (hB : Bound s) (hr : s.closeConn p = .ok s') : Bound s' := by
  obtain ⟨g, -, hr⟩ := bind_eq_ok.mp hr
  obtain rfl := Except.ok.inj hr
  exact ⟨hB.net, hB.conns, hB.defaultRecv, hB.netRecv⟩

/-- Closing a conn is a run of the group. -/
theorem runs_closeConn {p : Ptr} (hr : s.closeConn p = .ok s') :
    IGroup.Runs ConvKey s.toIGroup s'.toIGroup := by
  obtain ⟨g, hg, hr⟩ := bind_eq_ok.mp hr
  obtain rfl := Except.ok.inj hr
  exact IGroup.runs_step (e := .call (.closeConn p)) hg (by simp)

theorem bound_sendNetConnRst {o : ByteOrder} {key : IntKeyType} {env : SendEnv} {net : NetSide}
    (hB : Bound s) (hr : s.net.sendNetConnRst o key env = .ok net) :
    Bound ((s.note (.netConnRst key)).setNet net) := by
  have hsends := NetSide.sends_sendNetConnRst hr
  have hB' : Bound (s.note (.netConnRst key)) := ⟨hB.net, hB.conns, hB.defaultRecv, hB.netRecv⟩
  exact bound_setNet hB' (hsends.inv hB.net) (netConns_of_goes hsends.goes)

/-- `Input` is a run of the group and leaves the callbacks bound. -/
theorem input_spec {o : ByteOrder} {env : AcceptEnv} {answer : SendEnv}
    (hr : s.input o env info payload answer = .ok s') :
    IGroup.Runs ConvKey s.toIGroup s'.toIGroup ∧ (Bound s → Bound s') := by
  unfold input at hr
  split at hr
  · cases hr
  split at hr
  · obtain ⟨⟨s₁, n₁⟩, hs₁, hr⟩ := bind_eq_ok.mp hr
    obtain ⟨hruns, hbound⟩ := netInput_spec hs₁
    dsimp only at hr
    split at hr
    · obtain ⟨net, hrst, hr⟩ := bind_eq_ok.mp hr
      obtain rfl := Except.ok.inj hr
      exact ⟨hruns, fun hB => bound_sendNetConnRst (hbound hB) hrst⟩
    · obtain rfl := Except.ok.inj hr
      exact ⟨hruns, hbound⟩
  split at hr
  · obtain ⟨⟨s₁, m⟩, hrst, hr⟩ := bind_eq_ok.mp hr
    obtain rfl := Except.ok.inj hr
    rcases ConnReset.inputConvRst_cases hrst with rfl | ⟨p, hclose⟩
    · exact ⟨IGroup.Runs.refl _ _, id⟩
    · exact ⟨runs_closeConn hclose, fun hB => bound_closeConn hB hclose⟩
  · obtain ⟨net, hnet, hr⟩ := bind_eq_ok.mp hr
    obtain rfl := Except.ok.inj hr
    refine ⟨IGroup.Runs.refl _ _, fun hB => ?_⟩
    have hstep : s.net.step (.input o info payload [] 0 answer) = .ok net := hnet
    exact bound_setNet hB (NetSide.inv_step hB.net hstep) (netConns_step hB.net (by simp) hstep)

/-! ### The resets -/

/-- The call is a reset of the net conn with the key, which is its payload, and does not leave on this
    conn. -/
structure ResetFor (key : IntKeyType) (e : SentCall) : Prop where
  cmd : e.call.hd.mCmd = EncHead.typeNetconnRst
  otherConn : e.call.keyOfConnToReset = key
  payload : ∃ o p, KeyGenerator.encodeKey o (Cursor.start omMaxPktSize) key = .ok p ∧
    e.call.payload = p.written

/-- `SendNetConnRst` hands one packet to `doSend`: the reset of the net conn with that key. -/
theorem resetFor_sendNetConnRst {net net' : NetSide} {o : ByteOrder} {key : IntKeyType}
    {env : SendEnv} (hr : net.sendNetConnRst o key env = .ok net') :
    ∃ e, net'.sends = net.sends ++ [e] ∧ ResetFor key e := by
  obtain ⟨p, hp, hr⟩ := bind_eq_ok.mp hr
  exact ⟨_, (NetSide.calls_sendWithCmd hr).sends, rfl, rfl, o, p, hp, rfl⟩

/-- On its way up, a data packet is not answered. -/
theorem netInput_sends {env : AcceptEnv} {head : EncHead}
    (hr : s.netInput env info head payload = .ok (s', n)) :
    s'.net.sends = s.net.sends ∧ ∃ ns, s'.notes = s.notes ++ ns ∧ resets ns = [] := by
  have hconn : ∀ {s₁ : SubGroup} {p : ConnPtr}, s₁.connInput p info payload = .ok (s', n) →
      s'.net.sends = s₁.net.sends ∧ ∃ ns, s'.notes = s₁.notes ++ ns ∧ resets ns = [] := by
    intro s₁ p hr
    obtain ⟨s₂, c, c', m, hup, -, -, rfl⟩ := connInput_cases hr
    have hsends : s₂.net.sends = s₁.net.sends := by rw [hup.net]
    exact ⟨hsends, hup.notes⟩
  unfold netInput at hr
  split at hr
  · obtain ⟨conn, -, hr⟩ := bind_eq_ok.mp hr
    cases conn with
    | some p => exact hconn hr
    | none =>
      obtain ⟨⟨mgr, conn⟩, -, hr⟩ := bind_eq_ok.mp hr
      cases conn with
      | some conn =>
        obtain ⟨⟨s₁, p⟩, hadd, hr⟩ := bind_eq_ok.mp hr
        obtain ⟨net, -, hadd⟩ := bind_eq_ok.mp hadd
        obtain ⟨rfl, -⟩ := Prod.mk.inj (Except.ok.inj hadd)
        have hup := hconn hr
        exact hup
      | none =>
        obtain ⟨⟨s₁, n₁⟩, hs₁, hr⟩ := bind_eq_ok.mp hr
        obtain ⟨rfl, -⟩ := Prod.mk.inj (Except.ok.inj hr)
        have hup := goesUp_defaultInput hs₁
        exact ⟨congrArg NetSide.sends hup.net, hup.notes⟩
  · obtain ⟨rfl, -⟩ := Prod.mk.inj (Except.ok.inj hr)
    exact ⟨rfl, [], (List.append_nil _).symm, rfl⟩

/-- The resets that are noted for a data packet are what the group hands to `doSend` then, and each has
    the key it was noted with as its payload. -/
theorem resets_sent {o : ByteOrder} {env : AcceptEnv} {answer : SendEnv} {head : EncHead}
    (hhead : info.base.head = some head) (hcmd : head.mCmd = EncHead.typeData)
    (hr : s.input o env info payload answer = .ok s') :
    ∃ ns ss, s'.notes = s.notes ++ ns ∧ s'.net.sends = s.net.sends ++ ss ∧
      List.Forall₂ ResetFor (resets ns) ss := by
  rw [input, hhead] at hr
  dsimp only at hr
  rw [if_pos hcmd] at hr
  obtain ⟨⟨s₁, n₁⟩, hs₁, hr⟩ := bind_eq_ok.mp hr
  obtain ⟨hsends, ns, hns, hrst⟩ := netInput_sends hs₁
  dsimp only at hr
  split at hr
  · obtain ⟨net, hnet, hr⟩ := bind_eq_ok.mp hr
    obtain rfl := Except.ok.inj hr
    obtain ⟨e, he, hfor⟩ := resetFor_sendNetConnRst hnet
    refine ⟨ns ++ [.netConnRst head.mConnKey], [e], ?_, ?_, ?_⟩
    · rw [← List.append_assoc, ← hns]
      rfl
    · rw [← hsends]
      exact he
    · rw [resets_append, hrst]
      exact .cons hfor .nil
  · obtain rfl := Except.ok.inj hr
    refine ⟨ns, [], hns, ?_, ?_⟩
    · rw [hsends, List.append_nil]
    · rw [hrst]
      exact .nil

/-! ## Runs -/

/-- The net group leaves the conns of the group alone. -/
theorem toIGroup_netStep {e : NetSide.Event} (hr : s.netStep e = .ok s') :
    s'.toIGroup = s.toIGroup := by
  obtain ⟨net, -, hr⟩ := bind_eq_ok.mp hr
  obtain rfl := Except.ok.inj hr
  rfl

/-- What the server does with its conns is what an `IGroup` can do. -/
theorem runs_step {e : Event} (hr : s.step e = .ok s') :
    IGroup.Runs ConvKey s.toIGroup s'.toIGroup := by
  have hnet : ∀ {e}, s.netStep e = .ok s' → IGroup.Runs ConvKey s.toIGroup s'.toIGroup := by
    intro e hr
    rw [toIGroup_netStep hr]
    exact IGroup.Runs.refl _ _
  cases e with
  | input o env info payload answer => exact (input_spec hr).1
  | sconnSend p payload env n =>
    obtain ⟨c, hc, hr⟩ := bind_eq_ok.mp hr
    obtain ⟨net, -, hr⟩ := bind_eq_ok.mp hr
    obtain rfl := Except.ok.inj hr
    refine IGroup.runs_step (e := .call (.send p n)) ?_ (by simp)
    rw [IGroup.step, IGroup.call, hc]
    rfl
  | processTcpFinOrRst info => exact hnet hr
  | onTcpError p => exact hnet hr
  | flush =>
    obtain ⟨g, hg, hr⟩ := bind_eq_ok.mp hr
    rw [toIGroup_netStep hr]
    exact IGroup.runs_step (e := .flush) hg (by simp)
  | handleMessage => exact hnet hr
  | onFlush o timestamp env => exact hnet hr
  | onNetConnected => exact hnet hr
  | onNetDisconnected => exact hnet hr
  | netManager mgr =>
    obtain rfl := Except.ok.inj hr
    exact IGroup.Runs.refl _ _

/-- After every run each conn is under the key of its conv, and the group has kept its own key. -/
theorem each_run {id : IdBufType} {mgr : ServerNetManager} {es : List Event}
    (hr : run step (new id mgr) es = .ok s) :
    IGroup.Each ConvKey s.toIGroup ∧ s.mKey = idBuf2Str id := by
  refine run_invariant
    (J := fun s => IGroup.Each ConvKey s.toIGroup ∧ s.mKey = idBuf2Str id) ?_ ?_ hr
  · rintro s₁ e s₂ ⟨heach, hkey⟩ hstep
    have hruns := runs_step hstep
    exact ⟨heach.of_runs hruns, (IGroup.mKey_of_runs hruns).trans hkey⟩
  · exact ⟨IGroup.each_empty _ _, rfl⟩

/-- An event leaves the callbacks bound. -/
theorem bound_step {e : Event} (hB : Bound s) (hr : s.step e = .ok s') : Bound s' := by
  cases e with
  | input o env info payload answer => exact (input_spec hr).2 hB
  | sconnSend p payload env n =>
    obtain ⟨c, -, hr⟩ := bind_eq_ok.mp hr
    obtain ⟨net, hsend, hr⟩ := bind_eq_ok.mp hr
    obtain rfl := Except.ok.inj hr
    have hstep : s.net.step (.sendData c.obj.mConv payload env) = .ok net := hsend
    have hset := bound_setNet hB (NetSide.inv_step hB.net hstep)
      (netConns_step hB.net (by simp) hstep)
    exact ⟨hset.net, hset.conns, hset.defaultRecv, hset.netRecv⟩
  | processTcpFinOrRst info => exact bound_netStep hB (by simp) hr
  | onTcpError p => exact bound_netStep hB (by simp) hr
  | flush =>
    obtain ⟨g, -, hr⟩ := bind_eq_ok.mp hr
    have hB' : Bound { s with toIGroup := g } := ⟨hB.net, hB.conns, hB.defaultRecv, hB.netRecv⟩
    exact bound_netStep hB' (by simp) hr
  | handleMessage => exact bound_netStep hB (by simp) hr
  | onFlush o timestamp env => exact bound_netStep hB (by simp) hr
  | onNetConnected => exact bound_netStep hB (by simp) hr
  | onNetDisconnected => exact bound_netStep hB (by simp) hr
  | netManager mgr =>
    obtain rfl := Except.ok.inj hr
    exact ⟨hB.net, hB.conns, hB.defaultRecv, hB.netRecv⟩

/-- Whatever has happened, the callbacks a packet needs are set. -/
theorem bound_run {id : IdBufType} {mgr : ServerNetManager} {es : List Event}
    (hr : run step (new id mgr) es = .ok s) : Bound s :=
  run_invariant (fun _ _ _ hB hstep => bound_step hB hstep) (bound_new id mgr) hr

/-! ## The way of a data packet -/

/-- From `s` to `s'` the conn at `p` has received the payload, and no other conn has received anything.
    It is the conn under the key, which is made if there is none. -/
structure Delivered (s s' : SubGroup) (key : String) (payload : List UInt8) (p : Ptr) : Prop where
  found : s'.connOfKey key = some p
  same : s.connOfKey key = some p ∨ s.connOfKey key = none ∧ s.mHeap.get? p = none
  notes : s'.notes = s.notes ++ [.onRecv p payload]

theorem sconnInput_eq {p : Ptr} {c : IConn SConn} (hc : s.mHeap.get? p = some c) :
    s.sconnInput p payload = .ok (note { s with
      mHeap := s.mHeap.store p (c.input payload.length) } (.onRecv p payload), payload.length) := by
  rw [sconnInput, Heap.deref_eq_ok.mpr hc]
  rfl

/-- In a group that is in order `OnRecv` delivers the payload to the conn under its key. -/
theorem onRecv_spec {info : ConnInfo} {head : EncHead} (hI : IGroup.Inv IConn.ops s.toIGroup)
    (hhead : info.head = some head) (hne : payload ≠ []) :
    ∃ s' p, s.onRecv info payload = .ok (s', payload.length) ∧
      Delivered s s' (KeyGenerator.buildConvKey info.dst head.mConv) payload p := by
  rw [onRecv, if_pos (List.length_pos_of_ne_nil hne), hhead]
  dsimp only
  generalize KeyGenerator.buildConvKey info.dst head.mConv = key
  cases hf : s.connOfKey key with
  | some p =>
    obtain ⟨c, hc, -⟩ := hI.live_of_connOfKey hf
    exact ⟨_, p, sconnInput_eq hc.2, hf, .inl hf, rfl⟩
  | none =>
    have hnew : (s.newConn key head.mConv).1.mHeap.get? s.mHeap.cells.length =
        some { mKey := key, obj := { mConv := head.mConv } } := Heap.get?_alloc_self
    have hlive := (IGroup.live_addConn (q := s.mHeap.cells.length)
      (c := ({ mKey := key, obj := { mConv := head.mConv } } : IConn SConn)) hI hf).mpr (.inr ⟨rfl, rfl⟩)
    refine ⟨_, s.mHeap.cells.length, sconnInput_eq hnew, ?_, .inr ⟨hf, ?_⟩, rfl⟩
    · have hfound := (IGroup.inv_addConn hI).connOfKey_of_live hlive
      exact hfound
    · simp [Heap.get?]

/-- In a group that is in order the callback of the net group delivers the payload to the conn under its
    key. -/
theorem netOnRecv_spec (info : Info) {head : EncHead} (hI : IGroup.Inv IConn.ops s.toIGroup) (hB : Bound s)
    (hhead : info.base.head = some head) (hne : payload ≠ []) :
    ∃ s' p, s.netOnRecv info payload = .ok (s', payload.length) ∧
      Delivered s s' (KeyGenerator.buildConvKey info.base.dst head.mConv) payload p := by
  rw [netOnRecv, if_pos hB.netRecv]
  exact onRecv_spec hI hhead hne

/-- A TCP conn with a header takes every payload. -/
theorem onRecv_tcp {c : NetConn} {i : TcpInfo} (hhead : i.head.isSome) (m : Int) :
    ∃ c', c.onRecv (.tcp i) m = .ok (c', m) := by
  cases c with
  | fakeTcp c =>
    simp only [NetConn.onRecv, FakeTcp.onRecv, cassert_pos hhead, ok_bind]
    exact ⟨_, rfl⟩
  | fakeUdp c =>
    have hhead' : (Info.tcp i).base.head.isSome := hhead
    simp only [NetConn.onRecv, cassert_pos hhead', ok_bind]
    exact ⟨_, rfl⟩

/-- The way over a net conn. -/
theorem connInput_spec {p : ConnPtr} {c : NetConn} {i : TcpInfo} {head : EncHead}
    (hI : IGroup.Inv IConn.ops s.toIGroup) (hB : Bound s) (hp : p ∈ s.recvConns)
    (hc : s.net.mFakeNetGroup.heap.get? p = some c) (hhead : i.head = some head)
    (hne : payload ≠ []) :
    ∃ s' q, s.connInput p (.tcp i) payload = .ok (s', payload.length) ∧
      Delivered s s' (KeyGenerator.buildConvKey i.dst head.mConv) payload q := by
  obtain ⟨s₁, q, hup, hdel⟩ := netOnRecv_spec (.tcp i) hI hB hhead hne
  have hc₁ : s₁.net.mFakeNetGroup.heap.get? p = some c := by
    rw [(goesUp_netOnRecv hup).net]
    exact hc
  obtain ⟨c', hc'⟩ := onRecv_tcp (c := c) (i := i) (by simp [hhead]) payload.length
  have hstep : s.connInput p (.tcp i) payload = .ok ({ s₁ with net := { s₁.net with
      mFakeNetGroup.heap := s₁.net.mFakeNetGroup.heap.store p c' } }, payload.length) := by
    rw [connInput, connOnRecv, if_pos hp, hup]
    simp only [ok_bind, Heap.deref_eq_ok.mpr hc₁, hc']
    rfl
  exact ⟨_, q, hstep, hdel.found, hdel.same, hdel.notes⟩

/-- The way over the default conn. -/
theorem defaultInput_spec (info : Info) {head : EncHead} (hI : IGroup.Inv IConn.ops s.toIGroup) (hB : Bound s)
    (hhead : info.base.head = some head) (hne : payload ≠ []) :
    ∃ s' p, s.defaultInput info payload = .ok (s', payload.length) ∧
      Delivered s s' (KeyGenerator.buildConvKey info.base.dst head.mConv) payload p := by
  rw [defaultInput, if_pos hB.defaultRecv]
  exact netOnRecv_spec info hI hB hhead hne

/-! ### New net conns -/

/-- For a handle of the pool libuv reports the addresses it was accepted with. -/
def AddrsKept (mgr : ServerNetManager) (env : AcceptEnv) (i : ConnInfo) : Prop :=
  ∀ key helper, mgr.mPool.find? (TcpInfo.ofConnInfo i) = some (key, helper) →
    env.sock.tuple = key.tuple

/-- The handle `GetTcp` returns has the 4-tuple that was asked for. -/
theorem tuple_of_getTcp {mgr mgr' : ServerNetManager} {env : AcceptEnv} {i : ConnInfo} {tcp : UvTcp}
    {tcpInfo : TcpInfo} (haddrs : AddrsKept mgr env i)
    (hget : mgr.getTcp (TcpInfo.ofConnInfo i) env.wakes env.late = (mgr', some tcp, tcpInfo)) :
    env.sock.tuple = tcpInfo.tuple := by
  have hsame : tcpInfo.toConnInfo = i := ServerNetManager.getTcp_toConnInfo hget
  cases hf : mgr.mPool.find? (TcpInfo.ofConnInfo i) with
  | none =>
    rw [ServerNetManager.getTcp, hf] at hget
    cases hget
  | some e =>
    obtain ⟨key, helper⟩ := e
    have hkey := TcpCmpFn.same_iff.mp (mgr.mPool.find?_eq_some_iff.mp hf).2
    rw [haddrs key helper hf, hkey, hsame]
    rfl

/-- No assertion fails while the net conn of a handle is made. -/
theorem createNetConn_ok {mgr : ServerNetManager} {env : AcceptEnv} {i : TcpInfo} (k : IntKeyType)
    (haddrs : AddrsKept mgr env i.toConnInfo) :
    ∃ r, SNetGroup.createNetConn env mgr k (.tcp i) = .ok r := by
  unfold SNetGroup.createNetConn
  dsimp only
  split
  · exact ⟨_, rfl⟩
  · next hget =>
    rw [FakeTcp.new, cassert_pos (tuple_of_getTcp haddrs hget)]
    exact ⟨_, rfl⟩

/-- `AddNetConn` succeeds, and the new conn is bound and stored. -/
theorem addNetConn_spec (conn : NetConn) (hB : Bound s) :
    ∃ s' p, s.addNetConn conn = .ok (s', p) ∧ s'.toIGroup = s.toIGroup ∧ s'.notes = s.notes ∧
      p ∈ s'.recvConns ∧ s'.net.mFakeNetGroup.heap.get? p = some conn := by
  obtain ⟨life, hlife⟩ := ConnLife.addNetConn_ok conn hB.net.ledger.inv
  obtain ⟨hheap, -⟩ := ConnLife.addNetConn_cases hB.net.ledger.inv hlife
  have hadd : s.addNetConn conn = .ok ({ s with
      net := { s.net with mFakeNetGroup := life },
      recvConns := s.net.mFakeNetGroup.heap.cells.length :: s.recvConns },
      s.net.mFakeNetGroup.heap.cells.length) := by
    rw [addNetConn, hlife]
    rfl
  refine ⟨_, _, hadd, rfl, rfl, List.mem_cons_self, ?_⟩
  show life.heap.get? _ = some conn
  rw [hheap]
  exact Heap.get?_alloc_self

/-! ### The whole way -/

/-- There is no net conn with the key, and none can be made. -/
def NoConn (s : SubGroup) (env : AcceptEnv) (key : IntKeyType) (info : Info) : Prop :=
  s.net.mFakeNetGroup.group.mConnMap.get? key = none ∧
    ∃ mgr, SNetGroup.createNetConn env s.mNetManager key info = .ok (mgr, none)

/-- The result says whether there was a net conn. -/
theorem netInput_ok {env : AcceptEnv} {i : TcpInfo} {head : EncHead}
    (hI : IGroup.Inv IConn.ops s.toIGroup) (hB : Bound s)
    (haddrs : AddrsKept s.mNetManager env i.toConnInfo) (hhead : i.head = some head)
    (hne : payload ≠ []) :
    ∃ s' p n, s.netInput env (.tcp i) head payload = .ok (s', n) ∧
      Delivered s s' (KeyGenerator.buildConvKey i.dst head.mConv) payload p ∧
      (n = INetGroup.errNoConn ↔ s.NoConn env head.mConnKey (.tcp i)) := by
  have hlen : (payload.length : Int) ≠ INetGroup.errNoConn := by
    unfold INetGroup.errNoConn
    omega
  rw [netInput, if_pos (List.length_pos_of_ne_nil hne), hB.net.ledger.inv.connOfIntKey_eq, ok_bind]
  cases hf : s.net.mFakeNetGroup.group.mConnMap.get? head.mConnKey with
  | some p =>
    obtain ⟨c, hc, -⟩ := hB.net.ledger.inv.get?_conn hf
    have hp : p ∈ s.recvConns := hB.conns p (hB.net.ledger.inv.mem_ptrs hf)
    obtain ⟨s', q, hin, hdel⟩ := connInput_spec hI hB hp hc hhead hne
    refine ⟨s', q, _, hin, hdel, iff_of_false hlen ?_⟩
    rintro ⟨hnone, -⟩
    rw [hf] at hnone
    cases hnone
  | none =>
    obtain ⟨⟨mgr, conn⟩, hcreate⟩ := createNetConn_ok head.mConnKey haddrs
    have hB₁ : Bound { s with mNetManager := mgr } :=
      ⟨hB.net, hB.conns, hB.defaultRecv, hB.netRecv⟩
    simp only [hcreate, ok_bind]
    cases conn with
    | some conn =>
      obtain ⟨s₂, p, hadd, hconns, hnotes, hp, hc⟩ := addNetConn_spec conn hB₁
      have hI₂ : IGroup.Inv IConn.ops s₂.toIGroup := by
        rw [hconns]
        exact hI
      obtain ⟨s', q, hin, hdel⟩ :=
        connInput_spec hI₂ (bound_addNetConn hB₁ hadd) hp hc hhead hne
      simp only [hadd, ok_bind]
      refine ⟨s', q, _, hin, ⟨hdel.found, ?_, ?_⟩, iff_of_false hlen ?_⟩
      · have hsame := hdel.same
        rw [hconns] at hsame
        exact hsame
      · rw [hdel.notes, hnotes]
      · rintro ⟨-, mgr', hmgr'⟩
        rw [hcreate] at hmgr'
        cases hmgr'
    | none =>
      obtain ⟨s', q, hin, hdel⟩ := defaultInput_spec (s := { s with mNetManager := mgr })
        (.tcp i) hI hB₁ hhead hne
      simp only [hin, ok_bind]
      exact ⟨s', q, _, rfl, ⟨hdel.found, hdel.same, hdel.notes⟩, iff_of_true rfl ⟨hf, mgr, hcreate⟩⟩

/-- In every state a server can be in, a data packet that `RConn` has accepted from a TCP connection is
    received by one conn, once: the one under the key of the client's address and the conversation, which
    is made if there is none. A reset is sent for the net conn exactly if there was none and none
    could be made. -/
theorem data_delivered_once (id : IdBufType) (mgr : ServerNetManager) (es : List Event)
    (hr : run step (new id mgr) es = .ok s) (r : RConn) (md5 : Md5) (o : ByteOrder) (i : TcpInfo)
    (rbuf : List UInt8) (head : EncHead)
    (hacc : r.onRecv md5 o (.tcp i) rbuf = .ok (.deliver info head payload))
    (hcmd : head.mCmd = EncHead.typeData) (env : AcceptEnv)
    (haddrs : AddrsKept s.mNetManager env info.base) (answer : SendEnv) :
    ∃ s' p, s.step (.input o env info payload answer) = .ok s' ∧
      s'.connOfKey (KeyGenerator.buildConvKey info.base.dst head.mConv) = some p ∧
      (s.connOfKey (KeyGenerator.buildConvKey info.base.dst head.mConv) = some p ∨
        s.connOfKey (KeyGenerator.buildConvKey info.base.dst head.mConv) = none ∧
          s.mHeap.get? p = none) ∧
      (s.NoConn env head.mConnKey info ∧
          s'.notes = s.notes ++ [.onRecv p payload, .netConnRst head.mConnKey] ∨
        ¬ s.NoConn env head.mConnKey info ∧ s'.notes = s.notes ++ [.onRecv p payload]) := by
  obtain ⟨rfl, hne⟩ := RConn.of_deliver hacc
  have hB := bound_run hr
  obtain ⟨s₁, p, n, hin, hdel, hn⟩ := netInput_ok (i := { i with head := some head })
    (each_run hr).1.inv hB haddrs rfl hne
  have hhead : (Info.setHead head (.tcp i)).base.head = some head := rfl
  by_cases hno : n = INetGroup.errNoConn
  · -- over the default conn: the net side has not changed
    have hB₁ : Bound s₁ := (netInput_spec hin).2 hB
    obtain ⟨net, hnet⟩ := NetSide.sendNetConnRst_ok hB₁.net.ledger o head.mConnKey answer
    have hstep : s.step (.input o env (Info.setHead head (.tcp i)) payload answer) =
        .ok ((s₁.note (.netConnRst head.mConnKey)).setNet net) := by
      rw [step, input, hhead]
      dsimp only [Info.setHead]
      rw [if_pos hcmd, hin]
      simp only [ok_bind, if_pos hno]
      show (s₁.net.sendNetConnRst o head.mConnKey answer >>= _) = _
      rw [hnet]
      rfl
    refine ⟨_, p, hstep, hdel.found, hdel.same, .inl ⟨hn.mp hno, ?_⟩⟩
    show s₁.notes ++ [.netConnRst head.mConnKey] = _
    rw [hdel.notes, List.append_assoc]
    rfl
  · have hstep : s.step (.input o env (Info.setHead head (.tcp i)) payload answer) = .ok s₁ := by
      rw [step, input, hhead]
      dsimp only [Info.setHead]
      rw [if_pos hcmd, hin]
      simp only [ok_bind, if_neg hno]
      rfl
    exact ⟨s₁, p, hstep, hdel.found, hdel.same, .inr ⟨fun h => hno (hn.mpr h), hdel.notes⟩⟩

end SubGroup

/-- A server that has accepted no connection. -/
def idleServer : SubGroup := SubGroup.new (Buf.zeros 8) { mTcpAckPool := { expireIntervalMs := 1000 } }

/-- `GetTcp` finds nothing. -/
def noHandle : AcceptEnv := { wakes := [], late := [], sock := {}, readStart := 0, now := 0 }

/-- Nothing is sent. -/
def noSend : SendEnv := { picks := [], out := fun _ _ => -1 }

/-- A packet from the address `dst`. -/
def packetFrom (dst : UInt32) (head : EncHead) : Info := .tcp { dst := dst, head := some head }

/-- The handshake of a connection is recorded, and its handle is in the pool. -/
def mgr24 : ServerNetManager :=
  (ServerNetManager.fresh.run
    [.addInfoFromPeer ServerNetManager.syn24, .onNewConnection 5 0 ServerNetManager.conn24 0]).1

/-- libuv reports the addresses of this connection. -/
def handle24 : AcceptEnv := { noHandle with sock := ServerNetManager.conn24.toConnInfo }

/-- The first packet of conversation 5, over a net conn 7 the server does not know: once without a handle
    in the pool, and once with the handle of the connection it has come over, which becomes the conn. -/
theorem SubGroup.data_delivered_two_ways :
    (∃ s' p, idleServer.step (.input .little noHandle
        (packetFrom 0x04030201 { mConv := 5, mConnKey := 7, len := 23 }) [42] noSend) = .ok s' ∧
      s'.connOfKey (KeyGenerator.buildConvKey 0x04030201 5) = some p ∧
      s'.notes = [.onRecv p [42], .netConnRst 7]) ∧
    ∃ s' p, (SubGroup.new (Buf.zeros 8) mgr24).step (.input .little handle24
        (.tcp { ServerNetManager.conn24 with
          head := some { mConv := 5, mConnKey := 7, len := 23 } }) [42] noSend) = .ok s' ∧
      s'.connOfKey (KeyGenerator.buildConvKey ServerNetManager.conn24.dst 5) = some p ∧
      s'.notes = [.onRecv p [42]] ∧ s'.net.mFakeNetGroup.group.mConnMap.get? 7 = some 0 := by
  have hlen : 0 < ([42] : List UInt8).length := by decide
  have hacc (i : TcpInfo) := RConn.onRecv_packet { mHashKey := [107] } md5OfStar .little (.tcp i)
    { mConv := 5, mConnKey := 7 } hlen
  constructor
  · have haddrs : AddrsKept idleServer.mNetManager noHandle
        (packetFrom 0x04030201 { mConv := 5, mConnKey := 7, len := 23 }).base := by
      rintro key helper ⟨⟩
    obtain ⟨s', p, hstep, hfound, -, hnotes⟩ := data_delivered_once (Buf.zeros 8)
      { mTcpAckPool := { expireIntervalMs := 1000 } } [] rfl _ md5OfStar .little
      { dst := 0x04030201 } _ _ (hacc _) rfl noHandle haddrs noSend
    refine ⟨s', p, hstep, hfound, ?_⟩
    rcases hnotes with ⟨-, hnotes⟩ | ⟨hconn, -⟩
    · exact hnotes
    · have hno : idleServer.NoConn noHandle 7
          (packetFrom 0x04030201 { mConv := 5, mConnKey := 7, len := 23 }) :=
        ⟨rfl, _, rfl⟩
      exact absurd hno hconn
  · let info : Info := .tcp { ServerNetManager.conn24 with
      head := some { mConv := 5, mConnKey := 7, len := 23 } }
    have haddrs : AddrsKept mgr24 handle24 info.base := by
      intro key helper hf
      have hkey := TcpCmpFn.same_iff.mp (mgr24.mPool.find?_eq_some_iff.mp hf).2
      exact hkey.symm
    have hnet : (((SubGroup.new (Buf.zeros 8) mgr24).step (.input .little handle24 info [42] noSend)).map
        fun s' => s'.net.mFakeNetGroup.group.mConnMap.get? 7) = .ok (some 0) := by
      decide +kernel
    obtain ⟨s', p, hstep, hfound, -, hnotes⟩ := data_delivered_once (Buf.zeros 8) mgr24 [] rfl _ md5OfStar
      .little ServerNetManager.conn24 _ _ (hacc _) rfl handle24 haddrs noSend
    have hget : s'.net.mFakeNetGroup.group.mConnMap.get? 7 = some 0 := by
      have hstep' : (SubGroup.new (Buf.zeros 8) mgr24).step (.input .little handle24 info [42] noSend) =
          .ok s' := hstep
      rw [hstep'] at hnet
      exact Except.ok.inj hnet
    refine ⟨s', p, hstep, hfound, ?_, hget⟩
    rcases hnotes with ⟨⟨-, mgr, hno⟩, -⟩ | ⟨-, hnotes⟩
    · -- the handle has been taken out of the pool
      cases hno
    · exact hnotes

end Rsock
