import Mathlib.Data.List.TakeDrop
import Rsock.ClientNetManager
import Rsock.Proofs.NetGroupLifeProofs
import Rsock.Proofs.ServerNetManagerProofs

/-!
# Proofs: redialing

The token of a server port: a conn in the tables of the net group, a waiting message about a dead one,
or a pending dial. The net group only moves tokens from its tables to its messages, a message that is
dispatched becomes a dial, and a dial becomes a conn. The only step that loses one is the last.
-/

namespace Rsock

open CMem TransSys KeyGenerator

/-! ## The conns of a server port -/

namespace NetConn

def dp (c : NetConn) : UInt16 := c.getInfo.base.dp

/-- A conn keeps its port. -/
theorem Like.dp_eq {c c' : NetConn} (hl : Like c c') : c'.dp = c.dp := by
  cases c <;> cases c' <;> first
    | exact congrArg (fun t => t.2.2.2) hl.2
    | exact hl.elim

theorem Like.of_fakeTcp {c : FakeTcp} {c' : NetConn} (hl : Like (.fakeTcp c) c') :
    ∃ d, c' = .fakeTcp d := by
  cases c' with
  | fakeTcp d => exact ⟨d, rfl⟩
  | fakeUdp d => exact hl.elim

theorem Like.to_fakeTcp {c : NetConn} {c' : FakeTcp} (hl : Like c (.fakeTcp c')) :
    ∃ d, c = .fakeTcp d ∧ c'.mInfo.dp = d.mInfo.dp := by
  cases c with
  | fakeTcp d => exact ⟨d, rfl, hl.dp_eq⟩
  | fakeUdp d => exact hl.elim

/-- Only a `FakeTcp` dies. -/
theorem fakeTcp_of_dead {c : NetConn} (h : c.alive = false) : ∃ d, c = .fakeTcp d := by
  cases c with
  | fakeTcp d => exact ⟨d, rfl⟩
  | fakeUdp d => cases h

end NetConn

namespace INetGroup

open NetConn

variable {g g' : INetGroup} {h h' : Heap NetConn}

/-- The conn at `p` is to the server port. -/
def isTo (h : Heap NetConn) (port : UInt16) (p : ConnPtr) : Bool :=
  (h.get? p).any fun c => c.dp = port

theorem isTo_of_get? {c : NetConn} {p : ConnPtr} (hc : h.get? p = some c) (port : UInt16) :
    isTo h port p = decide (c.dp = port) := by
  rw [isTo, hc, Option.any_some]

/-- Conns keep their ports while they change. -/
theorem countP_isTo_evolves {ps : List ConnPtr} (hps : ∀ p ∈ ps, ∃ c, h.get? p = some c)
    (hev : Heap.Evolves Like h h') (port : UInt16) :
    ps.countP (isTo h' port) = ps.countP (isTo h port) := by
  apply List.countP_congr
  intro p hp
  obtain ⟨c, hc⟩ := hps p hp
  obtain ⟨c', hc', hl⟩ := hev p c hc
  rw [isTo_of_get? hc, isTo_of_get? hc', hl.dp_eq]

/-- The waiting messages are about conns that were a `FakeTcp`. -/
def QueuedTcp (g : INetGroup) (h : Heap NetConn) : Prop :=
  ∀ p ∈ g.mHandler, ∃ c, h.get? p = some (.fakeTcp c)

theorem queuedTcp_evolves (hq : QueuedTcp g h) (hev : Heap.Evolves Like h h') : QueuedTcp g h' := by
  intro p hp
  obtain ⟨c, hc⟩ := hq p hp
  obtain ⟨c', hc', hl⟩ := hev p _ hc
  obtain ⟨d, rfl⟩ := hl.of_fakeTcp
  exact ⟨d, hc'⟩

/-- Whatever is done to the group, only `FakeTcp`s wait in its queue. -/
theorem queuedTcp_of_doesAll {as : List ConnAct} (hall : DoesAll g h as g' h') (hq : QueuedTcp g h) :
    QueuedTcp g' h' := by
  induction hall with
  | nil => exact hq
  | cons hdoes _ ih =>
    apply ih
    have hev := (keeps_doesAll (P := Any) (fun _ _ _ _ => trivial) (.single hdoes)).evolves
    cases hdoes with
    | childConnErr _ hc hdead hr =>
      obtain ⟨_, -, rfl⟩ := childConnErrCb_cases hr
      intro p hp
      rcases List.mem_append.mp hp with hp | hp
      · exact hq p (List.mem_of_mem_erase hp)
      · -- only a `FakeTcp` can be dead
        obtain rfl := List.mem_singleton.mp hp
        obtain ⟨d, rfl⟩ := fakeTcp_of_dead hdead
        exact ⟨d, hc⟩
    | output => exact queuedTcp_evolves hq hev
    | onRecv => exact queuedTcp_evolves hq hev
    | notifyErr => exact queuedTcp_evolves hq hev

/-- Every `FakeTcp` is to one of the ports. -/
def ConnsTo (ports : UInt16 → Prop) (h : Heap NetConn) : Prop :=
  ∀ p c, h.get? p = some (.fakeTcp c) → ports c.mInfo.dp

theorem connsTo_evolves {ports : UInt16 → Prop} (hports : ConnsTo ports h)
    (hev : Heap.Evolves Like h h') (hcells : ∀ p, h'.get? p = none ↔ h.get? p = none) :
    ConnsTo ports h' := by
  intro p c' hc'
  obtain ⟨c, hc⟩ : ∃ c, h.get? p = some c := by
    rw [← Option.ne_none_iff_exists', Ne, ← hcells p, hc']
    simp
  obtain ⟨c'', hc'', hl⟩ := hev p c hc
  obtain rfl : c'' = .fakeTcp c' := Option.some.inj (hc''.symm.trans hc')
  obtain ⟨d, rfl, hdp⟩ := hl.to_fakeTcp
  rw [hdp]
  exact hports p d hc

end INetGroup

/-! ## Tokens -/

namespace CSockApp

open INetGroup NetConn

variable {s s' : CSockApp} {ports : UInt16 → Prop}

/-- The conns to a server port in the tables of the net group, the waiting messages about such conns
    and the pending dials of the port. -/
def tokens (s : CSockApp) (port : UInt16) : Nat :=
  (s.mBridge.group.mConns.entries.map Prod.snd).countP (isTo s.mBridge.heap port) +
    s.mBridge.group.mHandler.countP (isTo s.mBridge.heap port) +
    s.mNetManager.mPending.countP fun d => d.info.dp = port

/-- A port is kept by a conn of the group, a conn in the queue or a pending dial. -/
theorem tokens_eq (s : CSockApp) (port : UInt16) :
    s.tokens port = s.mBridge.group.tracked.countP (isTo s.mBridge.heap port) +
      s.mNetManager.mPending.countP fun d => d.info.dp = port := by
  rw [tokens, tracked, List.countP_append]

/-- The ledger of the net group is in order, and there is nothing to redial but TCP conns to `ports`. -/
structure Inv (ports : UInt16 → Prop) (s : CSockApp) : Prop where
  ledger : s.mBridge.Ledger
  queued : QueuedTcp s.mBridge.group s.mBridge.heap
  conns : ConnsTo ports s.mBridge.heap
  pending : ∀ d ∈ s.mNetManager.mPending, ports d.info.dp

/-- An event of the net group that neither adds nor deletes a conn. -/
theorem inv_bridgeStep {e : ConnLife.Event} (hI : Inv ports s) (hadds : s.mBridge.adds e = none)
    (he : e ≠ .handleMessage) (hr : s.bridgeStep e = .ok s') :
    Inv ports s' ∧ ∀ port, s'.tokens port = s.tokens port := by
  obtain ⟨bridge, hstep, hr⟩ := bind_eq_ok.mp hr
  obtain rfl := Except.ok.inj hr
  obtain ⟨hL, -⟩ := ConnLife.ledger_step hI.ledger hstep
  obtain ⟨-, as, hall⟩ := ConnLife.doesAll_step hI.ledger.inv hadds he hstep
  have hnd : s.mBridge.group.tracked.Nodup := (List.nodup_append.mp hI.ledger.nodup).1
  obtain ⟨-, hperm, -, hcells⟩ := moves_of_doesAll hall hI.ledger.inv hnd
  have hev := (keeps_doesAll (P := Any) (fun _ _ _ _ => trivial) hall).evolves
  refine ⟨⟨hL, queuedTcp_of_doesAll hall hI.queued, connsTo_evolves hI.conns hev hcells,
    hI.pending⟩, ?_⟩
  intro port
  rw [tokens_eq, tokens_eq, hperm.countP_eq,
    countP_isTo_evolves (fun p hp => hI.ledger.get?_of_tracked hp) hev]

/-! ## Messages and dials -/

/-- A conn that is closed is dialed again. -/
theorem inv_handleMessage {now : UInt64} (hI : Inv ports s) (hr : s.handleMessage now = .ok s') :
    Inv ports s' ∧ ∀ port, s'.tokens port = s.tokens port := by
  obtain ⟨⟨bridge, info⟩, hmsg, hr⟩ := bind_eq_ok.mp hr
  have hstep : s.mBridge.step .handleMessage = .ok bridge := by
    rw [ConnLife.step, hmsg]
    rfl
  obtain ⟨hL, -⟩ := ConnLife.ledger_step hI.ledger hstep
  rcases ConnLife.handleMessage_spec hI.ledger hmsg with
    ⟨rfl, rfl⟩ | ⟨p, c, hq, hc, rfl, hperm, hsame, -, hleft⟩
  · obtain rfl := Except.ok.inj hr
    exact ⟨hI, fun _ => rfl⟩
  · obtain ⟨d, hd⟩ := hI.queued p (hq ▸ List.mem_cons_self)
    obtain rfl : NetConn.fakeTcp d = c := Option.some.inj (hd.symm.trans hc)
    obtain rfl := Except.ok.inj hr
    refine ⟨⟨hL, ?_, ?_, ?_⟩, ?_⟩
    · intro q hmem
      obtain ⟨d', hd'⟩ := hI.queued q (hq ▸ List.mem_cons_of_mem p hmem)
      exact ⟨d', (hsame q (List.mem_append_right _ hmem)).trans hd'⟩
    · intro q d' hd'
      exact hI.conns q d' (hleft q _ hd')
    · intro d' hd'
      rcases List.mem_append.mp hd' with hd' | hd'
      · exact hI.pending d' hd'
      · obtain rfl := List.mem_singleton.mp hd'
        exact hI.conns p d hd
    · intro port
      have hcount : bridge.group.tracked.countP (isTo bridge.heap port) =
          bridge.group.tracked.countP (isTo s.mBridge.heap port) := by
        apply List.countP_congr
        intro q hmem
        rw [isTo, isTo, hsame q hmem]
      rw [tokens_eq, tokens_eq, hperm.countP_eq, List.countP_cons, isTo_of_get? hd]
      simp only [onNetConnErr, NetConn.getInfo, ClientNetManager.dialTcpAsync, List.countP_append,
        List.countP_cons, List.countP_nil, NetConn.dp, Info.base, hcount]
      by_cases hport : d.mInfo.dp = port
      · simp only [hport, decide_true, if_true]
        omega
      · simp [hport]

/-! ### Dials that are started -/

/-- No dial is given up while retries are left. -/
theorem map_info_flushLoop {now : UInt64} (connects : List Bool) (reqs : Nat) {l : List DialHelper}
    (hretry : ∀ d ∈ l, 0 < d.nRetry) :
    (ClientNetManager.flushLoop now connects reqs l).1.map (·.info) = l.map (·.info) := by
  induction l generalizing connects reqs with
  | nil => rfl
  | cons d l ih =>
    have hd : ¬ d.nRetry ≤ 0 := Int.not_le.mpr (hretry d List.mem_cons_self)
    have ih' := fun connects reqs =>
      ih connects reqs fun d' hd' => hretry d' (List.mem_cons_of_mem _ hd')
    rw [ClientNetManager.flushLoop, if_neg hd]
    split
    · split
      · exact congrArg (d.info :: ·) (ih' _ _)
      · exact congrArg (d.info :: ·) (ih' _ _)
    · exact congrArg (d.info :: ·) (ih' _ _)

/-- Dials with retries left stay. -/
theorem map_info_flushPending {m : ClientNetManager} {now : UInt64} {connects : List Bool}
    (hretry : ∀ d ∈ m.mPending, 0 < d.nRetry) :
    (m.flushPending now connects).mPending.map (·.info) = m.mPending.map (·.info) := by
  rw [ClientNetManager.flushPending]
  split
  · exact map_info_flushLoop _ _ hretry
  · rfl

/-- A change of the pending dials that keeps what they dial. -/
theorem inv_pending {m : ClientNetManager} (pool : TcpAckPool) (hI : Inv ports s)
    (hm : m.mPending.map (·.info) = s.mNetManager.mPending.map (·.info)) :
    Inv ports { s with mNetManager := m, mAckPool := pool } ∧
      ∀ port, tokens { s with mNetManager := m, mAckPool := pool } port = s.tokens port := by
  refine ⟨⟨hI.ledger, hI.queued, hI.conns, ?_⟩, ?_⟩
  · intro d hd
    have hmem : d.info ∈ s.mNetManager.mPending.map (·.info) := hm ▸ List.mem_map_of_mem hd
    obtain ⟨d', hd', heq⟩ := List.mem_map.mp hmem
    rw [← heq]
    exact hI.pending d' hd'
  · intro port
    have hcount := congrArg (List.countP fun i : ConnInfo => decide (i.dp = port)) hm
    rw [List.countP_map, List.countP_map] at hcount
    exact congrArg (_ + ·) hcount

/-! ### Dials that have come to an end -/

/-- What the constructor leaves. -/
theorem fakeTcp_new_cases {sock : ConnInfo} {key : IntKeyType} {info : TcpInfo} {now : UInt64}
    {c : FakeTcp} (hr : FakeTcp.new sock key info now = .ok c) :
    c.mIntKey = key ∧ c.mInfo = info := by
  obtain ⟨-, -, hr⟩ := bind_eq_ok.mp hr
  obtain rfl := Except.ok.inj hr
  exact ⟨rfl, rfl⟩

/-- The conn a dial creates is to the port that was dialed, under the key of its ports. -/
theorem createINetConn_info {pool pool' : TcpAckPool} {env : ConnectEnv} {info : ConnInfo}
    {c : FakeTcp}
    (hr : ClientNetManager.createINetConn pool (env.dialEnv info) = .ok (pool', some c)) :
    c.mInfo.dp = info.dp ∧ c.mIntKey = portKey typeTcp env.sp info.dp := by
  unfold ClientNetManager.createINetConn at hr
  split at hr
  · next hnret =>
    have hnret' : env.nret = 0 := hnret
    split at hr
    · next pool₁ tcpInfo hwait =>
      obtain ⟨key, hkey, hr⟩ := bind_eq_ok.mp hr
      obtain ⟨c', hnew, hr⟩ := bind_eq_ok.mp hr
      obtain ⟨-, -, hkey⟩ := bind_eq_ok.mp hkey
      obtain rfl : c' = c := Option.some.inj (congrArg Prod.snd (Except.ok.inj hr))
      obtain ⟨hc, hi⟩ := fakeTcp_new_cases hnew
      have hinfo : tcpInfo.toConnInfo = env.sock info := by
        rw [TcpAckPool.wait2TransferInfo_toConnInfo hwait]
        show (getTcpInfo env.nret (env.sock info)).toConnInfo = _
        rw [getTcpInfo, if_pos hnret', TcpInfo.ofConnInfo]
      rw [hi, hc, ← Except.ok.inj hkey, TcpInfo.ofConnInfo, hinfo]
      exact ⟨rfl, rfl⟩
    · cases hr
  · cases hr

/-- The dial `d` with the request has come to a conn, which `onTcpConnect` hands to the callback. -/
def Dialed (s : CSockApp) (req : Nat) (status : Int) (env : ConnectEnv) (d : DialHelper) : Prop :=
  s.mNetManager.mPending.find? (fun d => d.req = some req) = some d ∧ status = 0 ∧
    (∃ pool c, ClientNetManager.createINetConn s.mAckPool (env.dialEnv d.info) = .ok (pool, some c)) ∧
    env.nretConnect = 0 ∧ d.info.dp ≠ 0 ∧ d.info.dst ≠ 0

/-- When a dial has come to a conn, reading from it can be started and the key of its ports is free. -/
def KeepsPort (s : CSockApp) : Event → Prop
  | .onTcpConnect req status env => ∀ d, s.Dialed req status env d →
      env.readStart = 0 ∧
        s.mBridge.group.mConns.find? (strForIntKey (portKey typeTcp env.sp d.info.dp)) = none
  | _ => True

theorem span_eq {req : Nat} {l before rest : List DialHelper}
    (h : (l.span fun d => d.req ≠ some req) = (before, rest)) :
    l = before ++ rest ∧ l.find? (fun d => d.req = some req) = rest.head? := by
  rw [List.span_eq_takeWhile_dropWhile, Prod.mk.injEq] at h
  obtain ⟨rfl, rfl⟩ := h
  refine ⟨List.takeWhile_append_dropWhile.symm, ?_⟩
  induction l with
  | nil => rfl
  | cons d l ih =>
    by_cases hd : d.req = some req
    · simp [hd]
    · simp [hd, ih]

/-- The conn of a dial is added, unless its `Init` fails. -/
theorem tcpDialAsyncCb_cases {c : FakeTcp} {readStart : Int}
    (hr : s.tcpDialAsyncCb c readStart = .ok s') :
    ∃ b, s' = { s with mBridge := b } ∧ (readStart ≠ 0 ∧ b = s.mBridge ∨
      readStart = 0 ∧ s.mBridge.addNetConn (.fakeTcp (c.init readStart).1) = .ok b) := by
  unfold tcpDialAsyncCb at hr
  dsimp only at hr
  split at hr
  · next hinit =>
    obtain rfl := Except.ok.inj hr
    exact ⟨_, rfl, .inl ⟨hinit, rfl⟩⟩
  · next hinit =>
    obtain ⟨b, hb, hr⟩ := bind_eq_ok.mp hr
    obtain rfl := Except.ok.inj hr
    exact ⟨b, rfl, .inr ⟨not_not.mp hinit, hb⟩⟩

/-- The entry of a completed request either stays pending, or it has come to a conn, which goes to the
    callback. -/
theorem onTcpConnectEntry_cases {status : Int} {env : ConnectEnv} {before after : List DialHelper}
    {d : DialHelper} (hr : s.onTcpConnectEntry status env before d after = .ok s') :
    (∃ pool, s' = { s with
        mNetManager.mPending := before ++ { d with req := none }.dialFailed env.now :: after
        mAckPool := pool } ∧
      ¬ (status = 0 ∧ (∃ pool c,
          ClientNetManager.createINetConn s.mAckPool (env.dialEnv d.info) = .ok (pool, some c)) ∧
        env.nretConnect = 0 ∧ d.info.dp ≠ 0 ∧ d.info.dst ≠ 0)) ∨
    ∃ pool pool' c b, status = 0 ∧
      ClientNetManager.createINetConn s.mAckPool (env.dialEnv d.info) = .ok (pool, some c) ∧
      env.nretConnect = 0 ∧ d.info.dp ≠ 0 ∧ d.info.dst ≠ 0 ∧
      s' = { s with mBridge := b, mAckPool := pool', mNetManager.mPending := before ++ after } ∧
      (env.readStart ≠ 0 ∧ b = s.mBridge ∨
        env.readStart = 0 ∧ s.mBridge.addNetConn (.fakeTcp (c.init env.readStart).1) = .ok b) := by
  unfold onTcpConnectEntry at hr
  dsimp only at hr
  split at hr
  · next hstatus =>
    obtain rfl := Except.ok.inj hr
    exact .inl ⟨_, rfl, fun h => hstatus h.1⟩
  · next hstatus =>
    obtain ⟨⟨pool, c⟩, hnew, hr⟩ := bind_eq_ok.mp hr
    cases c with
    | none =>
      obtain rfl := Except.ok.inj hr
      refine .inl ⟨_, rfl, ?_⟩
      rintro ⟨-, ⟨pool', c', hnew'⟩, -⟩
      rw [hnew] at hnew'
      cases hnew'
    | some c =>
      dsimp only at hr
      split at hr
      · next hinfo =>
        obtain rfl := Except.ok.inj hr
        refine .inl ⟨_, rfl, ?_⟩
        rintro ⟨-, -, hnret, hdp, hdst⟩
        rw [getTcpInfo, if_pos hnret] at hinfo
        rcases hinfo with hinfo | hinfo | hinfo
        · exact hinfo hnret
        · exact hdp hinfo
        · exact hdst hinfo
      · next hinfo =>
        obtain ⟨s₁, hcb, hr⟩ := bind_eq_ok.mp hr
        obtain rfl := Except.ok.inj hr
        obtain ⟨b, rfl, hb⟩ := tcpDialAsyncCb_cases hcb
        simp only [not_or, not_not] at hinfo
        obtain ⟨hnret, hdp, hdst⟩ := hinfo
        rw [getTcpInfo, if_pos hnret] at hdp hdst
        exact .inr ⟨pool, _, c, b, not_not.mp hstatus, hnew, hnret, hdp, hdst, rfl, hb⟩

/-- A completion either leaves the dial pending, or the conn goes to the callback and the entry is
    erased, whatever the callback does with the conn. -/
theorem onTcpConnect_cases {req : Nat} {status : Int} {env : ConnectEnv}
    (hr : s.onTcpConnect req status env = .ok s') :
    (∃ m pool, s' = { s with mNetManager := m, mAckPool := pool } ∧
      m.mPending.map (·.info) = s.mNetManager.mPending.map (·.info) ∧
      ∀ d, ¬ s.Dialed req status env d) ∨
    ∃ before d after pool b, ∃ c : FakeTcp, s.mNetManager.mPending = before ++ d :: after ∧
      s.Dialed req status env d ∧
      c.mInfo.dp = d.info.dp ∧ c.mIntKey = portKey typeTcp env.sp d.info.dp ∧
      s' = { s with mBridge := b, mAckPool := pool, mNetManager.mPending := before ++ after } ∧
      (env.readStart ≠ 0 ∧ b = s.mBridge ∨
        env.readStart = 0 ∧ s.mBridge.addNetConn (.fakeTcp (c.init env.readStart).1) = .ok b) := by
  unfold onTcpConnect at hr
  split at hr
  · next before d after hspan =>
    obtain ⟨hsplit, hfind⟩ := span_eq hspan
    rcases onTcpConnectEntry_cases hr with ⟨pool, rfl, hnot⟩ |
      ⟨pool, pool', c, b, hstatus, hnew, hnret, hdp, hdst, rfl, hb⟩
    · refine .inl ⟨_, _, rfl, ?_, ?_⟩
      · rw [hsplit, List.map_append, List.map_append]
        rfl
      · intro d' hd'
        obtain rfl : d' = d := Option.some.inj (hd'.1.symm.trans hfind)
        exact hnot hd'.2
    · obtain ⟨hdp', hkey⟩ := createINetConn_info hnew
      exact .inr ⟨before, d, after, pool', b, c, hsplit,
        ⟨hfind, hstatus, ⟨pool, c, hnew⟩, hnret, hdp, hdst⟩, hdp', hkey, rfl, hb⟩
  · next before hspan =>
    obtain rfl := Except.ok.inj hr
    refine .inl ⟨_, _, rfl, rfl, ?_⟩
    intro d hd
    have hnone := (span_eq hspan).2
    rw [hd.1] at hnone
    cases hnone

/-- A new conn comes to the group. -/
theorem inv_addNetConn {conn : NetConn} {b : ConnLife} (hI : Inv ports s)
    (hconn : ∀ c, conn = .fakeTcp c → ports c.mInfo.dp)
    (hadd : s.mBridge.addNetConn conn = .ok b) :
    Inv ports { s with mBridge := b } ∧
    ∀ port, b.group.tracked.countP (isTo b.heap port) =
      s.mBridge.group.tracked.countP (isTo s.mBridge.heap port) +
        if s.mBridge.group.mConns.find? conn.key = none ∧ conn.dp = port then 1 else 0 := by
  obtain ⟨hheap, -, -, hfree, htaken⟩ := ConnLife.addNetConn_cases hI.ledger.inv hadd
  have hev : Heap.Evolves Like s.mBridge.heap b.heap :=
    hheap ▸ Heap.evolves_alloc like_refl s.mBridge.heap conn
  have hcount := fun port => countP_isTo_evolves (h := s.mBridge.heap)
    (fun p hp => hI.ledger.get?_of_tracked hp) hev port
  refine ⟨⟨(ConnLife.ledger_addNetConn hI.ledger hadd).1, ?_, ?_, hI.pending⟩, ?_⟩
  · have hq : b.group.mHandler = s.mBridge.group.mHandler := ConnLife.mHandler_addNetConn hadd
    intro p hp
    exact queuedTcp_evolves hI.queued hev p (hq ▸ hp)
  · intro p c hc
    rw [hheap] at hc
    rcases Heap.get?_alloc_cases hc with hc | ⟨-, hc⟩
    · exact hI.conns p c hc
    · exact hconn c hc.symm
  · intro port
    by_cases hkey : s.mBridge.group.mConns.find? conn.key = none
    · have hnew : b.heap.get? s.mBridge.heap.cells.length = some conn := hheap ▸ Heap.get?_alloc_self
      rw [(hfree hkey).countP_eq, List.countP_cons, hcount, isTo_of_get? hnew]
      simp [hkey]
    · rw [htaken hkey, hcount]
      simp [hkey]

/-! ## Runs -/

/-- No pending dial has used up its retries. -/
def RetriesLeft (s : CSockApp) (_ : Event) : Prop := ∀ d ∈ s.mNetManager.mPending, 0 < d.nRetry

/-- The end of a dial keeps the port, except when `Init` fails. -/
theorem onTcpConnect_spec {req : Nat} {status : Int} {env : ConnectEnv} (hI : Inv ports s)
    (hr : s.onTcpConnect req status env = .ok s') :
    Inv ports s' ∧
    (s.KeepsPort (.onTcpConnect req status env) → ∀ port, s'.tokens port = s.tokens port) ∧
    (¬ s.KeepsPort (.onTcpConnect req status env) →
      ∃ port, ports port ∧ s'.tokens port + 1 = s.tokens port) := by
  rcases onTcpConnect_cases hr with ⟨m, pool, rfl, hmap, hnot⟩ |
    ⟨before, d, after, pool, b, c, hsplit, hdial, hdp, hkey, rfl, hb⟩
  · obtain ⟨hI', htok⟩ := inv_pending pool hI hmap
    refine ⟨hI', fun _ => htok, ?_⟩
    intro hkeeps
    exact absurd (fun d hd => absurd hd (hnot d)) hkeeps
  · have hport : ports d.info.dp := hI.pending d (by rw [hsplit]; simp)
    have hpending : ∀ d' ∈ before ++ after, ports d'.info.dp := by
      intro d' hd'
      apply hI.pending d'
      rw [hsplit]
      rcases List.mem_append.mp hd' with hd' | hd'
      · exact List.mem_append_left _ hd'
      · exact List.mem_append_right _ (List.mem_cons_of_mem _ hd')
    have honly : s.KeepsPort (.onTcpConnect req status env) ↔ env.readStart = 0 ∧
        s.mBridge.group.mConns.find? (strForIntKey (portKey typeTcp env.sp d.info.dp)) = none := by
      constructor
      · intro hkeeps
        exact hkeeps d hdial
      · intro hfree d' hd'
        obtain rfl : d' = d := Option.some.inj (hd'.1.symm.trans hdial.1)
        exact hfree
    rw [honly]
    rcases hb with ⟨hstart, rfl⟩ | ⟨hstart, hadd⟩
    · -- `Init` has failed: the conn is closed, and the entry of the dial is gone
      refine ⟨⟨hI.ledger, hI.queued, hI.conns, hpending⟩, fun h => absurd h.1 hstart, ?_⟩
      intro _
      refine ⟨d.info.dp, hport, ?_⟩
      rw [tokens_eq, tokens_eq, hsplit]
      simp only [List.countP_append, List.countP_cons, decide_true, if_true]
      omega
    · obtain ⟨hI', hcount⟩ := inv_addNetConn hI
        (by rintro _ ⟨⟩; exact hdp.symm ▸ hport) hadd
      have hkey' : (NetConn.fakeTcp (c.init env.readStart).1).key =
          strForIntKey (portKey typeTcp env.sp d.info.dp) := congrArg strForIntKey hkey
      have hdp' : (NetConn.fakeTcp (c.init env.readStart).1).dp = d.info.dp := hdp
      rw [hkey', hdp'] at hcount
      refine ⟨⟨hI'.ledger, hI'.queued, hI'.conns, hpending⟩, ?_, ?_⟩
      · rintro ⟨-, hfree⟩ port
        rw [tokens_eq, tokens_eq, hsplit]
        simp only [hcount, hfree, List.countP_append, List.countP_cons, decide_eq_true_eq, true_and]
        omega
      · intro htaken
        have hsame := hcount d.info.dp
        rw [if_neg fun h => htaken ⟨hstart, h.1⟩] at hsame
        refine ⟨d.info.dp, hport, ?_⟩
        rw [tokens_eq, tokens_eq, hsplit]
        simp only [hsame, List.countP_append, List.countP_cons, decide_true, if_true]
        omega

/-- A step keeps every port exactly if it meets the condition. -/
theorem step_spec {e : Event} (hI : Inv ports s) (hretry : s.RetriesLeft e)
    (hr : s.step e = .ok s') :
    Inv ports s' ∧ (s.KeepsPort e → ∀ port, s'.tokens port = s.tokens port) ∧
    (¬ s.KeepsPort e → ∃ port, ports port ∧ s'.tokens port + 1 = s.tokens port) := by
  have hkept : Inv ports s' ∧ (∀ port, s'.tokens port = s.tokens port) → s.KeepsPort e →
      Inv ports s' ∧ (s.KeepsPort e → ∀ port, s'.tokens port = s.tokens port) ∧
      (¬ s.KeepsPort e → ∃ port, ports port ∧ s'.tokens port + 1 = s.tokens port) := by
    rintro ⟨hI', htok⟩ hkeeps
    exact ⟨hI', fun _ => htok, fun h => absurd hkeeps h⟩
  cases e with
  | addInfoFromPeer a =>
    obtain rfl := Except.ok.inj hr
    exact hkept (inv_pending _ hI rfl) trivial
  | input info ups n =>
    refine hkept (inv_bridgeStep hI ?_ (by simp) hr) trivial
    -- `CNetGroup::CreateNetConn` makes no conns
    unfold ConnLife.adds
    dsimp only
    split
    · exact ite_self none
    · rfl
  | send call => exact hkept (inv_bridgeStep hI rfl (by simp) hr) trivial
  | flush => exact hkept (inv_bridgeStep hI rfl (by simp) hr) trivial
  | notifyErr key err => exact hkept (inv_bridgeStep hI rfl (by simp) hr) trivial
  | onTcpError p => exact hkept (inv_bridgeStep hI rfl (by simp) hr) trivial
  | handleMessage now => exact hkept (inv_handleMessage hI hr) trivial
  | flushPending now connects =>
    obtain rfl := Except.ok.inj hr
    exact hkept (inv_pending _ hI (map_info_flushPending hretry)) trivial
  | onTcpConnect req status env => exact onTcpConnect_spec hI hr
  | onNetConnected =>
    obtain rfl := Except.ok.inj hr
    exact hkept (inv_pending _ hI rfl) trivial
  | onNetDisconnected =>
    obtain rfl := Except.ok.inj hr
    exact hkept (inv_pending _ hI rfl) trivial

/-- The end of a dial is no fault. -/
theorem onTcpConnect_ok {req : Nat} {status : Int} {env : ConnectEnv} {d : DialHelper}
    (hI : Inv ports s) (hd : s.Dialed req status env d) :
    ∃ s', s.onTcpConnect req status env = .ok s' := by
  obtain ⟨hfind, hstatus, ⟨pool, c, hnew⟩, hnret, hdp, hdst⟩ := hd
  obtain ⟨⟨before, rest⟩, hspan⟩ :
    ∃ r, (s.mNetManager.mPending.span fun d => d.req ≠ some req) = r := ⟨_, rfl⟩
  have hrest := (span_eq hspan).2
  rw [hfind] at hrest
  obtain ⟨after, rfl⟩ : ∃ after, rest = d :: after := by
    cases rest with
    | nil => cases hrest
    | cons d' after => exact ⟨after, by rw [Option.some.inj hrest]⟩
  have hinfo : ¬ (env.nretConnect ≠ 0 ∨ (getTcpInfo env.nretConnect (env.sock d.info)).dp = 0 ∨
      (getTcpInfo env.nretConnect (env.sock d.info)).dst = 0) := by
    rw [getTcpInfo, if_pos hnret]
    simp only [not_or, not_not]
    exact ⟨hnret, hdp, hdst⟩
  rw [onTcpConnect, hspan]
  simp only [onTcpConnectEntry, hstatus, hnew, ok_bind, if_neg hinfo, ne_eq, not_true_eq_false,
    if_false, tcpDialAsyncCb]
  split
  · exact ⟨_, rfl⟩
  · obtain ⟨b, hb⟩ := ConnLife.addNetConn_ok (.fakeTcp (c.init env.readStart).1) hI.ledger.inv
    rw [hb]
    exact ⟨_, rfl⟩

/-- The step that loses a token does not fail. -/
theorem step_ok_of_not_keepsPort {e : Event} (hI : Inv ports s) (hnot : ¬ s.KeepsPort e) :
    ∃ s', s.step e = .ok s' := by
  cases e with
  | onTcpConnect req status env =>
    simp only [KeepsPort, not_forall] at hnot
    obtain ⟨d, hd, -⟩ := hnot
    exact onTcpConnect_ok hI hd
  | _ => exact absurd trivial hnot

/-- The server ports of the TCP conns of start-up. -/
def StartPort (conns : List NetConn) (port : UInt16) : Prop :=
  ∃ c, NetConn.fakeTcp c ∈ conns ∧ c.mInfo.dp = port

/-- The client begins with a conn for each of its ports. -/
theorem inv_startUp {pool : TcpAckPool} {conns : List NetConn} (hr : startUp pool conns = .ok s) :
    Inv (StartPort conns) s := by
  obtain ⟨b, hb, hr⟩ := bind_eq_ok.mp hr
  obtain rfl := Except.ok.inj hr
  have hfold : ∀ (l : List NetConn) (s : CSockApp), Inv (StartPort conns) s → l ⊆ conns →
      l.foldlM ConnLife.addNetConn s.mBridge = .ok b → Inv (StartPort conns) { s with mBridge := b } := by
    intro l
    induction l with
    | nil =>
      intro s hI _ hb
      obtain rfl := Except.ok.inj hb
      exact hI
    | cons conn l ih =>
      intro s hI hsub hb
      obtain ⟨b₁, hadd, hb⟩ := bind_eq_ok.mp hb
      have hconn : ∀ c, conn = .fakeTcp c → StartPort conns c.mInfo.dp := by
        rintro c rfl
        exact ⟨c, hsub List.mem_cons_self, rfl⟩
      exact ih { s with mBridge := b₁ } (inv_addNetConn hI hconn hadd).1
        (fun c hc => hsub (List.mem_cons_of_mem _ hc)) hb
  refine hfold conns { mAckPool := pool } ⟨ConnLife.ledger_empty, ?_, ?_, ?_⟩ (List.Subset.refl _) hb
  · intro p hp
    cases hp
  · intro p c hc
    cases hc
  · intro d hd
    cases hd

/-- In a run of the client after start-up in which no dial has used up its retries, every server port
    keeps its tokens exactly if, whenever a dial comes to a conn, `Init` succeeds and no conn of the
    group has its key. -/
theorem ports_kept_iff (pool : TcpAckPool) (conns : List NetConn) (s₀ : CSockApp)
    (hstart : startUp pool conns = .ok s₀) (es : List Event)
    (hretry : EachStep step RetriesLeft s₀ es) :
    Always step (fun _ _ s => ∀ port, StartPort conns port → s.tokens port = s₀.tokens port) s₀ es ↔
      EachStep step KeepsPort s₀ es := by
  refine always_iff_eachStep_of (N := RetriesLeft)
    (J := fun s => Inv (StartPort conns) s ∧
      ∀ port, StartPort conns port → s.tokens port = s₀.tokens port)
    ?_ ?_ es s₀ ⟨inv_startUp hstart, fun _ _ => rfl⟩ hretry
  · rintro s e s' ⟨hI, -⟩ hleft hstep hR
    exact ⟨(step_spec hI hleft hstep).1, hR⟩
  · rintro s e ⟨hI, hsame⟩ hleft
    constructor
    · intro hall
      by_contra hnot
      obtain ⟨s', hstep⟩ := step_ok_of_not_keepsPort hI hnot
      obtain ⟨port, hport, hlost⟩ := (step_spec hI hleft hstep).2.2 hnot
      have hkept := hall s' hstep port hport
      have hbefore := hsame port hport
      omega
    · intro hkeeps s' hstep port hport
      rw [(step_spec hI hleft hstep).2.1 hkeeps port]
      exact hsame port hport

instance : ∀ s e, Decidable (RetriesLeft s e) := fun s _ =>
  inferInstanceAs (Decidable (∀ d ∈ s.mNetManager.mPending, 0 < d.nRetry))

/-- A conn to port 10001 is reset and dialed again; `uv_read_start` of the new handle returns
    `readStart`. -/
def redial (readStart : Int) : List Event :=
  [.notifyErr ConnLife.conn10001.mIntKey .finRst, .flush, .handleMessage 0,
    .flushPending 1000 [true],
    .addInfoFromPeer { infoFromPeer := { src := 1, sp := 40001, dst := 2, dp := 10001 },
                       flags := thSyn, now := 1000 },
    .onTcpConnect 0 0 { src := 1, sp := 40001, readStart := readStart, now := 1000 }]

/-- A conn dies and is dialed again. -/
theorem port_kept_redial : ∃ s₀,
    startUp { expireIntervalMs := 1000 } [.fakeTcp ConnLife.conn10001] = .ok s₀ ∧
    Always step (fun _ _ s => ∀ port, StartPort [.fakeTcp ConnLife.conn10001] port →
      s.tokens port = s₀.tokens port) s₀ (redial 0) := by
  refine ⟨_, rfl, (ports_kept_iff _ _ _ rfl (redial 0) ?_).mpr ?_⟩
  · decide +kernel
  · refine ⟨trivial, fun s₁ h₁ => ⟨trivial, fun s₂ h₂ => ⟨trivial, fun s₃ h₃ => ⟨trivial,
      fun s₄ h₄ => ⟨trivial, fun s₅ h₅ => ⟨?_, fun _ _ => trivial⟩⟩⟩⟩⟩⟩
    obtain rfl := Except.ok.inj h₁
    obtain rfl := Except.ok.inj h₂
    obtain rfl := Except.ok.inj h₃
    obtain rfl := Except.ok.inj h₄
    obtain rfl := Except.ok.inj h₅
    intro d hd
    exact ⟨rfl, rfl⟩

/-- The handle of the new conn cannot be read. -/
theorem port_lost : ∃ s₀ s, startUp { expireIntervalMs := 1000 } [.fakeTcp ConnLife.conn10001] =
      .ok s₀ ∧ EachStep step RetriesLeft s₀ (redial (-1)) ∧ run step s₀ (redial (-1)) = .ok s ∧
    s₀.tokens 10001 = 1 ∧ s.tokens 10001 = 0 := by
  refine ⟨_, _, rfl, ?_, rfl, ?_, ?_⟩
  · decide +kernel
  · decide +kernel
  · decide +kernel

end CSockApp

end Rsock
