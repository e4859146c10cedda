import Rsock.NetRecv
import Rsock.Proofs.CodecProofs
import Rsock.Proofs.NetGroupLifeProofs

/-!
# Proofs: the transport of a packet and the conn it is given to

A conn that is created for a packet fits it (`avoids_createNetConn`). One that is found has the key of
the header, and nothing but that key has been looked at: a datagram with the key of a `FakeTcp` is
cast to a `TcpInfo`. As long as no datagram has such a key, every cast is valid
(`NetRecv.transport_iff`).
-/

namespace Rsock

open CMem

/-! ## The acknowledgement number -/

namespace NetConn

/-- A conn that still has its acknowledgement number, if it has one. -/
def AckKept : NetConn → NetConn → Prop
  | fakeTcp c, fakeTcp c' => c'.mInfo.ack = c.mInfo.ack
  | fakeUdp _, fakeUdp _ => True
  | _, _ => False

theorem ackKept_refl (c : NetConn) : AckKept c c := by
  cases c with
  | fakeTcp c => exact Eq.refl c.mInfo.ack
  | fakeUdp c => trivial

theorem ackKept_trans (a b c : NetConn) (hab : AckKept a b) (hbc : AckKept b c) : AckKept a c := by
  cases a <;> cases b <;> cases c <;> first
    | exact Eq.trans hbc hab
    | trivial

/-- Sending moves the sequence number only. -/
theorem ackKept_output {σ : Type} {c c' : NetConn} {hd : EncHead} {payload : List UInt8}
    {below : Info → List UInt8 → Except Fault (Int × σ)} {r : Int × σ}
    (h : c.output hd payload below = .ok (c', r)) : AckKept c c' := by
  rcases output_cases h with ⟨t, seq, rfl, rfl⟩ | ⟨u, rfl, rfl⟩
  · exact Eq.refl t.mInfo.ack
  · trivial

/-- A datagram that has been processed has changed no acknowledgement number. -/
theorem ackKept_onRecv {c c' : NetConn} {info : Info} {n n' : Int} (hudp : info.isUdp = true)
    (h : c.onRecv info n = .ok (c', n')) : AckKept c c' := by
  rcases onRecv_cases h with rfl | ⟨t, i, -, rfl, -, -, -⟩
  · exact ackKept_refl _
  · cases hudp

end NetConn

/-! ## What sending does to the conns -/

namespace INetGroup

section Evolves

variable {R : NetConn → NetConn → Prop} (hrefl : ∀ c, R c c)
  (htrans : ∀ a b c, R a b → R b c → R a c)
  (hout : ∀ {c c' : NetConn} {hd : EncHead} {payload : List UInt8}
    {below : Info → List UInt8 → Except Fault (Int × Unit)} {r : Int × Unit},
    c.output hd payload below = .ok (c', r) → R c c')
  {g g' : INetGroup} {h h' : Heap NetConn} {call : SendCall}

include hrefl hout

theorem evolves_doSendPass {pick : Nat} {r : Option Int}
    (hr : doSendPass call pick g h = .ok (g', h', r)) : Heap.Evolves R h h' := by
  obtain ⟨k, p, c, -, hc, hcases⟩ := doSendPass_cases hr
  rcases hcases with ⟨-, -, -, rfl, -⟩ | ⟨-, -, c', n, hsend, -, rfl, -⟩ | ⟨-, -, rfl, -⟩
  · exact Heap.evolves_refl hrefl _
  · exact Heap.evolves_store hrefl hc (hout hsend)
  · exact Heap.evolves_refl hrefl _

include htrans

theorem evolves_doSendLoop {picks : List Nat} {r : Option Int}
    (hr : doSendLoop call picks g h = .ok (g', h', r)) : Heap.Evolves R h h' := by
  induction picks generalizing g h with
  | nil =>
    unfold doSendLoop at hr
    split at hr <;>
    · cases hr
      exact Heap.evolves_refl hrefl _
  | cons pick picks ih =>
    unfold doSendLoop at hr
    split at hr
    · cases hr
      exact Heap.evolves_refl hrefl _
    · obtain ⟨⟨g₁, h₁, r₁⟩, hpass, hr⟩ := bind_eq_ok.mp hr
      have h₁ := evolves_doSendPass hrefl hout hpass
      cases r₁ with
      | some n =>
        cases hr
        exact h₁
      | none => exact h₁.trans htrans (ih hr)

theorem evolves_doSends {calls : List SendCall} (hr : g.doSends h calls = .ok (g', h')) :
    Heap.Evolves R h h' := by
  induction calls generalizing g h with
  | nil =>
    cases hr
    exact Heap.evolves_refl hrefl _
  | cons call calls ih =>
    obtain ⟨⟨g₁, h₁, r⟩, hsend, hr⟩ := bind_eq_ok.mp hr
    have hev : Heap.Evolves R h h₁ := by
      unfold doSend at hsend
      split at hsend
      · exact evolves_doSendLoop hrefl htrans hout hsend
      · cases hsend
        exact Heap.evolves_refl hrefl _
    exact hev.trans htrans (ih hr)

end Evolves

/-! ## One packet -/

variable {g : INetGroup} {h : Heap NetConn} {p : ConnPtr} {c : NetConn} {info : Info}

/-- The conn can take a packet of this transport. -/
def Fits (info : Info) (c : NetConn) : Prop := ∀ t, c = .fakeTcp t → info.isUdp = false

theorem fits_like {c c' : NetConn} (hl : NetConn.Like c c') (hc : Fits info c) : Fits info c' := by
  rintro t rfl
  cases c with
  | fakeTcp c => exact hc c rfl
  | fakeUdp c => exact hl.elim

theorem avoids_onRecv {n : Int} (hc : Fits info c) :
    Avoids .outOfBounds (c.onRecv info n) fun _ => True := by
  cases c with
  | fakeTcp t =>
    cases info with
    | tcp i =>
      refine Avoids.bind (Q := fun _ => True) ?_ fun _ _ => avoids_ok trivial
      exact (avoids_cassert_of_ne (by decide)).bind fun _ _ => avoids_ok trivial
    | udp i => cases hc t rfl
  | fakeUdp t => exact (avoids_cassert_of_ne (by decide)).bind fun _ _ => avoids_ok trivial

/-- A packet given to a conn that fits is read inside its info. -/
theorem avoids_connInput {ups : List OutCall} {n : Int} (hI : Inv Any g h) (hp : h.get? p = some c)
    (hc : Fits info c) :
    Avoids .outOfBounds (g.connInput h p info (ups.map OutCall.toSendCall) n) fun _ => True := by
  obtain ⟨⟨g₁, h₁⟩, hups⟩ := doSends_ok ups hI
  obtain ⟨c₁, hc₁, hl⟩ := evolves_doSends NetConn.like_refl NetConn.like_trans NetConn.like_output hups p c hp
  rw [connInput, hups, ok_bind]
  simp only [Heap.deref_eq_ok.mpr hc₁, ok_bind]
  exact (avoids_onRecv (fits_like hl hc)).bind fun _ _ => avoids_ok trivial

theorem evolves_connInput {ups : List SendCall} {n n' : Int} {g' : INetGroup} {h' : Heap NetConn}
    (hudp : info.isUdp = true) (hr : g.connInput h p info ups n = .ok (g', h', n')) :
    Heap.Evolves NetConn.AckKept h h' := by
  obtain ⟨⟨g₁, h₁⟩, hups, hr⟩ := bind_eq_ok.mp hr
  obtain ⟨c, hc, hr⟩ := bind_eq_ok.mp hr
  obtain ⟨⟨c', n₁⟩, hrecv, hr⟩ := bind_eq_ok.mp hr
  cases hr
  have hsends := evolves_doSends NetConn.ackKept_refl NetConn.ackKept_trans NetConn.ackKept_output hups
  exact hsends.trans NetConn.ackKept_trans
    (Heap.evolves_store NetConn.ackKept_refl (Heap.deref_eq_ok.mp hc)
      (NetConn.ackKept_onRecv hudp hrecv))

end INetGroup

namespace NetRecv

open INetGroup

variable {s s' : NetRecv} {env : AcceptEnv} {info : Info} {head : EncHead} {ups : List OutCall} {n : Int}

/-- A conn made for a packet fits it. -/
theorem avoids_createNetConn (isServer : Bool) (mgr : ServerNetManager) (key : IntKeyType) :
    Avoids .outOfBounds (createNetConn isServer env mgr key info)
      fun r => ∀ c, r.2 = some c → Fits info c := by
  unfold createNetConn
  split
  · cases info with
    | udp i =>
      refine Avoids.bind (Q := fun _ => True) ?_ fun c _ => avoids_ok ?_
      · refine Avoids.bind (Q := fun _ => True) ?_ fun _ _ =>
          (avoids_cassert_of_ne (by decide)).bind fun _ _ => avoids_ok trivial
        exact (avoids_cassert_of_ne (by decide)).bind fun _ _ => avoids_ok trivial
      · intro c' hc' t ht
        subst ht
        dsimp only at hc'
        split at hc'
        · cases Option.some.inj hc'
        · cases hc'
    | tcp i =>
      unfold SNetGroup.createNetConn
      dsimp only
      split
      · exact avoids_ok fun c hc => by cases hc
      · refine Avoids.bind (Q := fun _ => True) ?_ fun c _ => avoids_ok fun c hc t ht => rfl
        exact (avoids_cassert_of_ne (by decide)).bind fun _ _ => avoids_ok trivial
  · exact avoids_ok fun c hc => by cases hc

/-- The info with which `INetGroup::Input` is entered, and the conn it finds or makes. -/
theorem avoids_input (hL : s.net.Ledger) (hhead : info.base.head = some head)
    (hfits : ∀ p c, s.net.group.mConnMap.get? head.mConnKey = some p →
      s.net.heap.get? p = some c → Fits info c) :
    Avoids .outOfBounds (s.input env info ups n) fun _ => True := by
  refine Avoids.bind (Q := fun _ => True) ?_ fun _ _ => avoids_ok trivial
  unfold INetGroup.input
  rw [hhead]
  simp only [hL.inv.connOfIntKey_eq, ok_bind]
  cases hfind : s.net.group.mConnMap.get? head.mConnKey with
  | some p =>
    obtain ⟨c, hc, -⟩ := hL.inv.get?_conn hfind
    exact (avoids_connInput hL.inv hc (hfits p c hfind hc)).bind fun _ _ => avoids_ok trivial
  | none =>
    refine (avoids_createNetConn s.isServer s.mNetManager head.mConnKey).bind ?_
    rintro ⟨mgr, conn⟩ hnew
    cases conn with
    | none =>
      obtain ⟨r, hr⟩ := doSends_ok ups hL.inv
      simp only [hr, ok_bind]
      exact avoids_ok trivial
    | some c =>
      have hI : INetGroup.Inv Any s.net.group (s.net.heap.alloc c).1 :=
        hL.inv.evolves (fun _ _ _ _ => trivial) (Heap.evolves_alloc NetConn.like_refl _ _)
      obtain ⟨g', hg', hI'⟩ := addNetConn_spec hI Heap.get?_alloc_self trivial
      simp only [hg', ok_bind]
      exact (avoids_connInput hI' Heap.get?_alloc_self (hnew c rfl)).bind fun _ _ => avoids_ok trivial

/-- A datagram that has been processed has changed no acknowledgement number. -/
theorem evolves_input (hudp : info.isUdp = true) (hr : s.input env info ups n = .ok s') :
    Heap.Evolves NetConn.AckKept s.net.heap s'.net.heap := by
  obtain ⟨⟨mgr, g, h, n'⟩, hin, hr⟩ := bind_eq_ok.mp hr
  obtain rfl := Except.ok.inj hr
  obtain ⟨head, -, hcases⟩ := input_eq_ok_iff.mp hin
  rcases hcases with ⟨p, -, -, hconn⟩ | ⟨c, g₁, -, -, -, hconn⟩ | ⟨-, -, hups, -⟩
  · exact evolves_connInput hudp hconn
  · exact (Heap.evolves_alloc NetConn.ackKept_refl s.net.heap c).trans NetConn.ackKept_trans
      (evolves_connInput hudp hconn)
  · exact evolves_doSends NetConn.ackKept_refl NetConn.ackKept_trans NetConn.ackKept_output hups

/-! ## Whole runs -/

open TransSys

variable {r : RConn} {md5 : Md5}

/-- `INetGroup::Input` here is that of `ConnLife`, with the conn that has been created. -/
theorem exists_connLife_input (hr : s.input env info ups n = .ok s') :
    ∃ created, s.net.step (.input info created ups n) = .ok s'.net := by
  obtain ⟨⟨mgr, g, h, n'⟩, hin, hr⟩ := bind_eq_ok.mp hr
  obtain rfl := Except.ok.inj hr
  have hinput : ∀ created,
      INetGroup.input (fun _ _ _ => .ok ((), created)) () s.net.group s.net.heap info
        (ups.map OutCall.toSendCall) n = .ok ((), g, h, n') →
      s.net.step (.input info created ups n) = .ok { s.net with group := g, heap := h } := by
    intro created hc
    rw [ConnLife.step, ConnLife.input, hc]
    rfl
  obtain ⟨head, hhead, hcases⟩ := input_eq_ok_iff.mp hin
  rcases hcases with ⟨p, hfind, -, hconn⟩ | ⟨c, g₁, hfind, -, hadd, hconn⟩ | ⟨hfind, -, hups, hn⟩
  · exact ⟨none, hinput none (input_eq_ok_iff.mpr ⟨head, hhead, .inl ⟨p, hfind, rfl, hconn⟩⟩)⟩
  · refine ⟨some c, hinput _ (input_eq_ok_iff.mpr ⟨head, hhead, .inr (.inl ?_)⟩)⟩
    exact ⟨c, g₁, hfind, rfl, hadd, hconn⟩
  · refine ⟨none, hinput _ (input_eq_ok_iff.mpr ⟨head, hhead, .inr (.inr ?_)⟩)⟩
    exact ⟨hfind, rfl, hups, hn⟩

theorem ledger_step {e : Event} (hL : s.net.Ledger) (hr : s.step r md5 e = .ok s') :
    s'.net.Ledger := by
  cases e with
  | recv o env info rbuf ups n =>
    obtain ⟨act, -, hr⟩ := bind_eq_ok.mp hr
    cases act with
    | deliver info' head payload =>
      dsimp only at hr
      split at hr
      · obtain ⟨created, hc⟩ := exists_connLife_input hr
        exact (ConnLife.ledger_step hL hc).1
      · obtain rfl := Except.ok.inj hr
        exact hL
    | drop =>
      obtain rfl := Except.ok.inj hr
      exact hL
    | notifyTcpFinOrRst i =>
      obtain rfl := Except.ok.inj hr
      exact hL
  | conns e =>
    obtain ⟨net, hstep, hr⟩ := bind_eq_ok.mp hr
    obtain rfl := Except.ok.inj hr
    exact (ConnLife.ledger_step hL hstep).1
  | netManager mgr =>
    obtain rfl := Except.ok.inj hr
    exact hL

/-- The packet is a data packet that `RConn::OnRecv` lets through, and this is its header. -/
def Accepts (r : RConn) (md5 : Md5) (o : ByteOrder) (info : Info) (rbuf : List UInt8)
    (head : EncHead) : Prop :=
  ∃ payload, r.onRecv md5 o info rbuf = .ok (.deliver (info.setHead head) head payload) ∧
    head.mCmd = EncHead.typeData

/-- A packet is given to a `FakeTcp` only if it is a TCP segment, its info is not read beyond its end,
    and a datagram leaves the acknowledgement numbers alone. -/
def TransportFits (r : RConn) (md5 : Md5) (s : NetRecv) : Event → Prop
  | .recv o env info rbuf ups n => ∀ head, Accepts r md5 o info rbuf head →
    (∀ c, s.inputConn env (info.setHead head) head = some (.fakeTcp c) → info.isUdp = false) ∧
    s.step r md5 (.recv o env info rbuf ups n) ≠ .error .outOfBounds ∧
    (info.isUdp = true → ∀ s', s.step r md5 (.recv o env info rbuf ups n) = .ok s' →
      Heap.Evolves NetConn.AckKept s.net.heap s'.net.heap)
  | _ => True

/-- A datagram does not have the key of a `FakeTcp`. -/
def NoTcpKey (r : RConn) (md5 : Md5) (s : NetRecv) : Event → Prop
  | .recv o _ info rbuf _ _ => info.isUdp = true → ∀ head, Accepts r md5 o info rbuf head →
    ∀ p c, s.net.group.mConnMap.get? head.mConnKey = some p → s.net.heap.get? p ≠ some (.fakeTcp c)
  | _ => True

theorem step_of_accepts {o : ByteOrder} {rbuf : List UInt8} (h : Accepts r md5 o info rbuf head) :
    s.step r md5 (.recv o env info rbuf ups n) = s.input env (info.setHead head) ups n := by
  obtain ⟨payload, hrecv, hcmd⟩ := h
  simp only [step, hrecv, ok_bind, if_pos hcmd]

theorem isUdp_setHead (info : Info) (hd : EncHead) : (info.setHead hd).isUdp = info.isUdp := by
  cases info <;> rfl

theorem transportFits_iff {e : Event} (hL : s.net.Ledger) :
    TransportFits r md5 s e ↔ NoTcpKey r md5 s e := by
  cases e with
  | recv o env info rbuf ups n =>
    constructor
    · intro hfit hudp head hacc p c hfind hc
      have hconn : s.inputConn env (info.setHead head) head = some (.fakeTcp c) := by
        simp only [inputConn, hfind, hc]
      rw [(hfit head hacc).1 c hconn] at hudp
      cases hudp
    · intro hkey head hacc
      rw [step_of_accepts hacc]
      have hfits : ∀ p c, s.net.group.mConnMap.get? head.mConnKey = some p →
          s.net.heap.get? p = some c → Fits (info.setHead head) c := by
        rintro p _ hfind hc t rfl
        rw [isUdp_setHead]
        cases hudp : info.isUdp with
        | false => rfl
        | true => exact absurd hc (hkey hudp head hacc p t hfind)
      refine ⟨?_, ?_, ?_⟩
      · intro c hconn
        rw [← isUdp_setHead info head]
        unfold inputConn at hconn
        split at hconn
        · next p hfind => exact hfits p _ hfind hconn c rfl
        · obtain ⟨⟨mgr, conn⟩, hnew, hconn⟩ := Option.bind_eq_some_iff.mp hconn
          have hnew' : createNetConn s.isServer env s.mNetManager head.mConnKey (info.setHead head) =
              .ok (mgr, conn) := by
            cases hcr : createNetConn s.isServer env s.mNetManager head.mConnKey
                (info.setHead head) with
            | error e =>
              rw [hcr] at hnew
              cases hnew
            | ok x =>
              rw [hcr] at hnew
              rw [Option.some.inj hnew]
          exact (avoids_createNetConn s.isServer s.mNetManager head.mConnKey).2 _ hnew' _ hconn c rfl
      · exact (avoids_input hL (Info.base_setHead info head) hfits).1
      · intro hudp s' hr
        exact evolves_input (by rw [isUdp_setHead]; exact hudp) hr
  | conns e => exact Iff.rfl
  | netManager mgr => exact Iff.rfl

/-- In every run of a group, from its start on, each packet is given to a conn of its own transport if
    and only if no datagram that is let through has the key of a `FakeTcp` in its header. -/
theorem transport_iff (r : RConn) (md5 : Md5) (isServer : Bool) (mgr : ServerNetManager)
    (es : List Event) :
    EachStep (step r md5) (TransportFits r md5) { isServer := isServer, mNetManager := mgr } es ↔
      EachStep (step r md5) (NoTcpKey r md5) { isServer := isServer, mNetManager := mgr } es :=
  eachStep_congr (J := fun s : NetRecv => s.net.Ledger) (fun _ _ _ hL hr => ledger_step hL hr)
    (fun _ _ hL => transportFits_iff hL) es _ ConnLife.ledger_empty

/-- A `FakeTcp` from port 40000 to port 12289. Its key is also that of a `FakeUdp` with these ports. -/
def conn12289 : FakeTcp where
  mIntKey := KeyGenerator.portKey KeyGenerator.typeTcp 40000 12289
  mInfo := { src := 1, sp := 40000, dst := 2, dp := 12289 }

def addConn12289 : Event :=
  .conns ⟨.addNetConn (.fakeTcp conn12289), fun _ _ _ _ h => ConnLife.Event.noConfusion h⟩

/-- A client group whose conns are never asked for by a packet. -/
def noManager : NetRecv where
  isServer := false
  mNetManager := { mTcpAckPool := { expireIntervalMs := 0 } }

/-- The payload `*` in a datagram from a `FakeUdp` with the ports of `conn12289`. -/
def datagram12289 : Event :=
  .recv .little ⟨[], [], {}, 0, 0⟩ (.udp { src := 2, sp := 12289, dst := 1, dp := 40000 })
    (RConn.packet md5OfStar [107]
      { mConnKey := KeyGenerator.portKey KeyGenerator.typeUdp 40000 12289 } [42]) [] 1

theorem datagram_given_to_fakeTcp : ∃ s,
    run (step (RConn.mk [107] {} StdMap.empty) md5OfStar) noManager [addConn12289] = .ok s ∧
    s.step (RConn.mk [107] {} StdMap.empty) md5OfStar datagram12289 = .error .outOfBounds ∧
    ¬ EachStep (step (RConn.mk [107] {} StdMap.empty) md5OfStar)
      (TransportFits (RConn.mk [107] {} StdMap.empty) md5OfStar) noManager
      [addConn12289, datagram12289] := by
  have hrun : ∃ s, step (RConn.mk [107] {} StdMap.empty) md5OfStar noManager addConn12289 = .ok s :=
    ⟨_, rfl⟩
  obtain ⟨s, hs⟩ := hrun
  have hacc : Accepts (RConn.mk [107] {} StdMap.empty) md5OfStar .little
      (.udp { src := 2, sp := 12289, dst := 1, dp := 40000 })
      (RConn.packet md5OfStar [107]
        { mConnKey := KeyGenerator.portKey KeyGenerator.typeUdp 40000 12289 } [42])
      { mConnKey := KeyGenerator.portKey KeyGenerator.typeUdp 40000 12289 } :=
    ⟨[42], RConn.onRecv_packet (RConn.mk [107] {} StdMap.empty) md5OfStar .little _ _ (by decide), rfl⟩
  have hfault : s.step (RConn.mk [107] {} StdMap.empty) md5OfStar datagram12289 =
      .error .outOfBounds := by
    rw [datagram12289, step_of_accepts hacc]
    obtain rfl := Except.ok.inj hs
    rfl
  refine ⟨s, ?_, hfault, ?_⟩
  · rw [run, hs]
    rfl
  · rintro ⟨-, hrest⟩
    exact ((hrest s hs).1 _ hacc).2.1 hfault

end NetRecv

end Rsock
