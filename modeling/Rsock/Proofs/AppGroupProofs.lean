import Rsock.Proofs.NetGroupProofs

/-!
# Proofs: a captured FIN or RST

Which conn a FIN or RST kills, in every state the client or the server can reach. The lookup uses
the key computed from the local view of the 4-tuple. The client stores its conns under that very
key; the server stores them under the key the peer computed from its own view.
-/

namespace Rsock

open CMem KeyGenerator

namespace IAppGroup

open INetGroup NetConn

variable {P : NetConn → Prop} {g g' : INetGroup} {h h' : Heap NetConn}

/-! ## Packets and other events -/

section Stable

variable (hP : ∀ c c', Like c c' → P c → P c')

include hP

/-- A packet leaves the net group in order. -/
theorem keeps_input {σ : Type} {o : ByteOrder}
    {createNetConn : σ → IntKeyType → Info → Except Fault (σ × Option NetConn)}
    (hcreate : ∀ st k info st' c, createNetConn st k info = .ok (st', some c) → P c)
    {st st' : σ} {pkt : Packet} (hr : input o createNetConn st g h pkt = .ok (st', g', h')) :
    Keeps P g h g' h' := by
  unfold input at hr
  split at hr
  · cases hr
  split at hr
  · obtain ⟨⟨st₁, g₁, h₁, n₁⟩, hin, hr⟩ := bind_eq_ok.mp hr
    have hk : Keeps P g h g₁ h₁ := INetGroup.keeps_input hP hcreate hin
    dsimp only at hr
    split at hr
    · obtain ⟨⟨g₂, h₂, r⟩, hsend, hr⟩ := bind_eq_ok.mp hr
      cases hr
      exact hk.trans (keeps_doSend hP hsend)
    · cases hr
      exact hk
  split at hr
  · obtain ⟨key, -, hr⟩ := bind_eq_ok.mp hr
    cases key with
    | some key =>
      obtain ⟨⟨h₁, b⟩, hrst, hr⟩ := bind_eq_ok.mp hr
      cases hr
      exact keeps_notifyErr hP hrst
    | none =>
      cases hr
      exact Keeps.refl P _ _
  split at hr
  · obtain ⟨key, -, hr⟩ := bind_eq_ok.mp hr
    cases key with
    | some key =>
      obtain ⟨conn, -, hr⟩ := bind_eq_ok.mp hr
      cases conn with
      | some p =>
        obtain ⟨⟨g₁, h₁, r⟩, hsend, hr⟩ := bind_eq_ok.mp hr
        cases hr
        exact keeps_doSend hP hsend
      | none =>
        obtain ⟨⟨g₁, h₁, r⟩, hsend, hr⟩ := bind_eq_ok.mp hr
        cases hr
        exact keeps_doSend hP hsend
    | none =>
      cases hr
      exact Keeps.refl P _ _
  · cases hr
    exact Keeps.refl P _ _

/-- So does everything else that concerns it. -/
theorem keeps_step {e : Event} (hr : step g h e = .ok (g', h')) : Keeps P g h g' h' := by
  cases e with
  | send call =>
    obtain ⟨⟨g₁, h₁, r⟩, hsend, hr⟩ := bind_eq_ok.mp hr
    cases hr
    exact keeps_doSend hP hsend
  | onNetConnDead key =>
    obtain ⟨h₁, hdead, hr⟩ := bind_eq_ok.mp hr
    obtain ⟨⟨h₂, b⟩, herr, hdead⟩ := bind_eq_ok.mp hdead
    cases hr
    cases hdead
    exact keeps_notifyErr hP herr
  | flush =>
    obtain ⟨g₁, hflush, hr⟩ := bind_eq_ok.mp hr
    cases hr
    exact keeps_flush hflush

theorem keeps_onTcpError {p : ConnPtr} (hr : FakeTcp.onTcpError h p = .ok h') :
    Keeps P g h g h' := by
  obtain ⟨c, hc, hr⟩ := bind_eq_ok.mp hr
  cases c with
  | fakeTcp c =>
    cases hr
    exact keeps_store hP (Heap.deref_eq_ok.mp hc) (like_notifyErr _ _)
  | fakeUdp c => cases hr

theorem keeps_processTcpFinOrRst {info : TcpInfo} {b : Bool}
    (hr : processTcpFinOrRst g h info = .ok (h', b)) : Keeps P g h g h' := by
  obtain ⟨key, -, hr⟩ := bind_eq_ok.mp hr
  obtain ⟨conn, -, hr⟩ := bind_eq_ok.mp hr
  cases conn with
  | some p =>
    obtain ⟨c, -, hr⟩ := bind_eq_ok.mp hr
    exact keeps_notifyErr hP hr
  | none =>
    cases hr
    exact Keeps.refl P _ _

end Stable

end IAppGroup

/-! ## The right conn -/

namespace NetConn

/-- A FIN or RST has been reported to the conn before. -/
def Closed (c : NetConn) : Prop :=
  c.toINetConn.mAlive = false ∧ c.toINetConn.mErrCode = .finRst

/-- A second reset changes nothing. -/
theorem Closed.notifyErr_eq {c : NetConn} (h : c.Closed) : c.notifyErr .finRst = c := by
  obtain ⟨ha, he⟩ := h
  cases c with
  | fakeTcp c =>
    obtain ⟨⟨k, n, a, e, t⟩, i⟩ := c
    simp only [toINetConn] at ha he
    simp [notifyErr, INetConn.notifyErr, ha, he]
  | fakeUdp c =>
    obtain ⟨⟨k, n, a, e, t⟩, i⟩ := c
    simp only [toINetConn] at ha he
    simp [notifyErr, INetConn.notifyErr, ha, he]

theorem closed_notifyErr (c : NetConn) : (c.notifyErr .finRst).Closed := by
  cases c <;> exact ⟨rfl, rfl⟩

end NetConn

/-- `NotifyErr` for a FIN or RST on the conn at `p`. -/
def kill (h : Heap NetConn) (p : ConnPtr) : Heap NetConn :=
  match h.get? p with
  | some c => h.store p (c.notifyErr .finRst)
  | none => h

/-- Whether there is a conn at `p` that is alive. -/
def aliveAt (h : Heap NetConn) (p : ConnPtr) : Option Bool := (h.get? p).map NetConn.alive

/-- `p` is a conn of one of the groups. -/
def Held (gs : List INetGroup) (p : ConnPtr) : Prop := ∃ g ∈ gs, ∃ e ∈ g.mConns.entries, e.2 = p

/-- `p` is a `FakeTcp` with the 4-tuple of `info`. -/
def Carries (h : Heap NetConn) (info : TcpInfo) (p : ConnPtr) : Prop :=
  ∃ c : FakeTcp, h.get? p = some (.fakeTcp c) ∧ c.mInfo.tuple = info.tuple

/-- Exactly the right conn is killed: if some group holds a `FakeTcp` with the 4-tuple of `info`, that
    one is not alive afterwards and no other conn of any group has become so; if none does, no conn
    of any group has changed. -/
def KillsExactly (gs : List INetGroup) (info : TcpInfo) (h h' : Heap NetConn) : Prop :=
  ((∃ p, Held gs p ∧ Carries h info p) → ∃ p, (Held gs p ∧ Carries h info p) ∧
      aliveAt h' p = some false ∧ ∀ q, Held gs q → q ≠ p → aliveAt h' q = aliveAt h q) ∧
    ((∀ p, Held gs p → ¬ Carries h info p) → ∀ q, Held gs q → h'.get? q = h.get? q)

/-- The conn that is found is the right one. Otherwise the mistake must not show: the right conn, if
    there is one, is already dead, and the wrong one, if there is one, has nothing to lose. -/
def FindsRight (gs : List INetGroup) (info : TcpInfo) (h : Heap NetConn) (found : Option ConnPtr) :
    Prop :=
  (∃ p, found = some p ∧ Carries h info p) ∨
  ((∃ q, (Held gs q ∧ Carries h info q) ∧ aliveAt h q = some false) ∧
    ∀ p c, found = some p → h.get? p = some (.fakeTcp c) → c.mAlive = false) ∨
  ((∀ q, Held gs q → ¬ Carries h info q) ∧
    ∀ p c, found = some p → h.get? p = some c → c.Closed)

section Kill

variable {h : Heap NetConn} {p q : ConnPtr} {c : NetConn} {info : TcpInfo}

theorem get?_kill_of_ne (hne : q ≠ p) : (kill h p).get? q = h.get? q := by
  unfold kill
  split
  · exact Heap.get?_store_of_ne hne.symm
  · rfl

/-- The conn that is found gets the error. -/
theorem get?_kill_self (hc : h.get? p = some c) :
    (kill h p).get? p = some (c.notifyErr .finRst) := by
  simp only [kill, hc]
  exact Heap.get?_store_self hc

/-- The other conns live on. -/
theorem aliveAt_kill_of_ne (hne : q ≠ p) : aliveAt (kill h p) q = aliveAt h q := by
  rw [aliveAt, aliveAt, get?_kill_of_ne hne]

theorem aliveAt_kill_of_carries (hp : Carries h info p) : aliveAt (kill h p) p = some false := by
  obtain ⟨c, hc, -⟩ := hp
  rw [aliveAt, get?_kill_self hc]
  rfl

/-- The heap after `NotifyErr` on the conn that was found. -/
def afterFound (h : Heap NetConn) : Option ConnPtr → Heap NetConn
  | some p => kill h p
  | none => h

section Found

variable {gs : List INetGroup} {found : Option ConnPtr}

/-- If exactly the right conns die, then the right one was found. -/
theorem findsRight_of_killsExactly
    (hheld : ∀ p, found = some p → Held gs p ∧ ∃ c, h.get? p = some c)
    (hkill : KillsExactly gs info h (afterFound h found)) : FindsRight gs info h found := by
  obtain ⟨hsome, hnone⟩ := hkill
  by_cases hex : ∃ p, Held gs p ∧ Carries h info p
  · obtain ⟨p, hp, hdead, hothers⟩ := hsome hex
    cases found with
    | none => exact .inr (.inl ⟨⟨p, hp, hdead⟩, by simp⟩)
    | some r =>
      by_cases hr : Carries h info r
      · exact .inl ⟨r, rfl, hr⟩
      · -- the wrong conn has been killed: the right one must have been dead, and this one too
        have hrp : r ≠ p := by
          rintro rfl
          exact hr hp.2
        have hr' := hothers r (hheld r rfl).1 hrp
        refine .inr (.inl ⟨⟨p, hp, ?_⟩, ?_⟩)
        · rw [← aliveAt_kill_of_ne hrp.symm]
          exact hdead
        · intro r' c heq hc
          obtain rfl : r = r' := Option.some.inj heq
          rw [aliveAt, afterFound, get?_kill_self hc, aliveAt, hc] at hr'
          exact (Option.some.inj hr').symm
  · have hno : ∀ q, Held gs q → ¬ Carries h info q := by
      intro q hq hcar
      exact hex ⟨q, hq, hcar⟩
    refine .inr (.inr ⟨hno, ?_⟩)
    rintro r c rfl hc
    have hr := hnone hno r (hheld r rfl).1
    rw [afterFound, get?_kill_self hc, hc] at hr
    rw [← Option.some.inj hr]
    exact c.closed_notifyErr

/-- If the conn that is found carries the addresses, exactly the right conns die. -/
theorem killsExactly_of_carries (hheld : Held gs p) (hp : Carries h info p) :
    KillsExactly gs info h (kill h p) := by
  constructor
  · intro _
    refine ⟨p, ⟨hheld, hp⟩, aliveAt_kill_of_carries hp, ?_⟩
    intro r _ hne
    exact aliveAt_kill_of_ne hne
  · intro hno
    exact absurd hp (hno p hheld)

/-- If the conn with the addresses is dead already, nothing must be left to kill. -/
theorem killsExactly_of_dead (hget : ∀ p, found = some p → ∃ c, h.get? p = some c)
    (hq : Held gs q ∧ Carries h info q) (hdead : aliveAt h q = some false)
    (hother : ∀ p c, found = some p → h.get? p = some (.fakeTcp c) → c.mAlive = false) :
    KillsExactly gs info h (afterFound h found) := by
  -- a dead conn stays as dead as it was, and a `FakeUdp` does not die
  have hsame : ∀ r, aliveAt (afterFound h found) r = aliveAt h r := by
    intro r
    cases found with
    | none => rfl
    | some p =>
      by_cases hrp : r = p
      · subst hrp
        obtain ⟨c, hc⟩ := hget r rfl
        rw [aliveAt, afterFound, get?_kill_self hc, aliveAt, hc]
        cases c with
        | fakeTcp c => exact congrArg some (hother r c rfl hc).symm
        | fakeUdp c => rfl
      · exact aliveAt_kill_of_ne hrp
  constructor
  · intro _
    refine ⟨q, hq, (hsame q).trans hdead, ?_⟩
    intro r _ _
    exact hsame r
  · intro hno
    exact absurd hq.2 (hno q hq.1)

theorem killsExactly_of_closed (hget : ∀ p, found = some p → ∃ c, h.get? p = some c)
    (hno : ∀ q, Held gs q → ¬ Carries h info q)
    (hclosed : ∀ p c, found = some p → h.get? p = some c → c.Closed) :
    KillsExactly gs info h (afterFound h found) := by
  constructor
  · rintro ⟨q, hq, hcar⟩
    exact absurd hcar (hno q hq)
  · intro _ r _
    cases found with
    | none => rfl
    | some p =>
      by_cases hrp : r = p
      · subst hrp
        obtain ⟨c, hc⟩ := hget r rfl
        rw [afterFound, get?_kill_self hc, hc, (hclosed r c rfl hc).notifyErr_eq]
      · exact get?_kill_of_ne hrp

/-- The conns that die are the right ones exactly if the right one was found. -/
theorem killsExactly_iff (hheld : ∀ p, found = some p → Held gs p ∧ ∃ c, h.get? p = some c) :
    KillsExactly gs info h (afterFound h found) ↔ FindsRight gs info h found := by
  have hget : ∀ p, found = some p → ∃ c, h.get? p = some c := by
    intro p hp
    exact (hheld p hp).2
  constructor
  · exact findsRight_of_killsExactly hheld
  · rintro (⟨p, rfl, hp⟩ | ⟨⟨q, hq, hdead⟩, hother⟩ | ⟨hno, hclosed⟩)
    · exact killsExactly_of_carries (hheld p rfl).1 hp
    · exact killsExactly_of_dead hget hq hdead hother
    · exact killsExactly_of_closed hget hno hclosed

end Found

end Kill

/-! ## What a FIN or RST finds -/

/-- The conn the groups have under the key, from the first group that has one. -/
def firstConn (gs : List INetGroup) (key : IntKeyType) : Option ConnPtr :=
  gs.findSome? fun g => g.mConnMap.get? key

section Found

open INetGroup

variable {P : NetConn → Prop} {g : INetGroup} {h : Heap NetConn} {info : TcpInfo}

theorem keyForConnInfo_tcp (hs : info.sp ≠ 0) (hd : info.dp ≠ 0) :
    keyForConnInfo (.tcp info) = .ok (portKey typeTcp info.sp info.dp) := by
  rw [keyForConnInfo, keyForTcp, cassert_pos ⟨hs, hd⟩]
  rfl

/-- Without ports there is no key. -/
theorem keyForConnInfo_tcp_error (h0 : ¬ (info.sp ≠ 0 ∧ info.dp ≠ 0)) :
    keyForConnInfo (.tcp info) = .error .assertFailed := by
  have h0' : ¬ ((TcpInfo.ofConnInfo info.toConnInfo).sp ≠ 0 ∧
      (TcpInfo.ofConnInfo info.toConnInfo).dp ≠ 0) := h0
  rw [keyForConnInfo, keyForTcp, cassert_neg h0']
  rfl

theorem processTcpFinOrRst_error (h0 : ¬ (info.sp ≠ 0 ∧ info.dp ≠ 0)) :
    IAppGroup.processTcpFinOrRst g h info = .error .assertFailed := by
  rw [IAppGroup.processTcpFinOrRst, keyForConnInfo_tcp_error h0]
  rfl

/-- A FIN or a RST is for the conn under the key of its ports. -/
theorem processTcpFinOrRst_eq (hI : Inv P g h) (hs : info.sp ≠ 0) (hd : info.dp ≠ 0) :
    IAppGroup.processTcpFinOrRst g h info =
      .ok (afterFound h (g.mConnMap.get? (portKey typeTcp info.sp info.dp)),
        (g.mConnMap.get? (portKey typeTcp info.sp info.dp)).isSome) := by
  rw [IAppGroup.processTcpFinOrRst, keyForConnInfo_tcp hs hd, ok_bind, hI.connOfIntKey_eq, ok_bind]
  cases hp : g.mConnMap.get? (portKey typeTcp info.sp info.dp) with
  | none => rfl
  | some p =>
    obtain ⟨c, hc, hk, -⟩ := hI.get?_conn hp
    have hderef := Heap.deref_eq_ok.mpr hc
    simp only [hderef, ok_bind, IAppGroup.onRecvNetConnRst, INetGroup.notifyErr, hk,
      hI.connOfIntKey_eq, hp, afterFound, kill, hc]
    rfl

/-- It is for the first group that has the key. -/
theorem finOrRstLoop_eq {l : List (List UInt8 × INetGroup)} (hI : ∀ e ∈ l, Inv P e.2 h)
    (hs : info.sp ≠ 0) (hd : info.dp ≠ 0) :
    ServerGroup.finOrRstLoop info h l =
      .ok (afterFound h (firstConn (l.map Prod.snd) (portKey typeTcp info.sp info.dp))) := by
  induction l with
  | nil => rfl
  | cons e l ih =>
    have hIl : ∀ e' ∈ l, Inv P e'.2 h := by
      intro e' he'
      exact hI e' (List.mem_cons_of_mem _ he')
    have hrest := ih hIl
    rw [ServerGroup.finOrRstLoop, processTcpFinOrRst_eq (hI e List.mem_cons_self) hs hd, ok_bind]
    cases hp : e.2.mConnMap.get? (portKey typeTcp info.sp info.dp) with
    | none =>
      simp only [afterFound, Option.isSome_none, firstConn, List.map_cons, List.findSome?_cons, hp]
      exact hrest
    | some p =>
      simp only [Option.isSome_some, firstConn, List.map_cons, List.findSome?_cons, hp]
      rfl

/-- What is found is a conn of one of the groups. -/
theorem held_of_firstConn {gs : List INetGroup} {key : IntKeyType} {p : ConnPtr}
    (hI : ∀ g ∈ gs, Inv P g h) (hp : firstConn gs key = some p) :
    Held gs p ∧ ∃ c, h.get? p = some c := by
  obtain ⟨g, hg, hget⟩ := List.exists_of_findSome?_eq_some hp
  obtain ⟨c, hc, -, -⟩ := (hI g hg).get?_conn hget
  obtain ⟨e, he, rfl⟩ := Option.map_eq_some_iff.mp hget
  have hmem : e ∈ g.mConnMap.entries := ((g.mConnMap.find?_eq_some_iff).mp he).1
  have htext : textEntry e ∈ g.mConns.entries :=
    (hI g hg).perm.mem_iff.mpr (List.mem_map_of_mem hmem)
  exact ⟨⟨g, hg, textEntry e, htext, rfl⟩, c, hc⟩

end Found

/-! ## The client -/

/-- The key of a `FakeTcp` is the one its own addresses give. -/
def NetConn.OwnKey : NetConn → Prop
  | fakeTcp c => keyForConnInfo (.tcp c.mInfo) = .ok c.mIntKey
  | fakeUdp _ => True

/-- The key is made of the addresses alone. -/
theorem keyForConnInfo_congr {i j : TcpInfo} (h : i.tuple = j.tuple) :
    keyForConnInfo (.tcp i) = keyForConnInfo (.tcp j) := by
  simp only [ConnInfo.tuple, Prod.mk.injEq] at h
  obtain ⟨-, hsp, -, hdp⟩ := h
  by_cases hports : j.sp ≠ 0 ∧ j.dp ≠ 0
  · rw [keyForConnInfo_tcp hports.1 hports.2, ← hsp, ← hdp]
    exact keyForConnInfo_tcp (hsp ▸ hports.1) (hdp ▸ hports.2)
  · rw [keyForConnInfo_tcp_error hports]
    exact keyForConnInfo_tcp_error (by rwa [hsp, hdp])

theorem NetConn.OwnKey.like (c c' : NetConn) (hl : Like c c') (h : c.OwnKey) : c'.OwnKey := by
  cases c with
  | fakeTcp c =>
    cases c' with
    | fakeTcp c' =>
      show keyForConnInfo (.tcp c'.mInfo) = .ok c'.mIntKey
      rw [hl.1, keyForConnInfo_congr hl.2]
      exact h
    | fakeUdp c' => trivial
  | fakeUdp c =>
    cases c' with
    | fakeTcp c' => exact hl.elim
    | fakeUdp c' => trivial

namespace ClientGroup

open INetGroup NetConn

variable {s s' : ClientGroup}

/-- The conns of the client are under their own keys. -/
def Inv (s : ClientGroup) : Prop := INetGroup.Inv OwnKey s.mFakeNetGroup s.mHeap

/-- A conn of a dial has the key of its addresses. -/
theorem createINetConn_ownKey {pool pool' : TcpAckPool} {env : DialEnv} {c : FakeTcp}
    (hr : ClientNetManager.createINetConn pool env = .ok (pool', some c)) :
    OwnKey (.fakeTcp c) := by
  unfold ClientNetManager.createINetConn at hr
  split at hr
  · split at hr
    · obtain ⟨key, hkey, hr⟩ := bind_eq_ok.mp hr
      obtain ⟨c', hnew, hr⟩ := bind_eq_ok.mp hr
      obtain ⟨-, -, hnew⟩ := bind_eq_ok.mp hnew
      cases hr
      cases hnew
      exact hkey
    · cases hr
  · cases hr

/-- A conn with its own key may be added. -/
theorem inv_addFakeTcp {c : FakeTcp} {readStart : Int} (hI : s.Inv) (hc : OwnKey (.fakeTcp c))
    (hr : s.addFakeTcp c readStart = .ok s') : s'.Inv := by
  unfold addFakeTcp at hr
  dsimp only at hr
  split at hr
  · obtain ⟨g, hadd, hr⟩ := bind_eq_ok.mp hr
    cases hr
    have hinit : OwnKey (.fakeTcp (c.init readStart).1) := hc
    exact (keeps_addNetConn OwnKey.like hinit hadd).inv hI
  · cases hr
    exact hI

/-- Whatever happens to the client, its conns have their own keys. -/
theorem inv_step (hI : s.Inv) {e : Event} (hr : s.step e = .ok s') : s'.Inv := by
  cases e with
  | addInfoFromPeer a =>
    cases hr
    exact hI
  | addUdpNetConn conn =>
    obtain ⟨c, -, hr⟩ := bind_eq_ok.mp hr
    obtain ⟨g, hadd, hr⟩ := bind_eq_ok.mp hr
    cases hr
    have hown : OwnKey (.fakeUdp c) := trivial
    exact (keeps_addNetConn OwnKey.like hown hadd).inv hI
  | addTcpNetConn env =>
    obtain ⟨⟨pool, c⟩, hnew, hr⟩ := bind_eq_ok.mp hr
    have hI' : Inv { s with mTcpAckPool := pool } := hI
    cases c with
    | some c => exact inv_addFakeTcp hI' (createINetConn_ownKey hnew) hr
    | none =>
      cases hr
      exact hI
  | onTcpConnect info env nret tcpInfo =>
    obtain ⟨⟨pool, c⟩, hnew, hr⟩ := bind_eq_ok.mp hr
    cases c with
    | some c =>
      dsimp only at hr
      split at hr
      · cases hr
        exact hI
      · have hI' : Inv { s with mTcpAckPool := (pool.removeInfo tcpInfo).1 } := hI
        exact inv_addFakeTcp hI' (createINetConn_ownKey hnew) hr
    | none =>
      cases hr
      exact hI
  | input o pkt =>
    obtain ⟨⟨u, g, h⟩, hin, hr⟩ := bind_eq_ok.mp hr
    cases hr
    refine (IAppGroup.keeps_input OwnKey.like ?_ hin).inv hI
    -- `CNetGroup::CreateNetConn` makes no conns
    intro st k info st' c hnew
    cases hnew
  | app e =>
    obtain ⟨⟨g, h⟩, hstep, hr⟩ := bind_eq_ok.mp hr
    cases hr
    exact (IAppGroup.keeps_step OwnKey.like hstep).inv hI
  | onTcpError p =>
    obtain ⟨h, herr, hr⟩ := bind_eq_ok.mp hr
    cases hr
    exact (IAppGroup.keeps_onTcpError OwnKey.like herr).inv hI
  | onTcpFinOrRst info =>
    obtain ⟨⟨h, b⟩, hfin, hr⟩ := bind_eq_ok.mp hr
    cases hr
    exact (IAppGroup.keeps_processTcpFinOrRst OwnKey.like hfin).inv hI

/-- A FIN or RST is processed, and exactly the right conn is killed. -/
def KillsRight (s : ClientGroup) (info : TcpInfo) : Prop :=
  ∃ s', s.onTcpFinOrRst info = .ok s' ∧
    KillsExactly [s.mFakeNetGroup] info s.mHeap s'.mHeap

section FinOrRst

variable {info : TcpInfo} {p : ConnPtr}

/-- What a FIN or a RST does to the client. -/
theorem onTcpFinOrRst_eq (hI : s.Inv) (hs : info.sp ≠ 0) (hd : info.dp ≠ 0) :
    s.onTcpFinOrRst info = .ok { s with
      mHeap := afterFound s.mHeap
        (s.mFakeNetGroup.mConnMap.get? (portKey typeTcp info.sp info.dp)) } := by
  rw [onTcpFinOrRst, processTcpFinOrRst_eq hI hs hd]
  rfl

theorem held_of_get? (hI : s.Inv) {key : IntKeyType}
    (hp : s.mFakeNetGroup.mConnMap.get? key = some p) :
    Held [s.mFakeNetGroup] p ∧ ∃ c, s.mHeap.get? p = some c := by
  have hgroups : ∀ g ∈ [s.mFakeNetGroup], INetGroup.Inv OwnKey g s.mHeap := by
    intro g hg
    obtain rfl := List.mem_singleton.mp hg
    exact hI
  apply held_of_firstConn hgroups
  rw [firstConn, List.findSome?_cons, hp]

/-- A conn with the 4-tuple of `info` has its own key, the one that is looked up. -/
theorem get?_of_carries (hI : s.Inv) (hs : info.sp ≠ 0) (hd : info.dp ≠ 0)
    (hheld : Held [s.mFakeNetGroup] p) (hcar : Carries s.mHeap info p) :
    s.mFakeNetGroup.mConnMap.get? (portKey typeTcp info.sp info.dp) = some p := by
  obtain ⟨g, hg, e, he, rfl⟩ := hheld
  obtain ⟨c, hc, ht⟩ := hcar
  obtain rfl := List.mem_singleton.mp hg
  have hget := INetGroup.Inv.get?_of_mem hI he hc
  obtain ⟨c', hc', hk, hown⟩ := INetGroup.Inv.get?_conn hI hget
  obtain rfl : c' = .fakeTcp c := Option.some.inj (hc'.symm.trans hc)
  have hkey : keyForConnInfo (.tcp c.mInfo) = .ok c.mIntKey := hown
  rw [keyForConnInfo_congr ht, keyForConnInfo_tcp hs hd] at hkey
  rw [Except.ok.inj hkey]
  exact hget

/-- The client finds the right conn exactly if the one under the key has the addresses. -/
theorem findsRight_iff (hI : s.Inv) (hs : info.sp ≠ 0) (hd : info.dp ≠ 0) :
    FindsRight [s.mFakeNetGroup] info s.mHeap
        (s.mFakeNetGroup.mConnMap.get? (portKey typeTcp info.sp info.dp)) ↔
      ∀ p c, s.mFakeNetGroup.mConnMap.get? (portKey typeTcp info.sp info.dp) = some p →
        s.mHeap.get? p = some c → Carries s.mHeap info p ∨ c.Closed := by
  constructor
  · rintro (⟨p, hp, hcar⟩ | ⟨⟨q, hq, hdead⟩, -⟩ | ⟨-, hclosed⟩) r c hr hc
    · obtain rfl : p = r := Option.some.inj (hp.symm.trans hr)
      exact .inl hcar
    · have hget := get?_of_carries hI hs hd hq.1 hq.2
      obtain rfl : q = r := Option.some.inj (hget.symm.trans hr)
      exact .inl hq.2
    · exact .inr (hclosed r c hr hc)
  · intro hall
    by_cases hex : ∃ q, Held [s.mFakeNetGroup] q ∧ Carries s.mHeap info q
    · obtain ⟨q, hq, hcar⟩ := hex
      exact .inl ⟨q, get?_of_carries hI hs hd hq hcar, hcar⟩
    · have hno : ∀ q, Held [s.mFakeNetGroup] q → ¬ Carries s.mHeap info q := by
        intro q hq hcar
        exact hex ⟨q, hq, hcar⟩
      refine .inr (.inr ⟨hno, ?_⟩)
      intro p c hp hc
      rcases hall p c hp hc with hcar | hclosed
      · exact absurd hcar (hno p (held_of_get? hI hp).1)
      · exact hclosed

/-- Every conn with the 4-tuple of `info` is stored where the lookup goes, so only a conn with
    another 4-tuple in that place can go wrong. -/
theorem killsRight_iff (hI : s.Inv) (info : TcpInfo) :
    s.KillsRight info ↔ info.sp ≠ 0 ∧ info.dp ≠ 0 ∧ ∀ p c,
      s.mFakeNetGroup.mConnMap.get? (portKey typeTcp info.sp info.dp) = some p →
      s.mHeap.get? p = some c → Carries s.mHeap info p ∨ c.Closed := by
  by_cases hports : info.sp ≠ 0 ∧ info.dp ≠ 0
  · obtain ⟨hs, hd⟩ := hports
    rw [KillsRight, exists_ok_and_iff (onTcpFinOrRst_eq hI hs hd),
      killsExactly_iff fun p hp => held_of_get? hI hp, findsRight_iff hI hs hd]
    constructor
    · intro hall
      exact ⟨hs, hd, hall⟩
    · rintro ⟨-, -, hall⟩
      exact hall
  · constructor
    · rintro ⟨s', hs', -⟩
      rw [onTcpFinOrRst, processTcpFinOrRst_error hports] at hs'
      cases hs'
    · rintro ⟨hs, hd, -⟩
      exact absurd ⟨hs, hd⟩ hports

end FinOrRst

end ClientGroup

/-! ## The server -/

namespace ServerGroup

open INetGroup NetConn

variable {s s' : ServerGroup}

/-- The invariant of the server. Nothing is known about the keys, the peers choose them. -/
def Inv (s : ServerGroup) : Prop :=
  ∀ e ∈ s.mConns.entries, INetGroup.Inv (fun _ => True) e.2 s.mHeap

/-- The net groups, in the order of their ids. -/
def groups (s : ServerGroup) : List INetGroup := s.mConns.entries.map Prod.snd

theorem inv_groups (hI : s.Inv) : ∀ g ∈ s.groups, INetGroup.Inv (fun _ => True) g s.mHeap := by
  intro g hg
  obtain ⟨e, he, rfl⟩ := List.mem_map.mp hg
  exact hI e he

/-- The groups stay in order while conns change. -/
theorem inv_evolves (hI : s.Inv) {h : Heap NetConn} (hh : Heap.Evolves Like s.mHeap h) :
    ∀ e ∈ s.mConns.entries, INetGroup.Inv (fun _ => True) e.2 h := by
  intro e he
  exact (hI e he).evolves (fun _ _ _ => id) hh

theorem inv_of_get? (hI : s.Inv) {id : List UInt8} {g : INetGroup} (hg : s.mConns.get? id = some g) :
    INetGroup.Inv (fun _ => True) g s.mHeap := by
  obtain ⟨e, he, rfl⟩ := Option.map_eq_some_iff.mp hg
  exact hI e ((s.mConns.find?_eq_some_iff).mp he).1

/-- One of the groups may be replaced. -/
theorem inv_assign (hI : s.Inv) {g g' : INetGroup} {h : Heap NetConn} (id : List UInt8)
    (mgr : ServerNetManager) (hg : INetGroup.Inv (fun _ => True) g s.mHeap)
    (hk : Keeps (fun _ => True) g s.mHeap g' h) :
    Inv { s with mNetManager := mgr, mHeap := h, mConns := s.mConns.assign id g' } := by
  intro e he
  rcases StdMap.mem_assign.mp he with ⟨he, -⟩ | ⟨e₀, -, rfl⟩ | ⟨-, rfl⟩
  · exact inv_evolves hI hk.evolves e he
  · exact hk.inv hg
  · exact hk.inv hg

theorem inv_subGroupInput (hI : s.Inv) {o : ByteOrder} {env : AcceptEnv} {id : List UInt8}
    {g : INetGroup} {pkt : IAppGroup.Packet} (hg : INetGroup.Inv (fun _ => True) g s.mHeap)
    (hr : s.subGroupInput o env id g pkt = .ok s') : s'.Inv := by
  obtain ⟨⟨mgr, g', h⟩, hin, hr⟩ := bind_eq_ok.mp hr
  cases hr
  have hk : Keeps (fun _ => True) g s.mHeap g' h :=
    IAppGroup.keeps_input (fun _ _ _ h => h) (fun _ _ _ _ _ _ => trivial) hin
  exact inv_assign hI id mgr hg hk

/-- A packet leaves the groups of the server in order. -/
theorem inv_onRecv (hI : s.Inv) {o : ByteOrder} {env : AcceptEnv} {initRet : Int}
    {pkt : IAppGroup.Packet} (hr : s.onRecv o env initRet pkt = .ok s') : s'.Inv := by
  unfold onRecv at hr
  split at hr
  · cases hr
  dsimp only at hr
  split at hr
  · next g hg => exact inv_subGroupInput hI (inv_of_get? hI hg) hr
  · split at hr
    · exact inv_subGroupInput hI (inv_empty _ _) hr
    · cases hr
      exact hI

theorem keeps_finOrRstLoop {P : NetConn → Prop} (hP : ∀ c c', Like c c' → P c → P c')
    {g : INetGroup} {info : TcpInfo} {l : List (List UInt8 × INetGroup)} {h h' : Heap NetConn}
    (hr : finOrRstLoop info h l = .ok h') : Keeps P g h g h' := by
  induction l generalizing h with
  | nil =>
    cases hr
    exact Keeps.refl P _ _
  | cons e l ih =>
    obtain ⟨⟨h₁, processed⟩, hfin, hr⟩ := bind_eq_ok.mp hr
    have hk : Keeps P g h g h₁ :=
      keeps_of_evolves hP (IAppGroup.keeps_processTcpFinOrRst hP hfin).evolves
    dsimp only at hr
    split at hr
    · cases hr
      exact hk
    · exact hk.trans (ih hr)

/-- So does everything else. -/
theorem inv_step (hI : s.Inv) {e : Event} (hr : s.step e = .ok s') : s'.Inv := by
  cases e with
  | netManager e =>
    cases hr
    exact hI
  | onRecv o env initRet pkt =>
    exact inv_onRecv hI hr
  | app id e =>
    simp only [step] at hr
    split at hr
    · next g hg =>
      obtain ⟨⟨g', h⟩, hstep, hr⟩ := bind_eq_ok.mp hr
      cases hr
      have hk : Keeps (fun _ => True) g s.mHeap g' h :=
        IAppGroup.keeps_step (fun _ _ _ h => h) hstep
      exact inv_assign hI id s.mNetManager (inv_of_get? hI hg) hk
    · cases hr
      exact hI
  | closeConn id =>
    cases hr
    intro e he
    exact hI e (StdMap.mem_erase.mp he).1
  | onTcpError p =>
    obtain ⟨h, herr, hr⟩ := bind_eq_ok.mp hr
    cases hr
    have hk : Keeps (fun _ => True) {} s.mHeap {} h :=
      IAppGroup.keeps_onTcpError (fun _ _ _ h => h) herr
    exact inv_evolves hI hk.evolves
  | onTcpFinOrRst info =>
    obtain ⟨h, hloop, hr⟩ := bind_eq_ok.mp hr
    cases hr
    have hk : Keeps (fun _ => True) {} s.mHeap {} h :=
      keeps_finOrRstLoop (fun _ _ _ h => h) hloop
    exact inv_evolves hI hk.evolves

/-- A FIN or RST is processed, and exactly the right conn is killed. -/
def KillsRight (s : ServerGroup) (info : TcpInfo) : Prop :=
  ∃ s', s.onTcpFinOrRst info = .ok s' ∧ KillsExactly s.groups info s.mHeap s'.mHeap

/-- The lookup has to go right by itself: a conn is stored where the peer's key says. -/
theorem killsRight_iff (hI : s.Inv) (info : TcpInfo) :
    s.KillsRight info ↔ s.groups = [] ∨ info.sp ≠ 0 ∧ info.dp ≠ 0 ∧
      FindsRight s.groups info s.mHeap
        (firstConn s.groups (portKey typeTcp info.sp info.dp)) := by
  have hgroups := inv_groups hI
  by_cases hempty : s.groups = []
  · have hentries : s.mConns.entries = [] := List.map_eq_nil_iff.mp hempty
    refine iff_of_true ⟨s, ?_, ?_⟩ (.inl hempty)
    · rw [onTcpFinOrRst, hentries]
      rfl
    · refine ⟨?_, fun _ _ _ => rfl⟩
      rintro ⟨p, ⟨g, hg, -⟩, -⟩
      rw [hempty] at hg
      cases hg
  by_cases hports : info.sp ≠ 0 ∧ info.dp ≠ 0
  · obtain ⟨hs, hd⟩ := hports
    have hstep : s.onTcpFinOrRst info = .ok { s with
        mHeap := afterFound s.mHeap (firstConn s.groups (portKey typeTcp info.sp info.dp)) } := by
      rw [onTcpFinOrRst, finOrRstLoop_eq hI hs hd]
      rfl
    rw [KillsRight, exists_ok_and_iff hstep,
      killsExactly_iff fun p hp => held_of_firstConn hgroups hp]
    constructor
    · intro hfinds
      exact .inr ⟨hs, hd, hfinds⟩
    · rintro (hnil | ⟨-, -, hfinds⟩)
      · exact absurd hnil hempty
      · exact hfinds
  · refine iff_of_false ?_ ?_
    · rintro ⟨s', hs', -⟩
      have hentries : s.mConns.entries ≠ [] := by
        intro hnil
        exact hempty (List.map_eq_nil_iff.mpr hnil)
      obtain ⟨e, l, hl⟩ := List.exists_cons_of_ne_nil hentries
      rw [onTcpFinOrRst, hl, finOrRstLoop, processTcpFinOrRst_error hports] at hs'
      cases hs'
    · rintro (h | ⟨hs, hd, -⟩)
      · exact hempty h
      · exact hports ⟨hs, hd⟩

/-- A conn that the peer has numbered with its own ports is never found, unless the two ports are the
    same. -/
theorem not_killsRight_of_peerKey (hI : s.Inv) {info : TcpInfo} (hne : info.sp ≠ info.dp)
    {p : ConnPtr} {c : FakeTcp} (hheld : Held s.groups p)
    (hc : s.mHeap.get? p = some (.fakeTcp c)) (ht : c.mInfo.tuple = info.tuple)
    (halive : c.mAlive = true) (hkey : c.mIntKey = portKey typeTcp info.dp info.sp)
    (honly : ∀ q, Held s.groups q → Carries s.mHeap info q → q = p) : ¬ s.KillsRight info := by
  rw [killsRight_iff hI]
  rintro (hnil | ⟨-, -, hfinds⟩)
  · obtain ⟨g, hg, -⟩ := hheld
    rw [hnil] at hg
    cases hg
  rcases hfinds with ⟨q, hq, hcar⟩ | ⟨⟨q, ⟨hq, hcar⟩, hdead⟩, -⟩ | ⟨hno, -⟩
  · obtain ⟨g, hg, hget⟩ := List.exists_of_findSome?_eq_some hq
    obtain rfl := honly q (held_of_firstConn (inv_groups hI) hq).1 hcar
    obtain ⟨c', hc', hk, -⟩ := (inv_groups hI g hg).get?_conn hget
    obtain rfl : c' = .fakeTcp c := Option.some.inj (hc'.symm.trans hc)
    have hswap : portKey typeTcp info.dp info.sp = portKey typeTcp info.sp info.dp :=
      hkey.symm.trans hk
    exact hne ((portKey_swap_iff (by decide)).mp hswap)
  · obtain rfl := honly q hq hcar
    rw [aliveAt, hc] at hdead
    exact absurd (Option.some.inj hdead) (by simp [NetConn.alive, halive])
  · exact hno p hheld ⟨c, hc, ht⟩

end ServerGroup

/-- A captured FIN or RST, in every state a client or a server can reach.

    On the client it kills exactly the right conn when both ports are set and no conn with another
    4-tuple, unless closed before, is stored under the key of the two ports. On the server the
    first group that stores a conn under that key has to store the right one there, although it is
    the peer that chose the keys. -/
theorem finOrRst_killsRight_iff (info : TcpInfo) :
    (∀ (pool : TcpAckPool) (es : List ClientGroup.Event) (s : ClientGroup),
      TransSys.run ClientGroup.step { mTcpAckPool := pool } es = .ok s →
      (s.KillsRight info ↔ info.sp ≠ 0 ∧ info.dp ≠ 0 ∧ ∀ p c,
        s.mFakeNetGroup.mConnMap.get? (portKey typeTcp info.sp info.dp) = some p →
        s.mHeap.get? p = some c → Carries s.mHeap info p ∨ c.Closed)) ∧
    (∀ (mgr : ServerNetManager) (es : List ServerGroup.Event) (s : ServerGroup),
      TransSys.run ServerGroup.step { mNetManager := mgr } es = .ok s →
      (s.KillsRight info ↔ s.groups = [] ∨ info.sp ≠ 0 ∧ info.dp ≠ 0 ∧
        FindsRight s.groups info s.mHeap
          (firstConn s.groups (portKey typeTcp info.sp info.dp)))) := by
  refine ⟨?_, ?_⟩
  · intro pool es s hrun
    have hinit : ClientGroup.Inv { mTcpAckPool := pool } := INetGroup.inv_empty _ _
    have hI : s.Inv :=
      TransSys.run_invariant (fun _ _ _ hI hr => ClientGroup.inv_step hI hr) hinit hrun
    exact ClientGroup.killsRight_iff hI info
  · intro mgr es s hrun
    have hinit : ServerGroup.Inv { mNetManager := mgr } := by
      intro e he
      cases he
    have hI : s.Inv :=
      TransSys.run_invariant (fun _ _ _ hI hr => ServerGroup.inv_step hI hr) hinit hrun
    exact ServerGroup.killsRight_iff hI info

/-- A connection as the client sees it, from port 40000 to port 10000. -/
def conn40000 : TcpInfo := { src := 1, sp := 40000, dst := 3, dp := 10000 }

/-- The client captures its handshake and dials it. -/
def dial40000 : List ClientGroup.Event :=
  [.addInfoFromPeer ⟨{ conn40000 with seq := 7, ack := 8 }, thSyn ||| thAck, 0⟩,
    .addTcpNetConn ⟨0, conn40000, [], [], conn40000.toConnInfo, 0, 0⟩]

/-- A FIN for the connection the client has dialed. -/
theorem finOrRst_client_40000 :
    ∃ s, TransSys.run ClientGroup.step { mTcpAckPool := { expireIntervalMs := 1000 } } dial40000 =
        .ok s ∧ s.KillsRight { conn40000 with flag := thFin } := by
  obtain ⟨s, hrun, hget, c, hc, ht⟩ : ∃ s,
      TransSys.run ClientGroup.step { mTcpAckPool := { expireIntervalMs := 1000 } } dial40000 =
        .ok s ∧
      s.mFakeNetGroup.mConnMap.get? (portKey typeTcp conn40000.sp conn40000.dp) = some 0 ∧
      ∃ c : FakeTcp, s.mHeap.get? 0 = some (.fakeTcp c) ∧ c.mInfo.tuple = conn40000.tuple :=
    ⟨_, rfl, rfl, _, rfl, rfl⟩
  refine ⟨s, hrun, ((finOrRst_killsRight_iff _).1 _ _ s hrun).mpr ⟨by decide, by decide, ?_⟩⟩
  intro p _ hp _
  obtain rfl : 0 = p := Option.some.inj (hget.symm.trans hp)
  exact .inl ⟨c, hc, ht⟩

/-- The server captures the handshake, accepts the connection and receives a data packet, with the
    key the client has for it. -/
def accept40000 : List ServerGroup.Event :=
  [.netManager (.addInfoFromPeer
      ⟨{ conn40000.reverse with seq := 7, ack := 8 }, thSyn ||| thAck, 0⟩),
    .netManager (.onNewConnection 5 0 conn40000.reverse 0),
    .onRecv .little ⟨[], [], conn40000.reverse.toConnInfo, 0, 0⟩ 0
      ⟨.tcp { conn40000.reverse with
          head := some { mConnKey := portKey typeTcp conn40000.sp conn40000.dp } },
        [42], [], 0, ⟨{}, [], 0, [], fun _ _ => .ok (0, ())⟩⟩]

/-- A FIN for the connection the server has accepted does not kill its conn. -/
theorem not_finOrRst_server_40000 :
    ∃ s, TransSys.run ServerGroup.step
        { mNetManager := { mTcpAckPool := { expireIntervalMs := 1000 } } } accept40000 = .ok s ∧
      ¬ s.KillsRight { conn40000.reverse with flag := thFin } := by
  obtain ⟨s, hrun, hlen, hheld, c, hc, ht, halive, hkey⟩ : ∃ s, TransSys.run ServerGroup.step
        { mNetManager := { mTcpAckPool := { expireIntervalMs := 1000 } } } accept40000 = .ok s ∧
      s.mHeap.cells.length = 1 ∧ Held s.groups 0 ∧
      ∃ c : FakeTcp, s.mHeap.get? 0 = some (.fakeTcp c) ∧
        c.mInfo.tuple = conn40000.reverse.tuple ∧ c.mAlive = true ∧
        c.mIntKey = portKey typeTcp conn40000.reverse.dp conn40000.reverse.sp :=
    ⟨_, rfl, rfl, ⟨_, .head _, _, .head _, rfl⟩, _, rfl, rfl, rfl, rfl⟩
  have hinit : ServerGroup.Inv
      { mNetManager := { mTcpAckPool := { expireIntervalMs := 1000 } } } := by
    intro e he
    cases he
  have hI : s.Inv :=
    TransSys.run_invariant (fun _ _ _ hI hr => ServerGroup.inv_step hI hr) hinit hrun
  refine ⟨s, hrun, ServerGroup.not_killsRight_of_peerKey hI (by decide) hheld hc ht halive hkey ?_⟩
  -- there is only one conn
  rintro q - ⟨c', hc', -⟩
  have hlt := Heap.lt_of_get? hc'
  exact Nat.lt_one_iff.mp (hlen ▸ hlt)

end Rsock
