import Rsock.Lib.Run
import Rsock.ServerNetManager
import Rsock.Proofs.TcpAckPoolProofs

/-!
# Proofs: `ServerNetManager`

Establishing a connection on the server, over every order of the captured handshake, the accept and
the data packets that ask for the handle; and where the accepted handles are, over every run of
calls.
-/

namespace Rsock

namespace TcpAckPool

variable {p : TcpAckPool}

theorem record_addInfoFromPeer_of_ne {a : Add} {i : TcpInfo}
    (h : a.infoFromPeer.tuple ≠ i.tuple) : (p.addInfoFromPeer a).1.record i = p.record i := by
  by_cases hbad : a.infoFromPeer.sp = 0 ∨ a.infoFromPeer.dp = 0 ∨ a.flags &&& thSyn = 0
  · rw [addInfoFromPeer, if_pos hbad]
  · rw [record_addInfoFromPeer hbad, if_neg h]

theorem record_addAll_of_ne {adds : List Add} {i : TcpInfo}
    (h : ∀ a ∈ adds, a.infoFromPeer.tuple ≠ i.tuple) : (p.addAll adds).record i = p.record i := by
  induction adds generalizing p with
  | nil => rfl
  | cons a adds ih =>
    have hadds : ∀ b ∈ adds, b.infoFromPeer.tuple ≠ i.tuple := by
      intro b hb
      exact h b (List.mem_cons_of_mem _ hb)
    show ((p.addInfoFromPeer a).1.addAll adds).record i = _
    rw [ih hadds, record_addInfoFromPeer_of_ne (h a List.mem_cons_self)]

theorem record_addInfoFromPeer_of_none {a : Add} {i : TcpInfo} (h : p.record i = none)
    (hv : ¬ (a.infoFromPeer.sp = 0 ∨ a.infoFromPeer.dp = 0 ∨ a.flags &&& thSyn = 0))
    (ht : a.infoFromPeer.tuple = i.tuple) :
    (p.addInfoFromPeer a).1.record i =
      some ⟨a.infoFromPeer.seq, a.infoFromPeer.ack, a.now + p.expireIntervalMs⟩ := by
  rw [record_addInfoFromPeer hv, if_pos ht, record_congr ht, h]
  rfl

theorem addAll_append (adds adds' : List Add) :
    p.addAll (adds ++ adds') = (p.addAll adds).addAll adds' :=
  List.foldl_append

theorem record_addAll_of_add {pre post : List Add} {a : Add} {i : TcpInfo} (h : p.record i = none)
    (hothers : ∀ b ∈ pre ++ post, b.infoFromPeer.tuple ≠ i.tuple)
    (hv : ¬ (a.infoFromPeer.sp = 0 ∨ a.infoFromPeer.dp = 0 ∨ a.flags &&& thSyn = 0))
    (ht : a.infoFromPeer.tuple = i.tuple) :
    ∃ r, (p.addAll (pre ++ a :: post)).record i = some r ∧ r.seq = a.infoFromPeer.seq ∧
      r.ack = a.infoFromPeer.ack := by
  obtain ⟨hpre, hpost⟩ := List.forall_mem_append.mp hothers
  have hnone : (p.addAll pre).record i = none := by
    rw [record_addAll_of_ne hpre, h]
  have hrec := record_addInfoFromPeer_of_none hnone hv ht
  have heq : (p.addAll (pre ++ a :: post)).record i =
      ((p.addAll pre).addInfoFromPeer a).1.record i := by
    rw [addAll_append]
    exact record_addAll_of_ne hpost
  exact ⟨_, heq.trans hrec, rfl, rfl⟩

/-! ## Waiting -/

/-- No add for the 4-tuple of `i` arrives during the wait. -/
def Quiet (i : TcpInfo) (wakes : List (List Add)) (late : List Add) : Prop :=
  (∀ adds ∈ wakes, ∀ a ∈ adds, a.infoFromPeer.tuple ≠ i.tuple) ∧
    ∀ a ∈ late, a.infoFromPeer.tuple ≠ i.tuple

theorem Quiet.tail {i : TcpInfo} {adds : List Add} {wakes : List (List Add)} {late : List Add}
    (h : Quiet i (adds :: wakes) late) : Quiet i wakes late := by
  refine ⟨?_, h.2⟩
  intro l hl
  exact h.1 l (List.mem_cons_of_mem _ hl)

theorem transfer_of_none {info : TcpInfo} (h : p.record info = none) :
    p.transfer info = (p, none) := by
  refine transfer_none ?_
  rw [(p.transfer_eq info).1, h]
  rfl

theorem transfer_of_some {info : TcpInfo} {r : AckRecord} (h : p.record info = some r) :
    ∃ p', p.transfer info = (p', some { info with seq := r.seq, ack := r.ack }) ∧
      p'.record info = none := by
  obtain ⟨hans, hrec⟩ := p.transfer_eq info
  rw [h] at hans
  refine ⟨_, Prod.ext rfl hans, ?_⟩
  rw [hrec, if_pos rfl]

theorem wait2TransferInfo_of_some {info : TcpInfo} {r : AckRecord} (h : p.record info = some r)
    (wakes : List (List Add)) (late : List Add) :
    ∃ p', p.wait2TransferInfo info wakes late =
        (p', some { info with seq := r.seq, ack := r.ack }) ∧ p'.record info = none := by
  obtain ⟨p', hp', hrec⟩ := transfer_of_some h
  refine ⟨p', ?_, hrec⟩
  rw [wait2TransferInfo.eq_def, hp']

/-- What arrives after the last pass of the loop does not count. -/
theorem wait2TransferInfo_of_quiet {info : TcpInfo} {wakes : List (List Add)} {others : List Add}
    (h : p.record info = none) (hq : Quiet info wakes others) (late : List Add) :
    ∃ p', p.wait2TransferInfo info wakes late = (p', none) := by
  induction wakes generalizing p with
  | nil =>
    refine ⟨p.addAll late, ?_⟩
    rw [wait2TransferInfo.eq_def, transfer_of_none h]
  | cons adds wakes ih =>
    have hadds : (p.addAll adds).record info = none := by
      rw [record_addAll_of_ne (hq.1 adds List.mem_cons_self), h]
    rw [wait2TransferInfo.eq_def, transfer_of_none h]
    exact ih hadds hq.tail

theorem wait2TransferInfo_of_add {info : TcpInfo} {before : List (List Add)} {pre post : List Add}
    {a : Add} (h : p.record info = none) (hq : Quiet info before (pre ++ post))
    (hv : ¬ (a.infoFromPeer.sp = 0 ∨ a.infoFromPeer.dp = 0 ∨ a.flags &&& thSyn = 0))
    (ht : a.infoFromPeer.tuple = info.tuple) (wakes : List (List Add)) (late : List Add) :
    ∃ p', p.wait2TransferInfo info (before ++ (pre ++ a :: post) :: wakes) late =
        (p', some { info with seq := a.infoFromPeer.seq, ack := a.infoFromPeer.ack }) ∧
      p'.record info = none := by
  induction before generalizing p with
  | nil =>
    rw [List.nil_append, wait2TransferInfo.eq_def, transfer_of_none h]
    obtain ⟨r, hrec, hseq, hack⟩ := record_addAll_of_add h hq.2 hv ht
    rw [← hseq, ← hack]
    exact wait2TransferInfo_of_some hrec wakes late
  | cons adds before ih =>
    have hadds : (p.addAll adds).record info = none := by
      rw [record_addAll_of_ne (hq.1 adds List.mem_cons_self), h]
    rw [List.cons_append, wait2TransferInfo.eq_def, transfer_of_none h]
    exact ih hadds hq.tail

/-- The addresses stay as they are. -/
theorem wait2TransferInfo_toConnInfo {p' : TcpAckPool} {info info' : TcpInfo}
    {wakes : List (List Add)} {late : List Add}
    (h : p.wait2TransferInfo info wakes late = (p', some info')) :
    info'.toConnInfo = info.toConnInfo := by
  induction wakes generalizing p with
  | nil =>
    cases hrec : p.record info with
    | some r =>
      obtain ⟨p₁, hp₁, -⟩ := wait2TransferInfo_of_some hrec [] late
      cases hp₁.symm.trans h
      rfl
    | none =>
      rw [wait2TransferInfo.eq_def, transfer_of_none hrec] at h
      cases h
  | cons adds wakes ih =>
    cases hrec : p.record info with
    | some r =>
      obtain ⟨p₁, hp₁, -⟩ := wait2TransferInfo_of_some hrec (adds :: wakes) late
      cases hp₁.symm.trans h
      rfl
    | none =>
      rw [wait2TransferInfo.eq_def, transfer_of_none hrec] at h
      exact ih h

end TcpAckPool

namespace ServerNetManager

theorem getTcp_toConnInfo {s s' : ServerNetManager} {info info' : TcpInfo} {tcp : UvTcp}
    {wakes : List (List TcpAckPool.Add)} {late : List TcpAckPool.Add}
    (h : s.getTcp info wakes late = (s', some tcp, info')) : info'.toConnInfo = info.toConnInfo := by
  unfold getTcp at h
  split at h
  · cases h
  split at h
  · cases h
  dsimp only at h
  split at h
  next pool info₁ hwait =>
    obtain ⟨-, -, rfl⟩ := Prod.mk.injEq .. ▸ h
    exact TcpAckPool.wait2TransferInfo_toConnInfo hwait
  next => cases h

open TcpAckPool (Add Quiet)

variable {s : ServerNetManager} {i : TcpInfo}

/-- The two halves of the 4-tuple of `i`: the handle in the pool and the record in the ack pool. -/
def Holds (s : ServerNetManager) (i : TcpInfo) (tcp : Option UvTcp) (r : Option AckRecord) : Prop :=
  (s.mPool.find? i).map (fun e => e.2.conn) = tcp.map some ∧ s.mTcpAckPool.record i = r

theorem Holds.congr {j : TcpInfo} {tcp : Option UvTcp} {r : Option AckRecord} (h : s.Holds i tcp r)
    (ht : i.tuple = j.tuple) : s.Holds j tcp r := by
  refine ⟨?_, ?_⟩
  · rw [← s.mPool.find?_same (TcpCmpFn.same_iff.2 ht)]
    exact h.1
  · rw [← TcpAckPool.record_congr ht]
    exact h.2

/-! ## One spec for each event -/

theorem holds_addInfoFromPeer {tcp : Option UvTcp} {a : Add} (h : s.Holds i tcp none)
    (hv : ¬ (a.infoFromPeer.sp = 0 ∨ a.infoFromPeer.dp = 0 ∨ a.flags &&& thSyn = 0))
    (ht : a.infoFromPeer.tuple = i.tuple) :
    (s.step (.addInfoFromPeer a)).1.Holds i tcp
      (some ⟨a.infoFromPeer.seq, a.infoFromPeer.ack, a.now + s.mTcpAckPool.expireIntervalMs⟩) :=
  ⟨h.1, TcpAckPool.record_addInfoFromPeer_of_none h.2 hv ht⟩

theorem holds_onNewConnection {r : Option AckRecord} {tcpInfo : TcpInfo} (h : s.Holds i none r)
    (tcp : UvTcp) (now : UInt64) (ht : tcpInfo.tuple = i.tuple) :
    (s.step (.onNewConnection tcp 0 tcpInfo now)).1.Holds i (some tcp) r := by
  have hnone : s.mPool.find? tcpInfo = none := by
    rw [s.mPool.find?_same (TcpCmpFn.same_iff.2 ht)]
    simpa using h.1
  refine ⟨?_, h.2⟩
  show ((s.mPool.emplace tcpInfo ⟨some tcp, now + s.poolPersistMs⟩).find? i).map _ = _
  rw [← StdMap.find?_same _ (TcpCmpFn.same_iff.2 ht), StdMap.find?_emplace_self, hnone]
  rfl

theorem getTcp_of_no_handle {r : Option AckRecord} (h : s.Holds i none r) (wakes : List (List Add))
    (late : List Add) :
    ∃ s', s.getTcp i wakes late = (s', none, i) ∧ s'.Holds i none none ∧ s'.mClosed = s.mClosed := by
  have hnone : s.mPool.find? i = none := by simpa using h.1
  refine ⟨s.removeInfo i, ?_, ⟨h.1, ?_⟩, rfl⟩
  · rw [getTcp, hnone]
  · show (s.mTcpAckPool.removeInfo i).1.record i = none
    rw [TcpAckPool.record_removeInfo, if_pos rfl]

theorem find?_of_holds {tcp : UvTcp} {r : Option AckRecord} (h : s.Holds i (some tcp) r) :
    ∃ key expireMs, s.mPool.find? i = some (key, ⟨some tcp, expireMs⟩) ∧
      (s.mPool.erase key).find? i = none := by
  obtain ⟨⟨key, conn, expireMs⟩, he, hc⟩ := Option.map_eq_some_iff.1 h.1
  obtain rfl : conn = some tcp := hc
  have hsame := (s.mPool.find?_eq_some_iff.1 he).2
  exact ⟨key, expireMs, he, StdMap.find?_erase_of_same _ hsame⟩

/-- The handle is handed out when the wait ends with a record. -/
theorem getTcp_of_transfer {tcp : UvTcp} {r : Option AckRecord} {p' : TcpAckPool} {j : TcpInfo}
    {wakes : List (List Add)} {late : List Add} (h : s.Holds i (some tcp) r)
    (hp' : s.mTcpAckPool.wait2TransferInfo i wakes late = (p', some j))
    (hrec : p'.record i = none) :
    ∃ s', s.getTcp i wakes late = (s', some tcp, j) ∧ s'.Holds i none none ∧
      s'.mClosed = s.mClosed := by
  obtain ⟨key, expireMs, hfind, herase⟩ := find?_of_holds h
  refine ⟨{ s with mPool := s.mPool.erase key, mTcpAckPool := p' }, ?_, ⟨?_, hrec⟩, rfl⟩
  · rw [getTcp, hfind]
    simp only [hp']
  · simp [herase]

theorem getTcp_of_both {tcp : UvTcp} {r : AckRecord} (h : s.Holds i (some tcp) (some r))
    (wakes : List (List Add)) (late : List Add) :
    ∃ s', s.getTcp i wakes late = (s', some tcp, { i with seq := r.seq, ack := r.ack }) ∧
      s'.Holds i none none ∧ s'.mClosed = s.mClosed := by
  obtain ⟨p', hp', hrec⟩ := TcpAckPool.wait2TransferInfo_of_some h.2 wakes late
  exact getTcp_of_transfer h hp' hrec

theorem getTcp_of_add {tcp : UvTcp} {before : List (List Add)} {pre post : List Add} {a : Add}
    (h : s.Holds i (some tcp) none) (hq : Quiet i before (pre ++ post))
    (hv : ¬ (a.infoFromPeer.sp = 0 ∨ a.infoFromPeer.dp = 0 ∨ a.flags &&& thSyn = 0))
    (ht : a.infoFromPeer.tuple = i.tuple) (wakes : List (List Add)) (late : List Add) :
    ∃ s', s.getTcp i (before ++ (pre ++ a :: post) :: wakes) late =
        (s', some tcp, { i with seq := a.infoFromPeer.seq, ack := a.infoFromPeer.ack }) ∧
      s'.Holds i none none ∧ s'.mClosed = s.mClosed := by
  obtain ⟨p', hp', hrec⟩ := TcpAckPool.wait2TransferInfo_of_add h.2 hq hv ht wakes late
  exact getTcp_of_transfer h hp' hrec

theorem getTcp_of_quiet {tcp : UvTcp} {wakes : List (List Add)} {others : List Add}
    (h : s.Holds i (some tcp) none) (hq : Quiet i wakes others) (late : List Add) :
    ∃ s', s.getTcp i wakes late = (s', none, i) ∧ s'.Holds i none none ∧
      s'.mClosed = tcp :: s.mClosed := by
  obtain ⟨key, expireMs, hfind, herase⟩ := find?_of_holds h
  obtain ⟨p', hp'⟩ := TcpAckPool.wait2TransferInfo_of_quiet h.2 hq late
  refine ⟨(closeTcp { s with mPool := s.mPool.erase key, mTcpAckPool := p' } tcp).removeInfo i,
    ?_, ⟨?_, ?_⟩, rfl⟩
  · rw [getTcp, hfind]
    simp only [hp']
  · show ((s.mPool.erase key).find? i).map _ = _
    rw [herase]
    rfl
  · show (p'.removeInfo i).1.record i = none
    rw [TcpAckPool.record_removeInfo, if_pos rfl]

/-! ## Runs -/

/-- A call of `GetTcp` for the 4-tuple of `i` during whose wait no handshake of it arrives. -/
def QuietGet (i : TcpInfo) : Event → Prop
  | .getTcp info wakes late => info.tuple = i.tuple ∧ Quiet info wakes late
  | _ => False

/-- The answer of a `GetTcp` that returns null and leaves the caller's info alone. -/
def nullAnswer : Event → Option (Option UvTcp × TcpInfo)
  | .getTcp info _ _ => some (none, info)
  | _ => none

/-- The handle of an accept. -/
def acceptedTcp : Event → List UvTcp
  | .onNewConnection tcp _ _ _ => [tcp]
  | _ => []

theorem run_append (s : ServerNetManager) (es es' : List Event) :
    s.run (es ++ es') = (((s.run es).1.run es').1, (s.run es).2 ++ ((s.run es).1.run es').2) := by
  induction es generalizing s with
  | nil => rfl
  | cons e es ih => simp [run, ih, List.append_assoc]

theorem step_quietGet {tcp : Option UvTcp} {r : Option AckRecord} {e : Event}
    (h : s.Holds i tcp r) (hhalf : tcp = none ∨ r = none) (he : QuietGet i e) :
    (s.step e).2 = nullAnswer e ∧ (s.step e).1.Holds i none none ∧
      (s.step e).1.mClosed = tcp.toList ++ s.mClosed := by
  cases e with
  | addInfoFromPeer a => exact he.elim
  | onNewConnection tcp nret tcpInfo now => exact he.elim
  | getTcp info wakes late =>
    obtain ⟨ht, hq⟩ := he
    have hs' : ∃ s', s.getTcp info wakes late = (s', none, info) ∧ s'.Holds info none none ∧
        s'.mClosed = tcp.toList ++ s.mClosed := by
      cases tcp with
      | none => exact getTcp_of_no_handle (h.congr ht.symm) wakes late
      | some tcp =>
        obtain rfl : r = none := hhalf.resolve_left (by simp)
        exact getTcp_of_quiet (h.congr ht.symm) hq late
    obtain ⟨s', hget, hh, hc⟩ := hs'
    simp only [step, hget, nullAnswer]
    exact ⟨trivial, hh.congr ht, hc⟩

theorem run_quietGets {tcp : Option UvTcp} {r : Option AckRecord} {gets : List Event}
    (h : s.Holds i tcp r) (hhalf : tcp = none ∨ r = none) (hg : ∀ e ∈ gets, QuietGet i e) :
    (s.run gets).2 = gets.filterMap nullAnswer ∧ (gets = [] → (s.run gets).1 = s) ∧
      (gets ≠ [] → (s.run gets).1.Holds i none none ∧
        (s.run gets).1.mClosed = tcp.toList ++ s.mClosed) := by
  induction gets generalizing s tcp r with
  | nil =>
    refine ⟨rfl, fun _ => rfl, ?_⟩
    intro hne
    exact absurd rfl hne
  | cons e gets ih =>
    have hrest : ∀ e' ∈ gets, QuietGet i e' := by
      intro e' he'
      exact hg e' (List.mem_cons_of_mem _ he')
    obtain ⟨hans, hh, hc⟩ := step_quietGet h hhalf (hg e List.mem_cons_self)
    obtain ⟨hans', hnil, hne⟩ := ih hh (.inl rfl) hrest
    refine ⟨?_, ?_, ?_⟩
    · rw [run, hans, hans', List.filterMap_cons]
      cases nullAnswer e <;> rfl
    · intro hnil'
      cases hnil'
    · intro _
      show ((s.step e).1.run gets).1.Holds i none none ∧ _ = _
      by_cases hgets : gets = []
      · rw [hgets]
        exact ⟨hh, hc⟩
      · obtain ⟨hh', hc'⟩ := hne hgets
        exact ⟨hh', hc'.trans hc⟩

theorem run_quietGets_of_none {gets : List Event} (h : s.Holds i none none)
    (hg : ∀ e ∈ gets, QuietGet i e) :
    (s.run gets).2 = gets.filterMap nullAnswer ∧ (s.run gets).1.Holds i none none ∧
      (s.run gets).1.mClosed = s.mClosed := by
  obtain ⟨hans, hnil, hne⟩ := run_quietGets h (.inl rfl) hg
  refine ⟨hans, ?_⟩
  by_cases hgets : gets = []
  · rw [hnil hgets]
    exact ⟨h, rfl⟩
  · exact hne hgets

section BothHalves

variable {t : UvTcp} {tcpInfo : TcpInfo} {now : UInt64} {a : Add} {e₁ e₂ : Event}
  (hv : ¬ (a.infoFromPeer.sp = 0 ∨ a.infoFromPeer.dp = 0 ∨ a.flags &&& thSyn = 0))
  (hta : a.infoFromPeer.tuple = i.tuple) (htt : tcpInfo.tuple = i.tuple)
  (he : (e₁ = .addInfoFromPeer a ∧ e₂ = .onNewConnection t 0 tcpInfo now) ∨
    (e₁ = .onNewConnection t 0 tcpInfo now ∧ e₂ = .addInfoFromPeer a))

include hv hta htt he

theorem step_first (h : s.Holds i none none) : ∃ tcp r, (s.step e₁).1.Holds i tcp r ∧
    (tcp = none ∨ r = none) ∧ tcp.toList = acceptedTcp e₁ ∧ (s.step e₁).2 = none ∧
    (s.step e₁).1.mClosed = s.mClosed := by
  rcases he with ⟨rfl, -⟩ | ⟨rfl, -⟩
  · exact ⟨none, _, holds_addInfoFromPeer h hv hta, .inl rfl, rfl, rfl, rfl⟩
  · exact ⟨some t, none, holds_onNewConnection h t now htt, .inr rfl, rfl, rfl, rfl⟩

theorem step_second (h : s.Holds i none none) :
    ∃ r, ((s.step e₁).1.step e₂).1.Holds i (some t) (some r) ∧ r.seq = a.infoFromPeer.seq ∧
      r.ack = a.infoFromPeer.ack := by
  rcases he with ⟨rfl, rfl⟩ | ⟨rfl, rfl⟩
  · have hrec := holds_addInfoFromPeer h hv hta
    exact ⟨_, holds_onNewConnection hrec t now htt, rfl, rfl⟩
  · have htcp := holds_onNewConnection h t now htt
    exact ⟨_, holds_addInfoFromPeer htcp hv hta, rfl, rfl⟩

end BothHalves

/-- Server-side establishment of one 4-tuple. The captured handshake and the accept come in either
    order, with calls of `GetTcp` before (`gets₀`) and between (`gets₁`) them. All of these return
    null. Without a call in between, the first one after both returns the handle and the recorded
    `seq` and `ack`. A call in between discards the half it finds: the record is removed, the handle
    closed. A call after the accept in whose wait the handshake arrives returns the handle, unless
    the handshake misses the last pass of the loop: then both halves are discarded. -/
theorem getTcp_of_order (s : ServerNetManager) (i : TcpInfo) (h : s.Holds i none none) (t : UvTcp)
    (tcpInfo : TcpInfo) (now : UInt64) (a : Add)
    (hv : ¬ (a.infoFromPeer.sp = 0 ∨ a.infoFromPeer.dp = 0 ∨ a.flags &&& thSyn = 0))
    (hta : a.infoFromPeer.tuple = i.tuple) (htt : tcpInfo.tuple = i.tuple) (e₁ e₂ : Event)
    (he : (e₁ = .addInfoFromPeer a ∧ e₂ = .onNewConnection t 0 tcpInfo now) ∨
      (e₁ = .onNewConnection t 0 tcpInfo now ∧ e₂ = .addInfoFromPeer a))
    (gets₀ gets₁ : List Event) (hg₀ : ∀ e ∈ gets₀, QuietGet i e) (hg₁ : ∀ e ∈ gets₁, QuietGet i e)
    (info : TcpInfo) (hi : info.tuple = i.tuple) (wakes : List (List Add)) (late : List Add) :
    (s.run (gets₀ ++ e₁ :: gets₁)).2 = (gets₀ ++ gets₁).filterMap nullAnswer ∧
    (gets₁ = [] → ((s.run (gets₀ ++ [e₁, e₂])).1.getTcp info wakes late).2 =
      (some t, { info with seq := a.infoFromPeer.seq, ack := a.infoFromPeer.ack })) ∧
    (gets₁ ≠ [] → (s.run (gets₀ ++ e₁ :: gets₁)).1.Holds i none none ∧
      (s.run (gets₀ ++ e₁ :: gets₁)).1.mClosed = acceptedTcp e₁ ++ s.mClosed) ∧
    (∀ before pre post, Quiet info before (pre ++ post) → acceptedTcp e₁ = [t] →
      ((s.run (gets₀ ++ [e₁])).1.getTcp info (before ++ (pre ++ a :: post) :: wakes) late).2 =
        (some t, { info with seq := a.infoFromPeer.seq, ack := a.infoFromPeer.ack }) ∧
      ∃ s', (s.run (gets₀ ++ [e₁])).1.getTcp info before (pre ++ a :: post) = (s', none, info) ∧
        s'.Holds i none none ∧ s'.mClosed = t :: s.mClosed) := by
  obtain ⟨hans₀, hh₀, hc₀⟩ := run_quietGets_of_none h hg₀
  set s₀ := (s.run gets₀).1 with hs₀
  obtain ⟨tcp, r, hh₁, hhalf, htcp, hans₁, hc₁⟩ := step_first hv hta htt he hh₀
  obtain ⟨hansg, hnil, hne⟩ := run_quietGets hh₁ hhalf hg₁
  refine ⟨?_, ?_, ?_, ?_⟩
  · rw [run_append, ← hs₀, hans₀, run, hans₁, hansg, List.filterMap_append]
    rfl
  · intro _
    obtain ⟨r, hh₂, hseq, hack⟩ := step_second hv hta htt he hh₀
    obtain ⟨s', hget, -⟩ := getTcp_of_both (hh₂.congr hi.symm) wakes late
    rw [run_append, ← hs₀]
    show (((s₀.step e₁).1.step e₂).1.getTcp info wakes late).2 = _
    rw [hget, hseq, hack]
  · intro hgets
    obtain ⟨hh₂, hc₂⟩ := hne hgets
    rw [run_append, ← hs₀]
    refine ⟨hh₂, ?_⟩
    show ((s₀.step e₁).1.run gets₁).1.mClosed = _
    rw [hc₂, hc₁, hc₀, htcp]
  · intro before pre post hq hacc
    rcases he with ⟨rfl, -⟩ | ⟨rfl, -⟩
    · simp [acceptedTcp] at hacc
    · have hh := (holds_onNewConnection hh₀ t now htt).congr hi.symm
      rw [run_append, ← hs₀]
      constructor
      · obtain ⟨s', hget, -⟩ := getTcp_of_add hh hq hv (hta.trans hi.symm) wakes late
        show ((s₀.step _).1.getTcp info (before ++ (pre ++ a :: post) :: wakes) late).2 = _
        rw [hget]
      · obtain ⟨s', hget, hh', hc'⟩ := getTcp_of_quiet hh hq (pre ++ a :: post)
        refine ⟨s', hget, hh'.congr hi, ?_⟩
        rw [hc', hc₁, hc₀]

/-- A server without connections. -/
def fresh : ServerNetManager := { mTcpAckPool := { expireIntervalMs := 1000 } }

/-- A connection from port 4 to port 2. -/
def conn24 : TcpInfo := { src := 1, sp := 2, dst := 3, dp := 4 }

/-- Its captured handshake. -/
def syn24 : Add := ⟨{ conn24 with seq := 7, ack := 8 }, thSyn ||| thAck, 0⟩

/-- A data packet before everything, then the handshake, the accept and the next data packet. -/
theorem getTcp_of_order_early :
    ((fresh.run ([.getTcp conn24 [] []] ++
      [.addInfoFromPeer syn24, .onNewConnection 5 0 conn24 0])).1.getTcp conn24 [] []).2 =
      (some 5, { conn24 with seq := 7, ack := 8 }) :=
  (getTcp_of_order fresh conn24 ⟨rfl, rfl⟩ 5 conn24 0 syn24 (by decide) rfl rfl _ _ (.inl ⟨rfl, rfl⟩)
    [.getTcp conn24 [] []] [] (by simp [QuietGet, Quiet]) (by simp) conn24 rfl [] []).2.1 rfl

/-- A data packet between the handshake and the accept: the next one, although it comes after both,
    gets nothing. -/
theorem getTcp_between :
    (fresh.run [.addInfoFromPeer syn24, .getTcp conn24 [] [], .onNewConnection 5 0 conn24 0,
      .getTcp conn24 [] []]).2 = [(none, conn24), (none, conn24)] := by
  decide

end ServerNetManager

/-! ## The handles -/

namespace ServerNetManager

variable {s : ServerNetManager} {t : UvTcp} {e e' : TcpInfo × ConnHelper}

/-- The handles of some entries of the pool. -/
def handles (l : List (TcpInfo × ConnHelper)) : List UvTcp := l.filterMap fun e => e.2.conn

/-- The handles in the pool. -/
def pooled (s : ServerNetManager) : List UvTcp := handles s.mPool.entries

/-- How often the handle is in the pool or has been closed. -/
def kept (s : ServerNetManager) (t : UvTcp) : Nat := s.pooled.count t + s.mClosed.count t

theorem count_handles_cons (l : List (TcpInfo × ConnHelper)) :
    (handles (e :: l)).count t = (if e.2.conn = some t then 1 else 0) + (handles l).count t := by
  unfold handles
  cases hc : e.2.conn with
  | none => simp [hc]
  | some tcp => simp [hc, List.count_cons, Nat.add_comm]

theorem count_handles_perm {l l' : List (TcpInfo × ConnHelper)} (h : l.Perm l') :
    (handles l).count t = (handles l').count t :=
  (h.filterMap _).count_eq t

theorem count_pooled_of_find? {k : TcpInfo} (h : s.mPool.find? k = some e) :
    s.pooled.count t =
      (if e.2.conn = some t then 1 else 0) + (handles (s.mPool.erase k).entries).count t := by
  rw [pooled, count_handles_perm (StdMap.entries_erase_perm h), count_handles_cons]

/-! A loop over the pool that leaves the entries it has not come to as they are. -/

theorem kept_foldl {f : ServerNetManager → TcpInfo × ConnHelper → ServerNetManager}
    (hothers : ∀ s e e', e' ∈ s.mPool.entries → ¬ StdMap.Same TcpCmpFn.Lt e'.1 e.1 →
      e' ∈ (f s e).mPool.entries)
    (hkept : ∀ s e, e ∈ s.mPool.entries → (f s e).kept t = s.kept t) :
    (s.mPool.entries.foldl f s).kept t = s.kept t := by
  have hloop : ∀ (l : List (TcpInfo × ConnHelper)) (s : ServerNetManager),
      l.Pairwise (fun a b => TcpCmpFn.Lt a.1 b.1) → (∀ e ∈ l, e ∈ s.mPool.entries) →
      (l.foldl f s).kept t = s.kept t := by
    intro l
    induction l with
    | nil =>
      intro s _ _
      rfl
    | cons e l ih =>
      intro s hsorted hmem
      obtain ⟨he, hl⟩ := List.pairwise_cons.mp hsorted
      have hnext : ∀ e' ∈ l, e' ∈ (f s e).mPool.entries := by
        intro e' he'
        refine hothers s e e' (hmem e' (List.mem_cons_of_mem _ he')) ?_
        intro hsame
        exact hsame.2 (he e' he')
      rw [List.foldl_cons, ih (f s e) hl hnext, hkept s e (hmem e List.mem_cons_self)]
  exact hloop _ s s.mPool.sorted fun e he => he

theorem kept_onFlush (timestamp : UInt64) : (s.onFlush timestamp).kept t = s.kept t := by
  apply kept_foldl
  · intro s e e' he' hne
    have hmem : e' ∈ (s.mPool.erase e.1).entries := StdMap.mem_erase.mpr ⟨he', hne⟩
    unfold flushEntry
    split
    · split
      · exact hmem
      · exact he'
    · exact hmem
  · intro s e he
    have hcount := count_pooled_of_find? (t := t) (StdMap.mem_iff_find?.mp he)
    unfold flushEntry
    split
    · next tcp hconn =>
      split
      · show (handles (s.mPool.erase e.1).entries).count t +
          List.count t (tcp :: s.mClosed) = _
        rw [kept, hcount, hconn, List.count_cons]
        simp only [beq_iff_eq, Option.some.injEq]
        omega
      · rfl
    · next hconn =>
      show (handles (s.mPool.erase e.1).entries).count t +
          List.count t s.mClosed = _
      rw [kept, hcount, hconn]
      simp

theorem kept_close : s.close.kept t = s.kept t := by
  apply kept_foldl
  · intro s e e' he' hne
    unfold closeEntry
    split
    · exact StdMap.mem_assign.mpr (.inl ⟨he', hne⟩)
    · exact he'
  · intro s e he
    unfold closeEntry
    split
    · next tcp hconn =>
      have hfind := StdMap.mem_iff_find?.mp he
      have hcount := count_pooled_of_find? (t := t) hfind
      show (handles (s.mPool.assign e.1 { e.2 with conn := none }).entries).count t +
          List.count t (tcp :: s.mClosed) = _
      rw [count_handles_perm (StdMap.entries_assign_perm hfind _), count_handles_cons, kept, hcount,
        hconn, List.count_cons]
      simp only [beq_iff_eq, Option.some.injEq, reduceCtorEq, if_false]
      omega
    · rfl

theorem kept_getTcp (info : TcpInfo) (wakes : List (List TcpAckPool.Add))
    (late : List TcpAckPool.Add) :
    (s.getTcp info wakes late).1.kept t + (s.getTcp info wakes late).2.1.toList.count t =
      s.kept t := by
  unfold getTcp
  split
  · rfl
  · next key helper hfind =>
    split
    · rfl
    · next tcp hconn =>
      have hkey : s.mPool.find? key = some (key, helper) :=
        StdMap.mem_iff_find?.mp (s.mPool.find?_eq_some_iff.mp hfind).1
      have hcount := count_pooled_of_find? (t := t) hkey
      rw [hconn] at hcount
      dsimp only
      split
      · show (handles (s.mPool.erase key).entries).count t +
          List.count t s.mClosed + List.count t [tcp] = _
        rw [kept, hcount, List.count_singleton]
        simp only [beq_iff_eq, Option.some.injEq]
        omega
      · show (handles (s.mPool.erase key).entries).count t +
          List.count t (tcp :: s.mClosed) + List.count t [] = _
        rw [kept, hcount, List.count_cons, List.count_nil]
        simp only [beq_iff_eq, Option.some.injEq]
        omega

theorem kept_onNewConnection {tcp : UvTcp} {nret : Int} {info : TcpInfo} {now : UInt64} :
    (s.onNewConnection tcp nret info now).kept t = s.kept t +
      if nret = 0 ∧ s.mPool.find? info = none ∧ tcp = t then 1 else 0 := by
  unfold onNewConnection add2Pool
  by_cases hn : nret = 0
  · rw [if_pos hn]
    cases hfind : s.mPool.find? info with
    | none =>
      show (handles (s.mPool.emplace info _).entries).count t + List.count t s.mClosed = _
      rw [count_handles_perm (StdMap.entries_emplace_perm hfind _), count_handles_cons, kept, pooled]
      simp only [Option.some.injEq, hn, true_and]
      omega
    | some e =>
      rw [StdMap.emplace_of_find? hfind]
      simp
  · rw [if_neg hn]
    simp only [hn, false_and, if_false]
    rfl

end ServerNetManager

namespace HandlePool

open TransSys CMem

/-- Every handle `OnNewConnection` was called with is in the pool, has been handed out by one
    `GetTcp` or has been closed once, and only one of these; no other handle is anywhere. -/
def Placed (s : HandlePool) : Prop :=
  ∀ t, s.mgr.pooled.count t + s.handedOut.count t + s.mgr.mClosed.count t =
    if t < s.accepted then 1 else 0

/-- Every handle has its place after the call, and a handle with readable addresses is what the pool
    holds for them. -/
def Keeps (s : HandlePool) (c : Call) (s' : HandlePool) : Prop :=
  s'.Placed ∧ ∀ nret tcpInfo now, c = .newConn nret tcpInfo now → nret = 0 →
    (s'.mgr.mPool.get? tcpInfo).bind ConnHelper.conn = some s.accepted

/-- A new handle has readable addresses, and the pool holds none for them yet. -/
def FreshTuple (s : HandlePool) : Call → Prop
  | .newConn nret tcpInfo _ => s.closed = false → nret = 0 ∧ s.mgr.mPool.find? tcpInfo = none
  | _ => True

variable {s s' : HandlePool}

theorem placed_iff : s.Placed ↔
    ∀ t, s.mgr.kept t + s.handedOut.count t = if t < s.accepted then 1 else 0 := by
  refine forall_congr' fun t => ?_
  rw [ServerNetManager.kept, Nat.add_right_comm]

theorem step_newConn {nret : Int} {tcpInfo : TcpInfo} {now : UInt64}
    (h : s.step (.newConn nret tcpInfo now) = .ok s') :
    s.closed = false ∧ s' = { s with mgr := s.mgr.onNewConnection s.accepted nret tcpInfo now,
                                     accepted := s.accepted + 1 } := by
  by_cases hc : s.closed = true
  · rw [step, if_pos hc] at h
    cases h
  · rw [step, if_neg hc] at h
    cases h
    exact ⟨Bool.eq_false_of_not_eq_true hc, rfl⟩

/-- No other call moves a handle anywhere but from the pool to one of the other places. -/
theorem placed_step {c : Call} (hp : s.Placed) (hc : ∀ nret i now, c ≠ .newConn nret i now)
    (h : s.step c = .ok s') : s'.Placed := by
  cases c with
  | addInfoFromPeer a =>
    cases h
    exact hp
  | newConn nret i now => exact absurd rfl (hc nret i now)
  | getTcp info wakes late =>
    by_cases hclosed : s.closed = true
    · rw [step, getTcp, if_pos hclosed] at h
      split at h
      · cases h
        exact hp
      · cases h
    · rw [step, getTcp, if_neg hclosed] at h
      obtain rfl := Except.ok.inj h
      rw [placed_iff] at hp ⊢
      intro t
      show (s.mgr.getTcp info wakes late).1.kept t +
        ((s.mgr.getTcp info wakes late).2.1.toList ++ s.handedOut).count t = _
      rw [← hp t, ← s.mgr.kept_getTcp info wakes late, List.count_append, Nat.add_assoc]
  | onFlush timestamp =>
    cases h
    rw [placed_iff] at hp ⊢
    intro t
    rw [← hp t, s.mgr.kept_onFlush timestamp]
  | close =>
    cases h
    rw [placed_iff] at hp ⊢
    intro t
    rw [← hp t, s.mgr.kept_close]

theorem placed_newConn_iff {nret : Int} {tcpInfo : TcpInfo} {now : UInt64} (hp : s.Placed)
    (h : s.step (.newConn nret tcpInfo now) = .ok s') :
    s'.Placed ↔ nret = 0 ∧ s.mgr.mPool.find? tcpInfo = none := by
  obtain ⟨-, rfl⟩ := step_newConn h
  rw [placed_iff] at hp ⊢
  simp only [s.mgr.kept_onNewConnection]
  constructor
  · intro hp'
    have hnew := hp' s.accepted
    have hold := hp s.accepted
    rw [if_pos (Nat.lt_succ_self _)] at hnew
    rw [if_neg (lt_irrefl _)] at hold
    by_contra hcond
    rw [if_neg fun hc => hcond ⟨hc.1, hc.2.1⟩] at hnew
    omega
  · rintro ⟨hn, hfind⟩ t
    have hold := hp t
    rcases lt_trichotomy t s.accepted with hlt | rfl | hgt
    · rw [if_pos hlt] at hold
      rw [if_neg fun hc => hlt.ne hc.2.2.symm, if_pos (Nat.lt_succ_of_lt hlt)]
      exact hold
    · rw [if_neg (lt_irrefl _)] at hold
      rw [if_pos ⟨hn, hfind, rfl⟩, if_pos (Nat.lt_succ_self _)]
      omega
    · rw [if_neg hgt.not_gt] at hold
      rw [if_neg fun hc => hgt.ne hc.2.2, if_neg (Nat.not_lt_of_le hgt)]
      exact hold

/-- In every run of the calls each handle has its place at every moment and is found under its
    addresses when it is new, exactly when every `OnNewConnection` gets a handle with readable
    addresses that are not in the pool yet. -/
theorem handles_placed_iff (pool : TcpAckPool) (calls : List Call) :
    Always step Keeps { mgr := { mTcpAckPool := pool } } calls ↔
      EachStep step FreshTuple { mgr := { mTcpAckPool := pool } } calls := by
  refine always_iff_eachStep (J := Placed) ?_ ?_ calls _ ?_
  · intro s c s' _ _ hk
    exact hk.1
  · intro s c hp
    by_cases hc : ∃ nret i now, c = .newConn nret i now
    · obtain ⟨nret, i, now, rfl⟩ := hc
      constructor
      · intro h hclosed
        obtain ⟨s', hs'⟩ : ∃ s', s.step (.newConn nret i now) = .ok s' := by
          rw [step, if_neg (by simp [hclosed])]
          exact ⟨_, rfl⟩
        exact (placed_newConn_iff hp hs').mp (h s' hs').1
      · intro hfresh s' hs'
        obtain ⟨hclosed, heq⟩ := step_newConn hs'
        obtain ⟨hn, hfind⟩ := hfresh hclosed
        refine ⟨(placed_newConn_iff hp hs').mpr ⟨hn, hfind⟩, ?_⟩
        intro nret' i' now' hcall _
        cases hcall
        subst heq
        simp [ServerNetManager.onNewConnection, ServerNetManager.add2Pool, hn, StdMap.get?,
          StdMap.find?_emplace_self, hfind]
    · have hc' : ∀ nret i now, c ≠ .newConn nret i now := by
        intro nret i now heq
        exact hc ⟨nret, i, now, heq⟩
      have hfresh : s.FreshTuple c := by
        cases c <;> first | trivial | exact absurd rfl (hc' _ _ _)
      refine iff_of_true ?_ hfresh
      intro s' hs'
      exact ⟨placed_step hp hc' hs', fun nret i now heq => absurd heq (hc' nret i now)⟩
  · intro t
    simp [ServerNetManager.pooled, ServerNetManager.handles, StdMap.empty]

/-- Two connections with one 4-tuple, the second accepted while the first is still in the pool. -/
theorem second_handle_lost :
    ¬ Always step Keeps { mgr := { mTcpAckPool := { expireIntervalMs := 30000 } } }
      [.newConn 0 { src := 1, sp := 80, dst := 2, dp := 40000 } 0,
       .newConn 0 { src := 1, sp := 80, dst := 2, dp := 40000 } 5] := by
  intro h
  obtain ⟨-, h⟩ := h _ rfl
  obtain ⟨⟨hp, -⟩, -⟩ := h _ rfl
  exact absurd (hp 1) (by decide)

end HandlePool

end Rsock
