import Rsock.Proofs.NetGroupLifeProofs

/-!
# Proofs: the loop of `INetGroup::doSend`

The loop picks conns at random until one takes the packet. A dead conn leaves the tables when it is
picked, so dead conns alone cannot keep the loop busy; an alive conn that must not be used, because
it is the one a reset is about, stays and is picked again. When all that is left are such conns the
loop has no end (`doSendLoop_of_not_usable`), and only then (`doSend_right_iff`).
-/

namespace Rsock

open CMem

namespace INetGroup

variable {g g' : INetGroup} {h h' : Heap NetConn} {o : OutCall} {p : ConnPtr} {c : NetConn}

/-- The conn may take a packet when `key` is the key of the conn to reset. -/
def Usable (h : Heap NetConn) (key : IntKeyType) (p : ConnPtr) : Prop :=
  ∃ c, h.get? p = some c ∧ c.alive = true ∧ ¬ (key ≠ 0 ∧ c.intKey = key)

/-- The conn is dead. -/
def Dead (h : Heap NetConn) (p : ConnPtr) : Prop := ∃ c, h.get? p = some c ∧ c.alive = false

/-- The conns the loop of `INetGroup::doSend` picks, one for each pass. -/
def doSendLoopPicked (call : SendCall) : List Nat → INetGroup → Heap NetConn → List ConnPtr
  | [], _, _ => []
  | pick :: picks, g, h =>
    match g.mConns.entries[pick % g.mConns.size]? with
    | none => []
    | some (_, p) =>
      match doSendPass call pick g h with
      | .ok (g, h, none) => p :: doSendLoopPicked call picks g h
      | _ => [p]

theorem doSendLoopPicked_of_empty (call : SendCall) (picks : List Nat) (hsize : g.mConns.size = 0) :
    doSendLoopPicked call picks g h = [] := by
  cases picks with
  | nil => rfl
  | cons pick picks => rw [doSendLoopPicked, picked_of_empty pick hsize]

theorem dead_iff_of_get? (hc : h.get? p = some c) : Dead h p ↔ c.alive = false := by
  constructor
  · rintro ⟨c', hc', hdead⟩
    rwa [Option.some.inj (hc.symm.trans hc')]
  · intro hdead
    exact ⟨c, hc, hdead⟩

theorem usable_iff_of_get? (hc : h.get? p = some c) (key : IntKeyType) :
    Usable h key p ↔ c.alive = true ∧ ¬ (key ≠ 0 ∧ c.intKey = key) := by
  constructor
  · rintro ⟨c', hc', huse⟩
    rwa [Option.some.inj (hc.symm.trans hc')]
  · intro huse
    exact ⟨c, hc, huse⟩

/-- A dead conn cannot be used. -/
theorem not_usable_of_dead {key : IntKeyType} (hd : Dead h p) : ¬ Usable h key p := by
  obtain ⟨c, hc, hdead⟩ := hd
  rw [usable_iff_of_get? hc, hdead]
  simp

/-! ## One pass -/

/-- The conn a pass has picked, and the three things that may happen to it. -/
inductive Pass (o : OutCall) (g : INetGroup) (h : Heap NetConn) (p : ConnPtr) :
    INetGroup → Heap NetConn → Option Int → Prop where
  | send {c c' : NetConn} {n : Int} : h.get? p = some c → Usable h o.keyOfConnToReset p →
      c.output o.hd o.payload o.toSendCall.below = .ok (c', n, ()) →
      Pass o g h p g (h.store p c') (some n)
  | again : ¬ Usable h o.keyOfConnToReset p → ¬ Dead h p → Pass o g h p g h none
  | remove {g' : INetGroup} : Dead h p → g.childConnErrCb h p = .ok g' → Pass o g h p g' h none

/-- A pass sends, goes on, or takes a dead conn out. -/
theorem doSendPass_spec (o : OutCall) (pick : Nat) (hI : Inv Any g h) (hsize : g.mConns.size ≠ 0) :
    ∃ k p g' h' r, g.mConns.entries[pick % g.mConns.size]? = some (k, p) ∧
      doSendPass o.toSendCall pick g h = .ok (g', h', r) ∧ Pass o g h p g' h' r := by
  obtain ⟨g', h', r, hpass⟩ := doSendPass_ok o pick hI hsize
  obtain ⟨k, p, c, hk, hc, hcases⟩ := doSendPass_cases hpass
  refine ⟨k, p, g', h', r, hk, hpass, ?_⟩
  rcases hcases with ⟨halive, hreset, rfl, rfl, rfl⟩ | ⟨halive, hreset, c', n, hout, rfl, rfl, rfl⟩ |
    ⟨hdead, hg', rfl, rfl⟩
  · refine .again ?_ ?_
    · rw [usable_iff_of_get? hc]
      exact fun huse => huse.2 hreset
    · rw [dead_iff_of_get? hc, halive]
      decide
  · exact .send hc ((usable_iff_of_get? hc _).mpr ⟨halive, hreset⟩) hout
  · exact .remove ((dead_iff_of_get? hc).mpr hdead) hg'

/-- A picked dead conn leaves the tables for the queue of the handler; the other conns stay. -/
theorem mem_childConnErrCb (hI : Inv Any g h) {k : String} (hk : (k, p) ∈ g.mConns.entries)
    (hr : g.childConnErrCb h p = .ok g') :
    (∀ e, e ∈ g'.mConns.entries ↔ e ∈ g.mConns.entries ∧ e.2 ≠ p) ∧
      g'.mConns.size + 1 = g.mConns.size ∧
      ∀ q, q ∈ g'.mHandler ↔ q ∈ g.mHandler ∨ q = p := by
  obtain ⟨c, hc, rfl⟩ := childConnErrCb_cases hr
  have hkey : c.key = k := by
    obtain ⟨c', hc', hk'⟩ := hI.exists_of_mem hk
    rwa [Option.some.inj (hc.symm.trans hc')]
  have hfind : g.mConns.find? c.key = some (k, p) := by
    rw [hkey]
    exact StdMap.mem_iff_find?.mp hk
  refine ⟨?_, ?_, ?_⟩
  · intro e
    rw [StdMap.mem_erase]
    refine and_congr_right fun he => not_congr ?_
    constructor
    · intro hs
      have heq : e = (k, p) := g.mConns.eq_of_same he hk (by rwa [hkey] at hs)
      rw [heq]
    · intro he2
      have heq : e = (k, p) := by
        have hnd := hI.nodup_ptrs
        rw [List.nodup_map_iff_inj_on g.mConns.nodup_entries] at hnd
        exact hnd e he (k, p) hk he2
      rw [heq, hkey]
      exact StdMap.same_refl k
  · have hlen := (StdMap.entries_erase_perm hfind).length_eq
    simpa [StdMap.size] using hlen.symm
  · intro q
    rw [List.mem_append, List.mem_singleton]
    constructor
    · rintro (hq | hq)
      · exact .inl (List.mem_of_mem_erase hq)
      · exact .inr hq
    · rintro (hq | hq)
      · by_cases hqp : q = p
        · exact .inr hqp
        · exact .inl ((List.mem_erase_of_ne hqp).mpr hq)
      · exact .inr hq

/-! ## The loop -/

/-- Where the loop is after the picks: `ps` are the conns it has picked. -/
structure LoopEnd (o : OutCall) (picks : List Nat) (g : INetGroup) (h : Heap NetConn)
    (ps : List ConnPtr) (g' : INetGroup) (h' : Heap NetConn) (r : Option Int) : Prop where
  inv : Inv Any g' h'
  conns : ∀ e, e ∈ g'.mConns.entries ↔ e ∈ g.mConns.entries ∧ ¬ (e.2 ∈ ps ∧ Dead h e.2)
  handler : ∀ p, p ∈ g'.mHandler ↔ p ∈ g.mHandler ∨ p ∈ ps ∧ Dead h p
  picked : ∀ p ∈ ps, p ∈ g.mConns.entries.map Prod.snd
  result :
    (∃ qs p c c' n, ps = qs ++ [p] ∧ (∀ q ∈ qs, ¬ Usable h o.keyOfConnToReset q) ∧
      Usable h o.keyOfConnToReset p ∧ h.get? p = some c ∧
      c.output o.hd o.payload o.toSendCall.below = .ok (c', n, ()) ∧ h' = h.store p c' ∧
      r = some n ∧ doSendLoopConn o.toSendCall picks g h = some p) ∨
    ((∀ p ∈ ps, ¬ Usable h o.keyOfConnToReset p) ∧ h' = h ∧
      doSendLoopConn o.toSendCall picks g h = none ∧
      (r = none ∨ r = some errNoConn ∧ g'.mConns.size = 0))

/-- A pass that does not send, and what the loop does after it. -/
theorem LoopEnd.cons {pick : Nat} {picks : List Nat} {ps : List ConnPtr} {k : String}
    {g₁ : INetGroup} {r : Option Int} (hk : (k, p) ∈ g.mConns.entries)
    (hpass : doSendPass o.toSendCall pick g h = .ok (g₁, h, none))
    (hnot : ¬ Usable h o.keyOfConnToReset p)
    (hconns : ∀ e, e ∈ g₁.mConns.entries ↔ e ∈ g.mConns.entries ∧ ¬ (e.2 = p ∧ Dead h e.2))
    (hhandler : ∀ q, q ∈ g₁.mHandler ↔ q ∈ g.mHandler ∨ q = p ∧ Dead h q)
    (hend : LoopEnd o picks g₁ h ps g' h' r) :
    LoopEnd o (pick :: picks) g h (p :: ps) g' h' r := by
  have hconn : doSendLoopConn o.toSendCall (pick :: picks) g h =
      doSendLoopConn o.toSendCall picks g₁ h := by
    rw [doSendLoopConn, hpass]
  refine ⟨hend.inv, ?_, ?_, ?_, ?_⟩
  · intro e
    rw [hend.conns, hconns, List.mem_cons]
    tauto
  · intro q
    rw [hend.handler, hhandler, List.mem_cons]
    tauto
  · intro q hq
    rcases List.mem_cons.mp hq with rfl | hq
    · exact List.mem_map_of_mem hk
    · obtain ⟨e, he, rfl⟩ := List.mem_map.mp (hend.picked q hq)
      exact List.mem_map_of_mem ((hconns e).mp he).1
  · rw [hconn]
    rcases hend.result with ⟨qs, q, c, c', n, rfl, hqs, hrest⟩ | ⟨hps, hrest⟩
    · refine .inl ⟨p :: qs, q, c, c', n, rfl, ?_, hrest⟩
      intro q' hq'
      rcases List.mem_cons.mp hq' with rfl | hq'
      · exact hnot
      · exact hqs q' hq'
    · refine .inr ⟨?_, hrest⟩
      intro q' hq'
      rcases List.mem_cons.mp hq' with rfl | hq'
      · exact hnot
      · exact hps q' hq'

/-- The loop ends without having sent. -/
theorem LoopEnd.stop (o : OutCall) {picks : List Nat} {r : Option Int} (hI : Inv Any g h)
    (hconn : doSendLoopConn o.toSendCall picks g h = none)
    (hr : r = none ∨ r = some errNoConn ∧ g.mConns.size = 0) : LoopEnd o picks g h [] g h r :=
  ⟨hI, by simp, by simp, by simp, .inr ⟨by simp, rfl, hconn, hr⟩⟩

/-- A pass that sends. The conn that takes the packet is alive, so nothing is removed. -/
theorem LoopEnd.send {pick : Nat} {picks : List Nat} {k : String} {c' : NetConn} {n : Int}
    (hI : Inv Any g h) (hk : (k, p) ∈ g.mConns.entries) (hc : h.get? p = some c)
    (huse : Usable h o.keyOfConnToReset p)
    (hout : c.output o.hd o.payload o.toSendCall.below = .ok (c', n, ()))
    (hconn : doSendLoopConn o.toSendCall (pick :: picks) g h = some p) :
    LoopEnd o (pick :: picks) g h [p] g (h.store p c') (some n) := by
  have hlive : ∀ q, ¬ (q = p ∧ Dead h q) := by
    rintro q ⟨rfl, hdead⟩
    exact not_usable_of_dead hdead huse
  refine ⟨(keeps_store (fun _ _ _ _ => trivial) hc (NetConn.like_output hout)).inv hI, ?_, ?_, ?_, ?_⟩
  · intro e
    rw [List.mem_singleton]
    exact (and_iff_left (hlive e.2)).symm
  · intro q
    rw [List.mem_singleton]
    exact (or_iff_left (hlive q)).symm
  · intro q hq
    rw [List.mem_singleton.mp hq]
    exact List.mem_map_of_mem hk
  · exact .inl ⟨[], p, _, _, _, rfl, by simp, huse, hc, hout, rfl, rfl, hconn⟩

/-- What a pass that does not send leaves in the tables and in the queue of the handler. -/
theorem Pass.none_spec {k : String} {h₁ : Heap NetConn} {g₁ : INetGroup} (hI : Inv Any g h)
    (hk : (k, p) ∈ g.mConns.entries) (hpass : Pass o g h p g₁ h₁ none) :
    h₁ = h ∧ Inv Any g₁ h ∧ ¬ Usable h o.keyOfConnToReset p ∧
      (∀ e, e ∈ g₁.mConns.entries ↔ e ∈ g.mConns.entries ∧ ¬ (e.2 = p ∧ Dead h e.2)) ∧
      ∀ q, q ∈ g₁.mHandler ↔ q ∈ g.mHandler ∨ q = p ∧ Dead h q := by
  cases hpass with
  | again hnot hndead =>
    have hlive : ∀ q, ¬ (q = p ∧ Dead h q) := by
      rintro q ⟨rfl, hdead⟩
      exact hndead hdead
    exact ⟨rfl, hI, hnot, fun e => (and_iff_left (hlive e.2)).symm,
      fun q => (or_iff_left (hlive q)).symm⟩
  | remove hdead hg₁ =>
    obtain ⟨hconns, -, hhandler⟩ := mem_childConnErrCb hI hk hg₁
    have hsame : ∀ q, q = p ∧ Dead h q ↔ q = p := by
      refine fun q => ⟨And.left, ?_⟩
      rintro rfl
      exact ⟨rfl, hdead⟩
    refine ⟨rfl, (keeps_childConnErrCb hg₁).inv hI, not_usable_of_dead hdead, ?_, ?_⟩
    · intro e
      rw [hconns, hsame]
    · intro q
      rw [hhandler, hsame]

/-- How the loop ends, for every sequence of picks. -/
theorem doSendLoop_spec (o : OutCall) (picks : List Nat) (hI : Inv Any g h) :
    ∃ g' h' r, doSendLoop o.toSendCall picks g h = .ok (g', h', r) ∧
      LoopEnd o picks g h (doSendLoopPicked o.toSendCall picks g h) g' h' r := by
  induction picks generalizing g with
  | nil =>
    unfold doSendLoop
    split
    · next hsize => exact ⟨g, h, _, rfl, LoopEnd.stop o hI rfl (.inr ⟨rfl, hsize⟩)⟩
    · exact ⟨g, h, _, rfl, LoopEnd.stop o hI rfl (.inl rfl)⟩
  | cons pick picks ih =>
    by_cases hsize : g.mConns.size = 0
    · obtain ⟨hloop, hconn⟩ := doSendLoop_of_empty (h := h) o.toSendCall (pick :: picks) hsize
      rw [doSendLoopPicked_of_empty _ _ hsize]
      exact ⟨g, h, some errNoConn, hloop, LoopEnd.stop o hI hconn (.inr ⟨rfl, hsize⟩)⟩
    · obtain ⟨k, p, g₁, h₁, r₁, hk, hpass, hcases⟩ := doSendPass_spec o pick hI hsize
      have hmem : (k, p) ∈ g.mConns.entries := List.mem_of_getElem? hk
      unfold doSendLoop
      rw [if_neg hsize, doSendLoopPicked, hk]
      simp only [hpass, ok_bind]
      cases r₁ with
      | some n =>
        cases hcases with
        | send hc huse hout =>
          have hconn : doSendLoopConn o.toSendCall (pick :: picks) g h = some p := by
            rw [doSendLoopConn, hpass, hk]
            rfl
          exact ⟨_, _, _, rfl, LoopEnd.send hI hmem hc huse hout hconn⟩
      | none =>
        obtain ⟨rfl, hI₁, hnot, hconns, hhandler⟩ := hcases.none_spec hI hmem
        obtain ⟨g', h', r, hr, hend⟩ := ih hI₁
        exact ⟨g', h', r, hr, hend.cons hmem hpass hnot hconns hhandler⟩

/-- Dead conns only: every pass removes one, so there are no more passes than conns. -/
theorem doSendLoop_of_dead (o : OutCall) (picks : List Nat) (hI : Inv Any g h)
    (hdead : ∀ e ∈ g.mConns.entries, Dead h e.2) :
    (doSendLoopPicked o.toSendCall picks g h).length ≤ g.mConns.size ∧
      (g.mConns.size ≤ picks.length →
        ∃ g', doSendLoop o.toSendCall picks g h = .ok (g', h, some errNoConn)) := by
  induction picks generalizing g with
  | nil =>
    exact ⟨Nat.zero_le _, fun hle => ⟨g, (doSendLoop_of_empty _ _ (Nat.le_zero.mp hle)).1⟩⟩
  | cons pick picks ih =>
    by_cases hsize : g.mConns.size = 0
    · rw [doSendLoopPicked_of_empty _ _ hsize]
      exact ⟨Nat.zero_le _, fun _ => ⟨g, (doSendLoop_of_empty _ _ hsize).1⟩⟩
    · obtain ⟨k, p, g₁, h₁, r₁, hk, hpass, hcases⟩ := doSendPass_spec o pick hI hsize
      have hmem : (k, p) ∈ g.mConns.entries := List.mem_of_getElem? hk
      have hp : Dead h p := hdead (k, p) hmem
      unfold doSendLoop
      rw [if_neg hsize, doSendLoopPicked, hk]
      simp only [hpass, ok_bind]
      cases hcases with
      | send _ huse _ => exact absurd huse (not_usable_of_dead hp)
      | again _ hndead => exact absurd hp hndead
      | remove _ hg₁ =>
        obtain ⟨hconns, hlen, -⟩ := mem_childConnErrCb hI hmem hg₁
        obtain ⟨hpicked, hret⟩ := ih ((keeps_childConnErrCb hg₁).inv hI)
          fun e he => hdead e ((hconns e).mp he).1
        refine ⟨?_, fun hle => hret ?_⟩
        · rw [List.length_cons]
          omega
        · rw [List.length_cons] at hle
          omega

/-- No conn is usable, but one is alive: the loop goes on after any number of picks. -/
theorem doSendLoop_of_not_usable (o : OutCall) (picks : List Nat) (hI : Inv Any g h)
    (hnot : ∀ e ∈ g.mConns.entries, ¬ Usable h o.keyOfConnToReset e.2)
    {e : String × ConnPtr} (he : e ∈ g.mConns.entries) (halive : ¬ Dead h e.2) :
    ∃ g', doSendLoop o.toSendCall picks g h = .ok (g', h, none) := by
  obtain ⟨g', h', r, hr, hend⟩ := doSendLoop_spec o picks hI
  rcases hend.result with ⟨qs, p, _, _, _, hps, -, huse, -⟩ | ⟨-, rfl, -, hres⟩
  · have hp : p ∈ g.mConns.entries.map Prod.snd := hend.picked p (by rw [hps]; simp)
    obtain ⟨e', he', rfl⟩ := List.mem_map.mp hp
    exact absurd huse (hnot e' he')
  · rcases hres with rfl | ⟨-, hsize⟩
    · exact ⟨g', hr⟩
    · -- the alive conn is still in the table
      have hmem : e ∈ g'.mConns.entries := (hend.conns e).mpr ⟨he, fun hd => halive hd.2⟩
      rw [List.eq_nil_of_length_eq_zero hsize] at hmem
      cases hmem

/-! ## The whole call -/

/-- A call of `doSend`, seen from its caller. Without a usable conn it returns `ERR_NO_CONN` after no
    more passes than there are conns and sends nothing. It sends on usable conns only, and the first
    one it picks takes the packet. The dead conns it picked wait for their deletion, all others stay. -/
def SendsRight (g : INetGroup) (h : Heap NetConn) (o : OutCall) : Prop :=
  ∃ g' h' r ps, g.doSend h o.toSendCall = .ok (g', h', r) ∧
    ps = doSendLoopPicked o.toSendCall o.picks g h ∧
    ((∀ e ∈ g.mConns.entries, ¬ Usable h o.keyOfConnToReset e.2) →
      ps.length ≤ g.mConns.size ∧ (g.mConns.size ≤ o.picks.length → r = some errNoConn) ∧
        g.doSendConn h o.toSendCall = none ∧ h' = h) ∧
    (∀ p, g.doSendConn h o.toSendCall = some p → Usable h o.keyOfConnToReset p) ∧
    (∀ qs p rest, ps = qs ++ p :: rest → Usable h o.keyOfConnToReset p →
      rest = [] ∧ g.doSendConn h o.toSendCall = some p ∧
        ∃ c c' n, h.get? p = some c ∧
          c.output o.hd o.payload o.toSendCall.below = .ok (c', n, ()) ∧ h' = h.store p c' ∧
          r = some n) ∧
    (∀ e, e ∈ g'.mConns.entries ↔ e ∈ g.mConns.entries ∧ ¬ (e.2 ∈ ps ∧ Dead h e.2)) ∧
    (∀ p, p ∈ g'.mHandler ↔ p ∈ g.mHandler ∨ p ∈ ps ∧ Dead h p) ∧ Inv Any g' h'

/-- Whatever the loop picks, a call that returns early enough is right: only the number of passes
    without a usable conn is left to show. -/
theorem LoopEnd.sendsRight {ps : List ConnPtr} {r : Option Int}
    (hps : ps = doSendLoopPicked o.toSendCall o.picks g h)
    (hr : g.doSend h o.toSendCall = .ok (g', h', r)) (hpos : 0 < o.payload.length)
    (hend : LoopEnd o o.picks g h ps g' h' r)
    (hret : (∀ e ∈ g.mConns.entries, ¬ Usable h o.keyOfConnToReset e.2) →
      ps.length ≤ g.mConns.size ∧ (g.mConns.size ≤ o.picks.length → r = some errNoConn)) :
    SendsRight g h o := by
  have hconn : g.doSendConn h o.toSendCall = doSendLoopConn o.toSendCall o.picks g h := if_pos hpos
  refine ⟨g', h', r, ps, hr, hps, ?_, ?_, ?_, hend.conns, hend.handler, hend.inv⟩
  · intro hnone
    obtain ⟨hlen, hres⟩ := hret hnone
    rw [hconn]
    rcases hend.result with ⟨qs, p, _, _, _, rfl, -, huse, -⟩ | ⟨-, hh, hc, -⟩
    · obtain ⟨e, he, rfl⟩ := List.mem_map.mp (hend.picked p (by simp))
      exact absurd huse (hnone e he)
    · exact ⟨hlen, hres, hc, hh⟩
  · intro p hp
    rw [hconn] at hp
    rcases hend.result with ⟨_, q, _, _, _, -, -, huse, -, -, -, -, hc⟩ | ⟨-, -, hc, -⟩
    · rw [hc] at hp
      rwa [← Option.some.inj hp]
    · rw [hc] at hp
      cases hp
  · intro qs p rest hsplit huse
    rw [hconn]
    rcases hend.result with ⟨qs', p', c, c', n, hps', hqs', -, hc, hout, hh, hn, hsent⟩ | ⟨hnone, -⟩
    · -- the picks before the last are not usable, so `p` is the last
      rw [hsplit] at hps'
      rcases List.eq_nil_or_concat rest with rfl | ⟨rest', q, rfl⟩
      · obtain ⟨-, hp⟩ := List.append_inj' hps' rfl
        obtain rfl : p = p' := List.singleton_inj.mp hp
        exact ⟨rfl, hsent, c, c', n, hc, hout, hh, hn⟩
      · have hinit : qs ++ p :: rest' = qs' := by
          rw [List.concat_eq_append, ← List.cons_append, ← List.append_assoc] at hps'
          exact (List.append_inj' hps' rfl).1
        exact absurd huse (hqs' p (by rw [← hinit]; simp))
    · exact absurd huse (hnone p (by rw [hsplit]; simp))

theorem doSend_eq_loop (o : OutCall) (hpos : 0 < o.payload.length) :
    g.doSend h o.toSendCall = doSendLoop o.toSendCall o.picks g h := if_pos hpos

/-- With a conn that is alive but must not be used, and none that may be, the loop does not end. -/
theorem not_sendsRight_of_not_usable (o : OutCall) (hI : Inv Any g h) (hpos : 0 < o.payload.length)
    (hnot : ∀ e ∈ g.mConns.entries, ¬ Usable h o.keyOfConnToReset e.2)
    {e : String × ConnPtr} (he : e ∈ g.mConns.entries) (halive : ¬ Dead h e.2) :
    ¬ SendsRight g h { o with picks := List.replicate g.mConns.size 0 } := by
  rintro ⟨g', h', r, ps, hr, -, hret, -⟩
  obtain ⟨-, hres, -⟩ := hret hnot
  obtain ⟨g'', hloop⟩ := doSendLoop_of_not_usable
    { o with picks := List.replicate g.mConns.size 0 } (List.replicate g.mConns.size 0) hI hnot
    he halive
  rw [doSend_eq_loop { o with picks := List.replicate g.mConns.size 0 } hpos] at hr
  have hr' := Except.ok.inj (hloop.symm.trans hr)
  obtain ⟨-, -, rfl⟩ : g'' = g' ∧ h = h' ∧ none = r := by simpa using hr'
  cases hres (by simp)

/-- `doSend` is right for every sequence of picks exactly when some conn is usable or all of them are
    dead: an alive conn that must not be used is the only thing that keeps it from returning. -/
theorem doSend_right_iff (g : INetGroup) (h : Heap NetConn) (hI : Inv Any g h) (o : OutCall)
    (hpos : 0 < o.payload.length) :
    (∀ picks, SendsRight g h { o with picks := picks }) ↔
      (∃ e ∈ g.mConns.entries, Usable h o.keyOfConnToReset e.2) ∨
        ∀ e ∈ g.mConns.entries, Dead h e.2 := by
  constructor
  · intro hall
    by_contra hbad
    obtain ⟨hnone, hdead⟩ := not_or.mp hbad
    have hnot : ∀ e ∈ g.mConns.entries, ¬ Usable h o.keyOfConnToReset e.2 :=
      fun e he huse => hnone ⟨e, he, huse⟩
    push Not at hdead
    obtain ⟨e, he, halive⟩ := hdead
    exact not_sendsRight_of_not_usable o hI hpos hnot he halive (hall _)
  · intro hgood picks
    obtain ⟨g', h', r, hr, hend⟩ := doSendLoop_spec { o with picks := picks } picks hI
    refine hend.sendsRight rfl ((doSend_eq_loop { o with picks := picks } hpos).trans hr) hpos ?_
    intro hnone
    rcases hgood with ⟨e, he, huse⟩ | hdead
    · exact absurd huse (hnone e he)
    · obtain ⟨hlen, hret⟩ := doSendLoop_of_dead { o with picks := picks } picks hI hdead
      refine ⟨hlen, fun hle => ?_⟩
      obtain ⟨g'', hloop⟩ := hret hle
      rw [hr] at hloop
      obtain ⟨-, h2⟩ := Prod.mk.inj (Except.ok.inj hloop)
      exact (Prod.mk.inj h2).2

/-- A reset about the conn with the given key, one byte long. -/
def resetCall (key : IntKeyType) : OutCall where
  hd := {}
  payload := [0]
  keyOfConnToReset := key
  picks := []
  out _ payload := payload.length

/-- Of three conns one waits for its message, one is dead and not found yet, and one is alive. The group
    sends a reset about the first one. -/
theorem doSend_right_three_conns : ∃ s : ConnLife,
    TransSys.run ConnLife.step {} ConnLife.threeConns = .ok s ∧
      ∀ picks, SendsRight s.group s.heap
        { resetCall ConnLife.conn10001.mIntKey with picks := picks } := by
  obtain ⟨s, hs⟩ : ∃ s, TransSys.run ConnLife.step {} ConnLife.threeConns = .ok s := ⟨_, rfl⟩
  have hI := (ConnLife.ledger_run hs).inv
  refine ⟨s, hs, (doSend_right_iff s.group s.heap hI (resetCall ConnLife.conn10001.mIntKey)
    (by decide)).mpr (.inl ?_)⟩
  -- the third one can be used
  obtain rfl := Except.ok.inj hs
  refine ⟨_, List.mem_cons_of_mem _ (List.mem_singleton.mpr rfl), .fakeTcp ConnLife.conn10003, rfl,
    rfl, ?_⟩
  decide

/-- A group whose only conn is the one the reset is about. -/
theorem conn10001_not_usable {s : ConnLife}
    (hs : TransSys.run ConnLife.step {} [.addNetConn (.fakeTcp ConnLife.conn10001)] = .ok s) :
    (∀ e ∈ s.group.mConns.entries, ¬ Usable s.heap ConnLife.conn10001.mIntKey e.2) ∧
      ∃ e ∈ s.group.mConns.entries, ¬ Dead s.heap e.2 := by
  obtain rfl := Except.ok.inj hs
  constructor
  · intro e he
    obtain rfl := List.mem_singleton.mp he
    rw [usable_iff_of_get? (c := .fakeTcp ConnLife.conn10001) rfl]
    decide
  · refine ⟨_, List.mem_singleton.mpr rfl, ?_⟩
    rw [dead_iff_of_get? (c := .fakeTcp ConnLife.conn10001) rfl]
    decide

/-- The only conn is the one to be reset: whatever is picked, the loop goes on. -/
theorem doSend_never_returns : ∃ s : ConnLife,
    TransSys.run ConnLife.step {} [.addNetConn (.fakeTcp ConnLife.conn10001)] = .ok s ∧
      (∀ picks, ∃ g', s.group.doSend s.heap
        { resetCall ConnLife.conn10001.mIntKey with picks := picks }.toSendCall =
          .ok (g', s.heap, none)) ∧
      ¬ ∀ picks, SendsRight s.group s.heap
        { resetCall ConnLife.conn10001.mIntKey with picks := picks } := by
  obtain ⟨s, hs⟩ : ∃ s, TransSys.run ConnLife.step {}
    [.addNetConn (.fakeTcp ConnLife.conn10001)] = .ok s := ⟨_, rfl⟩
  have hI := (ConnLife.ledger_run hs).inv
  obtain ⟨hnot, e, he, halive⟩ := conn10001_not_usable hs
  refine ⟨s, hs, ?_, ?_⟩
  · intro picks
    exact doSendLoop_of_not_usable { resetCall ConnLife.conn10001.mIntKey with picks := picks }
      picks hI hnot he halive
  · intro hright
    exact not_sendsRight_of_not_usable (resetCall ConnLife.conn10001.mIntKey) hI (by decide) hnot he
      halive (hright _)

end INetGroup

end Rsock
