import Rsock.NetGroupLife
import Rsock.Proofs.NetGroupProofs

/-!
# Proofs: the two tables of a net group

`IGroup` keeps `mConns`, `INetGroup` keeps `mConnMap`, and every change goes through a virtual method
that changes both. `INetGroup.Agree` needs nothing of the conns but that their two keys belong
together, so it survives whatever a caller does: conns added twice, conns whose key is taken, removals
of a conn that is not the stored one.

The rules are those of `CMem.Avoids`: an operation started on tables that agree ends in tables that
agree, and none of its assertions fails.
-/

namespace Rsock

open CMem

namespace INetGroup

open KeyGenerator

variable {g : INetGroup} {h : Heap NetConn} {p : ConnPtr} {call : SendCall}

/-- No assertion fails in the computation, and its result satisfies `Q`. -/
abbrev Asserts {α : Type} (x : Except Fault α) (Q : α → Prop) : Prop := Avoids .assertFailed x Q

/-! ## Reading the tables -/

/-- A text finds what the key it is written from finds. -/
theorem Agree.connOfKey_iff (hA : Agree g) (text : String) :
    g.connOfKey text = some p ↔ ∃ k, text = strForIntKey k ∧ g.mConnMap.get? k = some p := by
  unfold connOfKey
  rw [StdMap.get?_eq_some_iff same_string, hA.mem_iff, List.mem_map]
  constructor
  · rintro ⟨⟨k, p'⟩, hmem, heq⟩
    obtain ⟨rfl, rfl⟩ := Prod.mk.inj heq
    exact ⟨k, rfl, (StdMap.get?_eq_some_iff same_intKey).mpr hmem⟩
  · rintro ⟨k, rfl, hk⟩
    exact ⟨(k, p), (StdMap.get?_eq_some_iff same_intKey).mp hk, rfl⟩

theorem Agree.connOfKey_eq (hA : Agree g) (k : IntKeyType) :
    g.connOfKey (strForIntKey k) = g.mConnMap.get? k := by
  ext p
  rw [hA.connOfKey_iff]
  constructor
  · rintro ⟨k', hk', hget⟩
    rwa [strForIntKey_injective hk']
  · intro hget
    exact ⟨k, rfl, hget⟩

/-- Both tables give the same answer. -/
theorem Agree.connOfIntKey_eq (hA : Agree g) (k : IntKeyType) :
    g.connOfIntKey k = .ok (g.mConnMap.get? k) := by
  rw [connOfIntKey, cassert_pos hA.size_eq]
  rfl

/-! ## One operation -/

theorem asserts_deref : Asserts (h.deref p) fun _ => True := by
  refine ⟨?_, fun _ _ => trivial⟩
  unfold Heap.deref
  split <;> simp

/-- `AddNetConn` keeps the tables alike. -/
theorem asserts_addNetConn (hA : Agree g) : Asserts (g.addNetConn h p) Agree := by
  unfold addNetConn
  refine asserts_deref.bind fun c _ => ?_
  have hA' := hA.emplace c.intKey p
  exact (avoids_cassert hA'.size_eq).bind fun _ _ => avoids_ok hA'

/-- So does `RemoveConn`, whatever conn it is given. -/
theorem asserts_removeConn (hA : Agree g) : Asserts (g.removeConn h p) Agree := by
  unfold removeConn
  refine asserts_deref.bind fun c _ => ?_
  have hA' := hA.erase c.intKey
  have hok : (g.mConns.find? c.key).isSome = (g.mConnMap.find? c.intKey).isSome :=
    hA.isSome_find?_eq c.intKey
  refine (avoids_cassert hok).bind fun _ _ => ?_
  exact (avoids_cassert hA'.size_eq).bind fun _ _ => avoids_ok hA'

theorem asserts_childConnErrCb (hA : Agree g) : Asserts (g.childConnErrCb h p) Agree := by
  unfold childConnErrCb
  exact (asserts_removeConn hA).bind fun g' hA' => avoids_ok hA'

/-! ## Sending -/

section Send

variable (hbelow : ∀ info payload, Asserts (call.below info payload) fun _ => True)

include hbelow

theorem asserts_output (c : NetConn) :
    Asserts (c.output call.hd call.payload call.below) fun _ => True := by
  cases c with
  | fakeTcp c =>
    refine Avoids.bind (Q := fun _ => True) ?_ fun _ _ => avoids_ok trivial
    exact (hbelow _ _).bind fun _ _ => avoids_ok trivial
  | fakeUdp c =>
    refine Avoids.bind (Q := fun _ => True) ?_ fun _ _ => avoids_ok trivial
    exact (hbelow _ _).bind fun _ _ => avoids_ok trivial

theorem asserts_doSendPass (hA : Agree g) (pick : Nat) :
    Asserts (doSendPass call pick g h) fun r => Agree r.1 := by
  unfold doSendPass
  split
  · exact avoids_error (by decide)
  next p _ =>
  refine asserts_deref.bind fun c _ => ?_
  split
  · split
    · exact avoids_ok hA
    · exact (asserts_output hbelow c).bind fun r _ => avoids_ok hA
  · exact (asserts_childConnErrCb hA).bind fun g' hA' => avoids_ok hA'

theorem asserts_doSendLoop (hA : Agree g) (picks : List Nat) :
    Asserts (doSendLoop call picks g h) fun r => Agree r.1 := by
  induction picks generalizing g h with
  | nil =>
    unfold doSendLoop
    split <;> exact avoids_ok hA
  | cons pick picks ih =>
    unfold doSendLoop
    split
    · exact avoids_ok hA
    · refine (asserts_doSendPass hbelow hA pick).bind ?_
      rintro ⟨g₁, h₁, r⟩ hA₁
      cases r with
      | some n => exact avoids_ok hA₁
      | none => exact ih hA₁

/-- So does `doSend`. -/
theorem asserts_doSend (hA : Agree g) : Asserts (g.doSend h call) fun r => Agree r.1 := by
  unfold doSend
  split
  · exact asserts_doSendLoop hbelow hA call.picks
  · exact avoids_ok hA

end Send

/-! ## Receiving and flushing -/

theorem asserts_below (o : OutCall) (info : Info) (payload : List UInt8) :
    Asserts (o.toSendCall.below info payload) fun _ => True := avoids_ok trivial

theorem asserts_doSends (hA : Agree g) (os : List OutCall) :
    Asserts (g.doSends h (os.map OutCall.toSendCall)) fun r => Agree r.1 := by
  induction os generalizing g h with
  | nil => exact avoids_ok hA
  | cons o os ih =>
    rw [List.map_cons, doSends]
    refine (asserts_doSend (asserts_below o) hA).bind ?_
    rintro ⟨g₁, h₁, r⟩ hA₁
    exact ih hA₁

/-- A conn asserts only that the packet has a header. -/
theorem asserts_onRecv {info : Info} (hhd : info.base.head.isSome) (c : NetConn) (n : Int) :
    Asserts (c.onRecv info n) fun _ => True := by
  cases c with
  | fakeTcp c =>
    cases info with
    | tcp i =>
      refine Avoids.bind (Q := fun _ => True) ?_ fun _ _ => avoids_ok trivial
      exact (avoids_cassert hhd).bind fun _ _ => avoids_ok trivial
    | udp i =>
      refine (avoids_cassert hhd).bind fun _ _ => ?_
      split
      · exact avoids_error (by decide)
      · exact avoids_ok trivial
  | fakeUdp c =>
    exact (avoids_cassert hhd).bind fun _ _ => avoids_ok trivial

/-- A packet with a header keeps them alike. -/
theorem asserts_connInput {info : Info} (hhd : info.base.head.isSome) (hA : Agree g)
    (os : List OutCall) (n : Int) :
    Asserts (g.connInput h p info (os.map OutCall.toSendCall) n) fun r => Agree r.1 := by
  refine (asserts_doSends hA os).bind ?_
  rintro ⟨g₁, h₁⟩ hA₁
  refine asserts_deref.bind fun c _ => ?_
  exact (asserts_onRecv hhd c n).bind fun r _ => avoids_ok hA₁

theorem asserts_fails (l : List (String × ConnPtr)) : Asserts (fails h l) fun _ => True := by
  induction l with
  | nil => exact avoids_ok trivial
  | cons e l ih =>
    refine asserts_deref.bind fun c _ => ?_
    exact ih.bind fun ps _ => avoids_ok trivial

theorem asserts_onConnsDead (hA : Agree g) (ps : List ConnPtr) :
    Asserts (g.onConnsDead h ps) Agree := by
  induction ps generalizing g with
  | nil => exact avoids_ok hA
  | cons p ps ih => exact (asserts_childConnErrCb hA).bind fun g₁ hA₁ => ih hA₁

/-- So does a flush. -/
theorem asserts_flush (hA : Agree g) : Asserts (g.flush h) Agree :=
  (asserts_fails _).bind fun ps _ => asserts_onConnsDead hA ps

end INetGroup

/-! ## Whole runs -/

namespace ConnLife

open TransSys INetGroup KeyGenerator

variable {s s' : ConnLife} {key : String}

/-- The assertions about the arguments of a call: `INetGroup::Input` wants a header, `IGroup::CloseConn`
    a conn that is stored under its key, which is not the key of the group. -/
def Call.ArgsOk (key : String) (s : ConnLife) : Call → Prop
  | .event (.input info _ _ _) => info.base.head.isSome
  | .event _ => True
  | .addNetConn _ => True
  | .removeConn _ => True
  | .closeConn p => ∀ c, s.heap.get? p = some c → c.key ≠ key ∧ s.group.connOfKey c.key = some p

theorem asserts_closeAndDelete {p : ConnPtr} (hA : Agree s.group) :
    Asserts (s.closeAndDelete p) fun s' => Agree s'.group := by
  unfold closeAndDelete Heap.free
  refine Avoids.bind (Q := fun _ => True) ?_ fun h _ => avoids_ok hA
  exact asserts_deref.bind fun _ _ => avoids_ok trivial

theorem asserts_input {info : Info} (hhd : info.base.head.isSome) (created : Option NetConn)
    (ups : List OutCall) (n : Int) (hA : Agree s.group) :
    Asserts (s.input info created ups n) fun s' => Agree s'.group := by
  obtain ⟨head, hhead⟩ := Option.isSome_iff_exists.mp hhd
  refine Avoids.bind (Q := fun r => Agree r.2.1) ?_ fun r hA' => avoids_ok hA'
  unfold INetGroup.input
  rw [hhead]
  simp only [hA.connOfIntKey_eq, ok_bind]
  cases s.group.mConnMap.get? head.mConnKey with
  | some p => exact (asserts_connInput hhd hA ups n).bind fun r hA' => avoids_ok hA'
  | none =>
    cases created with
    | some conn =>
      refine (asserts_addNetConn hA).bind fun g hA' => ?_
      exact (asserts_connInput hhd hA' ups n).bind fun r hA'' => avoids_ok hA''
    | none => exact (asserts_doSends hA ups).bind fun r hA' => avoids_ok hA'

/-- Every event keeps them alike. -/
theorem asserts_step {e : Event} (he : Call.ArgsOk key s (.event e)) (hA : Agree s.group) :
    Asserts (s.step e) fun s' => Agree s'.group := by
  cases e with
  | addNetConn conn => exact (asserts_addNetConn hA).bind fun g hA' => avoids_ok hA'
  | input info created ups n => exact asserts_input he created ups n hA
  | send o => exact (asserts_doSend (asserts_below o) hA).bind fun r hA' => avoids_ok hA'
  | flush => exact (asserts_flush hA).bind fun g hA' => avoids_ok hA'
  | notifyErr k err =>
    refine Avoids.bind (Q := fun _ => True) ?_ fun r _ => avoids_ok hA
    unfold INetGroup.notifyErr
    rw [hA.connOfIntKey_eq, ok_bind]
    split
    · exact asserts_deref.bind fun _ _ => avoids_ok trivial
    · exact avoids_ok trivial
  | onTcpError p =>
    by_cases hp : p ∈ s.closes
    · simp only [step, if_pos hp]
      exact avoids_ok hA
    · simp only [step, if_neg hp]
      refine Avoids.bind (Q := fun _ => True) ?_ fun h _ => avoids_ok hA
      refine asserts_deref.bind fun c _ => ?_
      cases c with
      | fakeTcp c => exact avoids_ok trivial
      | fakeUdp c => exact avoids_error (by decide)
  | handleMessage =>
    refine Avoids.bind (Q := fun r => Agree r.1.group) ?_ fun r hA' => avoids_ok hA'
    unfold handleMessage
    split
    · exact avoids_ok hA
    · refine asserts_deref.bind fun c _ => ?_
      refine Avoids.bind (asserts_closeAndDelete ?_) fun s' hA' => ?_
      · exact hA
      · exact avoids_ok (Q := fun r : ConnLife × Option Info => Agree r.1.group) hA'

/-- So does every call with arguments that are allowed. -/
theorem asserts_call {c : Call} (hc : c.ArgsOk key s) (hA : Agree s.group) :
    Asserts (s.call key c) fun s' => Agree s'.group := by
  cases c with
  | event e => exact asserts_step hc hA
  | addNetConn p => exact (asserts_addNetConn hA).bind fun g hA' => avoids_ok hA'
  | removeConn p => exact (asserts_removeConn hA).bind fun g hA' => avoids_ok hA'
  | closeConn p =>
    simp only [call, closeConn]
    cases hp : s.heap.deref p with
    | error e =>
      refine avoids_error ?_
      rintro rfl
      exact asserts_deref.1 hp
    | ok c =>
      rw [ok_bind]
      obtain ⟨hne, hown⟩ := hc c (Heap.deref_eq_ok.mp hp)
      refine (avoids_cassert hne).bind fun _ _ => (avoids_cassert hown).bind fun _ _ => ?_
      refine (asserts_removeConn hA).bind fun g hA' => ?_
      exact asserts_closeAndDelete hA'

theorem argsOk_of_call {c : Call} (hr : s.call key c = .ok s') : c.ArgsOk key s := by
  cases c with
  | event e =>
    cases e with
    | input info created ups n =>
      obtain ⟨r, hin, -⟩ := bind_eq_ok.mp hr
      obtain ⟨head, hhead, -⟩ := input_eq_ok_iff.mp hin
      exact Option.isSome_of_eq_some hhead
    | addNetConn | send | flush | notifyErr | onTcpError | handleMessage => trivial
  | addNetConn p => trivial
  | removeConn p => trivial
  | closeConn p =>
    intro c hc
    obtain ⟨c', hp, hr⟩ := bind_eq_ok.mp hr
    obtain rfl : c = c' := Option.some.inj (hc.symm.trans (Heap.deref_eq_ok.mp hp))
    obtain ⟨⟨⟩, hne, hr⟩ := bind_eq_ok.mp hr
    obtain ⟨⟨⟩, hown, -⟩ := bind_eq_ok.mp hr
    exact ⟨cassert_eq_ok.mp hne, cassert_eq_ok.mp hown⟩

/-- A call that returns has kept them alike. -/
theorem agree_call {c : Call} (hA : Agree s.group) (hr : s.call key c = .ok s') : Agree s'.group :=
  (asserts_call (argsOk_of_call hr) hA).2 s' hr

/-- In every state a net group gets into, `mConns` is `mConnMap` with the decimal texts of its keys,
    a conn is found by its text exactly if it is found by its key, and the next call, whichever it is,
    fails no assertion but those about its arguments. -/
theorem tables_agree (key : String) (cs : List Call) (s : ConnLife)
    (hr : run (call key) {} cs = .ok s) :
    (∀ text p, s.group.connOfKey text = some p ↔
      ∃ k : IntKeyType, text = Nat.repr k.toNat ∧ s.group.mConnMap.get? k = some p) ∧
    s.group.mConns.size = s.group.mConnMap.size ∧
    (∀ k, s.group.connOfIntKey k = .ok (s.group.connOfKey (strForIntKey k))) ∧
    ∀ c : Call, c.ArgsOk key s → s.call key c ≠ .error .assertFailed := by
  have hA : Agree s.group := by
    have hempty : Agree {} := List.Perm.refl _
    refine run_invariant (J := fun s : ConnLife => Agree s.group) ?_ hempty hr
    intro s c s' hA hs'
    exact agree_call hA hs'
  refine ⟨?_, hA.size_eq.symm, ?_, ?_⟩
  · intro text p
    exact hA.connOfKey_iff text
  · intro k
    rw [hA.connOfIntKey_eq, hA.connOfKey_eq]
  · intro c hc
    exact (asserts_call hc hA).1

/-- Two conns with one key, the second removed in place of the first, and the first closed. -/
theorem tables_agree_same_key : ∃ s, run (call "net") {}
      [.event (.addNetConn (.fakeUdp { mIntKey := 7, mInfo := {} })),
        .event (.addNetConn (.fakeUdp { mIntKey := 7, mInfo := {} })),
        .addNetConn 1, .removeConn 1, .addNetConn 0, .closeConn 0] = .ok s ∧
    s.group.connOfIntKey 7 = .ok (s.group.connOfKey (strForIntKey 7)) := by
  obtain ⟨s, hs, -⟩ := exists_of_toOption
    (x := run (call "net") {} [.event (.addNetConn (.fakeUdp { mIntKey := 7, mInfo := {} })),
        .event (.addNetConn (.fakeUdp { mIntKey := 7, mInfo := {} })),
        .addNetConn 1, .removeConn 1, .addNetConn 0, .closeConn 0])
    (f := fun s => s.group.mConns.entries) (b := []) (by decide +kernel)
  exact ⟨s, hs, (tables_agree "net" _ s hs).2.2.1 7⟩

end ConnLife

end Rsock
