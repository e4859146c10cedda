import Rsock.AppGroup
import Rsock.Proofs.SockAppProofs

/-!
# Proofs: net groups

The two tables of a net group agree, every conn is stored under its own key, and whatever else is
known about conns when they are added stays known: `INetGroup.Inv`. Each operation keeps this
(`INetGroup.Keeps`) and changes neither the kind of a conn nor its key nor its addresses
(`NetConn.Like`).
-/

namespace Rsock

open CMem

/-! ## What no operation changes in a conn -/

namespace NetConn

/-- The conn has kept its kind, its key and its addresses. -/
def Like : NetConn → NetConn → Prop
  | fakeTcp c, fakeTcp c' => c'.mIntKey = c.mIntKey ∧ c'.mInfo.tuple = c.mInfo.tuple
  | fakeUdp c, fakeUdp c' => c'.mIntKey = c.mIntKey ∧ c'.mInfo.tuple = c.mInfo.tuple
  | _, _ => False

theorem like_refl (c : NetConn) : Like c c := by
  cases c <;> exact ⟨rfl, rfl⟩

theorem like_trans (a b c : NetConn) (hab : Like a b) (hbc : Like b c) : Like a c := by
  cases a <;> cases b <;> cases c <;> first
    | exact ⟨hbc.1.trans hab.1, hbc.2.trans hab.2⟩
    | exact hab.elim
    | exact hbc.elim

/-- A conn keeps its key. -/
theorem Like.intKey_eq {c c' : NetConn} (h : Like c c') : c'.intKey = c.intKey := by
  cases c <;> cases c' <;> first | exact h.1 | exact h.elim

theorem like_notifyErr (c : NetConn) (err : ErrCode) : Like c (c.notifyErr err) := by
  cases c <;> exact ⟨rfl, rfl⟩

/-- What `Output` does to a conn: it is no longer new, it keeps the header of the packet, and a
    `FakeTcp` may move its sequence number. -/
theorem output_cases {σ : Type} {c c' : NetConn} {hd : EncHead} {payload : List UInt8}
    {below : Info → List UInt8 → Except Fault (Int × σ)} {r : Int × σ}
    (h : c.output hd payload below = .ok (c', r)) :
    (∃ t seq, c = fakeTcp t ∧ c' = fakeTcp { t with
      mNew := false, mInfo.head := some (hd.setConnKey t.mIntKey), mInfo.seq := seq }) ∨
    (∃ u, c = fakeUdp u ∧ c' = fakeUdp { u with
      mNew := false, mInfo.head := some (hd.setConnKey u.mIntKey) }) := by
  cases c with
  | fakeTcp c =>
    obtain ⟨⟨c₁, r₁⟩, hc, hr⟩ := bind_eq_ok.mp h
    obtain ⟨⟨n, s⟩, -, hr₁⟩ := bind_eq_ok.mp hc
    simp only [pure, Except.pure, Except.ok.injEq, Prod.mk.injEq] at hr hr₁
    rw [← hr.1, ← hr₁.1]
    by_cases hn : n ≥ 0
    · rw [if_pos hn]
      exact .inl ⟨c, _, rfl, rfl⟩
    · rw [if_neg hn]
      exact .inl ⟨c, c.mInfo.seq, rfl, rfl⟩
  | fakeUdp c =>
    obtain ⟨⟨c₁, r₁⟩, hc, hr⟩ := bind_eq_ok.mp h
    obtain ⟨⟨n, s⟩, -, hr₁⟩ := bind_eq_ok.mp hc
    simp only [pure, Except.pure, Except.ok.injEq, Prod.mk.injEq] at hr hr₁
    rw [← hr.1, ← hr₁.1]
    exact .inr ⟨c, rfl, rfl⟩

/-- What `OnRecv` does to a conn: a segment that is new to a `FakeTcp` moves its acknowledgement
    number, everything else stays. -/
theorem onRecv_cases {c c' : NetConn} {info : Info} {n n' : Int}
    (h : c.onRecv info n = .ok (c', n')) :
    c' = c ∨ ∃ t i, c = fakeTcp t ∧ info = .tcp i ∧ n ≥ 0 ∧ t.mInfo.ack < i.seq ∧
      c' = fakeTcp { t with mInfo := t.mInfo.updateAck i.seq } := by
  cases c with
  | fakeTcp c =>
    cases info with
    | tcp i =>
      obtain ⟨⟨c₁, n₁⟩, hc, hr⟩ := bind_eq_ok.mp h
      obtain ⟨-, -, hr₁⟩ := bind_eq_ok.mp hc
      simp only [pure, Except.pure, Except.ok.injEq, Prod.mk.injEq] at hr hr₁
      rw [← hr.1, ← hr₁.1]
      by_cases hn : n ≥ 0 ∧ c.mInfo.ack < i.seq
      · rw [if_pos hn]
        exact .inr ⟨c, i, rfl, rfl, hn.1, hn.2, rfl⟩
      · rw [if_neg hn]
        exact .inl rfl
    | udp i =>
      obtain ⟨-, -, hr⟩ := bind_eq_ok.mp h
      by_cases hn : n ≥ 0
      · simp [hn] at hr
      · rw [if_neg hn] at hr
        simp only [pure, Except.pure, Except.ok.injEq, Prod.mk.injEq] at hr
        exact .inl hr.1.symm
  | fakeUdp c =>
    obtain ⟨-, -, hr⟩ := bind_eq_ok.mp h
    simp only [pure, Except.pure, Except.ok.injEq, Prod.mk.injEq] at hr
    exact .inl hr.1.symm

/-- Sending does not make another conn of it. -/
theorem like_output {σ : Type} {c c' : NetConn} {hd : EncHead} {payload : List UInt8}
    {below : Info → List UInt8 → Except Fault (Int × σ)} {r : Int × σ}
    (h : c.output hd payload below = .ok (c', r)) : Like c c' := by
  rcases output_cases h with ⟨t, seq, rfl, rfl⟩ | ⟨u, rfl, rfl⟩
  · exact ⟨rfl, rfl⟩
  · exact ⟨rfl, rfl⟩

/-- Nor does receiving. -/
theorem like_onRecv {c c' : NetConn} {info : Info} {n n' : Int}
    (h : c.onRecv info n = .ok (c', n')) : Like c c' := by
  rcases onRecv_cases h with rfl | ⟨t, i, rfl, -, -, -, rfl⟩
  · exact like_refl _
  · exact ⟨rfl, rfl⟩

end NetConn

/-! ## The two tables -/

namespace INetGroup

open NetConn KeyGenerator

variable {P : NetConn → Prop} {g g' g'' : INetGroup} {h h' h'' : Heap NetConn} {p : ConnPtr}
  {c c' : NetConn} {k : IntKeyType}

theorem same_intKey {a b : IntKeyType} : StdMap.Same (· < ·) a b ↔ a = b := by
  rw [StdMap.same_iff_rank_eq (f := UInt64.toNat) fun _ _ => UInt64.lt_iff_toNat_lt]
  exact UInt64.toNat_inj

/-- Keys are the same if their texts are. -/
theorem same_strForIntKey {a b : IntKeyType} :
    StdMap.Same (· < ·) (strForIntKey a) (strForIntKey b) ↔ StdMap.Same (· < ·) a b := by
  rw [same_string, same_intKey]
  exact ⟨strForIntKey_injective, congrArg strForIntKey⟩

/-- An entry of `mConnMap`, as `mConns` has it. -/
def textEntry (e : IntKeyType × ConnPtr) : String × ConnPtr := (strForIntKey e.1, e.2)

/-- `mConns` is `mConnMap` with the texts of its keys. -/
def Agree (g : INetGroup) : Prop := g.mConns.entries.Perm (g.mConnMap.entries.map textEntry)

/-- The tables have the same size. -/
theorem Agree.size_eq (hA : Agree g) : g.mConnMap.size = g.mConns.size := by
  have := hA.length_eq
  rw [List.length_map] at this
  exact this.symm

/-- A key is free in both tables or in none. -/
theorem Agree.find?_eq_none (hA : Agree g) (k : IntKeyType) :
    g.mConns.find? (strForIntKey k) = none ↔ g.mConnMap.find? k = none := by
  rw [StdMap.find?_eq_none_iff, StdMap.find?_eq_none_iff]
  constructor
  · intro hall e he hs
    have he' : textEntry e ∈ g.mConns.entries := hA.mem_iff.mpr (List.mem_map_of_mem he)
    exact hall (textEntry e) he' (same_strForIntKey.mpr hs)
  · intro hall e he hs
    obtain ⟨e', he', rfl⟩ := List.mem_map.mp (hA.mem_iff.mp he)
    exact hall e' he' (same_strForIntKey.mp hs)

/-- Both tables get the new entry, or both have the key already and stay as they are. -/
theorem Agree.emplace (hA : Agree g) (k : IntKeyType) (p : ConnPtr) :
    Agree { g with mConns := g.mConns.emplace (strForIntKey k) p,
                   mConnMap := g.mConnMap.emplace k p } := by
  cases hfind : g.mConnMap.find? k with
  | none =>
    have hfind' : g.mConns.find? (strForIntKey k) = none := (hA.find?_eq_none k).mpr hfind
    refine (StdMap.entries_emplace_perm hfind' p).trans ?_
    refine List.Perm.trans ?_ ((StdMap.entries_emplace_perm hfind p).map textEntry).symm
    exact List.Perm.cons (strForIntKey k, p) hA
  | some e =>
    obtain ⟨e', he'⟩ : ∃ e', g.mConns.find? (strForIntKey k) = some e' := by
      rw [← Option.ne_none_iff_exists']
      intro hnone
      rw [(hA.find?_eq_none k).mp hnone] at hfind
      cases hfind
    rw [StdMap.emplace_of_find? hfind, StdMap.emplace_of_find? he']
    exact hA

/-- They agree when a key is erased from both. -/
theorem Agree.erase (hA : Agree g) (k : IntKeyType) :
    Agree { g with mConns := g.mConns.erase (strForIntKey k), mConnMap := g.mConnMap.erase k } := by
  refine (List.Perm.filter _ hA).trans (List.Perm.of_eq ?_)
  rw [List.filter_map]
  congr 1
  apply List.filter_congr
  intro e _
  exact congrArg not (decide_eq_decide.mpr same_strForIntKey)

/-- `erase` removes something from both tables or from none. -/
theorem Agree.isSome_find?_eq (hA : Agree g) (k : IntKeyType) :
    (g.mConns.find? (strForIntKey k)).isSome = (g.mConnMap.find? k).isSome := by
  rw [Bool.eq_iff_iff, Option.isSome_iff_ne_none, Option.isSome_iff_ne_none]
  exact not_congr (hA.find?_eq_none k)

/-- The tables agree, and every conn is stored under its own key and satisfies `P`. -/
structure Inv (P : NetConn → Prop) (g : INetGroup) (h : Heap NetConn) : Prop where
  perm : g.mConns.entries.Perm (g.mConnMap.entries.map textEntry)
  conn : ∀ e ∈ g.mConnMap.entries, ∃ c, h.get? e.2 = some c ∧ c.intKey = e.1 ∧ P c

theorem inv_empty (P : NetConn → Prop) (h : Heap NetConn) : Inv P {} h where
  perm := List.Perm.refl _
  conn := by
    intro e he
    cases he

theorem Inv.agree (hI : Inv P g h) : Agree g := hI.perm

/-- The assertion of `ConnOfIntKey` holds. -/
theorem Inv.connOfIntKey_eq (hI : Inv P g h) (k : IntKeyType) :
    g.connOfIntKey k = .ok (g.mConnMap.get? k) := by
  rw [connOfIntKey, cassert_pos hI.agree.size_eq]
  rfl

/-- A conn that is found has the key. -/
theorem Inv.get?_conn (hI : Inv P g h) (hp : g.mConnMap.get? k = some p) :
    ∃ c, h.get? p = some c ∧ c.intKey = k ∧ P c := by
  obtain ⟨e, he, rfl⟩ := Option.map_eq_some_iff.mp hp
  obtain ⟨hmem, hs⟩ := (g.mConnMap.find?_eq_some_iff).mp he
  obtain ⟨c, hc, hk, hPc⟩ := hI.conn e hmem
  exact ⟨c, hc, hk.trans (same_intKey.mp hs), hPc⟩

theorem Inv.mem_ptrs (hI : Inv P g h) (hp : g.mConnMap.get? k = some p) :
    p ∈ g.mConns.entries.map Prod.snd := by
  have hmem : textEntry (k, p) ∈ g.mConns.entries := by
    rw [hI.perm.mem_iff]
    exact List.mem_map_of_mem ((StdMap.get?_eq_some_iff same_intKey).mp hp)
  exact List.mem_map_of_mem hmem

theorem Inv.get?_of_mem (hI : Inv P g h) {e : String × ConnPtr} (he : e ∈ g.mConns.entries)
    (hc : h.get? e.2 = some c) : g.mConnMap.get? c.intKey = some e.2 := by
  obtain ⟨e', he', rfl⟩ := List.mem_map.mp (hI.perm.mem_iff.mp he)
  obtain ⟨c', hc', hk, -⟩ := hI.conn e' he'
  obtain rfl : c' = c := Option.some.inj (hc'.symm.trans hc)
  have hs : StdMap.Same (· < ·) e'.1 c'.intKey := same_intKey.mpr hk.symm
  rw [StdMap.get?, (g.mConnMap.find?_eq_some_iff).mpr ⟨he', hs⟩]
  rfl

/-- The tables stay right while conns change. -/
theorem Inv.evolves (hP : ∀ c c', Like c c' → P c → P c') (hI : Inv P g h)
    (hh : Heap.Evolves Like h h') : Inv P g h' where
  perm := hI.perm
  conn := by
    intro e he
    obtain ⟨c, hc, hk, hPc⟩ := hI.conn e he
    obtain ⟨c', hc', hl⟩ := hh e.2 c hc
    exact ⟨c', hc', hl.intKey_eq.trans hk, hP c c' hl hPc⟩

/-! ## Adding and removing -/

/-- `AddNetConn` keeps the tables right. -/
theorem addNetConn_spec (hI : Inv P g h) (hp : h.get? p = some c) (hPc : P c) :
    ∃ g', g.addNetConn h p = .ok g' ∧ Inv P g' h := by
  have hinv : Inv P { g with mConns := g.mConns.emplace c.key p,
                             mConnMap := g.mConnMap.emplace c.intKey p } h := by
    refine ⟨hI.agree.emplace c.intKey p, ?_⟩
    intro e he
    rcases StdMap.mem_emplace.mp he with he | ⟨-, rfl⟩
    · exact hI.conn e he
    · exact ⟨c, hp, rfl, hPc⟩
  refine ⟨_, ?_, hinv⟩
  rw [addNetConn, Heap.deref_eq_ok.mpr hp]
  simp only [ok_bind, cassert_pos hinv.agree.size_eq]
  rfl

/-- `RemoveConn` keeps them right. -/
theorem removeConn_spec (hI : Inv P g h) (hp : h.get? p = some c) :
    ∃ g', g.removeConn h p = .ok g' ∧ Inv P g' h := by
  have hinv : Inv P { g with mConns := g.mConns.erase c.key,
                             mConnMap := g.mConnMap.erase c.intKey } h := by
    refine ⟨hI.agree.erase c.intKey, ?_⟩
    intro e he
    exact hI.conn e (StdMap.mem_erase.mp he).1
  have hok : (g.mConns.find? c.key).isSome = (g.mConnMap.find? c.intKey).isSome :=
    hI.agree.isSome_find?_eq c.intKey
  refine ⟨_, ?_, hinv⟩
  rw [removeConn, Heap.deref_eq_ok.mpr hp]
  simp only [ok_bind, cassert_pos hok, cassert_pos hinv.agree.size_eq]
  rfl

/-- `Input` finds a conn, makes one or does neither. -/
theorem input_eq_ok_iff {σ : Type}
    {createNetConn : σ → IntKeyType → Info → Except Fault (σ × Option NetConn)} {st st' : σ}
    {info : Info} {ups : List SendCall} {n n' : Int} :
    input createNetConn st g h info ups n = .ok (st', g', h', n') ↔
      ∃ head, info.base.head = some head ∧
        ((∃ p, g.connOfIntKey head.mConnKey = .ok (some p) ∧ st' = st ∧
          g.connInput h p info ups n = .ok (g', h', n')) ∨
        (∃ c g₁, g.connOfIntKey head.mConnKey = .ok none ∧
          createNetConn st head.mConnKey info = .ok (st', some c) ∧
          g.addNetConn (h.alloc c).1 (h.alloc c).2 = .ok g₁ ∧
          g₁.connInput (h.alloc c).1 (h.alloc c).2 info ups n = .ok (g', h', n')) ∨
        (g.connOfIntKey head.mConnKey = .ok none ∧
          createNetConn st head.mConnKey info = .ok (st', none) ∧
          g.doSends h ups = .ok (g', h') ∧ n' = errNoConn)) := by
  constructor
  · intro hr
    unfold input at hr
    split at hr
    · cases hr
    next head hhead =>
    refine ⟨head, hhead, ?_⟩
    obtain ⟨conn, hfind, hr⟩ := bind_eq_ok.mp hr
    cases conn with
    | some p =>
      obtain ⟨r, hin, hr⟩ := bind_eq_ok.mp hr
      cases hr
      exact .inl ⟨p, hfind, rfl, hin⟩
    | none =>
      obtain ⟨⟨st₁, conn⟩, hnew, hr⟩ := bind_eq_ok.mp hr
      cases conn with
      | some c =>
        obtain ⟨g₁, hadd, hr⟩ := bind_eq_ok.mp hr
        obtain ⟨r, hin, hr⟩ := bind_eq_ok.mp hr
        cases hr
        exact .inr (.inl ⟨c, g₁, hfind, hnew, hadd, hin⟩)
      | none =>
        obtain ⟨r, hups, hr⟩ := bind_eq_ok.mp hr
        cases hr
        exact .inr (.inr ⟨hfind, hnew, hups, rfl⟩)
  · rintro ⟨head, hhead, ⟨p, hfind, rfl, hin⟩ | ⟨c, g₁, hfind, hnew, hadd, hin⟩ |
      ⟨hfind, hnew, hups, rfl⟩⟩
    · simp only [input, hhead, hfind, hin, ok_bind]
      rfl
    · simp only [input, hhead, hfind, hnew, hadd, hin, ok_bind]
      rfl
    · simp only [input, hhead, hfind, hnew, hups, ok_bind]
      rfl

/-! ## What every operation does -/

/-- What happens to one conn. -/
inductive ConnAct where
  /-- It is found dead, taken out of the tables and reported to the handler. -/
  | childConnErr (p : ConnPtr)
  | output (p : ConnPtr) (hd : EncHead) (n : Int)
  | onRecv (p : ConnPtr)
  | notifyErr (p : ConnPtr) (err : ErrCode)

/-- The conns packets are output on, with the commands. -/
def outs (as : List ConnAct) : List (ConnPtr × UInt8) :=
  as.filterMap fun
    | .output p hd _ => some (p, hd.mCmd)
    | _ => none

inductive Does : INetGroup → Heap NetConn → ConnAct → INetGroup → Heap NetConn → Prop where
  | childConnErr {g g' : INetGroup} {h : Heap NetConn} {k : String} {p : ConnPtr} {c : NetConn} :
    (k, p) ∈ g.mConns.entries → h.get? p = some c → c.alive = false →
      g.childConnErrCb h p = .ok g' → Does g h (.childConnErr p) g' h
  | output {g : INetGroup} {h : Heap NetConn} {k : String} {p : ConnPtr} {c c' : NetConn}
      {hd : EncHead} {payload : List UInt8} {below : Info → List UInt8 → Except Fault (Int × Unit)}
      {n : Int} :
    (k, p) ∈ g.mConns.entries → h.get? p = some c → c.alive = true →
      c.output hd payload below = .ok (c', n, ()) → Does g h (.output p hd n) g (h.store p c')
  | onRecv {g : INetGroup} {h : Heap NetConn} {p : ConnPtr} {c c' : NetConn} {info : Info}
      {n n' : Int} :
    h.get? p = some c → c.onRecv info n = .ok (c', n') → Does g h (.onRecv p) g (h.store p c')
  | notifyErr {g : INetGroup} {h : Heap NetConn} {p : ConnPtr} {c : NetConn} {err : ErrCode} :
    h.get? p = some c → Does g h (.notifyErr p err) g (h.store p (c.notifyErr err))

/-- A sequence of them. -/
inductive DoesAll : INetGroup → Heap NetConn → List ConnAct → INetGroup → Heap NetConn → Prop where
  | nil (g : INetGroup) (h : Heap NetConn) : DoesAll g h [] g h
  | cons {g g' g'' : INetGroup} {h h' h'' : Heap NetConn} {a : ConnAct} {as : List ConnAct} :
    Does g h a g' h' → DoesAll g' h' as g'' h'' → DoesAll g h (a :: as) g'' h''

theorem DoesAll.single {a : ConnAct} (h₁ : Does g h a g' h') : DoesAll g h [a] g' h' :=
  .cons h₁ (.nil g' h')

/-- What the group does is done one after the other. -/
theorem DoesAll.append {as bs : List ConnAct} (h₁ : DoesAll g h as g' h')
    (h₂ : DoesAll g' h' bs g'' h'') : DoesAll g h (as ++ bs) g'' h'' := by
  induction h₁ with
  | nil => exact h₂
  | cons hd _ ih => exact .cons hd (ih h₂)

/-- What every single action preserves, every sequence does. -/
theorem DoesAll.induct {T : INetGroup → Heap NetConn → INetGroup → Heap NetConn → Prop}
    (hrefl : ∀ g h, T g h g h)
    (htrans : ∀ g h g' h' g'' h'', T g h g' h' → T g' h' g'' h'' → T g h g'' h'')
    (hdoes : ∀ g h a g' h', Does g h a g' h' → T g h g' h') {as : List ConnAct}
    (hall : DoesAll g h as g' h') : T g h g' h' := by
  induction hall with
  | nil g h => exact hrefl g h
  | cons hd _ ih => exact htrans _ _ _ _ _ _ (hdoes _ _ _ _ _ hd) ih

/-- What one pass of the loop of `doSend` can do with the conn it picks. -/
theorem doSendPass_cases {call : SendCall} {pick : Nat} {r : Option Int}
    (hr : doSendPass call pick g h = .ok (g', h', r)) :
    ∃ k p c, g.mConns.entries[pick % g.mConns.size]? = some (k, p) ∧ h.get? p = some c ∧
      ((c.alive = true ∧ (call.keyOfConnToReset ≠ 0 ∧ c.intKey = call.keyOfConnToReset) ∧
          g' = g ∧ h' = h ∧ r = none) ∨
        (c.alive = true ∧ ¬ (call.keyOfConnToReset ≠ 0 ∧ c.intKey = call.keyOfConnToReset) ∧
          ∃ c' n, c.output call.hd call.payload call.below = .ok (c', n, ()) ∧
            g' = g ∧ h' = h.store p c' ∧ r = some n) ∨
        (c.alive = false ∧ g.childConnErrCb h p = .ok g' ∧ h' = h ∧ r = none)) := by
  unfold doSendPass at hr
  split at hr
  · cases hr
  next k p hk =>
  obtain ⟨c, hc, hr⟩ := bind_eq_ok.mp hr
  refine ⟨k, p, c, hk, Heap.deref_eq_ok.mp hc, ?_⟩
  split at hr
  · next halive =>
    split at hr
    · next hreset =>
      cases hr
      exact .inl ⟨halive, hreset, rfl, rfl, rfl⟩
    · next hreset =>
      obtain ⟨⟨c', n, u⟩, hout, hr⟩ := bind_eq_ok.mp hr
      cases hr
      exact .inr (.inl ⟨halive, hreset, c', n, hout, rfl, rfl, rfl⟩)
  · next halive =>
    obtain ⟨g₁, hg₁, hr⟩ := bind_eq_ok.mp hr
    cases hr
    exact .inr (.inr ⟨by simpa using halive, hg₁, rfl, rfl⟩)

theorem outs_append (as bs : List ConnAct) : outs (as ++ bs) = outs as ++ outs bs :=
  List.filterMap_append

/-- What a pass does, and what it sends over. -/
theorem doesAll_doSendPass {call : SendCall} {pick : Nat} {r : Option Int}
    (hr : doSendPass call pick g h = .ok (g', h', r)) :
    ∃ as, DoesAll g h as g' h' ∧
      outs as = (doSendLoopConn call [pick] g h).toList.map (·, call.hd.mCmd) := by
  have hconn : doSendLoopConn call [pick] g h =
      if r.isSome then (g.mConns.entries[pick % g.mConns.size]?).map Prod.snd else none := by
    rw [doSendLoopConn, hr]
    cases r <;> rfl
  obtain ⟨k, p, c, hk, hc, hcases⟩ := doSendPass_cases hr
  have hmem : (k, p) ∈ g.mConns.entries := List.mem_of_getElem? hk
  rw [hconn, hk]
  rcases hcases with ⟨-, -, rfl, rfl, rfl⟩ | ⟨halive, -, c', n, hout, rfl, rfl, rfl⟩ |
    ⟨hdead, hg', rfl, rfl⟩
  · exact ⟨[], .nil _ _, rfl⟩
  · exact ⟨_, .single (.output hmem hc halive hout), rfl⟩
  · exact ⟨_, .single (.childConnErr hmem hc hdead hg'), rfl⟩

theorem picked_of_empty (pick : Nat) (hsize : g.mConns.size = 0) :
    g.mConns.entries[pick % g.mConns.size]? = none := by
  rw [List.eq_nil_of_length_eq_zero hsize]
  rfl

/-- With no conns the loop ends at once. -/
theorem doSendLoop_of_empty (call : SendCall) (picks : List Nat) (hsize : g.mConns.size = 0) :
    doSendLoop call picks g h = .ok (g, h, some errNoConn) ∧
      doSendLoopConn call picks g h = none := by
  have hloop : doSendLoop call picks g h = .ok (g, h, some errNoConn) := by
    unfold doSendLoop
    rw [if_pos hsize]
    rfl
  refine ⟨hloop, ?_⟩
  cases picks with
  | nil => rfl
  | cons pick picks =>
    rw [doSendLoopConn, doSendPass, picked_of_empty pick hsize]

/-- What the loop does. -/
theorem doesAll_doSendLoop {call : SendCall} {picks : List Nat} {r : Option Int}
    (hr : doSendLoop call picks g h = .ok (g', h', r)) :
    ∃ as, DoesAll g h as g' h' ∧
      outs as = (doSendLoopConn call picks g h).toList.map (·, call.hd.mCmd) := by
  induction picks generalizing g h with
  | nil =>
    unfold doSendLoop at hr
    split at hr
    · cases hr
      exact ⟨[], .nil _ _, rfl⟩
    · cases hr
      exact ⟨[], .nil _ _, rfl⟩
  | cons pick picks ih =>
    by_cases hsize : g.mConns.size = 0
    · obtain ⟨hloop, hconn⟩ := doSendLoop_of_empty (h := h) call (pick :: picks) hsize
      rw [hconn]
      cases hloop.symm.trans hr
      exact ⟨[], .nil _ _, rfl⟩
    · unfold doSendLoop at hr
      rw [if_neg hsize] at hr
      obtain ⟨⟨g₁, h₁, r₁⟩, hpass, hr⟩ := bind_eq_ok.mp hr
      obtain ⟨as, hall, houts⟩ := doesAll_doSendPass hpass
      simp only [doSendLoopConn, hpass] at houts ⊢
      cases r₁ with
      | some n =>
        cases hr
        exact ⟨as, hall, houts⟩
      | none =>
        obtain ⟨bs, hall', houts'⟩ := ih hr
        refine ⟨as ++ bs, hall.append hall', ?_⟩
        rw [outs_append, houts, houts']
        rfl

/-- What `doSend` does: it sends over one conn at most. -/
theorem doesAll_doSend {call : SendCall} {r : Option Int} (hr : g.doSend h call = .ok (g', h', r)) :
    ∃ as, DoesAll g h as g' h' ∧
      outs as = (g.doSendConn h call).toList.map (·, call.hd.mCmd) := by
  unfold doSend at hr
  unfold doSendConn
  split at hr
  · next hlen =>
    rw [if_pos hlen]
    exact doesAll_doSendLoop hr
  · next hlen =>
    cases hr
    rw [if_neg hlen]
    exact ⟨[], .nil _ _, rfl⟩

theorem doesAll_doSends {calls : List SendCall} (hr : g.doSends h calls = .ok (g', h')) :
    ∃ as, DoesAll g h as g' h' := by
  induction calls generalizing g h with
  | nil =>
    cases hr
    exact ⟨[], .nil _ _⟩
  | cons call calls ih =>
    obtain ⟨⟨g₁, h₁, r⟩, hcall, hrest⟩ := bind_eq_ok.mp hr
    obtain ⟨as, hall, -⟩ := doesAll_doSend hcall
    obtain ⟨bs, hall'⟩ := ih hrest
    exact ⟨as ++ bs, hall.append hall'⟩

/-- What a packet makes a conn do. -/
theorem doesAll_connInput {info : Info} {ups : List SendCall} {n n' : Int}
    (hr : g.connInput h p info ups n = .ok (g', h', n')) : ∃ as, DoesAll g h as g' h' := by
  obtain ⟨⟨g₁, h₁⟩, hups, hr⟩ := bind_eq_ok.mp hr
  obtain ⟨c, hc, hr⟩ := bind_eq_ok.mp hr
  obtain ⟨⟨c', n₁⟩, hrecv, hr⟩ := bind_eq_ok.mp hr
  cases hr
  obtain ⟨as, hall⟩ := doesAll_doSends hups
  exact ⟨_, hall.append (.single (.onRecv (Heap.deref_eq_ok.mp hc) hrecv))⟩

theorem doesAll_notifyErr {err : ErrCode} {b : Bool} (hr : g.notifyErr h k err = .ok (h', b)) :
    ∃ as, DoesAll g h as g h' ∧ outs as = [] := by
  obtain ⟨conn, -, hr⟩ := bind_eq_ok.mp hr
  cases conn with
  | some p =>
    obtain ⟨c, hc, hr⟩ := bind_eq_ok.mp hr
    cases hr
    exact ⟨_, .single (.notifyErr (Heap.deref_eq_ok.mp hc)), rfl⟩
  | none =>
    cases hr
    exact ⟨[], .nil _ _, rfl⟩

/-! ### The dead conns a `Flush` finds -/

theorem Inv.exists_of_mem (hI : Inv P g h) {e : String × ConnPtr} (he : e ∈ g.mConns.entries) :
    ∃ c, h.get? e.2 = some c ∧ c.key = e.1 := by
  obtain ⟨e', he', rfl⟩ := List.mem_map.mp (hI.perm.mem_iff.mp he)
  obtain ⟨c, hc, hk, -⟩ := hI.conn e' he'
  exact ⟨c, hc, congrArg strForIntKey hk⟩

theorem Inv.nodup_ptrs (hI : Inv P g h) : (g.mConns.entries.map Prod.snd).Nodup := by
  refine (List.nodup_map_iff_inj_on g.mConns.nodup_entries).mpr ?_
  intro e he e' he' heq
  obtain ⟨c, hc, hk⟩ := hI.exists_of_mem he
  obtain ⟨c', hc', hk'⟩ := hI.exists_of_mem he'
  rw [heq, hc'] at hc
  obtain rfl : c' = c := Option.some.inj hc
  exact Prod.ext (hk.symm.trans hk') heq

/-- The conns that are found are dead. -/
theorem fails_spec {l : List (String × ConnPtr)} {ps : List ConnPtr} (hr : fails h l = .ok ps) :
    ps.Sublist (l.map Prod.snd) ∧ ∀ p ∈ ps, ∃ c, h.get? p = some c ∧ c.alive = false := by
  induction l generalizing ps with
  | nil =>
    obtain rfl : [] = ps := Except.ok.inj hr
    simp
  | cons e l ih =>
    obtain ⟨c, hc, hr⟩ := bind_eq_ok.mp hr
    obtain ⟨ps', hps', hr⟩ := bind_eq_ok.mp hr
    obtain rfl := Except.ok.inj hr
    obtain ⟨hsub, hdead⟩ := ih hps'
    cases hb : c.alive with
    | true =>
      rw [if_pos rfl]
      exact ⟨hsub.trans (List.sublist_cons_self ..), hdead⟩
    | false =>
      rw [if_neg (by decide)]
      refine ⟨hsub.cons_cons e.2, ?_⟩
      intro p hp
      rcases List.mem_cons.mp hp with rfl | hp
      · exact ⟨c, Heap.deref_eq_ok.mp hc, hb⟩
      · exact hdead p hp

/-- A dead conn is taken out of both tables and queued. -/
theorem childConnErrCb_cases (hr : g.childConnErrCb h p = .ok g') :
    ∃ c, h.get? p = some c ∧
      g' = { g with mConns := g.mConns.erase c.key, mConnMap := g.mConnMap.erase c.intKey,
                    mHandler := g.mHandler.erase p ++ [p] } := by
  obtain ⟨g₁, hg₁, hr⟩ := bind_eq_ok.mp hr
  obtain rfl := Except.ok.inj hr
  obtain ⟨c, hc, hg₁⟩ := bind_eq_ok.mp hg₁
  obtain ⟨-, -, hg₁⟩ := bind_eq_ok.mp hg₁
  obtain ⟨-, -, hg₁⟩ := bind_eq_ok.mp hg₁
  obtain rfl := Except.ok.inj hg₁
  exact ⟨c, Heap.deref_eq_ok.mp hc, rfl⟩

theorem doesAll_onConnsDead {ps : List ConnPtr} (hI : Inv P g h) (hnd : ps.Nodup)
    (hmem : ∀ p ∈ ps, p ∈ g.mConns.entries.map Prod.snd)
    (hdead : ∀ p ∈ ps, ∃ c, h.get? p = some c ∧ c.alive = false)
    (hr : g.onConnsDead h ps = .ok g') : ∃ as, DoesAll g h as g' h ∧ outs as = [] := by
  induction ps generalizing g with
  | nil =>
    cases hr
    exact ⟨[], .nil _ _, rfl⟩
  | cons p ps ih =>
    obtain ⟨hp, hnd'⟩ := List.nodup_cons.mp hnd
    obtain ⟨g₁, hg₁, hrest⟩ := bind_eq_ok.mp hr
    obtain ⟨c, hc, halive⟩ := hdead p List.mem_cons_self
    obtain ⟨⟨k, q⟩, hk, rfl⟩ := List.mem_map.mp (hmem p List.mem_cons_self)
    have hI₁ : Inv P g₁ h := by
      obtain ⟨g₂, hg₂, hret⟩ := bind_eq_ok.mp hg₁
      obtain rfl := Except.ok.inj hret
      obtain ⟨g₃, hg₃, hI₃⟩ := removeConn_spec hI hc
      obtain rfl : g₃ = g₂ := Except.ok.inj (hg₃.symm.trans hg₂)
      exact ⟨hI₃.perm, hI₃.conn⟩
    have hmem₁ : ∀ p ∈ ps, p ∈ g₁.mConns.entries.map Prod.snd := by
      intro p' hp'
      obtain ⟨e, he, rfl⟩ := List.mem_map.mp (hmem p' (List.mem_cons_of_mem _ hp'))
      obtain ⟨c', hc', rfl⟩ := childConnErrCb_cases hg₁
      refine List.mem_map_of_mem (StdMap.mem_erase.mpr ⟨he, ?_⟩)
      intro hs
      -- the entry under that key is the one of the dead conn
      obtain ⟨d, hd, hkey⟩ := hI.exists_of_mem hk
      obtain rfl : d = c' := Option.some.inj (hd.symm.trans hc')
      rw [hkey] at hs
      exact hp (g.mConns.eq_of_same he hk hs ▸ hp')
    obtain ⟨as, hall, houts⟩ :=
      ih hI₁ hnd' hmem₁ (fun p hp => hdead p (List.mem_cons_of_mem _ hp)) hrest
    exact ⟨_, .cons (.childConnErr hk hc halive hg₁) hall, houts⟩

/-- A flush queues dead conns, and sends nothing. -/
theorem doesAll_flush (hI : Inv P g h) (hr : g.flush h = .ok g') :
    ∃ as, DoesAll g h as g' h ∧ outs as = [] := by
  obtain ⟨ps, hps, hdead⟩ := bind_eq_ok.mp hr
  obtain ⟨hsub, hfail⟩ := fails_spec hps
  refine doesAll_onConnsDead hI (hsub.nodup hI.nodup_ptrs) ?_ hfail hdead
  intro p hp
  exact hsub.subset hp

/-! ## What every operation keeps -/

/-- From `g` and `h` to `g'` and `h'` no conn has changed its kind, key or addresses, and the
    invariant still holds. -/
structure Keeps (P : NetConn → Prop) (g : INetGroup) (h : Heap NetConn) (g' : INetGroup)
    (h' : Heap NetConn) : Prop where
  evolves : Heap.Evolves Like h h'
  inv : Inv P g h → Inv P g' h'

theorem Keeps.refl (P : NetConn → Prop) (g : INetGroup) (h : Heap NetConn) : Keeps P g h g h :=
  ⟨Heap.evolves_refl like_refl h, id⟩

/-- What is kept twice is kept. -/
theorem Keeps.trans (h₁ : Keeps P g h g' h') (h₂ : Keeps P g' h' g'' h'') : Keeps P g h g'' h'' :=
  ⟨h₁.evolves.trans like_trans h₂.evolves, fun hI => h₂.inv (h₁.inv hI)⟩

theorem keeps_removeConn (hr : g.removeConn h p = .ok g') : Keeps P g h g' h := by
  refine ⟨Heap.evolves_refl like_refl h, ?_⟩
  intro hI
  obtain ⟨c, hc, -⟩ := bind_eq_ok.mp hr
  obtain ⟨g'', hg'', hI'⟩ := removeConn_spec hI (Heap.deref_eq_ok.mp hc)
  obtain rfl : g'' = g' := Except.ok.inj (hg''.symm.trans hr)
  exact hI'

theorem keeps_childConnErrCb (hr : g.childConnErrCb h p = .ok g') : Keeps P g h g' h := by
  obtain ⟨g₁, hg₁, hr⟩ := bind_eq_ok.mp hr
  obtain rfl := Except.ok.inj hr
  obtain ⟨hev, hinv⟩ : Keeps P g h g₁ h := keeps_removeConn hg₁
  refine ⟨hev, ?_⟩
  intro hI
  exact ⟨(hinv hI).perm, (hinv hI).conn⟩

theorem keeps_onConnsDead {ps : List ConnPtr} (hr : g.onConnsDead h ps = .ok g') :
    Keeps P g h g' h := by
  induction ps generalizing g with
  | nil =>
    obtain rfl : g = g' := Except.ok.inj hr
    exact Keeps.refl P _ _
  | cons p ps ih =>
    obtain ⟨g₁, hg₁, hrest⟩ := bind_eq_ok.mp hr
    exact (keeps_childConnErrCb hg₁).trans (ih hrest)

theorem keeps_flush (hr : g.flush h = .ok g') : Keeps P g h g' h := by
  obtain ⟨ps, -, hdead⟩ := bind_eq_ok.mp hr
  exact keeps_onConnsDead hdead

section Stable

variable (hP : ∀ c c', Like c c' → P c → P c')

include hP

theorem keeps_of_evolves (hh : Heap.Evolves Like h h') : Keeps P g h g h' :=
  ⟨hh, fun hI => hI.evolves hP hh⟩

theorem keeps_store (hc : h.get? p = some c) (hl : Like c c') : Keeps P g h g (h.store p c') :=
  keeps_of_evolves hP (Heap.evolves_store like_refl hc hl)

theorem keeps_addNetConn (hPc : P c) (hr : g.addNetConn (h.alloc c).1 (h.alloc c).2 = .ok g') :
    Keeps P g h g' (h.alloc c).1 := by
  have hh : Heap.Evolves Like h (h.alloc c).1 := Heap.evolves_alloc like_refl h c
  refine ⟨hh, ?_⟩
  intro hI
  obtain ⟨g'', hg'', hI'⟩ := addNetConn_spec (hI.evolves hP hh) Heap.get?_alloc_self hPc
  obtain rfl : g'' = g' := Except.ok.inj (hg''.symm.trans hr)
  exact hI'

/-- Whatever the group does, its tables stay right. -/
theorem keeps_doesAll {as : List ConnAct} (hall : DoesAll g h as g' h') : Keeps P g h g' h' := by
  refine DoesAll.induct (T := Keeps P) (Keeps.refl P) (fun _ _ _ _ _ _ => Keeps.trans) ?_ hall
  intro g h a g' h' hdoes
  cases hdoes with
  | childConnErr _ _ _ hr => exact keeps_childConnErrCb hr
  | output _ hc _ hout => exact keeps_store hP hc (like_output hout)
  | onRecv hc hrecv => exact keeps_store hP hc (like_onRecv hrecv)
  | notifyErr hc => exact keeps_store hP hc (like_notifyErr _ _)

theorem keeps_doSend {call : SendCall} {r : Option Int}
    (hr : g.doSend h call = .ok (g', h', r)) : Keeps P g h g' h' := by
  obtain ⟨as, hall, -⟩ := doesAll_doSend hr
  exact keeps_doesAll hP hall

theorem keeps_doSends {calls : List SendCall} (hr : g.doSends h calls = .ok (g', h')) :
    Keeps P g h g' h' := by
  obtain ⟨as, hall⟩ := doesAll_doSends hr
  exact keeps_doesAll hP hall

theorem keeps_connInput {info : Info} {ups : List SendCall} {n n' : Int}
    (hr : g.connInput h p info ups n = .ok (g', h', n')) : Keeps P g h g' h' := by
  obtain ⟨as, hall⟩ := doesAll_connInput hr
  exact keeps_doesAll hP hall

/-- A packet keeps them right, if the conns that are created for packets are. -/
theorem keeps_input {σ : Type}
    {createNetConn : σ → IntKeyType → Info → Except Fault (σ × Option NetConn)}
    (hcreate : ∀ st k info st' c, createNetConn st k info = .ok (st', some c) → P c)
    {st st' : σ} {info : Info} {ups : List SendCall} {n n' : Int}
    (hr : input createNetConn st g h info ups n = .ok (st', g', h', n')) : Keeps P g h g' h' := by
  obtain ⟨head, -, hcases⟩ := input_eq_ok_iff.mp hr
  rcases hcases with ⟨p, -, -, hin⟩ | ⟨c, g₁, -, hnew, hadd, hin⟩ | ⟨-, -, hups, -⟩
  · exact keeps_connInput hP hin
  · have hPc : P c := hcreate _ _ _ _ _ hnew
    exact (keeps_addNetConn hP hPc hadd).trans (keeps_connInput hP hin)
  · exact keeps_doSends hP hups

theorem keeps_notifyErr {err : ErrCode} {b : Bool} (hr : g.notifyErr h k err = .ok (h', b)) :
    Keeps P g h g h' := by
  obtain ⟨as, hall, -⟩ := doesAll_notifyErr hr
  exact keeps_doesAll hP hall

end Stable

end INetGroup

end Rsock
