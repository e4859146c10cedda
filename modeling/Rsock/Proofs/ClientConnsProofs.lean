import Rsock.ClientConns
import Rsock.Proofs.IGroupProofs
import Rsock.Proofs.SockAppProofs

/-!
# Proofs: the conversations of the client

`mConns` and `mConvMap` are kept in step by every way a conn comes and goes, as long as the counter
does not give out the number of a conn that is still there, and a packet goes back to where the
datagrams of its conversation come from, as long as that is not a Unix socket.
-/

namespace Rsock

open CMem TransSys

theorem same_conv {a b : UInt32} : StdMap.Same (· < ·) a b ↔ a = b :=
  (StdMap.same_iff_rank_eq (f := UInt32.toNat) fun _ _ => UInt32.lt_iff_toNat_lt).trans
    UInt32.toNat_inj

/-- Addresses with the same key are the same. -/
theorem CConn.buildKey_inet_inj {a a' : UInt32} {port port' : UInt16}
    (h : CConn.buildKey (.inet a port) = CConn.buildKey (.inet a' port')) :
    SockAddr.inet a port = .inet a' port' := by
  have hval : ∀ (x : UInt32) (y : UInt16),
      (x.toUInt64 <<< 32 ||| y.toUInt64).toNat = x.toNat * 2 ^ 32 + y.toNat := by
    intro x y
    have hx : x.toNat < 2 ^ 32 := x.toNat_lt
    have hy : y.toNat < 2 ^ 32 := Nat.lt_trans y.toNat_lt (by decide)
    have hshift : (x.toUInt64 <<< 32).toNat = x.toNat <<< 32 := by
      rw [UInt64.toNat_shiftLeft, UInt32.toNat_toUInt64]
      apply Nat.mod_eq_of_lt
      have : UInt64.toNat 32 % 64 = 32 := by decide
      rw [this, Nat.shiftLeft_eq]
      omega
    rw [UInt64.toNat_or, hshift, UInt16.toNat_toUInt64, ← Nat.shiftLeft_add_eq_or_of_lt hy,
      Nat.shiftLeft_eq]
  have hkey := congrArg UInt64.toNat (KeyGenerator.strForIntKey_injective h)
  rw [hval, hval] at hkey
  have hp : port.toNat < 2 ^ 16 := port.toNat_lt
  have hp' : port'.toNat < 2 ^ 16 := port'.toNat_lt
  obtain rfl : a = a' := UInt32.toNat_inj.mp (by omega)
  obtain rfl : port = port' := UInt16.toNat_inj.mp (by omega)
  rfl

/-- A reset closes a conn or does nothing. -/
theorem ConnReset.inputConvRst_cases {σ β : Type} {conns : σ → IGroup (IConn β)}
    {closeConn : σ → Ptr → Except Fault σ} {s s' : σ} {o : ByteOrder} {info : ConnInfo}
    {payload : List UInt8} {n : Int}
    (hr : inputConvRst conns closeConn s o info payload = .ok (s', n)) :
    s' = s ∨ ∃ p, closeConn s p = .ok s' := by
  unfold inputConvRst at hr
  split at hr
  · obtain ⟨⟨v, rest⟩, -, hr⟩ := bind_eq_ok.mp hr
    dsimp only at hr
    unfold onRecvConvRst at hr
    split at hr
    next p _ =>
      obtain ⟨s₁, hs₁, hr⟩ := bind_eq_ok.mp hr
      obtain rfl := (Prod.mk.inj (Except.ok.inj hr)).1
      exact .inr ⟨p, hs₁⟩
    next => exact .inl (Prod.mk.inj (Except.ok.inj hr)).1.symm
  · exact .inl (Prod.mk.inj (Except.ok.inj hr)).1.symm

namespace ClientConns

variable {s s' : ClientConns} {p q : Ptr} {o : CConn} {v : UInt32}

/-- The group has a conn with these members at `p`. -/
def Has (s : ClientConns) (p : Ptr) (o : CConn) : Prop := ∃ c, s.Live p c ∧ c.obj = o

/-- There is one conn at a pointer. -/
theorem Has.unique {o' : CConn} (h : s.Has p o) (h' : s.Has p o') : o = o' := by
  obtain ⟨c, hc, rfl⟩ := h
  obtain ⟨c', hc', rfl⟩ := h'
  rw [hc.unique hc']

/-! ## What the group promises -/

/-- The addresses whose datagrams are being sent with the number, according to the notes. -/
def usersNote (v : UInt32) (l : List SockAddr) : Note → List SockAddr
  | .sent addr conv _ => if conv = v then addr :: l else l
  | .closed conv => if conv = v then [] else l
  | _ => l

/-- Who uses the number after the notes. -/
def users (v : UInt32) (ns : List Note) : List SockAddr := ns.foldl (usersNote v) []

theorem users_concat (v : UInt32) (ns : List Note) (n : Note) :
    users v (ns ++ [n]) = usersNote v (users v ns) n :=
  List.foldl_concat ..

/-- `mConvMap` holds the conns of the group under their numbers and nothing else. -/
def ConvMapExact (s : ClientConns) : Prop :=
  ∀ v p, (v, p) ∈ s.mConvMap.entries ↔ ∃ c, s.Live p c ∧ c.obj.mConv = v

/-- No two conns have the same number. -/
def ConvsDistinct (s : ClientConns) : Prop :=
  ∀ p q c d, s.Live p c → s.Live q d → c.obj.mConv = d.obj.mConv → p = q

/-- Every data packet is passed on to the one address whose datagrams are sent with its number, or
    answered with a reset if there is none. -/
def Routes (s : ClientConns) : Prop :=
  ∀ (o : ByteOrder) (info : Info) (head : EncHead) (payload : List UInt8) (n : Int),
    info.base.head = some head → head.mCmd = EncHead.typeData → payload ≠ [] →
    ∃ s', s.input o info payload n = .ok s' ∧
      (users head.mConv s.notes = [] ∧ s'.notes = s.notes ++ [.convRst head.mConv] ∨
        ∃ addr ∈ users head.mConv s.notes, (∀ a ∈ users head.mConv s.notes, a = addr) ∧
          s'.notes = s.notes ++ [.delivered (.sockaddr addr) payload])

/-- A datagram comes over UDP, and if it makes a new conn then no conn has the next number. -/
def FreshConv (s : ClientConns) : Event → Prop
  | .udpRecvCb sAddr port payload _ =>
    payload ≠ [] → s.connOfKey (CConn.buildKey (.inet sAddr port)) = none →
      ∀ p c, s.Live p c → c.obj.mConv ≠ s.mConvCounter + 1
  | .pollCb sunPath _ _ => sunPath = []
  | _ => True

/-! ## The invariant -/

/-- What the client's conns keep. -/
structure Inv (s : ClientConns) : Prop where
  conns : IGroup.Inv IConn.ops s.toIGroup
  key : ∀ k p o, (k, p) ∈ s.mConns.entries → s.Has p o → k = CConn.buildKey o.mAddr
  inet : ∀ p o, s.Has p o → ∃ a port, o.mAddr = .inet a port
  map : ∀ v p, (v, p) ∈ s.mConvMap.entries ↔ ∃ o, s.Has p o ∧ o.mConv = v
  users : ∀ v a, a ∈ users v s.notes ↔ ∃ p o, s.Has p o ∧ o.mConv = v ∧ o.mAddr = a

/-- It holds of a group without conns. -/
theorem inv_new (id : IdBufType) : Inv (new id) where
  conns := IGroup.inv_empty _ _
  key k p o hk := by cases hk
  inet := by
    rintro p o ⟨c, ⟨⟨k, hk⟩, -⟩, -⟩
    cases hk
  map v p := by
    constructor
    · intro h
      cases h
    · rintro ⟨o, ⟨c, ⟨⟨k, hk⟩, -⟩, -⟩, -⟩
      cases hk
  users v a := by
    constructor
    · intro h
      cases h
    · rintro ⟨p, o, ⟨c, ⟨⟨k, hk⟩, -⟩, -⟩, -⟩
      cases hk

/-- No two conns have the same number. -/
theorem Inv.eq_of_conv {o' : CConn} (hI : Inv s) (h : s.Has p o) (h' : s.Has q o')
    (hv : o.mConv = o'.mConv) : p = q := by
  have hp := (hI.map o.mConv p).mpr ⟨o, h, rfl⟩
  have hq := (hI.map o.mConv q).mpr ⟨o', h', hv.symm⟩
  exact (Prod.mk.inj (s.mConvMap.eq_of_same hp hq (StdMap.same_refl _))).2

theorem Inv.convMapExact (hI : Inv s) : ConvMapExact s := by
  intro v p
  rw [hI.map]
  constructor
  · rintro ⟨o, ⟨c, hc, rfl⟩, hv⟩
    exact ⟨c, hc, hv⟩
  · rintro ⟨c, hc, hv⟩
    exact ⟨c.obj, ⟨c, hc, rfl⟩, hv⟩

theorem Inv.convsDistinct (hI : Inv s) : ConvsDistinct s := by
  intro p q c d hc hd hv
  exact hI.eq_of_conv ⟨c, hc, rfl⟩ ⟨d, hd, rfl⟩ hv

/-! ## Packets and datagrams of a conn -/

/-- Only the counters of conns change. -/
theorem Inv.of_has (hI : Inv s) (hconns : IGroup.Inv IConn.ops s'.toIGroup)
    (hmConns : s'.mConns = s.mConns) (hmap : s'.mConvMap = s.mConvMap)
    (hhas : ∀ p o, s'.Has p o ↔ s.Has p o) (husers : ∀ v a, a ∈ ClientConns.users v s'.notes ↔
      a ∈ ClientConns.users v s.notes) : Inv s' where
  conns := hconns
  key k p o hk ho := hI.key k p o (hmConns ▸ hk) ((hhas p o).mp ho)
  inet p o ho := hI.inet p o ((hhas p o).mp ho)
  map v p := by
    rw [hmap, hI.map]
    exact exists_congr fun o => and_congr_left' (hhas p o).symm
  users v a := by
    rw [husers, hI.users]
    exact exists_congr fun p => exists_congr fun o => and_congr_left' (hhas p o).symm

theorem has_store {c c' : IConn CConn} (hc : s.Live p c) (hobj : c'.obj = c.obj) :
    Has { s with mHeap := s.mHeap.store p c' } q o ↔ s.Has q o := by
  constructor
  · rintro ⟨d, hd, rfl⟩
    rcases (IGroup.live_store hc).mp hd with ⟨rfl, rfl⟩ | ⟨-, hd⟩
    · exact ⟨c, hc, hobj.symm⟩
    · exact ⟨d, hd, rfl⟩
  · rintro ⟨d, hd, rfl⟩
    by_cases hqp : q = p
    · subst hqp
      obtain rfl := hc.unique hd
      exact ⟨c', (IGroup.live_store hc).mpr (.inl ⟨rfl, rfl⟩), hobj⟩
    · exact ⟨d, (IGroup.live_store hc).mpr (.inr ⟨hqp, hd⟩), rfl⟩

theorem Inv.of_store {c c' : IConn CConn} {n : Note} (hI : Inv s) (hc : s.Live p c)
    (hkey : c'.mKey = c.mKey) (hobj : c'.obj = c.obj)
    (hn : ∀ v a, a ∈ usersNote v (ClientConns.users v s.notes) n ↔ a ∈ ClientConns.users v s.notes) :
    Inv ({ s with mHeap := s.mHeap.store p c' }.note n) := by
  refine hI.of_has (IGroup.inv_store hI.conns hc.2 hkey) rfl rfl (fun q o => has_store hc hobj) ?_
  intro v a
  rw [← hn v a, ← users_concat]
  rfl

/-- What is in `mConvMap` is a conn with the number. -/
theorem Inv.get?_conv (hI : Inv s) (h : s.mConvMap.get? v = some p) :
    ∃ c, s.Live p c ∧ c.obj.mConv = v := by
  have hmem := (StdMap.get?_eq_some_iff same_conv).mp h
  exact (hI.convMapExact v p).mp hmem

/-- A number that is not there belongs to nobody. -/
theorem Inv.users_eq_nil (hI : Inv s) (h : s.mConvMap.get? v = none) :
    ClientConns.users v s.notes = [] := by
  refine List.eq_nil_iff_forall_not_mem.mpr ?_
  intro a ha
  obtain ⟨p, o, ho, hv, -⟩ := (hI.users v a).mp ha
  have hmem := (hI.map v p).mpr ⟨o, ho, hv⟩
  rw [(StdMap.get?_eq_some_iff same_conv).mpr hmem] at h
  cases h

/-- A packet is delivered to the address its number belongs to, or it is answered with a reset. -/
theorem onRecv_spec {payload : List UInt8} {n : Int} (hI : Inv s) (hp : payload ≠ []) :
    ∃ s', s.onRecv v payload n = .ok s' ∧ Inv s' ∧
      (users v s.notes = [] ∧ s'.notes = s.notes ++ [.convRst v] ∨
        ∃ addr ∈ users v s.notes, (∀ a ∈ users v s.notes, a = addr) ∧
          s'.notes = s.notes ++ [.delivered (.sockaddr addr) payload]) := by
  rw [onRecv, cassert_pos (List.length_pos_iff.mpr hp), ok_bind]
  cases hget : s.mConvMap.get? v with
  | none =>
    have hnil := hI.users_eq_nil hget
    refine ⟨_, rfl, ?_, .inl ⟨hnil, rfl⟩⟩
    refine hI.of_has hI.conns rfl rfl (fun p o => Iff.rfl) ?_
    intro v' a
    exact iff_of_eq (congrArg (a ∈ ·) (users_concat v' s.notes _))
  | some p =>
    obtain ⟨c, hc, hv⟩ := hI.get?_conv hget
    obtain ⟨a, port, haddr⟩ := hI.inet p c.obj ⟨c, hc, rfl⟩
    dsimp only
    rw [Heap.deref_eq_ok.mpr hc.2, ok_bind, haddr]
    refine ⟨_, rfl, hI.of_store hc rfl rfl fun _ _ => Iff.rfl, .inr ⟨.inet a port, ?_, ?_, rfl⟩⟩
    · exact (hI.users v _).mpr ⟨p, c.obj, ⟨c, hc, rfl⟩, hv, haddr⟩
    · intro a' ha'
      obtain ⟨q, o', ho', hv', rfl⟩ := (hI.users v a').mp ha'
      obtain rfl := hI.eq_of_conv ho' ⟨c, hc, rfl⟩ (hv'.trans hv.symm)
      rw [ho'.unique ⟨c, hc, rfl⟩]
      exact haddr

/-- So every packet goes where it should. -/
theorem Inv.routes (hI : Inv s) : Routes s := by
  intro o info head payload n hhead hcmd hp
  obtain ⟨s', hr, -, hroute⟩ := onRecv_spec (v := head.mConv) (n := n) hI hp
  refine ⟨s', ?_, hroute⟩
  unfold input
  rw [hhead]
  dsimp only
  rw [if_pos hcmd, if_pos (List.length_pos_iff.mpr hp), hr]

/-! ## Datagrams -/

/-- A conn that is there can send. -/
theorem cconSend_ok {c : IConn CConn} {addr : SockAddr} {payload : List UInt8} {n : Int}
    (hc : s.Live p c) : s.cconSend p addr payload n =
      .ok ({ s with mHeap := s.mHeap.store p (c.send n) }.note (.sent addr c.obj.mConv payload)) := by
  rw [cconSend, Heap.deref_eq_ok.mpr hc.2]
  rfl

/-- A datagram from the address of a conn. -/
theorem inv_cconSend {c : IConn CConn} {payload : List UInt8} {n : Int} (hI : Inv s)
    (hc : s.Live p c) (hr : s.cconSend p c.obj.mAddr payload n = .ok s') : Inv s' := by
  rw [cconSend_ok hc] at hr
  obtain rfl := Except.ok.inj hr
  refine hI.of_store hc rfl rfl ?_
  intro v a
  by_cases hv : c.obj.mConv = v
  · have hself : c.obj.mAddr ∈ ClientConns.users v s.notes :=
      (hI.users v _).mpr ⟨p, c.obj, ⟨c, hc, rfl⟩, hv, rfl⟩
    simp only [usersNote, if_pos hv, List.mem_cons]
    exact ⟨fun h => h.elim (fun he => he ▸ hself) id, .inr⟩
  · simp only [usersNote, if_neg hv]

/-- From `s` to `s'` a conn for the address has been added, and its first datagram sent. -/
structure Adds (addr : SockAddr) (v : UInt32) (payload : List UInt8) (s s' : ClientConns) : Prop where
  conns : IGroup.Inv IConn.ops s'.toIGroup
  key : ∀ k p, (k, p) ∈ s'.mConns.entries →
    (k, p) ∈ s.mConns.entries ∨ k = CConn.buildKey addr ∧ p = s.mHeap.cells.length
  has : ∀ p o, s'.Has p o ↔ s.Has p o ∨ p = s.mHeap.cells.length ∧ o = ⟨addr, v⟩
  map : s'.mConvMap = s.mConvMap.emplace v s.mHeap.cells.length
  notes : s'.notes = s.notes ++ [.sent addr v payload]

theorem live_newConn {k : String} {addr : SockAddr} {d : IConn CConn}
    (hI : IGroup.Inv IConn.ops s.toIGroup) (hkey : s.connOfKey k = none) :
    (s.newConn k addr v).1.Live q d ↔
      s.Live q d ∨ q = s.mHeap.cells.length ∧ d = { mKey := k, obj := ⟨addr, v⟩ } := by
  let conn : IConn CConn := { mKey := k, obj := ⟨addr, v⟩ }
  have hfree : s.toIGroup.connOfKey (IConn.ops.key conn) = none := hkey
  exact IGroup.live_addConn hI hfree

/-- A new conn is added to those that are there. -/
theorem has_newConn {k : String} {addr : SockAddr} (hI : IGroup.Inv IConn.ops s.toIGroup)
    (hkey : s.connOfKey k = none) :
    (s.newConn k addr v).1.Has q o ↔
      s.Has q o ∨ q = s.mHeap.cells.length ∧ o = ⟨addr, v⟩ := by
  constructor
  · rintro ⟨d, hd, rfl⟩
    rcases (live_newConn hI hkey).mp hd with hd | ⟨hq, rfl⟩
    · exact .inl ⟨d, hd, rfl⟩
    · exact .inr ⟨hq, rfl⟩
  · rintro (⟨d, hd, rfl⟩ | ⟨hq, rfl⟩)
    · exact ⟨d, (live_newConn hI hkey).mpr (.inl hd), rfl⟩
    · exact ⟨_, (live_newConn hI hkey).mpr (.inr ⟨hq, rfl⟩), rfl⟩

theorem adds_newConn (payload : List UInt8) (n : Int) {k : String} {addr : SockAddr}
    (hI : IGroup.Inv IConn.ops s.toIGroup) (hk : k = CConn.buildKey addr)
    (hkey : s.connOfKey k = none) :
    ∃ s', (s.newConn k addr v).1.cconSend s.mHeap.cells.length addr payload n = .ok s' ∧
      Adds addr v payload s s' := by
  let conn : IConn CConn := { mKey := k, obj := ⟨addr, v⟩ }
  have hconn : (s.newConn k addr v).1.Live s.mHeap.cells.length conn :=
    (live_newConn hI hkey).mpr (.inr ⟨rfl, rfl⟩)
  refine ⟨_, cconSend_ok hconn, ?_, ?_, ?_, rfl, rfl⟩
  · exact IGroup.inv_store (IGroup.inv_addConn hI) hconn.2 rfl
  · intro k' p hmem
    rcases IGroup.mem_addConn.mp hmem with hmem | ⟨-, heq⟩
    · exact .inl hmem
    · obtain ⟨rfl, rfl⟩ := Prod.mk.inj heq
      exact .inr ⟨hk, rfl⟩
  · intro p o
    have hobj : (conn.send n).obj = conn.obj := rfl
    exact (has_store hconn hobj).trans (has_newConn hI hkey)

/-- A datagram of an address without a conn makes one. -/
theorem adds_onLocalRecv (payload : List UInt8) (n : Int) {addr : SockAddr}
    (hI : IGroup.Inv IConn.ops s.toIGroup) (hkey : s.connOfKey (CConn.buildKey addr) = none) :
    ∃ s', s.onLocalRecv addr payload n = .ok s' ∧ Adds addr (s.mConvCounter + 1) payload s s' := by
  let s₀ : ClientConns := { s with mConvCounter := s.mConvCounter + 1 }
  obtain ⟨s', hs', hadds⟩ := adds_newConn (s := s₀) (v := s₀.mConvCounter) payload n hI
    rfl hkey
  refine ⟨s', ?_, hadds.conns, hadds.key, hadds.has, hadds.map, hadds.notes⟩
  unfold onLocalRecv
  dsimp only
  rw [hkey]
  exact hs'

/-- A datagram of an address with a conn is sent by it. -/
theorem onLocalRecv_of_connOfKey {addr : SockAddr} {payload : List UInt8} {n : Int}
    (hkey : s.connOfKey (CConn.buildKey addr) = some p) :
    s.onLocalRecv addr payload n = s.cconSend p addr payload n := by
  unfold onLocalRecv
  dsimp only
  rw [hkey]

theorem Has.lt_length (hI : IGroup.Inv IConn.ops s.toIGroup) (h : s.Has p o) :
    p < s.mHeap.cells.length := by
  obtain ⟨c, hc, -⟩ := h
  exact hI.lt_of_holds hc.1

theorem Inv.get?_conv_eq_none (hI : Inv s) (hfresh : ∀ p o, s.Has p o → o.mConv ≠ v) :
    s.mConvMap.get? v = none := by
  refine Option.eq_none_iff_forall_ne_some.mpr ?_
  intro q hq
  obtain ⟨c, hc, hv⟩ := hI.get?_conv hq
  exact hfresh q c.obj ⟨c, hc, rfl⟩ hv

/-- The first datagram from an address, with a number no conn has. -/
theorem Adds.inv {a : UInt32} {port : UInt16} {payload : List UInt8}
    (h : Adds (.inet a port) v payload s s') (hI : Inv s) (hfresh : ∀ p o, s.Has p o → o.mConv ≠ v) :
    Inv s' := by
  refine ⟨h.conns, ?_, ?_, ?_, ?_⟩
  · intro k p o hmem ho
    rcases h.key k p hmem with hmem | ⟨hk, rfl⟩
    · rcases (h.has p o).mp ho with ho | ⟨rfl, -⟩
      · exact hI.key k p o hmem ho
      · exact absurd (hI.conns.lt_of_holds ⟨k, hmem⟩) (Nat.lt_irrefl _)
    · rcases (h.has _ o).mp ho with ho | ⟨-, rfl⟩
      · exact absurd (ho.lt_length hI.conns) (Nat.lt_irrefl _)
      · exact hk
  · intro p o ho
    rcases (h.has p o).mp ho with ho | ⟨-, rfl⟩
    · exact hI.inet p o ho
    · exact ⟨a, port, rfl⟩
  · intro v' p
    have hfree : s.mConvMap.find? v = none := Option.map_eq_none_iff.mp (hI.get?_conv_eq_none hfresh)
    rw [h.map, StdMap.mem_emplace, hI.map]
    constructor
    · rintro (⟨o, ho, hv⟩ | ⟨-, heq⟩)
      · exact ⟨o, (h.has p o).mpr (.inl ho), hv⟩
      · obtain ⟨rfl, rfl⟩ := Prod.mk.inj heq
        exact ⟨_, (h.has _ _).mpr (.inr ⟨rfl, rfl⟩), rfl⟩
    · rintro ⟨o, ho, rfl⟩
      rcases (h.has p o).mp ho with ho | ⟨rfl, rfl⟩
      · exact .inl ⟨o, ho, rfl⟩
      · exact .inr ⟨hfree, rfl⟩
  · intro v' a'
    have hmem : a' ∈ usersNote v' (ClientConns.users v' s.notes) (.sent (.inet a port) v payload) ↔
        a' ∈ ClientConns.users v' s.notes ∨ v = v' ∧ a' = .inet a port := by
      by_cases hv : v = v' <;> simp [usersNote, hv, or_comm]
    rw [h.notes, users_concat, hmem, hI.users]
    constructor
    · rintro (⟨p, o, ho, h'⟩ | ⟨hv, rfl⟩)
      · exact ⟨p, o, (h.has p o).mpr (.inl ho), h'⟩
      · exact ⟨_, _, (h.has _ _).mpr (.inr ⟨rfl, rfl⟩), hv, rfl⟩
    · rintro ⟨p, o, ho, rfl, rfl⟩
      rcases (h.has p o).mp ho with ho | ⟨-, rfl⟩
      · exact .inl ⟨p, o, ho, rfl, rfl⟩
      · exact .inr ⟨rfl, rfl⟩

/-! ## Closing conns -/

/-- What the closing of a conn does. -/
theorem closeConn_cases (hr : s.closeConn p = .ok s') :
    ∃ c, s.Live p c ∧ s.toIGroup.closeConn IConn.ops p = .ok s'.toIGroup ∧
      s'.mConvMap = s.mConvMap.erase c.obj.mConv ∧ s'.notes = s.notes ++ [.closed c.obj.mConv] := by
  obtain ⟨c, hc, hr⟩ := bind_eq_ok.mp hr
  obtain ⟨⟨⟩, hkey, hr⟩ := bind_eq_ok.mp hr
  obtain ⟨⟨⟩, hfound, hr⟩ := bind_eq_ok.mp hr
  obtain ⟨s₁, hs₁, hr⟩ := bind_eq_ok.mp hr
  obtain ⟨g, hg, hs₁⟩ := bind_eq_ok.mp hs₁
  obtain ⟨c₁, hc₁, hs₁⟩ := bind_eq_ok.mp hs₁
  obtain rfl : c = c₁ := Except.ok.inj (hc.symm.trans hc₁)
  obtain rfl := Except.ok.inj hs₁
  obtain ⟨h, hh, hr⟩ := bind_eq_ok.mp hr
  obtain rfl := Except.ok.inj hr
  have hmem := IGroup.mem_of_connOfKey (cassert_eq_ok.mp hfound)
  refine ⟨c, ⟨⟨_, hmem⟩, Heap.deref_eq_ok.mp hc⟩, ?_, rfl, rfl⟩
  rw [IGroup.closeConn, hc, ok_bind]
  have hkey' : cassert (IConn.ops.key c ≠ s.mKey) = .ok () := hkey
  have hfound' : cassert (s.connOfKey (IConn.ops.key c) = some p) = .ok () := hfound
  rw [hkey', ok_bind, hfound', ok_bind, hg, ok_bind, hh]
  rfl

/-- The other conns are still there. -/
theorem has_closeConn (hI : IGroup.Inv IConn.ops s.toIGroup) (hr : s.closeConn p = .ok s') :
    s'.Has q o ↔ s.Has q o ∧ q ≠ p := by
  obtain ⟨c, -, hclose, -⟩ := closeConn_cases hr
  simp only [Has, IGroup.live_closeConn hI hclose]
  constructor
  · rintro ⟨d, ⟨hd, hne⟩, ho⟩
    exact ⟨⟨d, hd, ho⟩, hne⟩
  · rintro ⟨⟨d, hd, ho⟩, hne⟩
    exact ⟨d, ⟨hd, hne⟩, ho⟩

/-- The invariant holds without the conn. -/
theorem inv_closeConn (hI : Inv s) (hr : s.closeConn p = .ok s') : Inv s' := by
  have hhas : ∀ q o, s'.Has q o ↔ s.Has q o ∧ q ≠ p := fun q o => has_closeConn hI.conns hr
  obtain ⟨c, hc, hclose, hmap, hnotes⟩ := closeConn_cases hr
  have hself : s.Has p c.obj := ⟨c, hc, rfl⟩
  -- no other conn has the number
  have hconv : ∀ q o, s.Has q o → (o.mConv ≠ c.obj.mConv ↔ q ≠ p) := by
    intro q o ho
    refine not_congr ⟨fun hv => hI.eq_of_conv ho hself hv, ?_⟩
    rintro rfl
    rw [ho.unique hself]
  refine ⟨IGroup.inv_closeConn hI.conns hclose, ?_, ?_, ?_, ?_⟩
  · intro k q o hk ho
    exact hI.key k q o ((IGroup.mem_closeConn hclose).mp hk).1 ((hhas q o).mp ho).1
  · intro q o ho
    exact hI.inet q o ((hhas q o).mp ho).1
  · intro v q
    rw [hmap, StdMap.mem_erase, same_conv, hI.map]
    constructor
    · rintro ⟨⟨o, ho, rfl⟩, hv⟩
      exact ⟨o, (hhas q o).mpr ⟨ho, (hconv q o ho).mp hv⟩, rfl⟩
    · rintro ⟨o, ho, rfl⟩
      obtain ⟨ho, hne⟩ := (hhas q o).mp ho
      exact ⟨⟨o, ho, rfl⟩, (hconv q o ho).mpr hne⟩
  · intro v a
    have hmem : a ∈ usersNote v (ClientConns.users v s.notes) (.closed c.obj.mConv) ↔
        a ∈ ClientConns.users v s.notes ∧ v ≠ c.obj.mConv := by
      by_cases hv : c.obj.mConv = v
      · simp [usersNote, hv]
      · simp [usersNote, hv, Ne.symm hv]
    rw [hnotes, users_concat, hmem, hI.users]
    constructor
    · rintro ⟨⟨q, o, ho, rfl, ha⟩, hv⟩
      exact ⟨q, o, (hhas q o).mpr ⟨ho, (hconv q o ho).mp hv⟩, rfl, ha⟩
    · rintro ⟨q, o, ho, rfl, ha⟩
      obtain ⟨ho, hne⟩ := (hhas q o).mp ho
      exact ⟨⟨q, o, ho, rfl, ha⟩, (hconv q o ho).mpr hne⟩

theorem inv_closeConns {ps : List Ptr} (hI : Inv s) (hr : ps.foldlM closeConn s = .ok s') :
    Inv s' :=
  foldlM_invariant (fun _ _ _ hI hclose => inv_closeConn hI hclose) hI hr

theorem closeConns_toIGroup {ps : List Ptr} (hr : ps.foldlM closeConn s = .ok s') :
    ps.foldlM (IGroup.closeConn IConn.ops) s.toIGroup = .ok s'.toIGroup := by
  induction ps generalizing s with
  | nil =>
    obtain rfl : s = s' := Except.ok.inj hr
    rfl
  | cons p ps ih =>
    rw [List.foldlM_cons] at hr ⊢
    obtain ⟨s₁, hs₁, hr⟩ := bind_eq_ok.mp hr
    obtain ⟨-, -, hclose, -⟩ := closeConn_cases hs₁
    rw [hclose, ok_bind]
    exact ih hr

/-- A flush closes some of the conns. -/
theorem inv_flush (hI : Inv s) (hr : s.flush = .ok s') : Inv s' := by
  obtain ⟨ps, -, hr⟩ := bind_eq_ok.mp hr
  obtain ⟨s₁, hs₁, hr⟩ := bind_eq_ok.mp hr
  obtain ⟨h, hh, hr⟩ := bind_eq_ok.mp hr
  obtain rfl := Except.ok.inj hr
  have hI₁ : Inv s₁ := inv_closeConns hI hs₁
  obtain ⟨hflush, -⟩ := IGroup.flushConns_spec hI₁.conns.nodup_ptrs hh
  -- a conn that stays is flushed, which changes only its counters
  have hconn : ∀ k p, (k, p) ∈ s₁.mConns.entries → ∃ c c', s₁.mHeap.get? p = some c ∧
      h.get? p = some c' ∧ c'.mKey = c.mKey ∧ c'.obj = c.obj := by
    intro k p hk
    obtain ⟨c, c', hc, hfl, hc'⟩ := hflush _ hk
    obtain rfl := Except.ok.inj hfl
    exact ⟨c, _, hc, hc', rfl, rfl⟩
  refine hI₁.of_has ?_ rfl rfl ?_ fun _ _ => Iff.rfl
  · rintro ⟨k, p⟩ he
    obtain ⟨c, c', hc, hc', hkey, -⟩ := hconn k p he
    exact ⟨c', hc', hkey.trans (hI₁.conns.key_of_mem he hc)⟩
  · intro p o
    constructor
    · rintro ⟨d, ⟨⟨k, hk⟩, hd⟩, rfl⟩
      obtain ⟨c, c', hc, hc', -, hobj⟩ := hconn k p hk
      obtain rfl : c' = d := Option.some.inj (hc'.symm.trans hd)
      exact ⟨c, ⟨⟨k, hk⟩, hc⟩, hobj.symm⟩
    · rintro ⟨d, ⟨⟨k, hk⟩, hd⟩, rfl⟩
      obtain ⟨c, c', hc, hc', -, hobj⟩ := hconn k p hk
      obtain rfl : c = d := Option.some.inj (hc.symm.trans hd)
      exact ⟨c', ⟨⟨k, hk⟩, hc'⟩, hobj⟩

theorem inv_close (hI : Inv s) (hr : s.close = .ok s') : Inv s' := by
  obtain ⟨s₁, hs₁, hr⟩ := bind_eq_ok.mp hr
  obtain rfl := Except.ok.inj hr
  have hempty := IGroup.mConns_closeConns hI.conns (closeConns_toIGroup hs₁)
  rw [← hempty]
  exact inv_closeConns hI hs₁

/-! ## Runs -/

/-- A datagram keeps the invariant, if the number it takes is not in use. -/
theorem inv_udpRecvCb {a : UInt32} {port : UInt16} {payload : List UInt8} {n : Int} (hI : Inv s)
    (hq : s.FreshConv (.udpRecvCb a port payload n)) (hr : s.udpRecvCb a port payload n = .ok s') :
    Inv s' := by
  unfold udpRecvCb at hr
  split at hr
  next hp =>
    cases hkey : s.connOfKey (CConn.buildKey (.inet a port)) with
    | some p =>
      rw [onLocalRecv_of_connOfKey hkey] at hr
      obtain ⟨c, hc⟩ := hI.conns.live_of_holds ⟨_, IGroup.mem_of_connOfKey hkey⟩
      have hself : s.Has p c.obj := ⟨c, hc, rfl⟩
      obtain ⟨a', port', haddr⟩ := hI.inet p c.obj hself
      have hk := hI.key _ p c.obj (IGroup.mem_of_connOfKey hkey) hself
      rw [haddr] at hk
      rw [CConn.buildKey_inet_inj hk, ← haddr] at hr
      exact inv_cconSend hI hc hr
    | none =>
      obtain ⟨s₁, hs₁, hadds⟩ := adds_onLocalRecv payload n hI.conns hkey
      obtain rfl := Except.ok.inj (hs₁.symm.trans hr)
      refine hadds.inv hI ?_
      rintro p o ⟨c, hc, rfl⟩
      exact hq (List.length_pos_iff.mp hp) hkey p c hc
  next =>
    obtain rfl := Except.ok.inj hr
    exact hI

/-- `Input` gives a payload to a conn, closes a conn that has been reset, or does nothing. -/
theorem input_cases {o : ByteOrder} {info : Info} {payload : List UInt8} {n : Int}
    (hr : s.input o info payload n = .ok s') :
    (∃ v, payload ≠ [] ∧ s.onRecv v payload n = .ok s') ∨ (∃ p, s.closeConn p = .ok s') ∨
      s' = s := by
  unfold input at hr
  split at hr
  · cases hr
  next head _ =>
  split at hr
  · split at hr
    next hp => exact .inl ⟨head.mConv, List.length_pos_iff.mp hp, hr⟩
    next => exact .inr (.inr (Except.ok.inj hr).symm)
  split at hr
  · obtain ⟨⟨s₁, m⟩, hrst, hr⟩ := bind_eq_ok.mp hr
    obtain rfl := Except.ok.inj hr
    rcases ConnReset.inputConvRst_cases hrst with rfl | ⟨p, hclose⟩
    · exact .inr (.inr rfl)
    · exact .inr (.inl ⟨p, hclose⟩)
  · exact .inr (.inr (Except.ok.inj hr).symm)

theorem inv_input {o : ByteOrder} {info : Info} {payload : List UInt8} {n : Int} (hI : Inv s)
    (hr : s.input o info payload n = .ok s') : Inv s' := by
  rcases input_cases hr with ⟨v, hp, hr⟩ | ⟨p, hclose⟩ | rfl
  · obtain ⟨s₁, hs₁, hI₁, -⟩ := onRecv_spec (v := v) (n := n) hI hp
    obtain rfl := Except.ok.inj (hs₁.symm.trans hr)
    exact hI₁
  · exact inv_closeConn hI hclose
  · exact hI

/-- What keeps the invariant of the numbers: no number is taken that is in use. -/
theorem inv_step {e : Event} (hI : Inv s) (hq : s.FreshConv e) (hr : s.step e = .ok s') : Inv s' := by
  cases e with
  | udpRecvCb a port payload n => exact inv_udpRecvCb hI hq hr
  | pollCb sunPath payload n =>
    obtain rfl : sunPath = [] := hq
    obtain rfl := Except.ok.inj hr
    exact hI
  | input o info payload n => exact inv_input hI hr
  | flush => exact inv_flush hI hr
  | close => exact inv_close hI hr

/-- What the group promises in every state. -/
def Right (s : ClientConns) : Prop := ConvMapExact s ∧ ConvsDistinct s ∧ Routes s

/-- The invariant gives what the conns are for. -/
theorem Inv.right (hI : Inv s) : Right s := ⟨hI.convMapExact, hI.convsDistinct, hI.routes⟩

/-- A number is given out a second time. -/
theorem Adds.not_right {addr : SockAddr} {payload : List UInt8} (h : Adds addr v payload s s')
    (hI : IGroup.Inv IConn.ops s.toIGroup) (hp : s.Has p o) (hv : o.mConv = v) : ¬ Right s' := by
  rintro ⟨-, hdistinct, -⟩
  obtain ⟨c, hc, hobj⟩ := (h.has p o).mpr (.inl hp)
  obtain ⟨d, hd, hobj'⟩ := (h.has _ ⟨addr, v⟩).mpr (.inr ⟨rfl, rfl⟩)
  have heq := hdistinct p _ c d hc hd (by rw [hobj, hobj', hv])
  exact absurd heq (hp.lt_length hI).ne

/-- A data packet with the number `v`. -/
def dataPacket (v : UInt32) : Info := .udp { head := some { mConv := v } }

/-- Datagrams of two addresses are sent with one number. -/
theorem not_routes_of_users {a b : SockAddr} (ha : a ∈ users v s.notes) (hb : b ∈ users v s.notes)
    (hab : a ≠ b) : ¬ Routes s := by
  intro hroutes
  obtain ⟨s', -, ⟨hnil, -⟩ | ⟨addr, -, hall, -⟩⟩ :=
    hroutes .little (dataPacket v) _ [0] 0 rfl rfl (by simp)
  · rw [hnil] at ha
    cases ha
  · exact hab ((hall a ha).trans (hall b hb).symm)

/-- A packet for a Unix socket does not get there. -/
theorem not_routes_of_unix {c : IConn CConn} {sunPath : List UInt8} (hget : s.mConvMap.get? v = some p)
    (hc : s.Live p c) (haddr : c.obj.mAddr = .unix sunPath) : ¬ Routes s := by
  intro hroutes
  obtain ⟨s', hr, hcases⟩ := hroutes .little (dataPacket v) _ [0] 0 rfl rfl (by simp)
  have hnotes : s'.notes = s.notes ++ [.delivered .pointer [0]] := by
    have hrecv : s.onRecv v [0] 0 = .ok s' := hr
    rw [onRecv, cassert_pos (by decide), ok_bind, hget] at hrecv
    dsimp only at hrecv
    rw [Heap.deref_eq_ok.mpr hc.2, ok_bind, haddr] at hrecv
    obtain rfl := Except.ok.inj hrecv
    rfl
  rcases hcases with ⟨-, h⟩ | ⟨addr, -, -, h⟩
  · cases List.append_cancel_left (hnotes.symm.trans h)
  · cases List.append_cancel_left (hnotes.symm.trans h)

/-- A datagram of a Unix socket spoils the routing: its address is not where it is looked for. -/
theorem not_right_of_pollCb {sunPath : List UInt8} (payload : List UInt8) (n : Int) (hI : Inv s)
    (hpath : sunPath ≠ []) : ∃ s', s.pollCb sunPath payload n = .ok s' ∧ ¬ Right s' := by
  rw [pollCb, if_neg (by simpa using hpath)]
  cases hkey : s.connOfKey (CConn.buildKey (.unix sunPath)) with
  | some p =>
    obtain ⟨c, hc⟩ := hI.conns.live_of_holds ⟨_, IGroup.mem_of_connOfKey hkey⟩
    obtain ⟨a, port, haddr⟩ := hI.inet p c.obj ⟨c, hc, rfl⟩
    have huser : SockAddr.inet a port ∈ users c.obj.mConv s.notes :=
      (hI.users _ _).mpr ⟨p, c.obj, ⟨c, hc, rfl⟩, rfl, haddr⟩
    rw [onLocalRecv_of_connOfKey hkey]
    refine ⟨_, cconSend_ok hc, ?_⟩
    rintro ⟨-, -, hroutes⟩
    have husers : users c.obj.mConv (s.notes ++ [.sent (.unix sunPath) c.obj.mConv payload]) =
        .unix sunPath :: users c.obj.mConv s.notes := by
      rw [users_concat]
      exact if_pos rfl
    refine not_routes_of_users (v := c.obj.mConv) (a := .unix sunPath) (b := .inet a port)
      ?_ ?_ (by simp) hroutes
    · exact husers ▸ List.mem_cons_self
    · exact husers ▸ List.mem_cons_of_mem _ huser
  | none =>
    obtain ⟨s', hs', hadds⟩ := adds_onLocalRecv payload n hI.conns hkey
    refine ⟨s', hs', ?_⟩
    by_cases hused : ∃ p o, s.Has p o ∧ o.mConv = s.mConvCounter + 1
    · obtain ⟨p, o, hp, hv⟩ := hused
      exact hadds.not_right hI.conns hp hv
    · rintro ⟨-, -, hroutes⟩
      have hfree : s.mConvMap.get? (s.mConvCounter + 1) = none :=
        hI.get?_conv_eq_none fun p o ho hv => hused ⟨p, o, ho, hv⟩
      obtain ⟨c, hc, hobj⟩ := (hadds.has _ ⟨.unix sunPath, _⟩).mpr (.inr ⟨rfl, rfl⟩)
      have hget : s'.mConvMap.get? (s.mConvCounter + 1) = some s.mHeap.cells.length := by
        rw [hadds.map, StdMap.get?_emplace same_conv hfree]
        exact if_pos rfl
      exact not_routes_of_unix hget hc (by rw [hobj]) hroutes

/-- A number that is taken twice spoils it too. -/
theorem not_right_of_udpRecvCb {a : UInt32} {port : UInt16} {payload : List UInt8} {n : Int}
    (hI : Inv s) (hq : ¬ s.FreshConv (.udpRecvCb a port payload n)) :
    ∃ s', s.udpRecvCb a port payload n = .ok s' ∧ ¬ Right s' := by
  simp only [FreshConv, not_forall] at hq
  obtain ⟨hp, hkey, p, c, hc, hv⟩ := hq
  obtain ⟨s', hs', hadds⟩ := adds_onLocalRecv payload n hI.conns hkey
  refine ⟨s', ?_, hadds.not_right hI.conns ⟨c, hc, rfl⟩ (not_not.mp hv)⟩
  rw [udpRecvCb, if_pos (List.length_pos_iff.mpr hp)]
  exact hs'

theorem not_right_of_not_freshConv {e : Event} (hI : Inv s) (hq : ¬ s.FreshConv e) :
    ∃ s', s.step e = .ok s' ∧ ¬ Right s' := by
  cases e with
  | udpRecvCb a port payload n => exact not_right_of_udpRecvCb hI hq
  | pollCb sunPath payload n => exact not_right_of_pollCb payload n hI hq
  | input o info payload n => exact absurd trivial hq
  | flush => exact absurd trivial hq
  | close => exact absurd trivial hq

/-- In every state of a run, `mConvMap` holds exactly the conns of the group, their numbers differ and
    every packet is passed on to the one address whose datagrams are sent with its number, exactly if
    no datagram comes from a Unix socket and no new conn gets the number of another. -/
theorem conv_routed_iff (id : IdBufType) (es : List Event) :
    Right (new id) ∧ Always step (fun _ _ s => Right s) (new id) es ↔
      EachStep step FreshConv (new id) es := by
  rw [and_iff_right (inv_new id).right]
  refine always_iff_eachStep (J := Inv) ?_ ?_ es (new id) (inv_new id)
  · intro s e s' hI hr hright
    by_contra hI'
    have hq : ¬ s.FreshConv e := fun hq => hI' (inv_step hI hq hr)
    obtain ⟨s₁, hs₁, hnot⟩ := not_right_of_not_freshConv hI hq
    obtain rfl := Except.ok.inj (hs₁.symm.trans hr)
    exact hnot hright
  · intro s e hI
    constructor
    · intro hright
      by_contra hq
      obtain ⟨s₁, hs₁, hnot⟩ := not_right_of_not_freshConv hI hq
      exact hnot (hright s₁ hs₁)
    · intro hq s' hr
      exact (inv_step hI hq hr).right

/-- A datagram comes from the Unix socket `/a`. The answer of the server is not sent there. -/
theorem unix_socket_unanswered : ∃ s s', run step (new (Buf.zeros 8)) [.pollCb [47, 97] [1] 1] = .ok s ∧
    users 2 s.notes = [.unix [47, 97]] ∧ s.step (.input .little (dataPacket 2) [7] (-1)) = .ok s' ∧
    s'.notes = s.notes ++ [.delivered .pointer [7]] ∧ ¬ Right s := by
  obtain ⟨s, hs, hnot⟩ := not_right_of_pollCb [1] 1 (inv_new (Buf.zeros 8))
    (List.cons_ne_nil 47 [97])
  have hrun : run step (new (Buf.zeros 8)) [.pollCb [47, 97] [1] 1] = .ok s := by
    rw [run, step, hs]
    rfl
  obtain ⟨s₁, hs₁, hnotes⟩ := exists_of_toOption
    (x := run step (new (Buf.zeros 8)) [.pollCb [47, 97] [1] 1]) (f := fun s => s.notes)
    (b := [.sent (.unix [47, 97]) 2 [1]]) (by decide +kernel)
  obtain rfl := Except.ok.inj (hs₁.symm.trans hrun)
  obtain ⟨s', hs', hnotes'⟩ := exists_of_toOption
    (x := run step (new (Buf.zeros 8)) [.pollCb [47, 97] [1] 1] >>=
      (·.step (.input .little (dataPacket 2) [7] (-1)))) (f := fun s => s.notes)
    (b := [.sent (.unix [47, 97]) 2 [1], .delivered .pointer [7]]) (by decide +kernel)
  rw [hrun, ok_bind] at hs'
  refine ⟨s₁, s', hrun, ?_, hs', ?_, hnot⟩
  · rw [hnotes]
    rfl
  · rw [hnotes', hnotes]
    rfl

end ClientConns

end Rsock
