import Rsock.Tunnel
import Rsock.Proofs.TunnelEndsProofs

/-!
# Proofs: the tunnel

Every socket of the server belongs to one address of one client: what goes out over a socket has come
from one address, and what comes in over it is delivered to no other. This is kept up by the ids, the
numbers and the pointers, of which none is ever used for something else.
-/

namespace Rsock

open CMem TransSys

/-- The string of a byte array determines it. -/
theorem stdString_injective : Function.Injective stdString := by
  intro bs bs' h
  have hlist := String.ofList_inj.mp h
  refine List.map_injective_iff.mpr ?_ hlist
  intro b b' hb
  have hvalid : ∀ c : UInt8, (Char.ofNat c.toNat).toNat = c.toNat := by
    intro c
    have hc : c.toNat.isValidChar := .inl (c.toNat_lt.trans (by decide))
    rw [Char.ofNat, dif_pos hc]
    rfl
  have hnat := congrArg Char.toNat hb
  rw [hvalid, hvalid] at hnat
  exact UInt8.toNat_inj.mp hnat

/-- The string of an id determines the id. -/
theorem idBuf2Str_injective : Function.Injective idBuf2Str := by
  intro id id' h
  exact Buf.ext (stdString_injective h)

/-! ## The invariant of the tunnel -/

namespace Tunnel

variable {n : Nat} {ids : Fin n → IdBufType} {t t' : Tunnel n} {sv sv' : IGroup SubGroup}

/-- The `SConn` the datagram goes through exists, with the id and the number of the datagram. -/
def Hop.At (sv : IGroup SubGroup) (h : Hop) : Prop :=
  ∃ s c, sv.mHeap.get? h.group = some s ∧ s.mHeap.get? h.conn = some c ∧ s.mKey = h.groupId ∧
    c.obj.mConv = h.conv

/-- A client with the id has sent the payload with the number. -/
def Hop.Sent (ids : Fin n → IdBufType) (t : Tunnel n) (h : Hop) : Prop :=
  ∃ i a, idBuf2Str (ids i) = h.groupId ∧ .sent a h.conv h.payload ∈ (t.clients i).conns.notes

/-- The pointers of the datagram have been given away, and if they still point to something then to
    the `SConn` it went through. -/
structure Hop.Fixed (sv : IGroup SubGroup) (h : Hop) : Prop where
  lt : h.group < sv.mHeap.cells.length
  fixed : ∀ s, sv.mHeap.get? h.group = some s → s.mKey = h.groupId ∧
    h.conn < s.mHeap.cells.length ∧ ∀ c, s.mHeap.get? h.conn = some c → c.obj.mConv = h.conv

/-- A hop that has just happened names a conn and a group that exist. -/
theorem Hop.At.fixed {h : Hop} (hat : h.At sv) : h.Fixed sv := by
  obtain ⟨s, c, hs, hc, hkey, hconv⟩ := hat
  refine ⟨Heap.lt_of_get? hs, ?_⟩
  intro s' hs'
  obtain rfl : s = s' := Option.some.inj (hs.symm.trans hs')
  refine ⟨hkey, Heap.lt_of_get? hc, ?_⟩
  intro c' hc'
  obtain rfl : c = c' := Option.some.inj (hc.symm.trans hc')
  exact hconv

/-- What a hop names stays as it was while the groups age. -/
theorem Hop.Fixed.of_ages {h : Hop} (hf : h.Fixed sv)
    (hages : Heap.Ages SubGroup.Keeps sv.mHeap sv'.mHeap) : h.Fixed sv' := by
  refine ⟨hf.lt.trans_le hages.length, ?_⟩
  intro s' hs'
  obtain ⟨s, hs, hkeeps⟩ := hages.old _ s' hf.lt hs'
  obtain ⟨hkey, hlt, hconv⟩ := hf.fixed s hs
  have hconns := IGroup.ages_of_runs hkeeps.runs
  refine ⟨(IGroup.mKey_of_runs hkeeps.runs).trans hkey, hlt.trans_le hconns.length, ?_⟩
  intro c' hc'
  obtain ⟨c, hc, hobj⟩ := hconns.old _ c' hlt hc'
  rw [hobj]
  exact hconv c hc

/-- Two datagrams over one socket have the same id and the same number. -/
theorem Hop.At.agrees {h h' : Hop} (hat : h.At sv) (hf : h'.Fixed sv) (hg : h'.group = h.group)
    (hc : h'.conn = h.conn) : h'.groupId = h.groupId ∧ h'.conv = h.conv := by
  obtain ⟨s, c, hs, hconn, hkey, hconv⟩ := hat
  rw [← hg] at hs
  rw [← hc] at hconn
  obtain ⟨hkey', -, hconv'⟩ := hf.fixed s hs
  exact ⟨hkey'.symm.trans hkey, (hconv' c hconn).symm.trans hconv⟩

/-- What holds of the tunnel after every run: both ends keep their invariants, what has gone to the target
    was sent by a client under the number of its socket, and what a client has delivered came in over a
    socket with its id and number. -/
structure Inv (ids : Fin n → IdBufType) (t : Tunnel n) : Prop where
  clients : ∀ i, Client.Inv (ids i) (t.clients i)
  server : IGroup.Inv SubGroup.ops t.server
  groups : ∀ g s, t.server.mHeap.get? g = some s → SubGroup.Named s
  fixed : ∀ h ∈ t.hops, h.Fixed t.server
  agree : ∀ h ∈ t.hops, ∀ h' ∈ t.hops, h'.group = h.group → h'.conn = h.conn →
    h'.groupId = h.groupId ∧ h'.conv = h.conv
  sent : ∀ h ∈ t.hops, h.toTarget = true → h.Sent ids t
  down : ∀ e ∈ t.down, e.1.mCmd = EncHead.typeData → ∃ h ∈ t.hops, h.toTarget = false ∧
    h.payload = e.2 ∧ h.groupId = idBuf2Str e.1.mIdBuf ∧ h.conv = e.1.mConv
  delivered : ∀ i dest x, .delivered dest x ∈ (t.clients i).conns.notes → ∃ a v y,
    dest = .sockaddr a ∧ .sent a v y ∈ (t.clients i).conns.notes ∧ ∃ h ∈ t.hops, h.toTarget = false ∧ h.payload = x ∧
      h.groupId = idBuf2Str (ids i) ∧ h.conv = v

/-- The invariant holds before the first event. -/
theorem inv_new (ids : Fin n → IdBufType) (key : String) : Inv ids (new ids key) where
  clients i := Client.inv_new (ids i)
  server := IGroup.inv_empty _ _
  groups := by
    intro g s hs
    cases hs
  fixed := by
    intro h hh
    cases hh
  agree := by
    intro h hh
    cases hh
  sent := by
    intro h hh
    cases hh
  down := by
    intro e he
    cases he
  delivered := by
    intro i dest x h
    cases h

/-- What happens at the server: objects age, and datagrams go over sockets that exist. -/
structure Serves (ids : Fin n → IdBufType) (t t' : Tunnel n) : Prop where
  clients : t'.clients = t.clients
  server : IGroup.Inv SubGroup.ops t'.server
  groups : ∀ g s, t'.server.mHeap.get? g = some s → SubGroup.Named s
  ages : Heap.Ages SubGroup.Keeps t.server.mHeap t'.server.mHeap
  hops : ∃ hs, t'.hops = t.hops ++ hs ∧ ∀ h ∈ hs, h.At t'.server ∧ (h.toTarget = true → h.Sent ids t)
  down : ∀ e ∈ t'.down, e.1.mCmd = EncHead.typeData → e ∈ t.down ∨ ∃ h ∈ t'.hops,
    h.toTarget = false ∧ h.payload = e.2 ∧ h.groupId = idBuf2Str e.1.mIdBuf ∧ h.conv = e.1.mConv

/-- What happens at the server keeps the invariant. -/
theorem Serves.inv (hI : Inv ids t) (h : Serves ids t t') : Inv ids t' := by
  obtain ⟨hs, hhops, hnew⟩ := h.hops
  have hsub : ∀ x ∈ t.hops, x ∈ t'.hops := by
    intro x hx
    rw [hhops]
    exact List.mem_append_left _ hx
  have hcases : ∀ x ∈ t'.hops, x ∈ t.hops ∨ x ∈ hs := by
    intro x hx
    rw [hhops] at hx
    exact List.mem_append.mp hx
  have hfixed : ∀ x ∈ t'.hops, x.Fixed t'.server := by
    intro x hx
    rcases hcases x hx with hx | hx
    · exact (hI.fixed x hx).of_ages h.ages
    · exact (hnew x hx).1.fixed
  refine ⟨?_, h.server, h.groups, hfixed, ?_, ?_, ?_, ?_⟩
  · rw [h.clients]
    exact hI.clients
  · intro x hx y hy hg hc
    rcases hcases x hx with hx' | hx'
    · rcases hcases y hy with hy' | hy'
      · exact hI.agree x hx' y hy' hg hc
      · obtain ⟨hid, hconv⟩ := (hnew y hy').1.agrees (hfixed x hx) hg.symm hc.symm
        exact ⟨hid.symm, hconv.symm⟩
    · exact (hnew x hx').1.agrees (hfixed y hy) hg hc
  · intro x hx hto
    have hsent : x.Sent ids t := by
      rcases hcases x hx with hx | hx
      · exact hI.sent x hx hto
      · exact (hnew x hx).2 hto
    obtain ⟨i, a, hid, ha⟩ := hsent
    rw [← h.clients] at ha
    exact ⟨i, a, hid, ha⟩
  · intro e he hcmd
    rcases h.down e he hcmd with he | he
    · obtain ⟨x, hx, hrest⟩ := hI.down e he hcmd
      exact ⟨x, hsub x hx, hrest⟩
    · exact he
  · intro i dest x hdel
    rw [h.clients] at hdel ⊢
    obtain ⟨a, v, y, hdest, hsent, z, hz, hrest⟩ := hI.delivered i dest x hdel
    exact ⟨a, v, y, hdest, hsent, z, hsub z hz, hrest⟩

/-! ## The server -/

/-- The `SubGroup` at `g` becomes `s'`, with datagrams over its sockets and packets sent. -/
theorem serves_setGroup {g : Ptr} {s s' : SubGroup} {ss : List SentCall} (hs : List Hop)
    (hI : Inv ids t) (hg : t.server.mHeap.get? g = some s) (hkeeps : SubGroup.Keeps s s')
    (hss : s'.net.sends = s.net.sends ++ ss)
    (hhops : ∀ h ∈ hs, h.group = g ∧ (∃ c, s'.mHeap.get? h.conn = some c ∧ s'.mKey = h.groupId ∧
      c.obj.mConv = h.conv) ∧ (h.toTarget = true → h.Sent ids t))
    (hdown : ∀ e ∈ onWire ss, e.1.mCmd = EncHead.typeData → ∃ h ∈ hs, h.toTarget = false ∧
      h.payload = e.2 ∧ h.groupId = idBuf2Str e.1.mIdBuf ∧ h.conv = e.1.mConv) :
    Serves ids t (t.setGroup g s s' hs) where
  clients := rfl
  server := IGroup.inv_store hI.server hg (IGroup.mKey_of_runs hkeeps.runs)
  groups := by
    intro q r hr
    by_cases hq : g = q
    · subst hq
      obtain rfl : s' = r := Option.some.inj ((Heap.get?_store_self hg).symm.trans hr)
      exact hkeeps.named (hI.groups g s hg)
    · exact hI.groups q r ((Heap.get?_store_of_ne hq).symm.trans hr)
  ages := Heap.ages_store SubGroup.Keeps.refl hg hkeeps
  hops := by
    refine ⟨hs, rfl, ?_⟩
    intro h hh
    obtain ⟨rfl, ⟨c, hc, hkey, hconv⟩, hsent⟩ := hhops h hh
    exact ⟨⟨s', c, Heap.get?_store_self hg, hc, hkey, hconv⟩, hsent⟩
  down := by
    intro e he hcmd
    have he : e ∈ t.down ++ onWire (s'.net.sends.drop s.net.sends.length) := he
    rw [hss, List.drop_left] at he
    rcases List.mem_append.mp he with he | he
    · exact .inl he
    · obtain ⟨h, hh, hrest⟩ := hdown e he hcmd
      exact .inr ⟨h, List.mem_append_right _ hh, hrest⟩

/-- No data is sent. -/
theorem serves_of_noData {g : Ptr} {s s' : SubGroup} (hs : List Hop) (hI : Inv ids t)
    (hg : t.server.mHeap.get? g = some s) (hkeeps : SubGroup.Keeps s s') (hno : s.net.NoData s'.net)
    (hhops : ∀ h ∈ hs, h.group = g ∧ (∃ c, s'.mHeap.get? h.conn = some c ∧ s'.mKey = h.groupId ∧
      c.obj.mConv = h.conv) ∧ (h.toTarget = true → h.Sent ids t)) :
    Serves ids t (t.setGroup g s s' hs) := by
  obtain ⟨ss, hss, hwire⟩ := hno.onWire
  exact serves_setGroup hs hI hg hkeeps hss hhops fun e he hcmd => absurd hcmd (hwire e he).2

/-- A data packet the network carries has been sent by the client with its id. -/
theorem sent_of_comes {info : Info} {head : EncHead} {payload : List UInt8} (hI : Inv ids t)
    (hcomes : comes t.sentUp info payload = true) (hhead : info.base.head = some head)
    (hcmd : head.mCmd = EncHead.typeData) :
    ∃ i a, ids i = head.mIdBuf ∧ .sent a head.mConv payload ∈ (t.clients i).conns.notes := by
  rw [comes, hhead] at hcomes
  simp only [hcmd, bne_self_eq_false, Bool.false_or, sentUp, List.any_eq_true, List.mem_finRange,
    true_and, beq_iff_eq] at hcomes
  obtain ⟨i, e, he, rfl⟩ := hcomes
  obtain ⟨hid, hdata⟩ := (hI.clients i).up _ he
  obtain ⟨a, ha⟩ := hdata hcmd
  exact ⟨i, a, hid.symm, ha⟩

/-- A hop of a step is a datagram the step has passed to a socket of the group. -/
theorem mem_hopsOf {g : Ptr} {s s' : SubGroup} {h : Hop} {ns : List SubGroup.Note}
    (hns : s'.notes = s.notes ++ ns) (hh : h ∈ hopsOf g s s') :
    h.group = g ∧ h.groupId = s'.mKey ∧ .onRecv h.conn h.payload ∈ ns ∧
      ∃ c, s'.mHeap.get? h.conn = some c ∧ c.obj.mConv = h.conv := by
  rw [hopsOf, hns, List.drop_left] at hh
  obtain ⟨note, hnote, hh⟩ := List.mem_filterMap.mp hh
  cases note with
  | onRecv c payload =>
    obtain ⟨conn, hconn, rfl⟩ := Option.map_eq_some_iff.mp hh
    exact ⟨rfl, rfl, hnote, conn, hconn, rfl⟩
  | netConnRst key => cases hh

/-- A packet for a group is served. -/
theorem serves_subGroupInput {g : Ptr} {o : ByteOrder} {env : AcceptEnv} {info : Info}
    {payload : List UInt8} {answer : SendEnv} {head : EncHead} (hI : Inv ids t)
    (hhead : info.base.head = some head)
    (hkey : ∀ s, t.server.mHeap.get? g = some s → s.mKey = idBuf2Str head.mIdBuf)
    (hsent : head.mCmd = EncHead.typeData →
      ∃ i a, ids i = head.mIdBuf ∧ .sent a head.mConv payload ∈ (t.clients i).conns.notes)
    (hr : t.subGroupInput g o env info payload answer = .ok t') : Serves ids t t' := by
  obtain ⟨s, hs, hr⟩ := bind_eq_ok.mp hr
  obtain ⟨s', hs', hr⟩ := bind_eq_ok.mp hr
  obtain rfl := Except.ok.inj hr
  have hg := Heap.deref_eq_ok.mp hs
  have hkeeps := SubGroup.keeps_input hs'
  have hmKey := IGroup.mKey_of_runs hkeeps.runs
  refine serves_of_noData (hopsOf g s s') hI hg hkeeps (SubGroup.noData_input hs') ?_
  intro h hh
  rcases SubGroup.input_passes (hI.groups g s hg) hhead hs' with hnotes | ⟨hcmd, ns, hns, hpass⟩
  · have hnil : s'.notes = s.notes ++ [] := by rw [hnotes, List.append_nil]
    obtain ⟨-, -, hmem, -⟩ := mem_hopsOf hnil hh
    cases hmem
  · obtain ⟨hgroup, hid, hmem, c, hc, hconv⟩ := mem_hopsOf hns hh
    refine ⟨hgroup, ⟨c, hc, hid.symm, hconv⟩, fun _ => ?_⟩
    obtain ⟨hpay, c', hc', hconv'⟩ := hpass _ _ hmem
    obtain rfl : c = c' := Option.some.inj (hc.symm.trans hc')
    obtain ⟨i, a, hi, ha⟩ := hsent hcmd
    refine ⟨i, a, ?_, ?_⟩
    · rw [hi, hid, hmKey]
      exact (hkey s hg).symm
    · rw [← hconv, hconv', hpay]
      exact ha

/-- A new `SubGroup`. -/
theorem serves_addConn (id : IdBufType) (mgr : ServerNetManager) (hI : Inv ids t) :
    Serves ids t { t with server := t.server.addConn SubGroup.ops (SubGroup.new id mgr) } where
  clients := rfl
  server := IGroup.inv_addConn hI.server
  groups := by
    intro g s hs
    rcases Heap.get?_alloc_cases hs with hs | ⟨-, rfl⟩
    · exact hI.groups g s hs
    · exact SubGroup.named_new id mgr
  ages := Heap.ages_alloc SubGroup.Keeps.refl _ _
  hops := ⟨[], (List.append_nil _).symm, by simp⟩
  down _ he _ := .inl he

/-- A packet that came over the network keeps the invariant. -/
theorem inv_onRecv {o : ByteOrder} {env : AcceptEnv} {info : Info} {payload : List UInt8}
    {answer : SendEnv} {mgr : ServerNetManager} {initRet : Int} (hI : Inv ids t)
    (hcomes : comes t.sentUp info payload = true)
    (hr : t.onRecv o env info payload answer mgr initRet = .ok t') : Inv ids t' := by
  unfold onRecv at hr
  split at hr
  · cases hhead : info.base.head with
    | none =>
      rw [hhead] at hr
      cases hr
    | some head =>
      rw [hhead] at hr
      have hsent := fun hcmd => sent_of_comes hI hcomes hhead hcmd
      dsimp only at hr
      cases hkey : t.server.connOfKey (idBuf2Str head.mIdBuf) with
      | some g =>
        rw [hkey] at hr
        have hmem := IGroup.mem_of_connOfKey hkey
        exact (serves_subGroupInput hI hhead
          (fun s hs => hI.server.key_of_mem hmem hs) hsent hr).inv hI
      | none =>
        rw [hkey] at hr
        dsimp only at hr
        split at hr
        · obtain rfl := Except.ok.inj hr
          exact hI
        · have hI₁ := (serves_addConn head.mIdBuf mgr hI).inv hI
          refine (serves_subGroupInput hI₁ hhead ?_ hsent hr).inv hI₁
          intro s hs
          obtain rfl := Option.some.inj (Heap.get?_alloc_self.symm.trans hs)
          rfl
  · obtain rfl := Except.ok.inj hr
    exact hI

/-- A datagram from the target is served. -/
theorem serves_sconnSend {g c : Ptr} {payload : List UInt8} {env : SendEnv} {ret : Int}
    (hI : Inv ids t) (hr : t.sconnSend g c payload env ret = .ok t') : Serves ids t t' := by
  obtain ⟨s, hs, hr⟩ := bind_eq_ok.mp hr
  obtain ⟨conn, hconn, hr⟩ := bind_eq_ok.mp hr
  obtain ⟨s', hs', hr⟩ := bind_eq_ok.mp hr
  obtain rfl := Except.ok.inj hr
  have hg := Heap.deref_eq_ok.mp hs
  have hnamed := hI.groups g s hg
  have hkeeps := SubGroup.keeps_step hs'
  have hmKey := IGroup.mKey_of_runs hkeeps.runs
  obtain ⟨conn', net, hconn', hsend, rfl⟩ := SubGroup.sconnSend_cases hs'
  obtain rfl : conn = conn' := Option.some.inj ((Heap.deref_eq_ok.mp hconn).symm.trans hconn')
  obtain ⟨ss, hss, hwire⟩ := NetSide.sendData_onWire hnamed.cmd hsend
  refine serves_setGroup _ hI hg hkeeps hss ?_ ?_
  · intro h hh
    obtain rfl := List.mem_singleton.mp hh
    refine ⟨rfl, ⟨conn.send ret, Heap.get?_store_self (Heap.deref_eq_ok.mp hconn), hmKey, rfl⟩, ?_⟩
    intro hto
    cases hto
  · intro e he _
    obtain ⟨hid, -, hconv, hpay⟩ := hwire e he
    refine ⟨_, List.mem_singleton_self _, rfl, hpay.symm, ?_, hconv.symm⟩
    rw [hid]
    exact hnamed.id.symm

/-- An event of a group keeps the invariant. -/
theorem inv_subGroupStep {g : Ptr} {e : SubGroup.Event} (hI : Inv ids t)
    (hr : t.subGroupStep g e = .ok t') : Inv ids t' := by
  have hplain : ∀ e : SubGroup.Event, e.NoData → (do
      let s ← t.server.mHeap.deref g
      let s' ← s.step e
      return t.setGroup g s s' []) = .ok t' → Inv ids t' := by
    intro e he hr
    obtain ⟨s, hs, hr⟩ := bind_eq_ok.mp hr
    obtain ⟨s', hs', hr⟩ := bind_eq_ok.mp hr
    obtain rfl := Except.ok.inj hr
    exact (serves_of_noData [] hI (Heap.deref_eq_ok.mp hs) (SubGroup.keeps_step hs')
      (SubGroup.noData_step he hs') (by simp)).inv hI
  cases e with
  | input o env info payload answer =>
    obtain rfl := Except.ok.inj hr
    exact hI
  | sconnSend c payload env ret => exact (serves_sconnSend hI hr).inv hI
  | _ => exact hplain _ (by trivial) hr

/-- A flush of the server keeps the invariant. -/
theorem inv_serverFlush {server : IGroup SubGroup} (hI : Inv ids t)
    (hr : t.server.flush SubGroup.ops = .ok server) : Inv ids { t with server := server } := by
  have hkeeps : ∀ s s', SubGroup.ops.flush s = .ok s' → SubGroup.Keeps s s' :=
    fun s s' h => SubGroup.keeps_step (e := .flush) h
  have hages : Heap.Ages SubGroup.Keeps t.server.mHeap server.mHeap :=
    IGroup.ages_flush SubGroup.Keeps.refl (fun _ _ _ => SubGroup.Keeps.trans) hkeeps hr
  have hserver := (IGroup.flush_spec
    (fun s s' h => IGroup.mKey_of_runs (hkeeps s s' h).runs) hI.server hr).1
  have hserves : Serves ids t { t with server := server } := by
    refine ⟨rfl, hserver, ?_, hages, ⟨[], (List.append_nil _).symm, by simp⟩, fun _ he _ => .inl he⟩
    intro g s' hs'
    have hlt : g < t.server.mHeap.cells.length := by
      rw [← IGroup.length_flush hr]
      exact Heap.lt_of_get? hs'
    obtain ⟨s, hs, hk⟩ := hages.old g s' hlt hs'
    exact hk.named (hI.groups g s hs)
  exact hserves.inv hI

/-! ## The clients -/

/-- A data packet a client takes has been sent to it by the server. -/
theorem mem_down_of_comes {i : Fin n} {info : Info} {head : EncHead} {payload : List UInt8}
    (hcomes : comes (t.sentDown (ids i)) info payload = true) (hhead : info.base.head = some head)
    (hcmd : head.mCmd = EncHead.typeData) : head.mIdBuf = ids i ∧ (head, payload) ∈ t.down := by
  rw [comes, hhead] at hcomes
  simp only [hcmd, bne_self_eq_false, Bool.false_or, sentDown, List.any_eq_true, Bool.and_eq_true,
    beq_iff_eq] at hcomes
  obtain ⟨hid, e, he, rfl⟩ := hcomes
  exact ⟨hid, he⟩

/-- The client `i` becomes `c`, and what it has delivered came in over a socket with its number. -/
theorem inv_setClient {i : Fin n} {c : Client} (hI : Inv ids t) (hc : Client.Inv (ids i) c)
    (hgrow : ∃ ns, c.conns.notes = (t.clients i).conns.notes ++ ns)
    (hdel : ∀ dest x, .delivered dest x ∈ c.conns.notes →
      .delivered dest x ∈ (t.clients i).conns.notes ∨ ∃ a v y, dest = .sockaddr a ∧
        .sent a v y ∈ c.conns.notes ∧ ∃ h ∈ t.hops, h.toTarget = false ∧ h.payload = x ∧
          h.groupId = idBuf2Str (ids i) ∧ h.conv = v) : Inv ids (t.setClient i c) := by
  have hself : (t.setClient i c).clients i = c := Function.update_self ..
  have hother : ∀ j, j ≠ i → (t.setClient i c).clients j = t.clients j :=
    fun j hj => Function.update_of_ne hj ..
  have hmono : ∀ j m, m ∈ (t.clients j).conns.notes → m ∈ ((t.setClient i c).clients j).conns.notes := by
    intro j m hm
    by_cases hj : j = i
    · subst hj
      obtain ⟨ns, hns⟩ := hgrow
      rw [hself, hns]
      exact List.mem_append_left _ hm
    · rw [hother j hj]
      exact hm
  refine ⟨?_, hI.server, hI.groups, hI.fixed, hI.agree, ?_, hI.down, ?_⟩
  · intro j
    by_cases hj : j = i
    · subst hj
      rw [hself]
      exact hc
    · rw [hother j hj]
      exact hI.clients j
  · intro h hh hto
    obtain ⟨j, a, hid, ha⟩ := hI.sent h hh hto
    exact ⟨j, a, hid, hmono j _ ha⟩
  · intro j dest x hdest
    -- what was delivered before
    have hold : .delivered dest x ∈ (t.clients j).conns.notes → ∃ a v y, dest = .sockaddr a ∧
        .sent a v y ∈ ((t.setClient i c).clients j).conns.notes ∧ ∃ h ∈ t.hops, h.toTarget = false ∧
          h.payload = x ∧ h.groupId = idBuf2Str (ids j) ∧ h.conv = v := by
      intro hdest
      obtain ⟨a, v, y, hdest, hsent, hrest⟩ := hI.delivered j dest x hdest
      exact ⟨a, v, y, hdest, hmono j _ hsent, hrest⟩
    by_cases hj : j = i
    · subst hj
      rw [hself] at hdest ⊢
      rcases hdel dest x hdest with hbefore | hnew
      · rw [hself] at hold
        exact hold hbefore
      · exact hnew
    · rw [hother j hj] at hdest
      exact hold hdest

/-- A step of the client that delivers nothing. -/
theorem inv_setClient_of_quiet {i : Fin n} {c : Client} {ns : List ClientConns.Note} (hI : Inv ids t)
    (hc : Client.Inv (ids i) c) (hns : c.conns.notes = (t.clients i).conns.notes ++ ns)
    (hdel : ∀ dest x, .delivered dest x ∉ ns) : Inv ids (t.setClient i c) := by
  refine inv_setClient hI hc ⟨ns, hns⟩ fun dest x hx => ?_
  rw [hns] at hx
  exact .inl ((List.mem_append.mp hx).resolve_right (hdel dest x))

theorem setClient_self (i : Fin n) : t.setClient i (t.clients i) = t := by
  rw [setClient, Function.update_eq_self]

/-- A datagram of a user keeps the invariant. -/
theorem inv_udpRecvCb {i : Fin n} {a : UInt32} {port : UInt16} {payload : List UInt8} {env : SendEnv}
    {ret : Int} {c : Client} (hI : Inv ids t)
    (hw : (t.clients i).conns.NoWrap (.udpRecvCb a port payload ret))
    (hr : (t.clients i).udpRecvCb a port payload env ret = .ok c) : Inv ids (t.setClient i c) := by
  have hc := (hI.clients i).udpRecvCb hw hr
  obtain ⟨-, ⟨hq, -⟩ | ⟨addr, v, y, hnotes, -⟩⟩ := Client.udpRecvCb_cases (hI.clients i).conns hw hr
  · obtain ⟨ns, hns, -, hdel⟩ := hq.notes
    exact inv_setClient_of_quiet hI hc hns hdel
  · exact inv_setClient_of_quiet hI hc hnotes (by simp)

/-- A flush of a client keeps the invariant. -/
theorem inv_clientFlush {i : Fin n} {c : Client} (hI : Inv ids t)
    (hr : (t.clients i).flush = .ok c) : Inv ids (t.setClient i c) := by
  obtain ⟨hconns, hnet⟩ := Client.flush_cases hr
  have hw : (t.clients i).conns.NoWrap .flush := trivial
  have hc := (hI.clients i).of_step hw hconns (by trivial) hnet
  rcases ClientConns.step_cases (hI.clients i).conns hw hconns with hq | ⟨a, y, v, hnotes, -⟩ |
    ⟨_, _, _, _, _, _, he, _⟩
  · obtain ⟨ns, hns, -, hdel⟩ := hq.notes
    exact inv_setClient_of_quiet hI hc hns hdel
  · exact inv_setClient_of_quiet hI hc hnotes (by simp)
  · cases he

/-- A packet for a client keeps the invariant. -/
theorem inv_clientInput {i : Fin n} {o : ByteOrder} {info : Info} {payload : List UInt8}
    {env : InputEnv} {c : Client} (hI : Inv ids t)
    (hcomes : comes (t.sentDown (ids i)) info payload = true)
    (hr : (t.clients i).input o info payload env = .ok c) : Inv ids (t.setClient i c) := by
  rcases Client.input_cases hr with rfl | ⟨ups, hconns, hnet⟩
  · rw [setClient_self]
    exact hI
  have hw : (t.clients i).conns.NoWrap (.input o info payload env.ret) := trivial
  have hc := (hI.clients i).of_step hw hconns (by trivial) hnet
  rcases ClientConns.step_cases (hI.clients i).conns hw hconns with hq | ⟨a, y, v, hnotes, -⟩ |
    ⟨o', info', head, payload', m, a, he, hhead, hcmd, -, hnotes, ha⟩
  · obtain ⟨ns, hns, -, hdel⟩ := hq.notes
    exact inv_setClient_of_quiet hI hc hns hdel
  · exact inv_setClient_of_quiet hI hc hnotes (by simp)
  · obtain ⟨rfl, rfl, rfl, rfl⟩ := ClientConns.Event.input.inj he
    refine inv_setClient hI hc ⟨_, hnotes⟩ ?_
    intro dest x hx
    rw [hnotes] at hx
    rcases List.mem_append.mp hx with hx | hx
    · exact .inl hx
    · -- the packet that has just come
      obtain ⟨rfl, rfl⟩ := ClientConns.Note.delivered.inj (List.mem_singleton.mp hx)
      obtain ⟨y, hy⟩ := ClientConns.exists_sent_of_mem_users ha
      obtain ⟨hid, hdown⟩ := mem_down_of_comes hcomes hhead hcmd
      obtain ⟨h, hh, hto, hpay, hgid, hconv⟩ := hI.down _ hdown hcmd
      refine .inr ⟨a, head.mConv, y, rfl, ?_, h, hh, hto, hpay, ?_, hconv⟩
      · rw [hnotes]
        exact List.mem_append_left _ hy
      · rw [hgid, hid]

/-- What happens to the net conns of a client keeps the invariant. -/
theorem inv_clientNet {i : Fin n} {e : NetSide.Event} {c : Client} (hI : Inv ids t)
    (hr : (t.clients i).netStep e = .ok c) : Inv ids (t.setClient i c) := by
  rcases Client.netStep_cases hr with rfl | ⟨he, hconns, hnet⟩
  · rw [setClient_self]
    exact hI
  have hnotes : c.conns.notes = (t.clients i).conns.notes ++ [] := by rw [hconns, List.append_nil]
  have hc : Client.Inv (ids i) ⟨c.conns, c.net⟩ :=
    (hI.clients i).of_noData (hconns ▸ (hI.clients i).conns) (hconns ▸ (hI.clients i).numbered)
      ⟨_, hnotes⟩ (NetSide.inv_step (hI.clients i).net hnet) (NetSide.noData_step he hnet)
  exact inv_setClient_of_quiet hI hc hnotes (by simp)

/-! ## Runs -/

/-- If the event opens a conversation at a client, then the counter of the client can go on. -/
def NoWrap (t : Tunnel n) : Event n → Prop
  | .udpRecvCb i sAddr port payload _ ret =>
    (t.clients i).conns.NoWrap (.udpRecvCb sAddr port payload ret)
  | _ => True

instance decidableNoWrap (t : Tunnel n) (e : Event n) : Decidable (t.NoWrap e) := by
  unfold NoWrap
  cases e <;> infer_instance

/-- An event keeps the invariant. -/
theorem inv_step {e : Event n} (hI : Inv ids t) (hw : t.NoWrap e) (hr : t.step ids e = .ok t') :
    Inv ids t' := by
  cases e with
  | udpRecvCb i sAddr port payload env ret =>
    obtain ⟨c, hc, hr⟩ := bind_eq_ok.mp hr
    obtain rfl := Except.ok.inj hr
    exact inv_udpRecvCb hI hw hc
  | clientFlush i =>
    obtain ⟨c, hc, hr⟩ := bind_eq_ok.mp hr
    obtain rfl := Except.ok.inj hr
    exact inv_clientFlush hI hc
  | clientInput i o info payload env =>
    rw [step] at hr
    split at hr
    next hcomes =>
      obtain ⟨c, hc, hr⟩ := bind_eq_ok.mp hr
      obtain rfl := Except.ok.inj hr
      exact inv_clientInput hI hcomes hc
    next =>
      obtain rfl := Except.ok.inj hr
      exact hI
  | clientNet i e =>
    obtain ⟨c, hc, hr⟩ := bind_eq_ok.mp hr
    obtain rfl := Except.ok.inj hr
    exact inv_clientNet hI hc
  | serverRecv o env info payload answer mgr initRet =>
    rw [step] at hr
    split at hr
    next hcomes => exact inv_onRecv hI hcomes hr
    next =>
      obtain rfl := Except.ok.inj hr
      exact hI
  | subGroup g e => exact inv_subGroupStep hI hr
  | serverFlush =>
    obtain ⟨server, hserver, hr⟩ := bind_eq_ok.mp hr
    obtain rfl := Except.ok.inj hr
    exact inv_serverFlush hI hserver

/-- The client `i` has sent with the number of the datagram, from the address `a`. -/
def Hop.BelongsTo (ids : Fin n → IdBufType) (t : Tunnel n) (h : Hop) (i : Fin n) (a : SockAddr) :
    Prop :=
  h.groupId = idBuf2Str (ids i) ∧ ∃ y, .sent a h.conv y ∈ (t.clients i).conns.notes

/-- With different ids one conn of one group belongs to one user only. -/
theorem Inv.belongsTo_unique (hI : Inv ids t) (hids : Function.Injective ids) {h h' : Hop}
    (hh : h ∈ t.hops) (hh' : h' ∈ t.hops) (hg : h'.group = h.group) (hc : h'.conn = h.conn)
    {i j : Fin n} {a b : SockAddr} (hi : h.BelongsTo ids t i a) (hj : h'.BelongsTo ids t j b) :
    j = i ∧ b = a := by
  obtain ⟨hid, y, hy⟩ := hi
  obtain ⟨hid', z, hz⟩ := hj
  obtain ⟨hgid, hconv⟩ := hI.agree h hh h' hh' hg hc
  obtain rfl : j = i := hids (idBuf2Str_injective (hid'.symm.trans (hgid.trans hid)))
  rw [hconv] at hz
  exact ⟨rfl, (hI.clients j).numbered.owner b a h.conv z y hz hy⟩

/-- Whatever the network does, every socket to the target belongs to one address of one client: what
    goes out over it has been sent from there, and what is delivered anywhere has come in over a
    socket that belongs to the place it is delivered to. -/
theorem sockets_private (hids : Function.Injective ids) (key : String) (es : List (Event n))
    (hw : EachStep (step ids) NoWrap (new ids key) es) (hr : run (step ids) (new ids key) es = .ok t) :
    ∃ owner : Ptr → Ptr → Option (Fin n × SockAddr),
      (∀ h ∈ t.hops, h.toTarget = true → ∃ i a v, owner h.group h.conn = some (i, a) ∧
        .sent a v h.payload ∈ (t.clients i).conns.notes) ∧
      ∀ i dest x, .delivered dest x ∈ (t.clients i).conns.notes → ∃ a, dest = .sockaddr a ∧
        ∃ h ∈ t.hops, h.toTarget = false ∧ h.payload = x ∧ owner h.group h.conn = some (i, a) := by
  classical
  have hI : Inv ids t := run_invariant_of_eachStep (fun _ _ _ hI hw hstep => inv_step hI hw hstep)
    (inv_new ids key) hw hr
  let Owns (g c : Ptr) (o : Fin n × SockAddr) : Prop :=
    ∃ h ∈ t.hops, h.group = g ∧ h.conn = c ∧ h.BelongsTo ids t o.1 o.2
  let owner (g c : Ptr) : Option (Fin n × SockAddr) :=
    if ho : ∃ o, Owns g c o then some ho.choose else none
  have howner : ∀ h ∈ t.hops, ∀ i a, h.BelongsTo ids t i a → owner h.group h.conn = some (i, a) := by
    intro h hh i a hb
    have ho : ∃ o, Owns h.group h.conn o := ⟨(i, a), h, hh, rfl, rfl, hb⟩
    obtain ⟨h', hh', hg, hc, hb'⟩ := ho.choose_spec
    obtain ⟨hi, ha⟩ := hI.belongsTo_unique hids hh hh' hg hc hb hb'
    have heq : ho.choose = (i, a) := Prod.ext hi ha
    show (if ho : ∃ o, Owns h.group h.conn o then some ho.choose else none) = some (i, a)
    rw [dif_pos ho, heq]
  refine ⟨owner, ?_, ?_⟩
  · intro h hh hto
    obtain ⟨i, a, hid, ha⟩ := hI.sent h hh hto
    exact ⟨i, a, h.conv, howner h hh i a ⟨hid.symm, h.payload, ha⟩, ha⟩
  · intro i dest x hdel
    obtain ⟨a, v, y, rfl, hsent, h, hh, hto, hpay, hid, rfl⟩ := hI.delivered i dest x hdel
    exact ⟨a, rfl, h, hh, hto, hpay, howner h hh i a ⟨hid, y, hsent⟩⟩

/-- Two clients. -/
def twoIds (i : Fin 2) : IdBufType := ⟨[UInt8.ofNat i, 0, 0, 0, 0, 0, 0, 0], rfl⟩

/-- The net conn of the client. -/
def twoConns (i : Fin 2) : FakeTcp :=
  { mIntKey := 7 + UInt64.ofNat i, mInfo := ServerNetManager.conn24 }

/-- A packet with data of the first conversation of the client, over its net conn. -/
def twoPackets (i : Fin 2) : Info :=
  .tcp { ServerNetManager.conn24 with
    head := some { mIdBuf := twoIds i, mConv := 2, mConnKey := 7 + UInt64.ofNat i } }

/-- Each client has a net conn and sends one datagram, from the same address and with the same number.
    The server gets that of the second client twice, and the target answers it. -/
def twoClients : List (Event 2) :=
  let recv (i : Fin 2) (payload : List UInt8) : Event 2 :=
    .serverRecv .little handle24 (twoPackets i) payload noSend mgr24 0
  [.clientNet 0 (.addNetConn ⟨.fakeTcp (twoConns 0), rfl⟩),
    .clientNet 1 (.addNetConn ⟨.fakeTcp (twoConns 1), rfl⟩),
    .udpRecvCb 0 0x0100007f 5000 [10] NetSide.sent 1, .udpRecvCb 1 0x0100007f 5000 [11] NetSide.sent 1,
    recv 1 [11], recv 0 [10], recv 1 [11], .subGroup 0 (.sconnSend 0 [21] NetSide.sent 1),
    .clientInput 1 .little (twoPackets 1) [21] ⟨1, 1, noSend, noSend⟩]

/-- The answer comes to the client that asked, over a socket that belongs to it. -/
theorem sockets_private_two_clients : ∃ t, run (step twoIds) (new twoIds "server") twoClients = .ok t ∧
    (t.clients 1).conns.notes = [.sent (.inet 0x0100007f 5000) 2 [11],
      .delivered (.sockaddr (.inet 0x0100007f 5000)) [21]] ∧
    ∃ owner : Ptr → Ptr → Option (Fin 2 × SockAddr), ∃ h ∈ t.hops, h.toTarget = false ∧
      h.payload = [21] ∧ owner h.group h.conn = some (1, .inet 0x0100007f 5000) := by
  have hnotes : (run (step twoIds) (new twoIds "server") twoClients).map
      (fun t => (t.clients 1).conns.notes) =
      .ok [.sent (.inet 0x0100007f 5000) 2 [11],
        .delivered (.sockaddr (.inet 0x0100007f 5000)) [21]] := by
    decide +kernel
  cases hr : run (step twoIds) (new twoIds "server") twoClients with
  | error err =>
    rw [hr] at hnotes
    cases hnotes
  | ok t =>
    rw [hr] at hnotes
    have hnotes' : (t.clients 1).conns.notes = _ := Except.ok.inj hnotes
    have hids : ∀ i j, twoIds i = twoIds j → i = j := by decide
    obtain ⟨owner, -, hdel⟩ := sockets_private (fun i j => hids i j) "server" twoClients
      (by decide +kernel) hr
    obtain ⟨a, ha, h, hh, hto, hpay, hown⟩ := hdel 1 (.sockaddr (.inet 0x0100007f 5000)) [21]
      (by rw [hnotes']; decide)
    obtain rfl := DestAddr.sockaddr.inj ha
    exact ⟨t, rfl, hnotes', owner, h, hh, hto, hpay, hown⟩

end Tunnel

end Rsock
