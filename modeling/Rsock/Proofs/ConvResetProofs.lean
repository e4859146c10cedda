import Rsock.Proofs.SubGroupProofs

/-!
# Proofs: conversation resets

Both kinds of app group do with their conns what an `IGroup` can do, and each puts them under keys of
its own: the client under the local address, the server under the peer's address and the number. A
reset closes the conn under the key `BuildConvKey` makes of the address it came from, which need not be
one with that number.
-/

namespace Rsock

open CMem TransSys

/-! ## The texts of the keys -/

/-- A number is written with digits. -/
theorem not_mem_repr {c : Char} (hc : c.isDigit = false) (n : Nat) : c ∉ (Nat.repr n).toList := by
  intro h
  rw [Nat.toList_repr] at h
  have hdigit := Nat.isDigit_of_mem_toDigits (by decide) (by decide) h
  rw [hc] at hdigit
  cases hdigit

/-- What follows the last `a` of a list. -/
theorem eq_of_append_cons_eq {α : Type} {a : α} {l l' d d' : List α}
    (h : l ++ a :: d = l' ++ a :: d') (hd : a ∉ d) (hd' : a ∉ d') : d = d' := by
  rcases List.append_eq_append_iff.mp h with ⟨as, -, has⟩ | ⟨as, -, has⟩
  · cases as with
    | nil => exact (List.cons.inj has).2
    | cons b as =>
      obtain ⟨-, rfl⟩ := List.cons.inj has
      exact absurd (by simp) hd
  · cases as with
    | nil => exact (List.cons.inj has).2.symm
    | cons b as =>
      obtain ⟨-, rfl⟩ := List.cons.inj has
      exact absurd (by simp) hd'

namespace KeyGenerator

/-- A key has the number of its conversation. -/
theorem buildConvKey_conv {dst dst' conv conv' : UInt32}
    (h : buildConvKey dst conv = buildConvKey dst' conv') : conv = conv' := by
  have hlist : ∀ d c : UInt32, (buildConvKey d c).toList =
      ("conv:" ++ inAddr2Ip d).toList ++ ':' :: (Nat.repr c.toNat).toList := by
    intro d c
    simp [buildConvKey, String.toList_append]
  have heq := congrArg String.toList h
  rw [hlist, hlist] at heq
  have hdigits := eq_of_append_cons_eq heq (not_mem_repr (by decide) _) (not_mem_repr (by decide) _)
  exact UInt32.toNat_inj.mp (repr_injective (String.toList_inj.mp hdigits))

/-- The key is not the id of a group. -/
theorem buildConvKey_ne_idBuf2Str (dst conv : UInt32) (id : IdBufType) :
    buildConvKey dst conv ≠ idBuf2Str id := by
  intro h
  have hlen := congrArg String.length h
  have hid : (idBuf2Str id).length = 8 := by
    simp [idBuf2Str, stdString, String.length_ofList, id.length_eq]
  rw [hid] at hlen
  have hdot : ".".length = 1 := by decide
  have hcolon : ":".length = 1 := by decide
  have hconv : "conv:".length = 5 := by decide
  simp [buildConvKey, inAddr2Ip, String.length_append] at hlen
  omega

end KeyGenerator

/-! ## Resets -/

namespace ConnReset

variable {σ β : Type} {conns : σ → IGroup (IConn β)} {closeConn : σ → Ptr → Except Fault σ} {s : σ}
  {o : ByteOrder} {info : ConnInfo}

/-- Four bytes are the number of a conversation. -/
theorem inputConvRst_eq (v : UInt32) (rest : List UInt8) :
    inputConvRst conns closeConn s o info (toLE 4 v.toNat ++ rest) =
      onRecvConvRst conns closeConn s info v := by
  rw [inputConvRst, if_pos (by simp), decodeUint32_toLE]
  rfl

variable (conns info) in
/-- The conns that are left. The virtual `CloseConn` does with the conns what that of `IGroup` does. -/
theorem onRecvConvRst_spec {v : UInt32} (hI : IGroup.Inv IConn.ops (conns s))
    (hkey : KeyGenerator.buildConvKey info.dst v ≠ (conns s).mKey)
    (hclose : ∀ p g, (conns s).closeConn IConn.ops p = .ok g →
      ∃ s', closeConn s p = .ok s' ∧ conns s' = g) :
    ∃ s' n, onRecvConvRst conns closeConn s info v = .ok (s', n) ∧
      ∀ p c, (conns s').Live p c ↔
        (conns s).Live p c ∧ c.mKey ≠ KeyGenerator.buildConvKey info.dst v := by
  unfold onRecvConvRst
  cases hf : (conns s).connOfKey (KeyGenerator.buildConvKey info.dst v) with
  | none =>
    refine ⟨s, -1, rfl, ?_⟩
    intro p c
    refine (and_iff_left_of_imp ?_).symm
    intro hc heq
    have hfound : (conns s).connOfKey c.mKey = some p := hI.connOfKey_of_live hc
    rw [heq, hf] at hfound
    cases hfound
  | some p =>
    obtain ⟨c, hc, hk⟩ := hI.live_of_connOfKey hf
    obtain ⟨g, hg⟩ := IGroup.closeConn_ok hI hc (hk ▸ hkey)
    obtain ⟨s', hs', rfl⟩ := hclose p g hg
    refine ⟨s', 0, by dsimp only; rw [hs']; rfl, ?_⟩
    intro q d
    rw [IGroup.live_closeConn hI hg]
    refine and_congr_right fun hd => not_congr ⟨?_, ?_⟩
    · rintro rfl
      rw [hd.unique hc]
      exact hk
    · intro heq
      have hfound : (conns s).connOfKey d.mKey = some q := hI.connOfKey_of_live hd
      rw [heq, hf] at hfound
      exact (Option.some.inj hfound).symm

end ConnReset

/-- The reset has closed all conns with the number `v` and no other. -/
def ResetDone {β : Type} (conv : β → UInt32) (v : UInt32) (g g' : IGroup (IConn β)) : Prop :=
  (∀ p c, g'.Live p c → conv c.obj ≠ v) ∧ ∀ p c, g.Live p c → conv c.obj ≠ v → g'.Live p c

/-- What closing the conn under a key does for a conversation. -/
theorem resetDone_iff {β : Type} {conv : β → UInt32} {v : UInt32} {k : String}
    {g g' : IGroup (IConn β)} (h : ∀ p c, g'.Live p c ↔ g.Live p c ∧ c.mKey ≠ k) :
    ResetDone conv v g g' ↔ ∀ p c, g.Live p c → (conv c.obj = v ↔ c.mKey = k) := by
  constructor
  · rintro ⟨hgone, hleft⟩ p c hc
    constructor
    · intro hv
      by_contra hne
      exact hgone p c ((h p c).mpr ⟨hc, hne⟩) hv
    · intro hk
      by_contra hne
      exact ((h p c).mp (hleft p c hc hne)).2 hk
  · intro hiff
    constructor
    · intro p c hc hv
      obtain ⟨hc, hne⟩ := (h p c).mp hc
      exact hne ((hiff p c hc).mp hv)
    · intro p c hc hne
      exact (h p c).mpr ⟨hc, fun hk => hne ((hiff p c hc).mpr hk)⟩

/-! ## The conns of the client -/

namespace ClientConns

variable {s s' : ClientConns}

/-- The client puts a conn under the text of its address. -/
def AddrKey (k : String) (o : CConn) : Prop := k = CConn.buildKey o.mAddr

theorem call_cconSend {p : Ptr} {addr : SockAddr} {payload : List UInt8} {n : Int}
    (hr : s.cconSend p addr payload n = .ok s') :
    s.toIGroup.call (.send p n) = .ok s'.toIGroup := by
  obtain ⟨c, hc, hr⟩ := bind_eq_ok.mp hr
  obtain rfl := Except.ok.inj hr
  rw [IGroup.call, hc]
  rfl

theorem runs_onLocalRecv {addr : SockAddr} {payload : List UInt8} {n : Int}
    (hr : s.onLocalRecv addr payload n = .ok s') :
    IGroup.Runs AddrKey s.toIGroup s'.toIGroup := by
  unfold onLocalRecv at hr
  dsimp only at hr
  split at hr
  · exact IGroup.runs_step (e := .call (.send _ n)) (call_cconSend hr) (by simp)
  · have hadd : IGroup.Runs AddrKey s.toIGroup
        (s.newConn (CConn.buildKey addr) addr (s.mConvCounter + 1)).1.toIGroup := by
      refine IGroup.runs_step (e := .call (.addConn (CConn.buildKey addr)
        ⟨addr, s.mConvCounter + 1⟩)) rfl ?_
      intro k o he
      obtain ⟨rfl, rfl⟩ := IGroup.Call.addConn.inj (IGroup.Event.call.inj he)
      rfl
    have hsend := call_cconSend hr
    exact hadd.trans (IGroup.runs_step (e := .call (.send _ n)) hsend (by simp))

theorem runs_closeConn {p : Ptr} (hr : s.closeConn p = .ok s') :
    IGroup.Runs AddrKey s.toIGroup s'.toIGroup := by
  obtain ⟨-, -, hclose, -⟩ := closeConn_cases hr
  exact IGroup.runs_step (e := .call (.closeConn p)) hclose (by simp)

/-- A packet does to the group what its methods do. -/
theorem runs_onRecv {v : UInt32} {payload : List UInt8} {n : Int}
    (hr : s.onRecv v payload n = .ok s') : IGroup.Runs AddrKey s.toIGroup s'.toIGroup := by
  obtain ⟨⟨⟩, -, hr⟩ := bind_eq_ok.mp hr
  dsimp only at hr
  split at hr
  next p _ =>
    obtain ⟨c, hc, hr⟩ := bind_eq_ok.mp hr
    obtain rfl := Except.ok.inj hr
    refine IGroup.runs_step (e := .call (.input p (send2Origin c.obj.mAddr payload n).2)) ?_ (by simp)
    rw [IGroup.step, IGroup.call, hc]
    rfl
  next =>
    obtain rfl := Except.ok.inj hr
    exact IGroup.Runs.refl _ _

theorem runs_input {o : ByteOrder} {info : Info} {payload : List UInt8} {n : Int}
    (hr : s.input o info payload n = .ok s') : IGroup.Runs AddrKey s.toIGroup s'.toIGroup := by
  rcases input_cases hr with ⟨v, -, hr⟩ | ⟨p, hclose⟩ | rfl
  · exact runs_onRecv hr
  · exact runs_closeConn hclose
  · exact IGroup.Runs.refl _ _

theorem flush_toIGroup (hr : s.flush = .ok s') :
    s.toIGroup.flush IConn.ops = .ok s'.toIGroup := by
  obtain ⟨ps, hps, hr⟩ := bind_eq_ok.mp hr
  obtain ⟨s₁, hs₁, hr⟩ := bind_eq_ok.mp hr
  obtain ⟨h, hh, hr⟩ := bind_eq_ok.mp hr
  obtain rfl := Except.ok.inj hr
  rw [IGroup.flush, hps, ok_bind, closeConns_toIGroup hs₁, ok_bind, hh]
  rfl

theorem runs_close (hI : IGroup.Inv IConn.ops s.toIGroup) (hr : s.close = .ok s') :
    IGroup.Runs AddrKey s.toIGroup s'.toIGroup := by
  obtain ⟨s₁, hs₁, hr⟩ := bind_eq_ok.mp hr
  obtain rfl := Except.ok.inj hr
  have hclose := closeConns_toIGroup hs₁
  refine ⟨_, (IGroup.run_closeConns _ _).trans (hclose.trans ?_), ?_⟩
  · rw [← IGroup.mConns_closeConns hI hclose]
  · intro k o hmem
    obtain ⟨p, -, hp⟩ := List.mem_map.mp hmem
    cases hp

/-- What the client does with its conns is what an `IGroup` can do. -/
theorem runs_step {e : Event} (hI : IGroup.Inv IConn.ops s.toIGroup) (hr : s.step e = .ok s') :
    IGroup.Runs AddrKey s.toIGroup s'.toIGroup := by
  cases e with
  | udpRecvCb a port payload n =>
    rw [step, udpRecvCb] at hr
    split at hr
    · exact runs_onLocalRecv hr
    · obtain rfl := Except.ok.inj hr
      exact IGroup.Runs.refl _ _
  | pollCb sunPath payload n =>
    rw [step, pollCb] at hr
    split at hr
    · obtain rfl := Except.ok.inj hr
      exact IGroup.Runs.refl _ _
    · exact runs_onLocalRecv hr
  | input o info payload n => exact runs_input hr
  | flush => exact IGroup.runs_step (e := .flush) (flush_toIGroup hr) (by simp)
  | close => exact runs_close hI hr

theorem each_run {id : IdBufType} {es : List Event} (hr : run step (new id) es = .ok s) :
    IGroup.Each AddrKey s.toIGroup ∧ s.mKey = idBuf2Str id := by
  refine run_invariant
    (J := fun s => IGroup.Each AddrKey s.toIGroup ∧ s.mKey = idBuf2Str id) ?_ ?_ hr
  · rintro s₁ e s₂ ⟨heach, hkey⟩ hstep
    have hruns := runs_step heach.inv hstep
    exact ⟨heach.of_runs hruns, (IGroup.mKey_of_runs hruns).trans hkey⟩
  · exact ⟨IGroup.each_empty _ _, rfl⟩

end ClientConns

/-! ## What a reset does -/

theorem ClientConns.closeConn_ok {s : ClientConns} {p : Ptr} {g : IGroup (IConn CConn)}
    (hg : s.toIGroup.closeConn IConn.ops p = .ok g) :
    ∃ s', s.closeConn p = .ok s' ∧ s'.toIGroup = g := by
  obtain ⟨c, hc, hg⟩ := bind_eq_ok.mp hg
  obtain ⟨⟨⟩, hkey, hg⟩ := bind_eq_ok.mp hg
  obtain ⟨⟨⟩, hfound, hg⟩ := bind_eq_ok.mp hg
  obtain ⟨g₁, hg₁, hg⟩ := bind_eq_ok.mp hg
  obtain ⟨h, hh, hg⟩ := bind_eq_ok.mp hg
  obtain rfl := Except.ok.inj hg
  have hkey' : cassert (c.mKey ≠ s.mKey) = .ok () := hkey
  have hfound' : cassert (s.connOfKey c.mKey = some p) = .ok () := hfound
  rw [closeConn, hc, ok_bind, hkey', ok_bind, hfound', ok_bind, removeConn, hg₁, ok_bind, hc]
  simp only [ok_bind, pure, Except.pure, hh]
  exact ⟨_, rfl, rfl⟩

theorem SubGroup.closeConn_ok {s : SubGroup} {p : Ptr} {g : IGroup (IConn SConn)}
    (hg : s.toIGroup.closeConn IConn.ops p = .ok g) :
    ∃ s', s.closeConn p = .ok s' ∧ s'.toIGroup = g := by
  rw [closeConn, hg]
  exact ⟨_, rfl, rfl⟩

/-- In every state a client or a server can be in, a reset of the conversation `v` closes the conns with
    this number and no other, exactly if these are the conns it keeps under the key of `v` and the
    address the reset came from. The client keeps its conns under local addresses; a server conn with
    another number is never under that key. -/
theorem conv_reset_iff (id : IdBufType) (o : ByteOrder) (info : Info) (head : EncHead) (v : UInt32)
    (rest : List UInt8) (hhead : info.base.head = some head)
    (hcmd : head.mCmd = EncHead.typeConvRst) :
    (∀ es s n, run ClientConns.step (ClientConns.new id) es = .ok s →
      ∃ s', s.step (.input o info (toLE 4 v.toNat ++ rest) n) = .ok s' ∧
        (ResetDone CConn.mConv v s.toIGroup s'.toIGroup ↔ ∀ p c, s.Live p c →
          (c.obj.mConv = v ↔
            CConn.buildKey c.obj.mAddr = KeyGenerator.buildConvKey info.base.dst v))) ∧
    ∀ mgr es s env answer, run SubGroup.step (SubGroup.new id mgr) es = .ok s →
      ∃ s', s.step (.input o env info (toLE 4 v.toNat ++ rest) answer) = .ok s' ∧
        (ResetDone SConn.mConv v s.toIGroup s'.toIGroup ↔ ∀ p c, s.Live p c →
          c.obj.mConv = v → c.mKey = KeyGenerator.buildConvKey info.base.dst v) := by
  have hne : EncHead.typeConvRst ≠ EncHead.typeData := by decide
  constructor
  · intro es s n hr
    obtain ⟨heach, hkey⟩ := ClientConns.each_run hr
    obtain ⟨s', m, hrst, hlive⟩ := ConnReset.onRecvConvRst_spec ClientConns.toIGroup
      info.base (v := v) heach.inv (hkey ▸ KeyGenerator.buildConvKey_ne_idBuf2Str _ _ id)
      (fun p g => ClientConns.closeConn_ok)
    refine ⟨s', ?_, (resetDone_iff hlive).trans ?_⟩
    · rw [ClientConns.step, ClientConns.input, hhead]
      dsimp only
      rw [hcmd, if_neg hne, if_pos rfl, ConnReset.inputConvRst_eq, hrst]
      rfl
    · refine forall₃_congr fun p c hc => ?_
      rw [show c.mKey = CConn.buildKey c.obj.mAddr from heach.each p c hc]
  · intro mgr es s env answer hr
    obtain ⟨heach, hkey⟩ := SubGroup.each_run hr
    obtain ⟨s', m, hrst, hlive⟩ := ConnReset.onRecvConvRst_spec SubGroup.toIGroup
      info.base (v := v) heach.inv (hkey ▸ KeyGenerator.buildConvKey_ne_idBuf2Str _ _ id)
      (fun p g => SubGroup.closeConn_ok)
    refine ⟨s', ?_, (resetDone_iff hlive).trans ?_⟩
    · rw [SubGroup.step, SubGroup.input, hhead]
      dsimp only
      rw [hcmd, if_neg hne, if_pos rfl, ConnReset.inputConvRst_eq, hrst]
      rfl
    · refine forall₃_congr fun p c hc => ⟨Iff.mp, fun h => ⟨h, ?_⟩⟩
      intro hk
      obtain ⟨dst, hdst⟩ := heach.each p c hc
      exact KeyGenerator.buildConvKey_conv (hdst.symm.trans hk)

/-- A packet of conversation 5 comes from 1.2.3.4, and a reset from the same address. -/
theorem reset_from_same_address : ∃ s s', run SubGroup.step idleServer
      [.input .little noHandle (packetFrom 0x04030201 { mConv := 5 }) [1] noSend] = .ok s ∧
    s.step (.input .little noHandle (packetFrom 0x04030201 { mCmd := EncHead.typeConvRst })
      (toLE 4 5) noSend) = .ok s' ∧ ResetDone SConn.mConv 5 s.toIGroup s'.toIGroup := by
  obtain ⟨s, hs, hkeys⟩ := exists_of_toOption (x := run SubGroup.step idleServer
      [.input .little noHandle (packetFrom 0x04030201 { mConv := 5 }) [1] noSend])
    (f := fun s => s.mConns.entries.map Prod.fst) (b := [KeyGenerator.buildConvKey 0x04030201 5])
    (by decide +kernel)
  obtain ⟨s', hs', hdone⟩ := (conv_reset_iff (Buf.zeros 8) .little
    (packetFrom 0x04030201 { mCmd := EncHead.typeConvRst }) _ 5 [] rfl rfl).2 _ _ s noHandle noSend hs
  refine ⟨s, s', hs, hs', hdone.mpr ?_⟩
  rintro p c ⟨⟨k, hk⟩, hc⟩ -
  have hmem := List.mem_map_of_mem (f := Prod.fst) hk
  rw [hkeys, List.mem_singleton] at hmem
  exact ((SubGroup.each_run hs).1.inv.key_of_mem hk hc).trans hmem

theorem not_resetDone {β : Type} {conv : β → UInt32} {v : UInt32} {g g' : IGroup (IConn β)} {p : Ptr}
    (hptrs : g'.mConns.entries.map Prod.snd = [p])
    (hconv : (g'.mHeap.get? p).map (fun c => conv c.obj) = some v) : ¬ ResetDone conv v g g' := by
  rintro ⟨hgone, -⟩
  obtain ⟨c, hc, hv⟩ := Option.map_eq_some_iff.mp hconv
  obtain ⟨⟨k, q⟩, he, rfl⟩ := List.mem_map.mp (hptrs ▸ List.mem_singleton_self p)
  exact hgone q c ⟨⟨k, he⟩, hc⟩ hv

/-- The conversation is still there after the reset: on a client, and on a server when the reset comes
    from another address. -/
theorem reset_has_no_effect :
    (∃ s s', run ClientConns.step (ClientConns.new (Buf.zeros 8))
        [.udpRecvCb 0x0100007f 5000 [1] 1] = .ok s ∧
      s.step (.input .little (packetFrom 0x04030201 { mCmd := EncHead.typeConvRst }) (toLE 4 2) 0) =
        .ok s' ∧ ¬ ResetDone CConn.mConv 2 s.toIGroup s'.toIGroup) ∧
    ∃ s s', run SubGroup.step idleServer
        [.input .little noHandle (packetFrom 0x04030201 { mConv := 5 }) [1] noSend] = .ok s ∧
      s.step (.input .little noHandle (packetFrom 0x05030201 { mCmd := EncHead.typeConvRst })
        (toLE 4 5) noSend) = .ok s' ∧ ¬ ResetDone SConn.mConv 5 s.toIGroup s'.toIGroup := by
  constructor
  · obtain ⟨s', hs', hconn⟩ := exists_of_toOption
      (x := run ClientConns.step (ClientConns.new (Buf.zeros 8)) [.udpRecvCb 0x0100007f 5000 [1] 1] >>=
        (·.step (.input .little (packetFrom 0x04030201 { mCmd := EncHead.typeConvRst }) (toLE 4 2) 0)))
      (f := fun s => (s.mConns.entries.map Prod.snd, (s.mHeap.get? 0).map fun c => c.obj.mConv))
      (b := ([0], some 2)) (by decide +kernel)
    obtain ⟨s, hs, hs'⟩ := bind_eq_ok.mp hs'
    obtain ⟨hptrs, hconv⟩ := Prod.mk.inj hconn
    exact ⟨s, s', hs, hs', not_resetDone hptrs hconv⟩
  · obtain ⟨s', hs', hconn⟩ := exists_of_toOption
      (x := run SubGroup.step idleServer
          [.input .little noHandle (packetFrom 0x04030201 { mConv := 5 }) [1] noSend] >>=
        (·.step (.input .little noHandle (packetFrom 0x05030201 { mCmd := EncHead.typeConvRst })
          (toLE 4 5) noSend)))
      (f := fun s => (s.mConns.entries.map Prod.snd, (s.mHeap.get? 0).map fun c => c.obj.mConv))
      (b := ([0], some 5)) (by decide +kernel)
    obtain ⟨s, hs, hs'⟩ := bind_eq_ok.mp hs'
    obtain ⟨hptrs, hconv⟩ := Prod.mk.inj hconn
    exact ⟨s, s', hs, hs', not_resetDone hptrs hconv⟩

end Rsock
