import Rsock.SockApp
import Rsock.Proofs.CodecProofs

/-!
# Proofs: the UDP side of the apps

From binding a socket to the reply that leaves through it. Three places compute a key from a
`ConnInfo`: binding, the `FakeUdp` and `RConn::Output`. They agree on the client, where the peer's
port is known when the socket is bound.
-/

namespace Rsock

open CMem

theorem repr_injective {m n : Nat} (h : Nat.repr m = Nat.repr n) : m = n := by
  have hdigits : Nat.toDigits 10 m = Nat.toDigits 10 n := by
    rw [← Nat.toList_repr, ← Nat.toList_repr]
    exact congrArg String.toList h
  rw [← Nat.ofDigitChars_ten_toDigits (n := m), hdigits, Nat.ofDigitChars_ten_toDigits]

namespace KeyGenerator

theorem portKey_mod {type : UInt64} (h : type.toNat % 2 ^ 16 = 0) (sp dp : UInt16) :
    (portKey type sp dp).toNat % 2 ^ 16 = sp.toNat := by
  have hdp : (dp.toUInt64 <<< 16).toNat % 2 ^ 16 = 0 := by
    simp [Nat.shiftLeft_eq]
  have hsp : sp.toNat % 2 ^ 16 = sp.toNat := Nat.mod_eq_of_lt sp.toNat_lt
  rw [portKey, UInt64.toNat_or, UInt64.toNat_or, Nat.or_mod_two_pow, Nat.or_mod_two_pow, h, hdp,
    UInt16.toNat_toUInt64, hsp, Nat.zero_or, Nat.zero_or]

theorem strForIntKey_injective {a b : IntKeyType} (h : strForIntKey a = strForIntKey b) :
    a = b :=
  UInt64.toNat_inj.mp (repr_injective h)

theorem strForIntKey_portKey_ne {type : UInt64} (h : type.toNat % 2 ^ 16 = 0) {sp sp' : UInt16}
    (hne : sp ≠ sp') (dp dp' : UInt16) :
    strForIntKey (portKey type sp dp) ≠ strForIntKey (portKey type sp' dp') := by
  intro heq
  have hk := strForIntKey_injective heq
  have hmod := portKey_mod h sp dp
  rw [hk, portKey_mod h] at hmod
  exact hne (UInt16.toNat_inj.mp hmod.symm)

theorem portKey_swap_iff {type : UInt64} (h : type.toNat % 2 ^ 16 = 0) {sp dp : UInt16} :
    portKey type dp sp = portKey type sp dp ↔ sp = dp := by
  constructor
  · intro heq
    have hmod := portKey_mod h sp dp
    rw [← heq, portKey_mod h] at hmod
    exact UInt16.toNat_inj.mp hmod.symm
  · rintro rfl
    rfl

theorem keyForUdp_of_ne {info : ConnInfo} (hs : info.sp ≠ 0) (hd : info.dp ≠ 0) :
    keyForUdp info = .ok (portKey typeUdp info.sp info.dp) := by
  rw [keyForUdp, cassert_pos ⟨hs, hd⟩]
  rfl

theorem keyForUdp_of_dp {info : ConnInfo} (hd : info.dp = 0) :
    keyForUdp info = .error .assertFailed := by
  rw [keyForUdp, cassert_neg fun h => h.2 hd]
  rfl

end KeyGenerator

open KeyGenerator

/-! ## Binding -/

/-- The bottom connection for a socket bound to `addr` and `port`. -/
def BtmUdpConn.ofBound (dst : UInt32) (dp : UInt16) (udp : Nat) (addr : UInt32) (port : UInt16) :
    BtmUdpConn :=
  ⟨strForIntKey (portKey typeUdp port dp), udp, { src := addr, sp := port, dst := dst, dp := dp }⟩

namespace ISockApp

/-- What a pass of the loop leaves of its socket when no assertion trips. -/
def boundConn (dst : UInt32) (dp : UInt16) (sock : UdpSock) : Option BtmUdpConn :=
  match sock.bound with
  | none => none
  | some (addr, port) =>
    if sock.recvStart = 0 then some (.ofBound dst dp sock.mUdp addr port) else none

variable {src dst : UInt32} {sp dp : UInt16} {sock : UdpSock}

theorem bindUdpConn_of_not_bound (h : sock.bound = none) (info : ConnInfo) :
    bindUdpConn info sock = .ok none := by
  simp only [bindUdpConn, NetUtil.createBtmUdpConn, h]
  rfl

theorem bindUdpConn_of_dp_ne (hsock : ∀ addr port, sock.bound = some (addr, port) → port ≠ 0)
    (hd : dp ≠ 0) :
    bindUdpConn { src := src, dst := dst, sp := sp, dp := dp } sock =
      .ok (boundConn dst dp sock) := by
  rcases hb : sock.bound with _ | ⟨addr, port⟩
  · rw [bindUdpConn_of_not_bound hb, boundConn, hb]
  · have hp : port ≠ 0 := hsock addr port hb
    have hkey : keyForUdp { src := addr, dst := dst, sp := port, dp := dp } =
        .ok (portKey typeUdp port dp) := keyForUdp_of_ne hp hd
    simp only [bindUdpConn, NetUtil.createBtmUdpConn, hb, keyForConnInfo, hkey, ok_bind,
      BtmUdpConn.init, if_neg hp, boundConn, BtmUdpConn.ofBound, pure, Except.pure, and_self,
      cassert_pos]

/-- Without the peer's port already the first key of a bound socket trips the assertion. -/
theorem bindUdpConn_of_dp_eq {info : ConnInfo} (hb : sock.bound ≠ none) (hd : info.dp = 0) :
    bindUdpConn info sock = .error .assertFailed := by
  obtain ⟨⟨addr, port⟩, hb⟩ := Option.ne_none_iff_exists'.mp hb
  have hkey : keyForUdp { info with src := addr, sp := port } = .error .assertFailed :=
    keyForUdp_of_dp hd
  simp only [bindUdpConn, NetUtil.createBtmUdpConn, hb, keyForConnInfo, hkey, error_bind]

theorem bindLoop_eq {l : List ((UInt16 × UInt16) × UdpSock)}
    (hsock : ∀ e ∈ l, ∀ addr port, e.2.bound = some (addr, port) → port ≠ 0) :
    bindLoop src dst l = if ∀ e ∈ l, e.2.bound ≠ none → e.1.2 ≠ 0 then
      .ok (l.filterMap fun e => boundConn dst e.1.2 e.2) else .error .assertFailed := by
  induction l with
  | nil => simp [bindLoop, pure, Except.pure]
  | cons e l ih =>
    obtain ⟨⟨sp, dp⟩, sock⟩ := e
    have hsock' : ∀ e ∈ l, ∀ addr port, e.2.bound = some (addr, port) → port ≠ 0 := by
      intro e he
      exact hsock e (List.mem_cons_of_mem _ he)
    have hrest := ih hsock'
    by_cases hbad : sock.bound ≠ none ∧ dp = 0
    · rw [bindLoop, bindUdpConn_of_dp_eq hbad.1 hbad.2, error_bind, if_neg]
      intro hall
      exact hall _ List.mem_cons_self hbad.1 hbad.2
    · have hhead : sock.bound ≠ none → dp ≠ 0 := by
        intro hb hd
        exact hbad ⟨hb, hd⟩
      have hconn : bindUdpConn { src := src, dst := dst, sp := sp, dp := dp } sock =
          .ok (boundConn dst dp sock) := by
        by_cases hb : sock.bound = none
        · rw [bindUdpConn_of_not_bound hb, boundConn, hb]
        · exact bindUdpConn_of_dp_ne (hsock _ List.mem_cons_self) (hhead hb)
      rw [bindLoop, hconn, hrest, ok_bind]
      by_cases hall : ∀ e ∈ l, e.2.bound ≠ none → e.1.2 ≠ 0
      · rw [if_pos hall, if_pos (List.forall_mem_cons.mpr ⟨hhead, hall⟩), ok_bind,
          List.filterMap_cons]
        cases boundConn dst dp sock <;> rfl
      · rw [if_neg hall, if_neg fun h => hall (List.forall_mem_cons.mp h).2, error_bind]

end ISockApp

/-- What the system promises about sockets: a bound socket has a port, and no two sockets are bound
    to the same one. -/
structure OsSockets (socks : List UdpSock) : Prop where
  port_ne_zero : ∀ sock ∈ socks, ∀ addr port, sock.bound = some (addr, port) → port ≠ 0
  port_ne : socks.Pairwise fun s t => ∀ addr port addr' port', s.bound = some (addr, port) →
    t.bound = some (addr', port') → port ≠ port'

namespace Role

variable {role : Role} {conf : UdpConf} {socks : List UdpSock}

/-- The local and the peer port the role's app binds a socket with. -/
def portPair (port : UInt16) : Role → UInt16 × UInt16
  | client => (0, port)
  | server => (port, 0)

/-- The address of the peer the role's app binds a socket with. -/
def peerAddr (conf : UdpConf) : Role → UInt32
  | client => conf.targetCapInt
  | server => 0

/-- The conns of the application in the role. -/
def rconn (conf : UdpConf) : Role → RConn
  | client => { mHashKey := conf.hashKey }
  | server => { mHashKey := conf.hashKey, mRawTcp := { mIsServer := true } }

/-- The UDP conns over the bottom sockets. -/
def btmConns (role : Role) (conf : UdpConf) (socks : List UdpSock) : List BtmUdpConn :=
  (conf.capPorts.zip socks).filterMap fun e =>
    ISockApp.boundConn (role.peerAddr conf) (role.portPair e.1).2 e.2

/-- Every socket that binds has a peer port. -/
def HasPeerPorts (role : Role) (conf : UdpConf) (socks : List UdpSock) : Prop :=
  ∀ e ∈ conf.capPorts.zip socks, e.2.bound ≠ none → role = client ∧ e.1 ≠ 0

theorem createBtmConn_eq_map (hne : conf.capPorts ≠ []) :
    role.createBtmConn conf socks =
      (ISockApp.bindLoop conf.selfCapInt (role.peerAddr conf)
        ((conf.capPorts.map fun p => role.portPair p).zip socks)).map
      fun vec => vec.foldl RConn.addUdpConn (role.rconn conf) := by
  have hlen : conf.capPorts.length ≠ 0 := by simpa using hne
  cases role with
  | client =>
    have hzip (l : List UInt16) :
        (List.replicate l.length 0).zip l = l.map fun p => client.portPair p := by
      induction l with
      | nil => rfl
      | cons p l ih => rw [List.length_cons, List.replicate_succ, List.zip_cons_cons, ih]; rfl
    simp only [createBtmConn, CSockApp.createBtmConn, ISockApp.bindUdpConns, hzip,
      List.length_replicate, min_self, cassert_pos hlen, ok_bind]
    rfl
  | server =>
    have hzip (l : List UInt16) :
        l.zip (List.replicate l.length 0) = l.map fun p => server.portPair p := by
      induction l with
      | nil => rfl
      | cons p l ih => rw [List.length_cons, List.replicate_succ, List.zip_cons_cons, ih]; rfl
    simp only [createBtmConn, SSockApp.createBtmConn, ISockApp.bindUdpConns, hzip,
      List.length_replicate, min_self, cassert_pos hlen, ok_bind]
    rfl

theorem hasPeerPorts_iff : role.HasPeerPorts conf socks ↔
    ∀ e ∈ (conf.capPorts.map fun p => role.portPair p).zip socks, e.2.bound ≠ none → e.1.2 ≠ 0 := by
  rw [List.zip_map_left, List.forall_mem_map]
  cases role with
  | client => simp [HasPeerPorts, portPair]
  | server => simp [HasPeerPorts, portPair]

section Os

variable (hne : conf.capPorts ≠ []) (hos : OsSockets socks)

include hne hos

theorem createBtmConn_of_peerPorts (h : role.HasPeerPorts conf socks) :
    role.createBtmConn conf socks =
      .ok ((role.btmConns conf socks).foldl RConn.addUdpConn (role.rconn conf)) := by
  rw [createBtmConn_eq_map hne, ISockApp.bindLoop_eq, if_pos (hasPeerPorts_iff.mp h)]
  · rw [List.zip_map_left, List.filterMap_map]
    rfl
  · intro e he
    exact hos.port_ne_zero e.2 (List.of_mem_zip he).2

theorem createBtmConn_of_not_peerPorts (h : ¬ role.HasPeerPorts conf socks) :
    role.createBtmConn conf socks = .error .assertFailed := by
  rw [createBtmConn_eq_map hne, ISockApp.bindLoop_eq, if_neg fun h' => h (hasPeerPorts_iff.mpr h')]
  · rfl
  · intro e he
    exact hos.port_ne_zero e.2 (List.of_mem_zip he).2

end Os

theorem mem_btmConns {b : BtmUdpConn} : b ∈ role.btmConns conf socks ↔
    ∃ e ∈ conf.capPorts.zip socks, ∃ addr port, e.2.bound = some (addr, port) ∧
      e.2.recvStart = 0 ∧
      b = .ofBound (role.peerAddr conf) (role.portPair e.1).2 e.2.mUdp addr port := by
  simp only [btmConns, List.mem_filterMap]
  constructor
  · rintro ⟨e, he, hb⟩
    rcases hbound : e.2.bound with _ | ⟨addr, port⟩
    · simp [ISockApp.boundConn, hbound] at hb
    · by_cases hr : e.2.recvStart = 0
      · rw [ISockApp.boundConn, hbound] at hb
        simp only [hr, if_true, Option.some.injEq] at hb
        exact ⟨e, he, addr, port, hbound, hr, hb.symm⟩
      · simp [ISockApp.boundConn, hbound, hr] at hb
  · rintro ⟨e, he, addr, port, hbound, hr, rfl⟩
    refine ⟨e, he, ?_⟩
    simp [ISockApp.boundConn, hbound, hr]

theorem btmConns_key_ne (hlen : socks.length = conf.capPorts.length) (hos : OsSockets socks) :
    (role.btmConns conf socks).Pairwise fun b b' => b.mKey ≠ b'.mKey := by
  have hzip : (conf.capPorts.zip socks).Pairwise fun e e' => ∀ addr port addr' port',
      e.2.bound = some (addr, port) → e'.2.bound = some (addr', port') → port ≠ port' := by
    have hsnd : (conf.capPorts.zip socks).map Prod.snd = socks :=
      List.map_snd_zip (Nat.le_of_eq hlen)
    have hp := hos.port_ne
    rw [← hsnd, List.pairwise_map] at hp
    exact hp
  refine hzip.filterMap _ ?_
  intro e e' hports b hb b' hb'
  rcases hbound : e.2.bound with _ | ⟨addr, port⟩
  · simp [ISockApp.boundConn, hbound] at hb
  rcases hbound' : e'.2.bound with _ | ⟨addr', port'⟩
  · simp [ISockApp.boundConn, hbound'] at hb'
  simp only [ISockApp.boundConn, hbound, Option.ite_none_right_eq_some, Option.some.injEq] at hb
  simp only [ISockApp.boundConn, hbound', Option.ite_none_right_eq_some, Option.some.injEq] at hb'
  obtain ⟨-, rfl⟩ := hb
  obtain ⟨-, rfl⟩ := hb'
  have hne : port ≠ port' := hports addr port addr' port' hbound hbound'
  exact strForIntKey_portKey_ne (by decide) hne _ _

end Role

/-! ## Looking a socket up -/

namespace RConn

variable {c : RConn}

theorem mConns_foldl_addUdpConn (vec : List BtmUdpConn) :
    (vec.foldl addUdpConn c).mConns = vec.foldl (fun m b => m.emplace b.mKey b) c.mConns := by
  induction vec generalizing c with
  | nil => rfl
  | cons b vec ih => rw [List.foldl_cons, List.foldl_cons, ih, addUdpConn]

theorem mem_foldl_addUdpConn (hc : c.mConns = StdMap.empty) {vec : List BtmUdpConn}
    (hne : vec.Pairwise fun b b' => b.mKey ≠ b'.mKey) {e : String × BtmUdpConn} :
    e ∈ (vec.foldl addUdpConn c).mConns.entries ↔ ∃ b ∈ vec, e = (b.mKey, b) := by
  have hsame : vec.Pairwise fun b b' => ¬ StdMap.Same (· < ·) b.mKey b'.mKey := by
    refine hne.imp ?_
    intro b b' hkey hs
    exact hkey ((StdMap.same_iff_rank_eq (f := id) fun _ _ => Iff.rfl).mp hs)
  have hnew : ∀ b ∈ vec, c.mConns.find? b.mKey = none := by
    intro b _
    rw [hc]
    rfl
  rw [mConns_foldl_addUdpConn, StdMap.mem_foldl_emplace hnew hsame, hc]
  simp [StdMap.empty]

theorem get?_recvDatagrams {key : String} {b : BtmUdpConn} (h : c.mConns.get? key = some b)
    (dgrams : List (Nat × UInt32 × UInt16)) :
    ∃ b', (c.recvDatagrams dgrams).mConns.get? key = some b' ∧ b'.mUdp = b.mUdp := by
  induction dgrams generalizing c b with
  | nil => exact ⟨b, h, rfl⟩
  | cons d dgrams ih =>
    have hd : (c.recvDatagram d.1 d.2.1 d.2.2).mConns.get? key =
        some (if b.mUdp = d.1 then b.fillInfo d.2.1 d.2.2 else b) := by
      rw [recvDatagram, StdMap.get?_mapValues, h]
      rfl
    obtain ⟨b', hb', hudp⟩ := ih hd
    refine ⟨b', hb', ?_⟩
    rw [hudp]
    split <;> rfl

end RConn

/-- Whatever datagrams have arrived, what `f` sends leaves through the socket of `b`. -/
def FakeUdp.FindsSocket (f : FakeUdp) (md5 : Md5) (c : RConn) (b : BtmUdpConn) : Prop :=
  ∀ (dgrams : List (Nat × UInt32 × UInt16)) (hd : EncHead) (payload : List UInt8)
    (ret : RConn.OutAct → Int), 1 ≤ payload.length → payload.length ≤ 1469 →
    ∃ f' n b' info pkt, (NetConn.fakeUdp f).output hd payload
        ((c.recvDatagrams dgrams).outputCb md5 ret) = .ok (f', n, .udpSend b' info pkt) ∧
      b'.mUdp = b.mUdp

/-- The `FakeUdp`s above `b` are created, and their replies find its socket. On the server the
    header of the datagram carries the key of the client's `FakeUdp`, which sees the two ports the
    other way round. -/
def Role.RepliesFind (md5 : Md5) (c : RConn) (b : BtmUdpConn) : Role → Prop
  | client => ∃ f, CSockApp.udpNetConn b = .ok f ∧ f.FindsSocket md5 c b
  | server => ∀ addr port (head : EncHead),
    keyForUdp { src := addr, sp := port, dst := b.mInfo.src, dp := b.mInfo.sp } =
      .ok head.mConnKey →
    ∃ f, SNetGroup.udpNetConn b addr port head = .ok f ∧ f.FindsSocket md5 c b

/-- UDP replies find their socket: no assertion trips while the sockets are bound, every socket that
    binds and receives has its bottom connection, and the replies of the `FakeUdp`s above each
    leave through its socket. -/
def Role.UdpRepliesFind (role : Role) (md5 : Md5) (conf : UdpConf) (socks : List UdpSock) : Prop :=
  ∃ c, role.createBtmConn conf socks = .ok c ∧
    (∀ sock ∈ socks, sock.bound ≠ none → sock.recvStart = 0 →
      ∃ b, (b.mKey, b) ∈ c.mConns.entries ∧ b.mUdp = sock.mUdp) ∧
    ∀ b, (b.mKey, b) ∈ c.mConns.entries → role.RepliesFind md5 c b

theorem FakeUdp.findsSocket_ofBound {c : RConn} (md5 : Md5) {dst addr : UInt32} {dp port : UInt16}
    {udp : Nat} {f : FakeUdp} (hp : port ≠ 0) (hd : dp ≠ 0)
    (hget : c.mConns.get? (BtmUdpConn.ofBound dst dp udp addr port).mKey =
      some (.ofBound dst dp udp addr port))
    (hf : f.mInfo = (BtmUdpConn.ofBound dst dp udp addr port).mInfo) :
    f.FindsSocket md5 c (.ofBound dst dp udp addr port) := by
  intro dgrams hd' payload ret h0 h1
  obtain ⟨b', hb', hudp⟩ := RConn.get?_recvDatagrams hget dgrams
  have hkey : keyForUdp { f.mInfo with head := some (hd'.setConnKey f.mIntKey) } =
      .ok (portKey typeUdp port dp) := by
    rw [hf]
    exact keyForUdp_of_ne hp hd
  have hout := RConn.output_udp_of_get? (c.recvDatagrams dgrams) md5 rfl h0 h1 hkey hb'
  have hcb : (c.recvDatagrams dgrams).outputCb md5 ret ((NetConn.fakeUdp f).outInfo hd') payload =
    _ := RConn.outputCb_of_output hout ret
  obtain ⟨f', hf'⟩ := NetConn.output_ok_iff.mpr hcb
  exact ⟨f', _, b', _, _, hf', hudp⟩

theorem CSockApp.udpNetConn_ofBound {dst addr : UInt32} {dp port : UInt16} {udp : Nat}
    (hp : port ≠ 0) (hd : dp ≠ 0) :
    ∃ f, CSockApp.udpNetConn (.ofBound dst dp udp addr port) = .ok f ∧
      f.mInfo = (BtmUdpConn.ofBound dst dp udp addr port).mInfo := by
  have hkey : keyForUdp (BtmUdpConn.ofBound dst dp udp addr port).mInfo =
      .ok (portKey typeUdp port dp) := keyForUdp_of_ne hp hd
  refine ⟨⟨{ mIntKey := portKey typeUdp port dp }, (BtmUdpConn.ofBound dst dp udp addr port).mInfo⟩,
    ?_, rfl⟩
  simp only [CSockApp.udpNetConn, FakeUdp.new, keyForConnInfo, hkey, ok_bind, cassert_pos]
  rfl

/-- UDP replies find their socket exactly when every socket that binds does so on a client, for a
    server port that is not 0. A server binds with the peer port 0, which already its first key
    does not accept. -/
theorem Role.udpRepliesFind_iff (role : Role) (md5 : Md5) (conf : UdpConf) (socks : List UdpSock)
    (hne : conf.capPorts ≠ []) (hlen : socks.length = conf.capPorts.length)
    (hos : OsSockets socks) :
    role.UdpRepliesFind md5 conf socks ↔
      ∀ e ∈ conf.capPorts.zip socks, e.2.bound ≠ none → role = client ∧ e.1 ≠ 0 := by
  show _ ↔ role.HasPeerPorts conf socks
  constructor
  · rintro ⟨c, hc, -⟩
    by_contra hpeer
    rw [createBtmConn_of_not_peerPorts hne hos hpeer] at hc
    cases hc
  · intro hpeer
    have hempty : (role.rconn conf).mConns = StdMap.empty := by cases role <;> rfl
    have hmem {e : String × BtmUdpConn} :=
      RConn.mem_foldl_addUdpConn hempty (role.btmConns_key_ne hlen hos) (e := e)
    refine ⟨_, createBtmConn_of_peerPorts hne hos hpeer, ?_, ?_⟩
    · intro sock hsock hbound hrecv
      obtain ⟨⟨addr, port⟩, hb⟩ := Option.ne_none_iff_exists'.mp hbound
      have hsnd : (conf.capPorts.zip socks).map Prod.snd = socks :=
        List.map_snd_zip (Nat.le_of_eq hlen)
      rw [← hsnd] at hsock
      obtain ⟨e, he, rfl⟩ := List.mem_map.mp hsock
      exact ⟨_, hmem.mpr ⟨_, mem_btmConns.mpr ⟨e, he, addr, port, hb, hrecv, rfl⟩, rfl⟩, rfl⟩
    · intro b hb
      obtain ⟨b', hb', heq⟩ := hmem.mp hb
      obtain rfl : b = b' := congrArg Prod.snd heq
      obtain ⟨e, he, addr, port, hbound, hrecv, rfl⟩ := mem_btmConns.mp hb'
      obtain ⟨rfl, hdp⟩ := hpeer e he (by simp [hbound])
      have hp : port ≠ 0 := hos.port_ne_zero e.2 (List.of_mem_zip he).2 addr port hbound
      obtain ⟨f, hf, hinfo⟩ := CSockApp.udpNetConn_ofBound hp hdp
      refine ⟨f, hf, FakeUdp.findsSocket_ofBound md5 hp hdp ?_ hinfo⟩
      rw [StdMap.get?, StdMap.mem_iff_find?.mp hb]
      rfl

def confPort10000 : UdpConf := ⟨[107], 0x0100007f, 0x0200007f, [10000]⟩

/-- A client whose socket is bound to port 40000. -/
theorem Role.udpRepliesFind_client :
    client.UdpRepliesFind md5OfStar confPort10000 [⟨1, some (0x0100007f, 40000), 0⟩] :=
  (udpRepliesFind_iff client md5OfStar confPort10000 _ (by decide) rfl
    ⟨by simp, by simp⟩).mpr (by simp [confPort10000])

/-- A server whose socket is bound to the configured port. -/
theorem Role.not_udpRepliesFind_server :
    server.createBtmConn confPort10000 [⟨1, some (0x0200007f, 10000), 0⟩] =
        .error .assertFailed ∧
      ¬ server.UdpRepliesFind md5OfStar confPort10000 [⟨1, some (0x0200007f, 10000), 0⟩] := by
  have hfault : server.createBtmConn confPort10000 [⟨1, some (0x0200007f, 10000), 0⟩] =
      .error .assertFailed := rfl
  refine ⟨hfault, ?_⟩
  rintro ⟨c, hc, -⟩
  rw [hfault] at hc
  cases hc

end Rsock
