import Rsock.Proofs.NetSideProofs

/-!
# Proofs: keepalive

`mReqMap` agrees with a tally of the notes: under the key of a conn is one less than the number of
times `canSendRequest` has held for it since its record was cleared. At the fourth time three requests
have been made, and the conn is notified.
-/

namespace Rsock

open CMem TransSys INetGroup

/-! ## When a conn may be asked -/

namespace NetConnKeepAlive

variable {conn : INetConn} {t t₂ : UInt64}

/-- How old the conn is, in milliseconds. -/
def age (conn : INetConn) (t : UInt64) : Nat := t.toNat - conn.mEstablishedTimeStampMs.toNat

/-- The age is below the delay, or what an `int` keeps of it is not. -/
def FitsInt (conn : INetConn) (t : UInt64) : Prop :=
  age conn t < 15000 ∨ 15000 ≤ age conn t % 2 ^ 32 ∧ age conn t % 2 ^ 32 < 2 ^ 31

theorem mNew_of_canSendRequest (h : canSendRequest conn t = true) : conn.mNew = false := by
  unfold canSendRequest at h
  split at h
  · cases h
  · next hnew => simpa using hnew

/-- The low 32 bits of the age, as a signed number, are compared with the delay. -/
theorem canSendRequest_iff (hnew : conn.mNew = false) : canSendRequest conn t = true ↔
    15000 ≤ age conn t % 2 ^ 32 ∧ age conn t % 2 ^ 32 < 2 ^ 31 := by
  unfold canSendRequest
  rw [if_neg (by simp [hnew])]
  by_cases hlt : conn.mEstablishedTimeStampMs < t
  · have hle : conn.mEstablishedTimeStampMs.toNat ≤ t.toNat := Nat.le_of_lt hlt
    have hdiff : (t - conn.mEstablishedTimeStampMs).toUInt32.toNat = age conn t % 2 ^ 32 := by
      rw [UInt64.toNat_toUInt32, UInt64.toNat_sub_of_le _ _ hle]
      rfl
    have hint : (t - conn.mEstablishedTimeStampMs).toUInt32.toBitVec.toInt =
        if 2 * (age conn t % 2 ^ 32) < 2 ^ 32 then ((age conn t % 2 ^ 32 : Nat) : Int)
        else ((age conn t % 2 ^ 32 : Nat) : Int) - 2 ^ 32 := by
      rw [BitVec.toInt_eq_toNat_cond, UInt32.toNat_toBitVec, hdiff]
      rfl
    have hlow : age conn t % 2 ^ 32 < 2 ^ 32 := Nat.mod_lt _ (by decide)
    rw [if_pos hlt]
    simp only [hint, requestDelay, ge_iff_le, decide_eq_true_eq]
    split <;> omega
  · have hage : age conn t = 0 := Nat.sub_eq_zero_of_le (Nat.not_lt.mp hlt)
    rw [if_neg hlt, hage]
    decide

theorem canSendRequest_eq_old_iff (hnew : conn.mNew = false) :
    (canSendRequest conn t = true ↔ conn.mEstablishedTimeStampMs.toNat + 15000 ≤ t.toNat) ↔
      FitsInt conn t := by
  have hold : conn.mEstablishedTimeStampMs.toNat + 15000 ≤ t.toNat ↔ 15000 ≤ age conn t := by
    unfold age
    omega
  have hle : age conn t % 2 ^ 32 ≤ age conn t := Nat.mod_le _ _
  rw [canSendRequest_iff hnew, hold]
  unfold FitsInt
  omega

/-- A conn that may be asked may be asked from then on, and it may be asked exactly if it is old
    enough, as long as its age fits into an `int`. -/
theorem asked_from_then_on_iff (conn : INetConn) (t t₂ : UInt64) (hnew : conn.mNew = false)
    (hle : t ≤ t₂) :
    ((canSendRequest conn t = true → canSendRequest conn t₂ = true) ∧
      (canSendRequest conn t = true ↔ conn.mEstablishedTimeStampMs.toNat + 15000 ≤ t.toNat) ∧
      (canSendRequest conn t₂ = true ↔ conn.mEstablishedTimeStampMs.toNat + 15000 ≤ t₂.toNat)) ↔
    FitsInt conn t ∧ FitsInt conn t₂ := by
  rw [canSendRequest_eq_old_iff hnew, canSendRequest_eq_old_iff hnew]
  refine ⟨And.right, fun hfits => ⟨?_, hfits⟩⟩
  intro hask
  have hold := ((canSendRequest_eq_old_iff hnew).mpr hfits.1).mp hask
  have hle' : t.toNat ≤ t₂.toNat := hle
  exact ((canSendRequest_eq_old_iff hnew).mpr hfits.2).mpr (hold.trans hle')

/-- A conn that was established at 0 and has sent something. -/
def oldConn : INetConn := { mIntKey := 1, mEstablishedTimeStampMs := 0, mNew := false }

theorem asked_from_15_seconds_on :
    canSendRequest oldConn 15000 = true ∧ canSendRequest oldConn 20000 = true := by
  have hfits : FitsInt oldConn 15000 ∧ FitsInt oldConn 20000 := by
    unfold FitsInt
    decide
  obtain ⟨hon, hold, -⟩ :=
    (asked_from_then_on_iff oldConn 15000 20000 rfl (by decide)).mpr hfits
  have hask := hold.mpr (by decide)
  exact ⟨hask, hon hask⟩

/-- After 2147483648 ms, almost 25 days, the age is taken for negative. -/
theorem not_asked_after_25_days : ∃ conn t t₂, conn.mNew = false ∧ t ≤ t₂ ∧
    canSendRequest conn t = true ∧ canSendRequest conn t₂ = false :=
  ⟨oldConn, 15000, 2147483648, by decide⟩

end NetConnKeepAlive

namespace NetSide

variable {s s' s'' : NetSide} {cmd : UInt8} {o : ByteOrder} {env : SendEnv}

/-! ## The tally of a key -/

/-- Since the record of a key was last cleared: the requests made for it, and the times
    `canSendRequest` has held for its conn. -/
@[ext]
structure Tally where
  reqs : Nat := 0
  asked : Nat := 0

/-- The tally of the key `k` after one more note. -/
def tallyNote (k : IntKeyType) (t : Tally) : Note → Tally
  | .output _ _ => t
  | .flush keys => if k ∈ keys then t else {}
  | .canSend key => if key = k then { t with asked := t.asked + 1 } else t
  | .request _ key => if key = k then { t with reqs := t.reqs + 1 } else t
  | .timeout key _ => if key = k then {} else t
  | .response key => if key = k then {} else t
  | .route => {}

/-- The notes of a key, counted. -/
def tally (k : IntKeyType) (ns : List Note) : Tally := ns.foldl (tallyNote k) {}

theorem tally_concat (k : IntKeyType) (ns : List Note) (n : Note) :
    tally k (ns ++ [n]) = tallyNote k (tally k ns) n := by
  rw [tally, List.foldl_append]
  rfl

theorem tally_append_outputs (k : IntKeyType) (ns : List Note) (l : List (ConnPtr × UInt8)) :
    tally k (ns ++ l.map fun e => .output e.1 e.2) = tally k ns := by
  induction l generalizing ns with
  | nil => rw [List.map_nil, List.append_nil]
  | cons e l ih =>
    rw [List.map_cons, ← List.singleton_append, ← List.append_assoc, ih, tally_concat]
    rfl

theorem Sends.tally_eq (h : Sends cmd s s') (k : IntKeyType) : tally k s'.notes = tally k s.notes := by
  obtain ⟨as, -, hnotes, -⟩ := h.does
  rw [hnotes, tally_append_outputs]

/-- The record of a key, of at most `b`, agrees with its tally. -/
def Agrees (b : Nat) : Option Int → Tally → Prop
  | none, t => t = {}
  | some n, t => ∃ m : Nat, n = m ∧ m ≤ b ∧ t = { reqs := min (m + 1) 3, asked := m + 1 }

/-- All records do. -/
def Counted (b : IntKeyType → Nat) (s : NetSide) : Prop :=
  ∀ k, Agrees (b k) (s.mKeepAlive.mReqMap.get? k) (tally k s.notes)

theorem Agrees.mono {b b' : Nat} {r : Option Int} {t : Tally} (h : Agrees b r t) (hb : b ≤ b') :
    Agrees b' r t := by
  cases r with
  | none => exact h
  | some n =>
    obtain ⟨m, hn, hm, ht⟩ := h
    exact ⟨m, hn, hm.trans hb, ht⟩

theorem Sends.counted {b : IntKeyType → Nat} (h : Sends cmd s s') (hC : Counted b s) :
    Counted b s' := by
  intro k
  rw [h.keepAlive, h.tally_eq]
  exact hC k

/-! ## `OnFlush` -/

/-- The records that are left have a conn in the group. -/
theorem removeInvalidRequest_spec {keys : List IntKeyType}
    (hI : INetGroup.Inv Any s.mFakeNetGroup.group s.mFakeNetGroup.heap)
    (hr : removeInvalidRequest keys s = .ok s') :
    ∃ m, s' = { s with mKeepAlive.mReqMap := m } ∧ ∀ k, m.get? k =
      if k ∈ keys ∧ s.mFakeNetGroup.group.mConnMap.get? k = none then none
      else s.mKeepAlive.mReqMap.get? k := by
  induction keys generalizing s with
  | nil =>
    obtain rfl := Except.ok.inj hr
    exact ⟨_, rfl, by simp⟩
  | cons key keys ih =>
    rw [removeInvalidRequest, hI.connOfIntKey_eq, ok_bind] at hr
    cases hconn : s.mFakeNetGroup.group.mConnMap.get? key with
    | some p =>
      rw [hconn] at hr
      obtain ⟨m, rfl, hm⟩ := ih hI hr
      refine ⟨m, rfl, ?_⟩
      intro k
      rw [hm]
      by_cases hk : k = key
      · subst hk
        simp [hconn]
      · simp [hk]
    | none =>
      rw [hconn] at hr
      obtain ⟨m, rfl, hm⟩ := ih (s := { s with mKeepAlive := s.mKeepAlive.removeRequest key }) hI hr
      refine ⟨m, rfl, ?_⟩
      intro k
      rw [hm]
      simp only [NetConnKeepAlive.removeRequest, StdMap.get?_erase same_intKey]
      by_cases hk : k = key
      · subst hk
        simp [hconn]
      · simp [hk, Ne.symm hk]

theorem counted_removeInvalidRequest {b : IntKeyType → Nat}
    (hI : INetGroup.Inv Any s.mFakeNetGroup.group s.mFakeNetGroup.heap) (hC : Counted b s)
    (hr : removeInvalidRequest (s.mKeepAlive.mReqMap.entries.map Prod.fst)
      (s.note (.flush (s.mFakeNetGroup.group.mConnMap.entries.map Prod.fst))) = .ok s') :
    Counted b s' ∧ s'.mFakeNetGroup = s.mFakeNetGroup ∧ s'.mHead = s.mHead ∧
      s'.sends = s.sends ∧
      s'.notes = s.notes ++ [.flush (s.mFakeNetGroup.group.mConnMap.entries.map Prod.fst)] := by
  obtain ⟨m, rfl, hm⟩ := removeInvalidRequest_spec
    (s := s.note (.flush (s.mFakeNetGroup.group.mConnMap.entries.map Prod.fst))) hI hr
  refine ⟨?_, rfl, rfl, rfl, rfl⟩
  intro k
  show Agrees (b k) (m.get? k) (tally k (s.notes ++ [_]))
  rw [tally_concat, hm, tallyNote]
  by_cases hconn : s.mFakeNetGroup.group.mConnMap.get? k = none
  · have hkeys : k ∉ s.mFakeNetGroup.group.mConnMap.entries.map Prod.fst := by
      rw [StdMap.mem_keys_iff same_intKey]
      exact not_not_intro hconn
    rw [if_neg hkeys]
    split
    · rfl
    · next hreq =>
      -- the key had no record
      have hnone : s.mKeepAlive.mReqMap.get? k = none := by
        by_contra hsome
        exact hreq ⟨(StdMap.mem_keys_iff same_intKey).mpr hsome, hconn⟩
      show Agrees (b k) (s.mKeepAlive.mReqMap.get? k) {}
      rw [hnone]
      rfl
  · have hkeys : k ∈ s.mFakeNetGroup.group.mConnMap.entries.map Prod.fst :=
      (StdMap.mem_keys_iff same_intKey).mpr hconn
    rw [if_pos hkeys, if_neg fun h => hconn h.2]
    exact hC k

/-! ### The requests -/

/-- A note of the loop that makes the requests. -/
def InLoop : Note → Prop
  | .output _ _ => True
  | .canSend _ => True
  | .request _ _ => True
  | _ => False

theorem asked_le_append {k : IntKeyType} {ns ms : List Note} (hms : ∀ n ∈ ms, InLoop n) :
    (tally k ns).asked ≤ (tally k (ns ++ ms)).asked := by
  induction ms generalizing ns with
  | nil => rw [List.append_nil]
  | cons n ms ih =>
    rw [← List.singleton_append, ← List.append_assoc]
    refine le_trans ?_ (ih fun n' hn' => hms n' (List.mem_cons_of_mem _ hn'))
    rw [tally_concat]
    have hn := hms n List.mem_cons_self
    cases n with
    | output p cmd => exact le_rfl
    | canSend key =>
      rw [tallyNote]
      split
      · exact Nat.le_succ _
      · exact le_rfl
    | request p key =>
      rw [tallyNote]
      split <;> exact le_rfl
    | _ => exact hn.elim

/-- From `s` to `s'` requests have been made, for conns that are not new. -/
structure Asks (s s' : NetSide) : Prop where
  goes : Goes s s'
  notes : ∃ ns, s'.notes = s.notes ++ ns ∧ (∀ n ∈ ns, InLoop n) ∧
    (∀ e ∈ outputs ns, e.2 = EncHead.typeKeepAliveReq) ∧
    ∀ p k, .request p k ∈ ns →
      IsOld s.mFakeNetGroup.heap p ∨ ∃ cmd, (p, cmd) ∈ outputs ns

theorem Asks.refl (s : NetSide) : Asks s s :=
  ⟨Goes.refl s, [], (List.append_nil _).symm, by simp, by simp [outputs], by simp⟩

theorem Asks.trans (h₁ : Asks s s') (h₂ : Asks s' s'') : Asks s s'' := by
  obtain ⟨ns, hns, hloop, hcmd, hreq⟩ := h₁.notes
  obtain ⟨ms, hms, hloop', hcmd', hreq'⟩ := h₂.notes
  refine ⟨h₁.goes.trans h₂.goes, ns ++ ms, ?_, ?_, ?_, ?_⟩
  · rw [hms, hns, List.append_assoc]
  · intro n hn
    exact (List.mem_append.mp hn).elim (hloop n) (hloop' n)
  · intro e he
    rw [outputs_append] at he
    exact (List.mem_append.mp he).elim (hcmd e) (hcmd' e)
  · intro p k hpk
    simp only [outputs_append, List.mem_append, exists_or]
    rcases List.mem_append.mp hpk with hpk | hpk
    · exact (hreq p k hpk).imp_right .inl
    · rcases hreq' p k hpk with hold | hout
      · rw [h₁.goes.isOld_iff hns] at hold
        exact hold.imp_right .inl
      · exact .inr (.inr hout)

theorem asks_sendRequest {p : ConnPtr} {key : IntKeyType} {m : StdMap IntKeyType Int (· < ·)}
    (hold : IsOld s.mFakeNetGroup.heap p)
    (hr : ({ s.note (.canSend key) with mKeepAlive.mReqMap := m }.note
      (.request p key)).sendRequest o key env = .ok s') :
    Asks s s' ∧ s'.mKeepAlive.mReqMap = m ∧
    ∀ k, tally k s'.notes =
      tallyNote k (tallyNote k (tally k s.notes) (.canSend key)) (.request p key) := by
  have hsends := sends_sendRequest hr
  obtain ⟨as, -, hnotes, hcmd⟩ := hsends.does
  have hnotes' : s'.notes = s.notes ++ ([.canSend key, .request p key] ++
      (outs as).map fun e => .output e.1 e.2) := by
    rw [hnotes]
    simp [note]
  refine ⟨⟨?_, _, hnotes', ?_, ?_, ?_⟩, ?_, ?_⟩
  · refine (goes_of_eq [.canSend key, .request p key] ?_ ?_ ?_ ?_ ?_).trans hsends.goes
    · rfl
    · rfl
    · rfl
    · simp [note]
    · rfl
  · intro n hn
    rcases List.mem_append.mp hn with hn | hn
    · simp only [List.mem_cons, List.not_mem_nil, or_false] at hn
      rcases hn with rfl | rfl <;> trivial
    · obtain ⟨e, -, rfl⟩ := List.mem_map.mp hn
      trivial
  · intro e he
    rw [outputs_append, outputs_map_output] at he
    exact hcmd e he
  · intro q k hqk
    rcases List.mem_append.mp hqk with hqk | hqk
    · simp only [List.mem_cons, reduceCtorEq, List.not_mem_nil, or_false, false_or,
        Note.request.injEq] at hqk
      exact .inl (hqk.1 ▸ hold)
    · obtain ⟨e, -, he⟩ := List.mem_map.mp hqk
      cases he
  · rw [hsends.keepAlive]
    rfl
  · intro k
    rw [hsends.tally_eq]
    simp only [note, tally_concat]

/-- That a conn could be asked is noted, and nothing is sent. -/
theorem asks_canSend (key : IntKeyType) (m : StdMap IntKeyType Int (· < ·)) :
    Asks s { s.note (.canSend key) with mKeepAlive.mReqMap := m } := by
  refine ⟨goes_of_eq [.canSend key] rfl rfl rfl rfl rfl, [.canSend key], rfl, ?_, ?_, ?_⟩
  · intro n hn
    rw [List.mem_singleton.mp hn]
    trivial
  · intro e he
    cases he
  · intro q k hqk
    cases List.mem_singleton.mp hqk

/-- The request for one conn: its record goes up by one, and a request is made unless that was the
    fourth time. -/
theorem request_spec {p : ConnPtr} {key : IntKeyType} (hold : IsOld s.mFakeNetGroup.heap p)
    (hk : Agrees 2 (s.mKeepAlive.mReqMap.get? key) (tally key s.notes))
    (hr : s.request o p key env = .ok s') :
    Asks s s' ∧ Agrees 3 (s'.mKeepAlive.mReqMap.get? key) (tally key s'.notes) ∧
    ∀ k, key ≠ k → s'.mKeepAlive.mReqMap.get? k = s.mKeepAlive.mReqMap.get? k ∧
      tally k s'.notes = tally k s.notes := by
  rw [request] at hr
  cases hrec : s.mKeepAlive.mReqMap.get? key with
  | none =>
    simp only [note_mKeepAlive, hrec] at hr
    obtain ⟨hasks, hka, htally⟩ := asks_sendRequest hold hr
    rw [hrec] at hk
    refine ⟨hasks, ?_, ?_⟩
    · rw [hka, htally, StdMap.get?_emplace same_intKey hrec, if_pos rfl, hk]
      exact ⟨0, rfl, by omega, by simp [tallyNote]⟩
    · intro k hne
      rw [hka, htally, StdMap.get?_emplace same_intKey hrec, if_neg hne]
      simp [tallyNote, hne]
  | some n =>
    simp only [note_mKeepAlive, hrec] at hr
    rw [hrec] at hk
    obtain ⟨m, rfl, hm, ht⟩ := hk
    split at hr
    · next hlt =>
      have hm' : m + 1 < 3 := by
        unfold NetConnKeepAlive.maxRetry at hlt
        omega
      obtain ⟨hasks, hka, htally⟩ := asks_sendRequest hold hr
      refine ⟨hasks, ?_, ?_⟩
      · rw [hka, htally, StdMap.get?_assign same_intKey, if_pos rfl, ht]
        refine ⟨m + 1, by simp, by omega, ?_⟩
        simp only [tallyNote, if_true]
        rw [Tally.mk.injEq]
        omega
      · intro k hne
        rw [hka, htally, StdMap.get?_assign same_intKey, if_neg hne]
        simp [tallyNote, hne]
    · next hge =>
      have hm' : m = 2 := by
        unfold NetConnKeepAlive.maxRetry at hge
        omega
      obtain rfl := Except.ok.inj hr
      refine ⟨asks_canSend key _, ?_, ?_⟩
      · rw [StdMap.get?_assign same_intKey, if_pos rfl]
        refine ⟨m + 1, by simp, by omega, ?_⟩
        simp only [note, tally_concat, ht, tallyNote, if_true]
        rw [Tally.mk.injEq]
        omega
      · intro k hne
        rw [StdMap.get?_assign same_intKey, if_neg hne]
        simp [note, tally_concat, tallyNote, hne]

/-- The conn has the key. -/
def HasKey (h : Heap NetConn) (p : ConnPtr) (k : IntKeyType) : Prop :=
  ∃ c, h.get? p = some c ∧ c.intKey = k

theorem HasKey.evolves {h h' : Heap NetConn} {p : ConnPtr} {k : IntKeyType} (hk : HasKey h p k)
    (hev : Heap.Evolves NetConn.Like h h') : HasKey h' p k := by
  obtain ⟨c, hc, rfl⟩ := hk
  obtain ⟨c', hc', hl⟩ := hev p c hc
  exact ⟨c', hc', hl.intKey_eq⟩

/-- The loop sees every key once, so a record that was at most 2 is at most 3 after it. -/
theorem requestLoop_spec {timestamp : UInt64} {envs : IntKeyType → SendEnv} {ps : List ConnPtr}
    {ks : List IntKeyType} (hps : List.Forall₂ (HasKey s.mFakeNetGroup.heap) ps ks) (hnd : ks.Nodup)
    (hC : Counted (fun _ => 3) s)
    (hks : ∀ k ∈ ks, Agrees 2 (s.mKeepAlive.mReqMap.get? k) (tally k s.notes))
    (hr : requestLoop o timestamp envs ps s = .ok s') :
    Asks s s' ∧ Counted (fun _ => 3) s' := by
  induction ps generalizing s ks with
  | nil =>
    obtain rfl := Except.ok.inj hr
    exact ⟨Asks.refl _, hC⟩
  | cons p ps ih =>
    obtain ⟨_, ks, ⟨c, hc, rfl⟩, hrest, rfl⟩ := List.forall₂_cons_left_iff.mp hps
    obtain ⟨hnot, hnd'⟩ := List.nodup_cons.mp hnd
    rw [requestLoop, Heap.deref_eq_ok.mpr hc, ok_bind] at hr
    split at hr
    · next hcan =>
      obtain ⟨s₁, hreq, hr⟩ := bind_eq_ok.mp hr
      have hold : IsOld s.mFakeNetGroup.heap p := ⟨c, hc, NetConnKeepAlive.mNew_of_canSendRequest hcan⟩
      obtain ⟨hasks, hself, hother⟩ := request_spec hold (hks _ List.mem_cons_self) hreq
      have hC₁ : Counted (fun _ => 3) s₁ := by
        intro k
        by_cases hne : c.intKey = k
        · exact hne ▸ hself
        · rw [(hother k hne).1, (hother k hne).2]
          exact hC k
      have hks₁ : ∀ k ∈ ks, Agrees 2 (s₁.mKeepAlive.mReqMap.get? k) (tally k s₁.notes) := by
        intro k hk
        have hne : c.intKey ≠ k := fun heq => hnot (heq ▸ hk)
        rw [(hother k hne).1, (hother k hne).2]
        exact hks k (List.mem_cons_of_mem _ hk)
      have hps₁ : List.Forall₂ (HasKey s₁.mFakeNetGroup.heap) ps ks :=
        hrest.imp fun _ _ h => h.evolves hasks.goes.evolves
      obtain ⟨hasks', hC'⟩ := ih hps₁ hnd' hC₁ hks₁ hr
      exact ⟨hasks.trans hasks', hC'⟩
    · exact ih hrest hnd' hC (fun k hk => hks k (List.mem_cons_of_mem _ hk)) hr

/-- The keys of the conns in the tables. -/
theorem exists_keys {g : INetGroup} {h : Heap NetConn} (hI : INetGroup.Inv Any g h) :
    ∃ ks : List IntKeyType, ks.Nodup ∧
      List.Forall₂ (HasKey h) (g.mConns.entries.map Prod.snd) ks := by
  have hall : ∀ l : List (String × ConnPtr), (∀ e ∈ l, e ∈ g.mConns.entries) →
      ∃ ks : List IntKeyType, ks.map KeyGenerator.strForIntKey = l.map Prod.fst ∧
        List.Forall₂ (HasKey h) (l.map Prod.snd) ks := by
    intro l
    induction l with
    | nil => exact fun _ => ⟨[], rfl, .nil⟩
    | cons e l ih =>
      intro hl
      obtain ⟨ks, hks, hall⟩ := ih fun e' he' => hl e' (List.mem_cons_of_mem _ he')
      obtain ⟨c, hc, hkey⟩ := hI.exists_of_mem (hl e List.mem_cons_self)
      refine ⟨c.intKey :: ks, ?_, .cons ⟨c, hc, rfl⟩ hall⟩
      rw [List.map_cons, List.map_cons, hks, ← hkey]
      rfl
  obtain ⟨ks, hks, hall⟩ := hall g.mConns.entries fun _ he => he
  refine ⟨ks, List.Nodup.of_map KeyGenerator.strForIntKey ?_, hall⟩
  rw [hks]
  exact g.mConns.nodup_keys

/-! ### The timeouts -/

/-- Every conn that was notified had three requests since its record was last cleared. -/
def Justified (ns : List Note) : Prop :=
  ∀ pre k, pre ++ [.timeout k true] <+: ns → (tally k pre).reqs = 3

theorem justified_concat {ns : List Note} {n : Note} (hJ : Justified ns)
    (hn : ∀ k, n = .timeout k true → (tally k ns).reqs = 3) : Justified (ns ++ [n]) := by
  intro pre k hpre
  rcases List.prefix_concat_iff.mp hpre with heq | hpre
  · obtain ⟨rfl, hlast⟩ := List.append_inj' heq rfl
    exact hn k (List.singleton_inj.mp hlast).symm
  · exact hJ pre k hpre

theorem justified_append {ns ms : List Note} (hJ : Justified ns)
    (hms : ∀ k, .timeout k true ∉ ms) : Justified (ns ++ ms) := by
  induction ms generalizing ns with
  | nil => rwa [List.append_nil]
  | cons n ms ih =>
    rw [← List.singleton_append, ← List.append_assoc]
    refine ih (justified_concat hJ ?_) fun k hk => hms k (List.mem_cons_of_mem _ hk)
    rintro k rfl
    exact absurd List.mem_cons_self (hms k)

/-- The conn has been told that it timed out. -/
def TimedOut (h : Heap NetConn) (p : ConnPtr) : Prop :=
  ∃ c, h.get? p = some c ∧ c.toINetConn.mErrCode = .timeout ∧ c.toINetConn.mAlive = false

theorem timedOut_notifyErr (c : NetConn) : (c.notifyErr .timeout).toINetConn.mErrCode = .timeout ∧
    (c.notifyErr .timeout).toINetConn.mAlive = false := by
  cases c <;> exact ⟨rfl, rfl⟩

theorem notifyErr_timeout_spec {g : INetGroup} {h h' : Heap NetConn} {k : IntKeyType} {b : Bool}
    (hI : INetGroup.Inv Any g h) (hr : g.notifyErr h k .timeout = .ok (h', b)) :
    (∀ p, g.mConnMap.get? k = some p → b = true ∧ TimedOut h' p) ∧
      ∀ q, TimedOut h q → TimedOut h' q := by
  rw [notifyErr, hI.connOfIntKey_eq, ok_bind] at hr
  cases hconn : g.mConnMap.get? k with
  | none =>
    rw [hconn] at hr
    cases hr
    exact ⟨by simp, fun _ hq => hq⟩
  | some p =>
    rw [hconn] at hr
    obtain ⟨c, hc, hr⟩ := bind_eq_ok.mp hr
    have hget := Heap.deref_eq_ok.mp hc
    cases hr
    have hself : TimedOut (h.store p (c.notifyErr .timeout)) p :=
      ⟨_, Heap.get?_store_self hget, timedOut_notifyErr c⟩
    refine ⟨?_, ?_⟩
    · rintro _ ⟨⟩
      exact ⟨rfl, hself⟩
    · rintro q ⟨d, hd, hout⟩
      by_cases hpq : p = q
      · exact hpq ▸ hself
      · exact ⟨d, (Heap.get?_store_of_ne hpq).trans hd, hout⟩

/-- From `s` to `s'` the record of the key has gone and its conn, if there is one, was notified. -/
structure Notified (key : IntKeyType) (b : Bool) (s s' : NetSide) : Prop where
  goes : Goes s s'
  notes : s'.notes = s.notes ++ [.timeout key b]
  group : s'.mFakeNetGroup.group = s.mFakeNetGroup.group
  record : ∀ k, s'.mKeepAlive.mReqMap.get? k =
    if key = k then none else s.mKeepAlive.mReqMap.get? k
  self : ∀ p, s.mFakeNetGroup.group.mConnMap.get? key = some p →
    b = true ∧ TimedOut s'.mFakeNetGroup.heap p
  stays : ∀ q, TimedOut s.mFakeNetGroup.heap q → TimedOut s'.mFakeNetGroup.heap q

theorem notified_of_notifyErr {key : IntKeyType} {h' : Heap NetConn} {b : Bool}
    (hI : INetGroup.Inv Any s.mFakeNetGroup.group s.mFakeNetGroup.heap)
    (hr : s.mFakeNetGroup.group.notifyErr s.mFakeNetGroup.heap key .timeout = .ok (h', b)) :
    Notified key b s (NetSide.note { s with
      mKeepAlive := s.mKeepAlive.removeRequest key, mFakeNetGroup.heap := h' } (.timeout key b)) := by
  obtain ⟨as, hall, houts⟩ := doesAll_notifyErr hr
  obtain ⟨hself, hstays⟩ := notifyErr_timeout_spec hI hr
  exact {
    goes := ⟨id, rfl, ⟨as, [.timeout key b], hall, rfl, houts.symm⟩, [], [.timeout key b],
      (List.append_nil _).symm, rfl, rfl⟩
    notes := rfl
    group := rfl
    record := fun k => StdMap.get?_erase same_intKey _ _ _
    self := hself
    stays := hstays }

theorem Notified.agrees {key k : IntKeyType} {b : Bool} {n : Nat} (h : Notified key b s s')
    (hk : key ≠ k → Agrees n (s.mKeepAlive.mReqMap.get? k) (tally k s.notes)) :
    Agrees n (s'.mKeepAlive.mReqMap.get? k) (tally k s'.notes) := by
  rw [h.record, h.notes, tally_concat, tallyNote]
  split
  · rfl
  · next hne => exact hk hne

/-- Between two rounds of the loop: the records of what is left of its list are still as they were,
    the others are at most 2. -/
structure Rounds (l : List (IntKeyType × Int)) (s : NetSide) : Prop where
  ledger : s.mFakeNetGroup.Ledger
  nodup : (l.map Prod.fst).Nodup
  same : ∀ e ∈ l, s.mKeepAlive.mReqMap.get? e.1 = some e.2
  counted : Counted (fun _ => 3) s
  rest : ∀ k ∉ l.map Prod.fst, Agrees 2 (s.mKeepAlive.mReqMap.get? k) (tally k s.notes)
  justified : Justified s.notes

section Rounds

variable {l : List (IntKeyType × Int)} {key : IntKeyType} {n : Int}

theorem Rounds.record (hR : Rounds ((key, n) :: l) s) :
    ∃ m : Nat, n = m ∧ m ≤ 3 ∧ tally key s.notes = { reqs := min (m + 1) 3, asked := m + 1 } := by
  have hagree := hR.counted key
  rw [hR.same (key, n) List.mem_cons_self] at hagree
  exact hagree

theorem Rounds.rest_tail (hR : Rounds ((key, n) :: l) s) {k : IntKeyType} (hne : key ≠ k)
    (hk : k ∉ l.map Prod.fst) : Agrees 2 (s.mKeepAlive.mReqMap.get? k) (tally k s.notes) := by
  apply hR.rest k
  rw [List.map_cons, List.mem_cons, not_or]
  exact ⟨hne.symm, hk⟩

theorem Rounds.notified {b : Bool} (hR : Rounds ((key, 3) :: l) s) (h : Notified key b s s') :
    Rounds l s' := by
  obtain ⟨hnot, hnd⟩ := List.nodup_cons.mp hR.nodup
  refine ⟨h.goes.ledger hR.ledger, hnd, ?_, fun k => h.agrees fun _ => hR.counted k,
    fun k hk => h.agrees fun hne => hR.rest_tail hne hk, ?_⟩
  · intro e he
    have hmem : e.1 ∈ l.map Prod.fst := List.mem_map_of_mem he
    rw [h.record, if_neg fun hke : key = e.1 => hnot (hke ▸ hmem)]
    exact hR.same e (List.mem_cons_of_mem _ he)
  · rw [h.notes]
    refine justified_concat hR.justified ?_
    intro k hk
    cases hk
    obtain ⟨m, hm, -, ht⟩ := hR.record
    obtain rfl : m = 3 := by omega
    rw [ht]
    rfl

theorem Rounds.skip {m : Nat} (hR : Rounds ((key, (m : Int)) :: l) s) (hm : m ≤ 2) : Rounds l s := by
  obtain ⟨-, hnd⟩ := List.nodup_cons.mp hR.nodup
  refine ⟨hR.ledger, hnd, fun e he => hR.same e (List.mem_cons_of_mem _ he), hR.counted, ?_,
    hR.justified⟩
  intro k hk
  by_cases hne : key = k
  · obtain ⟨m', hm', -, ht⟩ := hR.record
    rw [← hne, hR.same (key, (m : Int)) List.mem_cons_self]
    exact ⟨m', hm', by omega, ht⟩
  · exact hR.rest_tail hne hk

/-- From `s` to `s'` the conns of the records that are 3 have been notified, and nothing else. -/
structure TimesOut (l : List (IntKeyType × Int)) (s s' : NetSide) : Prop where
  goes : Goes s s'
  group : s'.mFakeNetGroup.group = s.mFakeNetGroup.group
  stays : ∀ q, TimedOut s.mFakeNetGroup.heap q → TimedOut s'.mFakeNetGroup.heap q
  notes : ∃ ns, s'.notes = s.notes ++ ns ∧ (∀ n ∈ ns, ∃ k b, n = .timeout k b) ∧
    ∀ k p, (k, 3) ∈ l → s.mFakeNetGroup.group.mConnMap.get? k = some p →
      .timeout k true ∈ ns ∧ TimedOut s'.mFakeNetGroup.heap p

theorem TimesOut.refl (s : NetSide) : TimesOut [] s s :=
  ⟨Goes.refl _, rfl, fun _ h => h, [], (List.append_nil _).symm, by simp, by simp⟩

theorem TimesOut.skip (h : TimesOut l s s') (hn : n ≠ 3) : TimesOut ((key, n) :: l) s s' := by
  obtain ⟨ns, hns, hall, hfound⟩ := h.notes
  refine ⟨h.goes, h.group, h.stays, ns, hns, hall, ?_⟩
  intro k p hk hp
  rcases List.mem_cons.mp hk with hk | hk
  · exact absurd (Prod.mk.inj hk).2.symm hn
  · exact hfound k p hk hp

theorem TimesOut.notified {b : Bool} (h₁ : Notified key b s s') (h : TimesOut l s' s'') :
    TimesOut ((key, n) :: l) s s'' := by
  obtain ⟨ns, hns, hall, hfound⟩ := h.notes
  refine ⟨h₁.goes.trans h.goes, h.group.trans h₁.group, fun q hq => h.stays q (h₁.stays q hq),
    .timeout key b :: ns, ?_, ?_, ?_⟩
  · rw [hns, h₁.notes, List.append_assoc]
    rfl
  · intro n hn
    rcases List.mem_cons.mp hn with rfl | hn
    · exact ⟨key, b, rfl⟩
    · exact hall n hn
  · intro k p hk hp
    rcases List.mem_cons.mp hk with hk | hk
    · cases hk
      obtain ⟨rfl, hout⟩ := h₁.self p hp
      exact ⟨List.mem_cons_self, h.stays p hout⟩
    · obtain ⟨hmem, hout⟩ := hfound k p hk (h₁.group ▸ hp)
      exact ⟨List.mem_cons_of_mem _ hmem, hout⟩

theorem timeoutLoop_spec (hR : Rounds l s) (hr : timeoutLoop l s = .ok s') :
    Rounds [] s' ∧ TimesOut l s s' := by
  induction l generalizing s with
  | nil =>
    obtain rfl := Except.ok.inj hr
    exact ⟨hR, TimesOut.refl _⟩
  | cons e l ih =>
    obtain ⟨key, n⟩ := e
    obtain ⟨m, rfl, hm, -⟩ := hR.record
    rw [timeoutLoop] at hr
    split at hr
    · next hge =>
      obtain rfl : m = 3 := by
        unfold NetConnKeepAlive.maxRetry at hge
        omega
      obtain ⟨⟨h', b⟩, hnotify, hr⟩ := bind_eq_ok.mp hr
      have hnotified := notified_of_notifyErr hR.ledger.inv hnotify
      obtain ⟨hR', htimes⟩ := ih (hR.notified hnotified) hr
      exact ⟨hR', TimesOut.notified hnotified htimes⟩
    · next hlt =>
      have hm2 : m ≤ 2 := by
        unfold NetConnKeepAlive.maxRetry at hlt
        omega
      obtain ⟨hR', htimes⟩ := ih (hR.skip hm2) hr
      exact ⟨hR', htimes.skip (by omega)⟩

end Rounds

/-! ### The whole of it -/

theorem Counted.asked_le {b : Nat} (hC : Counted (fun _ => b) s) (k : IntKeyType) :
    (tally k s.notes).asked ≤ b + 1 := by
  have hk := hC k
  cases hrec : s.mKeepAlive.mReqMap.get? k with
  | none =>
    rw [hrec] at hk
    rw [hk]
    exact Nat.zero_le _
  | some n =>
    rw [hrec] at hk
    obtain ⟨m, -, hm, ht⟩ := hk
    rw [ht]
    exact Nat.succ_le_succ hm

theorem Counted.of_not_mem_keys {b : IntKeyType → Nat} (hC : Counted b s) (b' : Nat) :
    ∀ k ∉ s.mKeepAlive.mReqMap.entries.map Prod.fst,
      Agrees b' (s.mKeepAlive.mReqMap.get? k) (tally k s.notes) := by
  intro k hk
  have hnone : s.mKeepAlive.mReqMap.get? k = none := by
    by_contra hsome
    exact hk ((StdMap.mem_keys_iff same_intKey).mpr hsome)
  have hagree := hC k
  rw [hnone] at hagree ⊢
  exact hagree

theorem outputs_timeouts {ns : List Note} (hns : ∀ n ∈ ns, ∃ k b, n = .timeout k b) :
    outputs ns = [] := by
  rw [outputs, List.filterMap_eq_nil_iff]
  intro n hn
  obtain ⟨k, b, rfl⟩ := hns n hn
  rfl

theorem asked_append_timeouts_le {k : IntKeyType} {ns ms : List Note}
    (hms : ∀ n ∈ ms, ∃ k b, n = .timeout k b) :
    (tally k (ns ++ ms)).asked ≤ (tally k ns).asked := by
  induction ms generalizing ns with
  | nil => rw [List.append_nil]
  | cons n ms ih =>
    rw [← List.singleton_append, ← List.append_assoc]
    refine (ih fun n' hn' => hms n' (List.mem_cons_of_mem _ hn')).trans ?_
    obtain ⟨key, b, rfl⟩ := hms n List.mem_cons_self
    rw [tally_concat, tallyNote]
    split
    · exact Nat.zero_le _
    · exact le_rfl

/-- The most has been asked when the requests have been made and no timeout has been noted. -/
theorem asked_le_of_prefix {k : IntKeyType} {ns ms ts pre : List Note} (hms : ∀ n ∈ ms, InLoop n)
    (hts : ∀ n ∈ ts, ∃ k b, n = .timeout k b) (hge : ns <+: pre) (hle : pre <+: ns ++ ms ++ ts) :
    (tally k pre).asked ≤ (tally k (ns ++ ms)).asked := by
  rcases List.prefix_or_prefix_of_prefix hle (List.prefix_append _ _) with hpre | ⟨t, rfl⟩
  · -- what is left of the loop does not clear the record
    obtain ⟨t, rfl⟩ := hge
    obtain ⟨u, hu⟩ := hpre
    have hmu : t ++ u = ms := by
      rw [List.append_assoc] at hu
      exact List.append_cancel_left hu
    rw [← hu]
    apply asked_le_append
    intro n hn
    exact hms n (hmu ▸ List.mem_append_right t hn)
  · apply asked_append_timeouts_le
    intro n hn
    exact hts n (((List.prefix_append_right_inj _).mp hle).subset hn)

/-- A record for which `canSendRequest` has held four times is 3. -/
theorem Counted.record_of_asked {k : IntKeyType} (hC : Counted (fun _ => 3) s)
    (h4 : 4 ≤ (tally k s.notes).asked) : s.mKeepAlive.mReqMap.get? k = some 3 := by
  have hagree := hC k
  cases hrec : s.mKeepAlive.mReqMap.get? k with
  | none =>
    rw [hrec] at hagree
    rw [hagree] at h4
    cases h4
  | some n =>
    rw [hrec] at hagree
    obtain ⟨m, rfl, hm, ht⟩ := hagree
    rw [ht] at h4
    have hle : m ≤ 3 := hm
    have hge : 4 ≤ m + 1 := h4
    obtain rfl : m = 3 := by omega
    rfl

/-- From a state to the next one, a single note later, no key is asked more often than its record allows. -/
theorem Counted.asked_le_of_concat {b : Nat} {note : Note} {pre : List Note} {k : IntKeyType}
    (hC : Counted (fun _ => b) s) (hC' : Counted (fun _ => b) s') (hnotes : s'.notes = s.notes ++ [note])
    (hge : s.notes <+: pre) (hle : pre <+: s'.notes) : (tally k pre).asked ≤ b + 1 := by
  rw [hnotes] at hle
  rcases List.prefix_concat_iff.mp hle with rfl | hle
  · rw [← hnotes]
    exact hC'.asked_le k
  · rw [hle.eq_of_length (le_antisymm hle.length_le hge.length_le)]
    exact hC.asked_le k

/-! ### The notes of a flush: the requests, then the timeouts -/

section FlushNotes

variable {ks : List IntKeyType} {ms ts : List Note} (hts : ∀ n ∈ ts, ∃ k b, n = .timeout k b)

include hts

theorem outputs_flush : outputs (.flush ks :: (ms ++ ts)) = outputs ms := by
  show outputs (ms ++ ts) = outputs ms
  rw [outputs_append, outputs_timeouts hts, List.append_nil]

theorem request_mem_of_flush {p : ConnPtr} {k : IntKeyType}
    (h : .request p k ∈ .flush ks :: (ms ++ ts)) : .request p k ∈ ms := by
  rcases List.mem_cons.mp h with h | h
  · cases h
  · rcases List.mem_append.mp h with h | h
    · exact h
    · obtain ⟨_, _, htimeout⟩ := hts _ h
      cases htimeout

/-- What has been asked more than three times has been asked so when the requests have been made. -/
theorem asked_after_requests {k : IntKeyType} {ns pre : List Note} (hms : ∀ n ∈ ms, InLoop n)
    (hfew : pre <+: ns → (tally k pre).asked ≤ 3) (hle : pre <+: ns ++ ms ++ ts)
    (hasked : (tally k pre).asked = 4) : 4 ≤ (tally k (ns ++ ms)).asked := by
  have hns : ns <+: ns ++ ms ++ ts := by
    rw [List.append_assoc]
    exact List.prefix_append _ _
  rcases List.prefix_or_prefix_of_prefix hle hns with hpre | hpre
  · have hthree := hfew hpre
    omega
  · rw [← hasked]
    exact asked_le_of_prefix hms hts hpre hle

end FlushNotes

/-- The tables are in order, the records agree with their tallies and are at most 2, and every
    notified conn had its three requests. -/
structure Inv (s : NetSide) : Prop where
  ledger : s.mFakeNetGroup.Ledger
  counted : Counted (fun _ => 2) s
  justified : Justified s.notes

theorem onFlush_spec {timestamp : UInt64} {envs : IntKeyType → SendEnv} (hI : Inv s)
    (hr : s.onFlush o timestamp envs = .ok s') :
    Inv s' ∧ Goes s s' ∧ ∃ ns, s'.notes = s.notes ++ ns ∧
      (∀ e ∈ outputs ns, e.2 = EncHead.typeKeepAliveReq) ∧
      (∀ p k, .request p k ∈ ns →
        IsOld s.mFakeNetGroup.heap p ∨ ∃ cmd, (p, cmd) ∈ outputs ns) ∧
      ∀ pre k p, s.notes <+: pre → pre <+: s'.notes → (tally k pre).asked = 4 →
        s'.mFakeNetGroup.group.mConnMap.get? k = some p →
        .timeout k true ∈ ns ∧ TimedOut s'.mFakeNetGroup.heap p := by
  obtain ⟨s₁, hremove, hr⟩ := bind_eq_ok.mp hr
  obtain ⟨hC₁, hnet₁, hhead₁, hsends₁, hnotes₁⟩ :=
    counted_removeInvalidRequest hI.ledger.inv hI.counted hremove
  have hgoes₁ : Goes s s₁ := goes_of_eq _ hhead₁ hnet₁ hsends₁ hnotes₁ rfl
  have hJ₁ : Justified s₁.notes := by
    rw [hnotes₁]
    exact justified_concat hI.justified (by simp)
  -- up to the first note of the flush, nothing has been asked four times
  have hfew : ∀ pre k, s.notes <+: pre → pre <+: s₁.notes → (tally k pre).asked ≤ 3 :=
    fun _ _ => hI.counted.asked_le_of_concat hC₁ hnotes₁
  split at hr
  · obtain ⟨s₂, hask, hr⟩ := bind_eq_ok.mp hr
    obtain ⟨ks, hnd, hps⟩ := exists_keys (hgoes₁.ledger hI.ledger).inv
    obtain ⟨hasks, hC₂⟩ := requestLoop_spec hps hnd (fun k => (hC₁ k).mono (Nat.le_succ 2))
      (fun k _ => hC₁ k) hask
    obtain ⟨ns₂, hnotes₂, hloop, hcmd, hreq⟩ := hasks.notes
    have hgoes₂ : Goes s s₂ := hgoes₁.trans hasks.goes
    have hJ₂ : Justified s₂.notes := by
      rw [hnotes₂]
      exact justified_append hJ₁ fun k hk => hloop _ hk
    have hR₂ : Rounds s₂.mKeepAlive.mReqMap.entries s₂ :=
      ⟨hgoes₂.ledger hI.ledger, s₂.mKeepAlive.mReqMap.nodup_keys,
        fun e he => (StdMap.get?_eq_some_iff same_intKey).mpr he, hC₂, hC₂.of_not_mem_keys 2, hJ₂⟩
    obtain ⟨hR₃, hgoes₃, hgroup, -, ns₃, hnotes₃, hout, hfound⟩ := timeoutLoop_spec hR₂ hr
    refine ⟨⟨hR₃.ledger, fun k => hR₃.rest k (by simp), hR₃.justified⟩, hgoes₂.trans hgoes₃,
      .flush (s.mFakeNetGroup.group.mConnMap.entries.map Prod.fst) :: (ns₂ ++ ns₃), ?_, ?_, ?_, ?_⟩
    · rw [hnotes₃, hnotes₂, hnotes₁]
      simp
    · rw [outputs_flush hout]
      exact hcmd
    · intro p k hpk
      rw [outputs_flush hout, ← hnet₁]
      exact hreq p k (request_mem_of_flush hout hpk)
    · intro pre k p hge hle hasked hp
      rw [hnotes₃, hnotes₂] at hle
      have h4 : 4 ≤ (tally k s₂.notes).asked := by
        rw [hnotes₂]
        exact asked_after_requests hout hloop (hfew pre k hge) hle hasked
      have hrec := (StdMap.get?_eq_some_iff same_intKey).mp (hC₂.record_of_asked h4)
      obtain ⟨hmem, htimed⟩ := hfound k p hrec (hgroup ▸ hp)
      exact ⟨List.mem_cons_of_mem _ (List.mem_append_right _ hmem), htimed⟩
  · obtain rfl := Except.ok.inj hr
    refine ⟨⟨hgoes₁.ledger hI.ledger, hC₁, hJ₁⟩, hgoes₁, _, hnotes₁, ?_, ?_, ?_⟩
    · intro e he
      cases he
    · intro p k hk
      cases List.mem_singleton.mp hk
    · intro pre k p hge hle hasked
      have := hfew pre k hge hle
      omega

/-! ## The other events -/

theorem justified_append_outputs {ns : List Note} (hJ : Justified ns) (l : List (ConnPtr × UInt8)) :
    Justified (ns ++ l.map fun e => .output e.1 e.2) := by
  apply justified_append hJ
  intro k hk
  obtain ⟨e, -, he⟩ := List.mem_map.mp hk
  cases he

theorem Answers.inv (h : Answers s s') (hI : Inv s) : Inv s' := by
  obtain ⟨l, hl, -⟩ := h.notes
  refine ⟨h.goes.ledger hI.ledger, ?_, hl ▸ justified_append_outputs hI.justified l⟩
  intro k
  rw [h.keepAlive, hl, tally_append_outputs]
  exact hI.counted k

theorem Sends.inv (h : Sends cmd s s') (hI : Inv s) : Inv s' := by
  obtain ⟨as, -, hnotes, -⟩ := h.does
  exact ⟨h.goes.ledger hI.ledger, h.counted hI.counted,
    hnotes ▸ justified_append_outputs hI.justified _⟩

theorem inv_response (hI : Inv s) (key : IntKeyType) :
    Inv (note { s with mKeepAlive := s.mKeepAlive.removeRequest key } (.response key)) := by
  refine ⟨hI.ledger, ?_, justified_concat hI.justified (by simp)⟩
  intro k
  simp only [note_mKeepAlive, note_notes, tally_concat, tallyNote, NetConnKeepAlive.removeRequest,
    StdMap.get?_erase same_intKey]
  split
  · rfl
  · exact hI.counted k

theorem inv_setOnline (hI : Inv s) (online : Bool) : Inv (s.setOnline online) := by
  refine ⟨hI.ledger, ?_, justified_concat hI.justified (by simp)⟩
  intro k
  simp only [setOnline, note_mKeepAlive, note_notes, tally_concat, tallyNote]
  rfl

theorem inv_netStep {e : ConnLife.Event} (hI : Inv s) (hr : s.netStep e = .ok s') : Inv s' := by
  obtain ⟨net, hstep, hr⟩ := bind_eq_ok.mp hr
  obtain rfl := Except.ok.inj hr
  exact ⟨(ConnLife.ledger_step hI.ledger hstep).1, hI.counted, hI.justified⟩

theorem inv_step {e : Event} (hI : Inv s) (hr : s.step e = .ok s') : Inv s' := by
  cases e with
  | addNetConn conn => exact inv_netStep hI hr
  | sendData conv payload env =>
    have hI' : Inv { s with mHead.mConv := conv } := ⟨hI.ledger, hI.counted, hI.justified⟩
    exact (sends_send hr).inv hI'
  | input o info payload ups n env =>
    rcases input_cases hr with hans | ⟨key, rfl⟩
    · exact hans.inv hI
    · exact inv_response hI key
  | processTcpFinOrRst info =>
    obtain ⟨⟨h', b⟩, hrst, hr⟩ := bind_eq_ok.mp hr
    obtain rfl := Except.ok.inj hr
    exact (answers_processTcpFinOrRst hrst).inv hI
  | onTcpError p => exact inv_netStep hI hr
  | flush => exact inv_netStep hI hr
  | handleMessage => exact inv_netStep hI hr
  | onFlush o timestamp env => exact (onFlush_spec hI hr).1
  | onNetConnected =>
    obtain rfl := Except.ok.inj hr
    exact inv_setOnline hI true
  | onNetDisconnected =>
    obtain rfl := Except.ok.inj hr
    exact inv_setOnline hI false

theorem inv_new (id : IdBufType) : Inv (new id) where
  ledger := ConnLife.ledger_empty
  counted := by
    intro k
    rfl
  justified := by
    intro pre k hpre
    cases pre with
    | nil => cases List.prefix_nil.mp hpre
    | cons n pre => cases List.prefix_nil.mp hpre

/-! ## `OnFlush` returns -/

theorem encodeKey_ok {n : Nat} (hn : 8 ≤ n) (o : ByteOrder) (key : IntKeyType) :
    ∃ p, KeyGenerator.encodeKey o (Cursor.start n) key = .ok p := by
  unfold KeyGenerator.encodeKey encodeUint64 encodeUint
  split
  · obtain ⟨p, hp, -⟩ := (Cursor.start n).write_ok (o.store 8 key.toNat) (by simpa using hn)
    exact ⟨p, hp⟩
  · have hfit : 0 + (toLE 1 key.toNat).length ≤ n := by
      rw [length_toLE]
      omega
    obtain ⟨b, hb, -⟩ := (Buf.zeros n).memcpy_ok hfit
    have hb' : (Cursor.start n).buf.memcpy (Cursor.start n).pos (toLE (8 / 8) key.toNat) = .ok b := hb
    simp only [bigEndianToLittleN, cassert_pos, ok_bind, hb']
    exact ⟨_, rfl⟩

theorem send_ok (hL : s.mFakeNetGroup.Ledger) (payload : List UInt8) (key : IntKeyType)
    (env : SendEnv) : ∃ s', s.send payload key env = .ok s' := by
  obtain ⟨⟨g, h, r⟩, hsend⟩ := doSend_ok (s.sendCall payload key env) hL.inv
  simp only [send, ConnLife.step, hsend, ok_bind]
  exact ⟨_, rfl⟩

theorem sendWithCmd_ok (hL : s.mFakeNetGroup.Ledger) (cmd : UInt8) (payload : List UInt8)
    (key : IntKeyType) (env : SendEnv) : ∃ s', s.sendWithCmd cmd payload key env = .ok s' := by
  obtain ⟨s', hs'⟩ := send_ok (s := { s with mHead := s.mHead.setCmd cmd }) hL payload key env
  rw [sendWithCmd, hs', ok_bind]
  exact ⟨_, rfl⟩

theorem sendRequest_ok (hL : s.mFakeNetGroup.Ledger) (o : ByteOrder) (key : IntKeyType)
    (env : SendEnv) : ∃ s', s.sendRequest o key env = .ok s' := by
  obtain ⟨p, hp⟩ := encodeKey_ok (n := 32) (by omega) o key
  rw [sendRequest, hp]
  exact sendWithCmd_ok hL _ _ _ _

theorem sendNetConnRst_ok (hL : s.mFakeNetGroup.Ledger) (o : ByteOrder) (key : IntKeyType)
    (env : SendEnv) : ∃ s', s.sendNetConnRst o key env = .ok s' := by
  obtain ⟨p, hp⟩ := encodeKey_ok (n := omMaxPktSize) (by decide) o key
  rw [sendNetConnRst, hp]
  exact sendWithCmd_ok hL _ _ _ _

theorem request_ok (hL : s.mFakeNetGroup.Ledger) (o : ByteOrder) (p : ConnPtr) (key : IntKeyType)
    (env : SendEnv) : ∃ s', s.request o p key env = .ok s' := by
  unfold request
  dsimp only
  split
  · split
    · apply sendRequest_ok
      exact hL
    · exact ⟨_, rfl⟩
  · apply sendRequest_ok
    exact hL

theorem removeInvalidRequest_ok (keys : List IntKeyType)
    (hI : INetGroup.Inv Any s.mFakeNetGroup.group s.mFakeNetGroup.heap) :
    ∃ s', removeInvalidRequest keys s = .ok s' := by
  induction keys generalizing s with
  | nil => exact ⟨s, rfl⟩
  | cons key keys ih =>
    rw [removeInvalidRequest, hI.connOfIntKey_eq, ok_bind]
    split
    · exact ih hI
    · exact ih hI

theorem requestLoop_ok (o : ByteOrder) (timestamp : UInt64) (envs : IntKeyType → SendEnv)
    {ps : List ConnPtr} {ks : List IntKeyType}
    (hps : List.Forall₂ (HasKey s.mFakeNetGroup.heap) ps ks) (hnd : ks.Nodup)
    (hL : s.mFakeNetGroup.Ledger)
    (hks : ∀ k ∈ ks, Agrees 2 (s.mKeepAlive.mReqMap.get? k) (tally k s.notes)) :
    ∃ s', requestLoop o timestamp envs ps s = .ok s' := by
  induction ps generalizing s ks with
  | nil => exact ⟨s, rfl⟩
  | cons p ps ih =>
    obtain ⟨_, ks, ⟨c, hc, rfl⟩, hrest, rfl⟩ := List.forall₂_cons_left_iff.mp hps
    obtain ⟨hnot, hnd'⟩ := List.nodup_cons.mp hnd
    rw [requestLoop, Heap.deref_eq_ok.mpr hc, ok_bind]
    split
    · next hcan =>
      obtain ⟨s₁, hreq⟩ := request_ok hL o p c.intKey (envs c.intKey)
      have hold : IsOld s.mFakeNetGroup.heap p := ⟨c, hc, NetConnKeepAlive.mNew_of_canSendRequest hcan⟩
      obtain ⟨hasks, -, hother⟩ := request_spec hold (hks _ List.mem_cons_self) hreq
      rw [hreq, ok_bind]
      refine ih (hrest.imp fun _ _ h => h.evolves hasks.goes.evolves) hnd'
        (hasks.goes.ledger hL) ?_
      intro k hk
      have hne : c.intKey ≠ k := fun heq => hnot (heq ▸ hk)
      rw [(hother k hne).1, (hother k hne).2]
      exact hks k (List.mem_cons_of_mem _ hk)
    · exact ih hrest hnd' hL fun k hk => hks k (List.mem_cons_of_mem _ hk)

theorem timeoutLoop_ok {l : List (IntKeyType × Int)} (hL : s.mFakeNetGroup.Ledger) :
    ∃ s', timeoutLoop l s = .ok s' := by
  induction l generalizing s with
  | nil => exact ⟨s, rfl⟩
  | cons e l ih =>
    obtain ⟨key, n⟩ := e
    rw [timeoutLoop]
    split
    · obtain ⟨⟨h', b⟩, hnotify⟩ : ∃ r, s.mFakeNetGroup.group.notifyErr s.mFakeNetGroup.heap key
          .timeout = .ok r := by
        rw [notifyErr, hL.inv.connOfIntKey_eq, ok_bind]
        cases hconn : s.mFakeNetGroup.group.mConnMap.get? key with
        | none => exact ⟨_, rfl⟩
        | some p =>
          obtain ⟨c, hc, -⟩ := hL.inv.get?_conn hconn
          simp only [Heap.deref_eq_ok.mpr hc, ok_bind]
          exact ⟨_, rfl⟩
      obtain ⟨as, hall, houts⟩ := doesAll_notifyErr hnotify
      simp only [hnotify, ok_bind]
      exact ih ((answers_of_doesAll hall houts).goes.ledger hL)
    · exact ih hL

theorem onFlush_ok (hI : Inv s) (o : ByteOrder) (timestamp : UInt64) (envs : IntKeyType → SendEnv) :
    ∃ s', s.onFlush o timestamp envs = .ok s' := by
  obtain ⟨s₁, hremove⟩ := removeInvalidRequest_ok (s.mKeepAlive.mReqMap.entries.map Prod.fst)
    (s := s.note (.flush (s.mFakeNetGroup.group.mConnMap.entries.map Prod.fst))) hI.ledger.inv
  obtain ⟨hC₁, hnet₁, -⟩ :=
    counted_removeInvalidRequest hI.ledger.inv hI.counted hremove
  have hL₁ : s₁.mFakeNetGroup.Ledger := hnet₁ ▸ hI.ledger
  rw [onFlush]
  simp only [note_mKeepAlive, hremove, ok_bind]
  split
  · obtain ⟨ks, hnd, hps⟩ := exists_keys hL₁.inv
    obtain ⟨s₂, hask⟩ := requestLoop_ok o timestamp envs hps hnd hL₁ fun k _ => hC₁ k
    obtain ⟨hasks, -⟩ := requestLoop_spec hps hnd (fun k => (hC₁ k).mono (Nat.le_succ 2))
      (fun k _ => hC₁ k) hask
    rw [hask, ok_bind]
    exact timeoutLoop_ok (hasks.goes.ledger hL₁)
  · exact ⟨s₁, rfl⟩

/-! ## Runs -/

theorem inv_run {id : IdBufType} {es : List Event} (hr : run step (new id) es = .ok s) : Inv s :=
  run_invariant (fun _ _ _ hI hr => inv_step hI hr) (inv_new id) hr

/-- In every run, a conn is notified of a timeout only after three requests for its key since the
    record of the key was last cleared. When `canSendRequest` has held for a key for the fourth time
    since then, that flush notifies its conn if it is still in the group. After a flush the counters
    are between 0 and `maxRetry - 1`. -/
theorem timeout_iff_three_requests (id : IdBufType) (es : List Event) (s : NetSide)
    (hr : run step (new id) es = .ok s) :
    (∀ pre k, pre ++ [.timeout k true] <+: s.notes → (tally k pre).reqs = 3) ∧
    ∀ (o : ByteOrder) (timestamp : UInt64) (envs : IntKeyType → SendEnv),
      ∃ s', s.step (.onFlush o timestamp envs) = .ok s' ∧
        (∀ pre k p, s.notes <+: pre → pre <+: s'.notes → (tally k pre).asked = 4 →
          s'.mFakeNetGroup.group.mConnMap.get? k = some p →
          .timeout k true ∈ s'.notes.drop s.notes.length ∧ TimedOut s'.mFakeNetGroup.heap p) ∧
        ∀ e ∈ s'.mKeepAlive.mReqMap.entries, 0 ≤ e.2 ∧ e.2 ≤ NetConnKeepAlive.maxRetry - 1 := by
  have hI : Inv s := inv_run hr
  refine ⟨hI.justified, ?_⟩
  intro o timestamp envs
  obtain ⟨s', hflush⟩ := onFlush_ok hI o timestamp envs
  obtain ⟨hI', -, ns, hns, -, -, hfound⟩ := onFlush_spec hI hflush
  refine ⟨s', hflush, ?_, ?_⟩
  · rw [hns, List.drop_left]
    rw [← hns]
    exact hfound
  · intro e he
    have hagree := hI'.counted e.1
    rw [(StdMap.get?_eq_some_iff same_intKey).mpr he] at hagree
    obtain ⟨m, hm, hle, -⟩ := hagree
    have hle2 : m ≤ 2 := hle
    rw [hm]
    unfold NetConnKeepAlive.maxRetry
    omega

/-- The only conn is picked, and the packet is sent. -/
def sent : SendEnv := { picks := [0], out := fun _ _ => 0 }

theorem conn10001_mNew : (NetConn.fakeTcp ConnLife.conn10001).toINetConn.mNew = true := rfl

/-- A conn to port 10001 has sent data and is asked three times. -/
def asked3 : List Event :=
  [.addNetConn ⟨.fakeTcp ConnLife.conn10001, conn10001_mNew⟩, .sendData 1 [0] sent,
    .onFlush .little 20000 fun _ => sent, .onFlush .little 30000 fun _ => sent,
    .onFlush .little 40000 fun _ => sent]

/-- The notes of that run. -/
def notes3 : List Note :=
  let key := ConnLife.conn10001.mIntKey
  [.output 0 0, .flush [key], .canSend key, .request 0 key, .output 0 3, .flush [key], .canSend key,
    .request 0 key, .output 0 3, .flush [key], .canSend key, .request 0 key, .output 0 3]

theorem fourth_flush_notifies : ∃ s s', run step (new (Buf.zeros 8)) asked3 = .ok s ∧
    s.step (.onFlush .little 50000 fun _ => sent) = .ok s' ∧ TimedOut s'.mFakeNetGroup.heap 0 := by
  obtain ⟨s, hs, hnotes⟩ := exists_of_toOption (x := run step (new (Buf.zeros 8)) asked3)
    (f := fun s => s.notes) (b := notes3) (by decide +kernel)
  obtain ⟨s', hs', hfound, -⟩ :=
    (timeout_iff_three_requests (Buf.zeros 8) asked3 s hs).2 .little 50000 fun _ => sent
  let key := ConnLife.conn10001.mIntKey
  obtain ⟨s'', hs'', hafter⟩ := exists_of_toOption
    (x := run step (new (Buf.zeros 8)) asked3 >>= (·.step (.onFlush .little 50000 fun _ => sent)))
    (f := fun s => (s.notes, s.mFakeNetGroup.group.mConnMap.get? key))
    (b := (notes3 ++ [.flush [key], .canSend key, .timeout key true], some 0)) (by decide +kernel)
  rw [hs, ok_bind, hs'] at hs''
  obtain rfl := Except.ok.inj hs''
  obtain ⟨hnotes', hconn⟩ := Prod.mk.inj hafter
  refine ⟨s, s', hs, hs', (hfound (notes3 ++ [.flush [key], .canSend key]) key 0 ?_ ?_ ?_ hconn).2⟩
  · rw [hnotes]
    exact List.prefix_append _ _
  · rw [hnotes']
    exact ⟨[.timeout key true], List.append_assoc _ _ _⟩
  · decide +kernel

end NetSide

end Rsock
