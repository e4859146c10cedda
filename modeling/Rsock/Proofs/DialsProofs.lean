import Mathlib.Data.List.Nodup
import Mathlib.Data.List.Perm.Basic
import Mathlib.Data.List.TakeDrop
import Rsock.Dials

/-!
# Proofs: each dial is resolved once

A step of the manager is a step of each of its dials on its own (`EntryStep`). What holds of a dial over
a whole run, how often its callback is called, how many retries it has left, and how long it waits for the
next one, follows from that alone.
-/

namespace Rsock

open CMem TransSys

namespace Dials

variable {m m' : Dials} {id : Nat} {d : DialHelper} {now : UInt64}

/-- The entry of a dial, while it is pending. -/
def entryOf (m : Dials) (id : Nat) : Option DialHelper := m.mPending.lookup id

/-- What is recorded of a dial. -/
def actsOf (id : Nat) (acts : List (Nat × DialAct)) : List DialAct :=
  (acts.filter fun a => a.1 = id).map Prod.snd

@[simp] theorem actsOf_append (id : Nat) (as bs : List (Nat × DialAct)) :
    actsOf id (as ++ bs) = actsOf id as ++ actsOf id bs := by
  simp [actsOf]

theorem actsOf_cons_self (id : Nat) (a : DialAct) (as : List (Nat × DialAct)) :
    actsOf id ((id, a) :: as) = a :: actsOf id as := by
  simp [actsOf]

theorem actsOf_cons_of_ne {id' : Nat} (h : id' ≠ id) (a : DialAct) (as : List (Nat × DialAct)) :
    actsOf id ((id', a) :: as) = actsOf id as := by
  simp [actsOf, h]

theorem lookup_cons_of_ne {id' : Nat} (h : id' ≠ id) (d : DialHelper) (l : List (Nat × DialHelper)) :
    ((id', d) :: l).lookup id = l.lookup id := by
  have hne : (id == id') = false := by simpa using Ne.symm h
  simp [List.lookup_cons, hne]

theorem lookup_eq_none {l : List (Nat × DialHelper)} : l.lookup id = none ↔ id ∉ l.map Prod.fst := by
  rw [List.lookup_eq_none_iff]
  constructor
  · rintro h hid
    obtain ⟨e, he, rfl⟩ := List.mem_map.mp hid
    simpa using h e he
  · intro h e he
    have hne : id ≠ e.1 := by
      rintro rfl
      exact h (List.mem_map_of_mem he)
    simpa using hne

/-! ## One pass over the pending dials -/

/-- What a pass does to one entry, where `reqs` requests have been made before. -/
inductive FlushEntry (now : UInt64) (reqs : Nat) :
    DialHelper → List DialAct → Option DialHelper → (reqs' : Nat) → Prop
  | giveUp {d : DialHelper} (hretry : d.nRetry ≤ 0) :
    FlushEntry now reqs d [.callback none] none reqs
  | start {d : DialHelper} (hretry : 0 < d.nRetry) (hreq : d.req = none) (hdue : d.nextRetryMs ≤ now) :
    FlushEntry now reqs d [.start reqs] (some { d with req := some reqs }) (reqs + 1)
  | fail {d : DialHelper} (hretry : 0 < d.nRetry) (hreq : d.req = none) (hdue : d.nextRetryMs ≤ now) :
    FlushEntry now reqs d [.fail] (some (d.dialFailed now)) reqs
  | wait {d : DialHelper} (hretry : 0 < d.nRetry) (hwait : d.req ≠ none ∨ now < d.nextRetryMs) :
    FlushEntry now reqs d [] (some d) reqs

/-- The pass takes one entry and goes on to the others. -/
theorem flushLoop_cons (now : UInt64) (connects : List Bool) (reqs id : Nat) (d : DialHelper)
    (l : List (Nat × DialHelper)) :
    ∃ acts d' connects' reqs', FlushEntry now reqs d acts d' reqs' ∧
      flushLoop now connects reqs ((id, d) :: l) =
        (d'.toList.map (Prod.mk id) ++ (flushLoop now connects' reqs' l).1,
          (flushLoop now connects' reqs' l).2.1,
          acts.map (Prod.mk id) ++ (flushLoop now connects' reqs' l).2.2) := by
  rw [flushLoop]
  split
  · next hretry => exact ⟨_, _, _, _, .giveUp hretry, rfl⟩
  · next hretry =>
    have hpos : 0 < d.nRetry := Int.not_le.mp hretry
    split
    · next hdue =>
      have hreq : d.req = none := Option.isNone_iff_eq_none.mp hdue.1
      split
      · exact ⟨_, _, _, _, .start hpos hreq hdue.2, rfl⟩
      · exact ⟨_, _, _, _, .fail hpos hreq hdue.2, rfl⟩
    · next hwait =>
      refine ⟨_, _, _, _, .wait hpos ?_, rfl⟩
      by_cases hreq : d.req = none
      · exact .inr (UInt64.not_le.mp fun hle => hwait ⟨by rw [hreq]; rfl, hle⟩)
      · exact .inl hreq

theorem FlushEntry.le {reqs reqs' : Nat} {acts : List DialAct} {d' : Option DialHelper}
    (h : FlushEntry now reqs d acts d' reqs') : reqs ≤ reqs' := by
  cases h with
  | start => exact Nat.le_succ reqs
  | giveUp | fail | wait => exact le_rfl

theorem le_flushLoop (now : UInt64) (connects : List Bool) (reqs : Nat) (l : List (Nat × DialHelper)) :
    reqs ≤ (flushLoop now connects reqs l).2.1 := by
  induction l generalizing connects reqs with
  | nil => exact le_rfl
  | cons e l ih =>
    obtain ⟨acts, d', connects', reqs', hentry, heq⟩ := flushLoop_cons now connects reqs e.1 e.2 l
    rw [heq]
    exact hentry.le.trans (ih connects' reqs')

theorem actsOf_map_self (id : Nat) (as : List DialAct) : actsOf id (as.map (Prod.mk id)) = as := by
  induction as with
  | nil => rfl
  | cons a as ih => rw [List.map_cons, actsOf_cons_self, ih]

theorem actsOf_map_of_ne {id' : Nat} (h : id' ≠ id) (as : List DialAct) :
    actsOf id (as.map (Prod.mk id')) = [] := by
  induction as with
  | nil => rfl
  | cons a as ih => rw [List.map_cons, actsOf_cons_of_ne h, ih]

theorem lookup_map_self {l : List (Nat × DialHelper)} (h : l.lookup id = none) (d' : Option DialHelper) :
    (d'.toList.map (Prod.mk id) ++ l).lookup id = d' := by
  cases d' with
  | none => exact h
  | some d => exact List.lookup_cons_self

theorem lookup_map_of_ne {id' : Nat} (h : id' ≠ id) (d' : Option DialHelper)
    (l : List (Nat × DialHelper)) :
    (d'.toList.map (Prod.mk id') ++ l).lookup id = l.lookup id := by
  cases d' with
  | none => rfl
  | some d => exact lookup_cons_of_ne h d l

/-- The pass leaves the dials alone that are not pending. -/
theorem flushLoop_none (now : UInt64) (connects : List Bool) (reqs : Nat) {l : List (Nat × DialHelper)}
    (h : id ∉ l.map Prod.fst) :
    (flushLoop now connects reqs l).1.lookup id = none ∧
      actsOf id (flushLoop now connects reqs l).2.2 = [] := by
  induction l generalizing connects reqs with
  | nil => exact ⟨rfl, rfl⟩
  | cons e l ih =>
    rw [List.map_cons, List.mem_cons, not_or] at h
    obtain ⟨hne, hl⟩ := h
    obtain ⟨acts, d', connects', reqs', -, heq⟩ := flushLoop_cons now connects reqs e.1 e.2 l
    obtain ⟨hnone, hacts⟩ := ih connects' reqs' hl
    rw [heq, lookup_map_of_ne (Ne.symm hne), actsOf_append, actsOf_map_of_ne (Ne.symm hne), hacts]
    exact ⟨hnone, rfl⟩

/-- What the pass does to a dial. -/
theorem flushLoop_some (now : UInt64) (connects : List Bool) (reqs : Nat) {l : List (Nat × DialHelper)}
    (hids : (l.map Prod.fst).Nodup) (h : l.lookup id = some d) :
    ∃ r r', FlushEntry now r d (actsOf id (flushLoop now connects reqs l).2.2)
      ((flushLoop now connects reqs l).1.lookup id) r' := by
  induction l generalizing connects reqs with
  | nil => cases h
  | cons e l ih =>
    obtain ⟨id', d₀⟩ := e
    obtain ⟨hid, hids⟩ := List.nodup_cons.mp hids
    obtain ⟨acts, d', connects', reqs', hentry, heq⟩ := flushLoop_cons now connects reqs id' d₀ l
    rw [heq, actsOf_append]
    by_cases hself : id' = id
    · -- the dial itself: the rest of the pass has nothing to do with it
      subst hself
      obtain rfl : d₀ = d := by simpa using h
      obtain ⟨hnone, hacts⟩ := flushLoop_none now connects' reqs' hid
      rw [lookup_map_self hnone, actsOf_map_self, hacts, List.append_nil]
      exact ⟨reqs, reqs', hentry⟩
    · rw [lookup_cons_of_ne hself] at h
      rw [lookup_map_of_ne hself, actsOf_map_of_ne hself]
      exact ih connects' reqs' hids h

/-! ## The requests -/

/-- The requests of the entries, each with the number of its dial. -/
def runningOf (l : List (Nat × DialHelper)) : List (Nat × Nat) :=
  l.filterMap fun e => e.2.req.map fun r => (r, e.1)

theorem runningOf_append (l l' : List (Nat × DialHelper)) :
    runningOf (l ++ l') = runningOf l ++ runningOf l' := List.filterMap_append

theorem runningOf_cons_none (h : d.req = none) (l : List (Nat × DialHelper)) :
    runningOf ((id, d) :: l) = runningOf l :=
  List.filterMap_cons_none (by rw [h]; rfl)

theorem runningOf_cons_some {r : Nat} (h : d.req = some r) (l : List (Nat × DialHelper)) :
    runningOf ((id, d) :: l) = (r, id) :: runningOf l :=
  List.filterMap_cons_some (by rw [h]; rfl)

theorem mem_runningOf {r : Nat} {l : List (Nat × DialHelper)} :
    (r, id) ∈ runningOf l ↔ ∃ d, (id, d) ∈ l ∧ d.req = some r := by
  unfold runningOf
  rw [List.mem_filterMap]
  constructor
  · rintro ⟨⟨id', d⟩, he, hr⟩
    obtain ⟨r', hr', heq⟩ := Option.map_eq_some_iff.mp hr
    obtain ⟨rfl, rfl⟩ := Prod.mk.inj heq
    exact ⟨d, he, hr'⟩
  · rintro ⟨d, he, hr⟩
    exact ⟨(id, d), he, by rw [hr]; rfl⟩

/-- The dials with a request are among the pending ones. -/
theorem dials_runningOf (l : List (Nat × DialHelper)) :
    ((runningOf l).map Prod.snd).Sublist (l.map Prod.fst) := by
  induction l with
  | nil => exact List.Sublist.refl _
  | cons e l ih =>
    obtain ⟨id, d⟩ := e
    cases hreq : d.req with
    | none =>
      rw [runningOf_cons_none hreq]
      exact ih.cons id
    | some r =>
      rw [runningOf_cons_some hreq]
      exact ih.cons_cons id

theorem ids_flushLoop (now : UInt64) (connects : List Bool) (reqs : Nat) (l : List (Nat × DialHelper)) :
    ((flushLoop now connects reqs l).1.map Prod.fst).Sublist (l.map Prod.fst) := by
  induction l generalizing connects reqs with
  | nil => exact List.Sublist.refl _
  | cons e l ih =>
    obtain ⟨acts, d', connects', reqs', -, heq⟩ := flushLoop_cons now connects reqs e.1 e.2 l
    rw [heq]
    cases d' with
    | none => exact (ih connects' reqs').cons e.1
    | some d' => exact (ih connects' reqs').cons_cons e.1

/-- The requests that a pass starts are numbered one after the other. -/
theorem reqs_flushLoop (now : UInt64) (connects : List Bool) (reqs : Nat)
    (l : List (Nat × DialHelper)) :
    ((flushLoop now connects reqs l).2.2.filterMap started).map Prod.fst =
      List.range' reqs ((flushLoop now connects reqs l).2.1 - reqs) := by
  induction l generalizing connects reqs with
  | nil => simp [flushLoop]
  | cons e l ih =>
    obtain ⟨acts, d', connects', reqs', hentry, heq⟩ := flushLoop_cons now connects reqs e.1 e.2 l
    have hrest := ih connects' reqs'
    rw [heq, List.filterMap_append, List.map_append, hrest]
    cases hentry with
    | giveUp | fail | wait => rfl
    | start =>
      have hle := le_flushLoop now connects' (reqs + 1) l
      have hlen : (flushLoop now connects' (reqs + 1) l).2.1 - reqs =
          (flushLoop now connects' (reqs + 1) l).2.1 - (reqs + 1) + 1 := by omega
      dsimp only
      rw [hlen, List.range'_succ]
      rfl

/-- A dial that is given up has no request, and no request gets lost. -/
theorem runningOf_flushLoop (now : UInt64) (connects : List Bool) (reqs : Nat)
    {l : List (Nat × DialHelper)} (h : ∀ e ∈ l, e.2.req ≠ none → 0 < e.2.nRetry) :
    (runningOf (flushLoop now connects reqs l).1).Perm
      (runningOf l ++ (flushLoop now connects reqs l).2.2.filterMap started) := by
  induction l generalizing connects reqs with
  | nil => exact List.Perm.refl _
  | cons e l ih =>
    obtain ⟨id, d⟩ := e
    obtain ⟨acts, d', connects', reqs', hentry, heq⟩ := flushLoop_cons now connects reqs id d l
    have hrest := ih connects' reqs' fun e he => h e (List.mem_cons_of_mem _ he)
    rw [heq]
    cases hentry with
    | giveUp hretry =>
      have hreq : d.req = none := by
        by_contra hreq
        have hpos : 0 < d.nRetry := h (id, d) List.mem_cons_self hreq
        omega
      rw [runningOf_cons_none hreq]
      exact hrest
    | start _ hreq =>
      rw [runningOf_cons_none hreq]
      exact (hrest.cons (reqs, id)).trans List.perm_middle.symm
    | fail _ hreq =>
      rw [runningOf_cons_none hreq]
      have hfail : (d.dialFailed now).req = none := hreq
      exact (runningOf_cons_none hfail _).symm ▸ hrest
    | wait =>
      show (runningOf ((id, d) :: (flushLoop now connects' reqs l).1)).Perm _
      cases hreq : d.req with
      | none =>
        rw [runningOf_cons_none hreq, runningOf_cons_none hreq]
        exact hrest
      | some r =>
        rw [runningOf_cons_some hreq, runningOf_cons_some hreq]
        exact hrest.cons (r, id)

/-! ## The invariant of the manager -/

/-- Numbers are used once, and the running requests are those of the entries. -/
structure Inv (m : Dials) : Prop where
  ids_nodup : (m.mPending.map Prod.fst).Nodup
  ids_lt : ∀ id ∈ m.mPending.map Prod.fst, id < m.dialed
  reqs_nodup : ((runningOf m.mPending).map Prod.fst).Nodup
  reqs_lt : ∀ r ∈ (runningOf m.mPending).map Prod.fst, r < m.reqs
  running_perm : m.running.Perm (runningOf m.mPending)
  retry_pos : ∀ e ∈ m.mPending, e.2.req ≠ none → 0 < e.2.nRetry

theorem lookup_of_mem {l : List (Nat × DialHelper)} (hids : (l.map Prod.fst).Nodup) (h : (id, d) ∈ l) :
    l.lookup id = some d := by
  induction l with
  | nil => cases h
  | cons e l ih =>
    obtain ⟨id', d'⟩ := e
    obtain ⟨hid, hids⟩ := List.nodup_cons.mp hids
    rcases List.mem_cons.mp h with heq | h
    · obtain ⟨rfl, rfl⟩ := Prod.mk.inj heq
      exact List.lookup_cons_self
    · have hne : id' ≠ id := by
        rintro rfl
        exact hid (List.mem_map.mpr ⟨(id', d), h, rfl⟩)
      rw [lookup_cons_of_ne hne]
      exact ih hids h

theorem mem_of_lookup {l : List (Nat × DialHelper)} (h : l.lookup id = some d) : (id, d) ∈ l := by
  obtain ⟨l₁, l₂, rfl, -⟩ := List.lookup_eq_some_iff.mp h
  simp

/-- A dial has at most one running request, and it is that of its entry. -/
theorem Inv.running_iff (h : Inv m) {r : Nat} :
    (r, id) ∈ m.running ↔ ∃ d, m.entryOf id = some d ∧ d.req = some r := by
  rw [h.running_perm.mem_iff, mem_runningOf]
  constructor
  · rintro ⟨d, hd, hr⟩
    exact ⟨d, lookup_of_mem h.ids_nodup hd, hr⟩
  · rintro ⟨d, hd, hr⟩
    exact ⟨d, mem_of_lookup hd, hr⟩

theorem Inv.running_nodup (h : Inv m) : (m.running.map Prod.snd).Nodup := by
  have hperm := h.running_perm.map Prod.snd
  rw [hperm.nodup_iff]
  exact (dials_runningOf m.mPending).nodup h.ids_nodup

theorem inv_start : Inv {} where
  ids_nodup := List.nodup_nil
  ids_lt _ h := by cases h
  reqs_nodup := List.nodup_nil
  reqs_lt _ h := by cases h
  running_perm := List.Perm.refl _
  retry_pos _ h := by cases h

theorem inv_dialTcpAsync (h : Inv m) (info : ConnInfo) (now : UInt64) : Inv (m.dialTcpAsync info now) := by
  have hrun : runningOf (m.dialTcpAsync info now).mPending = runningOf m.mPending := by
    rw [dialTcpAsync, runningOf_append]
    exact List.append_nil _
  refine ⟨?_, ?_, ?_, ?_, ?_, ?_⟩
  · rw [dialTcpAsync, List.map_append, List.nodup_append]
    refine ⟨h.ids_nodup, List.nodup_singleton _, ?_⟩
    intro id hid id' hid'
    obtain rfl := List.mem_singleton.mp hid'
    exact Nat.ne_of_lt (h.ids_lt id hid)
  · intro id hid
    rw [dialTcpAsync, List.map_append, List.mem_append] at hid
    show id < m.dialed + 1
    rcases hid with hid | hid
    · exact Nat.lt_succ_of_lt (h.ids_lt id hid)
    · obtain rfl := List.mem_singleton.mp hid
      exact Nat.lt_succ_self _
  · rw [hrun]
    exact h.reqs_nodup
  · rw [hrun]
    exact h.reqs_lt
  · rw [hrun]
    exact h.running_perm
  · intro e he hreq
    rcases List.mem_append.mp he with he | he
    · exact h.retry_pos e he hreq
    · obtain rfl := List.mem_singleton.mp he
      exact absurd rfl hreq

theorem inv_flushPending (h : Inv m) (now : UInt64) (connects : List Bool) :
    Inv (m.flushPending now connects) := by
  unfold flushPending
  split
  · have hsub := ids_flushLoop now connects m.reqs m.mPending
    have hperm := runningOf_flushLoop now connects m.reqs h.retry_pos
    have hle := le_flushLoop now connects m.reqs m.mPending
    have hnum := reqs_flushLoop now connects m.reqs m.mPending
    have hreqs := hperm.map Prod.fst
    rw [List.map_append, hnum] at hreqs
    refine ⟨hsub.nodup h.ids_nodup, fun id hid => h.ids_lt id (hsub.mem hid), ?_, ?_, ?_, ?_⟩
    · rw [hreqs.nodup_iff, List.nodup_append]
      refine ⟨h.reqs_nodup, List.nodup_range', ?_⟩
      intro r hr r' hr'
      have hlt := h.reqs_lt r hr
      have hge := (List.mem_range'_1.mp hr').1
      omega
    · intro r hr
      rcases List.mem_append.mp (hreqs.mem_iff.mp hr) with hr | hr
      · exact Nat.lt_of_lt_of_le (h.reqs_lt r hr) hle
      · have hlt := (List.mem_range'_1.mp hr).2
        show r < (flushLoop now connects m.reqs m.mPending).2.1
        omega
    · exact (h.running_perm.append_right _).trans hperm.symm
    · rintro ⟨id, d'⟩ he hreq
      have hids := hsub.nodup h.ids_nodup
      have hlook := lookup_of_mem hids he
      cases hold : m.mPending.lookup id with
      | none =>
        have hnone := (flushLoop_none now connects m.reqs (lookup_eq_none.mp hold)).1
        rw [hnone] at hlook
        cases hlook
      | some d =>
        obtain ⟨r, r', hflush⟩ := flushLoop_some now connects m.reqs h.ids_nodup hold
        rw [hlook] at hflush
        generalize actsOf id _ = acts at hflush
        cases hflush with
        | start hretry => exact hretry
        | fail hretry hnone => exact absurd hnone hreq
        | wait hretry => exact hretry
  · exact h

/-! ## Completions -/

/-- The dial has come to a conn, and the addresses of the handle are known. -/
def Completes (res : ConnectResult) : Prop :=
  res.status = 0 ∧ res.conn ≠ none ∧ res.nret = 0 ∧ res.tcpInfo.dp ≠ 0 ∧ res.tcpInfo.dst ≠ 0

/-- The dial has failed, or it has come to a conn. -/
theorem onTcpConnectEntry_cases (m : Dials) (res : ConnectResult) (before : List (Nat × DialHelper))
    (id : Nat) (d : DialHelper) (after : List (Nat × DialHelper)) :
    ¬ Completes res ∧ m.onTcpConnectEntry res before id d after =
      { m with
        mPending := before ++ (id, { d with req := none }.dialFailed res.now) :: after
        acts := m.acts ++ [(id, .fail)] } ∨
    ∃ c, Completes res ∧ res.conn = some c ∧ m.onTcpConnectEntry res before id d after =
      { m with mPending := before ++ after, acts := m.acts ++ [(id, .callback (some c))] } := by
  unfold onTcpConnectEntry
  by_cases hstatus : res.status ≠ 0
  · exact .inl ⟨fun h => hstatus h.1, if_pos hstatus⟩
  · rw [if_neg hstatus]
    cases hc : res.conn with
    | none => exact .inl ⟨fun h => h.2.1 hc, rfl⟩
    | some c =>
      by_cases hinfo : res.nret ≠ 0 ∨ res.tcpInfo.dp = 0 ∨ res.tcpInfo.dst = 0
      · refine .inl ⟨?_, if_pos hinfo⟩
        rintro ⟨-, -, hnret, hdp, hdst⟩
        rcases hinfo with hinfo | hinfo | hinfo
        · exact hinfo hnret
        · exact hdp hinfo
        · exact hdst hinfo
      · refine .inr ⟨c, ?_, rfl, if_neg hinfo⟩
        simp only [not_or, not_not] at hinfo hstatus
        exact ⟨hstatus, by rw [hc]; simp, hinfo.1, hinfo.2.1, hinfo.2.2⟩

theorem lookup_middle {before after : List (Nat × DialHelper)} (h : id ∉ before.map Prod.fst) :
    (before ++ (id, d) :: after).lookup id = some d := by
  rw [List.lookup_append, lookup_eq_none.mpr h]
  exact List.lookup_cons_self

/-- The other entries are found as before. -/
theorem lookup_middle_of_ne {before after : List (Nat × DialHelper)} {id' : Nat} (h : id' ≠ id) :
    (before ++ (id', d) :: after).lookup id = (before ++ after).lookup id := by
  rw [List.lookup_append, List.lookup_append, lookup_cons_of_ne h]

/-- Where the loop of `onTcpConnect` stops. -/
theorem span_entry {req : Nat} {l before rest : List (Nat × DialHelper)}
    (h : (l.span fun d => d.2.req ≠ some req) = (before, rest)) :
    l = before ++ rest ∧ (∀ e ∈ before, e.2.req ≠ some req) ∧
      ∀ e ∈ rest.head?, e.2.req = some req := by
  rw [List.span_eq_takeWhile_dropWhile, Prod.mk.injEq] at h
  obtain ⟨rfl, rfl⟩ := h
  refine ⟨List.takeWhile_append_dropWhile.symm, ?_, ?_⟩
  · intro e he
    simpa using List.all_eq_true.mp List.all_takeWhile e he
  · intro e he
    have hnot := List.head?_dropWhile_not (fun d : Nat × DialHelper => d.2.req ≠ some req) l
    rw [Option.mem_def.mp he] at hnot
    simpa using hnot

/-- What `onTcpConnect` does, for a request that is running. -/
theorem onTcpConnect_cases (h : Inv m) {req : Nat} (hreq : req ∈ m.running.map Prod.fst)
    (res : ConnectResult) :
    ∃ before id d after, m.mPending = before ++ (id, d) :: after ∧ d.req = some req ∧
      (¬ Completes res ∧ m.onTcpConnect req res =
        { m with
          mPending := before ++ (id, { d with req := none }.dialFailed res.now) :: after
          running := m.running.filter fun r => r.1 ≠ req
          acts := m.acts ++ [(id, .fail)] } ∨
      ∃ c, Completes res ∧ res.conn = some c ∧ m.onTcpConnect req res =
        { m with
          mPending := before ++ after
          running := m.running.filter fun r => r.1 ≠ req
          acts := m.acts ++ [(id, .callback (some c))] }) := by
  have hmem : ∃ e ∈ m.mPending, e.2.req = some req := by
    obtain ⟨⟨r, id⟩, hrun, rfl⟩ := List.mem_map.mp hreq
    obtain ⟨d, hd, hr⟩ := mem_runningOf.mp (h.running_perm.mem_iff.mp hrun)
    exact ⟨(id, d), hd, hr⟩
  unfold onTcpConnect
  dsimp only
  cases hspan : m.mPending.span fun d => d.2.req ≠ some req with
  | mk before rest =>
    obtain ⟨hsplit, hbefore, hhead⟩ := span_entry hspan
    cases rest with
    | nil =>
      obtain ⟨e, he, hr⟩ := hmem
      rw [hsplit, List.append_nil] at he
      exact absurd hr (hbefore e he)
    | cons e after =>
      obtain ⟨id, d⟩ := e
      refine ⟨before, id, d, after, hsplit, hhead (id, d) rfl, ?_⟩
      exact onTcpConnectEntry_cases _ res before id d after

/-- The request of an entry is completed: the entry is replaced by one without a request, or by none. -/
theorem Inv.completed (h : Inv m) {before after : List (Nat × DialHelper)} {req : Nat}
    (rest : List (Nat × DialHelper))
    (hsplit : m.mPending = before ++ (id, d) :: after) (hd : d.req = some req)
    (hids : (rest.map Prod.fst).Sublist [id]) (hnone : ∀ e ∈ rest, e.2.req = none)
    (acts : List (Nat × DialAct)) :
    Inv { m with
      mPending := before ++ (rest ++ after)
      running := m.running.filter fun r => r.1 ≠ req
      acts := acts } := by
  have hnodup := h.ids_nodup
  have hlt := h.ids_lt
  have hreqs := h.reqs_nodup
  have hreqslt := h.reqs_lt
  have hperm := h.running_perm
  have hpos := h.retry_pos
  rw [hsplit] at hnodup hlt hreqs hreqslt hperm hpos
  rw [runningOf_append, runningOf_cons_some hd] at hreqs hreqslt hperm
  have hsub : ((before ++ (rest ++ after)).map Prod.fst).Sublist
      ((before ++ (id, d) :: after).map Prod.fst) := by
    rw [List.map_append, List.map_append, List.map_append]
    exact (hids.append_right _).append_left _
  have hrun : runningOf (before ++ (rest ++ after)) = runningOf before ++ runningOf after := by
    have hrest : runningOf rest = [] :=
      List.filterMap_eq_nil_iff.mpr fun e he => by rw [hnone e he]; rfl
    rw [runningOf_append, runningOf_append, hrest, List.nil_append]
  have hsubreqs : ((runningOf before ++ runningOf after).map Prod.fst).Sublist
      ((runningOf before ++ (req, id) :: runningOf after).map Prod.fst) :=
    ((List.sublist_cons_self _ _).append_left _).map _
  have hreq : req ∉ (runningOf before ++ runningOf after).map Prod.fst := by
    rw [List.map_append, List.map_cons, List.nodup_middle] at hreqs
    rw [List.map_append]
    exact (List.nodup_cons.mp hreqs).1
  refine ⟨hsub.nodup hnodup, fun id' hid => hlt id' (hsub.mem hid), ?_, ?_, ?_, ?_⟩
  · rw [hrun]
    exact hsubreqs.nodup hreqs
  · rw [hrun]
    exact fun r hr => hreqslt r (hsubreqs.mem hr)
  · rw [hrun]
    refine (hperm.filter _).trans ?_
    rw [List.filter_append, List.filter_cons_of_neg (by simp), ← List.filter_append,
      List.filter_eq_self.mpr]
    intro r hr
    have hne : r.1 ≠ req := by
      rintro rfl
      exact hreq (List.mem_map_of_mem hr)
    simpa using hne
  · intro e he hreq'
    rcases List.mem_append.mp he with he | he
    · exact hpos e (List.mem_append_left _ he) hreq'
    · rcases List.mem_append.mp he with he | he
      · exact absurd (hnone e he) hreq'
      · exact hpos e (List.mem_append_right _ (List.mem_cons_of_mem _ he)) hreq'

/-- The completion of a request keeps the invariant. -/
theorem inv_onTcpConnect (h : Inv m) {req : Nat} (hreq : req ∈ m.running.map Prod.fst)
    (res : ConnectResult) : Inv (m.onTcpConnect req res) := by
  obtain ⟨before, id, d, after, hsplit, hd, ⟨-, heq⟩ | ⟨c, -, -, heq⟩⟩ := onTcpConnect_cases h hreq res
  · rw [heq]
    refine h.completed [(id, { d with req := none }.dialFailed res.now)] hsplit hd
      (List.Sublist.refl _) ?_ _
    intro e he
    obtain rfl := List.mem_singleton.mp he
    rfl
  · rw [heq]
    exact h.completed [] hsplit hd (List.nil_sublist _) (fun e he => by cases he) _

theorem mem_running_of_any {req : Nat} (h : (m.running.any fun r => r.1 = req) = true) :
    req ∈ m.running.map Prod.fst := by
  obtain ⟨r, hr, heq⟩ := List.any_eq_true.mp h
  exact List.mem_map.mpr ⟨r, hr, by simpa using heq⟩

/-- Every event keeps the invariant. -/
theorem inv_step {e : Event} (h : Inv m) (hstep : step m e = .ok m') : Inv m' := by
  cases e with
  | dialTcpAsync info now =>
    obtain rfl := Except.ok.inj hstep
    exact inv_dialTcpAsync h info now
  | onFlush now connects =>
    obtain rfl := Except.ok.inj hstep
    exact inv_flushPending h now connects
  | onNetConnected =>
    obtain rfl := Except.ok.inj hstep
    exact ⟨h.ids_nodup, h.ids_lt, h.reqs_nodup, h.reqs_lt, h.running_perm, h.retry_pos⟩
  | onNetDisconnected =>
    obtain rfl := Except.ok.inj hstep
    exact ⟨h.ids_nodup, h.ids_lt, h.reqs_nodup, h.reqs_lt, h.running_perm, h.retry_pos⟩
  | onTcpConnect req res =>
    unfold step at hstep
    dsimp only at hstep
    split at hstep
    · next hany =>
      obtain rfl := Except.ok.inj hstep
      exact inv_onTcpConnect h (mem_running_of_any hany) res
    · obtain rfl := Except.ok.inj hstep
      exact h

/-! ## Attempts -/

/-- The delay after some failures: 1, 2, 4, 8, 16 and 32 seconds, and so on from the start. -/
def delayMs (n : Nat) : UInt64 := [1000, 2000, 4000, 8000, 16000, 32000].getD (n % 6) 0

/-- A failure goes on to the next delay. -/
theorem dialFailed_durationMs {n : Nat} (h : d.durationMs = delayMs n) :
    (d.dialFailed now).durationMs = delayMs (n + 1) := by
  have hcycle : ∀ k < 6,
      (if delayMs k * 2 > 60000 then 1000 else delayMs k * 2) = delayMs ((k + 1) % 6) := by
    decide
  have hmod : ∀ k, delayMs (k % 6) = delayMs k := fun k => by
    unfold delayMs
    rw [Nat.mod_mod]
  show (if d.durationMs * 2 > 60000 then 1000 else d.durationMs * 2) = _
  have hn := hcycle (n % 6) (Nat.mod_lt n (by decide))
  rw [hmod, hmod] at hn
  rw [h, hn]
  unfold delayMs
  rw [Nat.add_mod, Nat.mod_mod, ← Nat.add_mod]

/-- The entry `d` after an attempt that has failed at the time `now`: it has one retry less and no request,
    and waits the next delay from then on. -/
structure FailedAttempt (now : UInt64) (d d' : DialHelper) : Prop where
  info : d'.info = d.info
  nRetry : d'.nRetry = d.nRetry - 1
  durationMs : ∀ n, d.durationMs = delayMs n → d'.durationMs = delayMs (n + 1)
  nextRetryMs : d'.nextRetryMs = now + d'.durationMs
  req : d'.req = none

/-- What `dialFailed` leaves, once the request is over. -/
theorem failedAttempt_dialFailed (d : DialHelper) (now : UInt64) :
    FailedAttempt now d ({ d with req := none }.dialFailed now) where
  info := rfl
  nRetry := rfl
  durationMs _ hn := dialFailed_durationMs (d := { d with req := none }) hn
  nextRetryMs := rfl
  req := rfl

/-- An attempt is due for the dial. -/
def isDue (now : UInt64) (d : DialHelper) : Bool := 0 < d.nRetry ∧ d.req = none ∧ d.nextRetryMs ≤ now

/-- The dials an attempt is due for, in the order of `mPending`. -/
def dueOf (now : UInt64) (l : List (Nat × DialHelper)) : List Nat :=
  (l.filter fun e => isDue now e.2).map Prod.fst

/-- While the network is down, no attempt is made. -/
def due (m : Dials) (now : UInt64) : List Nat :=
  if m.mNetworkAlive then dueOf now m.mPending else []

/-- The attempt that an act is, and whether it has got a request. -/
def attempt : Nat × DialAct → Option (Nat × Bool)
  | (id, .start _) => some (id, true)
  | (id, .fail) => some (id, false)
  | (_, .callback _) => none

theorem dueOf_cons_of_due (h : isDue now d = true) (id : Nat) (l : List (Nat × DialHelper)) :
    dueOf now ((id, d) :: l) = id :: dueOf now l := by
  simp [dueOf, h]

theorem dueOf_cons_of_not_due (h : isDue now d = false) (id : Nat) (l : List (Nat × DialHelper)) :
    dueOf now ((id, d) :: l) = dueOf now l := by
  simp [dueOf, h]

/-- `ConnectTcp` is called for each dial that is due, and its answer decides. -/
theorem attempts_flushLoop (now : UInt64) (connects : List Bool) (reqs : Nat)
    (l : List (Nat × DialHelper)) :
    (flushLoop now connects reqs l).2.2.filterMap attempt =
      (dueOf now l).zip (connects.takeD (dueOf now l).length false) := by
  induction l generalizing connects reqs with
  | nil => rfl
  | cons e l ih =>
    obtain ⟨id, d⟩ := e
    rw [flushLoop]
    split
    · next hretry =>
      have hd : isDue now d = false := decide_eq_false fun h => absurd h.1 (Int.not_lt.mpr hretry)
      rw [dueOf_cons_of_not_due hd]
      exact ih connects reqs
    · next hretry =>
      split
      · next hdue =>
        have hd : isDue now d = true :=
          decide_eq_true ⟨Int.not_le.mp hretry, Option.isNone_iff_eq_none.mp hdue.1, hdue.2⟩
        have hhead : connects.head?.getD false = connects.headD false := by cases connects <;> rfl
        rw [dueOf_cons_of_due hd, List.length_cons, List.takeD_succ, List.zip_cons_cons, hhead]
        split
        · next hconnect =>
          rw [hconnect, ← ih connects.tail (reqs + 1)]
          rfl
        · next hconnect =>
          rw [Bool.not_eq_true] at hconnect
          rw [hconnect, ← ih connects.tail reqs]
          rfl
      · next hwait =>
        have hd : isDue now d = false :=
          decide_eq_false fun h => hwait ⟨Option.isNone_iff_eq_none.mpr h.2.1, h.2.2⟩
        rw [dueOf_cons_of_not_due hd]
        exact ih connects reqs

/-! ## What a step does to one dial -/

/-- What an event does to the entry of a dial, with what is recorded of it. `alive` says whether the
    network is up. -/
inductive EntryStep (alive : Bool) :
    Event → DialHelper → List DialAct → Option DialHelper → Prop
  | dial {info : ConnInfo} {now : UInt64} {d : DialHelper} :
    EntryStep alive (.dialTcpAsync info now) d [] (some d)
  | up {d : DialHelper} : EntryStep alive .onNetConnected d [] (some d)
  | down {d : DialHelper} : EntryStep alive .onNetDisconnected d [] (some d)
  | wait {now : UInt64} {connects : List Bool} {d : DialHelper}
    (hwait : alive = false ∨ 0 < d.nRetry ∧ (d.req ≠ none ∨ now < d.nextRetryMs)) :
    EntryStep alive (.onFlush now connects) d [] (some d)
  | start {now : UInt64} {connects : List Bool} {d : DialHelper} {req : Nat} (halive : alive = true)
    (hretry : 0 < d.nRetry) (hreq : d.req = none) (hdue : d.nextRetryMs ≤ now) :
    EntryStep alive (.onFlush now connects) d [.start req] (some { d with req := some req })
  | startFails {now : UInt64} {connects : List Bool} {d : DialHelper} (halive : alive = true)
    {d' : DialHelper} (hretry : 0 < d.nRetry) (hreq : d.req = none) (hdue : d.nextRetryMs ≤ now)
    (hfail : FailedAttempt now d d') : EntryStep alive (.onFlush now connects) d [.fail] (some d')
  | giveUp {now : UInt64} {connects : List Bool} {d : DialHelper} (halive : alive = true)
    (hretry : d.nRetry ≤ 0) (hreq : d.req = none) :
    EntryStep alive (.onFlush now connects) d [.callback none] none
  /-- The request of another dial is completed. -/
  | other {req : Nat} {res : ConnectResult} {d : DialHelper} (hreq : d.req ≠ some req) :
    EntryStep alive (.onTcpConnect req res) d [] (some d)
  | connectFails {req : Nat} {res : ConnectResult} {d d' : DialHelper} (hreq : d.req = some req)
    (hretry : 0 < d.nRetry) (hres : ¬ Completes res) (hfail : FailedAttempt res.now d d') :
    EntryStep alive (.onTcpConnect req res) d [.fail] (some d')
  | connected {req : Nat} {res : ConnectResult} {d : DialHelper} {c : FakeTcp}
    (hreq : d.req = some req) (hres : Completes res) (hconn : res.conn = some c) :
    EntryStep alive (.onTcpConnect req res) d [.callback (some c)] none

/-- The entry that an event makes for a new dial. -/
def newEntry (m : Dials) (e : Event) (id : Nat) : Option DialHelper :=
  match e with
  | .dialTcpAsync info now =>
    if id = m.dialed then
      some { info := info, nRetry := ClientNetManager.maxRetry, nextRetryMs := now + 1000 }
    else none
  | _ => none

/-- A step of the manager is a step of each dial. -/
structure StepsEach (m : Dials) (e : Event) (m' : Dials) (acts : List (Nat × DialAct)) : Prop where
  acts_eq : m'.acts = m.acts ++ acts
  pending : ∀ id d, m.entryOf id = some d →
    EntryStep m.mNetworkAlive e d (actsOf id acts) (m'.entryOf id)
  others : ∀ id, m.entryOf id = none → actsOf id acts = [] ∧ m'.entryOf id = m.newEntry e id
  dialed_iff : ∀ id, id < m'.dialed ↔ id < m.dialed ∨ m.newEntry e id ≠ none
  /-- A pass calls `ConnectTcp` once for each dial that is due, and its answer is what happens to it. -/
  attempts : ∀ now connects, e = .onFlush now connects →
    acts.filterMap attempt = (m.due now).zip (connects.takeD (m.due now).length false)

theorem Inv.entry_lt (h : Inv m) (hd : m.entryOf id = some d) : id < m.dialed :=
  h.ids_lt id (List.mem_map.mpr ⟨(id, d), mem_of_lookup hd, rfl⟩)

/-- A step that concerns no dial. -/
theorem stepsEach_of_none {e : Event} (hpending : m'.mPending = m.mPending) (hacts : m'.acts = m.acts)
    (hdialed : m'.dialed = m.dialed) (hnew : ∀ id, m.newEntry e id = none)
    (hdue : ∀ now connects, e = .onFlush now connects → m.due now = [])
    (hidle : ∀ id d, m.entryOf id = some d → EntryStep m.mNetworkAlive e d [] (some d)) :
    StepsEach m e m' [] := by
  have hentry : ∀ id, m'.entryOf id = m.entryOf id := fun id => by rw [entryOf, hpending, entryOf]
  refine ⟨by rw [hacts, List.append_nil], fun id d hd => ?_, fun id hnone => ⟨rfl, ?_⟩, fun id => ?_,
    fun now connects he => ?_⟩
  · rw [hentry, hd]
    exact hidle id d hd
  · rw [hentry, hnone, hnew]
  · rw [hdialed, hnew]
    simp
  · rw [hdue now connects he]
    rfl

/-- A new dial does nothing to the others. -/
theorem stepsEach_dialTcpAsync (m : Dials) (info : ConnInfo) (now : UInt64) :
    StepsEach m (.dialTcpAsync info now) (m.dialTcpAsync info now) [] := by
  have hentry : ∀ id, (m.dialTcpAsync info now).entryOf id =
      (m.entryOf id).or (m.newEntry (.dialTcpAsync info now) id) := by
    intro id
    show (m.mPending ++ _).lookup id = _
    rw [List.lookup_append]
    congr 1
    unfold newEntry
    by_cases hid : id = m.dialed
    · subst hid
      exact List.lookup_cons_self.trans (if_pos rfl).symm
    · exact (lookup_cons_of_ne (Ne.symm hid) _ _).trans (if_neg hid).symm
  refine ⟨(List.append_nil _).symm, ?_, ?_, ?_, nofun⟩
  · intro id d hd
    rw [hentry, hd]
    exact .dial
  · intro id hnone
    rw [hentry, hnone]
    exact ⟨rfl, rfl⟩
  · intro id
    show id < m.dialed + 1 ↔ _
    unfold newEntry
    by_cases hid : id = m.dialed
    · simp [hid]
    · simp [hid]
      omega

/-- A pass does to each dial what is due for it. -/
theorem stepsEach_onFlush (h : Inv m) (now : UInt64) (connects : List Bool) :
    ∃ acts, StepsEach m (.onFlush now connects) (m.flushPending now connects) acts := by
  unfold flushPending
  cases halive : m.mNetworkAlive with
  | false =>
    have hdue : ∀ now, m.due now = [] := fun now => if_neg (by rw [halive]; decide)
    exact ⟨[], stepsEach_of_none rfl rfl rfl (fun _ => rfl) (fun now _ _ => hdue now) fun _ _ _ =>
      .wait (.inl halive)⟩
  | true =>
    refine ⟨(flushLoop now connects m.reqs m.mPending).2.2, rfl, fun id d hd => ?_, fun id hnone => ?_,
      fun id => ?_, fun now' connects' he => ?_⟩
    · obtain ⟨r, r', hflush⟩ := flushLoop_some now connects m.reqs h.ids_nodup hd
      have hpos := h.retry_pos (id, d) (mem_of_lookup hd)
      show EntryStep _ _ d _ ((flushLoop now connects m.reqs m.mPending).1.lookup id)
      generalize actsOf id _ = acts at hflush ⊢
      generalize List.lookup id _ = d' at hflush ⊢
      cases hflush with
      | giveUp hretry =>
        refine .giveUp halive hretry ?_
        by_contra hreq
        have hpos' : 0 < d.nRetry := hpos hreq
        omega
      | start hretry hreq hdue => exact .start halive hretry hreq hdue
      | fail hretry hreq hdue =>
        have hd' : { d with req := none } = d := by rw [← hreq]
        have hfail := failedAttempt_dialFailed d now
        rw [hd'] at hfail
        exact .startFails halive hretry hreq hdue hfail
      | wait hretry hwait => exact .wait (.inr ⟨hretry, hwait⟩)
    · obtain ⟨hlook, hacts⟩ := flushLoop_none now connects m.reqs (lookup_eq_none.mp hnone)
      exact ⟨hacts, hlook⟩
    · show id < m.dialed ↔ _
      simp [newEntry]
    · obtain ⟨rfl, rfl⟩ := Event.onFlush.inj he
      rw [due, if_pos halive]
      exact attempts_flushLoop now connects m.reqs m.mPending

/-- A step that concerns one dial only. -/
theorem stepsEach_of_one {e : Event} {a : DialAct} (hd : m.entryOf id = some d)
    (hacts : m'.acts = m.acts ++ [(id, a)]) (hdialed : m'.dialed = m.dialed)
    (hnew : ∀ id', m.newEntry e id' = none) (hflush : ∀ now connects, e ≠ .onFlush now connects)
    (hone : EntryStep m.mNetworkAlive e d [a] (m'.entryOf id))
    (hsame : ∀ id', id' ≠ id → m'.entryOf id' = m.entryOf id')
    (hother : ∀ id' d', id' ≠ id → m.entryOf id' = some d' →
      EntryStep m.mNetworkAlive e d' [] (some d')) :
    StepsEach m e m' [(id, a)] := by
  have hacts' : ∀ id', id' ≠ id → actsOf id' [(id, a)] = [] :=
    fun id' hne => actsOf_cons_of_ne (Ne.symm hne) a []
  refine ⟨hacts, fun id' d' hd' => ?_, fun id' hnone => ?_, fun id' => ?_, fun now connects he =>
    absurd he (hflush now connects)⟩
  · by_cases hid : id' = id
    · subst hid
      obtain rfl := Option.some.inj (hd.symm.trans hd')
      rw [actsOf_cons_self]
      exact hone
    · rw [hacts' id' hid, hsame id' hid, hd']
      exact hother id' d' hid hd'
  · have hid : id' ≠ id := by
      rintro rfl
      rw [hd] at hnone
      cases hnone
    exact ⟨hacts' id' hid, by rw [hsame id' hid, hnone, hnew]⟩
  · rw [hdialed, hnew]
    simp

/-- The completion of a request concerns its own dial. -/
theorem stepsEach_onTcpConnect (h : Inv m) {req : Nat} (hreq : req ∈ m.running.map Prod.fst)
    (res : ConnectResult) :
    ∃ acts, StepsEach m (.onTcpConnect req res) (m.onTcpConnect req res) acts := by
  obtain ⟨before, id, d, after, hsplit, hd, hcases⟩ := onTcpConnect_cases h hreq res
  have hids := h.ids_nodup
  rw [hsplit, List.map_append, List.map_cons, List.nodup_middle] at hids
  have hnot := (List.nodup_cons.mp hids).1
  rw [← List.map_append] at hnot
  have hbefore : id ∉ before.map Prod.fst := fun hid =>
    hnot (by rw [List.map_append]; exact List.mem_append_left _ hid)
  have hentry : m.entryOf id = some d := by
    unfold entryOf
    rw [hsplit]
    exact lookup_middle hbefore
  have hothers : ∀ id', id' ≠ id → m.entryOf id' = (before ++ after).lookup id' := by
    intro id' hne
    unfold entryOf
    rw [hsplit]
    exact lookup_middle_of_ne (Ne.symm hne)
  have hretry : 0 < d.nRetry := h.retry_pos (id, d) (mem_of_lookup hentry) (by rw [hd]; simp)
  -- an entry with the same request is the same entry
  have hother : ∀ id' d', id' ≠ id → m.entryOf id' = some d' →
      EntryStep m.mNetworkAlive (.onTcpConnect req res) d' [] (some d') := by
    intro id' d' hne hd'
    refine .other fun hreq' => ?_
    have h₁ := h.running_perm.mem_iff.mp (h.running_iff.mpr ⟨d, hentry, hd⟩)
    have h₂ := h.running_perm.mem_iff.mp (h.running_iff.mpr ⟨d', hd', hreq'⟩)
    have heq := List.inj_on_of_nodup_map h.reqs_nodup h₁ h₂ rfl
    exact hne (Prod.mk.inj heq).2.symm
  rcases hcases with ⟨hres, heq⟩ | ⟨c, hres, hconn, heq⟩
  · rw [heq]
    refine ⟨_, stepsEach_of_one hentry rfl rfl (fun _ => rfl) nofun ?_ ?_ hother⟩
    · have hlook : (before ++ (id, { d with req := none }.dialFailed res.now) :: after).lookup id =
          some ({ d with req := none }.dialFailed res.now) := lookup_middle hbefore
      unfold entryOf
      rw [hlook]
      exact .connectFails hd hretry hres (failedAttempt_dialFailed d res.now)
    · intro id' hne
      exact (lookup_middle_of_ne (Ne.symm hne)).trans (hothers id' hne).symm
  · rw [heq]
    refine ⟨_, stepsEach_of_one hentry rfl rfl (fun _ => rfl) nofun ?_ ?_ hother⟩
    · have hlook : (before ++ after).lookup id = none := lookup_eq_none.mpr hnot
      unfold entryOf
      rw [hlook]
      exact .connected hd hres hconn
    · intro id' hne
      exact (hothers id' hne).symm

/-- Every step is one of each dial. -/
theorem stepsEach_step {e : Event} (h : Inv m) (hstep : step m e = .ok m') :
    ∃ acts, StepsEach m e m' acts := by
  cases e with
  | dialTcpAsync info now =>
    obtain rfl := Except.ok.inj hstep
    exact ⟨[], stepsEach_dialTcpAsync m info now⟩
  | onFlush now connects =>
    obtain rfl := Except.ok.inj hstep
    exact stepsEach_onFlush h now connects
  | onNetConnected =>
    obtain rfl := Except.ok.inj hstep
    exact ⟨[], stepsEach_of_none rfl rfl rfl (fun _ => rfl) nofun fun _ _ _ => .up⟩
  | onNetDisconnected =>
    obtain rfl := Except.ok.inj hstep
    exact ⟨[], stepsEach_of_none rfl rfl rfl (fun _ => rfl) nofun fun _ _ _ => .down⟩
  | onTcpConnect req res =>
    unfold step at hstep
    dsimp only at hstep
    split at hstep
    · next hany =>
      obtain rfl := Except.ok.inj hstep
      exact stepsEach_onTcpConnect h (mem_running_of_any hany) res
    · next hany =>
      obtain rfl := Except.ok.inj hstep
      refine ⟨[], stepsEach_of_none rfl rfl rfl (fun _ => rfl) nofun fun id d hd => ?_⟩
      refine .other fun hreq => hany ?_
      have hrun := h.running_iff.mpr ⟨d, hd, hreq⟩
      exact List.any_eq_true.mpr ⟨(req, id), hrun, by simp⟩

/-! ## The history of a dial -/

/-- The action is the callback of a connect. -/
def isCallback : DialAct → Bool
  | .callback _ => true
  | _ => false

/-- How often a dial has failed. -/
def fails (m : Dials) (id : Nat) : Nat := (actsOf id m.acts).count .fail

/-- How often the callback of a dial has been called. -/
def callbacks (m : Dials) (id : Nat) : Nat := (actsOf id m.acts).countP isCallback

/-- What the record says about a dial. -/
structure History (m : Dials) (id : Nat) : Prop where
  /-- The callback is called once, when the entry is erased. -/
  callbacks_eq : m.callbacks id = if id < m.dialed ∧ m.entryOf id = none then 1 else 0
  unknown : m.dialed ≤ id → actsOf id m.acts = []
  /-- Every failure has taken a retry and gone on to the next delay. -/
  pending : ∀ d, m.entryOf id = some d →
    d.nRetry = ClientNetManager.maxRetry - m.fails id ∧ 0 ≤ d.nRetry ∧
      d.durationMs = delayMs (m.fails id)
  /-- It is called with null after the last retry. -/
  null : .callback none ∈ actsOf id m.acts → (m.fails id : Int) = ClientNetManager.maxRetry

/-- A dial goes on, fails once more, or is resolved. -/
theorem EntryStep.outcome {alive : Bool} {e : Event} {acts : List DialAct} {d' : Option DialHelper}
    (h : EntryStep alive e d acts d') :
    (acts.count .fail = 0 ∧ acts.countP isCallback = 0 ∧
      ∃ d₁, d' = some d₁ ∧ d₁.nRetry = d.nRetry ∧ d₁.durationMs = d.durationMs) ∨
    (acts = [.fail] ∧ 0 < d.nRetry ∧ ∃ d₁, d' = some d₁ ∧ d₁.nRetry = d.nRetry - 1 ∧
      ∀ n, d.durationMs = delayMs n → d₁.durationMs = delayMs (n + 1)) ∨
    ∃ c, acts = [.callback c] ∧ d' = none ∧ (c = none → d.nRetry ≤ 0) := by
  cases h with
  | dial => exact .inl ⟨rfl, rfl, d, rfl, rfl, rfl⟩
  | up => exact .inl ⟨rfl, rfl, d, rfl, rfl, rfl⟩
  | down => exact .inl ⟨rfl, rfl, d, rfl, rfl, rfl⟩
  | wait => exact .inl ⟨rfl, rfl, d, rfl, rfl, rfl⟩
  | start => exact .inl ⟨rfl, rfl, _, rfl, rfl, rfl⟩
  | startFails _ hretry _ _ hfail =>
    exact .inr (.inl ⟨rfl, hretry, _, rfl, hfail.nRetry, hfail.durationMs⟩)
  | giveUp _ hretry => exact .inr (.inr ⟨none, rfl, rfl, fun _ => hretry⟩)
  | other => exact .inl ⟨rfl, rfl, d, rfl, rfl, rfl⟩
  | connectFails _ hretry _ hfail =>
    exact .inr (.inl ⟨rfl, hretry, _, rfl, hfail.nRetry, hfail.durationMs⟩)
  | connected => exact .inr (.inr ⟨some _, rfl, rfl, nofun⟩)

theorem not_mem_of_callbacks_eq_zero (h : m.callbacks id = 0) (c : Option FakeTcp) :
    .callback c ∉ actsOf id m.acts := fun hc =>
  List.countP_eq_zero.mp h _ hc rfl

section Step

variable {e : Event} {acts : List (Nat × DialAct)}

theorem StepsEach.fails_eq (h : StepsEach m e m' acts) (id : Nat) :
    m'.fails id = m.fails id + (actsOf id acts).count .fail := by
  unfold fails
  rw [h.acts_eq, actsOf_append, List.count_append]

theorem StepsEach.callbacks_eq (h : StepsEach m e m' acts) (id : Nat) :
    m'.callbacks id = m.callbacks id + (actsOf id acts).countP isCallback := by
  unfold callbacks
  rw [h.acts_eq, actsOf_append, List.countP_append]

/-- A dial that is pending before the step. -/
theorem history_pending (hI : Inv m) (h : StepsEach m e m' acts) (hH : History m id)
    (hd : m.entryOf id = some d) : History m' id := by
  have hlt : id < m'.dialed := (h.dialed_iff id).mpr (.inl (hI.entry_lt hd))
  have hnone : m.callbacks id = 0 := by
    rw [hH.callbacks_eq, if_neg]
    rintro ⟨-, hn⟩
    rw [hd] at hn
    cases hn
  have hfails := h.fails_eq id
  have hcalls := h.callbacks_eq id
  obtain ⟨hretry, hnonneg, hdur⟩ := hH.pending d hd
  have hunknown : m'.dialed ≤ id → actsOf id m'.acts = [] := fun hge => absurd hlt (Nat.not_lt.mpr hge)
  obtain ⟨hf, hc, d₁, hd', hr, ht⟩ | ⟨hacts, hpos, d₁, hd', hr, ht⟩ | ⟨c, hacts, hd', hnull⟩ :=
    (h.pending id d hd).outcome
  · rw [hf] at hfails
    rw [hc, hnone] at hcalls
    have hfails' : m'.fails id = m.fails id := hfails
    refine ⟨?_, hunknown, ?_, ?_⟩
    · rw [hcalls, hd', if_neg (by simp)]
    · intro d₂ hd₂
      obtain rfl := Option.some.inj (hd'.symm.trans hd₂)
      rw [hr, ht, hfails']
      exact ⟨hretry, hnonneg, hdur⟩
    · intro hmem
      exact absurd hmem (not_mem_of_callbacks_eq_zero hcalls none)
  · rw [hacts] at hfails hcalls
    have hfails' : m'.fails id = m.fails id + 1 := hfails
    have hcalls' : m'.callbacks id = 0 := hcalls.trans hnone
    refine ⟨?_, hunknown, ?_, ?_⟩
    · rw [hcalls', hd', if_neg (by simp)]
    · intro d₂ hd₂
      obtain rfl := Option.some.inj (hd'.symm.trans hd₂)
      rw [ht _ hdur, hfails']
      exact ⟨by omega, by omega, rfl⟩
    · intro hmem
      exact absurd hmem (not_mem_of_callbacks_eq_zero hcalls' none)
  · have hcalls' : m'.callbacks id = 1 := by
      rw [hcalls, hnone, hacts]
      rfl
    have hfails' : m'.fails id = m.fails id := by
      rw [hfails, hacts]
      rfl
    refine ⟨?_, hunknown, ?_, ?_⟩
    · rw [hcalls', if_pos ⟨hlt, hd'⟩]
    · intro d₂ hd₂
      cases hd'.symm.trans hd₂
    · intro hmem
      rw [h.acts_eq, actsOf_append, hacts] at hmem
      rcases List.mem_append.mp hmem with hmem | hmem
      · exact absurd hmem (not_mem_of_callbacks_eq_zero hnone none)
      · have hnull' : d.nRetry ≤ 0 := by
          obtain heq := List.mem_singleton.mp hmem
          exact hnull (DialAct.callback.inj heq).symm
        rw [hfails']
        omega

/-- A new dial has all its retries and the first delay. -/
theorem newEntry_eq_some (h : m.newEntry e id = some d) :
    id = m.dialed ∧ d.nRetry = ClientNetManager.maxRetry ∧ d.durationMs = 1000 := by
  unfold newEntry at h
  split at h
  · split at h
    · next hid =>
      obtain rfl := Option.some.inj h
      exact ⟨hid, rfl, rfl⟩
    · cases h
  · cases h

/-- A dial that begins with the step. -/
theorem history_new (h : StepsEach m e m' acts) (hH : History m id) (hnone : m.entryOf id = none)
    (hnew : m.newEntry e id = some d) : History m' id := by
  obtain ⟨rfl, hr, ht⟩ := newEntry_eq_some hnew
  obtain ⟨hacts, hentry⟩ := h.others m.dialed hnone
  have hempty : actsOf m.dialed m'.acts = [] := by
    rw [h.acts_eq, actsOf_append, hacts, List.append_nil]
    exact hH.unknown le_rfl
  have hfails : m'.fails m.dialed = 0 := by
    unfold fails
    rw [hempty]
    rfl
  have hlt : m.dialed < m'.dialed := (h.dialed_iff m.dialed).mpr (.inr (by rw [hnew]; simp))
  rw [hnew] at hentry
  refine ⟨?_, fun hge => absurd hlt (Nat.not_lt.mpr hge), ?_, ?_⟩
  · rw [hentry, if_neg (by simp)]
    unfold callbacks
    rw [hempty]
    rfl
  · intro d' hd'
    obtain rfl := Option.some.inj (hentry.symm.trans hd')
    rw [hr, ht, hfails]
    exact ⟨rfl, by decide, rfl⟩
  · intro hmem
    rw [hempty] at hmem
    cases hmem

/-- A dial that is over, or that has not begun. -/
theorem history_other (h : StepsEach m e m' acts) (hH : History m id) (hnone : m.entryOf id = none)
    (hnew : m.newEntry e id = none) : History m' id := by
  obtain ⟨hacts, hentry⟩ := h.others id hnone
  have hall : actsOf id m'.acts = actsOf id m.acts := by
    rw [h.acts_eq, actsOf_append, hacts, List.append_nil]
  have hfails : m'.fails id = m.fails id := by
    unfold fails
    rw [hall]
  have hcalls : m'.callbacks id = m.callbacks id := by
    unfold callbacks
    rw [hall]
  have hdialed := h.dialed_iff id
  rw [hnew] at hentry hdialed
  have hiff : id < m'.dialed ↔ id < m.dialed := by simpa using hdialed
  refine ⟨?_, ?_, ?_, ?_⟩
  · rw [hcalls, hH.callbacks_eq, hentry, hnone]
    simp only [hiff]
  · intro hge
    rw [hall]
    exact hH.unknown (Nat.not_lt.mp fun hlt => absurd (hiff.mpr hlt) (Nat.not_lt.mpr hge))
  · intro d hd
    cases hentry.symm.trans hd
  · intro hmem
    rw [hall] at hmem
    rw [hfails]
    exact hH.null hmem

/-- A step goes on with the history of each dial. -/
theorem history_step (hI : Inv m) (h : StepsEach m e m' acts) (hH : ∀ id, History m id) (id : Nat) :
    History m' id := by
  cases hd : m.entryOf id with
  | none =>
    cases hnew : m.newEntry e id with
    | none => exact history_other h (hH id) hd hnew
    | some d => exact history_new h (hH id) hd hnew
  | some d => exact history_pending hI h (hH id) hd

end Step

/-- There is no history at the start. -/
theorem history_start (id : Nat) : History {} id where
  callbacks_eq := by
    rw [if_neg (by simp)]
    rfl
  unknown _ := rfl
  pending d hd := by cases hd
  null h := by cases h

/-- A dial has a running request exactly if its entry has it, and no dial has two. -/
def OneRequest (m : Dials) : Prop :=
  (∀ r id, (r, id) ∈ m.running ↔ ∃ d, m.entryOf id = some d ∧ d.req = some r) ∧
    (m.running.map Prod.snd).Nodup

/-- In every run each step is one of every dial on its own, no dial has more than one request, and its
    callback has been called once if it is not pending any more and not at all before. -/
theorem dials_resolved_once (es : List Event) :
    Always step (fun m e m' => (∃ acts, StepsEach m e m' acts) ∧ OneRequest m ∧ OneRequest m' ∧
      ∀ id, History m' id) {} es := by
  refine always_of_eachStep (Q := fun _ _ => True) (J := fun m => Inv m ∧ ∀ id, History m id) ?_
    ⟨inv_start, history_start⟩ (eachStep_of_forall (fun _ _ _ => trivial) _)
  rintro m e m' ⟨hI, hH⟩ - hstep
  obtain ⟨acts, hacts⟩ := stepsEach_step hI hstep
  have hI' := inv_step hI hstep
  have hH' := history_step hI hacts hH
  exact ⟨⟨⟨acts, hacts⟩, ⟨fun r id => hI.running_iff, hI.running_nodup⟩,
    ⟨fun r id => hI'.running_iff, hI'.running_nodup⟩, hH'⟩, hI', hH'⟩

end Dials

end Rsock
