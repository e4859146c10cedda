import Mathlib.Data.Fintype.Card
import Mathlib.Order.Interval.Finset.Nat
import Rsock.TimerService

/-!
# Proofs: the timers

`TimerService.Scheduled` is what an observer may expect: between two flushes it has one entry in
`mExpireMap` if it is registered, and none if it is not; a flush calls it once if it is due, and never
after it has been unregistered. An observer that was called in a flush waits in `aCopy` for its next
time. If another observer, called later in the same flush, unregisters it and registers it again, it
gets an entry of its own, and a second one from `aCopy`. `TimerService.scheduled_once` says that this is
all that can go wrong.
-/

namespace Rsock

open CMem TransSys

namespace TimerService

theorem same_ts {a b : UInt64} : StdMap.Same lessTs a b ↔ a = b := by
  have hrank : ∀ a b, lessTs a b ↔ a.toNat < b.toNat := fun _ _ => UInt64.lt_iff_toNat_lt
  rw [StdMap.same_iff_rank_eq hrank]
  exact UInt64.toNat_inj

/-! ## A free time -/

theorem not_free_of_probe {m : ExpireMap} {fuel : Nat} {ts : UInt64}
    (htaken : m.find? (probe m fuel ts) ≠ none) :
    ∀ i ≤ fuel, m.find? (ts + UInt64.ofNat i) ≠ none := by
  induction fuel generalizing ts with
  | zero =>
    intro i hi
    obtain rfl : i = 0 := Nat.le_zero.mp hi
    simpa [probe] using htaken
  | succ fuel ih =>
    rw [probe] at htaken
    by_cases hfree : (m.find? ts).isNone = true
    · rw [if_pos hfree] at htaken
      exact absurd (Option.isNone_iff_eq_none.mp hfree) htaken
    · rw [if_neg hfree] at htaken
      intro i hi
      cases i with
      | zero => simpa using hfree
      | succ i =>
        have hnext := ih htaken i (by omega)
        have hsum : ts + UInt64.ofNat (i + 1) = ts + 1 + UInt64.ofNat i := by
          rw [UInt64.ofNat_add, UInt64.add_comm (UInt64.ofNat i), UInt64.add_assoc]
          rfl
        rw [hsum]
        exact hnext

/-- The keys `start`, ..., `start + size` cannot all be taken. -/
theorem find?_nextExpireTs {m : ExpireMap} (hsize : m.size < 2 ^ 64) (start : UInt64) :
    m.find? (nextExpireTs m start) = none := by
  by_contra htaken
  have hall := not_free_of_probe htaken
  let keys := (List.range (m.size + 1)).map fun i => start + UInt64.ofNat i
  have hnodup : keys.Nodup := by
    refine (List.nodup_map_iff_inj_on List.nodup_range).mpr fun i hi j hj heq => ?_
    have hi' : i < 2 ^ 64 := by have := List.mem_range.mp hi; omega
    have hj' : j < 2 ^ 64 := by have := List.mem_range.mp hj; omega
    have hofNat := UInt64.add_right_inj start |>.mp heq
    have hnat := congrArg UInt64.toNat hofNat
    rwa [UInt64.toNat_ofNat_of_lt' hi', UInt64.toNat_ofNat_of_lt' hj'] at hnat
  have hsub : keys ⊆ m.entries.map Prod.fst := by
    intro k hk
    obtain ⟨i, hi, rfl⟩ := List.mem_map.mp hk
    have hi' : i ≤ m.size := Nat.le_of_lt_succ (List.mem_range.mp hi)
    obtain ⟨e, he⟩ := Option.ne_none_iff_exists'.mp (hall i hi')
    obtain ⟨hmem, hs⟩ := m.find?_eq_some_iff.mp he
    rw [← same_ts.mp hs]
    exact List.mem_map_of_mem hmem
  have hlen := (List.subperm_of_subset hnodup hsub).length_le
  simp only [keys, List.length_map, List.length_range] at hlen
  exact absurd hlen (by unfold StdMap.size; omega)

/-- The observers of a map, in the order of their times. -/
def values (m : ExpireMap) : List UInt64 := m.entries.map Prod.snd

theorem size_lt_of_nodup {m : ExpireMap} (hnodup : (values m).Nodup) (hnull : ∀ q ∈ values m, q ≠ 0) :
    m.size < 2 ^ 64 := by
  have hmap : ((values m).map UInt64.toNat).Nodup :=
    hnodup.map fun a b heq => UInt64.toNat_inj.mp heq
  have hsub : ((values m).map UInt64.toNat).toFinset ⊆ Finset.Ico 1 (2 ^ 64) := by
    intro n hn
    obtain ⟨q, hq, rfl⟩ := List.mem_map.mp (List.mem_toFinset.mp hn)
    have hpos : q.toNat ≠ 0 := fun h => hnull q hq (UInt64.toNat_inj.mp h)
    exact Finset.mem_Ico.mpr ⟨Nat.pos_of_ne_zero hpos, q.toNat_lt⟩
  have hcard := Finset.card_le_card hsub
  rw [List.toFinset_card_of_nodup hmap, Nat.card_Ico] at hcard
  have hlen : ((values m).map UInt64.toNat).length = m.size := by simp [values, StdMap.size]
  omega

theorem values_emplace {m : ExpireMap} {ts q : UInt64} (hfree : m.find? ts = none) :
    (values (m.emplace ts q)).Perm (q :: values m) :=
  (StdMap.entries_emplace_perm hfree q).map Prod.snd

theorem mem_values {m : ExpireMap} {q : UInt64} : q ∈ values m ↔ ∃ ts, (ts, q) ∈ m.entries := by
  unfold values
  rw [List.mem_map]
  constructor
  · rintro ⟨⟨ts, q'⟩, he, rfl⟩
    exact ⟨ts, he⟩
  · rintro ⟨ts, he⟩
    exact ⟨(ts, q), he, rfl⟩

/-! ## Registered and scheduled -/

variable {intervalMs : UInt64 → UInt64} {s : TimerService} {copied : List UInt64}
  {observer delay now : UInt64}

/-- Every registered observer has an entry in the map or is among those that wait for their next time,
    and only one of these; only registered observers have entries. -/
structure Sched (intervalMs : UInt64 → UInt64) (s : TimerService) (copied : List UInt64) : Prop where
  nodup : s.mObserver.Nodup
  valid : ∀ q ∈ s.mObserver, q ≠ 0 ∧ intervalMs q ≠ 0
  distinct : (values s.mExpireMap ++ copied).Nodup
  registered : ∀ q ∈ values s.mExpireMap, q ∈ s.mObserver
  covered : ∀ q ∈ s.mObserver, q ∈ values s.mExpireMap ∨ q ∈ copied

theorem Sched.values_nodup (hs : Sched intervalMs s copied) : (values s.mExpireMap).Nodup :=
  (List.nodup_append.mp hs.distinct).1

theorem Sched.size_lt (hs : Sched intervalMs s copied) : s.mExpireMap.size < 2 ^ 64 :=
  size_lt_of_nodup hs.values_nodup fun q hq => (hs.valid q (hs.registered q hq)).1

theorem Sched.perm (hs : Sched intervalMs s []) : (values s.mExpireMap).Perm s.mObserver := by
  refine (List.perm_ext_iff_of_nodup hs.values_nodup hs.nodup).mpr fun q => ?_
  refine ⟨hs.registered q, fun hq => ?_⟩
  simpa using hs.covered q hq

theorem Sched.of_perm {copied' : List UInt64} (hs : Sched intervalMs s copied)
    (hperm : copied.Perm copied') : Sched intervalMs s copied' := by
  refine ⟨hs.nodup, hs.valid, ?_, hs.registered, fun q hq => ?_⟩
  · exact (hperm.append_left _).nodup_iff.mp hs.distinct
  · exact (hs.covered q hq).imp id hperm.mem_iff.mp

/-- An observer with an entry has one only. -/
theorem Sched.eq_of_value (hs : Sched intervalMs s copied) {e e' : UInt64 × UInt64}
    (he : e ∈ s.mExpireMap.entries) (he' : e' ∈ s.mExpireMap.entries) (heq : e.2 = e'.2) : e = e' :=
  List.inj_on_of_nodup_map hs.values_nodup he he' heq

/-- What `RegisterObserver` does: nothing, or it adds an observer and an entry for it. -/
theorem registerObserver_cases (intervalMs : UInt64 → UInt64) (s : TimerService)
    (observer delay now : UInt64) :
    (s.registerObserver intervalMs observer delay now).1 = s ∨
    (observer ≠ 0 ∧ intervalMs observer ≠ 0 ∧ observer ∉ s.mObserver ∧
      (s.registerObserver intervalMs observer delay now).1 =
        { mObserver := s.mObserver ++ [observer]
          mExpireMap := s.mExpireMap.emplace (nextExpireTs s.mExpireMap (now + delay)) observer }) := by
  unfold registerObserver
  split
  · exact .inl rfl
  · next hnull =>
    split
    · exact .inl rfl
    · next hint =>
      split
      · exact .inl rfl
      · next hnew =>
        refine .inr ⟨hnull, hint, ?_, rfl⟩
        simpa [containsObserver] using hnew

theorem Sched.registerObserver (hs : Sched intervalMs s copied)
    (hagain : observer ∈ copied → observer ∈ s.mObserver) :
    Sched intervalMs (s.registerObserver intervalMs observer delay now).1 copied := by
  rcases registerObserver_cases intervalMs s observer delay now with
    heq | ⟨hnull, hint, hnew, heq⟩
  · rw [heq]
    exact hs
  · have hvals := values_emplace (q := observer) (find?_nextExpireTs hs.size_lt (now + delay))
    have hmem : ∀ q, q ∈ values (s.mExpireMap.emplace (nextExpireTs s.mExpireMap (now + delay)) observer) ↔
        q = observer ∨ q ∈ values s.mExpireMap := by
      intro q
      rw [hvals.mem_iff, List.mem_cons]
    rw [heq]
    refine ⟨?_, ?_, ?_, ?_, ?_⟩
    · exact List.nodup_append.mpr ⟨hs.nodup, List.nodup_singleton _, fun a ha b hb heq' => by
        rw [heq', List.mem_singleton.mp hb] at ha
        exact hnew ha⟩
    · intro q hq
      rcases List.mem_append.mp hq with hq | hq
      · exact hs.valid q hq
      · rw [List.mem_singleton.mp hq]
        exact ⟨hnull, hint⟩
    · refine ((hvals.append_right copied).nodup_iff).mpr (List.nodup_cons.mpr ⟨?_, hs.distinct⟩)
      intro hin
      rcases List.mem_append.mp hin with hin | hin
      · exact hnew (hs.registered _ hin)
      · exact hnew (hagain hin)
    · intro q hq
      rcases (hmem q).mp hq with rfl | hq
      · exact List.mem_append_right _ (List.mem_singleton_self q)
      · exact List.mem_append_left _ (hs.registered q hq)
    · intro q hq
      rcases List.mem_append.mp hq with hq | hq
      · exact (hs.covered q hq).imp (fun h => (hmem q).mpr (.inr h)) id
      · exact .inl ((hmem q).mpr (.inl (List.mem_singleton.mp hq)))

theorem mem_registerObserver {e : UInt64 × UInt64} (he : e ∈ s.mExpireMap.entries) :
    e ∈ (s.registerObserver intervalMs observer delay now).1.mExpireMap.entries := by
  rcases registerObserver_cases intervalMs s observer delay now with heq | ⟨-, -, -, heq⟩
  · rw [heq]
    exact he
  · rw [heq]
    exact StdMap.mem_emplace.mpr (.inl he)

theorem mObserver_unRegisterObserver (s : TimerService) (observer : UInt64) :
    (s.unRegisterObserver observer).1.mObserver = s.mObserver.erase observer := by
  unfold unRegisterObserver
  dsimp only
  split
  · rfl
  · next hnot =>
    have hnot' : observer ∉ s.mObserver := by simpa [containsObserver] using hnot
    exact (List.erase_of_not_mem hnot').symm

theorem mExpireMap_unRegisterObserver (s : TimerService) (observer : UInt64) :
    (s.unRegisterObserver observer).1.mExpireMap =
      match s.entryOf? observer with
      | some e => s.mExpireMap.erase e.1
      | none => s.mExpireMap := by
  unfold unRegisterObserver
  dsimp only
  split <;> rfl

/-- The entry of the observer is gone, the others are there. -/
theorem Sched.mem_unRegisterObserver (hs : Sched intervalMs s copied) (observer : UInt64)
    {e : UInt64 × UInt64} :
    e ∈ (s.unRegisterObserver observer).1.mExpireMap.entries ↔
      e ∈ s.mExpireMap.entries ∧ e.2 ≠ observer := by
  rw [mExpireMap_unRegisterObserver]
  cases hfind : s.entryOf? observer with
  | none =>
    have hnone := List.find?_eq_none.mp hfind
    refine ⟨fun he => ⟨he, fun heq => hnone e he (by simpa using heq)⟩, And.left⟩
  | some e₀ =>
    have hmem : e₀ ∈ s.mExpireMap.entries := List.mem_of_find?_eq_some hfind
    have hval : e₀.2 = observer := by simpa using List.find?_some hfind
    rw [StdMap.mem_erase, same_ts]
    refine and_congr_right fun he => not_congr ⟨fun heq => ?_, fun heq => ?_⟩
    · rw [s.mExpireMap.eq_of_same he hmem (same_ts.mpr heq), hval]
    · rw [hs.eq_of_value he hmem (heq.trans hval.symm)]

theorem Sched.unRegisterObserver (hs : Sched intervalMs s copied) (observer : UInt64) :
    Sched intervalMs (s.unRegisterObserver observer).1 copied := by
  have hmem : ∀ q, q ∈ values (s.unRegisterObserver observer).1.mExpireMap ↔
      q ∈ values s.mExpireMap ∧ q ≠ observer := by
    intro q
    rw [mem_values, mem_values]
    simp only [hs.mem_unRegisterObserver observer, exists_and_right]
  have hsub : (s.unRegisterObserver observer).1.mExpireMap.entries.Sublist s.mExpireMap.entries := by
    rw [mExpireMap_unRegisterObserver]
    cases s.entryOf? observer with
    | none => exact List.Sublist.refl _
    | some e => exact List.filter_sublist
  refine ⟨?_, ?_, ?_, ?_, ?_⟩
  · rw [mObserver_unRegisterObserver]
    exact hs.nodup.erase observer
  · rw [mObserver_unRegisterObserver]
    exact fun q hq => hs.valid q (List.mem_of_mem_erase hq)
  · exact hs.distinct.sublist ((hsub.map Prod.snd).append_right copied)
  · intro q hq
    rw [mObserver_unRegisterObserver]
    obtain ⟨hq, hne⟩ := (hmem q).mp hq
    exact (List.mem_erase_of_ne hne).mpr (hs.registered q hq)
  · intro q hq
    rw [mObserver_unRegisterObserver] at hq
    obtain ⟨hne, hq⟩ := (hs.nodup.mem_erase_iff).mp hq
    exact (hs.covered q hq).imp (fun h => (hmem q).mpr ⟨h, hne⟩) id

/-- The observer that has been called goes from the map to those that wait for their next time. -/
theorem Sched.returned (hs : Sched intervalMs s copied) {ts : UInt64}
    (he : (ts, observer) ∈ s.mExpireMap.entries) :
    Sched intervalMs { s with mExpireMap := s.mExpireMap.erase ts } (observer :: copied) := by
  have hfind : s.mExpireMap.find? ts = some (ts, observer) := StdMap.mem_iff_find?.mp he
  have hperm : (values s.mExpireMap).Perm (observer :: values (s.mExpireMap.erase ts)) :=
    (StdMap.entries_erase_perm hfind).map Prod.snd
  have hall : (values s.mExpireMap ++ copied).Perm
      (values (s.mExpireMap.erase ts) ++ observer :: copied) :=
    (hperm.append_right copied).trans List.perm_middle.symm
  refine ⟨hs.nodup, hs.valid, hall.nodup_iff.mp hs.distinct, ?_, ?_⟩
  · intro q hq
    exact hs.registered q (hperm.mem_iff.mpr (List.mem_cons_of_mem _ hq))
  · intro q hq
    have hq' := List.mem_append.mpr (hs.covered q hq)
    exact List.mem_append.mp (hall.mem_iff.mp hq')

/-- The second loop gives an entry to those that are still registered. -/
theorem values_rearm {mObserver l : List UInt64} {m : ExpireMap}
    (hvalid : ∀ q ∈ mObserver, q ≠ 0 ∧ intervalMs q ≠ 0) (hnull : ∀ q ∈ values m, q ≠ 0)
    (hdistinct : (values m ++ l).Nodup) :
    (values (l.foldl (rearmOne intervalMs mObserver now) m)).Perm
      (values m ++ l.filter (mObserver.contains ·)) := by
  induction l generalizing m with
  | nil => simp
  | cons q l ih =>
    have hrest : (values m ++ l).Nodup :=
      hdistinct.sublist (List.Sublist.append_left (List.sublist_cons_self q l) _)
    rw [List.foldl_cons]
    by_cases hq : mObserver.contains q = true
    · have hvq := hvalid q (List.contains_iff_mem.mp hq)
      have hpos : intervalMs q > 0 := UInt64.pos_iff_ne_zero.mpr hvq.2
      have hfree := find?_nextExpireTs
        (size_lt_of_nodup (List.nodup_append.mp hdistinct).1 hnull) (now + intervalMs q)
      have hvals := values_emplace (q := q) hfree
      have hone : rearmOne intervalMs mObserver now m q =
          m.emplace (nextExpireTs m (now + intervalMs q)) q := if_pos ⟨hq, hpos⟩
      rw [hone, List.filter_cons_of_pos hq]
      refine (ih ?_ ?_).trans ((hvals.append_right _).trans List.perm_middle.symm)
      · intro q' hq'
        rcases List.mem_cons.mp (hvals.mem_iff.mp hq') with rfl | hq'
        · exact hvq.1
        · exact hnull q' hq'
      · exact ((hvals.append_right l).trans List.perm_middle.symm).nodup_iff.mpr hdistinct
    · have hone : rearmOne intervalMs mObserver now m q = m := if_neg fun h => hq h.1
      rw [hone, List.filter_cons_of_neg hq]
      exact ih hnull hrest

theorem Sched.rearm {aCopy : ExpireMap} (hs : Sched intervalMs s (values aCopy)) (now : UInt64) :
    Sched intervalMs (s.rearm intervalMs aCopy now) [] := by
  have hvals : (values (s.rearm intervalMs aCopy now).mExpireMap).Perm
      (values s.mExpireMap ++ (values aCopy).filter (s.mObserver.contains ·)) :=
    values_rearm hs.valid (fun q hq => (hs.valid q (hs.registered q hq)).1) hs.distinct
  refine ⟨hs.nodup, hs.valid, ?_, ?_, ?_⟩
  · rw [List.append_nil]
    refine hvals.nodup_iff.mpr (hs.distinct.sublist ?_)
    exact List.Sublist.append_left List.filter_sublist _
  · intro q hq
    rcases List.mem_append.mp (hvals.mem_iff.mp hq) with hq | hq
    · exact hs.registered q hq
    · exact List.contains_iff_mem.mp (List.mem_filter.mp hq).2
  · intro q hq
    refine .inl (hvals.mem_iff.mpr (List.mem_append.mpr ?_))
    exact (hs.covered q hq).imp id fun h => List.mem_filter.mpr ⟨h, List.contains_iff_mem.mpr hq⟩

/-! ## One flush -/

/-- The observer that `onFlush` is calling. -/
def Phase.callee? : Phase → Option UInt64
  | .calling _ observer => some observer
  | _ => none

namespace Flush

variable {s s' : Flush}

/-- The observers that are due and have been registered all along have been called, or stand ahead. -/
def Ahead (s : Flush) (ahead : UInt64 → Prop) : Prop :=
  ∀ q ∈ s.due, q ∈ s.called ∨ ∃ ts, (ts, q) ∈ s.service.mExpireMap.entries ∧ ahead ts ∧ ts ≤ s.start

/-- What holds in each phase. -/
def PhaseInv (s : Flush) : Prop :=
  match s.phase with
  | .idle => values s.aCopy = []
  | .calling it observer => ∃ ts, it = some ts ∧ (ts, observer) ∈ s.service.mExpireMap.entries ∧
      (∀ e ∈ s.aCopy.entries, e.1 < ts) ∧ s.called.Perm (observer :: values s.aCopy) ∧
      Ahead s (ts < ·)
  | .rearm => s.called.Perm (values s.aCopy) ∧ ∀ q ∈ s.due, q ∈ s.called

/-- What the timer and its observers keep. -/
structure Inv (intervalMs : UInt64 → UInt64) (s : Flush) : Prop where
  sched : Sched intervalMs s.service (values s.aCopy)
  start_le : s.start ≤ s.clock
  phase : PhaseInv s

/-- The first entry ahead is the earliest of them. -/
theorem find?_ahead {m : ExpireMap} {ahead : UInt64 → Prop} [DecidablePred ahead]
    {e e' : UInt64 × UInt64} (hfind : m.entries.find? (fun e => ahead e.1) = some e)
    (he' : e' ∈ m.entries) (ha : ahead e'.1) : e = e' ∨ e.1 < e'.1 := by
  obtain ⟨-, before, after, hentries, hbefore⟩ := List.find?_eq_some_iff_append.mp hfind
  have hsorted := m.sorted
  rw [hentries] at he' hsorted
  rcases List.mem_append.mp he' with hin | hin
  · exact absurd ha (by simpa using hbefore e' hin)
  · rcases List.mem_cons.mp hin with rfl | hin
    · exact .inl rfl
    · have hcons := (List.pairwise_append.mp hsorted).2.1
      exact .inr ((List.pairwise_cons.mp hcons).1 e' hin)

/-- The head of the first loop: the next observer is called, or none of those that are due is left. -/
theorem inv_visit (ahead : UInt64 → Prop) [DecidablePred ahead] {now : UInt64}
    (hsched : Sched intervalMs s.service (values s.aCopy)) (hstart : s.start ≤ now)
    (hclock : s.clock = now) (hcopy : ∀ e ∈ s.aCopy.entries, ∀ ts, ahead ts → e.1 < ts)
    (hcalled : s.called.Perm (values s.aCopy)) (hahead : Ahead s ahead) :
    Inv intervalMs (s.visit (s.service.mExpireMap.entries.find? fun e => ahead e.1) now) := by
  cases hfind : s.service.mExpireMap.entries.find? (fun e => ahead e.1) with
  | none =>
    have hnone := List.find?_eq_none.mp hfind
    refine ⟨hsched, hclock ▸ hstart, hcalled, fun q hq => ?_⟩
    rcases hahead q hq with hc | ⟨ts, he, ha, -⟩
    · exact hc
    · exact absurd ha (by simpa using hnone (ts, q) he)
  | some e =>
    obtain ⟨ts, observer⟩ := e
    have hmem : (ts, observer) ∈ s.service.mExpireMap.entries := List.mem_of_find?_eq_some hfind
    have hts : ahead ts := by simpa using List.find?_some hfind
    unfold visit
    dsimp only
    by_cases hnow : now ≥ ts
    · rw [if_pos hnow]
      refine ⟨hsched, hclock ▸ hstart, ts, rfl, hmem, fun e he => hcopy e he ts hts, ?_, ?_⟩
      · exact (List.perm_append_singleton observer s.called).trans (hcalled.cons observer)
      · intro q hq
        rcases hahead q hq with hc | ⟨ts', he, ha, hle⟩
        · exact .inl (List.mem_append_left _ hc)
        · rcases find?_ahead hfind he ha with heq | hlt
          · obtain ⟨-, rfl⟩ := Prod.mk.inj heq
            exact .inl (List.mem_append_right _ (List.mem_singleton_self observer))
          · exact .inr ⟨ts', he, hlt, hle⟩
    · rw [if_neg hnow]
      refine ⟨hsched, hclock ▸ hstart, hcalled, fun q hq => ?_⟩
      rcases hahead q hq with hc | ⟨ts', he, ha, hle⟩
      · exact hc
      · -- an entry ahead that was due at the start is due now
        have hfirst : ts.toNat ≤ ts'.toNat := by
          rcases find?_ahead hfind he ha with heq | hlt
          · exact Nat.le_of_eq (congrArg UInt64.toNat (Prod.mk.inj heq).1)
          · exact Nat.le_of_lt hlt
        have hle' : ts'.toNat ≤ s.start.toNat := hle
        have hstart' : s.start.toNat ≤ now.toNat := hstart
        exact absurd (show ts.toNat ≤ now.toNat by omega) hnow

/-! ## Whole runs -/

/-- The clock does not go back, and an observer does not unregister itself while it is called. -/
def Allowed (s : Flush) : Event → Prop
  | .registerObserver _ _ now => s.clock ≤ now
  | .unRegisterObserver observer => s.phase.callee? ≠ some observer
  | .onFlush now => s.clock ≤ now
  | .returned now => s.clock ≤ now
  | .rearm now => s.clock ≤ now

instance (s : Flush) : DecidablePred (Allowed s)
  | .registerObserver _ _ now => inferInstanceAs (Decidable (s.clock ≤ now))
  | .unRegisterObserver observer => inferInstanceAs (Decidable (s.phase.callee? ≠ some observer))
  | .onFlush now => inferInstanceAs (Decidable (s.clock ≤ now))
  | .returned now => inferInstanceAs (Decidable (s.clock ≤ now))
  | .rearm now => inferInstanceAs (Decidable (s.clock ≤ now))

/-- No observer that this flush has called, and that has been unregistered since, is registered. -/
def NotAgain (s : Flush) : Event → Prop
  | .registerObserver observer _ _ => observer ∈ values s.aCopy → observer ∈ s.service.mObserver
  | _ => True

instance (s : Flush) : DecidablePred (NotAgain s)
  | .registerObserver observer _ _ =>
    inferInstanceAs (Decidable (observer ∈ values s.aCopy → observer ∈ s.service.mObserver))
  | .unRegisterObserver _ => .isTrue trivial
  | .onFlush _ => .isTrue trivial
  | .returned _ => .isTrue trivial
  | .rearm _ => .isTrue trivial

/-- Between two flushes the map holds the registered observers, each once; only a registered observer
    is called; and a flush that ends has called every observer that was due when it began, and has been
    registered since, exactly once. -/
structure Scheduled (s : Flush) (e : Event) (s' : Flush) : Prop where
  once : s'.phase = .idle →
    (values s'.service.mExpireMap).Perm s'.service.mObserver ∧ s'.service.mObserver.Nodup
  registered : ∀ it observer, s'.phase = .calling it observer → observer ∈ s'.service.mObserver
  all_called : (∃ now, e = .rearm now) → s.phase = .rearm → ∀ q ∈ s.due, s.called.count q = 1

theorem Inv.scheduled (hs : Inv intervalMs s) (hs' : Inv intervalMs s') (e : Event) :
    Scheduled s e s' := by
  refine ⟨fun hidle => ?_, fun it observer hcall => ?_, fun _ hrearm q hq => ?_⟩
  · obtain ⟨hsched, -, hphase⟩ := hs'
    rw [PhaseInv, hidle] at hphase
    rw [hphase] at hsched
    exact ⟨hsched.perm, hsched.nodup⟩
  · obtain ⟨hsched, -, hphase⟩ := hs'
    rw [PhaseInv, hcall] at hphase
    obtain ⟨ts, -, he, -⟩ := hphase
    exact hsched.registered observer (mem_values.mpr ⟨ts, he⟩)
  · obtain ⟨hsched, -, hphase⟩ := hs
    rw [PhaseInv, hrearm] at hphase
    obtain ⟨hperm, hdue⟩ := hphase
    have hnodup : s.called.Nodup := hperm.nodup_iff.mpr (List.nodup_append.mp hsched.distinct).2.1
    exact List.count_eq_one_of_mem hnodup (hdue q hq)

theorem inv_registerObserver {observer delay now : UInt64} (hs : Inv intervalMs s)
    (hclock : s.clock ≤ now) (hagain : observer ∈ values s.aCopy → observer ∈ s.service.mObserver) :
    Inv intervalMs { s with
      service := (s.service.registerObserver intervalMs observer delay now).1, clock := now } := by
  obtain ⟨hsched, hstart, hphase⟩ := hs
  refine ⟨hsched.registerObserver hagain, UInt64.le_trans hstart hclock, ?_⟩
  unfold PhaseInv at hphase ⊢
  dsimp only
  cases hp : s.phase with
  | idle =>
    rw [hp] at hphase
    exact hphase
  | rearm =>
    rw [hp] at hphase
    exact hphase
  | calling it called =>
    rw [hp] at hphase
    obtain ⟨ts, hit, hmem, hcopy, hperm, hahead⟩ := hphase
    refine ⟨ts, hit, mem_registerObserver hmem, hcopy, hperm, fun q hq => ?_⟩
    refine (hahead q hq).imp id ?_
    rintro ⟨ts', he, hlt, hle⟩
    exact ⟨ts', mem_registerObserver he, hlt, hle⟩

/-- The iterator of `onFlush` stays valid when another observer is unregistered. -/
theorem iterator_valid {ts called observer : UInt64}
    (hmem : (ts, called) ∈ s.service.mExpireMap.entries) (hne : called ≠ observer) :
    (some ts).filter (fun ts => (s.service.entryOf? observer).map Prod.fst ≠ some ts) = some ts := by
  refine Option.filter_eq_some_iff.mpr ⟨rfl, decide_eq_true ?_⟩
  cases hfind : s.service.entryOf? observer with
  | none => simp
  | some e =>
    have hval : e.2 = observer := by simpa using List.find?_some hfind
    intro heq
    have hts : e.1 = ts := Option.some.inj heq
    have hsame := s.service.mExpireMap.eq_of_same (List.mem_of_find?_eq_some hfind) hmem
      (same_ts.mpr hts)
    rw [hsame] at hval
    exact hne hval

theorem inv_unRegisterObserver {observer : UInt64} (hs : Inv intervalMs s)
    (hself : s.phase.callee? ≠ some observer)
    (hr : s.step intervalMs (.unRegisterObserver observer) = .ok s') : Inv intervalMs s' := by
  unfold step at hr
  dsimp only at hr
  split at hr
  swap
  · obtain rfl := Except.ok.inj hr
    exact hs
  obtain ⟨hsched, hstart, hphase⟩ := hs
  obtain rfl := Except.ok.inj hr
  refine ⟨hsched.unRegisterObserver observer, hstart, ?_⟩
  unfold PhaseInv at hphase ⊢
  dsimp only
  cases hp : s.phase with
  | idle =>
    rw [hp] at hphase
    exact hphase
  | rearm =>
    rw [hp] at hphase
    exact ⟨hphase.1, fun q hq => hphase.2 q (List.mem_filter.mp hq).1⟩
  | calling it called =>
    rw [hp] at hphase
    obtain ⟨ts, rfl, hmem, hcopy, hperm, hahead⟩ := hphase
    have hne : called ≠ observer := by
      rintro rfl
      exact hself (by rw [hp]; rfl)
    refine ⟨ts, iterator_valid hmem hne, ?_, hcopy, hperm, fun q hq => ?_⟩
    · exact (hsched.mem_unRegisterObserver observer).mpr ⟨hmem, hne⟩
    · obtain ⟨hq, hqne⟩ := List.mem_filter.mp hq
      refine (hahead q hq).imp id ?_
      rintro ⟨ts', he, hlt, hle⟩
      exact ⟨ts', (hsched.mem_unRegisterObserver observer).mpr ⟨he, by simpa using hqne⟩, hlt, hle⟩

theorem inv_onFlush {now : UInt64} (hs : Inv intervalMs s)
    (hr : s.step intervalMs (.onFlush now) = .ok s') : Inv intervalMs s' := by
  unfold step at hr
  cases hp : s.phase with
  | idle =>
    rw [hp] at hr
    obtain rfl := Except.ok.inj hr
    obtain ⟨hsched, -, hphase⟩ := hs
    rw [PhaseInv, hp] at hphase
    have hhead : s.service.mExpireMap.entries.head? =
        s.service.mExpireMap.entries.find? fun _ => decide True := by
      cases s.service.mExpireMap.entries <;> rfl
    dsimp only
    rw [hhead]
    refine inv_visit (fun _ => True) hsched (UInt64.le_refl _) rfl ?_ ?_ ?_
    · intro e he
      have hin : e.2 ∈ values s.aCopy := List.mem_map_of_mem he
      rw [hphase] at hin
      cases hin
    · rw [show values _ = [] from hphase]
    · intro q hq
      obtain ⟨⟨ts, q'⟩, he, rfl⟩ := List.mem_map.mp hq
      obtain ⟨he, hle⟩ := List.mem_filter.mp he
      exact .inr ⟨ts, he, trivial, by simpa using hle⟩
  | calling it observer =>
    rw [hp] at hr
    obtain rfl := Except.ok.inj hr
    exact hs
  | rearm =>
    rw [hp] at hr
    obtain rfl := Except.ok.inj hr
    exact hs

theorem inv_returned {now : UInt64} (hs : Inv intervalMs s) (hclock : s.clock ≤ now)
    (hr : s.step intervalMs (.returned now) = .ok s') : Inv intervalMs s' := by
  unfold step at hr
  cases hp : s.phase with
  | idle =>
    rw [hp] at hr
    obtain rfl := Except.ok.inj hr
    exact hs
  | rearm =>
    rw [hp] at hr
    obtain rfl := Except.ok.inj hr
    exact hs
  | calling it observer =>
    obtain ⟨hsched, hstart, hphase⟩ := hs
    rw [PhaseInv, hp] at hphase
    obtain ⟨ts, rfl, hmem, hcopy, hperm, hahead⟩ := hphase
    rw [hp] at hr
    obtain rfl := Except.ok.inj hr
    have hfree : s.aCopy.find? ts = none := by
      refine s.aCopy.find?_eq_none_iff.mpr fun e he hsame => ?_
      have hlt := hcopy e he
      rw [same_ts.mp hsame] at hlt
      exact UInt64.lt_irrefl ts hlt
    have hvals : (values (s.aCopy.emplace ts observer)).Perm (observer :: values s.aCopy) :=
      values_emplace hfree
    refine inv_visit (lessTs ts) ?_ (UInt64.le_trans hstart hclock) rfl ?_ (hperm.trans hvals.symm) ?_
    · exact (hsched.returned hmem).of_perm hvals.symm
    · intro e he ts' hlt
      rcases StdMap.mem_emplace.mp he with he | ⟨-, rfl⟩
      · exact UInt64.lt_trans (hcopy e he) hlt
      · exact hlt
    · intro q hq
      refine (hahead q hq).imp id ?_
      rintro ⟨ts', he, hlt, hle⟩
      refine ⟨ts', StdMap.mem_erase.mpr ⟨he, fun hsame => ?_⟩, hlt, hle⟩
      have heq : ts' = ts := same_ts.mp hsame
      rw [heq] at hlt
      exact UInt64.lt_irrefl ts hlt

theorem inv_rearm {now : UInt64} (hs : Inv intervalMs s) (hclock : s.clock ≤ now)
    (hr : s.step intervalMs (.rearm now) = .ok s') : Inv intervalMs s' := by
  unfold step at hr
  cases hp : s.phase with
  | idle =>
    rw [hp] at hr
    obtain rfl := Except.ok.inj hr
    exact hs
  | calling it observer =>
    rw [hp] at hr
    obtain rfl := Except.ok.inj hr
    exact hs
  | rearm =>
    rw [hp] at hr
    obtain rfl := Except.ok.inj hr
    obtain ⟨hsched, hstart, -⟩ := hs
    exact ⟨hsched.rearm now, UInt64.le_trans hstart hclock, rfl⟩

theorem Inv.step_ok (hs : Inv intervalMs s) (e : Event) : ∃ s', s.step intervalMs e = .ok s' := by
  cases e with
  | registerObserver observer delay now =>
    by_cases ho : s.open? = true
    · exact ⟨_, if_pos ho⟩
    · exact ⟨_, if_neg ho⟩
  | unRegisterObserver observer =>
    by_cases ho : s.open? = true
    · exact ⟨_, if_pos ho⟩
    · exact ⟨_, if_neg ho⟩
  | onFlush now =>
    unfold step
    cases s.phase <;> exact ⟨_, rfl⟩
  | returned now =>
    obtain ⟨-, -, hphase⟩ := hs
    unfold PhaseInv at hphase
    unfold step
    cases hp : s.phase with
    | idle => exact ⟨_, rfl⟩
    | rearm => exact ⟨_, rfl⟩
    | calling it observer =>
      rw [hp] at hphase
      obtain ⟨ts, rfl, -⟩ := hphase
      exact ⟨_, rfl⟩
  | rearm now =>
    unfold step
    cases s.phase <;> exact ⟨_, rfl⟩

theorem Inv.step (hs : Inv intervalMs s) {e : Event} (ha : Allowed s e) (hn : NotAgain s e)
    (hr : s.step intervalMs e = .ok s') : Inv intervalMs s' := by
  cases e with
  | registerObserver observer delay now =>
    by_cases ho : s.open? = true
    · obtain rfl := Except.ok.inj ((if_pos ho).symm.trans hr)
      exact inv_registerObserver hs ha hn
    · obtain rfl := Except.ok.inj ((if_neg ho).symm.trans hr)
      exact hs
  | unRegisterObserver observer => exact inv_unRegisterObserver hs ha hr
  | onFlush now => exact inv_onFlush hs hr
  | returned now => exact inv_returned hs ha hr
  | rearm now => exact inv_rearm hs ha hr

theorem inv_init (intervalMs : UInt64 → UInt64) : Inv intervalMs {} := by
  refine ⟨⟨List.nodup_nil, ?_, List.nodup_nil, ?_, ?_⟩, UInt64.le_refl _, rfl⟩
  · intro q hq
    cases hq
  · intro q hq
    cases hq
  · intro q hq
    cases hq

/-- In a run in which the clock does not go back, no observer unregisters itself while it is called, and
    no observer that a flush has called is registered again in the same flush, every observer is
    scheduled once, and called as it was scheduled. -/
theorem scheduled_once (intervalMs : UInt64 → UInt64) (es : List Event)
    (hes : EachStep (step intervalMs) (fun s e => Allowed s e ∧ NotAgain s e) {} es) :
    Safe (step intervalMs) Scheduled {} es := by
  refine safe_of_eachStep (J := Inv intervalMs) ?_ (inv_init intervalMs) hes
  rintro s e hs ⟨ha, hn⟩
  obtain ⟨s', hs'⟩ := hs.step_ok e
  have hinv := hs.step ha hn hs'
  exact ⟨s', hs', hs.scheduled hinv e, hinv⟩

/-- Two observers are due; the first one to be called unregisters the other and registers it again. -/
def reregisteredBefore : List Event :=
  [.registerObserver 1 1000 1000, .registerObserver 2 1000 1000, .onFlush 2500,
    .unRegisterObserver 2, .registerObserver 2 0 2500, .returned 2500, .returned 2600, .rearm 2600]

theorem scheduled_once_reregistered :
    EachStep (step fun _ => 1000) (fun s e => Allowed s e ∧ NotAgain s e) {} reregisteredBefore ∧
    Safe (step fun _ => 1000) Scheduled {} reregisteredBefore := by
  have hes : EachStep (step fun _ => 1000) (fun s e => Allowed s e ∧ NotAgain s e) {}
      reregisteredBefore := by decide +kernel
  exact ⟨hes, scheduled_once (fun _ => 1000) reregisteredBefore hes⟩

/-- The second one unregisters and registers the first, which has been called. -/
def reregisteredAfter : List Event :=
  [.registerObserver 1 1000 1000, .registerObserver 2 1000 1000, .onFlush 2500, .returned 2500,
    .unRegisterObserver 1, .registerObserver 1 1000 2500, .returned 2500, .rearm 2500]

/-- The first observer has two entries then. It is unregistered, loses one of them, and is called. -/
theorem called_after_unRegister :
    EachStep (step fun _ => 1000) Allowed {}
      (reregisteredAfter ++ [.unRegisterObserver 1, .onFlush 4000]) ∧
    (∃ s, run (step fun _ => 1000) {} reregisteredAfter = .ok s ∧ s.phase = .idle ∧
      values s.service.mExpireMap = [1, 1, 2]) ∧
    (∃ s, run (step fun _ => 1000) {} (reregisteredAfter ++ [.unRegisterObserver 1, .onFlush 4000]) =
      .ok s ∧ s.phase.callee? = some 1 ∧ s.service.mObserver = [2]) ∧
    ¬ Safe (step fun _ => 1000) Scheduled {} reregisteredAfter := by
  obtain ⟨s, hs, heq⟩ := exists_of_toOption (x := run (step fun _ => 1000) {} reregisteredAfter)
    (f := fun s => (s.phase, values s.service.mExpireMap, s.service.mObserver))
    (b := (.idle, [1, 1, 2], [2, 1])) (by decide +kernel)
  obtain ⟨s', hs', heq'⟩ := exists_of_toOption
    (x := run (step fun _ => 1000) {} (reregisteredAfter ++ [.unRegisterObserver 1, .onFlush 4000]))
    (f := fun s => (s.phase.callee?, s.service.mObserver)) (b := (some 1, [2])) (by decide +kernel)
  obtain ⟨hidle, heq⟩ := Prod.mk.inj heq
  obtain ⟨hvals, hobs⟩ := Prod.mk.inj heq
  obtain ⟨hcall, hobs'⟩ := Prod.mk.inj heq'
  refine ⟨by decide +kernel, ⟨s, hs, hidle, hvals⟩, ⟨s', hs', hcall, hobs'⟩, fun hsafe => ?_⟩
  obtain ⟨s₁, s₂, hrun, hlast⟩ := Safe.last reregisteredAfter.dropLast hsafe
  obtain rfl : s = s₂ := Except.ok.inj (hs.symm.trans hrun)
  have hperm := (hlast.once hidle).1.length_eq
  rw [hvals, hobs] at hperm
  cases hperm

end Flush

end TimerService

end Rsock
