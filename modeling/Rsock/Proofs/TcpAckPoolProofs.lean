import Rsock.TcpAckPool
import Rsock.Lib.Run

/-!
# Proofs: `TcpAckPool`

The pool against the store it is meant to be. Adding a record for a 4-tuple that already has one
keeps the old key, and with it the old `seq` and `ack`; all other operations do what the store does.
-/

namespace Rsock

open CMem

namespace TcpAckPool

variable {p : TcpAckPool}

/-- The record the pool holds for the 4-tuple of an info. -/
def record (p : TcpAckPool) (info : TcpInfo) : Option AckRecord :=
  (p.mInfoPool.find? info).map fun e => ⟨e.1.seq, e.1.ack, e.2⟩

/-! ## One spec for each operation -/

theorem record_congr {i j : TcpInfo} (h : i.tuple = j.tuple) : p.record i = p.record j := by
  rw [record, record, p.mInfoPool.find?_same (TcpCmpFn.same_iff.2 h)]

theorem record_removeInfo (i j : TcpInfo) :
    (p.removeInfo i).1.record j = if i.tuple = j.tuple then none else p.record j := by
  unfold removeInfo record
  by_cases h : i.tuple = j.tuple
  · rw [if_pos h, StdMap.find?_erase_of_same _ (TcpCmpFn.same_iff.2 h)]
    rfl
  · rw [if_neg h, StdMap.find?_erase_of_not_same (TcpCmpFn.same_iff.not.2 h)]

/-- A valid add keeps the `seq` and `ack` of a record that is there already. -/
theorem record_addInfoFromPeer {a : Add}
    (h : ¬ (a.infoFromPeer.sp = 0 ∨ a.infoFromPeer.dp = 0 ∨ a.flags &&& thSyn = 0)) (j : TcpInfo) :
    (p.addInfoFromPeer a).1.record j =
      if a.infoFromPeer.tuple = j.tuple then
        some ⟨((p.record a.infoFromPeer).map AckRecord.seq).getD a.infoFromPeer.seq,
          ((p.record a.infoFromPeer).map AckRecord.ack).getD a.infoFromPeer.ack,
          a.now + p.expireIntervalMs⟩
      else p.record j := by
  unfold addInfoFromPeer
  rw [if_neg h]
  by_cases hj : a.infoFromPeer.tuple = j.tuple
  · rw [if_pos hj, ← record_congr hj]
    unfold record
    rw [StdMap.find?_assign_self]
    cases p.mInfoPool.find? a.infoFromPeer <;> rfl
  · rw [if_neg hj]
    unfold record
    rw [StdMap.find?_assign_of_not_same (TcpCmpFn.same_iff.not.2 hj)]

theorem record_onFlush (timestamp : UInt64) (j : TcpInfo) :
    (p.onFlush timestamp).record j = (p.record j).filter fun r => timestamp < r.expireMs := by
  unfold onFlush record
  rw [StdMap.find?_eraseIf]
  cases p.mInfoPool.find? j with
  | none => rfl
  | some e =>
    by_cases h : e.2 ≤ timestamp
    · simp [Option.filter, h, UInt64.not_lt.2 h]
    · simp [Option.filter, h, UInt64.not_le.1 h]

theorem getInfoIfExists_eq (info : TcpInfo) : p.getInfoIfExists info =
    (p.record info).map fun r => { info with seq := r.seq, ack := r.ack } := by
  rw [getInfoIfExists, record, Option.map_map]
  rfl

theorem transfer_eq (info : TcpInfo) :
    (p.transfer info).2 = (p.record info).map (fun r => { info with seq := r.seq, ack := r.ack }) ∧
    ∀ j, (p.transfer info).1.record j = if info.tuple = j.tuple then none else p.record j := by
  unfold transfer
  rw [getInfoIfExists_eq]
  cases h : p.record info with
  | none =>
    refine ⟨rfl, ?_⟩
    intro j
    by_cases hj : info.tuple = j.tuple
    · rw [if_pos hj, ← record_congr hj]
      exact h
    · rw [if_neg hj]
      rfl
  | some r =>
    refine ⟨rfl, ?_⟩
    intro j
    exact record_removeInfo _ j

/-! ## The pool and the store -/

/-- The pool holds the records of the store. -/
def Refines (p : TcpAckPool) (st : AckStore) : Prop := ∀ info : TcpInfo, p.record info = st info.tuple

/-- A valid add comes when no record for its 4-tuple is stored, or one with the same `seq` and
    `ack`. -/
def Fresh (p : TcpAckPool) : Event → Prop
  | .addInfoFromPeer a =>
    ¬ (a.infoFromPeer.sp = 0 ∨ a.infoFromPeer.dp = 0 ∨ a.flags &&& thSyn = 0) →
      ∀ r ∈ p.record a.infoFromPeer, r.seq = a.infoFromPeer.seq ∧ r.ack = a.infoFromPeer.ack
  | _ => True

/-- What is right about a critical section: it answers as the store does and leaves the pool with
    the records of the store. -/
def StepRight (p : TcpAckPool) (st : AckStore) (e : Event) : Prop :=
  (p.step e).2 = (st.step p.expireIntervalMs e).2 ∧
    (p.step e).1.Refines (st.step p.expireIntervalMs e).1

section Step

variable {st : AckStore} (h : p.Refines st)

include h

theorem removeInfo_right (info : TcpInfo) : StepRight p st (.removeInfo info) := by
  constructor
  · show Answer.removed (if (p.mInfoPool.find? info).isSome then 1 else 0) = .removed _
    rw [← h info, record, Option.isSome_map]
  · intro j
    show (p.removeInfo info).1.record j = Function.update st info.tuple none j.tuple
    rw [record_removeInfo, Function.update_apply, h j]
    simp only [eq_comm]

theorem transfer_right (info : TcpInfo) : StepRight p st (.transfer info) := by
  obtain ⟨hans, hrec⟩ := p.transfer_eq info
  constructor
  · show Answer.transferred (p.transfer info).2 = .transferred _
    rw [hans, h info]
  · intro j
    show (p.transfer info).1.record j = Function.update st info.tuple none j.tuple
    rw [hrec, Function.update_apply, h j]
    simp only [eq_comm]

theorem onFlush_right (timestamp : UInt64) : StepRight p st (.onFlush timestamp) := by
  refine ⟨rfl, ?_⟩
  intro j
  show (p.onFlush timestamp).record j = (st j.tuple).filter _
  rw [record_onFlush, h j]

theorem addInfoFromPeer_right_iff (a : Add) :
    StepRight p st (.addInfoFromPeer a) ↔ p.Fresh (.addInfoFromPeer a) := by
  by_cases hbad : a.infoFromPeer.sp = 0 ∨ a.infoFromPeer.dp = 0 ∨ a.flags &&& thSyn = 0
  · have hright : StepRight p st (.addInfoFromPeer a) := by
      simp only [StepRight, step, AckStore.step, addInfoFromPeer, if_pos hbad]
      exact ⟨trivial, h⟩
    have hfresh : p.Fresh (.addInfoFromPeer a) := by
      intro hv
      exact absurd hbad hv
    exact iff_of_true hright hfresh
  · have hans : (p.step (.addInfoFromPeer a)).2 =
        (st.step p.expireIntervalMs (.addInfoFromPeer a)).2 := by
      simp only [step, AckStore.step, addInfoFromPeer, if_neg hbad]
    have hrec (j : TcpInfo) := record_addInfoFromPeer (p := p) hbad j
    have hst : (st.step p.expireIntervalMs (.addInfoFromPeer a)).1 =
        Function.update st a.infoFromPeer.tuple
          (some ⟨a.infoFromPeer.seq, a.infoFromPeer.ack, a.now + p.expireIntervalMs⟩) := by
      simp only [AckStore.step, if_neg hbad]
    rw [StepRight, hst]
    constructor
    · rintro ⟨-, hall⟩ - r hr
      have hstore := hall a.infoFromPeer
      rw [Function.update_self] at hstore
      have heq := (hrec a.infoFromPeer).symm.trans hstore
      rw [if_pos rfl, Option.mem_def.1 hr] at heq
      simpa using heq
    · intro hfresh
      refine ⟨hans, ?_⟩
      intro j
      refine (hrec j).trans ?_
      rw [Function.update_apply, h j]
      by_cases hj : a.infoFromPeer.tuple = j.tuple
      · rw [if_pos hj, if_pos hj.symm]
        cases hr : p.record a.infoFromPeer with
        | none => rfl
        | some r =>
          obtain ⟨hs, ha⟩ := hfresh hbad r hr
          simp [hs, ha]
      · rw [if_neg hj, if_neg (Ne.symm hj)]

theorem stepRight_iff (e : Event) : StepRight p st e ↔ p.Fresh e := by
  cases e with
  | addInfoFromPeer a => exact addInfoFromPeer_right_iff h a
  | removeInfo info => exact iff_of_true (removeInfo_right h info) trivial
  | transfer info => exact iff_of_true (transfer_right h info) trivial
  | onFlush timestamp => exact iff_of_true (onFlush_right h timestamp) trivial

end Step

/-! ## Runs -/

/-- A critical section on the pool and on the store beside it. -/
def stepBoth (s : TcpAckPool × AckStore) (e : Event) : Except Fault (TcpAckPool × AckStore) :=
  .ok ((s.1.step e).1, (s.2.step s.1.expireIntervalMs e).1)

/-- What is right about one critical section of a run. -/
def RunRight (s : TcpAckPool × AckStore) (e : Event) (s' : TcpAckPool × AckStore) : Prop :=
  (s.1.step e).2 = (s.2.step s.1.expireIntervalMs e).2 ∧ s'.1.Refines s'.2

theorem safe_iff_fresh (es : List Event) {s : TcpAckPool × AckStore} (h : s.1.Refines s.2) :
    TransSys.Safe stepBoth RunRight s es ↔ TransSys.EachStep stepBoth (fun s => s.1.Fresh) s es := by
  refine TransSys.safe_iff_eachStep (J := fun s => s.1.Refines s.2) (A := fun _ => True) ?_ ?_ es s
    h (fun _ _ => trivial)
  · intro s e s' _ _ _ hright
    exact hright.2
  · intro s e hs _
    rw [← stepRight_iff hs e]
    exact exists_ok_and_iff rfl

/-- From the empty pool, over every sequence of critical sections: the pool answers as the store in
    which the last write wins, and holds its records, exactly when no add meets a stored record with
    another `seq` or `ack`. -/
theorem lastWriteWins_iff (interval : UInt64) (es : List Event) :
    TransSys.Safe stepBoth RunRight ({ expireIntervalMs := interval }, fun _ => none) es ↔
      TransSys.EachStep stepBoth (fun s => s.1.Fresh)
        ({ expireIntervalMs := interval }, fun _ => none) es :=
  safe_iff_fresh es fun _ => rfl

/-- A handshake of the 4-tuple `(1, 2, 3, 4)`, recorded with the given `seq`. -/
def handshake (seq : UInt32) : Event :=
  .addInfoFromPeer ⟨{ src := 1, sp := 2, dst := 3, dp := 4, seq := seq }, thSyn ||| thAck, 0⟩

/-- A second handshake of the same 4-tuple before the first record is taken is lost. -/
theorem not_lastWriteWins :
    ¬ TransSys.Safe stepBoth RunRight ({ expireIntervalMs := 1000 }, fun _ => none)
      [handshake 1, handshake 2, .transfer { src := 1, sp := 2, dst := 3, dp := 4 }] := by
  rintro ⟨s₁, h₁, -, s₂, h₂, -, s₃, -, ⟨hans, -⟩, -⟩
  obtain rfl := Except.ok.inj h₁
  obtain rfl := Except.ok.inj h₂
  exact absurd hans (by decide)

/-! ## `Wait2TransferInfo` as a sequence of critical sections -/

/-- The pool after the events. -/
def stepAll (p : TcpAckPool) (es : List Event) : TcpAckPool :=
  es.foldl (fun p e => (p.step e).1) p

/-- The critical sections of one call of `Wait2TransferInfo` and of the adds that run while it
    waits. -/
def waitEvents (p : TcpAckPool) (info : TcpInfo) (wakes : List (List Add)) (late : List Add) :
    List Event :=
  match (p.transfer info).2 with
  | some _ => [.transfer info]
  | none =>
    match wakes with
    | [] => .transfer info :: late.map .addInfoFromPeer
    | adds :: wakes =>
      .transfer info :: (adds.map .addInfoFromPeer ++
        (p.addAll adds).waitEvents info wakes late)

theorem stepAll_append (p : TcpAckPool) (es es' : List Event) :
    p.stepAll (es ++ es') = (p.stepAll es).stepAll es' :=
  List.foldl_append

theorem stepAll_adds (p : TcpAckPool) (adds : List Add) :
    p.stepAll (adds.map .addInfoFromPeer) = p.addAll adds := by
  rw [stepAll, addAll, List.foldl_map]
  rfl

theorem transfer_none {info : TcpInfo} (h : (p.transfer info).2 = none) :
    p.transfer info = (p, none) := by
  unfold transfer at h ⊢
  split
  · simp_all
  · rfl

/-- The pool after `Wait2TransferInfo` is the pool after its critical sections. -/
theorem wait2TransferInfo_eq_stepAll (p : TcpAckPool) (info : TcpInfo) (wakes : List (List Add))
    (late : List Add) :
    (p.wait2TransferInfo info wakes late).1 = p.stepAll (p.waitEvents info wakes late) := by
  induction wakes generalizing p with
  | nil =>
    rw [wait2TransferInfo, waitEvents]
    cases h : (p.transfer info).2 with
    | none =>
      rw [transfer_none h]
      show p.addAll late = ((p.transfer info).1).stepAll (late.map .addInfoFromPeer)
      rw [transfer_none h, stepAll_adds]
    | some i =>
      obtain ⟨p', hp'⟩ : ∃ p', p.transfer info = (p', some i) := ⟨_, Prod.ext rfl h⟩
      simp only [hp', stepAll, List.foldl_cons, List.foldl_nil, step]
  | cons adds wakes ih =>
    rw [wait2TransferInfo, waitEvents]
    cases h : (p.transfer info).2 with
    | none =>
      rw [transfer_none h]
      show ((p.addAll adds).wait2TransferInfo info wakes late).1 =
        ((p.transfer info).1).stepAll (adds.map .addInfoFromPeer ++ _)
      rw [transfer_none h, ih, stepAll_append, stepAll_adds]
    | some i =>
      obtain ⟨p', hp'⟩ : ∃ p', p.transfer info = (p', some i) := ⟨_, Prod.ext rfl h⟩
      simp only [hp', stepAll, List.foldl_cons, List.foldl_nil, step]

end TcpAckPool

end Rsock
