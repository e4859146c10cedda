import Rsock.ServerNetManager

/-!
# Proofs: `TcpCmpFn`

The comparator of `TcpAckPool::mInfoPool` and `ServerNetManager::mPool` orders the 4-tuples
lexicographically. Both maps then tell infos apart by their 4-tuple and by nothing else.
-/

namespace Rsock

namespace TcpCmpFn

variable {a b c : TcpInfo}

/-- All four of `src`, `sp`, `dst` and `dp` are equal. -/
def SameTuple (a b : TcpInfo) : Prop := a.src = b.src ∧ a.sp = b.sp ∧ a.dst = b.dst ∧ a.dp = b.dp

theorem tuple_eq_iff : a.tuple = b.tuple ↔ SameTuple a b := by
  simp only [ConnInfo.tuple, SameTuple, Prod.mk.injEq]

theorem equals_iff : equals a b = true ↔ SameTuple a b := by
  simp only [equals, SameTuple, Bool.and_eq_true, beq_iff_eq, and_assoc]

theorem rank_eq_iff : rank a = rank b ↔ SameTuple a b := by
  rw [← StdMap.same_iff_rank_eq lt_iff_rank, same_iff, tuple_eq_iff]

/-! ## The order -/

theorem cmp_eq_decide (a b : TcpInfo) : cmp a b = decide (rank a < rank b) := by
  rw [Bool.eq_iff_iff, decide_eq_true_iff]
  exact lt_iff_rank a b

theorem equals_eq_decide (a b : TcpInfo) : equals a b = decide (rank a = rank b) := by
  rw [Bool.eq_iff_iff, decide_eq_true_iff, equals_iff, rank_eq_iff]

theorem cmp_irrefl (a : TcpInfo) : cmp a a = false := by
  rw [cmp_eq_decide, decide_eq_false_iff_not]
  exact lt_irrefl _

theorem cmp_trans (hab : cmp a b = true) (hbc : cmp b c = true) : cmp a c = true := by
  rw [cmp_eq_decide, decide_eq_true_iff] at hab hbc ⊢
  exact hab.trans hbc

theorem count_cmp (a b : TcpInfo) : [cmp a b, cmp b a, equals a b].count true = 1 := by
  rw [cmp_eq_decide, cmp_eq_decide, equals_eq_decide]
  rcases lt_trichotomy (rank a) (rank b) with hlt | heq | hgt
  · simp [hlt, hlt.not_gt, hlt.ne]
  · simp [heq]
  · simp [hgt, hgt.not_gt, hgt.ne']

theorem cmp_congr {a' b' : TcpInfo} (ha : SameTuple a' a) (hb : SameTuple b' b) :
    cmp a' b' = cmp a b ∧ equals a' b' = equals a b := by
  rw [cmp_eq_decide, cmp_eq_decide, equals_eq_decide, equals_eq_decide, rank_eq_iff.mpr ha,
    rank_eq_iff.mpr hb]
  exact ⟨rfl, rfl⟩

/-! ## The maps -/

section Maps

variable {υ : Type} [Nonempty υ] (m : StdMap TcpInfo υ Lt)

theorem oneKey_iff_sameTuple : m.OneKey a b ↔ SameTuple a b := by
  rw [m.oneKey_iff, same_iff, tuple_eq_iff]

theorem apart_iff_not_sameTuple : m.Apart a b ↔ ¬ SameTuple a b := by
  rw [m.apart_iff, same_iff, tuple_eq_iff]

end Maps

/-- `TcpCmpFn` is a strict total order on 4-tuples, whatever the other fields contain. Each pool takes
    two infos for the same key exactly when their 4-tuples are equal, and keeps them apart
    otherwise. -/
theorem strict_total_order_on_tuples (a b c : TcpInfo) :
    cmp a a = false ∧
    (cmp a b = true → cmp b c = true → cmp a c = true) ∧
    [cmp a b, cmp b a, equals a b].count true = 1 ∧
    (∀ a' b' : TcpInfo, SameTuple a' a → SameTuple b' b →
      cmp a' b' = cmp a b ∧ equals a' b' = equals a b) ∧
    (∀ p : TcpAckPool, (p.mInfoPool.OneKey a b ↔ SameTuple a b) ∧
      (p.mInfoPool.Apart a b ↔ ¬ SameTuple a b)) ∧
    (∀ s : ServerNetManager, (s.mPool.OneKey a b ↔ SameTuple a b) ∧
      (s.mPool.Apart a b ↔ ¬ SameTuple a b)) := by
  have hhelper : Nonempty ConnHelper := ⟨⟨none, 0⟩⟩
  refine ⟨cmp_irrefl a, cmp_trans, count_cmp a b, ?_, ?_, ?_⟩
  · intro a' b' ha hb
    exact cmp_congr ha hb
  · intro p
    exact ⟨oneKey_iff_sameTuple _, apart_iff_not_sameTuple _⟩
  · intro s
    exact ⟨oneKey_iff_sameTuple _, apart_iff_not_sameTuple _⟩

end TcpCmpFn

end Rsock
