import Mathlib.Data.List.Sort
import Mathlib.Data.List.Perm.Basic

/-!
# Queues sorted by deadline

A queue is a list of entries. `key` gives the deadline of an entry, `name` what tells it from the
others: two entries with one name are the same entry for the program, whatever their deadlines.

* `insert key a l`: the entry stands before the first one with a later deadline.
* `Ordered key name l`: the deadlines do not go down, and no name occurs twice. `insert` of a new
  name, `filter` and `eraseP` keep it (`Ordered.insert`, `Ordered.filter`), and to erase the first
  entry of a name is to filter it out (`Ordered.eraseP_eq_filter`).
-/

namespace DeadlineQueue

variable {α ι κ : Type} [LE ι] [LT ι] [Std.IsLinearOrder ι] [Std.LawfulOrderLT ι] [DecidableLT ι]

/-- Before the first that is due later. -/
def insert (key : α → ι) (a : α) (l : List α) : List α :=
  l.orderedInsert (fun a b => key a < key b) a

/-- Who is due first comes first, and no name is there twice. -/
structure Ordered (key : α → ι) (name : α → κ) (l : List α) : Prop where
  sorted : l.Pairwise fun a b => key a ≤ key b
  distinct : l.Pairwise fun a b => name a ≠ name b

variable {key : α → ι} {name : α → κ} {a : α} {l l' : List α}

omit [LE ι] [Std.IsLinearOrder ι] [Std.LawfulOrderLT ι] in
theorem perm_insert (key : α → ι) (a : α) (l : List α) : (insert key a l).Perm (a :: l) :=
  List.perm_orderedInsert ..

/-- The queue stays in the order of its deadlines. -/
theorem sorted_insert (h : l.Pairwise fun a b => key a ≤ key b) :
    (insert key a l).Pairwise fun a b => key a ≤ key b := by
  induction l with
  | nil => exact List.pairwise_singleton ..
  | cons b l ih =>
    obtain ⟨hb, hl⟩ := List.pairwise_cons.mp h
    unfold insert
    by_cases hlt : key a < key b
    · rw [List.orderedInsert_cons_of_le _ l hlt]
      refine List.pairwise_cons.mpr ⟨?_, h⟩
      have hab : key a ≤ key b := Std.le_of_lt hlt
      intro c hc
      rcases List.mem_cons.mp hc with rfl | hc
      · exact hab
      · exact Std.le_trans hab (hb c hc)
    · rw [List.orderedInsert_of_not_le _ l hlt]
      refine List.pairwise_cons.mpr ⟨?_, ih hl⟩
      intro c hc
      rcases (List.mem_orderedInsert _).mp hc with rfl | hc
      · exact Std.not_lt.mp hlt
      · exact hb c hc

omit [LT ι] [Std.IsLinearOrder ι] [Std.LawfulOrderLT ι] [DecidableLT ι] in
theorem ordered_nil : Ordered key name [] := ⟨.nil, .nil⟩

/-- Who has a new name may be put in. -/
theorem Ordered.insert (h : Ordered key name l) (hnew : ∀ b ∈ l, name b ≠ name a) :
    Ordered key name (insert key a l) := by
  refine ⟨sorted_insert h.sorted, ?_⟩
  have hcons : (a :: l).Pairwise fun a b => name a ≠ name b :=
    List.pairwise_cons.mpr ⟨fun b hb => (hnew b hb).symm, h.distinct⟩
  exact hcons.perm (perm_insert key a l).symm fun hne => hne.symm

omit [LT ι] [Std.LawfulOrderLT ι] [DecidableLT ι] in
/-- The first entry has the earliest deadline. -/
theorem Ordered.head_le (h : Ordered key name l) (hl : l = a :: l') {b : α} (hb : b ∈ l) :
    key a ≤ key b := by
  subst hl
  rcases List.mem_cons.mp hb with rfl | hb
  · exact Std.le_refl _
  · exact (List.pairwise_cons.mp h.sorted).1 b hb

section Removal

omit [LT ι] [Std.IsLinearOrder ι] [Std.LawfulOrderLT ι] [DecidableLT ι]

theorem Ordered.sublist (h : Ordered key name l) (hs : l'.Sublist l) : Ordered key name l' :=
  ⟨h.sorted.sublist hs, h.distinct.sublist hs⟩

/-- Anyone may be taken out. -/
theorem Ordered.filter (h : Ordered key name l) (p : α → Bool) : Ordered key name (l.filter p) :=
  h.sublist List.filter_sublist

/-- To erase the first entry of a name is to filter the name out. -/
theorem Ordered.eraseP_eq_filter (h : Ordered key name l) {p : α → Bool} {k : κ}
    (hp : ∀ b, p b = true ↔ name b = k) : l.eraseP p = l.filter (fun b => !p b) := by
  induction l with
  | nil => rfl
  | cons b l ih =>
    obtain ⟨hb, -⟩ := List.pairwise_cons.mp h.distinct
    by_cases hpb : p b = true
    · have hrest : l.filter (fun b => !p b) = l := by
        refine List.filter_eq_self.mpr fun c hc => ?_
        have hne : ¬ p c = true := fun hpc => hb c hc (((hp b).mp hpb).trans ((hp c).mp hpc).symm)
        simpa using hne
      rw [List.eraseP_cons_of_pos hpb, List.filter_cons_of_neg (by simp [hpb]), hrest]
    · have ht : Ordered key name l := h.sublist (List.sublist_cons_self b l)
      rw [List.eraseP_cons_of_neg hpb, List.filter_cons_of_pos (by simp [hpb]), ih ht]

end Removal

end DeadlineQueue
