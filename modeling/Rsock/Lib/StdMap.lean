import Mathlib.Data.List.Sort
import Mathlib.Order.Defs.Unbundled

/-!
# `std::map` with a user-supplied comparator

A map is the list of its entries in iteration order, strictly increasing for the comparator `lt`.
Two keys are the same key when neither is less than the other; the stored key and the key it is
looked up with may then still be different values, which is what makes `emplace` and assignment
through `operator[]` keep the *old* key.

`mem_emplace`, `mem_assign`, `mem_erase` and `mem_eraseIf` say which entries an operation leaves;
`find?_eq_some_iff` turns a lookup into a membership. Everything else follows from these. A map is
determined by its lookups (`ext_find?`), and equivalence is all that matters about keys: equivalent
ones are one key for every operation (`OneKey`), others do not touch each other (`Apart`).
-/

/-- A `std::map<κ, υ, lt>`. -/
structure StdMap (κ υ : Type) (lt : κ → κ → Prop) where
  entries : List (κ × υ)
  /-- The keys increase strictly. -/
  sorted : entries.Pairwise fun a b => lt a.1 b.1

namespace StdMap

variable {κ υ : Type} {lt : κ → κ → Prop}

/-- The two keys are equivalent for the comparator. -/
def Same (lt : κ → κ → Prop) (a b : κ) : Prop := ¬ lt a b ∧ ¬ lt b a

instance [DecidableRel lt] (a b : κ) : Decidable (Same lt a b) :=
  inferInstanceAs (Decidable (_ ∧ _))

theorem Same.symm {a b : κ} (h : Same lt a b) : Same lt b a := ⟨h.2, h.1⟩

section Order

variable [IsStrictWeakOrder κ lt]

theorem same_refl (a : κ) : Same lt a a := ⟨Std.Irrefl.irrefl a, Std.Irrefl.irrefl a⟩

theorem Same.trans {a b c : κ} (hab : Same lt a b) (hbc : Same lt b c) : Same lt a c :=
  IsStrictWeakOrder.incomp_trans a b c hab hbc

theorem Same.congr_left {a b c : κ} (h : Same lt a b) : Same lt a c ↔ Same lt b c :=
  ⟨h.symm.trans, h.trans⟩

end Order

/-! ### Comparators that compare a rank in a linear order -/

section Rank

variable {α : Type} [LinearOrder α] {f : κ → α}

/-- Keys that are compared by a rank are in a strict weak order. -/
theorem isStrictWeakOrder_of_rank (h : ∀ a b, lt a b ↔ f a < f b) : IsStrictWeakOrder κ lt where
  irrefl a := by rw [h]; exact lt_irrefl _
  trans a b c := by rw [h, h, h]; exact lt_trans
  incomp_trans a b c := by
    simp only [h, not_lt]
    rintro ⟨h1, h2⟩ ⟨h3, h4⟩
    exact ⟨h3.trans h1, h2.trans h4⟩

/-- They are the same to the map if they have the same rank. -/
theorem same_iff_rank_eq (h : ∀ a b, lt a b ↔ f a < f b) {a b : κ} : Same lt a b ↔ f a = f b := by
  rw [Same, h, h, not_lt, not_lt]
  constructor
  · rintro ⟨hba, hab⟩
    exact le_antisymm hab hba
  · intro heq
    exact ⟨heq.ge, heq.le⟩

end Rank

def empty : StdMap κ υ lt := ⟨[], List.Pairwise.nil⟩

instance : Inhabited (StdMap κ υ lt) := ⟨empty⟩

theorem eq_empty_of_entries {m : StdMap κ υ lt} (h : m.entries = []) : m = empty := by
  cases m
  cases h
  rfl

def size (m : StdMap κ υ lt) : Nat := m.entries.length

/-- No two entries have the same key. -/
theorem eq_of_same (m : StdMap κ υ lt) {e e' : κ × υ} (he : e ∈ m.entries) (he' : e' ∈ m.entries)
    (h : Same lt e.1 e'.1) : e = e' := by
  obtain ⟨l, hl⟩ := m
  induction l with
  | nil => cases he
  | cons a l ih =>
    obtain ⟨ha, hl'⟩ := List.pairwise_cons.mp hl
    rcases List.mem_cons.mp he with rfl | hel
    · rcases List.mem_cons.mp he' with rfl | hel'
      · rfl
      · exact absurd (ha e' hel') h.1
    · rcases List.mem_cons.mp he' with rfl | hel'
      · exact absurd (ha e hel) h.2
      · exact ih hl' hel hel'

theorem nodup_keys [IsStrictWeakOrder κ lt] (m : StdMap κ υ lt) : (m.entries.map Prod.fst).Nodup := by
  refine List.pairwise_map.mpr (m.sorted.imp ?_)
  intro a b hlt heq
  rw [heq] at hlt
  exact Std.Irrefl.irrefl _ hlt

theorem nodup_entries [IsStrictWeakOrder κ lt] (m : StdMap κ υ lt) : m.entries.Nodup := by
  refine m.sorted.imp ?_
  rintro a b hab rfl
  exact Std.Irrefl.irrefl _ hab

/-- Erasing every entry `p` holds of, in one pass over the map. -/
def eraseIf (m : StdMap κ υ lt) (p : κ × υ → Bool) : StdMap κ υ lt :=
  ⟨m.entries.filter fun e => !p e, m.sorted.filter _⟩

theorem mem_eraseIf {m : StdMap κ υ lt} {p : κ × υ → Bool} {e : κ × υ} :
    e ∈ (m.eraseIf p).entries ↔ e ∈ m.entries ∧ p e = false := by
  simp [eraseIf]

variable [DecidableRel lt]

/-- `find(k)`: the entry whose key is equivalent to `k`. -/
def find? (m : StdMap κ υ lt) (k : κ) : Option (κ × υ) := m.entries.find? fun e => Same lt e.1 k

theorem find?_eq_none_iff (m : StdMap κ υ lt) {k : κ} :
    m.find? k = none ↔ ∀ e ∈ m.entries, ¬ Same lt e.1 k := by
  simp [find?]

def get? (m : StdMap κ υ lt) (k : κ) : Option υ := (m.find? k).map Prod.snd

def erase (m : StdMap κ υ lt) (k : κ) : StdMap κ υ lt := m.eraseIf fun e => Same lt e.1 k

/-- The entries with a new one put where its key belongs. -/
abbrev insertEntry (lt : κ → κ → Prop) [DecidableRel lt] (e : κ × υ) (l : List (κ × υ)) :
    List (κ × υ) :=
  l.orderedInsert (fun a b => lt a.1 b.1) e

section Order

variable [IsStrictWeakOrder κ lt]

/-- What is found is an entry with the key. -/
theorem find?_eq_some_iff (m : StdMap κ υ lt) {k : κ} {e : κ × υ} :
    m.find? k = some e ↔ e ∈ m.entries ∧ Same lt e.1 k := by
  constructor
  · intro h
    have hs := List.find?_some h
    exact ⟨List.mem_of_find?_eq_some h, by simpa using hs⟩
  · rintro ⟨hm, hs⟩
    have hsome : (m.find? k).isSome := List.find?_isSome.mpr ⟨e, hm, by simpa using hs⟩
    obtain ⟨e', he'⟩ := Option.isSome_iff_exists.mp hsome
    have hs' : Same lt e'.1 k := by simpa using List.find?_some he'
    rw [he', m.eq_of_same (List.mem_of_find?_eq_some he') hm (hs'.trans hs.symm)]

theorem find?_congr {m m' : StdMap κ υ lt} {k k' : κ}
    (h : ∀ e, (e ∈ m.entries ∧ Same lt e.1 k) ↔ (e ∈ m'.entries ∧ Same lt e.1 k')) :
    m.find? k = m'.find? k' := by
  apply Option.ext
  intro e
  rw [find?_eq_some_iff, find?_eq_some_iff, h]

/-- Keys that are the same find the same entry. -/
theorem find?_same (m : StdMap κ υ lt) {k k' : κ} (h : Same lt k k') : m.find? k = m.find? k' := by
  apply find?_congr
  intro e
  constructor
  · rintro ⟨he, hs⟩
    exact ⟨he, hs.trans h⟩
  · rintro ⟨he, hs⟩
    exact ⟨he, hs.trans h.symm⟩

/-- An entry is one that is found under its own key. -/
theorem mem_iff_find? {m : StdMap κ υ lt} {e : κ × υ} : e ∈ m.entries ↔ m.find? e.1 = some e := by
  rw [find?_eq_some_iff]
  exact (and_iff_left (same_refl e.1)).symm

/-- A map is determined by its lookups. -/
theorem ext_find? {m m' : StdMap κ υ lt} (h : ∀ k, m.find? k = m'.find? k) : m = m' := by
  have hperm : m.entries.Perm m'.entries := by
    refine (List.perm_ext_iff_of_nodup m.nodup_entries m'.nodup_entries).mpr ?_
    intro e
    rw [mem_iff_find?, h, mem_iff_find?]
  have hentries : m.entries = m'.entries := by
    refine hperm.eq_of_pairwise ?_ m.sorted m'.sorted
    intro a b _ _ hab hba
    exact absurd (IsTrans.trans _ _ _ hab hba) (Std.Irrefl.irrefl a.1)
  cases m
  cases m'
  cases hentries
  rfl

theorem sorted_insertEntry {e : κ × υ} {l : List (κ × υ)}
    (hl : l.Pairwise fun a b => lt a.1 b.1) (hn : ∀ e' ∈ l, ¬ Same lt e'.1 e.1) :
    (insertEntry lt e l).Pairwise fun a b => lt a.1 b.1 := by
  induction l with
  | nil => simp [insertEntry]
  | cons a l ih =>
    obtain ⟨ha, hl'⟩ := List.pairwise_cons.mp hl
    by_cases hlt : lt e.1 a.1
    · rw [insertEntry, List.orderedInsert_cons, if_pos hlt]
      refine List.pairwise_cons.mpr ⟨?_, hl⟩
      intro b hb
      rcases List.mem_cons.mp hb with rfl | hb
      · exact hlt
      · exact IsTrans.trans _ _ _ hlt (ha b hb)
    · have hae : lt a.1 e.1 := by
        by_contra hc
        exact hn a (List.mem_cons_self ..) ⟨hc, hlt⟩
      have hn' : ∀ e' ∈ l, ¬ Same lt e'.1 e.1 := by
        intro e' he'
        exact hn e' (List.mem_cons_of_mem _ he')
      rw [insertEntry, List.orderedInsert_cons, if_neg hlt]
      refine List.pairwise_cons.mpr ⟨?_, ih hl' hn'⟩
      intro b hb
      rcases List.mem_orderedInsert _ |>.mp hb with rfl | hb
      · exact hae
      · exact ha b hb

/-- `emplace(k, v)` and `insert({k, v})`: an entry with an equivalent key stays as it is. -/
def emplace (m : StdMap κ υ lt) (k : κ) (v : υ) : StdMap κ υ lt :=
  if h : m.find? k = none then
    ⟨insertEntry lt (k, v) m.entries, sorted_insertEntry m.sorted (m.find?_eq_none_iff.mp h)⟩
  else m

/-- `m[k] = v`: an entry with an equivalent key keeps its key and gets the new value. -/
def assign (m : StdMap κ υ lt) (k : κ) (v : υ) : StdMap κ υ lt :=
  if h : m.find? k = none then
    ⟨insertEntry lt (k, v) m.entries, sorted_insertEntry m.sorted (m.find?_eq_none_iff.mp h)⟩
  else
    ⟨m.entries.map fun e => if Same lt e.1 k then (e.1, v) else e, by
      refine List.pairwise_map.mpr (m.sorted.imp fun {a b} hab => ?_)
      split_ifs <;> exact hab⟩

/-- `emplace` keeps what is there. -/
theorem emplace_of_find? {m : StdMap κ υ lt} {k : κ} {e : κ × υ} (h : m.find? k = some e) (v : υ) :
    m.emplace k v = m := by
  simp [emplace, h]

theorem entries_emplace_perm {m : StdMap κ υ lt} {k : κ} (h : m.find? k = none) (v : υ) :
    (m.emplace k v).entries.Perm ((k, v) :: m.entries) := by
  rw [emplace, dif_pos h]
  exact List.perm_orderedInsert _ _ _

/-- The entries after `emplace`: the old ones, and the new one if its key was free. -/
theorem mem_emplace {m : StdMap κ υ lt} {k : κ} {v : υ} {e : κ × υ} :
    e ∈ (m.emplace k v).entries ↔ e ∈ m.entries ∨ (m.find? k = none ∧ e = (k, v)) := by
  by_cases h : m.find? k = none
  · rw [(entries_emplace_perm h v).mem_iff, List.mem_cons]
    tauto
  · rw [emplace, dif_neg h]
    tauto

/-- The entries after an assignment. An old key stays, with the new value. -/
theorem mem_assign {m : StdMap κ υ lt} {k : κ} {v : υ} {e : κ × υ} :
    e ∈ (m.assign k v).entries ↔ (e ∈ m.entries ∧ ¬ Same lt e.1 k) ∨
      (∃ e₀, m.find? k = some e₀ ∧ e = (e₀.1, v)) ∨ (m.find? k = none ∧ e = (k, v)) := by
  by_cases h : m.find? k = none
  · have hp : (m.assign k v).entries.Perm ((k, v) :: m.entries) := by
      rw [assign, dif_pos h]
      exact List.perm_orderedInsert _ _ _
    rw [hp.mem_iff, List.mem_cons]
    have hn := m.find?_eq_none_iff.mp h
    constructor
    · rintro (rfl | he)
      · exact Or.inr (Or.inr ⟨h, rfl⟩)
      · exact Or.inl ⟨he, hn e he⟩
    · rintro (⟨he, -⟩ | ⟨e₀, he₀, -⟩ | ⟨-, rfl⟩)
      · exact Or.inr he
      · exact absurd (h.symm.trans he₀) (by simp)
      · exact Or.inl rfl
  · rw [assign, dif_neg h]
    simp only [List.mem_map]
    constructor
    · rintro ⟨a, ha, rfl⟩
      by_cases hs : Same lt a.1 k
      · exact Or.inr (Or.inl ⟨a, m.find?_eq_some_iff.mpr ⟨ha, hs⟩, by simp [hs]⟩)
      · exact Or.inl (by simp [hs, ha])
    · rintro (⟨he, hs⟩ | ⟨e₀, he₀, rfl⟩ | ⟨hn, -⟩)
      · exact ⟨e, he, by simp [hs]⟩
      · obtain ⟨hm, hs⟩ := m.find?_eq_some_iff.mp he₀
        exact ⟨e₀, hm, by simp [hs]⟩
      · exact absurd hn h

/-- What `emplace` leaves under the key. -/
theorem find?_emplace_self (m : StdMap κ υ lt) (k : κ) (v : υ) :
    (m.emplace k v).find? k = some ((m.find? k).getD (k, v)) := by
  rw [find?_eq_some_iff, mem_emplace]
  cases h : m.find? k with
  | none => simp [same_refl]
  | some e =>
    have hm := m.find?_eq_some_iff.mp h
    simp [hm.1, hm.2]

/-- Other keys are not concerned. -/
theorem find?_emplace_of_not_same {m : StdMap κ υ lt} {k k' : κ} (h : ¬ Same lt k k') (v : υ) :
    (m.emplace k v).find? k' = m.find? k' := by
  apply find?_congr
  intro e
  rw [mem_emplace]
  constructor
  · rintro ⟨he | ⟨-, rfl⟩, hs⟩
    · exact ⟨he, hs⟩
    · exact absurd hs h
  · rintro ⟨he, hs⟩
    exact ⟨Or.inl he, hs⟩

theorem mem_foldl_emplace {key : υ → κ} {l : List υ} {m : StdMap κ υ lt} {e : κ × υ}
    (hnew : ∀ v ∈ l, m.find? (key v) = none)
    (hne : l.Pairwise fun v w => ¬ Same lt (key v) (key w)) :
    e ∈ (l.foldl (fun m v => m.emplace (key v) v) m).entries ↔
      e ∈ m.entries ∨ ∃ v ∈ l, e = (key v, v) := by
  induction l generalizing m with
  | nil => simp
  | cons v l ih =>
    obtain ⟨hv, hl⟩ := List.pairwise_cons.mp hne
    have hfind : m.find? (key v) = none := hnew v List.mem_cons_self
    rw [List.foldl_cons, ih ?_ hl, mem_emplace]
    · simp only [hfind, true_and, List.mem_cons, exists_eq_or_imp, or_assoc]
    · intro w hw
      rw [find?_emplace_of_not_same (hv w hw)]
      exact hnew w (List.mem_cons_of_mem _ hw)

/-- What an assignment leaves under the key. -/
theorem find?_assign_self (m : StdMap κ υ lt) (k : κ) (v : υ) :
    (m.assign k v).find? k = some (((m.find? k).map Prod.fst).getD k, v) := by
  rw [find?_eq_some_iff, mem_assign]
  cases h : m.find? k with
  | none => simp [same_refl]
  | some e =>
    have hm := m.find?_eq_some_iff.mp h
    simp [hm.2]

theorem find?_assign_of_not_same {m : StdMap κ υ lt} {k k' : κ} (h : ¬ Same lt k k') (v : υ) :
    (m.assign k v).find? k' = m.find? k' := by
  apply find?_congr
  intro e
  rw [mem_assign]
  constructor
  · rintro ⟨⟨he, -⟩ | ⟨e₀, he₀, rfl⟩ | ⟨-, rfl⟩, hs⟩
    · exact ⟨he, hs⟩
    · have hk : Same lt e₀.1 k := (m.find?_eq_some_iff.mp he₀).2
      exact absurd (hk.symm.trans hs) h
    · exact absurd hs h
  · rintro ⟨he, hs⟩
    have hk : ¬ Same lt e.1 k := by
      intro hk
      exact h (hk.symm.trans hs)
    exact ⟨Or.inl ⟨he, hk⟩, hs⟩

/-- An entry that comes after all others is put at the end. -/
theorem insertEntry_last {l : List (κ × υ)} {e : κ × υ} (h : ∀ a ∈ l, lt a.1 e.1) :
    insertEntry lt e l = l ++ [e] := by
  induction l with
  | nil => rfl
  | cons a l ih =>
    have hlt : ¬ lt e.1 a.1 := by
      intro hea
      exact Std.Irrefl.irrefl _ (IsTrans.trans _ _ _ hea (h a List.mem_cons_self))
    have hl : ∀ b ∈ l, lt b.1 e.1 := by
      intro b hb
      exact h b (List.mem_cons_of_mem _ hb)
    rw [insertEntry, List.orderedInsert_cons, if_neg hlt, List.cons_append]
    exact congrArg (a :: ·) (ih hl)

/-- A key that is greater than all others goes to the end. -/
theorem entries_assign_last {m : StdMap κ υ lt} {k : κ} (h : ∀ e ∈ m.entries, lt e.1 k) (v : υ) :
    (m.assign k v).entries = m.entries ++ [(k, v)] := by
  have hnone : m.find? k = none := by
    rw [find?_eq_none_iff]
    intro e he hs
    exact hs.1 (h e he)
  rw [assign, dif_pos hnone]
  exact insertEntry_last h

end Order

/-! ## Erasing -/

/-- The entries after `erase`. -/
theorem mem_erase {m : StdMap κ υ lt} {k : κ} {e : κ × υ} :
    e ∈ (m.erase k).entries ↔ e ∈ m.entries ∧ ¬ Same lt e.1 k := by
  simp [erase, mem_eraseIf]

section Order

variable [IsStrictWeakOrder κ lt]

theorem find?_eraseIf (m : StdMap κ υ lt) (p : κ × υ → Bool) (k : κ) :
    (m.eraseIf p).find? k = (m.find? k).filter fun e => !p e := by
  apply Option.ext
  intro e
  rw [find?_eq_some_iff, mem_eraseIf, Option.filter_eq_some_iff, find?_eq_some_iff]
  simp only [Bool.not_eq_true']
  tauto

theorem find?_erase_of_same (m : StdMap κ υ lt) {k k' : κ} (h : Same lt k k') :
    (m.erase k).find? k' = none := by
  rw [find?_eq_none_iff]
  intro e he hs
  exact (mem_erase.mp he).2 (hs.trans h.symm)

theorem find?_erase_of_not_same {m : StdMap κ υ lt} {k k' : κ} (h : ¬ Same lt k k') :
    (m.erase k).find? k' = m.find? k' := by
  apply find?_congr
  intro e
  rw [mem_erase]
  constructor
  · rintro ⟨⟨he, -⟩, hs⟩
    exact ⟨he, hs⟩
  · rintro ⟨he, hs⟩
    have hk : ¬ Same lt e.1 k := by
      intro hk
      exact h (hk.symm.trans hs)
    exact ⟨⟨he, hk⟩, hs⟩

/-- `erase` takes one entry out. -/
theorem entries_erase_perm {m : StdMap κ υ lt} {k : κ} {e : κ × υ} (h : m.find? k = some e) :
    m.entries.Perm (e :: (m.erase k).entries) := by
  obtain ⟨he, hs⟩ := m.find?_eq_some_iff.mp h
  have hnot : e ∉ (m.erase k).entries := by
    intro hmem
    simp [erase, mem_eraseIf, hs] at hmem
  refine (List.perm_ext_iff_of_nodup m.nodup_entries ?_).mpr ?_
  · exact List.nodup_cons.mpr ⟨hnot, (m.erase k).nodup_entries⟩
  · intro e'
    simp only [List.mem_cons, erase, mem_eraseIf, decide_eq_false_iff_not]
    constructor
    · intro he'
      by_cases hs' : Same lt e'.1 k
      · exact .inl (m.eq_of_same he' he (hs'.trans hs.symm))
      · exact .inr ⟨he', hs'⟩
    · rintro (rfl | ⟨he', -⟩)
      · exact he
      · exact he'

theorem entries_assign_perm {m : StdMap κ υ lt} {k : κ} {e : κ × υ} (h : m.find? k = some e)
    (v : υ) : (m.assign k v).entries.Perm ((e.1, v) :: (m.erase k).entries) := by
  obtain ⟨he, hs⟩ := m.find?_eq_some_iff.mp h
  have hnot : (e.1, v) ∉ (m.erase k).entries := by
    intro hmem
    exact (mem_erase.mp hmem).2 hs
  refine (List.perm_ext_iff_of_nodup (m.assign k v).nodup_entries ?_).mpr ?_
  · exact List.nodup_cons.mpr ⟨hnot, (m.erase k).nodup_entries⟩
  · intro e'
    rw [mem_assign, List.mem_cons, mem_erase, h]
    simp [or_comm]

/-! ## One key or two -/

/-- The map treats the two keys as one: it finds and erases the same entry under both, and what is
    stored under `k'` finds the entry that was stored under `k`. -/
structure OneKey (m : StdMap κ υ lt) (k k' : κ) : Prop where
  find : m.find? k' = m.find? k
  erase : m.erase k' = m.erase k
  emplace : ∀ v v', (m.emplace k v).emplace k' v' = m.emplace k v
  assign : ∀ v v', (m.assign k v).assign k' v' = m.assign k v'

/-- The map keeps the two keys apart: what happens under `k` leaves the entry of `k'`. -/
structure Apart (m : StdMap κ υ lt) (k k' : κ) : Prop where
  emplace : ∀ v, (m.emplace k v).find? k' = m.find? k'
  assign : ∀ v, (m.assign k v).find? k' = m.find? k'
  erase : (m.erase k).find? k' = m.find? k'

theorem erase_same (m : StdMap κ υ lt) {k k' : κ} (h : Same lt k k') : m.erase k' = m.erase k := by
  apply ext_find?
  intro x
  by_cases hx : Same lt k x
  · rw [find?_erase_of_same m hx, find?_erase_of_same m (h.congr_left.mp hx)]
  · rw [find?_erase_of_not_same hx, find?_erase_of_not_same (h.congr_left.not.mp hx)]

/-- Of two assignments under one key the last one counts. -/
theorem assign_assign_same (m : StdMap κ υ lt) {k k' : κ} (h : Same lt k k') (v v' : υ) :
    (m.assign k v).assign k' v' = m.assign k v' := by
  apply ext_find?
  intro x
  by_cases hx : Same lt k x
  · have hstored : (m.assign k v).find? k' = some (((m.find? k).map Prod.fst).getD k, v) := by
      rw [← find?_same _ h, find?_assign_self]
    rw [← find?_same _ (h.congr_left.mp hx), find?_assign_self, hstored, ← find?_same _ hx,
      find?_assign_self]
    rfl
  · rw [find?_assign_of_not_same (h.congr_left.not.mp hx), find?_assign_of_not_same hx,
      find?_assign_of_not_same hx]

/-- Of two `emplace`s under one key the first one counts. -/
theorem emplace_emplace_same (m : StdMap κ υ lt) {k k' : κ} (h : Same lt k k') (v v' : υ) :
    (m.emplace k v).emplace k' v' = m.emplace k v := by
  refine emplace_of_find? (e := (m.find? k).getD (k, v)) ?_ v'
  rw [← find?_same _ h, find?_emplace_self]

/-- The map does not tell keys apart exactly if they are the same to its order. -/
theorem oneKey_iff [Nonempty υ] (m : StdMap κ υ lt) {k k' : κ} : m.OneKey k k' ↔ Same lt k k' := by
  constructor
  · intro hone
    by_contra hne
    obtain ⟨v⟩ := ‹Nonempty υ›
    -- whatever is stored under `k` is found under `k'`, and it was there before
    have hstored : ((m.emplace k v).emplace k' v).find? k' = m.find? k := by
      rw [hone.emplace, find?_emplace_of_not_same hne, hone.find]
    rw [find?_emplace_self] at hstored
    have hk := (m.find?_eq_some_iff.mp hstored.symm).2
    have hk' := (m.find?_eq_some_iff.mp (hone.find.trans hstored.symm)).2
    exact hne (hk.symm.trans hk')
  · intro hs
    exact ⟨(m.find?_same hs).symm, m.erase_same hs, m.emplace_emplace_same hs,
      m.assign_assign_same hs⟩

/-- Keys do not get into each other's way exactly if they are not the same. -/
theorem apart_iff [Nonempty υ] (m : StdMap κ υ lt) {k k' : κ} : m.Apart k k' ↔ ¬ Same lt k k' := by
  constructor
  · intro hapart hs
    obtain ⟨v⟩ := ‹Nonempty υ›
    have hnone : m.find? k' = none := by rw [← hapart.erase, find?_erase_of_same m hs]
    have hfound := hapart.emplace v
    rw [← find?_same _ hs, find?_emplace_self, hnone] at hfound
    cases hfound
  · intro hne
    exact ⟨find?_emplace_of_not_same hne, find?_assign_of_not_same hne, find?_erase_of_not_same hne⟩

end Order

/-! ## Changing values in place -/

/-- Every value is changed, every key stays. -/
def mapValues (m : StdMap κ υ lt) (f : υ → υ) : StdMap κ υ lt :=
  ⟨m.entries.map fun e => (e.1, f e.2), List.pairwise_map.mpr m.sorted⟩

theorem find?_mapValues (m : StdMap κ υ lt) (f : υ → υ) (k : κ) :
    (m.mapValues f).find? k = (m.find? k).map fun e => (e.1, f e.2) := by
  rw [find?, mapValues, List.find?_map]
  rfl

theorem get?_mapValues (m : StdMap κ υ lt) (f : υ → υ) (k : κ) :
    (m.mapValues f).get? k = (m.get? k).map f := by
  rw [get?, find?_mapValues, get?, Option.map_map, Option.map_map]
  rfl

/-! ## Comparators under which only equal keys are the same key -/

section Eq

variable [IsStrictWeakOrder κ lt] (hlt : ∀ {a b : κ}, Same lt a b ↔ a = b)

include hlt

theorem get?_eq_some_iff {m : StdMap κ υ lt} {k : κ} {v : υ} :
    m.get? k = some v ↔ (k, v) ∈ m.entries := by
  rw [get?, Option.map_eq_some_iff]
  constructor
  · rintro ⟨e, he, rfl⟩
    obtain ⟨hmem, hs⟩ := m.find?_eq_some_iff.mp he
    rw [← hlt.mp hs]
    exact hmem
  · intro hmem
    exact ⟨(k, v), mem_iff_find?.mp hmem, rfl⟩

theorem mem_keys_iff {m : StdMap κ υ lt} {k : κ} :
    k ∈ m.entries.map Prod.fst ↔ m.get? k ≠ none := by
  rw [Option.ne_none_iff_exists', List.mem_map]
  constructor
  · rintro ⟨e, he, rfl⟩
    exact ⟨e.2, (get?_eq_some_iff hlt).mpr he⟩
  · rintro ⟨v, hv⟩
    exact ⟨(k, v), (get?_eq_some_iff hlt).mp hv, rfl⟩

variable [DecidableEq κ]

theorem get?_erase (m : StdMap κ υ lt) (k k' : κ) :
    (m.erase k).get? k' = if k = k' then none else m.get? k' := by
  rw [get?, get?]
  split
  · next h => rw [find?_erase_of_same m (hlt.mpr h), Option.map_none]
  · next h => rw [find?_erase_of_not_same fun hs => h (hlt.mp hs)]

theorem get?_assign (m : StdMap κ υ lt) (k k' : κ) (v : υ) :
    (m.assign k v).get? k' = if k = k' then some v else m.get? k' := by
  rw [get?, get?]
  split
  · next h =>
    subst h
    rw [find?_assign_self, Option.map_some]
  · next h => rw [find?_assign_of_not_same fun hs => h (hlt.mp hs)]

/-- The values after `emplace` under a free key. -/
theorem get?_emplace {m : StdMap κ υ lt} {k : κ} (hk : m.get? k = none) (k' : κ) (v : υ) :
    (m.emplace k v).get? k' = if k = k' then some v else m.get? k' := by
  have hfind : m.find? k = none := Option.map_eq_none_iff.mp hk
  rw [get?, get?]
  split
  · next h =>
    subst h
    rw [find?_emplace_self, hfind]
    rfl
  · next h => rw [find?_emplace_of_not_same fun hs => h (hlt.mp hs)]

end Eq

end StdMap
