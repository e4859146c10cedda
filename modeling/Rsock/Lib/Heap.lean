import Rsock.Lib.Memory

/-!
# Objects behind pointers

A `Heap α` holds the objects of one type in the order of their creation; a pointer is a position.
Two containers that hold the same pointer see the same object, so a change through one of them is
seen through the other. A deleted object leaves its position empty, and no later object gets it: every
use of the old pointer is a fault.

`Evolves R h h'` says that `h'` still holds every object of `h`, changed only as `R` allows: what
is known about an object and kept by `R` is still known after any number of operations. `Ages R h h'`
looks the other way: what is at an old pointer of `h'` is an object of `h`, so that a pointer names one
object for ever.
-/

namespace CMem

/-- A pointer is the number of its cell. -/
abbrev Ptr := Nat

/-- Cells that are allocated one after the other. A cell that was freed is `none`. -/
structure Heap (α : Type) where
  /-- The objects, `none` where one has been deleted. -/
  cells : List (Option α) := []

namespace Heap

variable {α : Type} {R : α → α → Prop} {h h' h'' : Heap α} {p q : Ptr} {a b : α}

/-- The object at `p`, if there is one. -/
def get? (h : Heap α) (p : Ptr) : Option α := h.cells[p]?.join

def deref (h : Heap α) (p : Ptr) : Except Fault α :=
  match h.cells[p]? with
  | some (some a) => .ok a
  | some none => .error .useAfterFree
  | none => .error .outOfBounds

def store (h : Heap α) (p : Ptr) (a : α) : Heap α := ⟨h.cells.set p (some a)⟩

/-- `new`: the object and its pointer. -/
def alloc (h : Heap α) (a : α) : Heap α × Ptr := (⟨h.cells ++ [some a]⟩, h.cells.length)

/-- `delete`: once more is a fault. -/
def free (h : Heap α) (p : Ptr) : Except Fault (Heap α) := do
  let _ ← h.deref p
  return ⟨h.cells.set p none⟩

theorem get?_eq_some : h.get? p = some a ↔ h.cells[p]? = some (some a) := by
  rw [get?, Option.join_eq_some_iff]

theorem deref_eq_ok : h.deref p = .ok a ↔ h.get? p = some a := by
  rw [get?_eq_some]
  unfold deref
  split <;> simp_all

theorem lt_of_get? (hp : h.get? p = some b) : p < h.cells.length :=
  (List.getElem?_eq_some_iff.mp (get?_eq_some.mp hp)).1

theorem get?_store_self (hp : h.get? p = some b) : (h.store p a).get? p = some a :=
  get?_eq_some.mpr (List.getElem?_set_self (lt_of_get? hp))

/-- Other cells are not changed. -/
theorem get?_store_of_ne (hne : p ≠ q) : (h.store p a).get? q = h.get? q :=
  congrArg Option.join (List.getElem?_set_ne hne)

theorem get?_alloc_self : (h.alloc a).1.get? (h.alloc a).2 = some a :=
  get?_eq_some.mpr List.getElem?_concat_length

/-- What is there stays where it is. -/
theorem get?_alloc_of_get? (hp : h.get? p = some b) : (h.alloc a).1.get? p = some b :=
  get?_eq_some.mpr ((List.getElem?_append_left (lt_of_get? hp)).trans (get?_eq_some.mp hp))

/-- A cell is old, or it is the new one. -/
theorem get?_alloc_cases (hp : (h.alloc a).1.get? p = some b) :
    h.get? p = some b ∨ h.cells.length ≤ p ∧ b = a := by
  rw [get?_eq_some, alloc, List.getElem?_append] at hp
  split at hp
  · exact .inl (get?_eq_some.mpr hp)
  next hlt =>
    have hmem := List.mem_of_getElem? hp
    simp only [List.mem_singleton, Option.some.injEq] at hmem
    exact .inr ⟨Nat.le_of_not_lt hlt, hmem⟩

theorem free_eq_ok : h.free p = .ok h' ↔ (h.get? p).isSome ∧ h' = ⟨h.cells.set p none⟩ := by
  rw [free, bind_eq_ok, Option.isSome_iff_exists]
  constructor
  · rintro ⟨a, ha, hret⟩
    exact ⟨⟨a, deref_eq_ok.mp ha⟩, (Except.ok.inj hret).symm⟩
  · rintro ⟨⟨a, ha⟩, rfl⟩
    exact ⟨a, deref_eq_ok.mpr ha, rfl⟩

/-- A cell that was freed is not there. -/
theorem get?_free_self (hf : h.free p = .ok h') : h'.get? p = none := by
  obtain ⟨hp, rfl⟩ := free_eq_ok.mp hf
  obtain ⟨a, ha⟩ := Option.isSome_iff_exists.mp hp
  rw [get?, List.getElem?_set_self (lt_of_get? ha)]
  rfl

theorem get?_free_of_ne (hf : h.free p = .ok h') (hne : p ≠ q) : h'.get? q = h.get? q := by
  obtain ⟨-, rfl⟩ := free_eq_ok.mp hf
  exact congrArg Option.join (List.getElem?_set_ne hne)

@[simp] theorem length_store : (h.store p a).cells.length = h.cells.length := List.length_set

@[simp] theorem length_alloc : (h.alloc a).1.cells.length = h.cells.length + 1 := by
  simp [alloc]

theorem length_free (hf : h.free p = .ok h') : h'.cells.length = h.cells.length := by
  obtain ⟨-, rfl⟩ := free_eq_ok.mp hf
  exact List.length_set

/-- Every object is still there, changed only as `R` allows. -/
def Evolves (R : α → α → Prop) (h h' : Heap α) : Prop :=
  ∀ p a, h.get? p = some a → ∃ a', h'.get? p = some a' ∧ R a a'

theorem evolves_refl (hR : ∀ a, R a a) (h : Heap α) : Evolves R h h :=
  fun _ a hp => ⟨a, hp, hR a⟩

/-- Heaps that evolve go on evolving. -/
theorem Evolves.trans (hR : ∀ a b c, R a b → R b c → R a c) (h₁ : Evolves R h h')
    (h₂ : Evolves R h' h'') : Evolves R h h'' := by
  intro p a hp
  obtain ⟨b, hb, hab⟩ := h₁ p a hp
  obtain ⟨c, hc, hbc⟩ := h₂ p b hb
  exact ⟨c, hc, hR a b c hab hbc⟩

/-- A cell may be replaced by one it is related to. -/
theorem evolves_store (hR : ∀ a, R a a) (hp : h.get? p = some a) (hab : R a b) :
    Evolves R h (h.store p b) := by
  intro q c hq
  by_cases hpq : p = q
  · subst hpq
    obtain rfl : a = c := Option.some.inj (hp.symm.trans hq)
    exact ⟨b, get?_store_self hp, hab⟩
  · exact ⟨c, (get?_store_of_ne hpq).trans hq, hR c⟩

/-- A new cell may be added. -/
theorem evolves_alloc (hR : ∀ a, R a a) (h : Heap α) (a : α) : Evolves R h (h.alloc a).1 :=
  fun _ b hq => ⟨b, get?_alloc_of_get? hq, hR b⟩

/-- Every object of `h'` is new or was in `h`, changed only as `R` allows. -/
structure Ages (R : α → α → Prop) (h h' : Heap α) : Prop where
  length : h.cells.length ≤ h'.cells.length
  old : ∀ p a', p < h.cells.length → h'.get? p = some a' → ∃ a, h.get? p = some a ∧ R a a'

theorem ages_refl (hR : ∀ a, R a a) (h : Heap α) : Ages R h h :=
  ⟨le_refl _, fun _ a _ hp => ⟨a, hp, hR a⟩⟩

theorem Ages.trans (hR : ∀ a b c, R a b → R b c → R a c) (h₁ : Ages R h h') (h₂ : Ages R h' h'') :
    Ages R h h'' := by
  refine ⟨h₁.length.trans h₂.length, ?_⟩
  intro p c hp hc
  obtain ⟨b, hb, hbc⟩ := h₂.old p c (hp.trans_le h₁.length) hc
  obtain ⟨a, ha, hab⟩ := h₁.old p b hp hb
  exact ⟨a, ha, hR a b c hab hbc⟩

theorem ages_store (hR : ∀ a, R a a) (hp : h.get? p = some a) (hab : R a b) :
    Ages R h (h.store p b) := by
  refine ⟨length_store.ge, ?_⟩
  intro q c _ hq
  by_cases hpq : p = q
  · subst hpq
    obtain rfl : b = c := Option.some.inj ((get?_store_self hp).symm.trans hq)
    exact ⟨a, hp, hab⟩
  · exact ⟨c, (get?_store_of_ne hpq).symm.trans hq, hR c⟩

theorem ages_alloc (hR : ∀ a, R a a) (h : Heap α) (a : α) : Ages R h (h.alloc a).1 := by
  refine ⟨(Nat.le_succ _).trans_eq length_alloc.symm, ?_⟩
  intro q b hq hb
  rcases get?_alloc_cases hb with hb | ⟨hle, -⟩
  · exact ⟨b, hb, hR b⟩
  · exact absurd hq (Nat.not_lt.mpr hle)

/-- Cells may be freed while a heap ages. -/
theorem ages_free (hR : ∀ a, R a a) (hf : h.free p = .ok h') : Ages R h h' := by
  refine ⟨(length_free hf).ge, ?_⟩
  intro q b _ hb
  by_cases hpq : p = q
  · subst hpq
    rw [get?_free_self hf] at hb
    cases hb
  · exact ⟨b, (get?_free_of_ne hf hpq).symm.trans hb, hR b⟩

end Heap

end CMem
