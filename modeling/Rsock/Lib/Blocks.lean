import Mathlib.Data.List.Basic
import Mathlib.Algebra.Order.Group.Nat

/-!
# Reading a stream in blocks

A function `f` consumes blocks of `B` elements. `feed` gives it the full blocks of a list one after the
other, and `rest` is what does not fill a block. Whoever reads a list in pieces and keeps the rest of one
piece for the next has given `f` the same blocks as someone who reads it at once (`feed_append`,
`rest_append`).
-/

namespace Blocks

variable {α σ : Type} {B : Nat} {f : σ → List α → σ} {s : σ} {l xs ys : List α}

/-- `f` on the first `n` blocks of the list. -/
def feedN (B : Nat) (f : σ → List α → σ) : Nat → σ → List α → σ
  | 0, s, _ => s
  | n + 1, s, l => feedN B f n (f s (l.take B)) (l.drop B)

/-- `f` on the full blocks of the list. -/
def feed (B : Nat) (f : σ → List α → σ) (s : σ) (l : List α) : σ := feedN B f (l.length / B) s l

/-- What follows the full blocks. -/
def rest (B : Nat) (l : List α) : List α := l.drop (B * (l.length / B))

theorem feedN_add (m n : Nat) (s : σ) (l : List α) :
    feedN B f (m + n) s l = feedN B f n (feedN B f m s l) (l.drop (B * m)) := by
  induction m generalizing s l with
  | zero => simp [feedN]
  | succ m ih =>
    rw [Nat.succ_add, feedN, feedN, ih, List.drop_drop, Nat.mul_succ, Nat.add_comm B]

/-- Only the blocks that are fed matter. -/
theorem feedN_append {n : Nat} (h : B * n ≤ xs.length) :
    feedN B f n s (xs ++ ys) = feedN B f n s xs := by
  induction n generalizing s xs with
  | zero => rfl
  | succ n ih =>
    have hB : B ≤ xs.length := le_trans (Nat.le_mul_of_pos_right B n.succ_pos) h
    have hrest : B * n ≤ (xs.drop B).length := by
      rw [List.length_drop]
      rw [Nat.mul_succ] at h
      omega
    rw [feedN, feedN, List.take_append_of_le_length hB, List.drop_append_of_le_length hB, ih hrest]

theorem length_rest (B : Nat) (l : List α) : (rest B l).length = l.length % B := by
  rw [rest, List.length_drop, Nat.mod_eq_sub_mul_div]

/-- What is left is shorter than a block. -/
theorem length_rest_lt (hB : 0 < B) (l : List α) : (rest B l).length < B :=
  (length_rest B l).trans_lt (Nat.mod_lt _ hB)

/-- Less than a block is not fed. -/
theorem feed_of_lt (h : l.length < B) : feed B f s l = s := by
  rw [feed, Nat.div_eq_of_lt h]
  rfl

theorem rest_of_lt (h : l.length < B) : rest B l = l := by
  rw [rest, Nat.div_eq_of_lt h]
  rfl

/-- The blocks of `xs ++ ys` are those of `xs` and those of what they leave of it. -/
theorem length_div_append (hB : 0 < B) (xs ys : List α) :
    (xs ++ ys).length / B = xs.length / B + (rest B xs ++ ys).length / B := by
  have hlen : (xs ++ ys).length = (rest B xs ++ ys).length + xs.length / B * B := by
    have hmod := Nat.div_add_mod' xs.length B
    rw [List.length_append, List.length_append, length_rest]
    omega
  rw [hlen, Nat.add_mul_div_right _ _ hB, Nat.add_comm]

theorem drop_append_rest (B : Nat) (xs ys : List α) :
    (xs ++ ys).drop (B * (xs.length / B)) = rest B xs ++ ys :=
  List.drop_append_of_le_length (Nat.mul_div_le xs.length B)

/-- What was left comes before what follows. -/
theorem feed_append (hB : 0 < B) (s : σ) (xs ys : List α) :
    feed B f s (xs ++ ys) = feed B f (feed B f s xs) (rest B xs ++ ys) := by
  have hfull : B * (xs.length / B) ≤ xs.length := Nat.mul_div_le xs.length B
  rw [feed, length_div_append hB, feedN_add, feedN_append hfull, drop_append_rest]
  rfl

theorem rest_append (hB : 0 < B) (xs ys : List α) : rest B (xs ++ ys) = rest B (rest B xs ++ ys) := by
  rw [rest, length_div_append hB, Nat.mul_add, ← List.drop_drop, drop_append_rest]
  rfl

/-- A list that begins with a full block. -/
theorem feed_block (hB : 0 < B) (h : xs.length = B) :
    feed B f s (xs ++ ys) = feed B f (f s xs) ys := by
  have hdiv : (xs ++ ys).length / B = ys.length / B + 1 := by
    rw [List.length_append, h, Nat.add_comm, Nat.add_div_right _ hB]
  rw [feed, hdiv, feedN, List.take_left' h, List.drop_left' h]
  rfl

theorem feed_one (hB : 0 < B) (h : xs.length = B) : feed B f s xs = f s xs := by
  have hfeed : feed B f s (xs ++ []) = feed B f (f s xs) [] := feed_block hB h
  rw [List.append_nil] at hfeed
  rw [hfeed]
  exact feed_of_lt hB

theorem rest_block (hB : 0 < B) (h : xs.length = B) : rest B (xs ++ ys) = rest B ys := by
  have hdiv : (xs ++ ys).length / B = ys.length / B + 1 := by
    rw [List.length_append, h, Nat.add_comm, Nat.add_div_right _ hB]
  rw [rest, hdiv, Nat.mul_succ, Nat.add_comm, ← List.drop_drop, List.drop_left' h]
  rfl

end Blocks
