import Mathlib.Data.List.Basic
import Mathlib.Tactic.Ring

/-!
# C memory: faults, integers in memory, buffers and cursors

What a C function can do wrong is a `Fault`: an assertion that does not hold, an access outside the
object a pointer points into, or one through a pointer that points to no object. A function that may
fault returns `Except Fault _`.

* `ByteOrder` with `toLE`/`ofLE`: the bytes of an unsigned integer stored in memory.
* `Buf n`: a `char[n]` array; `Buf.memcpy` faults when the copied range leaves the array.
* `Cursor n`: a write pointer into such an array; `Cursor.written` is what lies before it.
-/

namespace CMem

/-- How a C function goes wrong. -/
inductive Fault where
  | assertFailed
  | outOfBounds
  /-- A null pointer, or an empty `std::function`, is used. -/
  | nullDeref
  /-- An object is used after its deletion. -/
  | useAfterFree
  deriving DecidableEq, Repr

/-- `assert(c)`. -/
def cassert (c : Prop) [Decidable c] : Except Fault Unit :=
  if c then .ok () else .error .assertFailed

section Except

variable {ε α β : Type}

@[simp] theorem ok_bind (a : α) (f : α → Except ε β) : (Except.ok a >>= f) = f a := rfl

@[simp] theorem error_bind (e : ε) (f : α → Except ε β) :
    ((Except.error e : Except ε α) >>= f) = .error e := rfl

/-- Two steps succeed one after the other. -/
theorem bind_eq_ok {x : Except ε α} {f : α → Except ε β} {b : β} :
    (x >>= f) = .ok b ↔ ∃ a, x = .ok a ∧ f a = .ok b := by
  cases x with
  | error e => simp
  | ok a => simp

/-- Two steps avoid a fault if each of them does. -/
theorem bind_ne_error {x : Except ε α} {f : α → Except ε β} {e : ε} (hx : x ≠ .error e)
    (hf : ∀ a, x = .ok a → f a ≠ .error e) : (x >>= f) ≠ .error e := by
  cases x with
  | error e' =>
    rw [error_bind]
    rintro ⟨rfl⟩
    exact hx rfl
  | ok a => exact hf a rfl

@[simp] theorem cassert_pos {c : Prop} [Decidable c] (h : c) : cassert c = .ok () := if_pos h

@[simp] theorem cassert_neg {c : Prop} [Decidable c] (h : ¬ c) :
    cassert c = .error .assertFailed := if_neg h

/-- The computation does not fail with `e`, and what it returns satisfies `Q`. Other failures are
    allowed. -/
def Avoids (e : ε) (x : Except ε α) (Q : α → Prop) : Prop :=
  x ≠ .error e ∧ ∀ a, x = .ok a → Q a

section Avoids

variable {e : ε} {x : Except ε α} {f : α → Except ε β} {Q : α → Prop} {R : β → Prop}

theorem avoids_ok {a : α} (h : Q a) : Avoids e (.ok a) Q := by
  refine ⟨by simp, ?_⟩
  rintro a' ⟨⟩
  exact h

theorem avoids_error {e' : ε} (h : e' ≠ e) : Avoids e (.error e') Q :=
  ⟨fun heq => h (Except.error.inj heq), fun _ heq => by cases heq⟩

/-- The second step may use what the first one gives. -/
theorem Avoids.bind (hx : Avoids e x Q) (hf : ∀ a, Q a → Avoids e (f a) R) :
    Avoids e (x >>= f) R := by
  cases x with
  | error e' =>
    exact avoids_error fun heq => hx.1 (congrArg Except.error heq)
  | ok a => exact hf a (hx.2 a rfl)

theorem avoids_cassert_of_ne {c : Prop} [Decidable c] {e : Fault} (he : e ≠ .assertFailed) :
    Avoids e (cassert c) fun _ => c := by
  by_cases hc : c
  · rw [cassert_pos hc]
    exact avoids_ok hc
  · rw [cassert_neg hc]
    exact avoids_error he.symm

/-- An assertion that holds is no fault. -/
theorem avoids_cassert {c : Prop} [Decidable c] {e : Fault} (h : c) :
    Avoids e (cassert c) fun _ => True := by
  rw [cassert_pos h]
  exact avoids_ok trivial

end Avoids

/-- What a computation returns, from an evaluation of it. -/
theorem exists_of_toOption {x : Except ε α} {f : α → β} {b : β} (h : x.toOption.map f = some b) :
    ∃ a, x = .ok a ∧ f a = b := by
  cases x with
  | error e => cases h
  | ok a => exact ⟨a, rfl, Option.some.inj h⟩

theorem exists_ok_and_iff {α : Type} {x : Except Fault α} {a : α} (h : x = .ok a) {P : α → Prop} :
    (∃ b, x = .ok b ∧ P b) ↔ P a := by
  subst h
  constructor
  · rintro ⟨b, hb, hP⟩
    rw [Except.ok.inj hb]
    exact hP
  · intro hP
    exact ⟨a, rfl, hP⟩

@[simp] theorem cassert_eq_ok {c : Prop} [Decidable c] : cassert c = .ok () ↔ c := by
  by_cases h : c <;> simp [h]

end Except

/-! ## Integers in memory -/

/-- The order in which a machine stores the bytes of a number. -/
inductive ByteOrder where
  | little
  | big
  deriving DecidableEq, Repr

/-- The `w` low bytes of `n`, least significant first. -/
def toLE : Nat → Nat → List UInt8
  | 0, _ => []
  | w + 1, n => UInt8.ofNat (n % 256) :: toLE w (n / 256)

/-- The number whose bytes, least significant first, are the given ones. -/
def ofLE : List UInt8 → Nat
  | [] => 0
  | b :: bs => b.toNat + 256 * ofLE bs

@[simp] theorem length_toLE (w n : Nat) : (toLE w n).length = w := by
  induction w generalizing n with
  | zero => rfl
  | succ w ih => simp [toLE, ih]

/-- Reading the bytes of a number gives the number, as far as they hold it. -/
theorem ofLE_toLE (w n : Nat) : ofLE (toLE w n) = n % 256 ^ w := by
  induction w generalizing n with
  | zero => simp [toLE, ofLE, Nat.mod_one]
  | succ w ih =>
    have hb : (UInt8.ofNat (n % 256)).toNat = n % 256 := by
      rw [UInt8.toNat_ofNat']
      exact Nat.mod_eq_of_lt (Nat.mod_lt _ (by decide))
    rw [toLE, ofLE, ih, hb, pow_succ', Nat.mod_mul]

/-- The low bytes come first. -/
theorem toLE_add (v w n : Nat) : toLE (v + w) n = toLE v n ++ toLE w (n / 256 ^ v) := by
  induction v generalizing n with
  | zero => simp [toLE]
  | succ v ih =>
    rw [Nat.succ_add, toLE, toLE, ih, Nat.div_div_eq_div_mul, ← pow_succ', List.cons_append]

theorem toLE_mod (w n : Nat) : toLE w (n % 256 ^ w) = toLE w n := by
  induction w generalizing n with
  | zero => rfl
  | succ w ih =>
    rw [toLE, toLE, pow_succ', Nat.mod_mul_right_mod, Nat.mod_mul_right_div_self, ih]

theorem ofLE_lt (l : List UInt8) : ofLE l < 256 ^ l.length := by
  induction l with
  | nil => simp [ofLE]
  | cons b bs ih =>
    have hb : b.toNat < 256 := b.toNat_lt
    rw [ofLE, List.length_cons, pow_succ]
    omega

namespace ByteOrder

/-- The bytes of a `w`-byte unsigned integer in the host's memory, by increasing address. -/
def store (o : ByteOrder) (w n : Nat) : List UInt8 :=
  match o with
  | little => toLE w n
  | big => (toLE w n).reverse

/-- The unsigned integer the given bytes are in the host's memory. -/
def load (o : ByteOrder) (bs : List UInt8) : Nat :=
  match o with
  | little => ofLE bs
  | big => ofLE bs.reverse

@[simp] theorem length_store (o : ByteOrder) (w n : Nat) : (o.store w n).length = w := by
  cases o <;> simp [store]

/-- A number that is stored is loaded, as far as the bytes hold it. -/
theorem load_store (o : ByteOrder) (w n : Nat) : o.load (o.store w n) = n % 256 ^ w := by
  cases o <;> simp [load, store, ofLE_toLE]

theorem load_store_of_lt (o : ByteOrder) {w n : Nat} (h : n < 256 ^ w) :
    o.load (o.store w n) = n := by
  rw [load_store, Nat.mod_eq_of_lt h]

end ByteOrder

/-! ## Reading through a pointer

A read pointer is the list of the bytes from it to the end of the object. -/

/-- The `w` bytes at `p`, and the pointer behind them. -/
def readBytes (w : Nat) (p : List UInt8) : Except Fault (List UInt8 × List UInt8) :=
  if w ≤ p.length then .ok (p.take w, p.drop w) else .error .outOfBounds

theorem readBytes_of_le {w : Nat} {p : List UInt8} (h : w ≤ p.length) :
    readBytes w p = .ok (p.take w, p.drop w) := if_pos h

/-- The bytes in front are read. -/
theorem readBytes_append {w : Nat} {bs : List UInt8} (h : bs.length = w) (p : List UInt8) :
    readBytes w (bs ++ p) = .ok (bs, p) := by
  subst h
  simp [readBytes]

theorem avoids_readBytes {e : Fault} {w : Nat} {p : List UInt8} (h : w ≤ p.length) :
    Avoids e (readBytes w p) fun r => r = (p.take w, p.drop w) := by
  rw [readBytes_of_le h]
  exact avoids_ok rfl

/-! ## Arrays and write pointers -/

/-- A `char[n]` array. -/
@[ext]
structure Buf (n : Nat) where
  bytes : List UInt8
  length_eq : bytes.length = n
  deriving DecidableEq

attribute [simp] Buf.length_eq

namespace Buf

variable {n : Nat}

/-- `char buf[n] = {0}`. -/
def zeros (n : Nat) : Buf n := ⟨List.replicate n 0, List.length_replicate⟩

/-- `memcpy(buf + off, src, src.length)`. -/
def memcpy (b : Buf n) (off : Nat) (src : List UInt8) : Except Fault (Buf n) :=
  if h : off + src.length ≤ n then
    .ok ⟨b.bytes.take off ++ (src ++ b.bytes.drop (off + src.length)), by
      have := b.length_eq
      simp
      omega⟩
  else .error .outOfBounds

/-- What `memcpy` leaves: the bytes before, those it copies and those behind. -/
theorem memcpy_bytes (b : Buf n) {off : Nat} {src : List UInt8} (h : off + src.length ≤ n) :
    ∃ b', b.memcpy off src = .ok b' ∧
      b'.bytes = b.bytes.take off ++ (src ++ b.bytes.drop (off + src.length)) :=
  ⟨_, dif_pos h, rfl⟩

/-- The bytes up to the end of the copy. -/
theorem memcpy_ok (b : Buf n) {off : Nat} {src : List UInt8} (h : off + src.length ≤ n) :
    ∃ b', b.memcpy off src = .ok b' ∧
      b'.bytes.take (off + src.length) = b.bytes.take off ++ src := by
  obtain ⟨b', hb, hbytes⟩ := b.memcpy_bytes h
  refine ⟨b', hb, ?_⟩
  have hlen : (b.bytes.take off ++ src).length = off + src.length := by
    have := b.length_eq
    simp
    omega
  rw [hbytes, ← List.append_assoc, List.take_left' hlen]

theorem avoids_memcpy {e : Fault} (b : Buf n) {off : Nat} {src : List UInt8}
    (h : off + src.length ≤ n) : Avoids e (b.memcpy off src) fun _ => True := by
  obtain ⟨b', hb, -⟩ := b.memcpy_ok h
  rw [hb]
  exact avoids_ok trivial

theorem memcpy_all (b b' : Buf n) : b.memcpy 0 b'.bytes = .ok b' := by
  have h : 0 + b'.bytes.length ≤ n := by simp [b'.length_eq]
  rw [memcpy, dif_pos h]
  congr 1
  ext1
  have hd : b.bytes.drop (0 + b'.bytes.length) = [] := by
    rw [List.drop_eq_nil_iff, b.length_eq, b'.length_eq]
    omega
  show b.bytes.take 0 ++ (b'.bytes ++ b.bytes.drop (0 + b'.bytes.length)) = b'.bytes
  rw [hd, List.take_zero, List.append_nil, List.nil_append]

end Buf

/-- A write pointer `p` into the array `buf`: `pos = p - buf`. -/
structure Cursor (n : Nat) where
  buf : Buf n
  pos : Nat

namespace Cursor

variable {n : Nat}

/-- The bytes between the start of the array and the pointer. -/
def written (c : Cursor n) : List UInt8 := c.buf.bytes.take c.pos

/-- Copy `bs` to the pointer and move it behind them. -/
def write (c : Cursor n) (bs : List UInt8) : Except Fault (Cursor n) := do
  let buf ← c.buf.memcpy c.pos bs
  return ⟨buf, c.pos + bs.length⟩

/-- A write that fits in goes behind what was written. -/
theorem write_ok (c : Cursor n) (bs : List UInt8) (h : c.pos + bs.length ≤ n) :
    ∃ c', c.write bs = .ok c' ∧ c'.written = c.written ++ bs ∧ c'.pos = c.pos + bs.length := by
  obtain ⟨b', hb, ht⟩ := c.buf.memcpy_ok h
  exact ⟨⟨b', c.pos + bs.length⟩, by rw [write, hb]; rfl, ht, rfl⟩

theorem written_of_write {c c' : Cursor n} {bs : List UInt8} (h : c.write bs = .ok c') :
    c'.written = c.written ++ bs := by
  by_cases hroom : c.pos + bs.length ≤ n
  · obtain ⟨c'', hc, hw, -⟩ := c.write_ok bs hroom
    rw [← hw, Except.ok.inj (h.symm.trans hc)]
  · rw [write, Buf.memcpy, dif_neg hroom] at h
    cases h

/-- The pointer at the start of a zeroed array. -/
def start (n : Nat) : Cursor n := ⟨Buf.zeros n, 0⟩

@[simp] theorem written_start (n : Nat) : (start n).written = [] := by simp [start, written]

@[simp] theorem pos_start (n : Nat) : (start n).pos = 0 := rfl

end Cursor

end CMem
