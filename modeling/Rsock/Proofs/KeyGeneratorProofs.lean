import Rsock.Proofs.SockAppProofs

/-!
# Proofs: keys of net conns

Which pairs of connections have the same key. `TYPE_TCP` and `TYPE_UDP` are bits 28 and 29 of the
key, and `dp` takes the bits from 16 to 31: the type constants lie over bits 12 and 13 of `dp`.
-/

namespace Rsock

open CMem

/-! ## Bits -/

namespace BitsOver

variable {n : Nat} {a b m m' x : BitVec n} {k : Nat}

theorem or_eq_or_iff :
    a ||| m = b ||| m ↔ ∀ i < n, m.getLsbD i = false → a.getLsbD i = b.getLsbD i := by
  constructor
  · intro h i hi hm
    have hbit := congrArg (fun x => x.getLsbD i) h
    simpa only [BitVec.getLsbD_or, hm, Bool.or_false] using hbit
  · intro h
    apply BitVec.eq_of_getLsbD_eq
    intro i hi
    cases hm : m.getLsbD i with
    | false => simp only [BitVec.getLsbD_or, h i hi hm]
    | true => simp only [BitVec.getLsbD_or, hm, Bool.or_true]

theorem or_twoPow_eq_iff (hk : k < n) :
    a ||| BitVec.twoPow n k = b ||| BitVec.twoPow n k ↔ a = b ∨ a ^^^ b = BitVec.twoPow n k := by
  rw [or_eq_or_iff]
  constructor
  · intro h
    have hne : ∀ i < n, i ≠ k → a.getLsbD i = b.getLsbD i := by
      intro i hi hik
      exact h i hi (by simp [BitVec.getLsbD_twoPow, hik.symm])
    by_cases hbit : a.getLsbD k = b.getLsbD k
    · left
      apply BitVec.eq_of_getLsbD_eq
      intro i hi
      by_cases hik : i = k
      · rw [hik, hbit]
      · exact hne i hi hik
    · right
      apply BitVec.eq_of_getLsbD_eq
      intro i hi
      rw [BitVec.getLsbD_xor, BitVec.getLsbD_twoPow]
      by_cases hik : i = k
      · subst hik
        simpa [hk] using hbit
      · simp [hne i hi hik, Ne.symm hik]
  · rintro (rfl | hxor) i hi hm
    · rfl
    · have hbit := congrArg (fun x => x.getLsbD i) hxor
      simpa only [BitVec.getLsbD_xor, hm, bne_eq_false_iff_eq] using hbit

theorem or_eq_or_of_disjoint (hm : m &&& m' = 0#n) :
    a ||| m = b ||| m' ↔ a &&& m' = m' ∧ b &&& m = m ∧ a ||| (m ||| m') = b ||| (m ||| m') := by
  have hbits : ∀ i, m.getLsbD i = false ∨ m'.getLsbD i = false := by
    intro i
    have hbit := congrArg (fun x => x.getLsbD i) hm
    simpa only [BitVec.getLsbD_and, BitVec.getLsbD_zero, Bool.and_eq_false_iff] using hbit
  have hbit : a ||| m = b ||| m' ↔
      ∀ i < n, (a.getLsbD i || m.getLsbD i) = (b.getLsbD i || m'.getLsbD i) := by
    simp only [BitVec.eq_of_getLsbD_eq_iff, BitVec.getLsbD_or]
  have hbit' : (a &&& m' = m' ∧ b &&& m = m ∧ a ||| (m ||| m') = b ||| (m ||| m')) ↔
      ∀ i < n, (a.getLsbD i && m'.getLsbD i) = m'.getLsbD i ∧
        (b.getLsbD i && m.getLsbD i) = m.getLsbD i ∧
        (a.getLsbD i || (m.getLsbD i || m'.getLsbD i)) =
          (b.getLsbD i || (m.getLsbD i || m'.getLsbD i)) := by
    simp only [BitVec.eq_of_getLsbD_eq_iff, BitVec.getLsbD_or, BitVec.getLsbD_and, ← forall_and]
  rw [hbit, hbit']
  refine forall₂_congr fun i _ => ?_
  -- at one bit at most one of the masks is set
  rcases hbits i with h | h <;> rw [h] <;> grind

end BitsOver

namespace KeyGenerator

/-- The key as a number: `dp` with the type bits put over it, then `sp`. -/
theorem toNat_portKey (t sp dp : UInt16) :
    (portKey (t.toUInt64 <<< 16) sp dp).toNat = (dp ||| t).toNat * 2 ^ 16 + sp.toNat := by
  have hsp : sp.toNat < 2 ^ 16 := sp.toNat_lt
  have hdp : dp.toNat < 2 ^ 16 := dp.toNat_lt
  have ht : t.toNat < 2 ^ 16 := t.toNat_lt
  have hshift : ∀ x : UInt16, (x.toUInt64 <<< 16).toNat = x.toNat <<< 16 := by
    intro x
    have hx : x.toNat < 2 ^ 16 := x.toNat_lt
    rw [UInt64.toNat_shiftLeft, UInt16.toNat_toUInt64]
    apply Nat.mod_eq_of_lt
    have : UInt64.toNat 16 % 64 = 16 := by decide
    rw [this, Nat.shiftLeft_eq]
    omega
  rw [portKey, UInt64.toNat_or, UInt64.toNat_or, hshift, hshift, UInt16.toNat_toUInt64,
    UInt16.toNat_or, ← Nat.shiftLeft_eq, Nat.shiftLeft_add_eq_or_of_lt hsp, Nat.shiftLeft_or_distrib,
    ← Nat.or_assoc, Nat.or_comm (t.toNat <<< 16)]

theorem portKey_inj_iff {t t' sp sp' dp dp' : UInt16} :
    portKey (t.toUInt64 <<< 16) sp dp = portKey (t'.toUInt64 <<< 16) sp' dp' ↔
      sp = sp' ∧ dp ||| t = dp' ||| t' := by
  rw [← UInt64.toNat_inj, toNat_portKey, toNat_portKey, ← UInt16.toNat_inj, ← UInt16.toNat_inj]
  have hsp : sp.toNat < 2 ^ 16 := sp.toNat_lt
  have hsp' : sp'.toNat < 2 ^ 16 := sp'.toNat_lt
  omega

/-- The bit of `dp` under the type constant of a transport. -/
def typeBit : Bool → UInt16
  | true => 0x2000
  | false => 0x1000

/-- The same transport and the same ports. -/
def SameConn (x y : Info) : Prop :=
  x.isUdp = y.isUdp ∧ x.base.sp = y.base.sp ∧ x.base.dp = y.base.dp

/-- The ports of `x` and `y` make the type bits hide how they differ. -/
def Clash (x y : Info) : Prop :=
  x.base.sp = y.base.sp ∧
    if x.isUdp = y.isUdp then x.base.dp ^^^ y.base.dp = typeBit x.isUdp
    else x.base.dp &&& typeBit y.isUdp = typeBit y.isUdp ∧
      y.base.dp &&& typeBit x.isUdp = typeBit x.isUdp ∧
      x.base.dp ||| 0x3000 = y.base.dp ||| 0x3000

theorem keyForConnInfo_of_ne {x : Info} (hs : x.base.sp ≠ 0) (hd : x.base.dp ≠ 0) :
    keyForConnInfo x = .ok (portKey ((typeBit x.isUdp).toUInt64 <<< 16) x.base.sp x.base.dp) := by
  cases x with
  | udp i =>
    have htype : (typeBit true).toUInt64 <<< 16 = typeUdp := by decide
    rw [Info.isUdp, htype]
    exact keyForUdp_of_ne hs hd
  | tcp i =>
    have htype : (typeBit false).toUInt64 <<< 16 = typeTcp := by decide
    have hports : (TcpInfo.ofConnInfo i.toConnInfo).sp ≠ 0 ∧
        (TcpInfo.ofConnInfo i.toConnInfo).dp ≠ 0 := ⟨hs, hd⟩
    rw [Info.isUdp, htype, keyForConnInfo, keyForTcp, cassert_pos hports]
    rfl

theorem or_typeBit_eq_iff {a b : UInt16} (u : Bool) :
    a ||| typeBit u = b ||| typeBit u ↔ a = b ∨ a ^^^ b = typeBit u := by
  simp only [← UInt16.toBitVec_inj, UInt16.toBitVec_or, UInt16.toBitVec_xor]
  cases u
  · exact BitsOver.or_twoPow_eq_iff (k := 12) (by decide)
  · exact BitsOver.or_twoPow_eq_iff (k := 13) (by decide)

theorem or_typeBit_eq_of_ne {a b : UInt16} {u u' : Bool} (h : u ≠ u') :
    a ||| typeBit u = b ||| typeBit u' ↔
      a &&& typeBit u' = typeBit u' ∧ b &&& typeBit u = typeBit u ∧ a ||| 0x3000 = b ||| 0x3000 := by
  have hor : typeBit u ||| typeBit u' = 0x3000 := by
    cases u <;> cases u' <;> first | rfl | exact absurd rfl h
  have hand : typeBit u &&& typeBit u' = 0 := by
    cases u <;> cases u' <;> first | rfl | exact absurd rfl h
  rw [← hor]
  simp only [← UInt16.toBitVec_inj, UInt16.toBitVec_or, UInt16.toBitVec_and] at hand ⊢
  exact BitsOver.or_eq_or_of_disjoint hand

theorem key_eq_iff {x y : Info} (hx : x.base.sp ≠ 0 ∧ x.base.dp ≠ 0)
    (hy : y.base.sp ≠ 0 ∧ y.base.dp ≠ 0) :
    keyForConnInfo x = keyForConnInfo y ↔ SameConn x y ∨ Clash x y := by
  rw [keyForConnInfo_of_ne hx.1 hx.2, keyForConnInfo_of_ne hy.1 hy.2, Except.ok.injEq,
    portKey_inj_iff, SameConn, Clash]
  by_cases hu : x.isUdp = y.isUdp
  · rw [if_pos hu, ← hu, or_typeBit_eq_iff]
    tauto
  · rw [if_neg hu, or_typeBit_eq_of_ne hu]
    tauto

theorem not_sameConn_of_clash {x y : Info} (h : Clash x y) : ¬ SameConn x y := by
  rintro ⟨hu, -, hd⟩
  have hbit := h.2
  rw [if_pos hu, hd, UInt16.xor_self] at hbit
  cases hx : x.isUdp <;> rw [hx] at hbit <;> exact absurd hbit (by decide)

/-- The only connections no other one clashes with: `dp` is nothing but the type bit. -/
theorem exists_clash_iff {x : Info} (hx : x.base.sp ≠ 0) :
    (∃ y : Info, (y.base.sp ≠ 0 ∧ y.base.dp ≠ 0) ∧ Clash x y) ↔
      x.base.dp ≠ typeBit x.isUdp := by
  constructor
  · rintro ⟨y, ⟨-, hy⟩, -, hclash⟩ heq
    by_cases hu : x.isUdp = y.isUdp
    · rw [if_pos hu, heq] at hclash
      nth_rewrite 2 [← UInt16.xor_zero (a := typeBit x.isUdp)] at hclash
      exact hy ((UInt16.xor_right_inj _).mp hclash)
    · rw [if_neg hu, heq] at hclash
      have hbit := hclash.1
      cases hxu : x.isUdp <;> cases hyu : y.isUdp <;> rw [hxu, hyu] at hbit hu <;>
        first | exact hu rfl | exact absurd hbit (by decide)
  · intro hne
    obtain ⟨y, hyu, hys, hyd⟩ : ∃ y : Info, y.isUdp = x.isUdp ∧ y.base.sp = x.base.sp ∧
        y.base.dp = x.base.dp ^^^ typeBit x.isUdp := by
      cases x with
      | udp i => exact ⟨.udp { i with dp := i.dp ^^^ typeBit true }, rfl, rfl, rfl⟩
      | tcp i => exact ⟨.tcp { i with dp := i.dp ^^^ typeBit false }, rfl, rfl, rfl⟩
    refine ⟨y, ⟨hys ▸ hx, ?_⟩, hys.symm, ?_⟩
    · rw [hyd]
      intro h0
      exact hne (UInt16.xor_eq_zero_iff.mp h0)
    · rw [if_pos hyu.symm, hyd, ← UInt16.xor_assoc, UInt16.xor_self, UInt16.zero_xor]

/-- Two connections with non-zero ports that have one key are the same connection, exactly when
    their ports do not clash; and a key belongs to one connection only, exactly when `dp` is the
    type bit alone. -/
theorem keyForConnInfo_inj_iff (x : Info) (hx : x.base.sp ≠ 0 ∧ x.base.dp ≠ 0) :
    (∃ k, keyForConnInfo x = .ok k) ∧
    (∀ y : Info, y.base.sp ≠ 0 ∧ y.base.dp ≠ 0 →
      ((keyForConnInfo x = keyForConnInfo y → SameConn x y) ↔ ¬ Clash x y)) ∧
    ((∀ y : Info, y.base.sp ≠ 0 ∧ y.base.dp ≠ 0 → keyForConnInfo x = keyForConnInfo y →
      SameConn x y) ↔ x.base.dp = typeBit x.isUdp) := by
  have hpair : ∀ y : Info, y.base.sp ≠ 0 ∧ y.base.dp ≠ 0 →
      ((keyForConnInfo x = keyForConnInfo y → SameConn x y) ↔ ¬ Clash x y) := by
    intro y hy
    rw [key_eq_iff hx hy]
    constructor
    · intro h hclash
      exact not_sameConn_of_clash hclash (h (.inr hclash))
    · rintro h (hsame | hclash)
      · exact hsame
      · exact absurd hclash h
  refine ⟨⟨_, keyForConnInfo_of_ne hx.1 hx.2⟩, hpair, ?_⟩
  rw [← not_iff_not, ← Ne.eq_def, ← exists_clash_iff hx.1]
  push Not
  refine exists_congr fun y => ?_
  constructor
  · rintro ⟨hy, hkey, hnot⟩
    refine ⟨hy, ?_⟩
    by_contra hclash
    exact hnot ((hpair y hy).mpr hclash hkey)
  · rintro ⟨hy, hclash⟩
    exact ⟨hy, (key_eq_iff hx hy).mpr (.inr hclash), not_sameConn_of_clash hclash⟩

theorem keyForConnInfo_inj_of_port_22 :
    (∃ k, keyForConnInfo (.tcp { sp := 50000, dp := 22 }) = .ok k) ∧
    ¬ Clash (.tcp { sp := 50000, dp := 22 }) (.udp { sp := 50000, dp := 22 }) ∧
    (keyForConnInfo (.tcp { sp := 50000, dp := 22 }) =
        keyForConnInfo (.udp { sp := 50000, dp := 22 }) →
      SameConn (.tcp { sp := 50000, dp := 22 }) (.udp { sp := 50000, dp := 22 })) := by
  have h := keyForConnInfo_inj_iff (.tcp { sp := 50000, dp := 22 }) (by decide)
  have hclash : ¬ Clash (.tcp { sp := 50000, dp := 22 }) (.udp { sp := 50000, dp := 22 }) := by
    rintro ⟨-, hbits⟩
    exact absurd hbits (by decide)
  exact ⟨h.1, hclash, (h.2.1 _ (by decide)).mpr hclash⟩

theorem keyForConnInfo_not_inj :
    ¬ ∀ x y : Info, x.base.sp ≠ 0 ∧ x.base.dp ≠ 0 → y.base.sp ≠ 0 ∧ y.base.dp ≠ 0 →
      keyForConnInfo x = keyForConnInfo y → SameConn x y := by
  intro h
  have hsame := h (.tcp { sp := 50000, dp := 80 }) (.tcp { sp := 50000, dp := 4176 }) (by decide)
    (by decide) (by decide)
  exact absurd hsame.2.2 (by decide)

end KeyGenerator
end Rsock
