import Mathlib.Tactic

/-!
# Clocks in machine words

A clock of `m` bits is kept in a wider word and cut back with a mask, often together with its lowest
bits where the hardware has a coarser grain. The masks are read as arithmetic on the value: a
remainder, and a rounding down.
-/

namespace UwbCore.Lib.Word

/-- A number whose bits from `k` to `m` are set keeps of `a` what is below `2 ^ m`, rounded down. -/
lemma and_window (a : Nat) {k m : Nat} (h : k ≤ m) :
    a &&& (2 ^ m - 2 ^ k) = a % 2 ^ m / 2 ^ k * 2 ^ k := by
  have hm : 2 ^ m - 2 ^ k = (2 ^ (m - k) - 1) <<< k := by
    rw [Nat.shiftLeft_eq, Nat.sub_mul, ← Nat.pow_add, Nat.sub_add_cancel h, Nat.one_mul]
  rw [hm, ← Nat.shiftLeft_eq, ← Nat.shiftRight_eq_div_pow]
  apply Nat.eq_of_testBit_eq
  intro i
  simp only [Nat.testBit_and, Nat.testBit_shiftLeft, Nat.testBit_shiftRight,
    Nat.testBit_two_pow_sub_one, Nat.testBit_mod_two_pow]
  by_cases hi : k ≤ i
  case pos =>
    have hlt : i - k < m - k ↔ i < m := by omega
    simp [hi, hlt, Bool.and_comm]
  case neg => simp [hi]

/-- The mask of the bits from `k` to `m`. -/
lemma toNat_and_window {w : Nat} (x y : BitVec w) {k m : Nat} (h : k ≤ m)
    (hy : y.toNat = 2 ^ m - 2 ^ k) :
    (x &&& y).toNat = x.toNat % 2 ^ m / 2 ^ k * 2 ^ k := by
  rw [BitVec.toNat_and, hy, and_window _ h]

/-- A word cut to `m` bits by a mask, read as a word of `m` bits. -/
lemma setWidth_and_window {w m : Nat} (x y : BitVec w) (hy : y.toNat = 2 ^ m - 2 ^ 0) :
    (x &&& y).setWidth m = x.setWidth m := by
  apply BitVec.eq_of_toNat_eq
  rw [BitVec.toNat_setWidth, BitVec.toNat_setWidth, toNat_and_window x y (Nat.zero_le m) hy,
    Nat.pow_zero, Nat.div_one, Nat.mul_one, Nat.mod_mod]

/-- The two parts of a word that two complementary masks cut it into. -/
lemma and_add_and {w k : Nat} (x y z : BitVec w) (hk : k ≤ w) (hy : y.toNat = 2 ^ w - 2 ^ k)
    (hz : z.toNat = 2 ^ k - 2 ^ 0) : (x &&& y) + (x &&& z) = x := by
  have hx : x.toNat % 2 ^ w = x.toNat := Nat.mod_eq_of_lt x.isLt
  apply BitVec.eq_of_toNat_eq
  rw [BitVec.toNat_add, toNat_and_window x y hk hy, toNat_and_window x z (Nat.zero_le k) hz,
    Nat.pow_zero, Nat.div_one, Nat.mul_one, hx, Nat.mul_comm, Nat.div_add_mod, hx]

/-- The low bits of a difference. -/
lemma setWidth_sub {w m : Nat} (x y : BitVec w) (h : m ≤ w) :
    (x - y).setWidth m = x.setWidth m - y.setWidth m := by
  rw [BitVec.sub_eq_add_neg, BitVec.setWidth_add _ _ h, BitVec.setWidth_neg_of_le h,
    BitVec.sub_eq_add_neg]

/-- A word keeps its value in a wider one. -/
lemma toNat_widen {w m : Nat} (x : BitVec w) (h : w ≤ m) : (x.setWidth m).toNat = x.toNat := by
  rw [BitVec.toNat_setWidth]
  exact Nat.mod_eq_of_lt (Nat.lt_of_lt_of_le x.isLt (Nat.pow_le_pow_right (by decide) h))

/-- A word shifted inside a wider one. -/
lemma toNat_widen_shiftLeft {w m k : Nat} (x : BitVec w) (h : w + k ≤ m) :
    (x.setWidth m <<< k).toNat = x.toNat * 2 ^ k := by
  have hlt : x.toNat * 2 ^ k < 2 ^ m := by
    calc x.toNat * 2 ^ k < 2 ^ w * 2 ^ k := Nat.mul_lt_mul_of_pos_right x.isLt (Nat.two_pow_pos k)
      _ = 2 ^ (w + k) := (Nat.pow_add 2 w k).symm
      _ ≤ 2 ^ m := Nat.pow_le_pow_right (by decide) h
  rw [BitVec.toNat_shiftLeft, toNat_widen _ (by omega), Nat.shiftLeft_eq, Nat.mod_eq_of_lt hlt]

/-- Widened and narrowed again. -/
lemma setWidth_widen {w m : Nat} (x : BitVec w) (h : w ≤ m) : (x.setWidth m).setWidth w = x := by
  apply BitVec.eq_of_toNat_eq
  rw [BitVec.toNat_setWidth, toNat_widen x h, Nat.mod_eq_of_lt x.isLt]

/-- What is added to a time and what is taken off it again are the same when nothing has changed. -/
lemma add_sub_sub_eq {w : Nat} (t x e y : BitVec w) : t + x - e - y = t - e ↔ x = y := by
  grind

end UwbCore.Lib.Word
