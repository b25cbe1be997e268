import Mathlib.Tactic

/-!
# Conversions of floating point numbers to integers

Floating point is read as exact arithmetic on rational numbers. A C cast to an integer cuts off the
fraction (`trunc`), and is defined where the integer type has the result (`toInt64`); `round` goes to
the nearest integer, halves away from zero (`roundAway`). Either is within one of the number. Results
that wrap are compared up to a multiple and a tolerance (`NearMultiple`).
-/

namespace UwbCore.Lib

/-- The integer part, toward zero. -/
def trunc (q : ℚ) : ℤ := if 0 ≤ q then ⌊q⌋ else ⌈q⌉

/-- C `round`. -/
def roundAway (q : ℚ) : ℤ := if 0 ≤ q then ⌊q + 1 / 2⌋ else ⌈q - 1 / 2⌉

/-- What `trunc` cuts off. -/
def cut (q : ℚ) : ℚ := q - trunc q

/-- A C cast to `int64_t`, where it is defined. -/
def toInt64 (q : ℚ) : Option ℤ :=
  if -2 ^ 63 ≤ trunc q ∧ trunc q < 2 ^ 63 then some (trunc q) else none

/-- From zero on the integer below. -/
lemma trunc_of_nonneg {q : ℚ} (h : 0 ≤ q) : trunc q = ⌊q⌋ := if_pos h

/-- What fits is the truncated number. -/
lemma toInt64_eq {q : ℚ} {n : ℤ} (h : toInt64 q = some n) : n = trunc q := by
  rw [toInt64] at h
  split at h
  case isTrue => exact (Option.some.inj h).symm
  case isFalse => cases h

/-- An integer is not truncated. -/
lemma trunc_intCast (n : ℤ) : trunc n = n := by
  rw [trunc]
  split
  case isTrue => exact Int.floor_intCast n
  case isFalse => exact Int.ceil_intCast n

/-- What is cut off is less than one. -/
lemma abs_cut_lt (q : ℚ) : |cut q| < 1 := by
  rw [cut, trunc, abs_lt]
  split
  case isTrue =>
    have h1 := Int.floor_le q
    have h2 := Int.lt_floor_add_one q
    constructor
    · linarith
    · linarith
  case isFalse =>
    have h1 := Int.le_ceil q
    have h2 := Int.ceil_lt_add_one q
    constructor
    · linarith
    · linarith

/-- What is cut off. -/
lemma trunc_eq_sub_cut (q : ℚ) : (trunc q : ℚ) = q - cut q := by
  rw [cut]
  ring

/-- Of numbers that are not negative, parts between zero and one are cut off. -/
lemma cut_of_nonneg {q : ℚ} (h : 0 ≤ q) : 0 ≤ cut q ∧ cut q < 1 := by
  rw [cut, trunc_of_nonneg h]
  exact ⟨Int.fract_nonneg q, Int.fract_lt_one q⟩

/-! ## Multiples -/

/-- A number is a multiple of `n`, up to `c`. -/
def NearMultiple (n c x : ℚ) : Prop := ∃ m : ℤ, |x - m * n| ≤ c

/-- A small number is near zero. -/
lemma nearMultiple_of_abs_le {n c x : ℚ} (h : |x| ≤ c) : NearMultiple n c x := by
  refine ⟨0, ?_⟩
  rwa [Int.cast_zero, zero_mul, sub_zero]

/-- Zero is near. -/
lemma nearMultiple_zero {n c : ℚ} (h : 0 ≤ c) : NearMultiple n c 0 :=
  nearMultiple_of_abs_le (abs_zero.trans_le h)

/-- A multiple more or less does not matter. -/
lemma nearMultiple_sub_iff {n c x y : ℚ} (k : ℤ) (h : x = y - k * n) :
    NearMultiple n c x ↔ NearMultiple n c y := by
  constructor
  · rintro ⟨m, hm⟩
    refine ⟨m + k, ?_⟩
    have he : y - ((m + k : ℤ) : ℚ) * n = x - m * n := by
      rw [h]
      push_cast
      ring
    rwa [he]
  · rintro ⟨m, hm⟩
    refine ⟨m - k, ?_⟩
    have he : x - ((m - k : ℤ) : ℚ) * n = y - m * n := by
      rw [h]
      push_cast
      ring
    rwa [he]

/-- The sign does not matter. -/
lemma nearMultiple_neg_iff {n c x : ℚ} : NearMultiple n c (-x) ↔ NearMultiple n c x := by
  have hneg : ∀ y, NearMultiple n c y → NearMultiple n c (-y) := by
    rintro y ⟨m, hm⟩
    refine ⟨-m, ?_⟩
    have he : -y - ((-m : ℤ) : ℚ) * n = -(y - m * n) := by
      push_cast
      ring
    rwa [he, abs_neg]
  constructor
  · intro h
    rw [← neg_neg x]
    exact hneg _ h
  · exact hneg x

end UwbCore.Lib
