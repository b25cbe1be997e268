import Mathlib.Tactic

/-!
# Intervals on a counter

A counter of `m` steps starts again at 0. Two intervals of one length on it meet when some step lies
in both, and are apart when each begins at least the length after the other: these exclude each other
(`not_overlap_iff`). Only the distance of the starts counts (`apart_congr`). Of two points one is not
after the other when it is reached from there within half a turn (`NotAfter`).
-/

namespace UwbCore.Lib.Circle

/-- The intervals of length `len` that start at `x` and at `y` have a step in common. -/
def Overlap (m len x y : Nat) : Prop := ∃ i < len, ∃ j < len, x + i ≡ y + j [MOD m]

/-- Each start is at least `len` steps after the other. -/
def Apart (m len x y : Nat) : Prop :=
  (len : ℤ) ≤ ((x : ℤ) - y) % m ∧ (len : ℤ) ≤ ((y : ℤ) - x) % m

instance decidableApart (m len x y : Nat) : Decidable (Apart m len x y) :=
  inferInstanceAs (Decidable (_ ∧ _))

variable {m len x y : Nat}

/-- A start less than `len` steps after the other lies in its interval. -/
lemma Overlap.of_lt (hm : 0 < m) (h : ((x : ℤ) - y) % m < len) : Overlap m len x y := by
  have hm' : (m : ℤ) ≠ 0 := by omega
  obtain ⟨d, hd⟩ := Int.eq_ofNat_of_zero_le (Int.emod_nonneg ((x : ℤ) - y) hm')
  rw [hd] at h
  refine ⟨0, by omega, d, by omega, ?_⟩
  apply (Int.natCast_modEq_iff).mp
  have hx : ((x : ℤ) - y) ≡ d [ZMOD m] := by
    rw [← hd]
    exact (Int.mod_modEq _ _).symm
  calc ((x + 0 : Nat) : ℤ) = y + ((x : ℤ) - y) := by push_cast; ring
    _ ≡ y + d [ZMOD m] := hx.add_left _
    _ = ((y + d : Nat) : ℤ) := by push_cast; rfl

/-- Overlapping is mutual. -/
lemma Overlap.symm (h : Overlap m len x y) : Overlap m len y x := by
  obtain ⟨i, hi, j, hj, he⟩ := h
  exact ⟨j, hj, i, hi, he.symm⟩

/-- A common step puts one start less than `len` steps after the other. -/
lemma Overlap.lt (h : Overlap m len x y) :
    ((x : ℤ) - y) % m < len ∨ ((y : ℤ) - x) % m < len := by
  obtain ⟨i, hi, j, hj, he⟩ := h
  have he' : (x : ℤ) + i ≡ y + j [ZMOD m] := by exact_mod_cast Int.natCast_modEq_iff.mpr he
  have close {a b : ℤ} {p q : Nat} (hpq : p ≤ q) (hq : q < len) (hab : a + p ≡ b + q [ZMOD m]) :
      (a - b) % m < len := by
    have hd : a - b ≡ ((q - p : Nat) : ℤ) [ZMOD m] := by
      rw [Int.modEq_iff_dvd] at hab ⊢
      convert hab using 1
      omega
    have hle := Nat.mod_le (q - p) m
    rw [hd, ← Int.natCast_mod]
    omega
  cases Nat.le_total i j with
  | inl hij => exact .inl (close hij hj he')
  | inr hij => exact .inr (close hij hi he'.symm)

/-- Intervals on a counter do not meet exactly when they are apart. -/
theorem not_overlap_iff (hm : 0 < m) : ¬Overlap m len x y ↔ Apart m len x y := by
  constructor
  · intro h
    exact ⟨not_lt.mp fun hlt => h (.of_lt hm hlt), not_lt.mp fun hlt => h (Overlap.symm (.of_lt hm hlt))⟩
  · rintro ⟨hxy, hyx⟩ h
    cases h.lt with
    | inl hlt => exact absurd hlt (not_lt.mpr hxy)
    | inr hlt => exact absurd hlt (not_lt.mpr hyx)

/-- Starts that are counted from one base are apart when what is added to the base is. -/
lemma apart_congr {c u v : Nat} (hx : x ≡ c + u [MOD m]) (hy : y ≡ c + v [MOD m]) :
    Apart m len x y ↔ Apart m len u v := by
  have hx' : (x : ℤ) ≡ c + u [ZMOD m] := by exact_mod_cast Int.natCast_modEq_iff.mpr hx
  have hy' : (y : ℤ) ≡ c + v [ZMOD m] := by exact_mod_cast Int.natCast_modEq_iff.mpr hy
  have hxy : (x : ℤ) - y ≡ u - v [ZMOD m] := by
    have h := hx'.sub hy'
    rwa [add_sub_add_left_eq_sub] at h
  have hyx : (y : ℤ) - x ≡ v - u [ZMOD m] := by
    have h := hy'.sub hx'
    rwa [add_sub_add_left_eq_sub] at h
  unfold Apart
  rw [hxy, hyx]

/-- Without a turn of the counter in between, the distance is the difference. -/
lemma apart_of_le (h : x + len ≤ y) (hm : y + len ≤ x + m) : Apart m len x y := by
  rcases Nat.eq_zero_or_pos len with hz | hlen
  · subst hz
    rcases Nat.eq_zero_or_pos m with hm0 | hpos
    · subst hm0
      obtain rfl : x = y := by omega
      exact ⟨by simp, by simp⟩
    · have hm' : (m : ℤ) ≠ 0 := by omega
      exact ⟨Int.emod_nonneg _ hm', Int.emod_nonneg _ hm'⟩
  · have hyx : ((y : ℤ) - x) % m = y - x := Int.emod_eq_of_lt (by omega) (by omega)
    have hxy : ((x : ℤ) - y) % m = x - y + m := by
      rw [← Int.add_emod_right]
      exact Int.emod_eq_of_lt (by omega) (by omega)
    exact ⟨by omega, by omega⟩

/-! ## Order -/

/-- From `x` the counter comes to `y` within half a turn. -/
def NotAfter (m : Nat) (x y : ℤ) : Prop := (y - x) % m * 2 < m

instance decidableNotAfter (m : Nat) (x y : ℤ) : Decidable (NotAfter m x y) :=
  inferInstanceAs (Decidable (_ < _))

/-- Only the distance counts. -/
lemma notAfter_congr {x y u v : ℤ} (h : y - x ≡ v - u [ZMOD m]) :
    NotAfter m x y ↔ NotAfter m u v := by
  rw [NotAfter, NotAfter, h]

/-- Without a turn of the counter in between, the order is that of the numbers. -/
lemma notAfter_of_le {x y : ℤ} (hle : x ≤ y) (hlt : (y - x) * 2 < m) : NotAfter m x y := by
  rw [NotAfter, Int.emod_eq_of_lt (by omega) (by omega)]
  exact hlt

/-- A number is within `r` of a whole number of turns exactly if from `r` before it is. -/
lemma exists_near_iff {m r x : ℤ} (hm : 0 < m) :
    (∃ k : ℤ, |x - k * m| ≤ r) ↔ (x + r) % m ≤ 2 * r := by
  constructor
  · rintro ⟨k, h⟩
    obtain ⟨hlo, hhi⟩ := abs_le.mp h
    have hturn : (x + r) % m = (x - k * m + r) % m := by
      rw [← Int.add_mul_emod_self_right (x - k * m + r) k m]
      ring_nf
    have hdiv := Int.emod_add_ediv_mul (x - k * m + r) m
    have hpos := Int.mul_nonneg (@Int.ediv_nonneg (x - k * m + r) m (by omega) hm.le) hm.le
    omega
  · intro h
    have hdiv := Int.emod_add_ediv_mul (x + r) m
    have hpos := Int.emod_nonneg (x + r) hm.ne'
    exact ⟨(x + r) / m, abs_le.mpr ⟨by omega, by omega⟩⟩

end UwbCore.Lib.Circle
