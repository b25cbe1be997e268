import UwbCore.Wcs.Basic

/-!
# Conversion around the epoch

A time shortly before the local epoch is, modulo 2^40, one almost a turn of the counter after it, and
the prediction is taken there. So two times on one side of the epoch are converted by the skew alone,
while two on different sides are the skew times a whole turn apart, which is a whole turn again only
for a skew that is a whole number, up to what the truncations cut off.
-/

namespace UwbCore.Wcs
open UwbCore.Lib

namespace Instance
variable (wcs : Instance)

/-- The skew as a ratio of the two clocks. -/
def rate : ℚ := wcs.states.skew / wcsDtu

/-- A local time that is `a` after the local epoch, or before it where `a` is negative. -/
structure Near (t : UInt64) (a : ℤ) : Prop where
  time : (t.toNat : ℤ) ≡ wcs.localEpoch.toNat + a [ZMOD 2 ^ 40]
  near : |a| ≤ 2 ^ 38

/-- Two times are as far apart for the master as the skew says, modulo 2^40 and up to a unit. -/
def Uniform (t1 t2 : UInt64) (a b : ℤ) : Prop :=
  ∃ x1 x2, wcs.uwbWcsLocalToMaster t1 = some x1 ∧ wcs.uwbWcsLocalToMaster t2 = some x2 ∧
    NearMultiple (2 ^ 40) 1 ((x2.toNat - x1.toNat) - wcs.rate * (b - a))

/-- The turns of the counter that a distance from the epoch is taken to be longer than it is. -/
def turns (a : ℤ) : ℤ := if a < 0 then 1 else 0

/-- Both predictions are numbers of 64 bits, and the skew makes whole turns of the turns that lie between
    the two times, up to what the truncations cut off. -/
structure Consistent (t1 t2 : UInt64) (a b : ℤ) : Prop where
  first : (toInt64 (wcs.predicted t1)).isSome = true
  second : (toInt64 (wcs.predicted t2)).isSome = true
  whole : NearMultiple (2 ^ 40) 1 (wcs.rate * ((turns b - turns a) * 2 ^ 40) -
    (cut (wcs.predicted t2) - cut (wcs.predicted t1)))

variable {wcs} {t t1 t2 : UInt64} {a b : ℤ}

/-- The difference of two near times. -/
lemma delta_of_near (h : wcs.Near t a) : ((wcs.delta t).toNat : ℤ) = a + turns a * 2 ^ 40 := by
  obtain ⟨htime, hnear⟩ := h
  obtain ⟨hlo, hhi⟩ := abs_le.mp hnear
  rw [delta_eq, turns]
  rw [Int.ModEq] at htime
  split
  case isTrue => omega
  case isFalse => omega

/-- Without drift the prediction is linear in the distance from the epoch, with its turns. -/
lemma predicted_of_near (hd : wcs.states.drift = 0) (h : wcs.Near t a) :
    wcs.predicted t = wcs.states.time + wcs.rate * (a + turns a * 2 ^ 40) := by
  have hdelta : ((wcs.delta t).toNat : ℚ) = a + turns a * 2 ^ 40 := by
    exact_mod_cast delta_of_near h
  rw [predicted_eq, hd, hdelta, rate]
  ring

/-- What is cut off a time of the master is a number of turns. -/
lemma ofInt_turns (n : ℤ) :
    ((UInt64.ofInt (n % 2 ^ 40)).toNat : ℚ) = n - (n / 2 ^ 40 : ℤ) * 2 ^ 40 := by
  have hn := ofInt_toNat (n % 2 ^ 40)
  have hz : ((UInt64.ofInt (n % 2 ^ 40)).toNat : ℤ) = n - n / 2 ^ 40 * 2 ^ 40 := by omega
  exact_mod_cast hz

/-- What the two results are apart, besides what the skew says: the turns, the parts cut off, and the
    turns of the results. -/
lemma apart_eq (hd : wcs.states.drift = 0) (h1 : wcs.Near t1 a) (h2 : wcs.Near t2 b) {n1 n2 : ℤ}
    (hn1 : n1 = trunc (wcs.predicted t1)) (hn2 : n2 = trunc (wcs.predicted t2)) :
    (((UInt64.ofInt (n2 % 2 ^ 40)).toNat - (UInt64.ofInt (n1 % 2 ^ 40)).toNat) -
      wcs.rate * (b - a) : ℚ) =
    wcs.rate * ((turns b - turns a) * 2 ^ 40) -
      (cut (wcs.predicted t2) - cut (wcs.predicted t1)) -
        ((n2 / 2 ^ 40 - n1 / 2 ^ 40 : ℤ) : ℚ) * 2 ^ 40 := by
  have hq1 : (n1 : ℚ) = wcs.predicted t1 - cut (wcs.predicted t1) := by
    rw [hn1, trunc_eq_sub_cut]
  have hq2 : (n2 : ℚ) = wcs.predicted t2 - cut (wcs.predicted t2) := by
    rw [hn2, trunc_eq_sub_cut]
  have hp1 := predicted_of_near hd h1
  have hp2 := predicted_of_near hd h2
  rw [ofInt_turns, ofInt_turns, Int.cast_sub]
  linear_combination hq2 - hq1 + hp2 - hp1

/-- Conversion is uniform around the epoch exactly for times that the turns between them keep
    consistent. -/
theorem uniform_iff (hv : wcs.valid = true) (hd : wcs.states.drift = 0) (h1 : wcs.Near t1 a)
    (h2 : wcs.Near t2 b) : wcs.Uniform t1 t2 a b ↔ wcs.Consistent t1 t2 a b := by
  rw [Uniform, localToMaster_of_valid hv, localToMaster_of_valid hv]
  constructor
  · rintro ⟨x1, x2, hx1, hx2, hnear⟩
    obtain ⟨n1, hn1, rfl⟩ := Option.map_eq_some_iff.mp hx1
    obtain ⟨n2, hn2, rfl⟩ := Option.map_eq_some_iff.mp hx2
    refine ⟨by rw [hn1, Option.isSome_some], by rw [hn2, Option.isSome_some], ?_⟩
    exact (nearMultiple_sub_iff _ (apart_eq hd h1 h2 (toInt64_eq hn1) (toInt64_eq hn2))).mp hnear
  · rintro ⟨hfirst, hsecond, hwhole⟩
    obtain ⟨n1, hn1⟩ := Option.isSome_iff_exists.mp hfirst
    obtain ⟨n2, hn2⟩ := Option.isSome_iff_exists.mp hsecond
    rw [hn1, hn2]
    refine ⟨_, _, rfl, rfl, ?_⟩
    exact (nearMultiple_sub_iff _ (apart_eq hd h1 h2 (toInt64_eq hn1) (toInt64_eq hn2))).mpr hwhole

/-- Two times on one side of the epoch are consistent, with a positive skew and a time of the master
    that is not negative. -/
lemma consistent_of_side (hd : wcs.states.drift = 0) (hside : turns a = turns b)
    (htime : 0 ≤ wcs.states.time) (hskew : 0 < wcs.states.skew)
    (hfirst : (toInt64 (wcs.predicted t1)).isSome = true)
    (hsecond : (toInt64 (wcs.predicted t2)).isSome = true) : wcs.Consistent t1 t2 a b := by
  refine ⟨hfirst, hsecond, nearMultiple_of_abs_le ?_⟩
  have hnonneg : ∀ t, 0 ≤ wcs.predicted t := by
    intro t
    rw [predicted_eq, hd, wcsDtu]
    positivity
  obtain ⟨hlo1, hhi1⟩ := cut_of_nonneg (hnonneg t1)
  obtain ⟨hlo2, hhi2⟩ := cut_of_nonneg (hnonneg t2)
  rw [hside, sub_self, zero_mul, mul_zero, abs_le]
  constructor
  · linarith
  · linarith

/-- A valid clock, fast by one part in a million, with its local epoch at 2^20. -/
def fastFrom : Instance := ⟨true, 0, 0x100000, ⟨0, 65536065536, 0⟩, 1 + 1 / 1000000⟩

/-- At the epoch and one unit after it the results are a unit apart. -/
theorem uniform_after : fastFrom.Uniform 0x100000 0x100001 0 1 :=
  have h1 : fastFrom.Near 0x100000 0 := ⟨by decide, by decide⟩
  have h2 : fastFrom.Near 0x100001 1 := ⟨by decide, by decide⟩
  (uniform_iff rfl rfl h1 h2).mpr
    (consistent_of_side rfl rfl (by decide +kernel) (by decide +kernel) (by decide +kernel)
      (by decide +kernel))

/-- A unit before the epoch, the result is off by about a million units. -/
theorem uniform_fails : ¬∀ (wcs : Instance) (t1 t2 : UInt64) (a b : ℤ), wcs.valid = true →
    wcs.states.drift = 0 → 0 < wcs.states.skew → wcs.Near t1 a → wcs.Near t2 b →
    wcs.Uniform t1 t2 a b := by
  intro h
  have hu := h fastFrom 0xFFFFF 0x100000 (-1) 0 rfl rfl (by decide +kernel)
    ⟨by decide, by decide⟩ ⟨by decide, by decide⟩
  obtain ⟨x1, x2, hx1, hx2, m, hm⟩ := hu
  have e1 : fastFrom.uwbWcsLocalToMaster 0xFFFFF = some 1099510 := by decide +kernel
  have e2 : fastFrom.uwbWcsLocalToMaster 0x100000 = some 0 := by decide +kernel
  rw [e1] at hx1
  rw [e2] at hx2
  cases hx1
  cases hx2
  have hrate : fastFrom.rate = 1 + 1 / 1000000 := by decide +kernel
  have h1 : ((1099510 : UInt64).toNat : ℚ) = 1099510 := rfl
  have h0 : ((0 : UInt64).toNat : ℚ) = 0 := rfl
  obtain ⟨hlo, hhi⟩ := abs_le.mp hm
  rw [h0, h1, hrate] at hlo hhi
  push_cast at hlo hhi
  rcases lt_or_ge m 0 with hneg | hpos
  · have hm1 : (m : ℚ) ≤ -1 := by exact_mod_cast Int.le_sub_one_of_lt hneg
    linarith
  · have hm0 : (0 : ℚ) ≤ m := by exact_mod_cast hpos
    linarith

end Instance

end UwbCore.Wcs
