import UwbCore.Rng.Basic

/-!
# Times of flight

The formulas of `rng_math.c` over 32-bit time stamps, in exact arithmetic: the integer part is that
of the source, with its widths and masks, and the division is rational. A division by zero is the
not-a-number answer, `none`.
-/

namespace UwbCore.Rng
open UwbCore.Lib

/-- `MASK32` -/
def mask32 (x : BitVec 64) : BitVec 64 := x &&& 0xFFFFFFFF

/-- `calc_tof_ss` -/
def calcTofSs (response request : BitVec 32) (transmission reception : BitVec 64) (skew : ℚ) : ℚ :=
  let t1R : BitVec 64 := (response - request).setWidth 64
  let t1r := mask32 (transmission - reception)
  (t1R.toNat - t1r.toNat * (1 - skew)) / 2

/-- `calc_tof_ds` -/
def calcTofDs (firstResponse firstRequest : BitVec 32) (firstTransmission firstReception : BitVec 64)
    (response request : BitVec 32) (transmission reception : BitVec 64) : Option ℚ :=
  let t1R : BitVec 64 := (firstResponse - firstRequest).setWidth 64
  let t1r := mask32 (firstTransmission - firstReception)
  let t2R : BitVec 64 := (response - request).setWidth 64
  let t2r := mask32 (transmission - reception)
  let nom := t1R * t2R - t1r * t2r
  let denom := t1R + t2R + t1r + t2r
  if denom = 0 then none else some (nom.toInt / denom.toInt)

/-- `calc_tof_sym_ss` -/
def calcTofSymSs (response request : BitVec 32) (transmission reception : BitVec 64) : BitVec 32 :=
  let t1R : BitVec 64 := (response - request).setWidth 64
  ((t1R - (transmission - reception)) / 2).setWidth 32

/-- `calc_tof_sym_ds` -/
def calcTofSymDs (firstResponse firstRequest : BitVec 32)
    (firstTransmission firstReception : BitVec 64) (response request : BitVec 32)
    (transmission reception : BitVec 64) : BitVec 32 :=
  let t1R : BitVec 64 := (firstResponse - firstRequest).setWidth 64
  let t1r := mask32 (firstTransmission - firstReception)
  let t2R : BitVec 64 := (response - request).setWidth 64
  let t2r := mask32 (transmission - reception)
  ((t1R - t1r + t2R - t2r) >>> 2).setWidth 32

/-- `uwb_rng_twr_to_tof`, with the clock offset ratio of a carrier integrator value. -/
def uwbRngTwrToTof (cfg : Cfg) (skew : BitVec 32 → ℚ) (frames : Table (TwrFrame (BitVec 32)))
    (idx : UInt16) : Option ℚ :=
  let firstFrame := frames (cfg.ring.prev idx)
  let frame := frames (cfg.ring.cur idx)
  if frame.code.isSingleSided then
    some (calcTofSs frame.response frame.request (frame.transmission.setWidth 64)
      (frame.reception.setWidth 64) (skew frame.carrierIntegrator))
  else if frame.code.isDoubleSided then
    calcTofDs firstFrame.response firstFrame.request (firstFrame.transmission.setWidth 64)
      (firstFrame.reception.setWidth 64) frame.response frame.request
      (frame.transmission.setWidth 64) (frame.reception.setWidth 64)
  else some 0

/-- A difference of 64-bit stamps under the mask is the 32-bit difference. -/
lemma mask32_sub (x y : BitVec 32) :
    mask32 (x.setWidth 64 - y.setWidth 64) = (x - y).setWidth 64 := by
  apply BitVec.eq_of_toNat_eq
  have hx := x.isLt
  have hy := y.isLt
  have hm : (0xFFFFFFFF : BitVec 64).toNat = 2 ^ 32 - 1 := by decide
  rw [mask32, BitVec.toNat_and, hm, Nat.and_two_pow_sub_one_eq_mod]
  simp only [BitVec.toNat_sub, BitVec.toNat_setWidth]
  omega

/-- A word widened. -/
lemma setWidth_of_toNat {x : BitVec 32} {k : Nat} (h : x.toNat = k) :
    x.setWidth 64 = BitVec.ofNat 64 k := by rw [← h, BitVec.ofNat_toNat]

/-- The numerator does not wrap: it is below `2 ^ 62` as each interval is below `2 ^ 31`. -/
lemma nom_eq {tau d1 d2 : Nat} (h1 : 2 * tau + d1 < 2 ^ 31) (h2 : 2 * tau + d2 < 2 ^ 31) :
    (BitVec.ofNat 64 (2 * tau + d1) * BitVec.ofNat 64 (2 * tau + d2) -
      BitVec.ofNat 64 d1 * BitVec.ofNat 64 d2).toInt = (tau * (4 * tau + 2 * d1 + 2 * d2) : Nat) := by
  have hb : (2 * tau + d1) * (2 * tau + d2) < 2 ^ 31 * 2 ^ 31 := Nat.mul_lt_mul'' h1 h2
  have hs : (2 * tau + d1) * (2 * tau + d2) = d1 * d2 + tau * (4 * tau + 2 * d1 + 2 * d2) := by
    ring
  have hn : BitVec.ofNat 64 (2 * tau + d1) * BitVec.ofNat 64 (2 * tau + d2) -
      BitVec.ofNat 64 d1 * BitVec.ofNat 64 d2 =
      BitVec.ofNat 64 (tau * (4 * tau + 2 * d1 + 2 * d2)) := by
    rw [← BitVec.ofNat_mul, ← BitVec.ofNat_mul, hs, BitVec.ofNat_add,
      BitVec.add_comm, BitVec.add_sub_cancel]
  have hlt : tau * (4 * tau + 2 * d1 + 2 * d2) < 2 ^ 62 := by omega
  rw [hn, BitVec.toInt_eq_toNat_of_lt]
  · rw [BitVec.toNat_ofNat, Nat.mod_eq_of_lt (by omega)]
  · rw [BitVec.toNat_ofNat, Nat.mod_eq_of_lt (by omega)]
    omega

/-- The sum of the four durations. -/
lemma denom_eq (a b c d : Nat) (h : a + b + c + d < 2 ^ 33) :
    (BitVec.ofNat 64 a + BitVec.ofNat 64 b + BitVec.ofNat 64 c + BitVec.ofNat 64 d).toInt =
      (a + b + c + d : Nat) := by
  rw [← BitVec.ofNat_add, ← BitVec.ofNat_add, ← BitVec.ofNat_add, BitVec.toInt_eq_toNat_of_lt]
  · rw [BitVec.toNat_ofNat, Nat.mod_eq_of_lt (by omega)]
  · rw [BitVec.toNat_ofNat, Nat.mod_eq_of_lt (by omega)]
    omega

/-- The double-sided formula over the intervals of an exchange: the round trips are `2 * tau` longer
    than the delays of the peer. -/
lemma calcTofDs_eq {r1 q1 t1 p1 r2 q2 t2 p2 : BitVec 32} {tau d1 d2 : Nat}
    (hR1 : (r1 - q1).toNat = 2 * tau + d1) (hr1 : (t1 - p1).toNat = d1)
    (hR2 : (r2 - q2).toNat = 2 * tau + d2) (hr2 : (t2 - p2).toNat = d2)
    (h1 : 2 * tau + d1 < 2 ^ 31) (h2 : 2 * tau + d2 < 2 ^ 31) :
    calcTofDs r1 q1 (t1.setWidth 64) (p1.setWidth 64) r2 q2 (t2.setWidth 64) (p2.setWidth 64) =
      if tau + d1 + d2 = 0 then none else some (tau : ℚ) := by
  have hd := denom_eq (2 * tau + d1) (2 * tau + d2) d1 d2 (by omega)
  have hz : (0 : BitVec 64).toInt = 0 := by decide
  simp only [calcTofDs, mask32_sub, setWidth_of_toNat hR1, setWidth_of_toNat hr1,
    setWidth_of_toNat hR2, setWidth_of_toNat hr2, nom_eq h1 h2, hd, ← BitVec.toInt_inj, hz]
  split
  case isTrue h =>
    rw [if_pos (by omega)]
  case isFalse h =>
    rw [if_neg (by omega)]
    have hne : ((4 * tau + 2 * d1 + 2 * d2 : Nat) : ℚ) ≠ 0 := by
      rw [Nat.cast_ne_zero]
      omega
    have hdn : 2 * tau + d1 + (2 * tau + d2) + d1 + d2 = 4 * tau + 2 * d1 + 2 * d2 := by ring
    rw [hdn, Int.cast_natCast, Int.cast_natCast, Nat.cast_mul, mul_div_cancel_right₀ _ hne]

/-- The time stamps of a message and its answer: two of the sender's clock and two of the peer's. -/
structure Stamps where
  request : BitVec 32
  reception : BitVec 32
  transmission : BitVec 32
  response : BitVec 32

/-- An ideal exchange: sent at `a` on one clock, heard a flight time later at what the other clock calls
    `b`, answered after the delay `d`, and heard another flight time later. -/
def Stamps.ideal (a b : BitVec 32) (tau d : Nat) : Stamps where
  request := a
  reception := b
  transmission := b + .ofNat 32 d
  response := a + .ofNat 32 (2 * tau + d)

/-- The intervals of an exchange do not depend on where the clocks stand. -/
lemma Stamps.ideal_intervals (a b : BitVec 32) {tau d : Nat} (h : 2 * tau + d < 2 ^ 31) :
    ((ideal a b tau d).response - (ideal a b tau d).request).toNat = 2 * tau + d ∧
      ((ideal a b tau d).transmission - (ideal a b tau d).reception).toNat = d := by
  constructor
  · change (a + BitVec.ofNat 32 (2 * tau + d) - a).toNat = _
    rw [BitVec.add_comm, BitVec.add_sub_cancel, BitVec.toNat_ofNat]
    omega
  · change (b + BitVec.ofNat 32 d - b).toNat = _
    rw [BitVec.add_comm, BitVec.add_sub_cancel, BitVec.toNat_ofNat]
    omega

/-- `calc_tof_ss` over the intervals of an exchange. -/
lemma calcTofSs_eq {r q t p : BitVec 32} {tau d : Nat} (hR : (r - q).toNat = 2 * tau + d)
    (hr : (t - p).toNat = d) : calcTofSs r q (t.setWidth 64) (p.setWidth 64) 0 = tau := by
  simp only [calcTofSs, mask32_sub, BitVec.toNat_setWidth, hR, hr]
  rw [Nat.mod_eq_of_lt (by omega), Nat.mod_eq_of_lt (by omega)]
  push_cast
  ring

/-- A sum without one of its terms, in words. -/
lemma ofNat_add_sub (x d : Nat) :
    BitVec.ofNat 64 (x + d) - BitVec.ofNat 64 d = BitVec.ofNat 64 x := by
  rw [BitVec.ofNat_add, BitVec.add_sub_cancel]

/-- `calc_tof_sym_ds` over the intervals of an exchange. -/
lemma calcTofSymDs_eq {r1 q1 t1 p1 r2 q2 t2 p2 : BitVec 32} {tau d1 d2 : Nat}
    (hR1 : (r1 - q1).toNat = 2 * tau + d1) (hr1 : (t1 - p1).toNat = d1)
    (hR2 : (r2 - q2).toNat = 2 * tau + d2) (hr2 : (t2 - p2).toNat = d2)
    (h1 : 2 * tau + d1 < 2 ^ 31) :
    calcTofSymDs r1 q1 (t1.setWidth 64) (p1.setWidth 64) r2 q2 (t2.setWidth 64) (p2.setWidth 64) =
      .ofNat 32 tau := by
  have hsum : 2 * tau + (2 * tau + d2) = 4 * tau + d2 := by ring
  simp only [calcTofSymDs, mask32_sub, setWidth_of_toNat hR1, setWidth_of_toNat hr1,
    setWidth_of_toNat hR2, setWidth_of_toNat hr2]
  rw [ofNat_add_sub, ← BitVec.ofNat_add, hsum, ofNat_add_sub]
  apply BitVec.eq_of_toNat_eq
  rw [BitVec.toNat_setWidth, BitVec.toNat_ushiftRight, BitVec.toNat_ofNat, BitVec.toNat_ofNat,
    Nat.shiftRight_eq_div_pow, Nat.mod_eq_of_lt (show 4 * tau < 2 ^ 64 by omega)]
  congr 1
  omega

/-- `calc_tof_sym_ss` over the intervals of an exchange in which the peer's counter does not wrap: its
    difference of 64-bit words is not cut back to 32 bits. -/
lemma calcTofSymSs_eq {r q t p : BitVec 32} {tau d : Nat} (hR : (r - q).toNat = 2 * tau + d)
    (hr : (t - p).toNat = d) (hle : p ≤ t) (h : 2 * tau + d < 2 ^ 31) :
    calcTofSymSs r q (t.setWidth 64) (p.setWidth 64) = .ofNat 32 tau := by
  have hd : t.setWidth 64 - p.setWidth 64 = BitVec.ofNat 64 d := by
    apply BitVec.eq_of_toNat_eq
    have ht := t.isLt
    rw [BitVec.le_def] at hle
    rw [BitVec.toNat_sub] at hr
    rw [BitVec.toNat_sub, BitVec.toNat_setWidth, BitVec.toNat_setWidth, BitVec.toNat_ofNat]
    omega
  have h2 : (2 : BitVec 64).toNat = 2 := rfl
  simp only [calcTofSymSs, setWidth_of_toNat hR, hd, ofNat_add_sub]
  apply BitVec.eq_of_toNat_eq
  rw [BitVec.toNat_setWidth, BitVec.toNat_udiv, BitVec.toNat_ofNat, BitVec.toNat_ofNat, h2,
    Nat.mod_eq_of_lt (show 2 * tau < 2 ^ 64 by omega)]
  congr 1
  omega

namespace Stamps
variable (first second : Stamps)

/-- `calc_tof_ss` on the stamps of one message and its answer, for equal clocks. -/
def tofSs : ℚ :=
  calcTofSs first.response first.request (first.transmission.setWidth 64)
    (first.reception.setWidth 64) 0

/-- `calc_tof_ds` on the stamps of two. -/
def tofDs : Option ℚ :=
  calcTofDs first.response first.request (first.transmission.setWidth 64)
    (first.reception.setWidth 64) second.response second.request
    (second.transmission.setWidth 64) (second.reception.setWidth 64)

/-- `calc_tof_sym_ss` -/
def tofSymSs : BitVec 32 :=
  calcTofSymSs first.response first.request (first.transmission.setWidth 64)
    (first.reception.setWidth 64)

/-- `calc_tof_sym_ds` -/
def tofSymDs : BitVec 32 :=
  calcTofSymDs first.response first.request (first.transmission.setWidth 64)
    (first.reception.setWidth 64) second.response second.request
    (second.transmission.setWidth 64) (second.reception.setWidth 64)

end Stamps

/-- Wherever the four counters stand, the formulas return the time of flight of an ideal exchange.
    `calc_tof_ds` has no answer when nothing takes any time. -/
theorem tof_ideal (tau d1 d2 : Nat) (a b a' b' : BitVec 32) (h1 : 2 * tau + d1 < 2 ^ 31)
    (h2 : 2 * tau + d2 < 2 ^ 31) :
    (Stamps.ideal a b tau d1).tofSs = tau ∧
      (Stamps.ideal a b tau d1).tofDs (.ideal a' b' tau d2) =
        (if tau + d1 + d2 = 0 then none else some (tau : ℚ)) ∧
      (b ≤ b + .ofNat 32 d1 → (Stamps.ideal a b tau d1).tofSymSs = .ofNat 32 tau) ∧
      (Stamps.ideal a b tau d1).tofSymDs (.ideal a' b' tau d2) = .ofNat 32 tau := by
  obtain ⟨hR1, hr1⟩ := Stamps.ideal_intervals a b h1
  obtain ⟨hR2, hr2⟩ := Stamps.ideal_intervals a' b' h2
  exact ⟨calcTofSs_eq hR1 hr1, calcTofDs_eq hR1 hr1 hR2 hr2 h1 h2,
    fun hle => calcTofSymSs_eq hR1 hr1 hle h1, calcTofSymDs_eq hR1 hr1 hR2 hr2 h1⟩

/-- An exchange in which three counters wrap. -/
theorem tof_ideal_wrapped :
    calcTofSs 50 0xFFFFFFF0 100 80 0 = 23 ∧
      calcTofDs 50 0xFFFFFFF0 100 80 0x4E 0xFFFFFFE6 0x30 0xFFFFFFF6 = some 23 := by
  obtain ⟨hs, hd, -⟩ := tof_ideal 23 20 58 0xFFFFFFF0 80 0xFFFFFFE6 0xFFFFFFF6 (by decide)
    (by decide)
  rw [if_neg (by decide)] at hd
  exact ⟨hs, hd⟩

/-- An exchange that takes no time has no double-sided time of flight, and half the range of the
    counter is added by `calc_tof_sym_ss` when the peer's counter wraps. -/
theorem tof_ideal_fails :
    calcTofDs 0 0 0 0 0 0 0 0 ≠ some 0 ∧ calcTofSymSs 20 0 9 0xFFFFFFFF ≠ 5 ∧
      Stamps.ideal 0 0 0 0 = ⟨0, 0, 0, 0⟩ ∧ Stamps.ideal 0 0xFFFFFFFF 5 10 = ⟨0, 0xFFFFFFFF, 9, 20⟩ := by
  refine ⟨?_, by decide, rfl, rfl⟩
  rw [calcTofDs, if_pos (by decide)]
  exact fun h => by cases h

end UwbCore.Rng
