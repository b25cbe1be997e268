import UwbCore.Rtdoa.Basic

/-!
# The times that the callbacks compute

The words of the callbacks as numbers: when a relay sends a copy, what a node takes off the time of its
reception, and how far it counts to its slot. The microseconds of the latter are cut to 16 bits by
a shift.
-/

namespace UwbCore.Rtdoa
open UwbCore.Lib

/-- The time of a delayed transmission, without its low bits. -/
lemma toNat_and_grain (x : UInt64) :
    (x &&& 0x000000FFFFFFFE00).toNat = x.toNat % 2 ^ 40 / 2 ^ 9 * 2 ^ 9 := by
  have hm : (0x000000FFFFFFFE00 : UInt64).toNat = 2 ^ 40 - 2 ^ 9 := by decide
  rw [UInt64.toNat_and, hm, Word.and_window _ (by decide)]

/-- The mask is the remainder by 2^40. -/
lemma toNat_and_counter (x : UInt64) : (x &&& 0xFFFFFFFFFF).toNat = x.toNat % 2 ^ 40 := by
  have hm : (0xFFFFFFFFFF : UInt64).toNat = 2 ^ 40 - 1 := by decide
  rw [UInt64.toNat_and, hm, Nat.and_two_pow_sub_one_eq_mod]

/-- Microseconds in units of the clock. -/
lemma toNat_shift16 {x : UInt64} (h : x.toNat < 2 ^ 32) : (x <<< 16).toNat = x.toNat * 2 ^ 16 := by
  have h16 : (16 : UInt64).toNat % 64 = 16 := rfl
  rw [UInt64.toNat_shiftLeft, h16, Nat.shiftLeft_eq]
  omega

variable {cfg : Config} {dev : Dev} {rx : Rx} {frame : Frame}

/-- A repetition is counted. -/
lemma rptCount_succ (h : rx.frame.rptCount < rx.frame.rptMax) :
    (cascade cfg dev rx).frame.rptCount.toNat = rx.frame.rptCount.toNat + 1 := by
  have hmax := rx.frame.rptMax.toNat_lt
  have hlt := UInt8.lt_iff_toNat_lt.mp h
  have hone : (1 : UInt8).toNat = 1 := rfl
  show (rx.frame.rptCount + 1).toNat = _
  rw [UInt8.toNat_add, hone]
  omega

/-- The time a relay leaves the antenna, on the counter. -/
lemma cascade_toNat (h : rx.frame.rptCount < rx.frame.rptMax) (ht : rx.rxtimestamp.toNat < 2 ^ 40) :
    ((cascade cfg dev rx).txTimestamp &&& 0xFFFFFFFFFF).toNat =
      ((rx.rxtimestamp.toNat +
          (rx.frame.rptCount.toNat + 1) * (cfg.ccpTxHoldoffDly.toNat * 2 ^ 16)) %
        2 ^ 40 / 2 ^ 9 * 2 ^ 9 + dev.txAntennaDelay.toNat) % 2 ^ 40 := by
  have hcount : (rx.frame.rptCount + 1).toUInt64.toNat = rx.frame.rptCount.toNat + 1 := by
    rw [UInt8.toNat_toUInt64]
    exact @rptCount_succ cfg dev rx h
  have hccp := cfg.ccpTxHoldoffDly.toNat_lt
  have hhold : (cfg.ccpTxHoldoffDly.toUInt64 <<< 16).toNat =
      cfg.ccpTxHoldoffDly.toNat * 2 ^ 16 := by
    rw [toNat_shift16, UInt16.toNat_toUInt64]
    rw [UInt16.toNat_toUInt64]
    omega
  have hlt := rx.frame.rptCount.toNat_lt
  have hprod : (rx.frame.rptCount.toNat + 1) * (cfg.ccpTxHoldoffDly.toNat * 2 ^ 16) ≤
      2 ^ 8 * 2 ^ 32 := Nat.mul_le_mul (by omega) (by omega)
  have hstart : (rx.rxtimestamp +
      (rx.frame.rptCount + 1).toUInt64 * (cfg.ccpTxHoldoffDly.toUInt64 <<< 16)).toNat =
      rx.rxtimestamp.toNat +
        (rx.frame.rptCount.toNat + 1) * (cfg.ccpTxHoldoffDly.toNat * 2 ^ 16) := by
    rw [UInt64.toNat_add, UInt64.toNat_mul, hcount, hhold]
    omega
  have ha := dev.txAntennaDelay.toNat_lt
  rw [toNat_and_counter]
  show ((_ &&& 0x000000FFFFFFFE00) + dev.txAntennaDelay.toUInt64).toNat % 2 ^ 40 = _
  rw [UInt64.toNat_add, UInt16.toNat_toUInt64, toNat_and_grain, hstart]
  omega

/-- The shift leaves the lower half of the microseconds, whatever the repetitions are. -/
lemma usecsToResponse_toInt (nslots : UInt16) (duration : UInt16) :
    ((usecsToResponse frame nslots cfg duration.toUInt32 <<< 16).toUInt64.toNat : ℤ) =
      (((frame.rptMax.toNat : ℤ) - frame.rptCount.toNat + 1) * cfg.txHoldoffDelay.toNat +
        nslots.toNat * (duration.toNat + cfg.txGuardDelay.toNat)) % 2 ^ 16 * 2 ^ 16 := by
  have cut (n : ℤ) : n % 2 ^ 32 ≡ n [ZMOD 2 ^ 16] := (Int.mod_modEq n (2 ^ 32)).of_dvd (by decide)
  have hrep : ((frame.rptMax.toUInt32 - frame.rptCount.toUInt32 + 1).toNat : ℤ) =
      ((frame.rptMax.toNat : ℤ) - frame.rptCount.toNat + 1) % 2 ^ 32 := by
    have hcount := frame.rptCount.toNat_lt
    have hone : (1 : UInt32).toNat = 1 := rfl
    rw [UInt32.toNat_add, UInt32.toNat_sub, UInt8.toNat_toUInt32, UInt8.toNat_toUInt32, hone]
    omega
  have husecs : ((usecsToResponse frame nslots cfg duration.toUInt32).toNat : ℤ) ≡
      ((frame.rptMax.toNat : ℤ) - frame.rptCount.toNat + 1) * cfg.txHoldoffDelay.toNat +
        nslots.toNat * (duration.toNat + cfg.txGuardDelay.toNat) [ZMOD 2 ^ 16] := by
    rw [usecsToResponse]
    generalize frame.rptMax.toUInt32 - frame.rptCount.toUInt32 + 1 = rep at hrep ⊢
    rw [UInt32.toNat_add, UInt32.toNat_mul, UInt32.toNat_mul, UInt32.toNat_add,
      UInt16.toNat_toUInt32, UInt16.toNat_toUInt32]
    push_cast
    rw [hrep]
    exact (cut _).trans
      (((cut _).trans ((cut _).mul_right _)).add ((cut _).trans ((cut _).mul_left _)))
  have h16 : (16 : UInt32).toNat % 32 = 16 := rfl
  rw [← husecs, UInt32.toNat_toUInt64, UInt32.toNat_shiftLeft, h16, Nat.shiftLeft_eq]
  omega

/-- The same for a request whose repetitions are not used up. -/
lemma usecsToResponse_toNat (h : frame.rptCount.toNat ≤ frame.rptMax.toNat) (nslots : UInt16)
    (duration : UInt16) :
    (usecsToResponse frame nslots cfg duration.toUInt32 <<< 16).toUInt64.toNat =
      ((frame.rptMax.toNat - frame.rptCount.toNat + 1) * cfg.txHoldoffDelay.toNat +
        nslots.toNat * (duration.toNat + cfg.txGuardDelay.toNat)) % 2 ^ 16 * 2 ^ 16 := by
  have hint := @usecsToResponse_toInt cfg frame nslots duration
  zify [h]
  exact hint

/-- The slots are counted from 1. -/
lemma slotIdx_toNat (h : frame.slotModulus ≠ 0) :
    (slotIdx dev frame).toNat = dev.slotId.toNat % frame.slotModulus.toNat + 1 := by
  have h0 : frame.slotModulus.toNat ≠ (0 : UInt8).toNat := mt UInt8.toNat_inj.mp h
  have hlt := Nat.mod_lt dev.slotId.toNat (Nat.pos_of_ne_zero h0)
  have hmod := frame.slotModulus.toNat_lt
  have hone : (1 : UInt16).toNat = 1 := rfl
  rw [slotIdx, UInt16.toNat_toUInt8, UInt16.toNat_add, UInt16.toNat_mod, UInt8.toNat_toUInt16, hone]
  omega

/-- The time of the request that a node computes, where it is not negative. -/
lemma compensated_spec (rxtimestamp : UInt64) :
    let repeats := frame.rptCount.toNat * cfg.txHoldoffDelay.toNat % 2 ^ 32 * 2 ^ 16
    (repeats ≤ rxtimestamp.toNat → ∃ t, compensated cfg frame rxtimestamp = some t ∧
      t.toNat = rxtimestamp.toNat - repeats) ∧
    (¬repeats ≤ rxtimestamp.toNat → compensated cfg frame rxtimestamp = none) := by
  intro repeats
  have hdly : ((frame.rptCount.toUInt32 * cfg.txHoldoffDelay).toUInt64 <<< 16).toNat = repeats := by
    have hmul : (frame.rptCount.toUInt32 * cfg.txHoldoffDelay).toUInt64.toNat =
        frame.rptCount.toNat * cfg.txHoldoffDelay.toNat % 2 ^ 32 := by
      rw [UInt32.toNat_toUInt64, UInt32.toNat_mul, UInt8.toNat_toUInt32]
    rw [toNat_shift16, hmul]
    rw [hmul]
    exact Nat.mod_lt _ (by decide)
  rw [← hdly, ← UInt64.le_iff_toNat_le, compensated]
  by_cases h0 : frame.rptCount = 0
  case pos =>
    have hzero : (frame.rptCount.toUInt32 * cfg.txHoldoffDelay).toUInt64 <<< 16 = 0 := by
      rw [h0]
      simp
    rw [if_pos h0, hzero]
    exact ⟨fun _ => ⟨_, rfl, rfl⟩, fun hn => absurd (UInt64.zero_le) hn⟩
  case neg =>
    rw [if_neg h0]
    dsimp only
    constructor
    · intro hle
      rw [if_pos hle]
      exact ⟨_, rfl, UInt64.toNat_sub_of_le _ _ hle⟩
    · intro hle
      rw [if_neg hle]

/-- A copy that is sent `m` microseconds after `t`, in the grain of the delayed start. -/
lemma sent_grain (t m a : Nat) :
    ((t + m * 2 ^ 16) % 2 ^ 40 / 2 ^ 9 * 2 ^ 9 + a) % 2 ^ 40 / 2 ^ 9 * 2 ^ 9 ≡
      t / 2 ^ 9 * 2 ^ 9 + (m * 2 ^ 16 + a / 2 ^ 9 * 2 ^ 9) [MOD 2 ^ 40] := by
  unfold Nat.ModEq
  omega

/-- A delayed start, in its grain. -/
lemma start_grain {t m : Nat} (h : m * 2 ^ 16 ≤ t) (v : Nat) :
    (t - m * 2 ^ 16 + v * 2 ^ 16) % 2 ^ 64 % 2 ^ 40 / 2 ^ 9 * 2 ^ 9 + m * 2 ^ 16 ≡
      t / 2 ^ 9 * 2 ^ 9 + v * 2 ^ 16 [MOD 2 ^ 40] := by
  unfold Nat.ModEq
  omega

end UwbCore.Rtdoa
