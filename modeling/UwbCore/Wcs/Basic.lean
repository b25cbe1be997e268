import UwbCore.Lib.Trunc
import UwbCore.Lib.Word

/-!
# Wireless clock synchronisation

The conversions of `uwb_wcs.c` from times of the local clock to times of the clock master. The estimate
of the master's clock is a polynomial in the time since the local epoch (`uwb_wcs_prediction`), which is
counted modulo 2^40. Floating point is exact arithmetic with the truncations of the code, and a cast
of a number that the integer type does not have has no result.
-/

namespace UwbCore.Wcs
open UwbCore.Lib

/-- `UWB_WCS_DTU` -/
def wcsDtu : ℚ := 128e6 * 512

/-- C `uwb_wcs_states_t` -/
structure States where
  time : ℚ
  skew : ℚ
  drift : ℚ

def States.array (x : States) : List ℚ := [x.time, x.skew, x.drift]

/-- C `struct uwb_wcs_instance`: the state of the synchronisation, and the time stamps of both
    epochs. -/
structure Instance where
  valid : Bool
  masterEpoch : UInt64
  localEpoch : UInt64
  states : States
  normalizedSkew : ℚ

/-- The low 40 bits of a time, `lo` of a time stamp. -/
def lo40 (t : UInt64) : UInt64 := t &&& 0x0FFFFFFFFFF

/-- C `uwb_wcs_prediction`. -/
def uwbWcsPrediction (x : List ℚ) (T : ℚ) : ℚ :=
  (List.zipWith (· * ·) [1, T, T * T / 2] x).foldl (· + ·) 0

namespace Instance
variable (wcs : Instance)

/-- C `uwb_wcs_dtu_time_adjust`. Outside of a kernel `DPL_FLOAT64_I64_TO_F64` converts the unsigned
    number. -/
def uwbWcsDtuTimeAdjust (dtuTime : UInt64) : Option UInt64 :=
  let adjusted := if wcs.valid then
    (toInt64 (wcs.normalizedSkew * dtuTime.toNat)).map UInt64.ofInt else some dtuTime
  adjusted.map lo40

/-- The local `delta`: the time since the local epoch. -/
def delta (dtuTime : UInt64) : UInt64 := lo40 (lo40 dtuTime - lo40 wcs.localEpoch)

/-- The estimate of the master's clock. -/
def predicted (dtuTime : UInt64) : ℚ :=
  uwbWcsPrediction wcs.states.array ((wcs.delta dtuTime).toNat / wcsDtu)

/-- C `uwb_wcs_local_to_master64`. -/
def uwbWcsLocalToMaster64 (dtuTime : UInt64) : Option UInt64 :=
  let masterLo40 := if wcs.valid then (toInt64 (wcs.predicted dtuTime)).map UInt64.ofInt
    else some (lo40 wcs.masterEpoch + wcs.delta dtuTime)
  masterLo40.map fun lo => (wcs.masterEpoch &&& 0xFFFFFF0000000000) + lo

/-- C `uwb_wcs_local_to_master`. -/
def uwbWcsLocalToMaster (dtuTime : UInt64) : Option UInt64 :=
  (wcs.uwbWcsLocalToMaster64 dtuTime).map lo40

end Instance

/-! ## Values -/

/-- The low 40 bits are the remainder. -/
lemma lo40_toNat (t : UInt64) : (lo40 t).toNat = t.toNat % 2 ^ 40 := by
  rw [lo40, ← UInt64.toNat_toBitVec]
  show (t.toBitVec &&& _).toNat = _
  rw [Word.toNat_and_window (k := 0) (m := 40) _ _ (by decide) rfl, Nat.pow_zero, Nat.div_one,
    Nat.mul_one]
  rfl

/-- An integer in 64 bits. -/
lemma ofInt_toNat (a : ℤ) : ((UInt64.ofInt a).toNat : ℤ) = a % 2 ^ 64 := by
  rw [UInt64.ofInt, UInt64.toNat_ofNat']
  omega

/-- The upper part of a time has no low bits. -/
lemma hi_toNat (t : UInt64) : (t &&& 0xFFFFFF0000000000).toNat % 2 ^ 40 = 0 := by
  rw [← UInt64.toNat_toBitVec]
  show (t.toBitVec &&& _).toNat % _ = _
  rw [Word.toNat_and_window (k := 40) (m := 64) _ _ (by decide) rfl, Nat.mul_mod_left]

namespace Instance
variable {wcs : Instance} {dtuTime : UInt64}

/-- The time since the epoch, as a number. -/
lemma delta_eq : ((wcs.delta dtuTime).toNat : ℤ) =
    ((dtuTime.toNat : ℤ) - wcs.localEpoch.toNat) % 2 ^ 40 := by
  rw [delta, lo40_toNat, UInt64.toNat_sub, lo40_toNat, lo40_toNat]
  omega

/-- The prediction, written out. -/
lemma predicted_eq : wcs.predicted dtuTime = wcs.states.time +
    wcs.states.skew * ((wcs.delta dtuTime).toNat / wcsDtu) +
    wcs.states.drift * ((wcs.delta dtuTime).toNat / wcsDtu) ^ 2 / 2 := by
  simp only [predicted, uwbWcsPrediction, States.array, List.zipWith_cons_cons, List.zipWith_nil_left,
    List.foldl_cons, List.foldl_nil]
  ring

/-- The times of a valid clock: the prediction, cut to 40 bits. -/
lemma localToMaster_of_valid (hv : wcs.valid = true) : wcs.uwbWcsLocalToMaster dtuTime =
    (toInt64 (wcs.predicted dtuTime)).map fun n => UInt64.ofInt (n % 2 ^ 40) := by
  rw [uwbWcsLocalToMaster, uwbWcsLocalToMaster64, if_pos hv, Option.map_map, Option.map_map]
  congr 1
  funext n
  have hhi := hi_toNat wcs.masterEpoch
  have hn := ofInt_toNat n
  have hcut := ofInt_toNat (n % 2 ^ 40)
  apply UInt64.toNat_inj.mp
  simp only [Function.comp_apply]
  rw [lo40_toNat, UInt64.toNat_add]
  omega

/-- The times of a clock that is not valid: those of the master go on as the local ones do. -/
lemma localToMaster_of_invalid (hv : wcs.valid = false) : wcs.uwbWcsLocalToMaster dtuTime =
    some (UInt64.ofInt (((wcs.masterEpoch.toNat : ℤ) + (dtuTime.toNat - wcs.localEpoch.toNat)) %
      2 ^ 40)) := by
  have hne : ¬wcs.valid = true := by simp [hv]
  rw [uwbWcsLocalToMaster, uwbWcsLocalToMaster64, if_neg hne, Option.map_some, Option.map_some]
  congr 1
  have hhi := hi_toNat wcs.masterEpoch
  have hd := @delta_eq wcs dtuTime
  have hcut := ofInt_toNat (((wcs.masterEpoch.toNat : ℤ) +
    (dtuTime.toNat - wcs.localEpoch.toNat)) % 2 ^ 40)
  apply UInt64.toNat_inj.mp
  rw [lo40_toNat, UInt64.toNat_add, UInt64.toNat_add, lo40_toNat]
  omega

end Instance

end UwbCore.Wcs
