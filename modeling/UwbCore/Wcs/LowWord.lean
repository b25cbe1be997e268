import UwbCore.Wcs.Basic

/-!
# Reads of the low word

The reads that give the low 32 bits of a time of the master convert the low 32 bits of the local time.
The conversion counts the time since the epoch modulo 2^40, so the low word of a local time stands for
a time that lies a multiple of 2^32 away. The result is that of the full read exactly if the prediction
gains a multiple of 2^32 in between.
-/

namespace UwbCore.Wcs
open UwbCore.Lib

/-- The times that a device can be asked for. -/
structure Dev where
  systime : UInt64
  rxtime : UInt64
  txtime : UInt64

def Dev.uwbReadSystimeLo32 (inst : Dev) : UInt32 := inst.systime.toUInt32
def Dev.uwbReadRxtimeLo32 (inst : Dev) : UInt32 := inst.rxtime.toUInt32
def Dev.uwbReadTxtimeLo32 (inst : Dev) : UInt32 := inst.txtime.toUInt32

namespace Instance
variable (wcs : Instance) (inst : Dev)

/-- A read of the low word of a time of the master. -/
def readLoMaster (lo32 : UInt32) : Option UInt32 :=
  (wcs.uwbWcsLocalToMaster lo32.toUInt64).map fun t => (t &&& 0xFFFFFFFF).toUInt32

def uwbWcsReadSystimeMaster : Option UInt64 := wcs.uwbWcsLocalToMaster inst.systime
def uwbWcsReadRxtimeMaster : Option UInt64 := wcs.uwbWcsLocalToMaster inst.rxtime
def uwbWcsReadTxtimeMaster : Option UInt64 := wcs.uwbWcsLocalToMaster inst.txtime

def uwbWcsReadSystimeLoMaster : Option UInt32 := wcs.readLoMaster inst.uwbReadSystimeLo32
def uwbWcsReadRxtimeLoMaster : Option UInt32 := wcs.readLoMaster inst.uwbReadRxtimeLo32
def uwbWcsReadTxtimeLoMaster : Option UInt32 := wcs.readLoMaster inst.uwbReadTxtimeLo32

/-- A low word is that of a full time, and both are defined. -/
def IsLowWord (full : Option UInt64) (lo : Option UInt32) : Prop :=
  ∃ t, full = some t ∧ lo = some t.toUInt32

/-- The reads of the low words agree with the full ones. -/
structure LowWords : Prop where
  systime : IsLowWord (wcs.uwbWcsReadSystimeMaster inst) (wcs.uwbWcsReadSystimeLoMaster inst)
  rxtime : IsLowWord (wcs.uwbWcsReadRxtimeMaster inst) (wcs.uwbWcsReadRxtimeLoMaster inst)
  txtime : IsLowWord (wcs.uwbWcsReadTxtimeMaster inst) (wcs.uwbWcsReadTxtimeLoMaster inst)

/-- The local time that the low word of a time stands for. -/
def lowTime (t : UInt64) : UInt64 := t.toUInt32.toUInt64

/-- What the prediction gains when the time since the epoch is that of the low word. -/
def gain (t : UInt64) : ℚ :=
  let d := (wcs.delta t).toNat / wcsDtu
  let lo := (wcs.delta (lowTime t)).toNat / wcsDtu
  (lo - d) * (wcs.states.skew + wcs.states.drift * (lo + d) / 2)

/-- The upper bits of a time do not matter: there are none, or the prediction gains a multiple of
    2^32 by them, up to what the truncations cut off. -/
def GainsTurns (t : UInt64) : Prop :=
  t.toNat % 2 ^ 40 < 2 ^ 32 ∨ ∃ m : ℤ,
    wcs.gain t = m * 2 ^ 32 + (cut (wcs.predicted (lowTime t)) - cut (wcs.predicted t))

/-- The predictions for a time and for its low word are numbers of 64 bits, and the upper bits do not
    matter. -/
structure LowEnough (t : UInt64) : Prop where
  full : (toInt64 (wcs.predicted t)).isSome = true
  low : (toInt64 (wcs.predicted (lowTime t))).isSome = true
  gains : wcs.GainsTurns t

variable {wcs inst} {t : UInt64}

/-- The low word is the remainder. -/
lemma lowTime_toNat : (lowTime t).toNat = t.toNat % 2 ^ 32 := by
  rw [lowTime, UInt32.toNat_toUInt64, UInt64.toNat_toUInt32]

/-- The gain is that of the predictions. -/
lemma gain_eq : wcs.gain t = wcs.predicted (lowTime t) - wcs.predicted t := by
  rw [predicted_eq, predicted_eq, gain]
  ring

/-- The mask is the low word. -/
lemma toUInt32_and (x : UInt64) : (x &&& 0xFFFFFFFF).toUInt32 = x.toUInt32 := by
  apply UInt32.toBitVec_inj.mp
  exact Word.setWidth_and_window (m := 32) x.toBitVec 0xFFFFFFFF#64 rfl

/-- The low word of the time of the master. -/
lemma readLoMaster_eq : wcs.readLoMaster t.toUInt32 =
    (wcs.uwbWcsLocalToMaster (lowTime t)).map UInt64.toUInt32 := by
  rw [readLoMaster]
  congr 1
  funext x
  exact toUInt32_and x

/-- The low word of what is left of a number in 40 bits. -/
lemma toUInt32_ofInt (n : ℤ) : ((UInt64.ofInt (n % 2 ^ 40)).toUInt32.toNat : ℤ) = n % 2 ^ 32 := by
  have hn := ofInt_toNat (n % 2 ^ 40)
  rw [UInt64.toNat_toUInt32]
  omega

/-- Equal low words are equal remainders. -/
lemma toUInt32_ofInt_inj {n n' : ℤ} :
    (UInt64.ofInt (n' % 2 ^ 40)).toUInt32 = (UInt64.ofInt (n % 2 ^ 40)).toUInt32 ↔
      n' ≡ n [ZMOD 2 ^ 32] := by
  rw [← UInt32.toNat_inj, Int.ModEq, ← toUInt32_ofInt n, ← toUInt32_ofInt n', Nat.cast_inj]

/-- Without a valid clock the low words agree. -/
lemma isLowWord_of_invalid (hv : wcs.valid = false) :
    IsLowWord (wcs.uwbWcsLocalToMaster t) (wcs.readLoMaster t.toUInt32) := by
  refine ⟨_, localToMaster_of_invalid hv, ?_⟩
  rw [readLoMaster_eq, localToMaster_of_invalid hv, Option.map_some, Option.some.injEq,
    toUInt32_ofInt_inj, lowTime_toNat, Int.ModEq]
  omega

/-- The predictions agree in their low words exactly if the upper bits do not matter. -/
lemma gainsTurns_iff :
    trunc (wcs.predicted (lowTime t)) ≡ trunc (wcs.predicted t) [ZMOD 2 ^ 32] ↔ wcs.GainsTurns t := by
  have hlo := trunc_eq_sub_cut (wcs.predicted (lowTime t))
  have hfull := trunc_eq_sub_cut (wcs.predicted t)
  rw [GainsTurns, gain_eq]
  constructor
  · intro h
    obtain ⟨m, hm⟩ := h.symm.dvd
    have hmq : (trunc (wcs.predicted (lowTime t)) - trunc (wcs.predicted t) : ℚ) = 2 ^ 32 * m := by
      exact_mod_cast hm
    refine .inr ⟨m, ?_⟩
    linarith
  · rintro (hlt | ⟨m, hm⟩)
    · have hsame : wcs.delta (lowTime t) = wcs.delta t := by
        apply UInt64.toNat_inj.mp
        have h1 := @delta_eq wcs t
        have h2 := @delta_eq wcs (lowTime t)
        rw [lowTime_toNat] at h2
        omega
      rw [predicted, predicted, hsame]
    · have hmq : (trunc (wcs.predicted (lowTime t)) - trunc (wcs.predicted t) : ℚ) = 2 ^ 32 * m := by
        linarith
      have hmz : trunc (wcs.predicted (lowTime t)) - trunc (wcs.predicted t) = 2 ^ 32 * m := by
        exact_mod_cast hmq
      exact (Int.modEq_iff_dvd.mpr ⟨m, hmz⟩).symm

/-- With a valid clock a low word agrees exactly if both reads are defined and the upper bits do not
    matter. -/
lemma isLowWord_iff (hv : wcs.valid = true) :
    IsLowWord (wcs.uwbWcsLocalToMaster t) (wcs.readLoMaster t.toUInt32) ↔ wcs.LowEnough t := by
  rw [readLoMaster_eq, localToMaster_of_valid hv, localToMaster_of_valid hv, Option.map_map]
  constructor
  · rintro ⟨x, hfull, hlo⟩
    obtain ⟨n, hn, rfl⟩ := Option.map_eq_some_iff.mp hfull
    obtain ⟨n', hn', heq⟩ := Option.map_eq_some_iff.mp hlo
    refine ⟨by rw [hn, Option.isSome_some], by rw [hn', Option.isSome_some], ?_⟩
    rw [← gainsTurns_iff, ← toInt64_eq hn, ← toInt64_eq hn', ← toUInt32_ofInt_inj]
    exact heq
  · rintro ⟨hfull, hlo, hgain⟩
    obtain ⟨n, hn⟩ := Option.isSome_iff_exists.mp hfull
    obtain ⟨n', hn'⟩ := Option.isSome_iff_exists.mp hlo
    rw [hn, hn']
    refine ⟨_, rfl, ?_⟩
    rw [← gainsTurns_iff, ← toInt64_eq hn, ← toInt64_eq hn', ← toUInt32_ofInt_inj] at hgain
    rw [Option.map_some, Function.comp_apply, hgain]

/-- The reads of the low words agree with the full ones exactly if the clock is not valid, or the upper
    bits of each time do not matter to the prediction. -/
theorem lowWords_iff (wcs : Instance) (inst : Dev) : wcs.LowWords inst ↔
    wcs.valid = false ∨
      wcs.LowEnough inst.systime ∧ wcs.LowEnough inst.rxtime ∧ wcs.LowEnough inst.txtime := by
  cases hv : wcs.valid with
  | false =>
    refine iff_of_true ⟨?_, ?_, ?_⟩ (.inl rfl)
    · exact isLowWord_of_invalid hv
    · exact isLowWord_of_invalid hv
    · exact isLowWord_of_invalid hv
  | true =>
    constructor
    · intro h
      right
      exact ⟨(isLowWord_iff hv).mp h.systime, (isLowWord_iff hv).mp h.rxtime,
        (isLowWord_iff hv).mp h.txtime⟩
    · rintro (h | ⟨hsys, hrx, htx⟩)
      · cases h
      · exact ⟨(isLowWord_iff hv).mpr hsys, (isLowWord_iff hv).mpr hrx, (isLowWord_iff hv).mpr htx⟩

/-- A valid clock, fast by one part in a million, with its epochs at 0. -/
def fastClock : Instance := ⟨true, 0, 0, ⟨0, 65536065536, 0⟩, 1 + 1 / 1000000⟩

/-- At 2^39 the full read gives 2^39 + 549755, but the read of the low word gives 0. -/
theorem lowWords_fails : ¬∀ (wcs : Instance) (inst : Dev), wcs.LowWords inst := by
  intro h
  obtain ⟨x, hfull, hlo⟩ := (h fastClock ⟨0x8000000000, 0, 0⟩).systime
  have hx : fastClock.uwbWcsReadSystimeMaster ⟨0x8000000000, 0, 0⟩ = some 549756363643 := by
    decide +kernel
  have hl : fastClock.uwbWcsReadSystimeLoMaster ⟨0x8000000000, 0, 0⟩ = some 0 := by
    decide +kernel
  rw [hx] at hfull
  rw [hl] at hlo
  cases hfull
  exact absurd hlo (by decide)

end Instance

end UwbCore.Wcs
