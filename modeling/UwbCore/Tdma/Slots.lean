import UwbCore.Wcs.Basic

/-!
# The windows of the slots

`tdma_rx_slot_start` and `tdma_tx_slot_start` give the time of the transceiver at which a slot begins.
The offset of a slot from the epoch goes below zero for the slots that begin before the receiver has
been turned on, and is then, as an unsigned number, a turn of 64 bits more than it should be. The skew
of a valid clock is applied to that number.
-/

namespace UwbCore.Tdma
open UwbCore.Lib
open UwbCore.Wcs (lo40 ofInt_toNat lo40_toNat)

/-- `uwb_usecs_to_dwt_usecs` -/
def uwbUsecsToDwtUsecs (t : ℚ) : ℚ := t / (0x10000 / (128 * 499.2))

/-- What the start of a slot depends on: the number of slots, the period of the CCP in UWB microseconds,
    the local epoch, the clock, and the times that the receiver and a preamble take. -/
structure Superframe where
  nslots : UInt16
  period : UInt32
  localEpoch : UInt64
  wcs : Wcs.Instance
  timeToRxStable : UInt8
  shrDuration : UInt16

namespace Superframe
variable (s : Superframe)

/-- The local `slot_period`. -/
def slotPeriod : UInt64 := (s.period.toUInt64 <<< 16) / s.nslots.toUInt64

/-- The time it takes to turn on the receiver. -/
def rxStable : UInt64 := s.timeToRxStable.toUInt64 <<< 16

/-- The local `slot_offset`. -/
def slotOffset (idx : ℚ) : Option UInt64 :=
  (toInt64 (idx * s.slotPeriod.toNat)).map fun n => UInt64.ofInt n - s.rxStable

/-- C `tdma_rx_slot_start`. -/
def tdmaRxSlotStart (idx : ℚ) : Option UInt64 :=
  (s.slotOffset idx).bind fun slotOffset =>
    (s.wcs.uwbWcsDtuTimeAdjust slotOffset).map fun adjusted => s.localEpoch + adjusted

/-- The duration of the preamble, in whole UWB microseconds. -/
def preamble : UInt64 := UInt64.ofInt ⌈uwbUsecsToDwtUsecs s.shrDuration.toNat⌉ <<< 16

/-- C `tdma_tx_slot_start`. -/
def tdmaTxSlotStart (idx : ℚ) : Option UInt64 :=
  (s.tdmaRxSlotStart idx).map fun dxTime => dxTime + s.preamble

/-- A length of time on the scale of the clock. -/
def scaled (x : ℚ) : ℚ := if s.wcs.valid then s.wcs.normalizedSkew * x else x

/-- The windows of the slots tile the superframe, modulo 2^40: each begins a slot period after the one
    before it, the first one ahead of the epoch, and a transmission a preamble later than a
    reception. -/
structure Tiles : Prop where
  next : ∀ k < s.nslots.toNat, ∃ a b : UInt64,
    s.tdmaRxSlotStart k = some a ∧ s.tdmaRxSlotStart (k + 1 : ℕ) = some b ∧
      NearMultiple (2 ^ 40) 2 ((b.toNat - a.toNat) - s.scaled s.slotPeriod.toNat)
  first : ∃ a : UInt64, s.tdmaRxSlotStart 0 = some a ∧
    NearMultiple (2 ^ 40) 1 ((a.toNat - s.localEpoch.toNat) + s.scaled s.rxStable.toNat)
  tx : ∀ k < s.nslots.toNat, ∃ a b : UInt64,
    s.tdmaRxSlotStart k = some a ∧ s.tdmaTxSlotStart k = some b ∧ b - a = s.preamble

/-! ## Offsets -/

/-- The offset of a slot from the epoch. -/
def offset (k : ℕ) : ℤ := k * s.slotPeriod.toNat - s.rxStable.toNat

/-- A slot that begins before the epoch. -/
def Early (k : ℕ) : Prop := s.offset k < 0

instance decidableEarly (k : ℕ) : Decidable (s.Early k) := inferInstanceAs (Decidable (_ < _))

/-- The number that the skew is applied to: the offset, with a turn of 64 bits for an early slot. -/
def unsigned (k : ℕ) : ℤ := s.offset k + if s.Early k then 2 ^ 64 else 0

/-- The offset of a slot as the skew has it. -/
def skewed (k : ℕ) : ℚ := s.wcs.normalizedSkew * s.unsigned k

/-- The skewed offsets are numbers of 64 bits, and where a slot is early the skew makes whole turns of
    40 bits of the turn of 64 bits, up to what is cut off: for the first slot, and between the last
    early one and the next. -/
structure WholeTurns : Prop where
  inRange : ∀ k ≤ s.nslots.toNat, (toInt64 (s.skewed k)).isSome = true
  first : s.Early 0 → NearMultiple (2 ^ 40) 1 (s.wcs.normalizedSkew * 2 ^ 64 - cut (s.skewed 0))
  last : ∀ k < s.nslots.toNat, s.Early k → ¬s.Early (k + 1) →
    NearMultiple (2 ^ 40) 2 (s.wcs.normalizedSkew * 2 ^ 64 +
      (cut (s.skewed (k + 1)) - cut (s.skewed k)))

end Superframe

/-! ## Values -/

namespace Superframe
variable {s : Superframe} {k : ℕ}

/-- The period of a slot in units of the clock. -/
lemma slotPeriod_toNat : s.slotPeriod.toNat = s.period.toNat * 2 ^ 16 / s.nslots.toNat := by
  have hshift : (s.period.toUInt64 <<< 16).toNat = s.period.toNat * 2 ^ 16 :=
    Word.toNat_widen_shiftLeft (k := 16) s.period.toBitVec (by decide)
  rw [slotPeriod, UInt64.toNat_div, hshift, UInt16.toNat_toUInt64]

/-- The slots end with the period. -/
lemma mul_slotPeriod_lt (hk : k ≤ s.nslots.toNat) : k * s.slotPeriod.toNat < 2 ^ 48 := by
  have hperiod : s.period.toNat < 2 ^ 32 := s.period.toNat_lt
  calc k * s.slotPeriod.toNat ≤ s.nslots.toNat * s.slotPeriod.toNat := Nat.mul_le_mul_right _ hk
    _ = s.nslots.toNat * (s.period.toNat * 2 ^ 16 / s.nslots.toNat) := by rw [slotPeriod_toNat]
    _ ≤ s.period.toNat * 2 ^ 16 := Nat.mul_div_le _ _
    _ < 2 ^ 48 := by omega

/-- The time to turn on the receiver is short. -/
lemma rxStable_lt : s.rxStable.toNat < 2 ^ 24 := by
  have hshift : s.rxStable.toNat = s.timeToRxStable.toNat * 2 ^ 16 :=
    Word.toNat_widen_shiftLeft (k := 16) s.timeToRxStable.toBitVec (by decide)
  have hlt : s.timeToRxStable.toNat < 2 ^ 8 := s.timeToRxStable.toNat_lt
  omega

/-- The offset of a slot as the code computes it. -/
lemma slotOffset_eq (hk : k ≤ s.nslots.toNat) :
    s.slotOffset k = some (UInt64.ofInt (s.offset k)) := by
  have hlt := mul_slotPeriod_lt hk
  have hcast : ((k : ℚ) * s.slotPeriod.toNat) = ((k * s.slotPeriod.toNat : ℕ) : ℤ) := by
    push_cast
    rfl
  have hdef : toInt64 (k * s.slotPeriod.toNat) = some ((k * s.slotPeriod.toNat : ℕ) : ℤ) := by
    rw [hcast, toInt64, trunc_intCast]
    exact if_pos (by omega)
  rw [slotOffset, hdef, Option.map_some, Option.some.injEq, offset, ← Nat.cast_mul]
  have hp := ofInt_toNat ((k * s.slotPeriod.toNat : ℕ) : ℤ)
  have hd := ofInt_toNat (((k * s.slotPeriod.toNat : ℕ) : ℤ) - s.rxStable.toNat)
  apply UInt64.toNat_inj.mp
  rw [UInt64.toNat_sub]
  generalize k * s.slotPeriod.toNat = p at hp hd hlt
  have hrx := s.rxStable.toNat_lt
  omega

/-- Its range. -/
lemma offset_range (hk : k ≤ s.nslots.toNat) : -2 ^ 24 < s.offset k ∧ s.offset k < 2 ^ 48 := by
  have hlt := mul_slotPeriod_lt hk
  have hrx := @rxStable_lt s
  rw [offset, ← Nat.cast_mul]
  generalize k * s.slotPeriod.toNat = p at hlt
  omega

/-- The offset as an unsigned number. -/
lemma unsigned_eq (hk : k ≤ s.nslots.toNat) :
    ((UInt64.ofInt (s.offset k)).toNat : ℤ) = s.unsigned k := by
  have hrange := offset_range hk
  have hval := ofInt_toNat (s.offset k)
  rw [unsigned]
  split
  case isTrue h =>
    rw [Early] at h
    omega
  case isFalse h =>
    rw [Early] at h
    omega

/-- A time after the epoch, up to its turns. -/
lemma epoch_add (e : UInt64) (v : ℤ) :
    ∃ m : ℤ, ((e + lo40 (UInt64.ofInt v)).toNat : ℚ) = e.toNat + v - m * 2 ^ 40 := by
  have hv := ofInt_toNat v
  have hlo := lo40_toNat (UInt64.ofInt v)
  have hz : ∃ m : ℤ, ((e + lo40 (UInt64.ofInt v)).toNat : ℤ) = e.toNat + v - m * 2 ^ 40 := by
    refine ⟨(e.toNat + v - (e + lo40 (UInt64.ofInt v)).toNat) / 2 ^ 40, ?_⟩
    rw [UInt64.toNat_add]
    omega
  obtain ⟨m, hm⟩ := hz
  exact ⟨m, by exact_mod_cast hm⟩

/-- The start of a slot without a valid clock. -/
lemma start_of_invalid (hv : s.wcs.valid = false) (hk : k ≤ s.nslots.toNat) :
    s.tdmaRxSlotStart k = some (s.localEpoch + lo40 (UInt64.ofInt (s.offset k))) := by
  have hne : ¬s.wcs.valid = true := by simp [hv]
  rw [tdmaRxSlotStart, slotOffset_eq hk, Option.bind_some, Wcs.Instance.uwbWcsDtuTimeAdjust,
    if_neg hne, Option.map_some, Option.map_some]

/-- The start of a slot with a valid clock, where it is defined. -/
lemma start_of_valid (hv : s.wcs.valid = true) (hk : k ≤ s.nslots.toNat) :
    s.tdmaRxSlotStart k =
      (toInt64 (s.skewed k)).map fun v => s.localEpoch + lo40 (UInt64.ofInt v) := by
  have hnum : ((UInt64.ofInt (s.offset k)).toNat : ℚ) = s.unsigned k := by
    exact_mod_cast unsigned_eq hk
  rw [tdmaRxSlotStart, slotOffset_eq hk, Option.bind_some, Wcs.Instance.uwbWcsDtuTimeAdjust,
    if_pos hv, hnum, Option.map_map, Option.map_map]
  rfl

/-! ## Tiling -/

/-- Two starts, up to their turns. -/
lemma apart (e : UInt64) (v w : ℤ) (x : ℚ) (c : ℚ) :
    NearMultiple (2 ^ 40) c
      (((e + lo40 (UInt64.ofInt w)).toNat - (e + lo40 (UInt64.ofInt v)).toNat) - x) ↔
    NearMultiple (2 ^ 40) c (w - v - x) := by
  obtain ⟨m, hv⟩ := epoch_add e v
  obtain ⟨n, hw⟩ := epoch_add e w
  apply nearMultiple_sub_iff (n - m)
  rw [hv, hw]
  push_cast
  ring

/-- The first start, up to its turns. -/
lemma apart_epoch (e : UInt64) (v : ℤ) (x : ℚ) (c : ℚ) :
    NearMultiple (2 ^ 40) c (((e + lo40 (UInt64.ofInt v)).toNat - e.toNat) + x) ↔
    NearMultiple (2 ^ 40) c (v + x) := by
  obtain ⟨m, hv⟩ := epoch_add e v
  apply nearMultiple_sub_iff m
  rw [hv]
  ring

/-- From a slot to the next. -/
lemma offset_succ : s.offset (k + 1) = s.offset k + s.slotPeriod.toNat := by
  rw [offset, offset]
  push_cast
  ring

/-- The first slot. -/
lemma offset_zero : s.offset 0 = -s.rxStable.toNat := by
  rw [offset]
  push_cast
  ring

/-- A transmission begins a preamble later than a reception. -/
lemma tx_of_rx {a : UInt64} (h : s.tdmaRxSlotStart k = some a) :
    ∃ a b : UInt64, s.tdmaRxSlotStart k = some a ∧ s.tdmaTxSlotStart k = some b ∧
      b - a = s.preamble := by
  refine ⟨a, a + s.preamble, h, ?_, ?_⟩
  · rw [tdmaTxSlotStart, h, Option.map_some]
  · rw [UInt64.add_comm, UInt64.add_sub_cancel]

/-- Without a valid clock the slots tile the superframe. -/
lemma tiles_of_invalid (hv : s.wcs.valid = false) : s.Tiles := by
  have hscaled : ∀ x, s.scaled x = x := by
    intro x
    rw [scaled, hv]
    exact if_neg Bool.false_ne_true
  refine ⟨fun k hk => ?_, ?_, fun k hk => ?_⟩
  · refine ⟨_, _, start_of_invalid hv hk.le, start_of_invalid hv hk, ?_⟩
    rw [apart, hscaled, offset_succ, Int.cast_add, Int.cast_natCast, add_sub_cancel_left, sub_self]
    exact nearMultiple_zero zero_le_two
  · refine ⟨_, start_of_invalid hv (Nat.zero_le _), ?_⟩
    rw [apart_epoch, hscaled, offset_zero, Int.cast_neg, Int.cast_natCast, neg_add_cancel]
    exact nearMultiple_zero zero_le_one
  · exact tx_of_rx (start_of_invalid hv hk.le)

/-- What is left of the skewed offset of a slot. -/
lemma trunc_skewed : (trunc (s.skewed k) : ℚ) = s.wcs.normalizedSkew *
    (s.offset k + if s.Early k then 2 ^ 64 else 0) - cut (s.skewed k) := by
  rw [trunc_eq_sub_cut, skewed, unsigned]
  push_cast
  rfl

/-- A slot begins a slot period after the one before it, except where the turn of 64 bits ends. -/
lemma next_iff (hv : s.wcs.valid = true) :
    NearMultiple (2 ^ 40) 2
      (trunc (s.skewed (k + 1)) - trunc (s.skewed k) - s.scaled s.slotPeriod.toNat) ↔
    (s.Early k → ¬s.Early (k + 1) → NearMultiple (2 ^ 40) 2
      (s.wcs.normalizedSkew * 2 ^ 64 + (cut (s.skewed (k + 1)) - cut (s.skewed k)))) := by
  have hscaled : s.scaled s.slotPeriod.toNat = s.wcs.normalizedSkew * s.slotPeriod.toNat := if_pos hv
  have hsucc : (s.offset (k + 1) : ℚ) = s.offset k + s.slotPeriod.toNat := by
    exact_mod_cast offset_succ
  have hk := @trunc_skewed s k
  have hk1 := @trunc_skewed s (k + 1)
  obtain ⟨hlo, hhi⟩ := abs_lt.mp (abs_cut_lt (s.skewed k))
  obtain ⟨hlo1, hhi1⟩ := abs_lt.mp (abs_cut_lt (s.skewed (k + 1)))
  -- on one side of the epoch only the parts cut off are between the two
  have hside : (s.Early k ↔ s.Early (k + 1)) → NearMultiple (2 ^ 40) 2
      (trunc (s.skewed (k + 1)) - trunc (s.skewed k) - s.scaled s.slotPeriod.toNat) := by
    intro hiff
    have heq : (trunc (s.skewed (k + 1)) - trunc (s.skewed k) - s.scaled s.slotPeriod.toNat : ℚ) =
        cut (s.skewed k) - cut (s.skewed (k + 1)) := by
      rw [hk, hk1, hscaled, hsucc]
      simp only [hiff]
      ring
    apply nearMultiple_of_abs_le
    rw [heq, abs_le]
    constructor
    · linarith
    · linarith
  by_cases hearly : s.Early k
  case pos =>
    by_cases hnext : s.Early (k + 1)
    case pos => exact iff_of_true (hside (iff_of_true hearly hnext)) fun _ h => absurd hnext h
    case neg =>
      rw [if_pos hearly] at hk
      rw [if_neg hnext] at hk1
      have heq : (trunc (s.skewed (k + 1)) - trunc (s.skewed k) - s.scaled s.slotPeriod.toNat : ℚ) =
          -(s.wcs.normalizedSkew * 2 ^ 64 + (cut (s.skewed (k + 1)) - cut (s.skewed k))) := by
        rw [hk, hk1, hscaled, hsucc]
        ring
      rw [heq, nearMultiple_neg_iff]
      constructor
      · exact fun h _ _ => h
      · exact fun h => h hearly hnext
  case neg =>
    have hnext : ¬s.Early (k + 1) := by
      rw [Early, offset_succ]
      rw [Early] at hearly
      omega
    exact iff_of_true (hside (iff_of_false hearly hnext)) fun h => absurd h hearly

/-- The first slot is ahead of the epoch, but for the turn of 64 bits. -/
lemma first_iff (hv : s.wcs.valid = true) :
    NearMultiple (2 ^ 40) 1 (trunc (s.skewed 0) + s.scaled s.rxStable.toNat) ↔
    (s.Early 0 → NearMultiple (2 ^ 40) 1
      (s.wcs.normalizedSkew * 2 ^ 64 - cut (s.skewed 0))) := by
  have hscaled : s.scaled s.rxStable.toNat = s.wcs.normalizedSkew * s.rxStable.toNat := if_pos hv
  have hzero : (s.offset 0 : ℚ) = -s.rxStable.toNat := by
    exact_mod_cast offset_zero
  have h0 := @trunc_skewed s 0
  by_cases hearly : s.Early 0
  case pos =>
    have heq : (trunc (s.skewed 0) + s.scaled s.rxStable.toNat : ℚ) =
        s.wcs.normalizedSkew * 2 ^ 64 - cut (s.skewed 0) := by
      rw [h0, hscaled, hzero, if_pos hearly]
      ring
    rw [heq]
    constructor
    · exact fun h _ => h
    · exact fun h => h hearly
  case neg =>
    have heq : (trunc (s.skewed 0) + s.scaled s.rxStable.toNat : ℚ) = -cut (s.skewed 0) := by
      rw [h0, hscaled, hzero, if_neg hearly]
      ring
    refine iff_of_true (nearMultiple_of_abs_le ?_) fun h => absurd h hearly
    rw [heq, abs_neg]
    exact (abs_cut_lt _).le

/-- The start of a slot with a valid clock is that of the skewed offset, which is a number of 64 bits. -/
lemma start_some (hv : s.wcs.valid = true) (hk : k ≤ s.nslots.toNat) {a : UInt64}
    (h : s.tdmaRxSlotStart k = some a) : (toInt64 (s.skewed k)).isSome = true ∧
      a = s.localEpoch + lo40 (UInt64.ofInt (trunc (s.skewed k))) := by
  rw [start_of_valid hv hk] at h
  obtain ⟨v, hdef, rfl⟩ := Option.map_eq_some_iff.mp h
  rw [hdef, toInt64_eq hdef]
  exact ⟨Option.isSome_some, rfl⟩

/-- The start of a slot in range. -/
lemma start_of_isSome (hv : s.wcs.valid = true) (hk : k ≤ s.nslots.toNat)
    (h : (toInt64 (s.skewed k)).isSome = true) :
    s.tdmaRxSlotStart k = some (s.localEpoch + lo40 (UInt64.ofInt (trunc (s.skewed k)))) := by
  obtain ⟨v, hdef⟩ := Option.isSome_iff_exists.mp h
  rw [start_of_valid hv hk, hdef, ← toInt64_eq hdef]
  rfl

/-- With a valid clock the slots tile the superframe exactly if the skew makes whole turns. -/
lemma tiles_of_valid (hv : s.wcs.valid = true) : s.Tiles ↔ s.WholeTurns := by
  have hrx0 : s.tdmaRxSlotStart 0 = s.tdmaRxSlotStart (0 : ℕ) := by rw [Nat.cast_zero]
  constructor
  · rintro ⟨hnext, ⟨a, ha, hfirst⟩, -⟩
    rw [hrx0] at ha
    obtain ⟨hin0, rfl⟩ := start_some hv (Nat.zero_le _) ha
    rw [apart_epoch] at hfirst
    refine ⟨fun k hk => ?_, (first_iff hv).mp hfirst, fun k hk => ?_⟩
    · cases k with
      | zero => exact hin0
      | succ k =>
        obtain ⟨_, b, -, hb, -⟩ := hnext k hk
        exact (start_some hv hk hb).1
    · obtain ⟨a, b, ha, hb, hab⟩ := hnext k hk
      obtain ⟨-, rfl⟩ := start_some hv hk.le ha
      obtain ⟨-, rfl⟩ := start_some hv hk hb
      rw [apart] at hab
      exact (next_iff hv).mp hab
  · rintro ⟨hin, hfirst, hlast⟩
    have hstart := fun k hk => start_of_isSome hv hk (hin k hk)
    refine ⟨fun k hk => ?_, ?_, fun k hk => tx_of_rx (hstart k hk.le)⟩
    · refine ⟨_, _, hstart k hk.le, hstart (k + 1) hk, ?_⟩
      rw [apart]
      exact (next_iff hv).mpr (hlast k hk)
    · refine ⟨_, hrx0.trans (hstart 0 (Nat.zero_le _)), ?_⟩
      rw [apart_epoch]
      exact (first_iff hv).mpr hfirst

/-- The windows of the slots tile the superframe exactly if the clock is not valid, or the skew makes
    whole turns of the turns of 64 bits. -/
theorem tiles_iff (s : Superframe) : s.Tiles ↔ s.wcs.valid = false ∨ s.WholeTurns := by
  cases hv : s.wcs.valid with
  | false => exact iff_of_true (tiles_of_invalid hv) (.inl rfl)
  | true => simp only [tiles_of_valid hv, Bool.true_eq_false, false_or]

/-- Without a time to turn on the receiver no slot is early. -/
lemma wholeTurns_of_stable (hrx : s.timeToRxStable = 0)
    (hin : ∀ k ≤ s.nslots.toNat, (toInt64 (s.skewed k)).isSome = true) : s.WholeTurns := by
  have hzero : s.rxStable.toNat = 0 := by
    rw [rxStable, hrx]
    rfl
  have hnot : ∀ k, ¬s.Early k := by
    intro k
    rw [Early, offset, hzero, Nat.cast_zero, sub_zero, ← Nat.cast_mul]
    exact not_lt.mpr (Int.natCast_nonneg _)
  exact ⟨hin, fun h => absurd h (hnot 0), fun k _ h => absurd h (hnot k)⟩

/-- Eight slots in a second, a receiver that takes 6 microseconds, and a valid clock that is fast by one
    part in a million. -/
def eightSlots : Superframe :=
  ⟨8, 0x100000, 0x1000000, ⟨true, 0, 0x1000000, ⟨0, 65536065536, 0⟩, 1 + 1 / 1000000⟩, 6, 100⟩

/-- The offset of slot 0 becomes a number beyond 2^64, which is not one of 64 bits. -/
theorem tiles_fails : ¬∀ s : Superframe, 1 ≤ s.nslots → 0 < s.wcs.normalizedSkew → s.Tiles := by
  intro h
  obtain ⟨a, ha, -⟩ := (h eightSlots (by decide) (by decide +kernel)).first
  have hnone : eightSlots.tdmaRxSlotStart 0 = none := by decide +kernel
  rw [hnone] at ha
  cases ha

end Superframe

end UwbCore.Tdma
