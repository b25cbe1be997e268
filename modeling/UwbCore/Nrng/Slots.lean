import UwbCore.Lib.Bits

/-!
# Slots of a multi-responder request

The bit counting of `slots.c`: how many responders a request addresses, and which place a responder
has among them.
-/

namespace UwbCore.Nrng
open UwbCore.Lib

/-- `slot_mode_t` -/
inductive SlotMode where
  | remaining | position
  deriving DecidableEq, Repr

/-- The loop of `NumberOfBits`: each round clears the lowest bit that is set. -/
def numberOfBitsLoop : Nat → Nat → Nat → Nat
  | 0, _, count => count
  | fuel + 1, n, count => if n = 0 then count else numberOfBitsLoop fuel (n &&& (n - 1)) (count + 1)

/-- `NumberOfBits`, in at most as many rounds as a 32-bit word has bits. -/
def numberOfBits (n : Nat) : Nat := numberOfBitsLoop 32 n 0

/-- The loop of `BitPosition`. -/
def bitPositionLoop : Nat → Nat → Nat → Nat
  | 0, _, count => count
  | fuel + 1, n, count => if n = 0 then count else bitPositionLoop fuel (n >>> 1) (count + 1)

/-- `BitPosition`, counted from 1. -/
def bitPosition (n : Nat) : Nat := bitPositionLoop 32 n 0

/-- `(uint32_t)~0UL << idx`. A shift by the whole width is not defined in C; `wide` is what the machine
    makes of it. -/
def onesShiftLeft (wide : UInt32) (idx : Nat) : Nat :=
  if idx < 32 then (2 ^ 32 - 1) <<< idx % 2 ^ 32 else wide.toNat

/-- `BitIndex` -/
def bitIndex (nslotsMask n : Nat) (mode : SlotMode) (wide : UInt32 := 0) : Nat :=
  let idx := bitPosition n
  let slotMask := (2 ^ 32 - 1) >>> (32 - idx)
  let remainingMask := onesShiftLeft wide idx
  match mode with
  | .position => (numberOfBits (nslotsMask &&& slotMask) + (2 ^ 32 - 1)) % 2 ^ 32
  | .remaining => (numberOfBits (nslotsMask &&& remainingMask) + (2 ^ 32 - 1)) % 2 ^ 32

/-- The loop counts the bits. -/
lemma numberOfBitsLoop_eq {fuel n : Nat} (count : Nat) (h : n < 2 ^ 32) (hf : rank n 32 ≤ fuel) :
    numberOfBitsLoop fuel n count = count + rank n 32 := by
  induction fuel generalizing n count with
  | zero => rw [Nat.le_zero.mp hf, numberOfBitsLoop, Nat.add_zero]
  | succ fuel ih =>
    rw [numberOfBitsLoop]
    split
    case isTrue h0 => rw [h0, Bits.rank_zero_left, Nat.add_zero]
    case isFalse h0 =>
      have hc := Bits.rank_clear_low h h0
      rw [ih (count + 1) (Nat.lt_of_le_of_lt Nat.and_le_left h) (by omega)]
      omega

/-- `NumberOfBits` counts the bits of its word. -/
lemma numberOfBits_eq {n : Nat} (h : n < 2 ^ 32) : numberOfBits n = rank n 32 := by
  rw [numberOfBits, numberOfBitsLoop_eq 0 h (Bits.rank_le n 32), Nat.zero_add]

/-- The loop counts up to the bit. -/
lemma bitPositionLoop_two_pow {i fuel : Nat} (count : Nat) (h : i < fuel) :
    bitPositionLoop fuel (2 ^ i) count = count + i + 1 := by
  induction i generalizing fuel count with
  | zero =>
    obtain ⟨fuel, rfl⟩ := Nat.exists_eq_succ_of_ne_zero (Nat.ne_of_gt h)
    rw [bitPositionLoop, if_neg (by decide)]
    cases fuel <;> rfl
  | succ i ih =>
    obtain ⟨fuel, rfl⟩ := Nat.exists_eq_succ_of_ne_zero (Nat.ne_of_gt (Nat.zero_lt_of_lt h))
    have hs : 2 ^ (i + 1) >>> 1 = 2 ^ i := by
      rw [Nat.shiftRight_eq_div_pow, Nat.pow_succ]
      exact Nat.mul_div_cancel _ (by decide)
    rw [bitPositionLoop, if_neg (Nat.ne_of_gt (Nat.two_pow_pos _)), hs, ih _ (by omega)]
    omega

/-- The ones below position `k` of a 32-bit word. -/
lemma ones_shiftRight {k : Nat} (h : k ≤ 32) : (2 ^ 32 - 1) >>> (32 - k) = 2 ^ k - 1 := by
  apply Nat.eq_of_testBit_eq
  intro i
  rw [Nat.testBit_shiftRight, Nat.testBit_two_pow_sub_one, Nat.testBit_two_pow_sub_one]
  congr 1
  apply propext
  omega

/-- The position of a single bit. -/
lemma bitPosition_two_pow {i : Nat} (h : i < 32) : bitPosition (2 ^ i) = i + 1 := by
  rw [bitPosition, bitPositionLoop_two_pow 0 h, Nat.zero_add]

/-- The place of a member in the mask is the number of members below it. -/
theorem bitIndex_position {mask i : Nat} {wide : UInt32} (h : mask.testBit i = true) (hi : i < 32)
    (hm : mask < 2 ^ 32) : bitIndex mask (2 ^ i) .position wide = rank mask i := by
  have hlt : mask &&& (2 ^ (i + 1) - 1) < 2 ^ 32 := Nat.lt_of_le_of_lt Nat.and_le_left hm
  have hrank := Bits.rank_le mask i
  simp only [bitIndex, bitPosition_two_pow hi, ones_shiftRight (Nat.succ_le_of_lt hi)]
  rw [numberOfBits_eq hlt, Bits.rank_and_low mask (Nat.succ_le_of_lt hi), Bits.rank_succ, h]
  simp only [if_true]
  omega

/-- The number of members of a mask of 16 slots. -/
lemma numberOfBits_slots (mask : UInt16) : numberOfBits mask.toNat = rank mask.toNat 16 := by
  have h : mask.toNat < 2 ^ 16 := mask.toNat_lt
  rw [numberOfBits_eq (by omega), Bits.rank_of_lt_two_pow h (by decide)]

/-! ## Both modes -/

/-- The members that a mode is to count: those below position `i`, or those above. -/
def counted (mask i : Nat) : SlotMode → Nat
  | .position => rank mask i
  | .remaining => rank mask 32 - rank mask (i + 1)

/-- The members are numbered one-to-one and upwards, by all the numbers below their count. -/
structure Numbers (mask : UInt32) (f : Nat → Nat) : Prop where
  onto : Set.BijOn f {i | mask.toNat.testBit i = true} (Set.Iio (numberOfBits mask.toNat))
  upwards : StrictMonoOn f {i | mask.toNat.testBit i = true}

/-- The bits from an index on. -/
lemma testBit_onesShiftLeft {idx b : Nat} (hidx : idx ≤ 32) (hb : b < 32) :
    (onesShiftLeft 0 idx).testBit b = decide (idx ≤ b) := by
  rw [onesShiftLeft]
  split
  case isTrue =>
    rw [Nat.testBit_mod_two_pow, Nat.testBit_shiftLeft, Nat.testBit_two_pow_sub_one]
    have hsub : b - idx < 32 := by omega
    simp [hb, hsub]
  case isFalse h =>
    have hnot : ¬idx ≤ b := by omega
    simp [hnot]

/-- What the second mode gives is one less than the number of members above. -/
lemma bitIndex_remaining {mask i : Nat} (hi : i < 32) (hm : mask < 2 ^ 32) :
    bitIndex mask (2 ^ i) .remaining = (counted mask i .remaining + (2 ^ 32 - 1)) % 2 ^ 32 := by
  have hlt : mask &&& onesShiftLeft 0 (i + 1) < 2 ^ 32 := Nat.lt_of_le_of_lt Nat.and_le_left hm
  have hhigh := Bits.rank_and_high mask (Nat.succ_le_of_lt hi)
    fun b hb => testBit_onesShiftLeft (Nat.succ_le_of_lt hi) hb
  simp only [bitIndex, bitPosition_two_pow hi]
  rw [numberOfBits_eq hlt, counted, ← hhigh, Nat.add_sub_cancel]

/-- There are at most 32 bits. -/
lemma counted_le (mask i : Nat) (mode : SlotMode) (hi : i < 32) : counted mask i mode ≤ 32 := by
  cases mode with
  | position => exact (Bits.rank_le mask i).trans hi.le
  | remaining => exact (Nat.sub_le _ _).trans (Bits.rank_le mask 32)

/-- The index counts what it is to count exactly if the mode is that of the position, and then it
    numbers the members. -/
theorem bitIndex_iff (mask : UInt32) (mode : SlotMode) :
    (∀ i, mask.toNat.testBit i = true →
      ((∀ wide, bitIndex mask.toNat (2 ^ i) mode wide = counted mask.toNat i mode) ↔
        mode = .position)) ∧
    (mode = .position → ∀ wide, Numbers mask fun i => bitIndex mask.toNat (2 ^ i) mode wide) := by
  have hm : mask.toNat < 2 ^ 32 := mask.toNat_lt
  have hlt : ∀ i, mask.toNat.testBit i = true → i < 32 := fun i h => Bits.lt_of_testBit hm h
  constructor
  · intro i h
    constructor
    · intro hall
      cases mode with
      | position => rfl
      | remaining =>
        have heq := hall 0
        have hle := counted_le mask.toNat i .remaining (hlt i h)
        rw [bitIndex_remaining (hlt i h) hm] at heq
        omega
    · rintro rfl wide
      exact bitIndex_position h (hlt i h) hm
  · rintro rfl wide
    have heq : Set.EqOn (rank mask.toNat) (fun i => bitIndex mask.toNat (2 ^ i) .position wide)
        {i | mask.toNat.testBit i = true} :=
      fun i h => (bitIndex_position h (hlt i h) hm).symm
    constructor
    · rw [numberOfBits_eq hm]
      exact (Bits.rank_bijOn hm).congr heq
    · exact StrictMonoOn.congr (fun i hi j _ hij => Bits.rank_lt hi hij) heq

/-- With one slot in the mask the number of those that remain is given as 2^32 - 1. -/
theorem bitIndex_fails : ¬∀ (mask : UInt32) (mode : SlotMode) (i : Nat),
    mask.toNat.testBit i = true →
    ∀ wide, bitIndex mask.toNat (2 ^ i) mode wide = counted mask.toNat i mode := by
  intro h
  exact absurd (h 1 .remaining 0 (by decide) 0) (by decide)

end UwbCore.Nrng
