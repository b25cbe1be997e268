import Mathlib.Data.Nat.Bitwise
import Mathlib.Tactic

/-!
# Ranks of set bits

A mask selects the members of a group by their bit, and the selected members are numbered by how many
bits of the mask are set below their own. The numbers of a mask with `n` bits are those below `n`,
each of one member. A bit field is a run of bits of a word that is written as a whole and leaves the
others alone.
-/

namespace UwbCore.Lib

/-- The number of bits of `m` that are set below position `k`. -/
def rank (m k : Nat) : Nat := Nat.count (fun i => m.testBit i = true) k

namespace Bits
variable {m i j k : Nat}

/-- There is nothing below the lowest bit. -/
lemma rank_zero (m : Nat) : rank m 0 = 0 := Nat.count_zero _

/-- There are no bits in zero. -/
lemma rank_zero_left (k : Nat) : rank 0 k = 0 := by
  rw [rank, Nat.count_iff_forall_not]
  intro i _
  simp

/-- One bit more. -/
lemma rank_succ (m k : Nat) : rank m (k + 1) = rank m k + if m.testBit k then 1 else 0 :=
  Nat.count_succ _ _

/-- There are at most as many bits as places. -/
lemma rank_le (m k : Nat) : rank m k ≤ k := Nat.count_le _

/-- A member has a number below that of every higher position. -/
lemma rank_lt (hi : m.testBit i = true) (h : i < k) : rank m i < rank m k :=
  Nat.count_strict_mono hi h

/-- Two members with one number are one member. -/
lemma rank_inj (hi : m.testBit i = true) (hj : m.testBit j = true) (h : rank m i = rank m j) :
    i = j :=
  Nat.count_injective hi hj h

/-- Each number below the count belongs to a member. -/
lemma exists_of_lt_rank {p : Nat} (h : p < rank m k) :
    ∃ i < k, m.testBit i = true ∧ rank m i = p := by
  induction k with
  | zero =>
    rw [rank_zero] at h
    exact absurd h (Nat.not_lt_zero p)
  | succ k ih =>
    by_cases hp : p < rank m k
    case pos =>
      obtain ⟨i, hi, hb, hr⟩ := ih hp
      exact ⟨i, Nat.lt_succ_of_lt hi, hb, hr⟩
    case neg =>
      rw [rank_succ] at h
      split at h
      case isTrue hk => exact ⟨k, Nat.lt_succ_self k, hk, by omega⟩
      case isFalse => omega

/-- Above the highest bit the number does not grow. -/
lemma rank_of_lt_two_pow (h : m < 2 ^ j) (hk : j ≤ k) : rank m k = rank m j := by
  induction k, hk using Nat.le_induction with
  | base => rfl
  | succ k hk ih =>
    have hm : m < 2 ^ k := Nat.lt_of_lt_of_le h (Nat.pow_le_pow_right (by decide) hk)
    rw [rank_succ, ih, Nat.testBit_lt_two_pow hm]
    rfl

/-- The number depends on the bits below only. -/
lemma rank_congr {m' : Nat} (h : ∀ i < k, m.testBit i = m'.testBit i) : rank m k = rank m' k := by
  induction k with
  | zero => rfl
  | succ k ih =>
    rw [rank_succ, rank_succ, ih fun i hi => h i (Nat.lt_succ_of_lt hi), h k (Nat.lt_succ_self k)]

/-- A mask of one bit. -/
lemma and_two_pow_ne_zero : m &&& 2 ^ i ≠ 0 ↔ m.testBit i = true := by
  rw [Nat.and_two_pow]
  cases m.testBit i <;> simp

/-- The count of a mask cut down to its low bits. -/
lemma rank_and_low (m : Nat) (h : j ≤ k) : rank (m &&& (2 ^ j - 1)) k = rank m j := by
  have hlt : m &&& (2 ^ j - 1) < 2 ^ j := by
    rw [Nat.and_two_pow_sub_one_eq_mod]
    exact Nat.mod_lt _ (Nat.two_pow_pos j)
  rw [rank_of_lt_two_pow hlt h, rank, rank, Nat.count_eq_card_filter_range,
    Nat.count_eq_card_filter_range]
  congr 1
  apply Finset.filter_congr
  intro i hi
  rw [Nat.and_two_pow_sub_one_eq_mod, Nat.testBit_mod_two_pow]
  simp [Finset.mem_range.mp hi]

/-- The count of a mask cut down to its high bits. -/
lemma rank_and_high {x : Nat} (m : Nat) (h : j ≤ k) (hx : ∀ b < k, x.testBit b = decide (j ≤ b)) :
    rank (m &&& x) k + rank m j = rank m k := by
  induction k, h using Nat.le_induction with
  | base =>
    have hzero : rank (m &&& x) j = rank 0 j := by
      apply rank_congr
      intro b hb
      rw [Nat.testBit_and, hx b hb, decide_eq_false (Nat.not_le_of_lt hb), Bool.and_false,
        Nat.zero_testBit]
    rw [hzero, rank_zero_left, Nat.zero_add]
  | succ k hk ih =>
    have hbit : (m &&& x).testBit k = m.testBit k := by
      rw [Nat.testBit_and, hx k (Nat.lt_succ_self k), decide_eq_true hk, Bool.and_true]
    rw [rank_succ, rank_succ, hbit, ← ih fun b hb => hx b (Nat.lt_succ_of_lt hb)]
    omega

/-- A bit of a small number is a low one. -/
lemma lt_of_testBit (h : m < 2 ^ k) (hi : m.testBit i = true) : i < k := by
  by_contra hle
  have hlt : m < 2 ^ i := h.trans_le (Nat.pow_le_pow_right (by decide) (Nat.le_of_not_lt hle))
  rw [Nat.testBit_lt_two_pow hlt] at hi
  cases hi

/-- The members are numbered by all the numbers below their count. -/
lemma rank_bijOn (h : m < 2 ^ k) :
    Set.BijOn (rank m) {i | m.testBit i = true} (Set.Iio (rank m k)) := by
  refine ⟨fun i hi => rank_lt hi (lt_of_testBit h hi), fun i hi j hj => rank_inj hi hj, ?_⟩
  intro p hp
  obtain ⟨i, -, hi, hrank⟩ := exists_of_lt_rank hp
  exact ⟨i, hi, hrank⟩

/-- Counting from the lowest bit up. -/
lemma rank_succ' (m k : Nat) : rank m (k + 1) = rank (m / 2) k + m % 2 := by
  rw [rank, Nat.count_succ']
  have h0 : (if m.testBit 0 = true then 1 else 0) = m % 2 := by
    rw [Nat.testBit_zero]
    rcases Nat.mod_two_eq_zero_or_one m with h | h <;> simp [h]
  rw [h0]
  simp only [Nat.testBit_succ]
  rfl

/-- `n & (n - 1)` clears one bit. -/
lemma rank_clear_low (h : m < 2 ^ k) (h0 : m ≠ 0) : rank (m &&& (m - 1)) k + 1 = rank m k := by
  induction k generalizing m with
  | zero => omega
  | succ k ih =>
    have h2 : (m &&& (m - 1)) % 2 = m % 2 &&& (m - 1) % 2 := Nat.and_mod_two_pow (n := 1)
    rw [rank_succ', rank_succ', Nat.and_div_two, h2]
    rcases Nat.mod_two_eq_zero_or_one m with hm | hm
    · have hd : (m - 1) / 2 = m / 2 - 1 := by omega
      rw [hd, hm, ← ih (m := m / 2) (by omega) (by omega)]
      simp
    · have hd : (m - 1) / 2 = m / 2 := by omega
      have hz : (m - 1) % 2 = 0 := by omega
      rw [hd, hm, hz, Nat.and_self]
      simp

end Bits

/-- The field of `len` bits of a word from bit `lo` on. -/
def field (w lo len : Nat) : Nat := w / 2 ^ lo % 2 ^ len

/-- The word with that field replaced by the low bits of `v`. -/
def setField (w lo len v : Nat) : Nat :=
  2 ^ (lo + len) * (w / 2 ^ (lo + len)) + (2 ^ lo * (v % 2 ^ len) + w % 2 ^ lo)

namespace Bits
variable (w lo len v i : Nat)

/-- A bit of a field. -/
lemma testBit_field : (field w lo len).testBit i = (decide (i < len) && w.testBit (lo + i)) := by
  rw [field, Nat.testBit_mod_two_pow, Nat.testBit_div_two_pow, Nat.add_comm]

/-- A field in two parts. -/
lemma field_add (k l : Nat) : field w lo (k + l) = field w lo k + 2 ^ k * field w (lo + k) l := by
  rw [field, field, field, Nat.pow_add 2 k l, Nat.mod_mul, Nat.pow_add 2 lo k, Nat.div_div_eq_div_mul]

/-- A bit after a field was set. -/
lemma testBit_setField : (setField w lo len v).testBit i =
    if i < lo then w.testBit i else if i < lo + len then v.testBit (i - lo) else w.testBit i := by
  have hlow : w % 2 ^ lo < 2 ^ lo := Nat.mod_lt _ (Nat.two_pow_pos lo)
  have hmid : 2 ^ lo * (v % 2 ^ len) + w % 2 ^ lo < 2 ^ (lo + len) := by
    have hv : v % 2 ^ len + 1 ≤ 2 ^ len := Nat.mod_lt _ (Nat.two_pow_pos len)
    have hm := Nat.mul_le_mul_left (2 ^ lo) hv
    rw [Nat.mul_add, ← Nat.pow_add] at hm
    omega
  rw [setField, Nat.testBit_two_pow_mul_add _ hmid, Nat.testBit_two_pow_mul_add _ hlow]
  split_ifs with h1 h2 h3
  · rw [Nat.testBit_mod_two_pow, decide_eq_true h2, Bool.true_and]
  · rw [Nat.testBit_mod_two_pow, decide_eq_true (by omega), Bool.true_and]
  · omega
  · rw [Nat.testBit_div_two_pow, Nat.sub_add_cancel (by omega)]

/-- A field that was written holds the low bits of what was written. -/
lemma field_setField_self : field (setField w lo len v) lo len = v % 2 ^ len := by
  apply Nat.eq_of_testBit_eq
  intro i
  rw [testBit_field, testBit_setField, Nat.testBit_mod_two_pow, if_neg (by omega)]
  by_cases h : i < len
  case pos => rw [if_pos (by omega), Nat.add_sub_cancel_left]
  case neg => simp [h]

/-- Other fields are left alone. -/
lemma field_setField_of_disjoint {lo' len' : Nat} (h : lo' + len' ≤ lo ∨ lo + len ≤ lo') :
    field (setField w lo len v) lo' len' = field w lo' len' := by
  apply Nat.eq_of_testBit_eq
  intro i
  rw [testBit_field, testBit_field, testBit_setField]
  by_cases hi : i < len'
  case pos =>
    rcases h with h | h
    · rw [if_pos (by omega)]
    · rw [if_neg (by omega), if_neg (by omega)]
  case neg => simp [hi]

/-- A field inside a word of `n` bits is written inside it. -/
lemma setField_lt {n : Nat} (hw : w < 2 ^ n) (h : lo + len ≤ n) : setField w lo len v < 2 ^ n := by
  apply Nat.lt_pow_two_of_testBit
  intro i hi
  rw [testBit_setField, if_neg (by omega), if_neg (by omega)]
  exact Nat.testBit_lt_two_pow (Nat.lt_of_lt_of_le hw (Nat.pow_le_pow_right (by decide) hi))

end Bits
end UwbCore.Lib
