import Mathlib.Tactic

/-!
# Rings under a 16-bit index

A ring of buffers is read through a 16-bit index that only ever counts up. Each use reduces it
modulo the size of the ring, sometimes as an `int` (`idx + 1`) and sometimes after a cast
(`(uint16_t)(idx - 1)`). Where the size divides 2^16 the three slots are next to each other on
every index, the wrap included.
-/

namespace UwbCore.Lib

/-- Places of a ring that are counted from one index and less than a turn away differ. -/
lemma mod_add_inj {size a k l : Nat} (hk : k < size) (hl : l < size)
    (h : (a + k) % size = (a + l) % size) : k = l := by
  have hm : k ≡ l [MOD size] := Nat.ModEq.add_left_cancel' a h
  exact hm.eq_of_lt_of_lt hk hl

/-- The place after an index is the same with and without the wrap of the index, for a size that
    divides 2^16 or an index that does not wrap. -/
lemma succ_mod_eq_iff (size : Nat) (i : UInt16) :
    (i.toNat + 1) % size = (i + 1).toNat % size ↔ size ∣ 2 ^ 16 ∨ i ≠ 0xFFFF := by
  by_cases h : i = 0xFFFF
  case pos =>
    subst h
    have hnext : (2 ^ 16) % size = 0 % size ↔ size ∣ 2 ^ 16 := by
      rw [Nat.zero_mod, Nat.dvd_iff_mod_eq_zero]
    simpa using hnext
  case neg =>
    have hne : i.toNat ≠ 0xFFFF := fun e => h (UInt16.toNat_inj.mp e)
    have hlt := i.toNat_lt
    have hnext : (i + 1).toNat = i.toNat + 1 := by
      rw [UInt16.toNat_add]
      exact Nat.mod_eq_of_lt (by simp; omega)
    rw [hnext]
    exact iff_of_true rfl (.inr h)

/-- The size of a ring whose index may wrap. -/
structure IndexRing where
  size : Nat
  dvd : size ∣ 2 ^ 16
  two_le : 2 ≤ size

namespace IndexRing
variable (r : IndexRing) (idx : UInt16)

def cur : Nat := idx.toNat % r.size

def next : Nat := (idx.toNat + 1) % r.size

def prev : Nat := (idx - 1).toNat % r.size

/-- What was next is the current one. -/
lemma cur_succ : r.cur (idx + 1) = r.next idx := by
  simp only [cur, next, UInt16.toNat_add, UInt16.reduceToNat]
  exact Nat.mod_mod_of_dvd _ r.dvd

/-- What was current is the previous one. -/
lemma prev_succ : r.prev (idx + 1) = r.cur idx := by
  rw [prev, cur, UInt16.add_sub_cancel]

/-- Two places of the ring that are less than a turn apart differ. -/
lemma mod_ne (a : Nat) {k : Nat} (h0 : 0 < k) (hk : k < r.size) :
    (a + k) % r.size ≠ a % r.size := by
  intro h
  have hd : r.size ∣ (a + k) - a :=
    (Nat.modEq_iff_dvd' (Nat.le_add_right a k)).mp (Nat.ModEq.symm h)
  have := Nat.le_of_dvd (by omega) hd
  omega

/-- The next slot is not the current one. -/
lemma next_ne_cur : r.next idx ≠ r.cur idx := r.mod_ne _ (by decide) r.two_le

/-- The current slot is not the previous one. -/
lemma cur_ne_prev : r.cur idx ≠ r.prev idx := by
  have h := r.next_ne_cur (idx - 1)
  rwa [← cur_succ, UInt16.sub_add_cancel, cur] at h

/-- Two slots in turn. -/
def two : IndexRing := ⟨2, Nat.pow_dvd_pow 2 (m := 1) (by decide), Nat.le_refl 2⟩

end IndexRing

/-- A ring with room for two slots beside the current one. -/
structure RingSize extends IndexRing where
  four_le : 4 ≤ size

namespace RingSize
variable (r : RingSize) (idx : UInt16)

/-- A power of two from 4 on that fits 16 bits. -/
def ofPow (k : Nat) (h2 : 2 ≤ k) (h16 : k ≤ 16) : RingSize where
  size := 2 ^ k
  dvd := Nat.pow_dvd_pow 2 h16
  two_le := Nat.le_trans (by decide) (Nat.pow_le_pow_right (n := 2) (by decide) h2)
  four_le := Nat.pow_le_pow_right (n := 2) (by decide) h2

/-- The smallest ring. -/
def four : RingSize := .ofPow 2 (by decide) (by decide)

/-- The slot after next, seen from before the index moves. -/
lemma next_succ : r.next (idx + 1) = (idx.toNat + 2) % r.size := by
  rw [← r.cur_succ, IndexRing.cur, UInt16.toNat_add, UInt16.toNat_add]
  simp only [UInt16.reduceToNat, Nat.mod_mod_of_dvd _ r.dvd, Nat.mod_add_mod]

/-- The next slot moves. -/
lemma next_succ_ne_next : r.next (idx + 1) ≠ r.next idx := by
  rw [next_succ, IndexRing.next]
  exact r.mod_ne (idx.toNat + 1) (k := 1) (by decide) r.two_le

/-- It does not move onto the current one. -/
lemma next_succ_ne_cur : r.next (idx + 1) ≠ r.cur idx := by
  rw [next_succ, IndexRing.cur]
  exact r.mod_ne idx.toNat (by decide) (Nat.lt_of_lt_of_le (by decide) r.four_le)

/-- Of three slots the next is not the previous one. -/
lemma next_ne_prev : r.next idx ≠ r.prev idx := by
  have h := r.next_succ_ne_cur (idx - 1)
  rwa [UInt16.sub_add_cancel, IndexRing.cur] at h

end RingSize
end UwbCore.Lib
