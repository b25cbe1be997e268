import Mathlib.Tactic

/-!
# Words in a memory of bytes

A memory gives each address a byte, and words are little-endian. A word is what its bytes are
(`load_eq_iff`), so a store of eight bytes is read back as a whole (`load_store64`), leaves what it does
not meet (`load_store64_of_apart`), and puts its own upper bytes into a shorter word and whatever lies
after it (`load_store64_low`, `load_store64_high`).
-/

namespace UwbCore.Lib

/-- A memory of bytes. -/
abbrev Mem := Nat → UInt8

/-- The byte `i` of a number. -/
def byteAt (v i : Nat) : UInt8 := UInt8.ofNat (v / 256 ^ i)

namespace Mem

/-- The word of `n` bytes at `a`. -/
def load (m : Mem) (a : Nat) : Nat → Nat
  | 0 => 0
  | n + 1 => (m a).toNat + 256 * load m (a + 1) n

/-- A store of eight bytes at `a`. -/
def store64 (m : Mem) (a : Nat) (v : BitVec 64) : Mem :=
  fun x => if a ≤ x ∧ x < a + 8 then byteAt v.toNat (x - a) else m x

/-- C `memset` of zeros to the bytes from `a` on. -/
def clear (m : Mem) (a n : Nat) : Mem := fun x => if a ≤ x ∧ x < a + n then 0 else m x

/-- A store of some bytes from `a` on. -/
def storeBytes (m : Mem) (a : Nat) (bs : List UInt8) : Mem :=
  fun x => if a ≤ x ∧ x < a + bs.length then bs.getD (x - a) 0 else m x

variable {m m' : Mem} {a b n k : Nat}

/-- A word depends on its bytes only. -/
lemma load_congr (h : ∀ i < n, m (a + i) = m' (a + i)) : m.load a n = m'.load a n := by
  induction n generalizing a with
  | zero => rfl
  | succ n ih =>
    have h0 : m a = m' a := h 0 (Nat.succ_pos n)
    rw [load, load, h0, ih]
    intro i hi
    have hi' := h (i + 1) (Nat.succ_lt_succ hi)
    rwa [Nat.add_comm i, ← Nat.add_assoc] at hi'

/-- What is loaded has no more bytes than were asked for. -/
lemma load_lt : m.load a n < 256 ^ n := by
  induction n generalizing a with
  | zero => exact Nat.one_pos
  | succ n ih =>
    have hb := (m a).toNat_lt
    have := ih (a := a + 1)
    rw [load, Nat.pow_succ]
    omega

/-- A word is a number exactly if its bytes are those of the number. -/
theorem load_eq_iff {v : Nat} (hv : v < 256 ^ n) :
    m.load a n = v ↔ ∀ i < n, m (a + i) = byteAt v i := by
  induction n generalizing a v with
  | zero => simp [load, Nat.lt_one_iff.mp hv]
  | succ n ih =>
    have hdiv : v / 256 < 256 ^ n := Nat.div_lt_of_lt_mul (by rwa [Nat.pow_succ'] at hv)
    have hb := (m a).toNat_lt
    have hfirst : m a = byteAt v 0 ↔ (m a).toNat = v % 256 := by
      rw [← UInt8.toNat_inj, byteAt, UInt8.toNat_ofNat', Nat.pow_zero, Nat.div_one]
    have hsplit : m.load a (n + 1) = v ↔ (m a).toNat = v % 256 ∧ m.load (a + 1) n = v / 256 := by
      rw [load]
      omega
    have hbyte : ∀ i, byteAt (v / 256) i = byteAt v (i + 1) := by
      intro i
      rw [byteAt, byteAt, Nat.div_div_eq_div_mul, Nat.pow_succ']
    rw [hsplit, ih hdiv, ← hfirst]
    constructor
    · rintro ⟨h0, hrest⟩ i hi
      cases i with
      | zero => exact h0
      | succ i =>
        rw [← hbyte, ← hrest i (Nat.lt_of_succ_lt_succ hi), Nat.add_right_comm, Nat.add_assoc]
    · intro h
      refine ⟨h 0 (Nat.succ_pos n), fun i hi => ?_⟩
      rw [hbyte, ← h (i + 1) (Nat.succ_lt_succ hi), Nat.add_right_comm, Nat.add_assoc]

/-- A word of two parts. -/
lemma load_add : m.load a (k + n) = m.load a k + 256 ^ k * m.load (a + k) n := by
  induction k generalizing a with
  | zero => simp [load]
  | succ k ih =>
    rw [Nat.add_right_comm, load, ih, load, Nat.pow_succ', Nat.add_right_comm a 1 k, ← Nat.add_assoc]
    ring

/-- What was stored is loaded. -/
lemma load_store64 {v : BitVec 64} : (m.store64 a v).load a 8 = v.toNat := by
  rw [load_eq_iff v.isLt]
  intro i hi
  rw [store64, if_pos ⟨Nat.le_add_right a i, by omega⟩, Nat.add_sub_cancel_left]

/-- A store elsewhere. -/
lemma load_store64_of_apart {v : BitVec 64} (h : a + 8 ≤ b ∨ b + n ≤ a) :
    (m.store64 a v).load b n = m.load b n := by
  apply load_congr
  intro i hi
  exact if_neg (by omega)

/-- The first bytes of a stored word. -/
lemma load_store64_low {v : BitVec 64} (hk : k ≤ 8) :
    (m.store64 a v).load a k = v.toNat % 256 ^ k := by
  have hsum : (m.store64 a v).load a k + 256 ^ k * (m.store64 a v).load (a + k) (8 - k) = v.toNat := by
    rw [← load_add, Nat.add_sub_cancel' hk, load_store64]
  rw [← hsum, Nat.add_mul_mod_self_left, Nat.mod_eq_of_lt load_lt]

/-- The bytes of a stored word after the first ones. -/
lemma load_store64_high {v : BitVec 64} (hk : k + n = 8) :
    (m.store64 a v).load (a + k) n = v.toNat / 256 ^ k := by
  have hsum : (m.store64 a v).load a k + 256 ^ k * (m.store64 a v).load (a + k) n = v.toNat := by
    rw [← load_add, hk, load_store64]
  rw [← hsum, Nat.add_mul_div_left _ _ (Nat.pow_pos (by decide)), Nat.div_eq_of_lt load_lt,
    Nat.zero_add]

end Mem
end UwbCore.Lib
