import UwbCore.Lib.Ring

/-!
# Taking turns under a counter that wraps

The step at which a counter has a remainder modulo `n` is the turn of that remainder. Without a wrap
`n` steps in a row give every remainder its turn once (`once_mod`). A counter that wraps at `m` does so
exactly if `n` divides `m` or the steps end before the wrap (`turns_iff`): at a wrap in between, either
the last remainder is left out or the first one comes twice.
-/

namespace UwbCore.Lib

/-- Exactly one of the first `n` steps has the property. -/
def Once (n : Nat) (p : Nat → Prop) : Prop := ∃! j, j < n ∧ p j

variable {m n s i : Nat}

/-- The same in other words. -/
lemma Once.congr {p q : Nat → Prop} (h : ∀ j < n, p j ↔ q j) : Once n p ↔ Once n q :=
  existsUnique_congr fun j => and_congr_right (h j)

/-- Among `n` successive numbers each remainder modulo `n` comes once. -/
lemma once_mod (hi : i < n) : Once n fun j => (s + j) % n = i := by
  have hn : 0 < n := Nat.zero_lt_of_lt hi
  have hs : s % n + (i + (n - s % n)) = i + n := by
    have := Nat.mod_lt s hn
    omega
  have ht : (s + (i + (n - s % n)) % n) % n = i := by
    rw [Nat.add_mod_mod, ← Nat.mod_add_mod, hs, Nat.add_mod_right, Nat.mod_eq_of_lt hi]
  refine ⟨_, ⟨Nat.mod_lt _ hn, ht⟩, ?_⟩
  rintro j ⟨hj, he⟩
  exact mod_add_inj hj (Nat.mod_lt _ hn) (he.trans ht.symm)

/-- The remainder of a counter that is not past its wrap, or whose wrap is not seen. -/
lemma mod_mod_eq (h : n ∣ m ∨ s + n ≤ m) {j : Nat} (hj : j < n) : (s + j) % m % n = (s + j) % n := by
  cases h with
  | inl hd => exact Nat.mod_mod_of_dvd _ hd
  | inr hle => rw [Nat.mod_eq_of_lt (by omega : s + j < m)]

/-- A counter that wraps at `m` gives `n` successive steps to `n` remainders, one to each, exactly if
    `n` divides `m` or the counter does not wrap. -/
theorem turns_iff (hn : 0 < n) (hs : s < m) :
    (∀ i < n, Once n fun j => (s + j) % m % n = i) ↔ n ∣ m ∨ s + n ≤ m := by
  constructor
  · intro h
    by_contra hno
    obtain ⟨hdvd, hlt⟩ := not_or.mp hno
    -- the step of the last remainder comes before the wrap
    obtain ⟨j, ⟨hj, hlast⟩, -⟩ := h (n - 1) (by omega)
    have hbefore : s + j < m := by
      by_contra hge
      have hle : (s + j) % m ≤ s + j - m := by
        rw [Nat.mod_eq_sub_mod (by omega)]
        exact Nat.mod_le _ _
      have hmod := Nat.mod_le ((s + j) % m) n
      omega
    have hlast' : (s + j) % n = n - 1 := by
      simpa only [Nat.mod_eq_of_lt hbefore] using hlast
    have hzero : (s + (j + 1)) % n = 0 := by
      rw [← Nat.add_assoc, ← Nat.mod_add_mod, hlast', Nat.sub_add_cancel hn, Nat.mod_self]
    -- so the first remainder has a step before the wrap, and one right after it
    have hnext : s + (j + 1) < m := by
      have hne : s + (j + 1) ≠ m := fun e => hdvd (Nat.dvd_of_mod_eq_zero (e ▸ hzero))
      omega
    have h1 : (s + (j + 1)) % m % n = 0 := by rw [Nat.mod_eq_of_lt hnext, hzero]
    have h2 : (s + (m - s)) % m % n = 0 := by
      rw [Nat.add_sub_cancel' hs.le, Nat.mod_self, Nat.zero_mod]
    have htwo : j + 1 = m - s := (h 0 hn).unique ⟨by omega, h1⟩ ⟨by omega, h2⟩
    omega
  · intro h i hi
    refine (Once.congr fun j hj => ?_).mpr (once_mod (s := s) hi)
    rw [mod_mod_eq h hj]

end UwbCore.Lib
