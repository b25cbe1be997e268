import Mathlib.Tactic

/-!
# Arrays as total functions

A fixed-size array is read as a total function from indices (`Table`), so that a write past the
end of the array is visible as a write to that index. `modify` is the update of one element and
`firstIdx` the search loop that stops at the first index below the size with a given property.
-/

namespace UwbCore.Lib

universe u
variable {α : Type u}

/-- An array, indexed by every natural number. -/
abbrev Table (α : Type u) := Nat → α

/-- The array with the element at `i` changed by `f`. -/
def Table.modify (t : Table α) (i : Nat) (f : α → α) : Table α :=
  fun j => if j = i then f (t i) else t j

@[simp] lemma Table.modify_self (t : Table α) (i : Nat) (f : α → α) :
    t.modify i f i = f (t i) := if_pos rfl

/-- The other entries stay. -/
lemma Table.modify_of_ne (t : Table α) {i j : Nat} (f : α → α) (h : j ≠ i) :
    t.modify i f j = t j := if_neg h

/-- An entry after one of them was modified. -/
lemma Table.modify_apply (t : Table α) (i j : Nat) (f : α → α) :
    t.modify i f j = if j = i then f (t i) else t j := rfl

/-- A modification depends on the element it changes only. -/
lemma Table.modify_congr {t : Table α} {i : Nat} {f g : α → α} (h : f (t i) = g (t i)) :
    t.modify i f = t.modify i g := by
  funext j
  rw [Table.modify_apply, Table.modify_apply, h]

/-- Two modifications of one element are one. -/
lemma Table.modify_modify (t : Table α) (i : Nat) (f g : α → α) :
    (t.modify i f).modify i g = t.modify i fun x => g (f x) := by
  funext j
  by_cases e : j = i <;> simp [Table.modify_apply, e]

/-- The value a modification leaves alone is the same at every index. -/
lemma Table.modify_proj {β : Type*} (p : α → β) (t : Table α) (i j : Nat) {f : α → α}
    (h : p (f (t i)) = p (t i)) : p (t.modify i f j) = p (t j) := by
  rw [Table.modify_apply]
  split
  case isTrue e => rw [h, e]
  case isFalse => rfl

/-- A loop that changes each element below `n` once. -/
lemma Table.foldl_modify_range (t : Table α) (f : Nat → α → α) (n j : Nat) :
    (List.range n).foldl (fun t i => t.modify i (f i)) t j = if j < n then f j (t j) else t j := by
  induction n with
  | zero => rfl
  | succ n ih =>
    rw [List.range_succ, List.foldl_append, List.foldl_cons, List.foldl_nil]
    by_cases hj : j = n
    case pos =>
      subst hj
      rw [Table.modify_self, ih, if_neg (Nat.lt_irrefl j), if_pos (Nat.lt_succ_self j)]
    case neg =>
      have hlt : j < n + 1 ↔ j < n := by omega
      rw [Table.modify_of_ne _ _ hj, ih]
      simp only [hlt]

/-- The first index below `n` with property `p`. -/
def firstIdx (n : Nat) (p : Nat → Bool) : Option Nat := (List.range n).find? p

/-- The first index is one, and there is none before it. -/
lemma firstIdx_some {n i : Nat} {p : Nat → Bool} (h : firstIdx n p = some i) :
    i < n ∧ p i = true ∧ ∀ j < i, p j = false := by
  rw [firstIdx, List.find?_range_eq_some] at h
  obtain ⟨hp, hi, hlt⟩ := h
  refine ⟨List.mem_range.mp hi, hp, fun j hj => ?_⟩
  simpa using hlt j hj

/-- There is none. -/
lemma firstIdx_none {n : Nat} {p : Nat → Bool} :
    firstIdx n p = none ↔ ∀ i < n, p i = false := by
  simp [firstIdx]

/-- The search succeeds when some index below the size has the property. -/
lemma firstIdx_isSome {n i : Nat} {p : Nat → Bool} (hi : i < n) (hp : p i = true) :
    ∃ k, firstIdx n p = some k := by
  cases e : firstIdx n p with
  | some k => exact ⟨k, rfl⟩
  | none =>
    have := firstIdx_none.mp e i hi
    rw [hp] at this
    cases this

/-- The search depends on the property below the size only. -/
lemma firstIdx_congr {n : Nat} {p q : Nat → Bool} (h : ∀ i < n, p i = q i) :
    firstIdx n p = firstIdx n q := by
  apply List.find?_congr
  intro i hi
  exact h i (List.mem_range.mp hi)

end UwbCore.Lib
