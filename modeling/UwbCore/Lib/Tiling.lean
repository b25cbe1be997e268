import Mathlib.Tactic

/-!
# Tilings of a list

A list is sent in chunks, each with the offset it belongs at. `Tiles l n cs m` says that the chunks
`cs` are non-empty and cover `l` from offset `n` to `m`, without gap or overlap and in order.
-/

namespace UwbCore.Lib

universe u
variable {α : Type u}

/-- The chunks `cs` of `l` lead from offset `n` to `m`. -/
inductive Tiles (l : List α) : Nat → List (Nat × List α) → Nat → Prop
  | done {n} :
    Tiles l n [] n
  | chunk {n m data cs} :
    data ≠ [] →
    data = (l.drop n).take data.length →
    Tiles l (n + data.length) cs m →
    Tiles l n ((n, data) :: cs) m

variable {l data : List α} {n m : Nat} {cs : List (Nat × List α)}

/-- No chunk is from before the start. -/
lemma Tiles.le_offset (h : Tiles l n cs m) {c : Nat × List α} (hc : c ∈ cs) : n ≤ c.1 := by
  induction h with
  | done => cases hc
  | chunk _ _ _ ih =>
    cases List.mem_cons.mp hc with
    | inl e => rw [e]
    | inr h => exact (Nat.le_add_right _ _).trans (ih h)

/-- A tile is the part of the list at its offset, and is not empty. -/
lemma Tiles.mem (h : Tiles l n cs m) {c : Nat × List α} (hc : c ∈ cs) :
    c.2 ≠ [] ∧ c.2 = (l.drop c.1).take c.2.length := by
  induction h with
  | done => cases hc
  | chunk hne hdata _ ih =>
    cases List.mem_cons.mp hc with
    | inl e =>
      rw [e]
      exact ⟨hne, hdata⟩
    | inr h => exact ih h

/-- A chunk lies in the list. -/
lemma chunk_le (hne : data ≠ []) (h : data = (l.drop n).take data.length) :
    n + data.length ≤ l.length := by
  have hpos := List.length_pos_iff.mpr hne
  have hlen := congrArg List.length h
  rw [List.length_take, List.length_drop] at hlen
  omega

/-- The bytes of a chunk are those of the list at its offset. -/
lemma chunk_getElem? (h : data = (l.drop n).take data.length) {i : Nat} (hi : i < data.length) :
    data[i]? = l[n + i]? := by
  rw [h, List.getElem?_take_of_lt hi, List.getElem?_drop]

end UwbCore.Lib
