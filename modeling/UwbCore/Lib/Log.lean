import Mathlib.Tactic

/-!
# Append-only logs

A log is a list of records, oldest first. What a reader keeps of it is, query by query, the value
of the newest record that answers the query (`lastWrite`). The lemmas say how that value changes
when records are appended, and when a part of the log is moved behind the rest (`moved_iff`).
-/

namespace UwbCore.Lib

universe u v
variable {α : Type u} {β : Type v}

/-- The answer of the newest record that answers the query `q`. -/
def lastWrite (q : α → Option β) (l : List α) : Option β := l.reverse.findSome? q

@[simp] lemma lastWrite_nil (q : α → Option β) : lastWrite q [] = none := rfl

/-- The newer part of a log answers first. -/
lemma lastWrite_append (q : α → Option β) (l₁ l₂ : List α) :
    lastWrite q (l₁ ++ l₂) = (lastWrite q l₂).or (lastWrite q l₁) := by
  simp [lastWrite, List.findSome?_append]

/-- The last entry counts first. -/
lemma lastWrite_concat (q : α → Option β) (l : List α) (x : α) :
    lastWrite q (l ++ [x]) = (q x).or (lastWrite q l) := by
  rw [lastWrite_append]
  simp [lastWrite]

/-- A single entry. -/
lemma lastWrite_singleton (q : α → Option β) (x : α) : lastWrite q [x] = q x := by
  simp [lastWrite]

/-- No record answers. -/
lemma lastWrite_eq_none {q : α → Option β} {l : List α} :
    lastWrite q l = none ↔ ∀ x ∈ l, q x = none := by
  simp [lastWrite]

/-- A query of the records that are made of others is a query of those. -/
lemma lastWrite_filterMap {γ : Type*} (f : γ → Option α) (q : α → Option β) (l : List γ) :
    lastWrite q (l.filterMap f) = lastWrite (fun x => (f x).bind q) l := by
  induction l using List.reverseRecOn with
  | nil => rfl
  | append_singleton l x ih =>
    rw [List.filterMap_append, lastWrite_append, lastWrite_concat, ih]
    cases h : f x with
    | none => simp [h]
    | some y => simp [h, lastWrite_singleton]

/-- The answer comes from a record of the log, and no newer record answers. -/
lemma lastWrite_some {q : α → Option β} {l : List α} {v : β} (h : lastWrite q l = some v) :
    ∃ l₁ x l₂, l = l₁ ++ x :: l₂ ∧ q x = some v ∧ ∀ y ∈ l₂, q y = none := by
  rw [lastWrite, List.findSome?_eq_some_iff] at h
  obtain ⟨r₁, x, r₂, e, hx, hn⟩ := h
  refine ⟨r₂.reverse, x, r₁.reverse, ?_, hx, fun y hy => hn y (List.mem_reverse.mp hy)⟩
  rw [← List.reverse_reverse l, e]
  simp

/-- What was written last was written. -/
lemma lastWrite_mem {q : α → Option β} {l : List α} {v : β} (h : lastWrite q l = some v) :
    ∃ x ∈ l, q x = some v := by
  obtain ⟨l₁, x, l₂, e, hx, _⟩ := lastWrite_some h
  exact ⟨x, by simp [e], hx⟩

/-- Some record answers as soon as one of them does. -/
lemma lastWrite_isSome {q : α → Option β} {l : List α} {x : α} (hx : x ∈ l)
    (hq : q x ≠ none) : ∃ v, lastWrite q l = some v := by
  cases e : lastWrite q l with
  | some v => exact ⟨v, rfl⟩
  | none => exact absurd (lastWrite_eq_none.mp e x hx) hq

/-- The answer that all records agree on. -/
lemma lastWrite_unique {q : α → Option β} {l : List α} {x : α} {v : β} (hx : x ∈ l)
    (hq : q x = some v) (h : ∀ y ∈ l, ∀ w, q y = some w → w = v) : lastWrite q l = some v := by
  obtain ⟨w, hw⟩ := lastWrite_isSome hx (hq ▸ Option.some_ne_none v)
  obtain ⟨y, hy, hqy⟩ := lastWrite_mem hw
  rw [hw, h y hy w hqy]

/-- Queries that agree on the records of the log have the same answer. -/
lemma lastWrite_congr {q r : α → Option β} {l : List α} (h : ∀ x ∈ l, q x = r x) :
    lastWrite q l = lastWrite r l := by
  induction l using List.reverseRecOn with
  | nil => rfl
  | append_singleton l x ih =>
    rw [lastWrite_concat, lastWrite_concat, h x (by simp), ih fun y hy => h y (by simp [hy])]

/-- An answer that is mapped afterwards. -/
lemma lastWrite_map {γ : Type*} (q : α → Option β) (f : β → γ) (l : List α) :
    lastWrite (fun x => (q x).map f) l = (lastWrite q l).map f := by
  induction l using List.reverseRecOn with
  | nil => rfl
  | append_singleton l x ih =>
    rw [lastWrite_concat, lastWrite_concat, ih]
    cases q x <;> rfl

/-- The first entry counts last. -/
lemma lastWrite_cons (q : α → Option β) (x : α) (l : List α) :
    lastWrite q (x :: l) = (lastWrite q l).or (q x) := by
  rw [← List.singleton_append, lastWrite_append, lastWrite_singleton]

section
variable {κ : Type*} [DecidableEq κ]

/-- The records of a key. -/
def ofKey (key : α → κ) (k : κ) (x : α) : Option α := if key x = k then some x else none

/-- The first record of each key that is not among `seen`. -/
def firstsBy (key : α → κ) (seen : List κ) : List α → List α
  | [] => []
  | x :: l =>
    if key x ∈ seen then firstsBy key seen l else x :: firstsBy key (key x :: seen) l

/-- Only the first record of a key is left to answer for it. -/
lemma lastWrite_firstsBy (key : α → κ) (k : κ) (l : List α) (seen : List κ) :
    lastWrite (ofKey key k) (firstsBy key seen l) =
      if k ∈ seen then none else l.find? fun x => key x = k := by
  induction l generalizing seen with
  | nil => simp [firstsBy]
  | cons x l ih =>
    rw [firstsBy]
    by_cases hx : key x ∈ seen
    · rw [if_pos hx, ih]
      by_cases hk : k ∈ seen
      · rw [if_pos hk, if_pos hk]
      · have hne : key x ≠ k := by
          rintro rfl
          exact hk hx
        rw [if_neg hk, if_neg hk, List.find?_cons_of_neg (by simpa using hne)]
    · rw [if_neg hx, lastWrite_cons, ih, ofKey]
      by_cases hk : key x = k
      · subst hk
        rw [if_pos List.mem_cons_self, if_pos rfl, if_neg hx, List.find?_cons_of_pos (by simp)]
        rfl
      · have hmem : k ∈ key x :: seen ↔ k ∈ seen := by
          rw [List.mem_cons]
          exact ⟨fun h => h.resolve_left fun e => hk e.symm, .inr⟩
        rw [if_neg hk, Option.or_none, List.find?_cons_of_neg (by simpa using hk)]
        simp only [hmem]

end

/-- The oldest part `O` of a log `O ++ R` is replaced by a part `K` behind the rest. The answer to
    `q` (with default `d`) stays the same if and only if the newest answer in `K` is the answer of
    the whole log and, where neither `K` nor `R` answers, `O` answers the default. -/
theorem moved_iff (q : α → Option β) (O R K : List α) (d : β) :
    (lastWrite q (R ++ K)).getD d = (lastWrite q (O ++ R)).getD d ↔
      (∀ v, lastWrite q K = some v → (lastWrite q (O ++ R)).getD d = v) ∧
      (lastWrite q K = none → lastWrite q R = none → (lastWrite q O).getD d = d) := by
  rw [lastWrite_append, lastWrite_append]
  cases hK : lastWrite q K with
  | some v => simp [eq_comm]
  | none =>
    cases hR : lastWrite q R with
    | some w => simp
    | none => simp [eq_comm]

end UwbCore.Lib
