import UwbCore.Lib.Table

/-!
# Calls that run side by side

Any number of calls work on a state they share. Each call has a state of its own, and in a step one of
them changes what is shared and where it is itself (`Calls.act`). What is to hold of every call holds
after a step if the call that took it sees to its own part, and leaves alone what the others rely on
(`Calls.each_act`). A lock is the number of the call that holds it, and what one call can do to it is
the same for all locks (`Handover`).
-/

namespace UwbCore.Lib

universe u v
variable {σ : Type u} {κ : Type v}

/-- What the calls share, and the calls by their numbers. -/
structure Calls (σ : Type u) (κ : Type v) where
  shared : σ
  calls : Table κ

namespace Calls
variable {w : Calls σ κ} {i j : Nat} {p : σ × κ}

/-- Call `i` leaves the shared state and its own as in `p`. -/
def act (w : Calls σ κ) (i : Nat) (p : σ × κ) : Calls σ κ where
  shared := p.1
  calls := w.calls.modify i fun _ => p.2

@[simp] lemma act_shared : (w.act i p).shared = p.1 := rfl

@[simp] lemma act_calls_self : (w.act i p).calls i = p.2 :=
  Table.modify_self w.calls i fun _ => p.2

/-- The other calls stay where they are. -/
lemma act_calls_of_ne (h : j ≠ i) : (w.act i p).calls j = w.calls j :=
  Table.modify_of_ne w.calls (fun _ => p.2) h

/-- A property of the shared state and one call, for every call. -/
def Each (I : σ → Nat → κ → Prop) (w : Calls σ κ) : Prop := ∀ i, I w.shared i (w.calls i)

/-- A step keeps a property of every call if it gives it to the call that takes it, and takes it from
    no other. -/
theorem each_act {I : σ → Nat → κ → Prop} (h : w.Each I) (own : I p.1 i p.2)
    (frame : ∀ j ≠ i, ∀ c, I w.shared j c → I p.1 j c) : (w.act i p).Each I := by
  intro j
  by_cases e : j = i
  case pos =>
    subst e
    rw [act_shared, act_calls_self]
    exact own
  case neg =>
    rw [act_shared, act_calls_of_ne e]
    exact frame j e _ (h j)

end Calls

/-- What call `i` can do to a lock: leave it as it is, take it when it is free, give it back. -/
def Handover (i : Nat) (lock lock' : Option Nat) : Prop :=
  lock' = lock ∨ lock = none ∧ lock' = some i ∨ lock = some i ∧ lock' = none

/-- The others hold the lock as they did. -/
lemma Handover.others {i j : Nat} {lock lock' : Option Nat} (h : Handover i lock lock') (hj : j ≠ i) :
    lock' = some j ↔ lock = some j := by
  have hne : ¬some i = some j := fun e => hj (Option.some.inj e).symm
  rcases h with rfl | ⟨rfl, rfl⟩ | ⟨rfl, rfl⟩
  · exact Iff.rfl
  · exact iff_of_false hne (by rintro ⟨⟩)
  · exact iff_of_false (by rintro ⟨⟩) hne

end UwbCore.Lib
