import Mathlib.Tactic

/-!
# Runs of a step function

States reached from an initial state by events that all meet a guard (`Reach`), and the rules by
which an invariant is carried along a run. A step function is total: an event that is not enabled
leaves the state as it is. With the guard `fun _ _ => True` every event is allowed.
-/

namespace UwbCore.Lib

universe u v
variable {σ : Type u} {ε : Type v}

/-- The states reached from `init` by events that meet the guard where they are taken. -/
inductive Reach (step : σ → ε → σ) (G : σ → ε → Prop) (init : σ) : σ → Prop where
  | refl :
    Reach step G init init
  | tail {s e} :
    Reach step G init s →
    G s e →
    Reach step G init (step s e)

/-- The guard that admits every event. -/
def anyEvent : σ → ε → Prop := fun _ _ => True

variable {step : σ → ε → σ} {G H : σ → ε → Prop} {init s : σ}

/-- What holds at first and survives every guarded step holds in every reached state. -/
theorem Reach.invariant {P : σ → Prop} (rch : Reach step G init s) (h0 : P init)
    (hstep : ∀ s e, P s → G s e → P (step s e)) : P s := by
  induction rch with
  | refl => exact h0
  | tail _ g ih => exact hstep _ _ ih g

/-- Runs compose. -/
lemma Reach.trans {m : σ} (r1 : Reach step G init m) (r2 : Reach step G m s) :
    Reach step G init s := by
  induction r2 with
  | refl => exact r1
  | tail _ g ih => exact ih.tail g

/-- The guard holds at each event of a list, taken one after another. -/
def Allowed (step : σ → ε → σ) (G : σ → ε → Prop) : σ → List ε → Prop
  | _, [] => True
  | s, e :: es => G s e ∧ Allowed step G (step s e) es

/-- Whether a list of events is allowed can be computed when the guard can. -/
instance decidableAllowed [∀ s e, Decidable (G s e)] :
    ∀ (s : σ) (es : List ε), Decidable (Allowed step G s es)
  | _, [] => isTrue trivial
  | s, e :: es =>
    have := decidableAllowed (step s e) es
    inferInstanceAs (Decidable (G s e ∧ Allowed step G (step s e) es))

/-- The state after a list of allowed events is reached. -/
lemma Reach.of_allowed {es : List ε} (h : Allowed step G init es) :
    Reach step G init (es.foldl step init) := by
  induction es generalizing init with
  | nil => exact .refl
  | cons e es ih =>
    obtain ⟨g, h⟩ := h
    exact (Reach.refl.tail g).trans (ih h)

/-- In a run whose events all meet `L`, where an invariant `I` of such events holds and a step keeps `P`
    exactly under the guard, the events are allowed if and only if `P` holds all the way. -/
theorem allowed_iff_along_of {L : σ → ε → Prop} {P I : σ → Prop}
    (hI : ∀ s e, I s → L s e → I (step s e))
    (hstep : ∀ s e, I s → L s e → P s → (P (step s e) ↔ G s e)) (es : List ε) (hi : I init)
    (h0 : P init) (hl : Allowed step L init es) :
    Allowed step G init es ↔ ∀ n, P ((es.take n).foldl step init) := by
  induction es generalizing init with
  | nil => simp [Allowed, h0]
  | cons e es ih =>
    obtain ⟨he, hl⟩ := hl
    constructor
    · rintro ⟨g, h⟩ n
      cases n with
      | zero => exact h0
      | succ n => exact (ih (hI _ e hi he) ((hstep _ e hi he h0).mpr g) hl).mp h n
    · intro h
      have h1 : P (step init e) := by simpa using h 1
      refine ⟨(hstep _ e hi he h0).mp h1, (ih (hI _ e hi he) h1 hl).mpr fun n => ?_⟩
      exact h (n + 1)

/-- Every list of events is allowed without a guard. -/
lemma allowed_anyEvent (es : List ε) : Allowed step anyEvent init es := by
  induction es generalizing init with
  | nil => trivial
  | cons e es ih => exact ⟨trivial, ih⟩

/-- Without a guard the state after any list of events is reached. -/
lemma Reach.of_events (es : List ε) : Reach step anyEvent init (es.foldl step init) :=
  .of_allowed (allowed_anyEvent es)

/-- When a step keeps `P` exactly under the guard, wherever an invariant `I` of all steps holds, a
    list of events is allowed if and only if `P` holds all the way. -/
theorem allowed_iff_along {P I : σ → Prop} (hI : ∀ s e, I s → I (step s e))
    (hstep : ∀ s e, I s → P s → (P (step s e) ↔ G s e)) (es : List ε) (hi : I init) (h0 : P init) :
    Allowed step G init es ↔ ∀ n, P ((es.take n).foldl step init) :=
  allowed_iff_along_of (fun s e hi _ => hI s e hi) (fun s e hi _ => hstep s e hi) es hi h0
    (allowed_anyEvent es)

/-- Guards that agree wherever an invariant of all steps holds allow the same lists of events. -/
theorem allowed_congr {I : σ → Prop} (hI : ∀ s e, I s → I (step s e))
    (hGH : ∀ s e, I s → (G s e ↔ H s e)) (es : List ε) (hi : I init) :
    Allowed step G init es ↔ Allowed step H init es := by
  induction es generalizing init with
  | nil => exact Iff.rfl
  | cons e es ih => exact and_congr (hGH _ e hi) (ih (hI _ e hi))

end UwbCore.Lib
