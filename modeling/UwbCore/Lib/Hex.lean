import Mathlib.Data.List.TakeWhile
import Mathlib.Tactic

/-!
# Numbers in hexadecimal text

Numbers printed with upper-case digits (C `%X`) and read back as C `strtol` does with base 16: after
white space, a sign and `0x`, digits of either case up to the first other character, saturating at the
limits of the type. What was printed is read back up to the limit (`strtol_digits`).
-/

namespace UwbCore.Lib.Hex

def digit (d : Nat) : UInt8 := .ofNat (if d < 10 then 48 + d else 55 + d)

/-- The value of a digit of either case. -/
def value (c : UInt8) : Option Nat :=
  if 48 ≤ c ∧ c ≤ 57 then some (c.toNat - 48)
  else if 65 ≤ c ∧ c ≤ 70 then some (c.toNat - 55)
  else if 97 ≤ c ∧ c ≤ 102 then some (c.toNat - 87)
  else none

def isDigit (c : UInt8) : Bool := (value c).isSome

/-- The number with the given digits, the highest first. -/
def ofDigits (s : List UInt8) : Nat := s.foldl (fun n c => n * 16 + (value c).getD 0) 0

/-- The digits of a number below `16 ^ k`, at least one. -/
def digits : Nat → Nat → List UInt8
  | 0, _ => []
  | k + 1, n => if n < 16 then [digit n] else digits k (n / 16) ++ [digit (n % 16)]

/-- C `isspace`. -/
def isSpace (c : UInt8) : Bool := c == 32 || (decide (9 ≤ c) && decide (c ≤ 13))

/-- A sign, and what follows it; true for a minus. -/
def sign : List UInt8 → Bool × List UInt8
  | [] => (false, [])
  | c :: s => if c = 45 then (true, s) else if c = 43 then (false, s) else (false, c :: s)

/-- What follows `0x`, where a digit does. -/
def dropPrefix : List UInt8 → List UInt8
  | z :: x :: c :: s => if z = 48 ∧ (x = 120 ∨ x = 88) ∧ isDigit c then c :: s else z :: x :: c :: s
  | s => s

/-- C `strtol` and `strtoll` with base 16, for a type whose largest value is `max`. -/
def strtol (max : Nat) (s : List UInt8) : Int :=
  let (neg, s) := sign (s.dropWhile isSpace)
  let n := ofDigits ((dropPrefix s).takeWhile isDigit)
  if neg then -(min n (max + 1) : Nat) else (min n max : Nat)

/-! ## Printing -/

/-- The value of a digit. -/
lemma value_digit {d : Nat} (h : d < 16) : value (digit d) = some d := by
  have hall : ∀ d : Fin 16, value (digit d) = some d.val := by decide
  exact hall ⟨d, h⟩

/-- A digit is one. -/
lemma isDigit_digit {d : Nat} (h : d < 16) : isDigit (digit d) = true := by
  rw [isDigit, value_digit h]
  rfl

/-- The characters of a number are digits. -/
lemma isDigit_of_mem {k n : Nat} {c : UInt8} (h : c ∈ digits k n) : isDigit c = true := by
  induction k generalizing n with
  | zero => cases h
  | succ k ih =>
    rw [digits] at h
    split at h
    case isTrue hn =>
      rw [List.mem_singleton.mp h]
      exact isDigit_digit hn
    case isFalse =>
      rcases List.mem_append.mp h with h | h
      · exact ih h
      · rw [List.mem_singleton.mp h]
        exact isDigit_digit (Nat.mod_lt n (by decide))

/-- There is at least one digit. -/
lemma digits_ne_nil {k : Nat} (hk : 0 < k) (n : Nat) : digits k n ≠ [] := by
  cases k with
  | zero => exact absurd hk (Nat.lt_irrefl 0)
  | succ k =>
    rw [digits]
    split <;> simp

/-- A number below `16 ^ j` has at most `j` digits. -/
lemma digits_length_le {j : Nat} (hj : 0 < j) (k : Nat) {n : Nat} (hn : n < 16 ^ j) :
    (digits k n).length ≤ j := by
  induction k generalizing n j with
  | zero => exact Nat.zero_le j
  | succ k ih =>
    rw [digits]
    split
    case isTrue => exact hj
    case isFalse h16 =>
      obtain ⟨j, rfl⟩ : ∃ i, j = i + 1 := ⟨j - 1, by omega⟩
      rcases Nat.eq_zero_or_pos j with rfl | hpos
      · omega
      · have hdiv : n / 16 < 16 ^ j := Nat.div_lt_of_lt_mul (by rwa [Nat.pow_succ'] at hn)
        rw [List.length_append, List.length_singleton]
        exact Nat.add_le_add_right (ih hpos hdiv) 1

/-- One digit more. -/
lemma ofDigits_concat (s : List UInt8) (c : UInt8) :
    ofDigits (s ++ [c]) = ofDigits s * 16 + (value c).getD 0 := by
  rw [ofDigits, List.foldl_append, ofDigits]
  rfl

/-- The digits of a number stand for it. -/
lemma ofDigits_digits {k n : Nat} (h : n < 16 ^ k) (hk : 0 < k) : ofDigits (digits k n) = n := by
  induction k generalizing n with
  | zero => exact absurd hk (Nat.lt_irrefl 0)
  | succ k ih =>
    rw [digits]
    split
    case isTrue hn =>
      show 0 * 16 + (value (digit n)).getD 0 = n
      rw [value_digit hn, Option.getD_some, Nat.zero_mul, Nat.zero_add]
    case isFalse hn =>
      have hdiv : n / 16 < 16 ^ k := Nat.div_lt_of_lt_mul (by rwa [Nat.pow_succ'] at h)
      have hpos : 0 < k := by
        by_contra h0
        rw [Nat.eq_zero_of_not_pos h0] at hdiv
        omega
      rw [ofDigits_concat, ih hdiv hpos, value_digit (Nat.mod_lt n (by decide)), Option.getD_some]
      omega

/-! ## Reading -/

/-- A digit is no white space, no sign, and no `x`. -/
lemma isDigit_ne {c : UInt8} (h : isDigit c = true) :
    isSpace c = false ∧ c ≠ 45 ∧ c ≠ 43 ∧ c ≠ 120 ∧ c ≠ 88 := by
  revert h
  have hall : ∀ i : Fin 256, isDigit (.ofNat i) = true → isSpace (.ofNat i) = false ∧
      (.ofNat i : UInt8) ≠ 45 ∧ (.ofNat i : UInt8) ≠ 43 ∧ (.ofNat i : UInt8) ≠ 120 ∧
      (.ofNat i : UInt8) ≠ 88 := by decide +kernel
  have hc := hall ⟨c.toNat, c.toNat_lt⟩
  rwa [UInt8.ofNat_toNat] at hc

/-- A text of digits alone is read as its number, up to the limit. -/
lemma strtol_of_digits (max : Nat) {s : List UInt8} (h : ∀ c ∈ s, isDigit c = true) :
    strtol max s = (min (ofDigits s) max : Nat) := by
  have hspace : s.dropWhile isSpace = s := by
    cases s with
    | nil => rfl
    | cons c s => exact List.dropWhile_cons_of_neg (by simp [(isDigit_ne (h c List.mem_cons_self)).1])
  have hsign : sign s = (false, s) := by
    cases s with
    | nil => rfl
    | cons c s =>
      obtain ⟨-, h45, h43, -⟩ := isDigit_ne (h c List.mem_cons_self)
      rw [sign, if_neg h45, if_neg h43]
  have hmark : dropPrefix s = s := by
    unfold dropPrefix
    split
    case h_1 z x c s =>
      obtain ⟨-, -, -, hx, hX⟩ := isDigit_ne (h x (by simp))
      exact if_neg fun hn => hn.2.1.elim hx hX
    case h_2 => rfl
  have htake : s.takeWhile isDigit = s := List.takeWhile_eq_self_iff.mpr h
  rw [strtol, hspace, hsign]
  show ((min (ofDigits ((dropPrefix s).takeWhile isDigit)) max : Nat) : Int) = _
  rw [hmark, htake]

/-- What was printed is read back, up to the limit of the type. -/
theorem strtol_digits (max : Nat) {k n : Nat} (h : n < 16 ^ k) (hk : 0 < k) :
    strtol max (digits k n) = (min n max : Nat) := by
  rw [strtol_of_digits max fun c hc => isDigit_of_mem hc, ofDigits_digits h hk]

end UwbCore.Lib.Hex
