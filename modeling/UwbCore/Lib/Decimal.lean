import UwbCore.Lib.Hex

/-!
# Numbers in decimal text

Numbers printed with decimal digits (C `%llu`) and read as C `strtoull` does with base 0: after white
space and a sign, hexadecimal after `0x`, octal after `0` and decimal otherwise, up to the first
character that is no digit of the base. The conversion also says how many characters it took. What was
printed is read back as a whole, whatever follows that is no digit (`convert_decimal`).
-/

namespace UwbCore.Lib.Decimal

/-- The digits of a number below `10 ^ k`, at least one. -/
def decimal : Nat → Nat → List UInt8
  | 0, _ => []
  | k + 1, n => if n < 10 then [Hex.digit n] else decimal k (n / 10) ++ [Hex.digit (n % 10)]

/-- A digit of the base. -/
def isDigitOf (base : Nat) (c : UInt8) : Bool := (Hex.value c).any (· < base)

/-- The number with the given digits, the highest first. -/
def ofDigits (base : Nat) (s : List UInt8) : Nat :=
  s.foldl (fun n c => n * base + (Hex.value c).getD 0) 0

/-- The base that the digits begin with, and where they begin. -/
def base0 : List UInt8 → Nat × List UInt8
  | [] => (10, [])
  | z :: s =>
    if z = 48 then
      match s with
      | x :: c :: t => if (x = 120 ∨ x = 88) ∧ Hex.isDigit c then (16, c :: t) else (8, z :: s)
      | _ => (8, z :: s)
    else (10, z :: s)

/-- What `strtoull` and `strtoll` read with base 0: whether there is a minus, the number behind it, and
    how many characters that are. -/
structure Converted where
  neg : Bool
  magnitude : Nat
  length : Nat
  deriving DecidableEq, Repr

/-- The common part of C `strtoull` and `strtoll` with base 0. -/
def convert (s : List UInt8) : Converted :=
  let signed := Hex.sign (s.dropWhile Hex.isSpace)
  let based := base0 signed.2
  let digits := based.2.takeWhile (isDigitOf based.1)
  ⟨signed.1, ofDigits based.1 digits,
    if digits = [] then 0 else s.length - based.2.length + digits.length⟩

/-- C `strtoull` with base 0, and the number of characters it took. -/
def strtoull (s : List UInt8) : BitVec 64 × Nat :=
  let r := convert s
  (if 2 ^ 64 ≤ r.magnitude then BitVec.ofNat 64 (2 ^ 64 - 1)
    else if r.neg then -BitVec.ofNat 64 r.magnitude else BitVec.ofNat 64 r.magnitude, r.length)

/-- C `strtoll` with base 0, and the number of characters it took. -/
def strtoll (s : List UInt8) : BitVec 64 × Nat :=
  let r := convert s
  (if r.neg then -BitVec.ofNat 64 (min r.magnitude (2 ^ 63))
    else BitVec.ofNat 64 (min r.magnitude (2 ^ 63 - 1)), r.length)

/-! ## What is taken -/

/-- A sign is at most one character. -/
lemma length_sign_le (s : List UInt8) : (Hex.sign s).2.length ≤ s.length := by
  cases s with
  | nil => exact Nat.le_refl 0
  | cons c s =>
    rw [Hex.sign]
    split
    case isTrue => exact Nat.le_succ _
    split
    case isTrue => exact Nat.le_succ _
    case isFalse => exact Nat.le_refl _

/-- The prefix of a base takes nothing away but characters. -/
lemma length_base0_le (s : List UInt8) : (base0 s).2.length ≤ s.length := by
  unfold base0
  split
  case h_1 => exact Nat.le_refl 0
  case h_2 z s =>
    split
    case isFalse => exact Nat.le_refl _
    split
    case h_1 =>
      split
      case isTrue => exact (Nat.le_succ _).trans (Nat.le_succ _)
      case isFalse => exact Nat.le_refl _
    case h_2 => exact Nat.le_refl _

/-- No more is taken than there is. -/
theorem convert_length_le (s : List UInt8) : (convert s).length ≤ s.length := by
  have hbase := (length_base0_le _).trans
    ((length_sign_le (s.dropWhile Hex.isSpace)).trans (List.dropWhile_sublist _).length_le)
  have htake := (List.takeWhile_sublist (isDigitOf (base0 (Hex.sign (s.dropWhile Hex.isSpace)).2).1)
    (l := (base0 (Hex.sign (s.dropWhile Hex.isSpace)).2).2)).length_le
  rw [convert]
  dsimp only
  split <;> omega

/-! ## Where a number ends -/

/-- A character that ends a number. -/
def Stops (c : UInt8) : Prop := Hex.value c = none ∧ c ≠ 120 ∧ c ≠ 88

instance decidableStops (c : UInt8) : Decidable (Stops c) := inferInstanceAs (Decidable (_ ∧ _))

/-- The number 0 has octal base. -/
lemma base0_zero {rest : List UInt8} (hrest : ∀ c ∈ rest.head?, Stops c) :
    base0 (48 :: rest) = (8, 48 :: rest) := by
  match rest with
  | [] => rfl
  | [_] => rfl
  | x :: _ :: _ =>
    obtain ⟨-, hx, hX⟩ := hrest x rfl
    exact if_neg fun h => h.1.elim hx hX

section
variable {s rest : List UInt8}

/-- What follows does not matter if it stops the reading. -/
lemma takeWhile_append_stops {p : UInt8 → Bool} (h : ∀ c ∈ rest.head?, p c = false) :
    (s ++ rest).takeWhile p = s.takeWhile p := by
  induction s with
  | nil =>
    cases rest with
    | nil => rfl
    | cons c rest => exact List.takeWhile_cons_of_neg (by rw [h c rfl]; decide)
  | cons a s ih =>
    rw [List.cons_append, List.takeWhile_cons, List.takeWhile_cons, ih]

/-- The base is told by the number alone. -/
lemma base0_append (h : ∀ c ∈ rest.head?, Stops c) :
    base0 (s ++ rest) = ((base0 s).1, (base0 s).2 ++ rest) := by
  have hdigit : ∀ c ∈ rest.head?, Hex.isDigit c = false := fun c hc => by
    rw [Hex.isDigit, (h c hc).1]
    rfl
  cases s with
  | nil =>
    cases rest with
    | nil => rfl
    | cons c rest =>
      have hc : c ≠ 48 := by
        rintro rfl
        exact absurd (h 48 rfl).1 (by decide)
      unfold base0
      exact if_neg hc
  | cons z s =>
    cases s with
    | nil =>
      by_cases hz : z = 48
      · subst hz
        exact base0_zero h
      · unfold base0
        rw [List.singleton_append]
        dsimp only
        rw [if_neg hz, if_neg hz]
        rfl
    | cons x s =>
      cases s with
      | nil =>
        have htwo : base0 [z, x] = (if z = 48 then 8 else 10, [z, x]) := by
          unfold base0
          dsimp only
          split <;> rfl
        rw [htwo]
        cases rest with
        | nil => exact htwo
        | cons c rest =>
          have hno : ¬((x = 120 ∨ x = 88) ∧ Hex.isDigit c) := fun hx => by
            have := hdigit c rfl
            rw [hx.2] at this
            cases this
          unfold base0
          show (if z = 48 then if (x = 120 ∨ x = 88) ∧ Hex.isDigit c then (16, c :: rest) else
            (8, z :: x :: c :: rest) else (10, z :: x :: c :: rest)) = _
          rw [if_neg hno]
          split <;> rfl
      | cons c t =>
        have hthree : ∀ t, base0 (z :: x :: c :: t) =
            if z = 48 then if (x = 120 ∨ x = 88) ∧ Hex.isDigit c then (16, c :: t) else (8, z :: x :: c :: t)
            else (10, z :: x :: c :: t) := fun t => rfl
        show base0 (z :: x :: c :: (t ++ rest)) = _
        rw [hthree, hthree]
        split
        case isTrue => split <;> rfl
        case isFalse => rfl

/-- A character that belongs to no number and to nothing before one. -/
def Ends (c : UInt8) : Prop := Stops c ∧ Hex.isSpace c = false ∧ c ≠ 45 ∧ c ≠ 43

/-- What follows a number does not change it. -/
theorem convert_append (h : ∀ c ∈ rest.head?, Ends c) : convert (s ++ rest) = convert s := by
  have hstops : ∀ c ∈ rest.head?, Stops c := fun c hc => (h c hc).1
  have hdrop : (s ++ rest).dropWhile Hex.isSpace = s.dropWhile Hex.isSpace ++ rest := by
    induction s with
    | nil =>
      cases rest with
      | nil => rfl
      | cons c rest => exact List.dropWhile_cons_of_neg (by rw [(h c rfl).2.1]; decide)
    | cons a s ih =>
      rw [List.cons_append, List.dropWhile_cons, List.dropWhile_cons, ih]
      split <;> rfl
  have hsign : ∀ l : List UInt8, Hex.sign (l ++ rest) = ((Hex.sign l).1, (Hex.sign l).2 ++ rest) := by
    intro l
    cases l with
    | nil =>
      cases rest with
      | nil => rfl
      | cons c rest =>
        show (if c = 45 then (true, rest) else if c = 43 then (false, rest) else (false, c :: rest)) =
          (false, c :: rest)
        rw [if_neg (h c rfl).2.2.1, if_neg (h c rfl).2.2.2]
    | cons a l =>
      rw [List.cons_append, Hex.sign, Hex.sign]
      split
      case isTrue => rfl
      split <;> rfl
  have hdigits : ∀ (base : Nat) (l : List UInt8),
      (l ++ rest).takeWhile (isDigitOf base) = l.takeWhile (isDigitOf base) := by
    intro base l
    apply takeWhile_append_stops
    intro c hc
    rw [isDigitOf, (hstops c hc).1]
    rfl
  have hsub : ∀ l : List UInt8, (s ++ rest).length - (l ++ rest).length = s.length - l.length := by
    intro l
    rw [List.length_append, List.length_append]
    omega
  rw [convert, convert, hdrop, hsign, base0_append hstops, hdigits, hsub]

end

/-! ## Printed numbers -/

variable {k n : Nat}

/-- There is at least one digit. -/
lemma decimal_ne_nil (h : 0 < k) : decimal k n ≠ [] := by
  obtain ⟨k, rfl⟩ := Nat.exists_eq_succ_of_ne_zero (Nat.ne_of_gt h)
  rw [decimal]
  split
  · exact List.cons_ne_nil _ _
  · exact List.append_ne_nil_of_right_ne_nil _ (List.cons_ne_nil _ _)

/-- Decimal digits. -/
lemma mem_decimal {c : UInt8} (h : c ∈ decimal k n) : ∃ d < 10, c = Hex.digit d := by
  induction k generalizing n with
  | zero => cases h
  | succ k ih =>
    rw [decimal] at h
    split at h
    case isTrue hn => exact ⟨n, hn, List.mem_singleton.mp h⟩
    case isFalse =>
      rcases List.mem_append.mp h with h | h
      · exact ih h
      · exact ⟨n % 10, Nat.mod_lt _ (by decide), List.mem_singleton.mp h⟩

/-- The digits of a number stand for it. -/
lemma ofDigits_decimal (h : n < 10 ^ k) (hk : 0 < k) : ofDigits 10 (decimal k n) = n := by
  induction k generalizing n with
  | zero => omega
  | succ k ih =>
    rw [decimal]
    split
    case isTrue hn =>
      rw [ofDigits, List.foldl_cons, List.foldl_nil, Hex.value_digit (by omega)]
      simp
    case isFalse hn =>
      have hdiv : n / 10 < 10 ^ k := Nat.div_lt_of_lt_mul (by rwa [Nat.pow_succ'] at h)
      have hk' : 0 < k := by
        rcases Nat.eq_zero_or_pos k with rfl | hk'
        · omega
        · exact hk'
      have hrest : (decimal k (n / 10)).foldl (fun n c => n * 10 + (Hex.value c).getD 0) 0 = n / 10 :=
        ih hdiv hk'
      rw [ofDigits, List.foldl_append, hrest, List.foldl_cons, List.foldl_nil,
        Hex.value_digit (by omega), Option.getD_some]
      omega

/-- A number that is not 0 does not begin with a 0. -/
lemma head_decimal (h : n < 10 ^ k) (hn : n ≠ 0) : ∀ c ∈ (decimal k n).head?, c ≠ 48 := by
  induction k generalizing n with
  | zero => omega
  | succ k ih =>
    rw [decimal]
    split
    case isTrue hlt =>
      intro c hc
      cases hc
      have hall : ∀ d : Fin 10, d.val ≠ 0 → Hex.digit d.val ≠ 48 := by decide
      exact hall ⟨n, hlt⟩ hn
    case isFalse hlt =>
      have hdiv : n / 10 < 10 ^ k := Nat.div_lt_of_lt_mul (by rwa [Nat.pow_succ'] at h)
      have hne : n / 10 ≠ 0 := by omega
      cases hd : decimal k (n / 10) with
      | nil =>
        rcases Nat.eq_zero_or_pos k with rfl | hk
        · omega
        · exact absurd hd (decimal_ne_nil hk)
      | cons d ds =>
        have hhead := ih hdiv hne
        rw [hd] at hhead
        exact hhead

/-- They are digits. -/
lemma isDigit_of_mem {c : UInt8} (h : c ∈ decimal k n) : Hex.isDigit c = true := by
  obtain ⟨d, hd, rfl⟩ := mem_decimal h
  exact Hex.isDigit_digit (by omega)

/-- A number begins with no white space, no sign and no prefix, so that its base is that of its digits. -/
lemma based_decimal (hk : 0 < k) (rest : List UInt8) :
    Hex.sign ((decimal k n ++ rest).dropWhile Hex.isSpace) = (false, decimal k n ++ rest) := by
  cases hd : decimal k n with
  | nil => exact absurd hd (decimal_ne_nil hk)
  | cons d ds =>
    have hdig : Hex.isDigit d = true := isDigit_of_mem (hd ▸ List.mem_cons_self)
    obtain ⟨hspace, hminus, hplus, -, -⟩ := Hex.isDigit_ne hdig
    rw [List.cons_append, List.dropWhile_cons_of_neg (by rw [hspace]; decide), Hex.sign,
      if_neg hminus, if_neg hplus]

/-- The digits of a number end where the number does. -/
lemma takeWhile_decimal {rest : List UInt8} (hrest : ∀ c ∈ rest.head?, Stops c) :
    (decimal k n ++ rest).takeWhile (isDigitOf 10) = decimal k n := by
  have hdigit : ∀ c ∈ decimal k n, isDigitOf 10 c = true := by
    intro c hc
    obtain ⟨d, hd, rfl⟩ := mem_decimal hc
    rw [isDigitOf, Hex.value_digit (by omega), Option.any_some, decide_eq_true hd]
  rw [List.takeWhile_append_of_pos hdigit]
  cases rest with
  | nil => rw [List.takeWhile_nil, List.append_nil]
  | cons c rest =>
    have hstop : isDigitOf 10 c = false := by
      rw [isDigitOf, (hrest c rfl).1, Option.any_none]
    rw [List.takeWhile_cons_of_neg (by rw [hstop]; decide), List.append_nil]

/-- The digit of zero. -/
lemma decimal_zero (hk : 0 < k) : decimal k 0 = [48] := by
  obtain ⟨k, rfl⟩ := Nat.exists_eq_succ_of_ne_zero (Nat.ne_of_gt hk)
  rfl

/-- What was printed is read back, and nothing of what follows. -/
theorem convert_decimal (h : n < 10 ^ k) (hk : 0 < k) {rest : List UInt8}
    (hrest : ∀ c ∈ rest.head?, Stops c) :
    convert (decimal k n ++ rest) = ⟨false, n, (decimal k n).length⟩ := by
  rw [convert, based_decimal hk]
  rcases Nat.eq_zero_or_pos n with rfl | hn
  · have hzero : (48 :: rest).takeWhile (isDigitOf 8) = [48] := by
      rw [List.takeWhile_cons_of_pos (by decide)]
      cases rest with
      | nil => rfl
      | cons c rest =>
        rw [List.takeWhile_cons_of_neg (by rw [isDigitOf, (hrest c rfl).1]; decide)]
    rw [decimal_zero hk, List.singleton_append]
    dsimp only
    rw [base0_zero hrest]
    dsimp only
    rw [hzero, if_neg (List.cons_ne_nil _ _), Nat.sub_self, Nat.zero_add]
    rfl
  · have hbase : base0 (decimal k n ++ rest) = (10, decimal k n ++ rest) := by
      have hhead := head_decimal h (Nat.ne_of_gt hn)
      cases hd : decimal k n with
      | nil => exact absurd hd (decimal_ne_nil hk)
      | cons d ds =>
        have hd48 : d ≠ 48 := hhead d (by rw [hd]; rfl)
        unfold base0
        exact if_neg hd48
    dsimp only
    rw [hbase]
    dsimp only
    rw [takeWhile_decimal hrest, if_neg (decimal_ne_nil hk), ofDigits_decimal h hk, Nat.sub_self,
      Nat.zero_add]

end UwbCore.Lib.Decimal
