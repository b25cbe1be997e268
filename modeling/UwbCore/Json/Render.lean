import UwbCore.Json.Encode
import UwbCore.Lib.JsonText

/-!
# Values as JSON texts

A value that can be written (`JsonValue.Writable`) has a text that stands for it in JSON (`render_denotes`).
Keys are not escaped by the encoder, nor are control characters without an escape of their own; what `printf`
makes of an infinite double is no number, and a number has to fit into `je_encode_buf`.
-/

namespace UwbCore.Json.Text
open UwbCore.Lib

/-! ## Values and their texts -/

mutual

/-- What a value stands for, if the double `x` is printed as the number `num x`. -/
def JsonValue.meaning (num : BitVec 64 → ℚ) : JsonValue → JsonText.Value
  | .array values => .array (meanings num values)
  | .object entries => .object (entryMeanings num entries)
  | .bool u => .bool (decide (0 < u.toNat))
  | .uint64 u => .number u.toNat
  | .int64 u => .number u.toInt
  | .float64 x => if isNan x then .null else .number (num x)
  | .string str => .string str
  | .other _ => .null

/-- What the elements stand for. -/
def meanings (num : BitVec 64 → ℚ) : List JsonValue → List JsonText.Value
  | [] => []
  | v :: values => v.meaning num :: meanings num values

/-- What the entries stand for. -/
def entryMeanings (num : BitVec 64 → ℚ) :
    List (List UInt8 × JsonValue) → List (List UInt8 × JsonText.Value)
  | [] => []
  | (key, v) :: entries => (key, v.meaning num) :: entryMeanings num entries

end

mutual

/-- The types are known, keys need no escape, a control character of a string has one, and a double that is a
    number is printed as one that `je_encode_buf` holds. -/
def JsonValue.Writable (ft : FloatText) (num : BitVec 64 → ℚ) : JsonValue → Prop
  | .array values => writableElements ft num values
  | .object entries => writableEntries ft num entries
  | .float64 x => isNan x = false → JsonText.Numeral (ft.print x) (num x) ∧ (ft.print x).length < 64
  | .string str => ∀ c ∈ str, 32 ≤ c ∨ c ∈ [8, 9, 10, 12, 13]
  | .other _ => False
  | .bool _ | .uint64 _ | .int64 _ => True

/-- The elements can be written. -/
def writableElements (ft : FloatText) (num : BitVec 64 → ℚ) : List JsonValue → Prop
  | [] => True
  | v :: values => v.Writable ft num ∧ writableElements ft num values

/-- The entries can be written. -/
def writableEntries (ft : FloatText) (num : BitVec 64 → ℚ) : List (List UInt8 × JsonValue) → Prop
  | [] => True
  | (key, v) :: entries =>
    (∀ c ∈ key, 32 ≤ c ∧ c ≠ 34 ∧ c ≠ 92) ∧ v.Writable ft num ∧ writableEntries ft num entries

end

mutual

/-- The text of a value, with a comma after each element and each entry but the last. -/
def render (ft : FloatText) : JsonValue → List UInt8
  | .array values => [91] ++ renderElements ft values ++ [93]
  | .object entries => [123] ++ renderEntries ft entries ++ [125]
  | .other jvType => scalarText ft (.other jvType)
  | .bool u => scalarText ft (.bool u)
  | .uint64 u => scalarText ft (.uint64 u)
  | .int64 u => scalarText ft (.int64 u)
  | .float64 x => scalarText ft (.float64 x)
  | .string str => scalarText ft (.string str)

/-- The elements with a comma after each but the last. -/
def renderElements (ft : FloatText) : List JsonValue → List UInt8
  | [] => []
  | v :: values => render ft v ++ (if values.isEmpty then [] else [44]) ++ renderElements ft values

/-- The entries with a comma after each but the last. -/
def renderEntries (ft : FloatText) : List (List UInt8 × JsonValue) → List UInt8
  | [] => []
  | (key, v) :: entries =>
    keyText key ++ render ft v ++ (if entries.isEmpty then [] else [44]) ++ renderEntries ft entries

end

/-! ## The text is one of the value -/

/-- A number below 10^20 is printed as one. -/
lemma magnitude_decimal {n : Nat} (h : n < 10 ^ 20) : JsonText.Magnitude (Decimal.decimal 20 n) n := by
  have hdigits : JsonText.Digits (Decimal.decimal 20 n) := by
    refine ⟨Decimal.decimal_ne_nil (by decide), fun c hc => ?_⟩
    obtain ⟨d, hd, rfl⟩ := Decimal.mem_decimal hc
    have hall : ∀ d : Fin 10, 48 ≤ Hex.digit d ∧ Hex.digit d ≤ 57 := by decide
    exact hall ⟨d, hd⟩
  have hwhole : JsonText.Whole (Decimal.decimal 20 n) := by
    refine ⟨hdigits, fun hhead => ?_⟩
    by_cases hn : n = 0
    · rw [hn, Decimal.decimal_zero (by decide)]
    · exact absurd rfl (Decimal.head_decimal h hn 48 hhead)
  have hmk := JsonText.Magnitude.mk hwhole .none .none
  rw [List.append_nil, List.append_nil, Decimal.ofDigits_decimal h (by decide)] at hmk
  simpa using hmk

/-- An unsigned number. -/
lemma numeral_uint (u : BitVec 64) : JsonText.Numeral (Decimal.decimal 20 u.toNat) u.toNat :=
  .plain (magnitude_decimal (lt_trans u.isLt (by norm_num)))

/-- A number with a sign. -/
lemma numeral_int (u : BitVec 64) : JsonText.Numeral (printLld u) u.toInt := by
  rw [printLld]
  split
  case isTrue hneg =>
    have hval : u.toInt = -((-u).toNat : ℤ) := by
      have hlt := u.isLt
      rw [BitVec.msb_eq_decide, decide_eq_true_iff] at hneg
      rw [BitVec.toInt_eq_toNat_cond, if_neg (by omega), BitVec.toNat_neg]
      omega
    rw [hval]
    push_cast
    exact .minus (magnitude_decimal (lt_trans (-u).isLt (by norm_num)))
  case isFalse hneg =>
    have hval : u.toInt = (u.toNat : ℤ) := by
      rw [BitVec.msb_eq_decide, decide_eq_true_iff] at hneg
      rw [BitVec.toInt_eq_toNat_cond, if_pos (by omega)]
    rw [hval]
    exact numeral_uint u

/-- The characters that are written for a byte. -/
lemma chars_escape {c : UInt8} (hc : 32 ≤ c ∨ c ∈ [8, 9, 10, 12, 13]) {s bytes : List UInt8}
    (h : JsonText.Chars s bytes) : JsonText.Chars (escape c ++ s) (c :: bytes) := by
  rw [escape]
  split
  case isTrue hraw =>
    refine .escape ?_ h
    rcases hraw with rfl | rfl | rfl <;> decide
  case isFalse hraw =>
    simp only [not_or] at hraw
    split
    case isTrue h9 => exact .escape (by rw [h9]; decide) h
    split
    case isTrue h13 => exact .escape (by rw [h13]; decide) h
    split
    case isTrue h10 => exact .escape (by rw [h10]; decide) h
    split
    case isTrue h12 => exact .escape (by rw [h12]; decide) h
    split
    case isTrue h8 => exact .escape (by rw [h8]; decide) h
    case isFalse h9 h13 h10 h12 h8 =>
      have hplain : 32 ≤ c := hc.resolve_right fun hin => by
        simp only [List.mem_cons, List.not_mem_nil, or_false] at hin
        rcases hin with hin | hin | hin | hin | hin
        · exact h8 hin
        · exact h9 hin
        · exact h10 hin
        · exact h12 hin
        · exact h13 hin
      exact .plain ⟨hplain, hraw.1, hraw.2.2⟩ h

/-- The characters that are written for a string. -/
lemma chars_flatMap_escape {str : List UInt8} (h : ∀ c ∈ str, 32 ≤ c ∨ c ∈ [8, 9, 10, 12, 13]) :
    JsonText.Chars (str.flatMap escape) str := by
  induction str with
  | nil => exact .nil
  | cons c str ih =>
    rw [List.flatMap_cons]
    exact chars_escape (h c List.mem_cons_self) (ih fun x hx => h x (List.mem_cons_of_mem _ hx))

variable {ft : FloatText} {num : BitVec 64 → ℚ}

mutual

/-- The text of a value that can be written is one of JSON. -/
lemma render_denotes : ∀ v : JsonValue, v.Writable ft num →
    JsonText.Denotes (render ft v) (v.meaning num)
  | .array values, hv => by
    obtain ⟨parts, hparts, hlisted, hmeaning⟩ := elements_listed values hv
    rw [render, JsonValue.meaning, ← hmeaning]
    exact .array parts hparts hlisted
  | .object entries, hv => by
    obtain ⟨members, hmembers, hlisted, hmeaning⟩ := entries_listed entries hv
    rw [render, JsonValue.meaning, ← hmeaning]
    exact .object members (fun m hm => (hmembers m hm).1) (fun m hm => (hmembers m hm).2.1)
      (fun m hm => (hmembers m hm).2.2) hlisted
  | .bool u, _ => by
    rw [render, scalarText, JsonValue.meaning]
    split
    case isTrue h =>
      rw [decide_eq_true h]
      exact .true
    case isFalse h =>
      rw [decide_eq_false h]
      exact .false
  | .uint64 u, _ => .number (numeral_uint u)
  | .int64 u, _ => .number (numeral_int u)
  | .float64 x, hv => by
    rw [render, scalarText, JsonValue.meaning]
    cases hx : isNan x with
    | true => exact .null
    | false => exact .number (hv hx).1
  | .string str, hv => .string (chars_flatMap_escape hv)
  | .other _, hv => hv.elim

/-- The elements are listed. -/
lemma elements_listed : ∀ values : List JsonValue, writableElements ft num values →
    ∃ parts : List (List UInt8 × JsonText.Value), (∀ p ∈ parts, JsonText.Denotes p.1 p.2) ∧
      JsonText.Listed (parts.map Prod.fst) (renderElements ft values) ∧
      parts.map Prod.snd = meanings num values
  | [], _ => ⟨[], fun p hp => absurd hp List.not_mem_nil, .nil JsonText.blank_nil, rfl⟩
  | v :: values, hv => by
    obtain ⟨parts, hparts, hlisted, hmeaning⟩ := elements_listed values hv.2
    have hfirst := render_denotes v hv.1
    refine ⟨(render ft v, v.meaning num) :: parts, fun p hp => ?_, ?_, ?_⟩
    · rcases List.mem_cons.mp hp with rfl | hp
      · exact hfirst
      · exact hparts p hp
    · have hempty : values.isEmpty = (parts.map Prod.fst).isEmpty := by
        cases values with
        | nil => cases parts with
          | nil => rfl
          | cons p parts => cases hmeaning
        | cons v values => cases parts with
          | nil => cases hmeaning
          | cons p parts => rfl
      rw [renderElements, hempty]
      exact hlisted.more (render ft v)
    · rw [List.map_cons, hmeaning, meanings]

/-- The entries are listed. -/
lemma entries_listed : ∀ entries : List (List UInt8 × JsonValue), writableEntries ft num entries →
    ∃ members : List JsonText.Member,
      (∀ m ∈ members, JsonText.Chars m.keyText m.key ∧ (JsonText.Blank m.before ∧ JsonText.Blank m.behind) ∧
        JsonText.Denotes m.text m.value) ∧
      JsonText.Listed (members.map JsonText.Member.whole) (renderEntries ft entries) ∧
      (members.map fun m => (m.key, m.value)) = entryMeanings num entries
  | [], _ => ⟨[], fun p hp => absurd hp List.not_mem_nil, .nil JsonText.blank_nil, rfl⟩
  | (key, v) :: entries, hv => by
    obtain ⟨members, hmembers, hlisted, hmeaning⟩ := entries_listed entries hv.2.2
    have hfirst := render_denotes v hv.2.1
    have hwhole : JsonText.Member.whole ⟨key, key, [], [32], render ft v, v.meaning num⟩ =
        keyText key ++ render ft v := by
      simp [JsonText.Member.whole, keyText]
    refine ⟨⟨key, key, [], [32], render ft v, v.meaning num⟩ :: members, fun m hm => ?_, ?_, ?_⟩
    · rcases List.mem_cons.mp hm with rfl | hm
      · exact ⟨JsonText.chars_of_plain hv.1,
          ⟨JsonText.blank_nil, fun c hc => .inl (List.mem_singleton.mp hc)⟩, hfirst⟩
      · exact hmembers m hm
    · have hempty : entries.isEmpty = (members.map JsonText.Member.whole).isEmpty := by
        cases entries with
        | nil => cases members with
          | nil => rfl
          | cons p parts => cases hmeaning
        | cons v values => cases members with
          | nil => cases hmeaning
          | cons p parts => rfl
      rw [renderEntries, hempty, List.map_cons, hwhole]
      exact hlisted.more (keyText key ++ render ft v)
    · rw [List.map_cons, hmeaning, entryMeanings]

end

end UwbCore.Json.Text
