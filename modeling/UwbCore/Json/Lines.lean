import UwbCore.Json.Encode

/-!
# The text of a line

A table and a line of attributes in terms of json.h, the calls of the encoder for a line, the text they write
(`encodeLine_text`), and what the reader makes of the text of a number (`conv`).
-/

namespace UwbCore.Json.Text
open UwbCore.Lib

/-! ## Tables and lines -/

/-- The array of a table of numbers and arrays, with its addresses above `base`. -/
def arrayOf (base : Nat) (elem : Elem) (store maxlen : Nat) (count : Option Nat) : ArrayT where
  elementType := match elem with
    | .uinteger => .uinteger
    | .real => .real
  store := base + store
  stride := 0
  ptrs := 0
  storelen := 0
  count := count.map (base + ·)
  maxlen := maxlen

/-- The attribute of a table of numbers and arrays, with its addresses above `base`. -/
def attrOf (base : Nat) (a : Json.Attr) : Attr :=
  let plain (type : JsonType) (addr : Nat) : Attr :=
    { name := ascii a.name, type := type, addr := addr, array := ⟨.ignore, 0, 0, 0, 0, none, 0⟩,
      subtype := [], dflt := a.dflt.getD 0, check := [], len := 0, map := none,
      nodefault := a.dflt.isNone }
  match a.target with
  | .uinteger addr => plain .uinteger (base + addr)
  | .real addr => plain .real (base + addr)
  | .array elem store maxlen count =>
    { plain .array 0 with array := arrayOf base elem store maxlen count }

/-- The memory from an address on. -/
def above (base : Nat) (m : Mem) : Mem := fun x => m (base + x)

/-- What a number is for the encoder. -/
def valueOf : Number → JsonValue
  | .uint n => .uint64 n
  | .float x => .float64 x

def numberText (ft : FloatText) (n : Number) : List UInt8 := scalarText ft (valueOf n)

/-- The calls of the encoder for an attribute of a line. -/
def encodeAttr (ft : FloatText) (e : Encoder) (entry : String × Value) : Encoder :=
  match entry.2 with
  | .num n => (jsonEncodeObjectEntry ft e (ascii entry.1) (valueOf n)).2
  | .array ns =>
    jsonEncodeArrayFinish (ns.foldl (fun e n => (jsonEncodeArrayValue ft e (valueOf n)).2)
      (jsonEncodeArrayStart (jsonEncodeArrayName e (ascii entry.1))))

/-- The calls of the encoder for a line. -/
def encodeLine (ft : FloatText) (e : Encoder) (line : Line) : Encoder :=
  jsonEncodeObjectFinish (line.foldl (encodeAttr ft) (jsonEncodeObjectStart e))

/-! ## The text of a line -/

/-- Texts with a comma after each but the last. -/
def commaText : List (List UInt8) → List UInt8
  | [] => []
  | s :: ss => s ++ (if ss.isEmpty then [] else [44]) ++ commaText ss

def valueText (ft : FloatText) : Value → List UInt8
  | .num n => numberText ft n
  | .array ns => [91] ++ commaText (ns.map (numberText ft)) ++ [93]

def attrText (ft : FloatText) (entry : String × Value) : List UInt8 :=
  keyText (ascii entry.1) ++ valueText ft entry.2

def lineText (ft : FloatText) (line : Line) : List UInt8 :=
  [123] ++ commaText (line.map (attrText ft)) ++ [125]

section Encoded
variable {ft : FloatText} {t : List UInt8} {c : Bool}

/-- Each of a row of writers leaves a comma due, and writes the one that is due before it. -/
lemma foldl_commaText {α : Type} {write : Encoder → α → Encoder} {text : α → List UInt8}
    (hwrite : ∀ t c a, write ⟨t, c⟩ a = ⟨t ++ ((if c then [44] else []) ++ text a), true⟩) (as : List α)
    (t : List UInt8) (c : Bool) :
    as.foldl write ⟨t, c⟩ =
      ⟨t ++ ((if c && !as.isEmpty then [44] else []) ++ commaText (as.map text)), c || !as.isEmpty⟩ := by
  induction as generalizing t c with
  | nil => cases c <;> simp [commaText]
  | cons a as ih =>
    rw [List.foldl_cons, hwrite, ih]
    cases c <;> cases as <;> simp [commaText]

/-- A number is written. -/
lemma jsonEncodeValue_number (e : Encoder) (n : Number) :
    jsonEncodeValue ft e (valueOf n) = (0, e.write (numberText ft n)) := by
  cases n with
  | uint n => rfl
  | float x => rfl

/-- The comma that is due, and a text. -/
lemma comma_write (s : List UInt8) :
    Encoder.write (Encoder.comma ⟨t, c⟩) s = ⟨t ++ ((if c then [44] else []) ++ s), false⟩ := by
  cases c with
  | true => rw [Encoder.comma, if_pos rfl, Encoder.write, List.append_assoc]; rfl
  | false => rfl

/-- What an attribute of a line writes. -/
lemma encodeAttr_eq (t : List UInt8) (c : Bool) (entry : String × Value) :
    encodeAttr ft ⟨t, c⟩ entry = ⟨t ++ ((if c then [44] else []) ++ attrText ft entry), true⟩ := by
  obtain ⟨name, v⟩ := entry
  rw [encodeAttr, attrText]
  cases v with
  | num n =>
    dsimp only
    rw [jsonEncodeObjectEntry, comma_write, jsonEncodeValue_number]
    simp [Encoder.write, valueText]
  | array ns =>
    have hvalue : ∀ t c n, (jsonEncodeArrayValue ft ⟨t, c⟩ (valueOf n)).2 =
        ⟨t ++ ((if c then [44] else []) ++ numberText ft n), true⟩ := by
      intro t c n
      rw [jsonEncodeArrayValue, jsonEncodeValue_number, comma_write]
      rfl
    dsimp only
    rw [jsonEncodeArrayName, jsonEncodeObjectKey, comma_write, jsonEncodeArrayStart,
      Encoder.write, foldl_commaText hvalue, jsonEncodeArrayFinish]
    simp [Encoder.write, valueText]

/-- What a line writes. -/
lemma encodeLine_text (line : Line) : (encodeLine ft ⟨[], false⟩ line).text = lineText ft line := by
  rw [encodeLine, jsonEncodeObjectStart, comma_write, foldl_commaText encodeAttr_eq]
  simp [jsonEncodeObjectFinish, Encoder.write, lineText]

end Encoded

/-! ## Numbers as they are read -/

/-- A character of a number or a name of a table: no white space, and none that ends a value or begins
    one of another kind. -/
def Plain (c : UInt8) : Prop := c ≠ 0 ∧ Hex.isSpace c = false ∧ c ∉ [34, 44, 58, 91, 93, 125]

instance decidablePlain (c : UInt8) : Decidable (Plain c) := inferInstanceAs (Decidable (_ ∧ _))

/-- What the reader relies on of `printf` and `strtod`: a number that is printed is taken as a whole,
    and a comma or a bracket ends a number. -/
structure FloatText.Lawful (ft : FloatText) : Prop where
  plain : ∀ x, isNan x = false → ft.print x ≠ [] ∧ ∀ c ∈ ft.print x, Plain c
  whole : ∀ x, isNan x = false → (ft.strtod (ft.print x)).2 = (ft.print x).length
  stops : ∀ s rest, (∀ c ∈ rest.head?, c = 44 ∨ c = 93) → ft.strtod (s ++ rest) = ft.strtod s
  null : (ft.strtod (ascii "null")).2 = 0

/-- What an array makes of a number, and its error code. -/
def elementOf (conv : List UInt8 → BitVec 64 × Nat) (s : List UInt8) : BitVec 64 × Int :=
  ((conv s).1,
    if (conv s).2 = 0 then jsonErrBadnum else if (conv s).2 = s.length then 0 else jsonErrBadsubtrail)

section Numbers
variable {ft : FloatText}

/-- A number that was printed is read, whatever ends it. -/
lemma strtoull_decimal (n : BitVec 64) (rest : List UInt8) (h : ∀ c ∈ rest.head?, Decimal.Stops c) :
    Decimal.strtoull (Decimal.decimal 20 n.toNat ++ rest) =
      (n, (Decimal.decimal 20 n.toNat).length) := by
  have hlt : n.toNat < 10 ^ 20 := lt_trans n.isLt (by norm_num)
  rw [Decimal.strtoull, Decimal.convert_decimal hlt (by decide) h]
  dsimp only
  rw [if_neg (Nat.not_le_of_lt n.isLt), if_neg Bool.false_ne_true, BitVec.ofNat_toNat, BitVec.setWidth_eq]

/-- A digit is plain, and no letter of `null`. -/
lemma isDec_ne {c : UInt8} (h : ∃ d < 10, c = Hex.digit d) : Plain c ∧ c ≠ 110 := by
  obtain ⟨d, hd, rfl⟩ := h
  have hall : ∀ d : Fin 10, Plain (Hex.digit d) ∧ Hex.digit d ≠ 110 := by decide
  exact hall ⟨d, hd⟩

/-- A number has a text of plain characters. -/
lemma numberText_plain (hft : ft.Lawful) (n : Number) :
    numberText ft n ≠ [] ∧ ∀ c ∈ numberText ft n, Plain c := by
  cases n with
  | uint n => exact ⟨Decimal.decimal_ne_nil (by decide), fun c hc => (isDec_ne (Decimal.mem_decimal hc)).1⟩
  | float x =>
    show (if isNan x then ascii "null" else ft.print x) ≠ [] ∧
      ∀ c ∈ (if isNan x then ascii "null" else ft.print x), Plain c
    split
    case isTrue => exact ⟨by decide, by simp [ascii, Plain, Hex.isSpace]⟩
    case isFalse hx => exact hft.plain x (Bool.eq_false_iff.mpr hx)

/-- What the reader makes of the numbers of a line. -/
def conv (ft : FloatText) (hft : ft.Lawful) : Conv where
  scalar e n := match e with
    | .uinteger => (Decimal.strtoull (numberText ft n)).1
    | .real => (ft.strtod (numberText ft n)).1
  element e n := match e with
    | .uinteger => elementOf Decimal.strtoull (numberText ft n)
    | .real => if numberText ft n = ascii "null" then (nan, 0) else elementOf ft.strtod (numberText ft n)
  scalar_uint n := by
    have h := strtoull_decimal n [] (fun c hc => by cases hc)
    rw [List.append_nil] at h
    exact congrArg Prod.fst h
  element_uint n := by
    have h := strtoull_decimal n [] (fun c hc => by cases hc)
    rw [List.append_nil] at h
    show elementOf Decimal.strtoull (Decimal.decimal 20 n.toNat) = (n, 0)
    have hne : (Decimal.decimal 20 n.toNat).length ≠ 0 := fun h0 =>
      Decimal.decimal_ne_nil (by decide) (List.length_eq_zero_iff.mp h0)
    rw [elementOf, h, if_neg hne, if_pos rfl]
  element_float x := by
    show (if numberText ft (.float x) = ascii "null" then (nan, 0) else
      elementOf ft.strtod (numberText ft (.float x))).2 = 0
    split
    case isTrue => rfl
    case isFalse hnull =>
      have htext : numberText ft (.float x) = if isNan x then ascii "null" else ft.print x := rfl
      rw [htext] at hnull ⊢
      split at hnull
      case isTrue => exact absurd rfl hnull
      case isFalse hx =>
        have hx' : isNan x = false := Bool.eq_false_iff.mpr hx
        have hne : (ft.print x).length ≠ 0 := fun h0 => (hft.plain x hx').1 (List.length_eq_zero_iff.mp h0)
        rw [if_neg hx, elementOf]
        dsimp only
        rw [hft.whole x hx', if_neg hne, if_pos rfl]

end Numbers

end UwbCore.Json.Text
