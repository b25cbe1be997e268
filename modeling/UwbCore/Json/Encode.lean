import UwbCore.Json.Decode

/-!
# The writer of JSON text

The functions of json_encode.c hand their text piece by piece to `je_write`; here it is collected in the
encoder. A comma between two entries of an object is written by the next entry, which looks at
`je_wr_commas`; the commas between the elements of an array are written by the array. An object that is
an element of an array does not begin without a comma: the entry before it left `je_wr_commas` set.
Numbers go through `je_encode_buf`, which the model leaves out: it has 64 bytes.
-/

namespace UwbCore.Json.Text
open UwbCore.Lib

/-- `struct json_encoder`: what went to `je_write`, and `je_wr_commas`. -/
structure Encoder where
  text : List UInt8
  wrCommas : Bool
  deriving DecidableEq, Repr

/-- `struct json_value` with `jv_len` bytes, elements or entries. -/
inductive JsonValue where
  | bool (u : BitVec 64)
  | uint64 (u : BitVec 64)
  | int64 (u : BitVec 64)
  | float64 (x : BitVec 64)
  | string (str : List UInt8)
  | array (values : List JsonValue)
  | object (entries : List (List UInt8 × JsonValue))
  /-- A `jv_type` that is none of these. -/
  | other (jvType : UInt8)

def Encoder.write (e : Encoder) (s : List UInt8) : Encoder := { e with text := e.text ++ s }

/-- The comma before an entry. -/
def Encoder.comma (e : Encoder) : Encoder :=
  if e.wrCommas then ⟨e.text ++ [44], false⟩ else e

/-- The characters of a string that `json_encode_value` writes for one of its bytes. -/
def escape (c : UInt8) : List UInt8 :=
  if c = 34 ∨ c = 47 ∨ c = 92 then [92, c]
  else if c = 9 then [92, 116]
  else if c = 13 then [92, 114]
  else if c = 10 then [92, 110]
  else if c = 12 then [92, 102]
  else if c = 8 then [92, 98]
  else [c]

/-- The text of a value that is no array and no object. -/
def scalarText (ft : FloatText) : JsonValue → List UInt8
  | .bool u => if 0 < u.toNat then ascii "true" else ascii "false"
  | .uint64 u => Decimal.decimal 20 u.toNat
  | .int64 u => printLld u
  | .float64 x => if isNan x then ascii "null" else ft.print x
  | .string str => [34] ++ str.flatMap escape ++ [34]
  | _ => []

/-- The key of an entry. -/
def keyText (key : List UInt8) : List UInt8 := [34] ++ key ++ [34, 58, 32]

mutual

/-- C `json_encode_value`. -/
def jsonEncodeValue (ft : FloatText) (e : Encoder) : JsonValue → Int × Encoder
  | .array values =>
    let r := encodeElements ft (e.write [91]) values
    if r.1 = 0 then (0, r.2.write [93]) else r
  | .object entries =>
    let r := encodeEntries ft (e.write [123]) entries
    if r.1 = 0 then (0, r.2.write [125]) else r
  | .other _ => (-1, e)
  | .bool u => (0, e.write (scalarText ft (.bool u)))
  | .uint64 u => (0, e.write (scalarText ft (.uint64 u)))
  | .int64 u => (0, e.write (scalarText ft (.int64 u)))
  | .float64 x => (0, e.write (scalarText ft (.float64 x)))
  | .string str => (0, e.write (scalarText ft (.string str)))

/-- The loop over the elements of an array. -/
def encodeElements (ft : FloatText) (e : Encoder) : List JsonValue → Int × Encoder
  | [] => (0, e)
  | v :: values =>
    let r := jsonEncodeValue ft e v
    if r.1 = 0 then
      encodeElements ft (if values.isEmpty then r.2 else r.2.write [44]) values
    else r

/-- The loop over the entries of an object, each of which is one call of `json_encode_object_entry`. -/
def encodeEntries (ft : FloatText) (e : Encoder) : List (List UInt8 × JsonValue) → Int × Encoder
  | [] => (0, e)
  | (key, v) :: entries =>
    let r := jsonEncodeValue ft (e.comma.write (keyText key)) v
    if r.1 = 0 then encodeEntries ft { r.2 with wrCommas := true } entries else r

end

/-- C `json_encode_object_entry`. -/
def jsonEncodeObjectEntry (ft : FloatText) (e : Encoder) (key : List UInt8) (v : JsonValue) :
    Int × Encoder :=
  let r := jsonEncodeValue ft (e.comma.write (keyText key)) v
  if r.1 = 0 then (0, { r.2 with wrCommas := true }) else r

/-- C `json_encode_object_start`. -/
def jsonEncodeObjectStart (e : Encoder) : Encoder := { e.comma.write [123] with wrCommas := false }

/-- C `json_encode_object_key`. -/
def jsonEncodeObjectKey (e : Encoder) (key : List UInt8) : Encoder := e.comma.write (keyText key)

/-- C `json_encode_object_finish`. -/
def jsonEncodeObjectFinish (e : Encoder) : Encoder := { e.write [125] with wrCommas := true }

/-- C `json_encode_array_name`. -/
def jsonEncodeArrayName (e : Encoder) (name : List UInt8) : Encoder := jsonEncodeObjectKey e name

/-- C `json_encode_array_start`. -/
def jsonEncodeArrayStart (e : Encoder) : Encoder := { e.write [91] with wrCommas := false }

/-- C `json_encode_array_value`. -/
def jsonEncodeArrayValue (ft : FloatText) (e : Encoder) (v : JsonValue) : Int × Encoder :=
  let r := jsonEncodeValue ft e.comma v
  if r.1 = 0 then (0, { r.2 with wrCommas := true }) else r

/-- C `json_encode_array_finish`. -/
def jsonEncodeArrayFinish (e : Encoder) : Encoder := { e.write [93] with wrCommas := true }

/-! ## Doubles that are natural numbers -/

/-- The double of a number below 2^53. -/
def ofWhole (n : Nat) : BitVec 64 :=
  if n = 0 then 0 else BitVec.ofNat 64 ((1022 + n.log2) * 2 ^ 52 + n * 2 ^ (52 - n.log2))

example : ofWhole 5 = 0x4014000000000000 ∧ ofWhole 70 = 0x4051800000000000 := by decide

/-- What stands before the point of a double without a sign. -/
def wholeOf (x : BitVec 64) : Nat :=
  let exponent := x.toNat / 2 ^ 52 % 2 ^ 11
  if exponent < 1023 then 0 else (2 ^ 52 + x.toNat % 2 ^ 52) * 2 ^ (exponent - 1023) / 2 ^ 52

/-- A character of a number without a sign. -/
def isNumeral (c : UInt8) : Bool := isDec c || c == 46

/-- Doubles that are natural numbers: `%.3f` prints them with three zeros, and `strtod` reads what stands
    before the point. -/
def wholeText : FloatText where
  print x := Decimal.decimal 20 (wholeOf x) ++ [46, 48, 48, 48]
  strtod s :=
    let t := s.takeWhile isNumeral
    (ofWhole (Decimal.ofDigits 10 (t.takeWhile isDec)), t.length)
  strtod_le _ := (List.takeWhile_sublist isNumeral).length_le

end UwbCore.Json.Text
