import Mathlib.Data.List.GetD
import UwbCore.Json.Basic
import UwbCore.Lib.Decimal

/-!
# The reader of JSON text

`json_read_object` on the bytes of a line: the loop over the characters with its nine states, the array
reader, which calls the loop for objects in arrays, and the decoder with its position, which both of them
also move backwards. All types of attributes are here, for the build with `FLOAT_SUPPORT` outside of the
kernel; how a double is printed and read is a parameter (`FloatText`).

What is read behind the NUL of the text and what is written behind the two buffers on the stack is part of
the state (`Decoder.past`, `St.wild`). The loops get a number of rounds.
-/

namespace UwbCore.Json.Text
open UwbCore.Lib

def jsonErrObstart : Int := 1
def jsonErrAttrstart : Int := 2
def jsonErrAttrlen : Int := 4
def jsonErrStrlong : Int := 7
def jsonErrToklong : Int := 8
def jsonErrBadtrail : Int := 9
def jsonErrArraystart : Int := 10
def jsonErrBadsubtrail : Int := 13
def jsonErrSubtype : Int := 14
def jsonErrBadstring : Int := 15
def jsonErrCheckfail : Int := 16
def jsonErrNoparstr : Int := 17
def jsonErrBadenum : Int := 18
def jsonErrQnonstring : Int := 19
def jsonErrNonqstring : Int := 20
def jsonErrMisc : Int := 21
def jsonErrBadnum : Int := 22

def jsonAttrMax : Nat := 31
def jsonValMax : Nat := 512

/-- The bytes of a text in ASCII. -/
def ascii (s : String) : List UInt8 := s.toList.map fun c => .ofNat c.toNat

/-- The bytes before the NUL of a C string. -/
def cstr (buf : List UInt8) : List UInt8 := buf.takeWhile (· ≠ 0)

/-- How a double that is a number is printed, and C `strtod`, which gives a double and the number of
    characters that were taken for it. -/
structure FloatText where
  print : BitVec 64 → List UInt8
  strtod : List UInt8 → BitVec 64 × Nat
  strtod_le : ∀ s, (strtod s).2 ≤ s.length

/-- `NAN` -/
def nan : BitVec 64 := 0x7FF8000000000000

/-! ## The decoder -/

/-- `json_decoder_t`: the bytes before `end_buf`, where their NUL is, and `current_position`; and whether a
    byte behind the NUL was read, or a negative number of bytes was to be copied. -/
structure Decoder where
  text : List UInt8
  pos : Nat
  past : Bool
  deriving DecidableEq, Repr

/-- A decoder at the start of a text. -/
def Decoder.init (text : List UInt8) : Decoder := ⟨text, 0, false⟩

/-- The byte at a position, the NUL behind the text included. -/
def Decoder.byte (d : Decoder) (i : Nat) : UInt8 := d.text.getD i 0

/-- C `json_read_next`. -/
def jsonReadNext (d : Decoder) : UInt8 × Decoder :=
  if d.pos ≤ d.text.length then (d.byte d.pos, { d with pos := d.pos + 1 }) else (0, d)

/-- C `json_read_prev`. -/
def jsonReadPrev (d : Decoder) : UInt8 × Decoder :=
  if d.pos = 0 then (0, d)
  else (d.byte (d.pos - 1),
    { d with pos := d.pos - 1, past := d.past || decide (d.text.length < d.pos - 1) })

/-- C `json_readn`. Behind `end_buf` the number of bytes that are left is negative. -/
def jsonReadn (d : Decoder) (size : Nat) : List UInt8 × Decoder :=
  ((d.text.drop d.pos).take size, { d with
    pos := d.pos + min size (d.text.length - d.pos)
    past := d.past || decide (d.text.length < d.pos) })

/-- A number of calls of `json_read_prev`. -/
def rewind (d : Decoder) : Nat → Decoder
  | 0 => d
  | count + 1 => rewind (jsonReadPrev d).2 count

/-- The loop of `json_skip_ws`. -/
def skipLoop : Nat → Decoder → Decoder
  | 0, d => d
  | n + 1, d =>
    if Hex.isSpace (jsonReadNext d).1 then skipLoop n (jsonReadNext d).2 else (jsonReadNext d).2

/-- C `json_skip_ws`; the NUL of the text is no white space. -/
def jsonSkipWs (d : Decoder) : Decoder := (jsonReadPrev (skipLoop (d.text.length + 1) d)).2

/-- C `json_peek`. -/
def jsonPeek (d : Decoder) : UInt8 × Decoder := jsonReadPrev (jsonReadNext d).2

/-! ## Tables -/

/-- `json_type` -/
inductive JsonType where
  | integer | uinteger | real | string | boolean | character | object | structobject | array | check
  | ignore
  deriving DecidableEq, Repr

/-- `struct json_array_t`; `store` is also the base of an array of objects, whose table is kept apart. -/
structure ArrayT where
  elementType : JsonType
  store : Nat
  stride : Nat
  ptrs : Nat
  storelen : Nat
  count : Option Nat
  maxlen : Nat
  deriving DecidableEq, Repr

/-- `struct json_attr_t`, with the table of the objects in its array. The default of a boolean or of a
    character is the first byte of `dflt`. -/
structure Attr where
  name : List UInt8
  type : JsonType
  addr : Nat
  array : ArrayT
  subtype : List Attr
  dflt : BitVec 64
  check : List UInt8
  len : Nat
  map : Option (List (List UInt8 × BitVec 64))
  nodefault : Bool

/-- The members of an array of structures are at their offsets in each of them. -/
def inStruct (parent : Option ArrayT) : Bool := parent.any (·.elementType == .structobject)

/-- Strings cannot go into parallel arrays. -/
def parallel (parent : Option ArrayT) (offset : Nat) : Bool :=
  parent.any (·.elementType != .structobject) && decide (0 < offset)

/-- C `json_target_address`, 0 for none. -/
def jsonTargetAddress (a : Attr) (parent : Option ArrayT) (offset : Nat) : Nat :=
  match parent with
  | none => plain
  | some p => if p.elementType = .structobject then p.store + offset * p.stride + a.addr else plain
where
  plain := match a.type with
    | .integer | .uinteger | .real => a.addr + 8 * offset
    | .string => a.addr
    | .boolean | .character => a.addr + offset
    | _ => 0

/-! ## State -/

/-- The attribute that was found, those after it in the table, and the name in the text. -/
structure Cursor where
  attr : Attr
  rest : List Attr
  attrbuf : List UInt8

/-- The states of `json_internal_read_object`, each with the variables that are in use in it: a buffer
    has the bytes before its pointer, which is therefore never missing. -/
inductive State where
  | init
  | awaitAttr
  | inAttr (attrbuf : List UInt8)
  | awaitValue (cursor : Cursor)
  | inValString (cursor : Cursor) (valbuf : List UInt8)
  | inEscape (cursor : Cursor) (valbuf : List UInt8)
  | inValToken (cursor : Cursor) (valbuf : List UInt8)
  | postVal (cursor : Cursor) (valbuf : List UInt8) (valueQuoted : Bool)
  | postArray

/-- The state and the bound of a value, which types without one of their own take from the attribute
    before them. -/
structure Locals where
  state : State
  maxlen : Int

/-- Whether the buffer for names was overrun, and the one for values. -/
structure Wild where
  name : Bool
  value : Bool

/-- The decoder and the memory, and what became of the buffers on the stack. -/
structure St where
  dec : Decoder
  mem : Mem
  wild : Wild

/-- A byte is written to `attrbuf` at the index `i`. -/
def St.touchName (s : St) (i : Nat) : St :=
  { s with wild := { s.wild with name := s.wild.name || decide (jsonAttrMax + 1 ≤ i) } }

/-- A byte is written to `valbuf` at the index `i`. -/
def St.touchValue (s : St) (i : Nat) : St :=
  { s with wild := { s.wild with value := s.wild.value || decide (jsonValMax + 1 ≤ i) } }

/-- What a character does: the loop goes on, goes on after an array was read, or returns. -/
inductive Step where
  | next (l : Locals) (s : St)
  | array (a : Attr) (maxlen : Int) (s : St)
  | ret (rc : Int) (s : St)

/-! ## Values -/

/-- The default of an attribute; none for `JSON_ERR_NOPARSTR`. -/
def stuffAttr (parent : Option ArrayT) (offset : Nat) (m : Mem) (a : Attr) : Option Mem :=
  let lptr := jsonTargetAddress a parent offset
  if a.nodefault ∨ lptr = 0 then some m
  else match a.type with
    | .integer | .uinteger | .real => some (m.store64 lptr a.dflt)
    | .string => if parallel parent offset then none else some (m.storeBytes lptr [0])
    | .boolean | .character => some (m.storeBytes lptr [byteAt a.dflt.toNat 0])
    | _ => some m

/-- The loop over the defaults. -/
def stuff (parent : Option ArrayT) (offset : Nat) : Mem → List Attr → Int × Mem
  | m, [] => (0, m)
  | m, a :: attrs =>
    match stuffAttr parent offset m a with
    | none => (jsonErrNoparstr, m)
    | some m => stuff parent offset m attrs

/-- The first attribute with a name. -/
def findAttr (name : List UInt8) : List Attr → Option Cursor
  | [] => none
  | a :: rest => if a.name = name then some ⟨a, rest, name⟩ else findAttr name rest

/-- `maxlen` after the name of an attribute. -/
def valueLimit (a : Attr) (maxlen : Int) : Int :=
  match a.type with
  | .string => a.len - 1
  | .check => a.check.length
  | .ignore => jsonValMax
  | .boolean => if a.map.isSome then jsonValMax else 5
  | _ => if a.map.isSome then jsonValMax else maxlen

/-- C `isdigit`. -/
def isDec (c : UInt8) : Bool := decide (48 ≤ c ∧ c ≤ 57)

/-- Whether the search over the attributes of one name ends at this type. -/
def fits (val : List UInt8) (valueQuoted : Bool) (t : JsonType) : Bool :=
  (valueQuoted && t == .string) ||
    ((val == ascii "true" || val == ascii "false") && t == .boolean) ||
    (isDec (val.headD 0) &&
      if 46 ∈ val then t == .real else t == .integer || t == .uinteger)

/-- The attribute among those of one name that the value is for. -/
def seek (val : List UInt8) (valueQuoted : Bool) (attrbuf : List UInt8) : Attr → List Attr → Cursor
  | a, [] => ⟨a, [], attrbuf⟩
  | a, b :: rest =>
    if fits val valueQuoted a.type then ⟨a, b :: rest, attrbuf⟩
    else if b.name = attrbuf then seek val valueQuoted attrbuf b rest
    else ⟨a, b :: rest, attrbuf⟩

/-- The error of a value that is quoted and should not be, or the other way, 0 for none. -/
def quoteError (a : Attr) (valueQuoted : Bool) : Int :=
  if valueQuoted then
    if a.type ∉ [JsonType.string, .character, .check, .ignore] ∧ a.map.isNone then jsonErrQnonstring else 0
  else if a.type ∈ [JsonType.string, .check] ∨ a.map.isSome then jsonErrNonqstring
  else 0

/-- C `%lld`. -/
def printLld (v : BitVec 64) : List UInt8 :=
  if v.msb then 45 :: Decimal.decimal 20 (-v).toNat else Decimal.decimal 20 v.toNat

/-- The value of an enumeration in place of its name; none for `JSON_ERR_BADENUM`. -/
def enumValue (a : Attr) (val : List UInt8) : Option (List UInt8) :=
  match a.map with
  | none => some val
  | some names => (names.find? (·.1 == val)).map fun e => printLld e.2

/-- C `strncpy`. -/
def strncpy (m : Mem) (addr : Nat) (val : List UInt8) (n : Nat) : Mem :=
  m.storeBytes addr (val.take n ++ List.replicate (n - val.length) 0)

/-- The store of a value of the attribute's type. -/
def storeValue (ft : FloatText) (parent : Option ArrayT) (offset : Nat) (a : Attr) (val : List UInt8)
    (m : Mem) : Int × Mem :=
  let lptr := jsonTargetAddress a parent offset
  if lptr = 0 then (0, m)
  else match a.type with
    | .integer => (0, m.store64 lptr (Decimal.strtoll val).1)
    | .uinteger => (0, m.store64 lptr (Decimal.strtoull val).1)
    | .real => (0, m.store64 lptr (ft.strtod val).1)
    | .string => if parallel parent offset then (jsonErrNoparstr, m) else (0, strncpy m lptr val a.len)
    | .boolean => (0, m.storeBytes lptr [if val = ascii "true" then 1 else 0])
    | .character =>
      if 1 < val.length then (jsonErrStrlong, m) else (0, m.storeBytes lptr [val.headD 0])
    | .check => (if a.check = val then 0 else jsonErrCheckfail, m)
    | _ => (0, m)

/-! ## The loop of an object -/

/-- The branch `post_array`, also the end of `post_val`; on white space the loop stays where it is. -/
def afterValue (c : UInt8) (again : State) (maxlen : Int) (s : St) : Step :=
  if Hex.isSpace c then .next ⟨again, maxlen⟩ s
  else if c = 44 then .next ⟨.awaitAttr, maxlen⟩ s
  else if c = 125 then .ret 0 s
  else .ret jsonErrBadtrail s

/-- The branch `post_val`. -/
def postVal (ft : FloatText) (parent : Option ArrayT) (offset : Nat) (c : UInt8) (cursor : Cursor)
    (valbuf : List UInt8) (valueQuoted : Bool) (maxlen : Int) (s : St) : Step :=
  let cursor := seek (cstr valbuf) valueQuoted cursor.attrbuf cursor.attr cursor.rest
  if quoteError cursor.attr valueQuoted = 0 then
    match enumValue cursor.attr (cstr valbuf) with
    | none => .ret jsonErrBadenum s
    | some val =>
      let r := storeValue ft parent offset cursor.attr val s.mem
      if r.1 = 0 then
        afterValue c (.postVal cursor (val.take jsonValMax) valueQuoted) maxlen { s with mem := r.2 }
      else .ret r.1 { s with mem := r.2 }
  else .ret (quoteError cursor.attr valueQuoted) s

/-- The loop over the four characters of a `\u`, of which the `u` is the first. -/
def uescapeLoop : Nat → UInt8 → List UInt8 → Decoder → List UInt8 × Decoder
  | 0, _, uescape, d => (uescape, d)
  | n + 1, c, uescape, d =>
    if c = 0 then (uescape, d)
    else uescapeLoop n (jsonReadNext d).1 (uescape ++ [c]) (jsonReadNext d).2

/-- The branch `in_escape`. -/
def inEscape (c : UInt8) (cursor : Cursor) (valbuf : List UInt8) (maxlen : Int) (s : St) : Step :=
  let put (c : UInt8) (dec : Decoder) : Step :=
    .next ⟨.inValString cursor (valbuf ++ [c]), maxlen⟩
      { s.touchValue valbuf.length with dec := dec }
  if c = 98 then put 8 s.dec
  else if c = 102 then put 12 s.dec
  else if c = 110 then put 10 s.dec
  else if c = 114 then put 13 s.dec
  else if c = 116 then put 9 s.dec
  else if c = 117 then
    let r := uescapeLoop 4 c [] s.dec
    put (.ofBitVec (BitVec.ofInt 8 (Hex.strtol (2 ^ 64 - 1) r.1))) (jsonReadPrev r.2).2
  else put c s.dec

/-- The loop body for a character that was read. -/
def objStep (ft : FloatText) (attrs : List Attr) (parent : Option ArrayT) (offset : Nat) (c : UInt8)
    (l : Locals) (s : St) : Step :=
  match l.state with
  | .init =>
    if Hex.isSpace c then .next l s
    else if c = 123 then .next { l with state := .awaitAttr } s
    else .ret jsonErrObstart s
  | .awaitAttr =>
    if Hex.isSpace c then .next l s
    else if c = 34 then .next { l with state := .inAttr [] } s
    -- the `break` only leaves the switch
    else if c = 125 then .next l s
    else .ret jsonErrAttrstart s
  | .inAttr attrbuf =>
    if c = 34 then
      let s := s.touchName attrbuf.length
      match findAttr attrbuf attrs with
      | none => .ret jsonErrBadattr s
      | some cursor => .next ⟨.awaitValue cursor, valueLimit cursor.attr l.maxlen⟩ s
    else if jsonAttrMax - 1 ≤ attrbuf.length then .ret jsonErrAttrlen s
    else
      .next { l with state := .inAttr (attrbuf ++ [c]) } (s.touchName attrbuf.length)
  | .awaitValue cursor =>
    if Hex.isSpace c ∨ c = 58 then .next l s
    else if c = 91 then
      if cursor.attr.type = .array then
        .array cursor.attr l.maxlen { s with dec := (jsonReadPrev s.dec).2 }
      else .ret jsonErrNoarray s
    else if cursor.attr.type = .array then .ret jsonErrNobrak s
    else if c = 34 then .next { l with state := .inValString cursor [] } s
    else .next { l with state := .inValToken cursor [c] } s
  | .inValString cursor valbuf =>
    if c = 92 then .next { l with state := .inEscape cursor valbuf } s
    else if c = 34 then
      .next { l with state := .postVal cursor valbuf true } (s.touchValue valbuf.length)
    else if jsonValMax - 1 < valbuf.length ∨ l.maxlen < valbuf.length then .ret jsonErrStrlong s
    else
      .next { l with state := .inValString cursor (valbuf ++ [c]) }
        (s.touchValue valbuf.length)
  | .inEscape cursor valbuf => inEscape c cursor valbuf l.maxlen s
  | .inValToken cursor valbuf =>
    if Hex.isSpace c ∨ c = 44 ∨ c = 125 then
      .next { l with state := .postVal cursor valbuf false }
        { s.touchValue valbuf.length with
          dec := if c = 44 ∨ c = 125 then (jsonReadPrev s.dec).2 else s.dec }
    else if jsonValMax - 1 < valbuf.length then .ret jsonErrToklong s
    else
      .next { l with state := .inValToken cursor (valbuf ++ [c]) }
        (s.touchValue valbuf.length)
  | .postVal cursor valbuf valueQuoted => postVal ft parent offset c cursor valbuf valueQuoted l.maxlen s
  | .postArray => afterValue c .postArray l.maxlen s

/-! ## Elements of arrays -/

/-- An element that is a number: what `strtoll` and its like make of the next 63 bytes. -/
def readNumber (conv : List UInt8 → BitVec 64 × Nat) (addr : Nat) (s : St) : Int × St :=
  let r := jsonReadn s.dec 63
  let x := conv r.1
  let s : St := { s with dec := r.2, mem := s.mem.store64 addr x.1 }
  if x.2 = 0 then (jsonErrBadnum, s) else (0, { s with dec := rewind s.dec (r.1.length - x.2) })

/-- An element that is a double, or `null`. -/
def readReal (ft : FloatText) (addr : Nat) (s : St) : Int × St :=
  let valbuf := (jsonReadn s.dec 63).1
  if (ft.strtod valbuf).2 = 0 ∧ valbuf.take 4 = ascii "null" then
    readNumber (fun _ => (nan, 4)) addr s
  else readNumber ft.strtod addr s

/-- An element that is a boolean. -/
def readBoolean (addr : Nat) (s : St) : Int × St :=
  let r := jsonReadn s.dec 5
  let s : St := { s with dec := r.2 }
  if r.1.take 4 = ascii "true" then
    (0, { s with mem := s.mem.storeBytes addr [1], dec := rewind s.dec (r.1.length - 4) })
  else if r.1 = ascii "false" then (0, { s with mem := s.mem.storeBytes addr [0] })
  else (jsonErrMisc, s)

/-- The loop over the characters of an element that is a string, which leaves out every second one;
    `n` more bytes fit. -/
def stringLoop : Nat → Nat → St → Int × Nat × St
  | 0, tp, s => (jsonErrBadstring, tp, s)
  | n + 1, tp, s =>
    let r := jsonReadNext s.dec
    if r.1 = 34 then
      (0, tp + 1, { s with dec := (jsonReadNext r.2).2, mem := s.mem.storeBytes tp [0] })
    else if r.1 = 0 then (jsonErrBadstring, tp, { s with dec := r.2 })
    else
      stringLoop n (tp + 1) { s with dec := (jsonReadNext r.2).2, mem := s.mem.storeBytes tp [r.1] }

/-- An element that is a string. -/
def readString (arr : ArrayT) (offset tp : Nat) (s : St) : Int × Nat × St :=
  let r := jsonReadNext s.dec
  if r.1 = 34 then
    stringLoop (arr.store + arr.storelen - tp) tp
      { s with dec := r.2, mem := s.mem.store64 (arr.ptrs + 8 * offset) (BitVec.ofNat 64 tp) }
  else (jsonErrBadstring, tp, { s with dec := r.2 })

/-- An element that is no object. -/
def readElement (ft : FloatText) (arr : ArrayT) (offset tp : Nat) (s : St) : Int × Nat × St :=
  match arr.elementType with
  | .string => readString arr offset tp s
  | .integer => ((readNumber Decimal.strtoll (arr.store + 8 * offset) s).1, tp,
      (readNumber Decimal.strtoll (arr.store + 8 * offset) s).2)
  | .uinteger => ((readNumber Decimal.strtoull (arr.store + 8 * offset) s).1, tp,
      (readNumber Decimal.strtoull (arr.store + 8 * offset) s).2)
  | .real => ((readReal ft (arr.store + 8 * offset) s).1, tp, (readReal ft (arr.store + 8 * offset) s).2)
  | .boolean => ((readBoolean (arr.store + offset) s).1, tp, (readBoolean (arr.store + offset) s).2)
  | _ => (jsonErrSubtype, tp, s)

/-- An array was read to its end: the number of its elements. -/
def storeCount (arr : ArrayT) (arrcount : Nat) (s : St) : St :=
  match arr.count with
  | some addr => { s with mem := s.mem.store64 addr (BitVec.ofNat 64 arrcount) }
  | none => s

/-- What follows an element in the loop of `json_read_array`; `more` is the loop from the next one on. -/
def afterElement (arr : ArrayT) (offset : Nat) (more : Nat → St → Option (Int × St)) :
    Option (Int × Nat × St) → Option (Int × St)
  | none => none
  | some (rc, tp, s) =>
    if rc = 0 then
      let r := jsonReadNext (jsonSkipWs s.dec)
      let s := { s with dec := r.2 }
      if r.1 = 93 then some (0, storeCount arr (offset + 1) s)
      else if r.1 = 44 then more tp s
      else some (jsonErrBadsubtrail, s)
    else some (rc, s)

mutual

/-- C `json_internal_read_object` after its defaults, from one of its rounds on. -/
def objLoop (ft : FloatText) (attrs : List Attr) (parent : Option ArrayT) (offset : Nat) :
    Nat → Locals → St → Option (Int × St)
  | 0, _, _ => none
  | fuel + 1, l, s =>
    let r := jsonReadNext s.dec
    if r.1 = 0 then some (0, { s with dec := r.2 })
    else match objStep ft attrs parent offset r.1 l { s with dec := r.2 } with
      | .next l s => objLoop ft attrs parent offset fuel l s
      | .ret rc s => some (rc, s)
      | .array a maxlen s =>
        match jsonReadArray ft a fuel s with
        | none => none
        | some (rc, s) =>
          if rc = 0 then objLoop ft attrs parent offset fuel ⟨.postArray, maxlen⟩ s else some (rc, s)

/-- C `json_read_array`. -/
def jsonReadArray (ft : FloatText) (a : Attr) : Nat → St → Option (Int × St)
  | 0, _ => none
  | fuel + 1, s =>
    let r := jsonReadNext (jsonSkipWs s.dec)
    if r.1 = 91 then
      let dec := jsonSkipWs r.2
      let s := { s with dec := (jsonPeek dec).2 }
      if (jsonPeek dec).1 = 93 then some (0, storeCount a.array 0 s)
      else arrLoop ft a 0 a.array.store fuel s
    else some (jsonErrArraystart, { s with dec := r.2 })

/-- The loop of `json_read_array` from an element on. -/
def arrLoop (ft : FloatText) (a : Attr) (offset tp : Nat) : Nat → St → Option (Int × St)
  | 0, _ => none
  | fuel + 1, s =>
    if offset < a.array.maxlen then
      let s := { s with dec := jsonSkipWs s.dec }
      let element : Option (Int × Nat × St) :=
        if a.array.elementType = .object ∨ a.array.elementType = .structobject then
          let r := stuff (some a.array) offset s.mem a.subtype
          if r.1 = 0 then
            (objLoop ft a.subtype (some a.array) offset fuel ⟨.init, 0⟩ { s with mem := r.2 }).map
              fun r => (r.1, tp, r.2)
          else some (r.1, tp, { s with mem := r.2 })
        else some (readElement ft a.array offset tp s)
      afterElement a.array offset (fun tp s => arrLoop ft a (offset + 1) tp fuel s) element
    else some (jsonErrSubtoolong, s)

end

/-- C `json_read_object` at the start of a text. -/
def jsonReadObject (ft : FloatText) (fuel : Nat) (attrs : List Attr) (m : Mem) (text : List UInt8) :
    Option (Int × St) :=
  let r := stuff none 0 m attrs
  if r.1 = 0 then objLoop ft attrs none 0 fuel ⟨.init, 0⟩ ⟨.init text, r.2, ⟨false, false⟩⟩
  else some (r.1, ⟨.init text, r.2, ⟨false, false⟩⟩)

end UwbCore.Json.Text
