import UwbCore.Json.Text
import UwbCore.Lib.Cstr

/-!
# Strings in JSON text

The encoder escapes some bytes of a string, and the reader puts the string together in a buffer and copies
it to the field with `strncpy`. A byte without an escape is only taken up to the length of the field, which
leaves no place for the NUL; an escaped one is always taken. So a string is read back exactly if it is
shorter than its field (`readString_iff`), while one of just that length is accepted and not ended.
-/

namespace UwbCore.Json.Text
open UwbCore.Lib

/-- The attribute of a string. -/
def stringAttr (name : String) (addr len : Nat) : Attr where
  name := ascii name
  type := .string
  addr := addr
  array := ⟨.ignore, 0, 0, 0, 0, none, 0⟩
  subtype := []
  dflt := 0
  check := []
  len := len
  map := none
  nodefault := false

/-- The bytes of a string that its length in 16 bits tells of. -/
def lowLength (s : CString) : CString :=
  ⟨s.bytes.take (s.strlen % 2 ^ 16), fun b hb => s.nonzero b (List.mem_of_mem_take hb)⟩

/-- `JSON_VALUE_STRING` -/
def jsonValueString (s : CString) : JsonValue := .string (lowLength s).bytes

/-- The calls of the encoder for an object with a string. -/
def encodeString (ft : FloatText) (e : Encoder) (name : String) (s : CString) : Encoder :=
  jsonEncodeObjectFinish
    (jsonEncodeObjectEntry ft (jsonEncodeObjectStart e) (ascii name) (jsonValueString s)).2

/-- The bytes of a field. -/
def field (m : Mem) (addr len : Nat) : List UInt8 := (List.range len).map fun i => m (addr + i)

/-- A byte of the string is not escaped and comes too late for the field or for the buffer; there are `n`
    bytes before it. -/
def tooLong (maxlen : Int) : Nat → List UInt8 → Bool
  | _, [] => false
  | n, c :: s =>
    (decide (escape c = [c]) && (decide (jsonValMax - 1 < n) || decide (maxlen < n))) ||
      tooLong maxlen (n + 1) s

section
variable {ft : FloatText} {attrs : List Attr} {d : Decoder} {m m' : Mem} {rc : Int} {c : UInt8}
variable {rest : List UInt8} {cursor : Cursor} {maxlen : Int}

/-- A string that is short enough for both bounds. -/
lemma not_tooLong {s : List UInt8} {n : Nat} (h : n + s.length ≤ jsonValMax)
    (hmax : (n + s.length : Int) ≤ maxlen + 1) : tooLong maxlen n s = false := by
  induction s generalizing n with
  | nil => rfl
  | cons c s ih =>
    rw [List.length_cons] at h hmax
    have h' : n + s.length + 1 ≤ 512 := h
    have h1 : ¬jsonValMax - 1 < n := by
      show ¬511 < n
      omega
    have h2 : ¬maxlen < n := by omega
    rw [tooLong, decide_eq_false h1, decide_eq_false h2, Bool.or_false, Bool.and_false, Bool.false_or]
    exact ih (by show n + 1 + s.length ≤ 512; omega) (by push_cast; omega)

/-- A byte is written as it is, or as a backslash and a character for which the reader puts it. -/
lemma escape_cases (c : UInt8) :
    (escape c = [c] ∧ c ≠ 34 ∧ c ≠ 92) ∨
      ∃ x, escape c = [92, x] ∧ x ≠ 0 ∧ ∀ cursor valbuf maxlen (s : St), ∃ s' : St,
        inEscape x cursor valbuf maxlen s = .next ⟨.inValString cursor (valbuf ++ [c]), maxlen⟩ s' ∧
          s'.dec = s.dec ∧ s'.mem = s.mem := by
  by_cases hraw : c = 34 ∨ c = 47 ∨ c = 92
  · refine .inr ⟨c, if_pos hraw, ?_, fun cursor valbuf maxlen s => ?_⟩
    · rcases hraw with rfl | rfl | rfl <;> decide
    · rcases hraw with rfl | rfl | rfl <;> exact ⟨_, rfl, rfl, rfl⟩
  by_cases h9 : c = 9
  · subst h9
    exact .inr ⟨116, rfl, by decide, fun _ _ _ _ => ⟨_, rfl, rfl, rfl⟩⟩
  by_cases h13 : c = 13
  · subst h13
    exact .inr ⟨114, rfl, by decide, fun _ _ _ _ => ⟨_, rfl, rfl, rfl⟩⟩
  by_cases h10 : c = 10
  · subst h10
    exact .inr ⟨110, rfl, by decide, fun _ _ _ _ => ⟨_, rfl, rfl, rfl⟩⟩
  by_cases h12 : c = 12
  · subst h12
    exact .inr ⟨102, rfl, by decide, fun _ _ _ _ => ⟨_, rfl, rfl, rfl⟩⟩
  by_cases h8 : c = 8
  · subst h8
    exact .inr ⟨98, rfl, by decide, fun _ _ _ _ => ⟨_, rfl, rfl, rfl⟩⟩
  · refine .inl ⟨?_, fun h => hraw (.inl h), fun h => hraw (.inr (.inr h))⟩
    rw [escape, if_neg hraw, if_neg h9, if_neg h13, if_neg h10, if_neg h12, if_neg h8]

/-- The bytes of a string up to its quote. -/
lemma Reads.string (s : List UInt8) :
    ∀ (buf : List UInt8) (d : Decoder), d.At (s.flatMap escape ++ 34 :: rest) → (∀ x ∈ s, x ≠ 0) →
      (if tooLong maxlen buf.length s then rc = jsonErrStrlong ∧ m' = m
        else ∀ d' : Decoder, d'.At rest →
          Reads ft attrs ⟨.postVal cursor (buf ++ s) true, maxlen⟩ d' m rc m') →
      Reads ft attrs ⟨.inValString cursor buf, maxlen⟩ d m rc m' := by
  induction s with
  | nil =>
    intro buf d hat _ h
    rw [List.append_nil] at h
    exact Reads.next hat (by decide) (fun d' w => ⟨_, rfl⟩) h
  | cons c s ih =>
    intro buf d hat hs h
    rw [List.flatMap_cons, List.append_assoc] at hat
    have hc0 : c ≠ 0 := hs c List.mem_cons_self
    have hs' : ∀ x ∈ s, x ≠ 0 := fun x hx => hs x (List.mem_cons_of_mem _ hx)
    have hmore : ∀ d' : Decoder, d'.At (s.flatMap escape ++ 34 :: rest) →
        (tooLong maxlen buf.length (c :: s) = tooLong maxlen (buf.length + 1) s) →
        Reads ft attrs ⟨.inValString cursor (buf ++ [c]), maxlen⟩ d' m rc m' := by
      intro d' hd' heq
      apply ih (buf ++ [c]) d' hd' hs'
      rw [heq] at h
      rwa [List.length_append, List.length_singleton, List.append_assoc]
    rcases escape_cases c with ⟨hesc, h34, h92⟩ | ⟨x, hesc, hx0, hput⟩
    · rw [hesc] at hat
      by_cases hlong : jsonValMax - 1 < buf.length ∨ maxlen < buf.length
      · have htoo : tooLong maxlen buf.length (c :: s) = true := by
          rw [tooLong, decide_eq_true hesc, Bool.true_and, Bool.or_eq_true, Bool.or_eq_true,
            decide_eq_true_iff, decide_eq_true_iff]
          exact .inl hlong
        rw [if_pos htoo] at h
        refine Reads.ret hat hc0 fun d' w => ⟨⟨d', m, w⟩, ?_, h.2.symm⟩
        rw [objStep]
        dsimp only
        rw [if_neg h92, if_neg h34, if_pos hlong, h.1]
      · refine Reads.next hat hc0 (fun d' w => ?_) fun d' hd' => hmore d' hd' ?_
        · rw [objStep]
          dsimp only
          rw [if_neg h92, if_neg h34, if_neg hlong]
          exact ⟨_, rfl⟩
        · rw [not_or] at hlong
          rw [tooLong, decide_eq_false hlong.1, decide_eq_false hlong.2, Bool.or_false, Bool.and_false,
            Bool.false_or]
    · rw [hesc] at hat
      have hshort : escape c ≠ [c] := by
        rw [hesc]
        intro h
        exact absurd (congrArg List.length h) (show ¬2 = 1 by decide)
      refine Reads.next hat (by decide) (fun d' w => ⟨w, rfl⟩) fun d1 hd1 =>
        Reads.next hd1 hx0 (fun d' w => ?_) fun d2 hd2 => hmore d2 hd2 ?_
      · obtain ⟨s', hs', hdec, hmem⟩ := hput cursor buf maxlen ⟨d', m, w⟩
        obtain ⟨d'', m'', w''⟩ := s'
        cases hdec
        cases hmem
        exact ⟨w'', hs'⟩
      · rw [tooLong, decide_eq_false hshort, Bool.false_and, Bool.false_or]

/-- What a whole string leaves in its field. -/
lemma field_strncpy (s : CString) {addr len : Nat} :
    field (strncpy m addr s.bytes len) addr len =
      s.bytes.take len ++ List.replicate (len - s.strlen) 0 := by
  apply List.ext_getElem
  · rw [field, List.length_map, List.length_range, List.length_append, List.length_take,
      List.length_replicate]
    show len = min len s.bytes.length + (len - s.bytes.length)
    omega
  · intro i h1 h2
    rw [field, List.length_map, List.length_range] at h1
    have hlen : (s.bytes.take len ++ List.replicate (len - s.bytes.length) 0).length = len := by
      rw [List.length_append, List.length_take, List.length_replicate]
      omega
    simp only [field, List.getElem_map, List.getElem_range]
    rw [strncpy, Mem.storeBytes, hlen, if_pos ⟨Nat.le_add_right _ _, by omega⟩, Nat.add_sub_cancel_left]
    exact List.getD_eq_getElem _ _ h2

/-- The field holds the string if there is room for its NUL, and else none. -/
lemma cstr_field (s : CString) {addr len : Nat} :
    UwbCore.Lib.cstr (field (strncpy m addr s.bytes len) addr len) =
      if s.strlen < len then some s.bytes else none := by
  rw [field_strncpy]
  split
  case isTrue hlt =>
    have hpad : s.bytes.take len ++ List.replicate (len - s.strlen) 0 = s.pad len := by
      rw [CString.pad, List.take_of_length_le (Nat.le_of_lt hlt)]
    rw [hpad, cstr_pad, if_pos hlt]
  case isFalse hlt =>
    have hno : (0 : UInt8) ∉ s.bytes.take len ++ List.replicate (len - s.strlen) 0 := by
      rw [Nat.sub_eq_zero_of_le (Nat.not_lt.mp hlt), List.replicate_zero, List.append_nil]
      exact fun h => s.nonzero 0 (List.mem_of_mem_take h) rfl
    rw [UwbCore.Lib.cstr, if_neg hno]

/-- The brace behind a string. -/
lemma postVal_string {name : String} {addr len : Nat} (haddr : 0 < addr) (s : CString) (w : Wild) :
    objStep ft attrs none 0 125 ⟨.postVal ⟨stringAttr name addr len, [], ascii name⟩ s.bytes true, maxlen⟩
      ⟨d, m, w⟩ = .ret 0 ⟨d, strncpy m addr s.bytes len, w⟩ := by
  have hstore : storeValue ft none 0 (stringAttr name addr len) s.bytes m =
      (0, strncpy m addr s.bytes len) := by
    rw [storeValue]
    exact if_neg (Nat.ne_of_gt haddr)
  rw [objStep]
  dsimp only
  rw [postVal, cstr_eq fun x hx => s.nonzero x hx, seek]
  dsimp only
  rw [if_pos (show quoteError (stringAttr name addr len) true = 0 from rfl)]
  show (if (storeValue ft none 0 (stringAttr name addr len) s.bytes m).1 = 0 then _ else _) = _
  rw [hstore]
  rfl

/-- What the reader makes of the text of a string. -/
lemma Reads.quoted {name : String} (hname : Name name) {addr len : Nat} (haddr : 0 < addr) (s : CString)
    (hat : d.At (keyText (ascii name) ++ [34] ++ s.bytes.flatMap escape ++ [34, 125])) :
    Reads ft [stringAttr name addr len] ⟨.awaitAttr, maxlen⟩ d m
      (if tooLong (len - 1) 0 s.bytes then jsonErrStrlong else 0)
      (if tooLong (len - 1) 0 s.bytes then m else strncpy m addr s.bytes len) := by
  have hopen : d.At (34 :: (ascii name ++
      34 :: 58 :: 32 :: 34 :: (s.bytes.flatMap escape ++ 34 :: [125]))) := by
    simpa [keyText] using hat
  have hfind : findAttr ([] ++ ascii name) [stringAttr name addr len] =
      some ⟨stringAttr name addr len, [], ascii name⟩ := if_pos rfl
  refine Reads.next hopen (by decide) (fun d' w => ⟨w, rfl⟩) fun d1 hd1 =>
    Reads.name (ascii name) [] d1 hd1 hname.chars hname.short ?_
  rw [hfind]
  intro d2 hd2
  refine Reads.next hd2 (by decide) (fun d' w => ⟨w, rfl⟩) fun d3 hd3 =>
    Reads.next hd3 (by decide) (fun d' w => ⟨w, rfl⟩) fun d4 hd4 =>
      Reads.next hd4 (by decide) (fun d' w => ⟨w, rfl⟩) fun d5 hd5 =>
        Reads.string s.bytes [] d5 hd5 s.nonzero ?_
  show if tooLong (len - 1) 0 s.bytes then _ else _
  split
  case isTrue => exact ⟨rfl, rfl⟩
  case isFalse =>
    intro d6 hd6
    exact Reads.ret hd6 (by decide) fun d' w => ⟨_, postVal_string haddr s w, rfl⟩

end

/-- What a string writes. -/
lemma encodeString_text (ft : FloatText) (name : String) (s : CString) :
    (encodeString ft ⟨[], false⟩ name s).text =
      123 :: (keyText (ascii name) ++ [34] ++ (lowLength s).bytes.flatMap escape ++ [34, 125]) := by
  show ([] ++ [123] ++ keyText (ascii name) ++ ([34] ++ (lowLength s).bytes.flatMap escape ++ [34])) ++
    [125] = _
  simp

/-- What the reader returns and stores for a string. -/
lemma jsonReadObject_string (ft : FloatText) {name : String} (hname : Name name) {addr : Nat}
    (haddr : 0 < addr) (len : Nat) (s : CString) (m : Mem) {text : List UInt8}
    (htext : text = (encodeString ft ⟨[], false⟩ name s).text) :
    ∃ st, jsonReadObject ft (3 * text.length + 1) [stringAttr name addr len] m text =
        some (if tooLong (len - 1) 0 (lowLength s).bytes then jsonErrStrlong else 0, st) ∧
      (tooLong (len - 1) 0 (lowLength s).bytes = false →
        st.mem = strncpy (m.storeBytes addr [0]) addr (lowLength s).bytes len) := by
  have hat : Decoder.At (.init text)
      (123 :: (keyText (ascii name) ++ [34] ++ (lowLength s).bytes.flatMap escape ++ [34, 125])) := by
    rw [htext, encodeString_text]
    exact ⟨rfl, Nat.zero_le _⟩
  have hreads : Reads ft [stringAttr name addr len] ⟨.init, 0⟩ (.init text) (m.storeBytes addr [0])
      (if tooLong (len - 1) 0 (lowLength s).bytes then jsonErrStrlong else 0)
      (if tooLong (len - 1) 0 (lowLength s).bytes then m.storeBytes addr [0]
        else strncpy (m.storeBytes addr [0]) addr (lowLength s).bytes len) :=
    Reads.next hat (by decide) (fun d' w => ⟨w, rfl⟩) fun d hd =>
      Reads.quoted hname haddr (lowLength s) hd
  obtain ⟨st, hrun, hmem⟩ := hreads.enough
  have hstuff : stuff none 0 m [stringAttr name addr len] = (0, m.storeBytes addr [0]) := by
    have hone : stuffAttr none 0 m (stringAttr name addr len) = some (m.storeBytes addr [0]) := by
      have hno : ¬(false = true ∨ addr = 0) := fun h => h.elim Bool.noConfusion (Nat.ne_of_gt haddr)
      exact if_neg hno
    rw [stuff, hone]
    rfl
  refine ⟨st, ?_, fun h => hmem.trans (if_neg (Bool.eq_false_iff.mp h))⟩
  rw [jsonReadObject, hstuff]
  exact (if_pos rfl).trans hrun

/-- A string is read back exactly if it is shorter than its field. -/
theorem readString_iff (ft : FloatText) {name : String} (hname : Name name) {addr len : Nat}
    (haddr : 0 < addr) (hlen : len ≤ jsonValMax + 1) (s : CString) (m : Mem) {text : List UInt8}
    (htext : text = (encodeString ft ⟨[], false⟩ name s).text) :
    (∃ st, jsonReadObject ft (3 * text.length + 1) [stringAttr name addr len] m text = some (0, st) ∧
        UwbCore.Lib.cstr (field st.mem addr len) = some s.bytes) ↔
      s.strlen < len := by
  obtain ⟨st, hrun, hmem⟩ := jsonReadObject_string ft hname haddr len s m htext
  rw [hrun]
  constructor
  · rintro ⟨st', hst, hfield⟩
    cases htoo : tooLong (len - 1) 0 (lowLength s).bytes with
    | true =>
      rw [htoo] at hst
      exact absurd (Prod.mk.inj (Option.some.inj hst)).1 (by decide)
    | false =>
      rw [← (Prod.mk.inj (Option.some.inj hst)).2] at hfield
      rw [hmem htoo, cstr_field] at hfield
      split at hfield
      case isFalse => cases hfield
      case isTrue hlt =>
        rw [Option.some_inj] at hfield
        rwa [CString.strlen, hfield] at hlt
  · intro hlt
    have hlt' : s.strlen < len := hlt
    have hlen' : len ≤ 513 := hlen
    have hlow : (lowLength s).bytes = s.bytes := by
      have hmod : s.strlen % 2 ^ 16 = s.strlen := Nat.mod_eq_of_lt (by omega)
      show s.bytes.take (s.strlen % 2 ^ 16) = s.bytes
      rw [hmod]
      exact List.take_length
    have htoo : tooLong (len - 1) 0 s.bytes = false := by
      have hs : s.bytes.length < len := hlt
      exact not_tooLong (by show 0 + s.bytes.length ≤ 512; omega) (by push_cast; omega)
    have hmem' := hmem (by rw [hlow]; exact htoo)
    rw [hlow] at hmem'
    refine ⟨st, by rw [hlow, htoo]; rfl, ?_⟩
    rw [hmem', cstr_field, if_pos hlt]

/-- Three characters, of which one is a quote. -/
def quoteString : CString := ⟨[97, 34, 98], by simp⟩

/-- A string with a quote in a field of four bytes. -/
theorem readString_inField :
    (∃ st, jsonReadObject wholeText
        (3 * (encodeString wholeText ⟨[], false⟩ "unit" quoteString).text.length + 1)
        [stringAttr "unit" 64 4] (fun _ => 7)
        (encodeString wholeText ⟨[], false⟩ "unit" quoteString).text = some (0, st) ∧
      UwbCore.Lib.cstr (field st.mem 64 4) = some quoteString.bytes) ↔ quoteString.strlen < 4 :=
  readString_iff wholeText (by decide) (by decide) (by decide) quoteString _ rfl

end UwbCore.Json.Text
