import Mathlib.Data.Rat.Defs
import UwbCore.Lib.Decimal

/-!
# JSON texts

The grammar of JSON over bytes: which texts stand for a value (`Denotes`), with blanks between the tokens, the
escapes of strings, and numbers by the rationals they stand for. The bytes of a string are those of its
characters in UTF-8; from 0x80 on they stand for themselves.

How many commas a text has outside of its strings is told by its value (`Denotes.commas_eq`).
-/

namespace UwbCore.Lib.JsonText

/-- What a text stands for. -/
inductive Value where
  | null
  | bool (b : Bool)
  | number (q : ℚ)
  | string (bytes : List UInt8)
  | array (values : List Value)
  | object (members : List (List UInt8 × Value))

/-- The white space between tokens. -/
def Blank (s : List UInt8) : Prop := ∀ c ∈ s, c = 32 ∨ c = 9 ∨ c = 10 ∨ c = 13

/-! ## Numbers -/

/-- One digit or more. -/
def Digits (s : List UInt8) : Prop := s ≠ [] ∧ ∀ c ∈ s, 48 ≤ c ∧ c ≤ 57

/-- The digits before the point, of which the first is no zero that could be left out. -/
def Whole (s : List UInt8) : Prop := Digits s ∧ (s.head? = some 48 → s = [48])

/-- The point and the digits behind it. -/
inductive Fraction : List UInt8 → List UInt8 → Prop where
  | none : Fraction [] []
  | some {digits} (h : Digits digits) : Fraction (46 :: digits) digits

/-- The power of ten. -/
inductive Exponent : List UInt8 → ℤ → Prop where
  | none : Exponent [] 0
  | plain {e digits} (he : e = 69 ∨ e = 101) (h : Digits digits) :
    Exponent (e :: digits) (Decimal.ofDigits 10 digits)
  | plus {e digits} (he : e = 69 ∨ e = 101) (h : Digits digits) :
    Exponent (e :: 43 :: digits) (Decimal.ofDigits 10 digits)
  | minus {e digits} (he : e = 69 ∨ e = 101) (h : Digits digits) :
    Exponent (e :: 45 :: digits) (-(Decimal.ofDigits 10 digits : ℤ))

/-- A number without a sign. -/
inductive Magnitude : List UInt8 → ℚ → Prop where
  | mk {whole fraction digits exponent e} (hw : Whole whole) (hf : Fraction fraction digits)
    (he : Exponent exponent e) :
    Magnitude (whole ++ fraction ++ exponent)
      (Decimal.ofDigits 10 (whole ++ digits) * (10 : ℚ) ^ (e - digits.length))

/-- A number. -/
inductive Numeral : List UInt8 → ℚ → Prop where
  | plain {s q} (h : Magnitude s q) : Numeral s q
  | minus {s q} (h : Magnitude s q) : Numeral (45 :: s) (-q)

/-! ## Strings -/

/-- A character in UTF-8. -/
def utf8 (n : Nat) : List UInt8 :=
  if n < 0x80 then [.ofNat n]
  else if n < 0x800 then [.ofNat (0xC0 + n / 0x40), .ofNat (0x80 + n % 0x40)]
  else if n < 0x10000 then
    [.ofNat (0xE0 + n / 0x1000), .ofNat (0x80 + n / 0x40 % 0x40), .ofNat (0x80 + n % 0x40)]
  else
    [.ofNat (0xF0 + n / 0x40000), .ofNat (0x80 + n / 0x1000 % 0x40),
      .ofNat (0x80 + n / 0x40 % 0x40), .ofNat (0x80 + n % 0x40)]

/-- Four hexadecimal digits. -/
def Quad (s : List UInt8) (n : Nat) : Prop :=
  s.length = 4 ∧ (∀ c ∈ s, Hex.isDigit c = true) ∧ Hex.ofDigits s = n

/-- What may stand behind a backslash, and the byte that it stands for. -/
def escapes : List (UInt8 × UInt8) :=
  [(34, 34), (92, 92), (47, 47), (98, 8), (102, 12), (110, 10), (114, 13), (116, 9)]

/-- What stands between the quotes, and the bytes that it stands for. -/
inductive Chars : List UInt8 → List UInt8 → Prop where
  | nil : Chars [] []
  | plain {c s bytes} (hc : 32 ≤ c ∧ c ≠ 34 ∧ c ≠ 92) (h : Chars s bytes) : Chars (c :: s) (c :: bytes)
  | escape {x c s bytes} (hx : (x, c) ∈ escapes) (h : Chars s bytes) :
    Chars (92 :: x :: s) (c :: bytes)
  | unicode {q n s bytes} (hq : Quad q n) (hn : n < 0xD800 ∨ 0xE000 ≤ n) (h : Chars s bytes) :
    Chars (92 :: 117 :: (q ++ s)) (utf8 n ++ bytes)
  | pair {q q' hi lo s bytes} (hq : Quad q hi) (hq' : Quad q' lo) (hhi : 0xD800 ≤ hi ∧ hi < 0xDC00)
    (hlo : 0xDC00 ≤ lo ∧ lo < 0xE000) (h : Chars s bytes) :
    Chars (92 :: 117 :: (q ++ 92 :: 117 :: (q' ++ s)))
      (utf8 (0x10000 + (hi - 0xD800) * 0x400 + (lo - 0xDC00)) ++ bytes)

/-! ## Values -/

/-- Texts with a comma between them and blanks around each. -/
inductive Listed : List (List UInt8) → List UInt8 → Prop where
  | nil {b} (hb : Blank b) : Listed [] b
  | single {l s r} (hl : Blank l) (hr : Blank r) : Listed [s] (l ++ s ++ r)
  | cons {l s r s' rest t} (hl : Blank l) (hr : Blank r) (h : Listed (s' :: rest) t) :
    Listed (s :: s' :: rest) (l ++ s ++ r ++ 44 :: t)

/-- A member of an object with its text. -/
structure Member where
  key : List UInt8
  keyText : List UInt8
  before : List UInt8
  behind : List UInt8
  text : List UInt8
  value : Value

/-- The key in quotes, the colon with its blanks, and the value. -/
def Member.whole (m : Member) : List UInt8 :=
  34 :: (m.keyText ++ 34 :: (m.before ++ 58 :: (m.behind ++ m.text)))

/-- A text without blanks around it, and the value that it stands for. -/
inductive Denotes : List UInt8 → Value → Prop where
  | null : Denotes [110, 117, 108, 108] .null
  | true : Denotes [116, 114, 117, 101] (.bool true)
  | false : Denotes [102, 97, 108, 115, 101] (.bool false)
  | number {s q} (h : Numeral s q) : Denotes s (.number q)
  | string {s bytes} (h : Chars s bytes) : Denotes (34 :: (s ++ [34])) (.string bytes)
  | array {body} (parts : List (List UInt8 × Value)) (h : ∀ p ∈ parts, Denotes p.1 p.2)
    (hbody : Listed (parts.map Prod.fst) body) :
    Denotes (91 :: (body ++ [93])) (.array (parts.map Prod.snd))
  | object {body} (members : List Member) (hkey : ∀ m ∈ members, Chars m.keyText m.key)
    (hblank : ∀ m ∈ members, Blank m.before ∧ Blank m.behind)
    (h : ∀ m ∈ members, Denotes m.text m.value) (hbody : Listed (members.map Member.whole) body) :
    Denotes (123 :: (body ++ [125])) (.object (members.map fun m => (m.key, m.value)))

/-! ## Commas outside of strings -/

/-- Where a byte of a text stands: outside of strings, in one, or behind a backslash in one. -/
inductive Place where
  | outside
  | inside
  | escaped
  deriving DecidableEq

/-- The place of the next byte. -/
def Place.next : Place → UInt8 → Place
  | .outside, c => if c = 34 then .inside else .outside
  | .inside, c => if c = 92 then .escaped else if c = 34 then .outside else .inside
  | .escaped, _ => .inside

/-- The place behind some bytes. -/
def Place.after (p : Place) (s : List UInt8) : Place := s.foldl Place.next p

/-- The commas outside of strings. -/
def commas : Place → List UInt8 → Nat
  | _, [] => 0
  | p, c :: s => (if p = .outside ∧ c = 44 then 1 else 0) + commas (p.next c) s

/-- A text in which all strings end. -/
def Closed (s : List UInt8) : Prop := Place.outside.after s = .outside

mutual

/-- The commas of the texts of a value. -/
def Value.commas : Value → Nat
  | .array values => (values.length - 1) + commasAll values
  | .object members => (members.length - 1) + commasMembers members
  | .null | .bool _ | .number _ | .string _ => 0

/-- The commas within the values of an array. -/
def commasAll : List Value → Nat
  | [] => 0
  | v :: values => v.commas + commasAll values

/-- The commas within the values of an object. -/
def commasMembers : List (List UInt8 × Value) → Nat
  | [] => 0
  | (_, v) :: members => v.commas + commasMembers members

end

section
variable {p : Place} {s t : List UInt8}

/-- One text after another. -/
lemma after_append : p.after (s ++ t) = (p.after s).after t := List.foldl_append

/-- The commas of one text and of another after it. -/
lemma commas_append : commas p (s ++ t) = commas p s + commas (p.after s) t := by
  induction s generalizing p with
  | nil => exact (Nat.zero_add _).symm
  | cons c s ih =>
    rw [List.cons_append, commas, commas, ih, Nat.add_assoc]
    rfl

/-- One text after another. -/
lemma Closed.append (hs : Closed s) (ht : Closed t) : Closed (s ++ t) := by
  rw [Closed, after_append, hs, ht]

/-- The commas of one text and of another. -/
lemma Closed.commas_append (hs : Closed s) :
    commas .outside (s ++ t) = commas .outside s + commas .outside t := by
  rw [JsonText.commas_append, hs]

/-- Bytes without a quote and without a comma. -/
lemma closed_of_plain (h : ∀ c ∈ s, c ≠ 34 ∧ c ≠ 44) : Closed s ∧ commas .outside s = 0 := by
  induction s with
  | nil => exact ⟨rfl, rfl⟩
  | cons c s ih =>
    obtain ⟨hquote, hcomma⟩ := h c List.mem_cons_self
    obtain ⟨hclosed, hnone⟩ := ih fun x hx => h x (List.mem_cons_of_mem _ hx)
    have hnext : Place.outside.next c = .outside := if_neg hquote
    refine ⟨?_, ?_⟩
    · show (Place.outside.next c).after s = .outside
      rw [hnext]
      exact hclosed
    · rw [commas, hnext, hnone, if_neg fun h => hcomma h.2]

/-- No blank at all. -/
lemma blank_nil : Blank [] := fun _ hc => absurd hc List.not_mem_nil

/-- Blanks. -/
lemma Blank.closed (h : Blank s) : Closed s ∧ commas .outside s = 0 :=
  closed_of_plain fun c hc => by rcases h c hc with rfl | rfl | rfl | rfl <;> decide

/-- Digits. -/
lemma Digits.noQuote (h : Digits s) : ∀ c ∈ s, c ≠ 34 ∧ c ≠ 44 := by
  rintro c hc
  obtain ⟨hlow, -⟩ := h.2 c hc
  exact ⟨by rintro rfl; exact absurd hlow (by decide), by rintro rfl; exact absurd hlow (by decide)⟩

/-- The digits of a magnitude. -/
lemma Magnitude.noQuote {q : ℚ} (h : Magnitude s q) : ∀ c ∈ s, c ≠ 34 ∧ c ≠ 44 := by
  cases h with
  | mk hw hf he =>
    intro c hc
    rcases List.mem_append.mp hc with hc | hc
    · rcases List.mem_append.mp hc with hc | hc
      · exact hw.1.noQuote c hc
      · cases hf with
        | none => exact absurd hc List.not_mem_nil
        | some h =>
          rcases List.mem_cons.mp hc with rfl | hc
          · decide
          · exact h.noQuote c hc
    · cases he with
      | none => exact absurd hc List.not_mem_nil
      | plain he h =>
        rcases List.mem_cons.mp hc with rfl | hc
        · rcases he with rfl | rfl <;> decide
        · exact h.noQuote c hc
      | plus he h | minus he h =>
        rcases List.mem_cons.mp hc with rfl | hc
        · rcases he with rfl | rfl <;> decide
        · rcases List.mem_cons.mp hc with rfl | hc
          · decide
          · exact h.noQuote c hc

/-- A number has no quote and no comma. -/
lemma Numeral.noQuote {q : ℚ} (h : Numeral s q) : ∀ c ∈ s, c ≠ 34 ∧ c ≠ 44 := by
  cases h with
  | plain h => exact h.noQuote
  | minus h =>
    intro c hc
    rcases List.mem_cons.mp hc with rfl | hc
    · decide
    · exact h.noQuote c hc

/-- A part of a string that stays in it. -/
def Inner (s : List UInt8) : Prop := Place.inside.after s = .inside ∧ commas .inside s = 0

/-- One part after another. -/
lemma Inner.append (hs : Inner s) (ht : Inner t) : Inner (s ++ t) := by
  refine ⟨?_, ?_⟩
  · rw [after_append, hs.1, ht.1]
  · rw [JsonText.commas_append, hs.1, hs.2, ht.2]

/-- A byte that is no quote and no backslash. -/
lemma inner_singleton {c : UInt8} (hquote : c ≠ 34) (hslash : c ≠ 92) : Inner [c] := by
  have hnext : Place.inside.next c = .inside := by rw [Place.next, if_neg hslash, if_neg hquote]
  exact ⟨hnext, rfl⟩

/-- A backslash and what stands behind it. -/
lemma inner_escape (x : UInt8) : Inner [92, x] := ⟨rfl, rfl⟩

/-- Four hexadecimal digits. -/
lemma Quad.inner {n : Nat} (h : Quad s n) : Inner s := by
  obtain ⟨-, hdigits, -⟩ := h
  induction s with
  | nil => exact ⟨rfl, rfl⟩
  | cons c s ih =>
    have hc := hdigits c List.mem_cons_self
    have hone : Inner [c] := by
      refine inner_singleton ?_ ?_
      · rintro rfl
        exact absurd hc (by decide)
      · rintro rfl
        exact absurd hc (by decide)
    exact hone.append (ih fun x hx => hdigits x (List.mem_cons_of_mem _ hx))

/-- What stands between the quotes. -/
lemma Chars.inner {bytes : List UInt8} (h : Chars s bytes) : Inner s := by
  induction h with
  | nil => exact ⟨rfl, rfl⟩
  | plain hc _ ih => exact (inner_singleton hc.2.1 hc.2.2).append ih
  | @escape x _ _ _ _ _ ih => exact (inner_escape x).append ih
  | unicode hq _ _ ih => exact (inner_escape 117).append (hq.inner.append ih)
  | pair hq hq' _ _ _ ih =>
    exact (inner_escape 117).append (hq.inner.append ((inner_escape 117).append (hq'.inner.append ih)))

/-- A part of a string between quotes. -/
lemma Inner.quoted (h : Inner s) : Closed (34 :: (s ++ [34])) ∧ commas .outside (34 :: (s ++ [34])) = 0 := by
  refine ⟨?_, ?_⟩
  · show Place.inside.after (s ++ [34]) = .outside
    rw [after_append, h.1]
    rfl
  · show 0 + commas .inside (s ++ [34]) = 0
    rw [JsonText.commas_append, h.1, h.2]
    rfl

/-- Texts that are listed. -/
lemma Listed.closed {texts : List (List UInt8)} (h : Listed texts s) (hc : ∀ t ∈ texts, Closed t) :
    Closed s ∧ commas .outside s = (texts.length - 1) + (texts.map (commas .outside)).sum := by
  induction h with
  | nil hb => exact ⟨hb.closed.1, hb.closed.2⟩
  | @single l s r hl hr =>
    have hs := hc s List.mem_cons_self
    have hls := hl.closed.1.append hs
    refine ⟨hls.append hr.closed.1, ?_⟩
    rw [hls.commas_append, hl.closed.1.commas_append, hl.closed.2, hr.closed.2]
    simp
  | @cons l s r s' rest t hl hr h ih =>
    have hs := hc s List.mem_cons_self
    obtain ⟨hclosed, hcommas⟩ := ih fun t ht => hc t (List.mem_cons_of_mem _ ht)
    have hls := hl.closed.1.append hs
    have hlsr := hls.append hr.closed.1
    have hcomma : Closed (44 :: t) := hclosed
    have hone : commas .outside (44 :: t) = 1 + commas .outside t := rfl
    refine ⟨hlsr.append hcomma, ?_⟩
    rw [hlsr.commas_append, hls.commas_append, hl.closed.1.commas_append, hl.closed.2, hr.closed.2, hone,
      hcommas]
    simp only [List.length_cons, List.map_cons, List.sum_cons]
    omega

/-- One more text in front, without blanks. -/
lemma Listed.more {texts : List (List UInt8)} (h : Listed texts t) (s : List UInt8) :
    Listed (s :: texts) (s ++ (if texts.isEmpty then [] else [44]) ++ t) := by
  cases texts with
  | nil =>
    cases h with
    | nil hb =>
      have hone := @Listed.single [] s t blank_nil hb
      simpa using hone
  | cons s' rest =>
    have hcons := @Listed.cons [] s [] s' rest t blank_nil blank_nil h
    simpa using hcons

/-- Bytes that stand for themselves. -/
lemma chars_of_plain (h : ∀ c ∈ s, 32 ≤ c ∧ c ≠ 34 ∧ c ≠ 92) : Chars s s := by
  induction s with
  | nil => exact .nil
  | cons c s ih =>
    exact .plain (h c List.mem_cons_self) (ih fun x hx => h x (List.mem_cons_of_mem _ hx))

/-- A member has the commas of its value. -/
lemma Member.closed {m : Member} (hkey : Chars m.keyText m.key) (hblank : Blank m.before ∧ Blank m.behind)
    (htext : Closed m.text) :
    Closed m.whole ∧ commas .outside m.whole = commas .outside m.text := by
  have hwhole : m.whole = (34 :: (m.keyText ++ [34])) ++ (m.before ++ ([58] ++ (m.behind ++ m.text))) := by
    simp [Member.whole]
  obtain ⟨hquoted, hnone⟩ := hkey.inner.quoted
  obtain ⟨hbefore, hbehind⟩ := hblank
  have hcolon : Closed [58] := rfl
  rw [hwhole]
  refine ⟨hquoted.append (hbefore.closed.1.append (hcolon.append (hbehind.closed.1.append htext))), ?_⟩
  rw [hquoted.commas_append, hbefore.closed.1.commas_append, hcolon.commas_append,
    hbehind.closed.1.commas_append, hnone, hbefore.closed.2, hbehind.closed.2]
  show 0 + (0 + (0 + (0 + _))) = _
  omega

/-- The values of an array one by one. -/
lemma commasAll_eq (values : List Value) : commasAll values = (values.map Value.commas).sum := by
  induction values with
  | nil => rfl
  | cons v values ih => rw [commasAll, ih, List.map_cons, List.sum_cons]

/-- The values of an object one by one. -/
lemma commasMembers_eq (members : List (List UInt8 × Value)) :
    commasMembers members = (members.map fun m => m.2.commas).sum := by
  induction members with
  | nil => rfl
  | cons m members ih => rw [commasMembers, ih, List.map_cons, List.sum_cons]

/-- Brackets or braces around a text. -/
lemma Closed.between {opening closing : UInt8} (ho : opening ≠ 34 ∧ opening ≠ 44)
    (hc : closing ≠ 34 ∧ closing ≠ 44) (h : Closed s) :
    Closed (opening :: (s ++ [closing])) ∧
      commas .outside (opening :: (s ++ [closing])) = commas .outside s := by
  have hopen := @closed_of_plain [opening] (by simpa using ho)
  have hclose := @closed_of_plain [closing] (by simpa using hc)
  have hsplit : opening :: (s ++ [closing]) = [opening] ++ (s ++ [closing]) := rfl
  rw [hsplit]
  refine ⟨hopen.1.append (h.append hclose.1), ?_⟩
  rw [hopen.1.commas_append, h.commas_append, hopen.2, hclose.2]
  omega

/-- All strings of the text of a value end, and its commas are those of the value. -/
lemma Denotes.closed {v : Value} (h : Denotes s v) : Closed s ∧ commas .outside s = v.commas := by
  induction h with
  | null => exact ⟨rfl, rfl⟩
  | true => exact ⟨rfl, rfl⟩
  | false => exact ⟨rfl, rfl⟩
  | number h => exact closed_of_plain h.noQuote
  | string h => exact h.inner.quoted
  | array parts _ hbody ih =>
    obtain ⟨hclosed, hcommas⟩ := hbody.closed fun t ht => by
      obtain ⟨p, hp, rfl⟩ := List.mem_map.mp ht
      exact (ih p hp).1
    obtain ⟨hall, hsame⟩ := hclosed.between (by decide : (91 : UInt8) ≠ 34 ∧ (91 : UInt8) ≠ 44)
      (by decide : (93 : UInt8) ≠ 34 ∧ (93 : UInt8) ≠ 44)
    have hvalues : (parts.map Prod.fst).map (commas .outside) = (parts.map Prod.snd).map Value.commas := by
      rw [List.map_map, List.map_map]
      exact List.map_congr_left fun p hp => (ih p hp).2
    refine ⟨hall, ?_⟩
    rw [hsame, hcommas, Value.commas, commasAll_eq, hvalues, List.length_map, List.length_map]
  | object members hkey hblank _ hbody ih =>
    have hmember : ∀ m ∈ members, Closed m.whole ∧ commas .outside m.whole = m.value.commas := fun m hm => by
      obtain ⟨hclosed, hcommas⟩ := Member.closed (hkey m hm) (hblank m hm) (ih m hm).1
      exact ⟨hclosed, hcommas.trans (ih m hm).2⟩
    obtain ⟨hclosed, hcommas⟩ := hbody.closed fun t ht => by
      obtain ⟨m, hm, rfl⟩ := List.mem_map.mp ht
      exact (hmember m hm).1
    obtain ⟨hall, hsame⟩ := hclosed.between (by decide : (123 : UInt8) ≠ 34 ∧ (123 : UInt8) ≠ 44)
      (by decide : (125 : UInt8) ≠ 34 ∧ (125 : UInt8) ≠ 44)
    have hvalues : (members.map Member.whole).map (commas .outside) =
        (members.map fun m => (m.key, m.value)).map fun m => m.2.commas := by
      rw [List.map_map, List.map_map]
      exact List.map_congr_left fun m hm => (hmember m hm).2
    refine ⟨hall, ?_⟩
    rw [hsame, hcommas, Value.commas, commasMembers_eq, hvalues, List.length_map, List.length_map]

/-- All texts of a value have as many commas. -/
theorem Denotes.commas_eq {v : Value} (h : Denotes s v) (h' : Denotes t v) :
    commas .outside s = commas .outside t := h.closed.2.trans h'.closed.2.symm

end

end UwbCore.Lib.JsonText
