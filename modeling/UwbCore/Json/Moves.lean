import UwbCore.Json.Decode

/-!
# The reader at one character

What a character does to the reader: it goes on in the same text, reads nothing behind the NUL, stays in its
buffers as far as the text has no backslash, and comes nearer to its end (`objStep_good`).
-/

namespace UwbCore.Json.Text
open UwbCore.Lib

/-- The bytes of the text that were not read. -/
def Decoder.left (d : Decoder) : Nat := d.text.length - d.pos

/-- The decoder goes on in the same text, at most to behind its NUL, and reads nothing behind that. -/
structure Decoder.Onward (d d' : Decoder) : Prop where
  text : d'.text = d.text
  within : d'.pos ≤ d'.text.length + 1
  past : d'.past = d.past
  left : d'.left ≤ d.left

/-- Nothing behind the NUL was read, the buffer for names was not left, and that for values only in a text
    with a backslash. -/
structure St.Sound (s : St) : Prop where
  within : s.dec.pos ≤ s.dec.text.length + 1
  past : s.dec.past = false
  name : s.wild.name = false
  value : s.wild.value = true → 92 ∈ s.dec.text

/-- The reader goes on in the same text. -/
structure St.Onward (s s' : St) : Prop where
  text : s'.dec.text = s.dec.text
  left : s'.dec.left ≤ s.dec.left
  sound : s'.Sound

section Moves
variable {d d' : Decoder} {s s' s'' : St}

/-- Going on twice. -/
lemma St.Onward.trans (h : s.Onward s') (h' : s'.Onward s'') : s.Onward s'' :=
  ⟨h'.text.trans h.text, h'.left.trans h.left, h'.sound⟩

/-- Staying where it is. -/
lemma St.Sound.refl (h : s.Sound) : s.Onward s := ⟨rfl, Nat.le_refl _, h⟩

/-- Where the memory changes, the reader is where it was. -/
lemma St.Onward.mem (h : s.Onward s') (m : Mem) : s.Onward { s' with mem := m } :=
  ⟨h.text, h.left, ⟨h.sound.within, h.sound.past, h.sound.name, h.sound.value⟩⟩

/-- A byte of a name that fits. -/
lemma St.Onward.touchName (h : s.Onward s') {i : Nat} (hi : i < jsonAttrMax + 1) :
    s.Onward (s'.touchName i) := by
  refine ⟨h.text, h.left, ⟨h.sound.within, h.sound.past, ?_, h.sound.value⟩⟩
  rw [St.touchName]
  dsimp only
  rw [h.sound.name, decide_eq_false (Nat.not_le_of_lt hi), Bool.or_false]

/-- A byte of a value that fits, or that a backslash lets go too far. -/
lemma St.Onward.touchValue (h : s.Onward s') {i : Nat} (hi : i < jsonValMax + 1 ∨ 92 ∈ s.dec.text) :
    s.Onward (s'.touchValue i) := by
  refine ⟨h.text, h.left, ⟨h.sound.within, h.sound.past, h.sound.name, fun hw => ?_⟩⟩
  rw [St.touchValue, Bool.or_eq_true, decide_eq_true_iff] at hw
  rcases hw with hw | hw
  · exact h.sound.value hw
  · rcases hi with hi | hi
    · omega
    · exact h.text ▸ hi

/-- The decoder moves on. -/
lemma St.Onward.move (h : s.Onward s') (hd : s'.dec.Onward d) : s.Onward { s' with dec := d } :=
  ⟨hd.text.trans h.text, hd.left.trans h.left, ⟨hd.within, hd.past.trans h.sound.past, h.sound.name,
    fun hw => hd.text ▸ h.sound.value hw⟩⟩

/-- The text stays. -/
@[simp] lemma jsonReadNext_text : (jsonReadNext d).2.text = d.text := by
  rw [jsonReadNext]
  split <;> rfl

/-- The text stays. -/
@[simp] lemma jsonReadPrev_text : (jsonReadPrev d).2.text = d.text := by
  rw [jsonReadPrev]
  split <;> rfl

/-- A byte of the text or its NUL is read. -/
lemma jsonReadNext_pos (h : d.pos ≤ d.text.length) : (jsonReadNext d).2.pos = d.pos + 1 := by
  rw [jsonReadNext, if_pos h]

/-- Nothing is read behind the NUL. -/
lemma jsonReadNext_stuck (h : ¬d.pos ≤ d.text.length) : jsonReadNext d = (0, d) := by
  rw [jsonReadNext, if_neg h]

/-- One byte back, but not before the text. -/
lemma jsonReadPrev_pos : (jsonReadPrev d).2.pos = d.pos - 1 := by
  rw [jsonReadPrev]
  split
  case isTrue h => exact h.trans (by rw [h])
  case isFalse => rfl

/-- Reading goes on. -/
lemma jsonReadNext_onward (h : d.pos ≤ d.text.length + 1) : d.Onward (jsonReadNext d).2 := by
  rw [jsonReadNext]
  split
  case isTrue hp =>
    refine ⟨rfl, Nat.succ_le_succ hp, rfl, ?_⟩
    show d.text.length - (d.pos + 1) ≤ d.text.length - d.pos
    omega
  case isFalse => exact ⟨rfl, h, rfl, Nat.le_refl _⟩

/-- Going back from behind the NUL reads at most that. -/
lemma jsonReadPrev_past (h : d.pos ≤ d.text.length + 1) : (jsonReadPrev d).2.past = d.past := by
  rw [jsonReadPrev]
  split
  case isTrue => rfl
  case isFalse =>
    dsimp only
    rw [decide_eq_false (by omega), Bool.or_false]

/-- A step back. -/
lemma jsonReadPrev_eq (h : d.pos ≤ d.text.length + 1) :
    (jsonReadPrev d).2 = { d with pos := d.pos - 1 } := by
  have hpast := jsonReadPrev_past h
  have hpos := @jsonReadPrev_pos d
  have htext := @jsonReadPrev_text d
  generalize (jsonReadPrev d).2 = d' at hpast hpos htext ⊢
  obtain ⟨text, pos, past⟩ := d'
  cases hpast
  cases hpos
  cases htext
  rfl

/-- Steps back. -/
lemma rewind_eq (count : Nat) (h : d.pos ≤ d.text.length + 1) :
    rewind d count = { d with pos := d.pos - count } := by
  induction count generalizing d with
  | zero => rfl
  | succ count ih =>
    have hle : d.pos - 1 ≤ d.text.length + 1 := by omega
    rw [rewind, jsonReadPrev_eq h, ih hle]
    show Decoder.mk d.text (d.pos - 1 - count) d.past = ⟨d.text, d.pos - (count + 1), d.past⟩
    rw [Nat.sub_sub, Nat.add_comm 1]

/-- A character other than NUL stands in the text. -/
lemma pos_lt_of_jsonReadNext (h : (jsonReadNext d).1 ≠ 0) : d.pos < d.text.length := by
  by_contra hp
  apply h
  rw [jsonReadNext]
  split
  case isTrue => exact List.getD_eq_default _ _ (by omega)
  case isFalse => rfl

/-- It is one of the text. -/
lemma jsonReadNext_mem (h : (jsonReadNext d).1 ≠ 0) : (jsonReadNext d).1 ∈ d.text := by
  have hlt := pos_lt_of_jsonReadNext h
  rw [jsonReadNext, if_pos (Nat.le_of_lt hlt)]
  show d.text.getD d.pos 0 ∈ d.text
  rw [List.getD_eq_getElem _ _ hlt]
  exact List.getElem_mem hlt

/-- Reading it leaves less of the text. -/
lemma jsonReadNext_lt (h : (jsonReadNext d).1 ≠ 0) : (jsonReadNext d).2.left < d.left := by
  have hlt := pos_lt_of_jsonReadNext h
  rw [Decoder.left, Decoder.left, jsonReadNext_text, jsonReadNext_pos (Nat.le_of_lt hlt)]
  omega

/-- What is read is not read again. -/
lemma jsonReadNext_far :
    d.text.length < (jsonReadNext d).2.pos ∨ d.pos < (jsonReadNext d).2.pos := by
  by_cases hp : d.pos ≤ d.text.length
  · rw [jsonReadNext_pos hp]
    omega
  · rw [jsonReadNext_stuck hp]
    exact .inl (Nat.lt_of_not_le hp)

/-- White space and the character behind it are read. -/
lemma skipLoop_onward (n : Nat) (hd : d.pos ≤ d.text.length + 1) :
    d.Onward (skipLoop (n + 1) d) ∧
      (d.text.length < (skipLoop (n + 1) d).pos ∨ d.pos < (skipLoop (n + 1) d).pos) := by
  have hone := jsonReadNext_onward hd
  have hfar := @jsonReadNext_far d
  induction n generalizing d with
  | zero =>
    rw [skipLoop]
    split
    case isTrue => exact ⟨hone, hfar⟩
    case isFalse => exact ⟨hone, hfar⟩
  | succ n ih =>
    rw [skipLoop]
    split
    case isTrue =>
      obtain ⟨hon, hlt⟩ := ih hone.within (jsonReadNext_onward hone.within) jsonReadNext_far
      rw [jsonReadNext_text] at hlt
      exact ⟨⟨hon.text.trans hone.text, hon.within, hon.past.trans hone.past,
        hon.left.trans hone.left⟩, by omega⟩
    case isFalse => exact ⟨hone, hfar⟩

/-- A byte that was read and is given back. -/
lemma Decoder.Onward.back (h : d.Onward d') (hfar : d.text.length < d'.pos ∨ d.pos < d'.pos) :
    d.Onward (jsonReadPrev d').2 := by
  have htext := h.text
  have hwithin := h.within
  rw [jsonReadPrev_eq h.within]
  refine ⟨htext, Nat.le_trans (Nat.sub_le _ _) h.within, h.past, ?_⟩
  show d'.text.length - (d'.pos - 1) ≤ d.text.length - d.pos
  rw [htext] at hwithin ⊢
  omega

/-- After white space there is a character to read, be it the NUL. -/
lemma jsonSkipWs_onward (hd : d.pos ≤ d.text.length + 1) :
    d.Onward (jsonSkipWs d) ∧ (jsonSkipWs d).pos ≤ (jsonSkipWs d).text.length := by
  obtain ⟨hon, hlt⟩ := skipLoop_onward d.text.length hd
  have hback : d.Onward (jsonSkipWs d) := hon.back hlt
  refine ⟨hback, ?_⟩
  have hpos : (jsonSkipWs d).pos = (skipLoop (d.text.length + 1) d).pos - 1 := jsonReadPrev_pos
  have hwithin := hon.within
  rw [hon.text] at hwithin
  rw [hpos, hback.text]
  omega

/-- Looking at a character. -/
lemma jsonPeek_onward (hd : d.pos ≤ d.text.length + 1) : d.Onward (jsonPeek d).2 :=
  (jsonReadNext_onward hd).back jsonReadNext_far

/-! ## One character -/

/-- What the buffers of a state hold fits into them. -/
def State.Fits (text : List UInt8) : State → Prop
  | .inAttr attrbuf => attrbuf.length < jsonAttrMax
  | .inValString _ valbuf => valbuf.length ≤ jsonValMax ∨ 92 ∈ text
  | .inEscape _ _ => 92 ∈ text
  | .inValToken _ valbuf => valbuf.length ≤ jsonValMax
  | _ => True

/-- A bound of the rounds to come; the end of a token takes one without reading. -/
def Locals.weight (l : Locals) (s : St) : Nat :=
  3 * s.dec.left + match l.state with
    | .inValToken .. => 1
    | _ => 0

/-- A character brings the reader nearer to its end. -/
def Step.Good (l : Locals) (s : St) : Step → Prop
  | .next l' s' => s.Onward s' ∧ l'.state.Fits s.dec.text ∧ l'.weight s' < l.weight s
  | .array _ _ s' => s.Onward s' ∧ 0 < s'.dec.left
  | .ret _ s' => s.Onward s'

section
variable {l l' : Locals} {parent : Option ArrayT} {offset : Nat} {c : UInt8}

/-- A character that is taken. -/
lemma Step.good_next (h : s.Onward s') (hlt : s'.dec.left < s.dec.left)
    (hfits : l'.state.Fits s.dec.text) : Step.Good l s (.next l' s') := by
  refine ⟨h, hfits, ?_⟩
  rw [Locals.weight, Locals.weight]
  split <;> omega

/-- Behind a value. -/
lemma afterValue_good {again : State} {maxlen : Int} (h : s.Onward s') (hlt : s'.dec.left < s.dec.left)
    (hfits : again.Fits s.dec.text) : Step.Good l s (afterValue c again maxlen s') := by
  rw [afterValue]
  split
  case isTrue => exact Step.good_next h hlt hfits
  split
  case isTrue => exact Step.good_next h hlt trivial
  split
  case isTrue => exact h
  case isFalse => exact h

/-- At the end of a value. -/
lemma postVal_good (ft : FloatText) {cursor : Cursor} {valbuf : List UInt8} {valueQuoted : Bool}
    {maxlen : Int} (h : s.Onward s') (hlt : s'.dec.left < s.dec.left) :
    Step.Good l s (postVal ft parent offset c cursor valbuf valueQuoted maxlen s') := by
  rw [postVal]
  dsimp only
  split
  case isTrue =>
    split
    case h_1 => exact h
    case h_2 =>
      split
      case isTrue => exact afterValue_good (h.mem _) hlt trivial
      case isFalse => exact h.mem _
  case isFalse => exact h

/-- The characters of a `\u` that are read, of which the last is given back. -/
lemma uescapeLoop_onward (n : Nat) (c : UInt8) (u : List UInt8) (hc : n ≠ 0 → c ≠ 0)
    (hd : d.pos ≤ d.text.length) :
    d.Onward (uescapeLoop n c u d).2 ∧ d.pos + min n 1 ≤ (uescapeLoop n c u d).2.pos := by
  induction n generalizing c u d with
  | zero => exact ⟨⟨rfl, Nat.le_succ_of_le hd, rfl, Nat.le_refl _⟩, Nat.le_refl _⟩
  | succ n ih =>
    rw [uescapeLoop, if_neg (hc (Nat.succ_ne_zero n))]
    have hpos := jsonReadNext_pos hd
    have hone := jsonReadNext_onward (Nat.le_succ_of_le hd)
    by_cases hz : (jsonReadNext d).1 = 0
    · have hsame : (uescapeLoop n (jsonReadNext d).1 (u ++ [c]) (jsonReadNext d).2).2 =
          (jsonReadNext d).2 := by
        cases n with
        | zero => rfl
        | succ n => rw [uescapeLoop, if_pos hz]
      rw [hsame, hpos]
      exact ⟨hone, by omega⟩
    · have hlt := pos_lt_of_jsonReadNext hz
      have hd' : (jsonReadNext d).2.pos ≤ (jsonReadNext d).2.text.length := by
        rw [hpos, jsonReadNext_text]
        exact hlt
      obtain ⟨hon, hge⟩ := ih (jsonReadNext d).1 (u ++ [c]) (fun _ => hz) hd'
      rw [hpos] at hge
      exact ⟨⟨hon.text.trans hone.text, hon.within, hon.past.trans hone.past,
        hon.left.trans hone.left⟩, by omega⟩

/-- In an escape. -/
lemma inEscape_good {cursor : Cursor} {valbuf : List UInt8} {maxlen : Int} (h : s.Onward s')
    (hlt : s'.dec.left < s.dec.left) (hpos : s'.dec.pos ≤ s'.dec.text.length) (hmem : 92 ∈ s.dec.text) :
    Step.Good l s (inEscape c cursor valbuf maxlen s') := by
  have hput : ∀ (c : UInt8) (d : Decoder), s'.dec.Onward d →
      Step.Good l s (.next ⟨.inValString cursor (valbuf ++ [c]), maxlen⟩
        { s'.touchValue valbuf.length with dec := d }) := fun c d hd =>
    Step.good_next ((h.touchValue (.inr hmem)).move hd) (Nat.lt_of_le_of_lt hd.left hlt) (.inr hmem)
  have hplain : ∀ c : UInt8, Step.Good l s (.next ⟨.inValString cursor (valbuf ++ [c]), maxlen⟩
      { s'.touchValue valbuf.length with dec := s'.dec }) := fun c =>
    hput c s'.dec ⟨rfl, Nat.le_succ_of_le hpos, rfl, Nat.le_refl _⟩
  rw [inEscape]
  dsimp only
  split
  case isTrue => exact hplain 8
  split
  case isTrue => exact hplain 12
  split
  case isTrue => exact hplain 10
  split
  case isTrue => exact hplain 13
  split
  case isTrue => exact hplain 9
  split
  case isFalse => exact hplain c
  case isTrue hu =>
    have hc : c ≠ 0 := by
      rw [hu]
      decide
    obtain ⟨hon, hge⟩ := uescapeLoop_onward 4 c [] (fun _ => hc) hpos
    exact hput _ _ (hon.back (.inr (by omega)))

/-- A step is taken with the character behind it. -/
lemma objStep_good (ft : FloatText) (attrs : List Attr) (parent : Option ArrayT) (offset : Nat)
    (hs : s.Sound)
    (hfits : l.state.Fits s.dec.text) (hc : (jsonReadNext s.dec).1 ≠ 0) :
    Step.Good l s (objStep ft attrs parent offset (jsonReadNext s.dec).1 l
      { s with dec := (jsonReadNext s.dec).2 }) := by
  have hlt := jsonReadNext_lt hc
  have hin := pos_lt_of_jsonReadNext hc
  have hpos := jsonReadNext_pos (Nat.le_of_lt hin)
  have hmem := jsonReadNext_mem hc
  have hread := jsonReadNext_onward hs.within
  have hon : s.Onward { s with dec := (jsonReadNext s.dec).2 } := hs.refl.move hread
  have hprev := hread.back jsonReadNext_far
  have hback : s.Onward { s with dec := (jsonReadPrev (jsonReadNext s.dec).2).2 } := hs.refl.move hprev
  have hsame : (jsonReadPrev (jsonReadNext s.dec).2).2.left = s.dec.left := by
    rw [Decoder.left, jsonReadPrev_text, jsonReadNext_text, jsonReadPrev_pos, hpos,
      Nat.add_sub_cancel, Decoder.left]
  rw [objStep]
  split
  case h_1 =>
    split
    case isTrue => exact Step.good_next hon hlt hfits
    split
    case isTrue => exact Step.good_next hon hlt trivial
    case isFalse => exact hon
  case h_2 =>
    split
    case isTrue => exact Step.good_next hon hlt hfits
    split
    case isTrue => exact Step.good_next hon hlt (show 0 < 31 by decide)
    split
    case isTrue => exact Step.good_next hon hlt hfits
    case isFalse => exact hon
  case h_3 attrbuf hst =>
    rw [hst] at hfits
    have hbuf : attrbuf.length < 31 := hfits
    have htouch := hon.touchName (show attrbuf.length < 32 by omega)
    split
    case isTrue =>
      dsimp only
      split
      case h_1 => exact htouch
      case h_2 => exact Step.good_next htouch hlt trivial
    split
    case isTrue => exact hon
    case isFalse hlen =>
      have hlen' : ¬30 ≤ attrbuf.length := hlen
      refine Step.good_next htouch hlt ?_
      show (attrbuf ++ [(jsonReadNext s.dec).1]).length < 31
      rw [List.length_append, List.length_singleton]
      omega
  case h_4 =>
    split
    case isTrue => exact Step.good_next hon hlt hfits
    split
    case isTrue =>
      split
      case isTrue =>
        refine ⟨hback, ?_⟩
        rw [hsame]
        exact Nat.sub_pos_of_lt hin
      case isFalse => exact hon
    split
    case isTrue => exact hon
    split
    case isTrue => exact Step.good_next hon hlt (.inl (Nat.zero_le _))
    case isFalse => exact Step.good_next hon hlt (show 1 ≤ 512 by decide)
  case h_5 valbuf hst =>
    rw [hst] at hfits
    have htouch := hon.touchValue (hfits.imp_left Nat.lt_succ_of_le)
    split
    case isTrue hbs => exact Step.good_next hon hlt (show 92 ∈ s.dec.text from hbs ▸ hmem)
    split
    case isTrue => exact Step.good_next htouch hlt trivial
    split
    case isTrue => exact hon
    case isFalse hlen =>
      have hlen' : ¬511 < valbuf.length := fun h => hlen (.inl h)
      refine Step.good_next htouch hlt (.inl ?_)
      show (valbuf ++ [(jsonReadNext s.dec).1]).length ≤ 512
      rw [List.length_append, List.length_singleton]
      omega
  case h_6 hst =>
    rw [hst] at hfits
    refine inEscape_good hon hlt ?_ hfits
    rw [jsonReadNext_text, hpos]
    exact hin
  case h_7 valbuf hst =>
    rw [hst] at hfits
    have hbuf : valbuf.length ≤ 512 := hfits
    have hin' : valbuf.length < jsonValMax + 1 ∨ 92 ∈ s.dec.text := .inl (Nat.lt_succ_of_le hbuf)
    split
    case isTrue =>
      split
      case isTrue =>
        -- the character is given back, and what is left of the bound is the state
        refine ⟨hback.touchValue hin', trivial, ?_⟩
        rw [Locals.weight, Locals.weight, hst]
        exact Nat.lt_succ_of_le (Nat.mul_le_mul_left 3 hback.left)
      case isFalse => exact Step.good_next (hon.touchValue hin') hlt trivial
    split
    case isTrue => exact hon
    case isFalse hlen =>
      have hlen' : ¬511 < valbuf.length := hlen
      refine Step.good_next (hon.touchValue hin') hlt ?_
      show (valbuf ++ [(jsonReadNext s.dec).1]).length ≤ 512
      rw [List.length_append, List.length_singleton]
      omega
  case h_8 => exact postVal_good ft hon hlt
  case h_9 => exact afterValue_good hon hlt trivial

end

end Moves

end UwbCore.Json.Text
