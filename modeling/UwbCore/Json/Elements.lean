import UwbCore.Json.Ends
import UwbCore.Json.Lines

/-!
# Arrays in the text of a line

The decoder in front of a text, and the array reader on the numbers of an array: it makes of them what the
lines make of them, with the same memory and the same error code (`arrLoop_at`).
-/

namespace UwbCore.Json.Text
open UwbCore.Lib

/-! ## The decoder in the text -/

/-- What the decoder has before it. -/
def Decoder.At (d : Decoder) (rest : List UInt8) : Prop :=
  d.text.drop d.pos = rest ∧ d.pos ≤ d.text.length

section Decoding
variable {d : Decoder} {c : UInt8} {s rest : List UInt8}

/-- Behind some bytes. -/
lemma Decoder.At.advance (h : d.At (s ++ rest)) : Decoder.At { d with pos := d.pos + s.length } rest := by
  obtain ⟨hdrop, hpos⟩ := h
  have hlen := congrArg List.length hdrop
  rw [List.length_drop, List.length_append] at hlen
  refine ⟨?_, show d.pos + s.length ≤ d.text.length by omega⟩
  show d.text.drop (d.pos + s.length) = rest
  rw [← List.drop_drop, hdrop, List.drop_left]

/-- A byte is read. -/
lemma Decoder.At.next (h : d.At (c :: rest)) : jsonReadNext d = (c, { d with pos := d.pos + 1 }) := by
  rw [jsonReadNext, if_pos h.2, Decoder.byte, List.getD_eq_getElem?_getD, ← List.head?_drop, h.1]
  rfl

/-- At the end the NUL is read. -/
lemma Decoder.At.stop (h : d.At []) : (jsonReadNext d).1 = 0 := by
  by_contra hne
  have hlt := pos_lt_of_jsonReadNext hne
  have hlen := congrArg List.length h.1
  rw [List.length_drop, List.length_nil] at hlen
  omega

/-- A byte that was read is given back. -/
lemma Decoder.At.back (h : d.At rest) : (jsonReadPrev { d with pos := d.pos + 1 }).2 = d := by
  rw [jsonReadPrev_eq (Nat.succ_le_succ h.2)]
  rfl

/-- No white space is skipped. -/
lemma Decoder.At.skip (h : d.At (c :: rest)) (hc : Hex.isSpace c = false) : jsonSkipWs d = d := by
  rw [jsonSkipWs, skipLoop, h.next, hc, if_neg Bool.false_ne_true]
  exact h.back

/-- The next byte is looked at. -/
lemma Decoder.At.peek (h : d.At (c :: rest)) : jsonPeek d = (c, d) := by
  have hbyte : d.byte d.pos = c := by
    have hn := h.next
    rw [jsonReadNext, if_pos h.2] at hn
    exact congrArg Prod.fst hn
  have hfst : (jsonReadPrev { d with pos := d.pos + 1 }).1 = c := by
    rw [jsonReadPrev, if_neg (Nat.succ_ne_zero _)]
    exact hbyte
  rw [jsonPeek, h.next]
  exact Prod.ext hfst h.back

/-- Some bytes are copied. -/
lemma Decoder.At.readn (h : d.At (s ++ rest)) (hs : s.length ≤ 63) :
    (jsonReadn d 63).1 = s ++ rest.take (63 - s.length) := by
  rw [jsonReadn, h.1, List.take_append, List.take_of_length_le hs]

end Decoding

/-! ## Elements of arrays -/

/-- The memory with other bytes above an address. -/
def putAbove (base : Nat) (m k : Mem) : Mem := fun x => if base ≤ x then k (x - base) else m x

section Arrays
variable {ft : FloatText} {base : Nat} {m k : Mem} {d : Decoder} {w : Wild} {s rest : List UInt8}
variable {e : UInt8}

/-- What was put there is there. -/
lemma above_putAbove : above base (putAbove base m k) = k := by
  funext x
  rw [above, putAbove, if_pos (Nat.le_add_right _ _), Nat.add_sub_cancel_left]

/-- Only the last counts. -/
lemma putAbove_putAbove {k' : Mem} : putAbove base (putAbove base m k) k' = putAbove base m k' := by
  funext x
  by_cases h : base ≤ x
  · simp only [putAbove, if_pos h]
  · simp only [putAbove, if_neg h]

/-- The same bytes change nothing. -/
lemma putAbove_above : putAbove base m (above base m) = m := by
  funext x
  rw [putAbove]
  split
  case isTrue h => rw [above, Nat.add_sub_cancel' h]
  case isFalse => rfl

/-- A store above an address. -/
lemma store64_eq_putAbove (a : Nat) (v : BitVec 64) :
    m.store64 (base + a) v = putAbove base m ((above base m).store64 a v) := by
  funext x
  rw [putAbove, Mem.store64, Mem.store64]
  by_cases hx : base ≤ x
  · rw [if_pos hx]
    by_cases hin : base + a ≤ x ∧ x < base + a + 8
    · rw [if_pos hin, if_pos (by omega), Nat.sub_sub]
    · rw [if_neg hin, if_neg (by omega), above, Nat.add_sub_cancel' hx]
  · rw [if_neg hx, if_neg (by omega)]

/-- A number of an array is what its own text makes of it, and the reader stands where it ends. -/
lemma readNumber_at {conv : List UInt8 → BitVec 64 × Nat} (addr : Nat) (hat : d.At (s ++ rest))
    (hs : s.length ≤ 63) {x : BitVec 64 × Nat} (hconv : conv (s ++ rest.take (63 - s.length)) = x)
    (hle : x.2 ≤ s.length) :
    ∃ d' w', readNumber conv addr ⟨d, m, w⟩ =
        (if x.2 = 0 then jsonErrBadnum else 0, ⟨d', m.store64 addr x.1, w'⟩) ∧
      (x.2 ≠ 0 → d' = { d with pos := d.pos + x.2 }) := by
  have hlen : (jsonReadn d 63).1.length = min 63 (d.text.length - d.pos) := by
    rw [jsonReadn, List.length_take, List.length_drop]
  have hmin : s.length ≤ (jsonReadn d 63).1.length := by
    rw [hat.readn hs, List.length_append]
    exact Nat.le_add_right _ _
  have hpos := hat.2
  have hmore : (jsonReadn d 63).2 = { d with pos := d.pos + min 63 (d.text.length - d.pos) } := by
    rw [jsonReadn]
    dsimp only
    rw [decide_eq_false (Nat.not_lt_of_le hpos), Bool.or_false]
  have hwithin : d.pos + min 63 (d.text.length - d.pos) ≤ d.text.length + 1 := by omega
  rw [readNumber]
  dsimp only
  rw [hat.readn hs, hconv]
  split
  case isTrue h0 => exact ⟨_, _, rfl, fun h => absurd h0 h⟩
  case isFalse h0 =>
    refine ⟨_, _, rfl, fun _ => ?_⟩
    rw [← hat.readn hs, hmore, rewind_eq _ hwithin, hlen]
    dsimp only
    congr 1
    omega

/-- An element was read and what it is was stored: the reader stands behind it, or there is an error,
    for which the reader may also have to see the next character. -/
structure Taken (rest : List UInt8) (v : BitVec 64 × Int) (stored : Mem) (r : Int × St) : Prop where
  mem : r.2.mem = stored
  rc : (v.2 = 0 ∧ r.1 = 0 ∧ r.2.dec.At rest) ∨ (v.2 = r.1 ∧ r.1 ≠ 0) ∨
    (v.2 = jsonErrBadsubtrail ∧ r.1 = 0 ∧ ∃ c rest', Plain c ∧ r.2.dec.At (c :: rest'))

/-- A number of an array that is taken. -/
lemma readNumber_taken {conv : List UInt8 → BitVec 64 × Nat} {addr : Nat} (hat : d.At (s ++ rest))
    (hs : s.length ≤ 63) (hplain : ∀ c ∈ s, Plain c)
    (hconv : conv (s ++ rest.take (63 - s.length)) = conv s) (hle : (conv s).2 ≤ s.length) :
    Taken rest (elementOf conv s) (m.store64 addr (conv s).1) (readNumber conv addr ⟨d, m, w⟩) := by
  obtain ⟨d', w', hrun, hd'⟩ := readNumber_at (m := m) (w := w) addr hat hs hconv hle
  rw [hrun]
  refine ⟨rfl, ?_⟩
  rw [elementOf]
  dsimp only
  by_cases h0 : (conv s).2 = 0
  · rw [if_pos h0]
    exact .inr (.inl ⟨(if_pos h0).symm, by rw [if_pos h0]; decide⟩)
  rw [if_neg h0, if_neg h0]
  obtain rfl := hd' h0
  by_cases hall : (conv s).2 = s.length
  · rw [if_pos hall, hall]
    exact .inl ⟨rfl, rfl, hat.advance⟩
  · rw [if_neg hall]
    refine .inr (.inr ⟨rfl, rfl, ?_⟩)
    have hsplit : s = s.take (conv s).2 ++ s.drop (conv s).2 := (List.take_append_drop _ _).symm
    have hlen : (s.take (conv s).2).length = (conv s).2 := by
      rw [List.length_take]
      omega
    cases hdrop : s.drop (conv s).2 with
    | nil =>
      have := congrArg List.length hdrop
      rw [List.length_drop, List.length_nil] at this
      omega
    | cons c t =>
      rw [hsplit, hdrop, List.append_assoc] at hat
      have hadv := hat.advance
      rw [hlen] at hadv
      exact ⟨c, t ++ rest, hplain c (List.mem_of_mem_drop (hdrop ▸ List.mem_cons_self)), hadv⟩

/-- A comma and a bracket end a number. -/
lemma ends_of_sep {rest : List UInt8} (h : ∀ c ∈ rest.head?, c = 44 ∨ c = 93) :
    ∀ c ∈ rest.head?, Decimal.Ends c := by
  intro c hc
  rcases h c hc with rfl | rfl
  · exact ⟨by decide, by decide, by decide, by decide⟩
  · exact ⟨by decide, by decide, by decide, by decide⟩

/-- What follows the comma or the bracket does not matter. -/
lemma strtoull_append {rest : List UInt8} (h : ∀ c ∈ rest.head?, c = 44 ∨ c = 93) :
    Decimal.strtoull (s ++ rest) = Decimal.strtoull s := by
  rw [Decimal.strtoull, Decimal.strtoull, Decimal.convert_append (ends_of_sep h)]

/-- A number that is not `null` is no `null` for the reader. -/
lemma numberText_real (hft : ft.Lawful) {n : Number} (hn : numberText ft n ≠ ascii "null")
    (h0 : (ft.strtod (numberText ft n)).2 = 0) : (numberText ft n ++ rest).take 4 ≠ ascii "null" := by
  cases n with
  | uint n =>
    intro h
    cases htext : numberText ft (.uint n) with
    | nil => exact (numberText_plain hft _).1 htext
    | cons c t =>
      have hc : c ∈ Decimal.decimal 20 n.toNat := by
        show c ∈ numberText ft (.uint n)
        rw [htext]
        exact List.mem_cons_self
      rw [htext] at h
      exact (isDec_ne (Decimal.mem_decimal hc)).2 (List.cons.inj h).1
  | float x =>
    have htext : numberText ft (.float x) = if isNan x then ascii "null" else ft.print x := rfl
    rw [htext] at hn h0
    split at hn
    case isTrue => exact absurd rfl hn
    case isFalse hx =>
      have hx' : isNan x = false := Bool.eq_false_iff.mpr hx
      rw [if_neg hx, hft.whole x hx'] at h0
      exact absurd (List.length_eq_zero_iff.mp h0) (hft.plain x hx').1

/-- An element of an array of numbers. -/
lemma readElement_taken (hft : ft.Lawful) (elem : Elem) (base store maxlen offset tp : Nat)
    (count : Option Nat) (m : Mem) (w : Wild) {n : Number} (hat : d.At (numberText ft n ++ e :: rest))
    (he : e = 44 ∨ e = 93)
    (hlen : (numberText ft n).length ≤ 63) :
    ∃ rc s', readElement ft (arrayOf base elem store maxlen count) offset tp ⟨d, m, w⟩ = (rc, tp, s') ∧
      Taken (e :: rest) ((conv ft hft).element elem n)
        (m.store64 (base + store + 8 * offset) ((conv ft hft).element elem n).1) (rc, s') := by
  obtain ⟨hne, hplain⟩ := numberText_plain hft n
  have hsep : ∀ k, ∀ c ∈ ((e :: rest).take k).head?, c = 44 ∨ c = 93 := by
    intro k c hc
    cases k with
    | zero => cases hc
    | succ k =>
      cases hc
      exact he
  cases elem with
  | uinteger =>
    refine ⟨_, _, rfl, ?_⟩
    exact readNumber_taken hat hlen hplain (strtoull_append (hsep _)) (Decimal.convert_length_le _)
  | real =>
    refine ⟨_, _, rfl, ?_⟩
    have hstop : ft.strtod (numberText ft n ++ (e :: rest).take (63 - (numberText ft n).length)) =
        ft.strtod (numberText ft n) := hft.stops _ _ (hsep _)
    show Taken (e :: rest) (if numberText ft n = ascii "null" then (nan, 0) else
        elementOf ft.strtod (numberText ft n))
      (m.store64 (base + store + 8 * offset) (if numberText ft n = ascii "null" then (nan, 0) else
        elementOf ft.strtod (numberText ft n)).1) (readReal ft (base + store + 8 * offset) ⟨d, m, w⟩)
    rw [readReal]
    dsimp only
    rw [hat.readn hlen, hstop]
    by_cases hnull : numberText ft n = ascii "null"
    · have h4 : (ascii "null" ++ (e :: rest).take (63 - (ascii "null").length)).take 4 =
          ascii "null" := rfl
      rw [hnull] at hat hplain hlen ⊢
      rw [if_pos rfl, if_pos ⟨hft.null, h4⟩]
      show Taken (e :: rest) (elementOf (fun _ => (nan, 4)) (ascii "null"))
        (m.store64 (base + store + 8 * offset) nan) _
      exact readNumber_taken hat hlen hplain rfl (by decide)
    · have hno : ¬((ft.strtod (numberText ft n)).2 = 0 ∧
          (numberText ft n ++ (e :: rest).take (63 - (numberText ft n).length)).take 4 =
            ascii "null") := fun h => numberText_real hft hnull h.1 h.2
      rw [if_neg hnull, if_neg hno]
      exact readNumber_taken hat hlen hplain hstop (ft.strtod_le _)

/-- What follows an element. -/
lemma Taken.after {v : BitVec 64 × Int} {stored : Mem} {rc : Int} {s' : St}
    (h : Taken (e :: rest) v stored (rc, s')) (he : e = 44 ∨ e = 93) (arr : ArrayT) (offset tp : Nat) :
    ∃ s'', s''.mem = stored ∧
      (v.2 = 0 → s''.dec.At rest ∧ ∀ more, afterElement arr offset more (some (rc, tp, s')) =
        if e = 93 then some (0, storeCount arr (offset + 1) s'') else more tp s'') ∧
      (v.2 ≠ 0 → ∀ more, afterElement arr offset more (some (rc, tp, s')) = some (v.2, s'')) := by
  obtain ⟨hmem, ⟨hv, hrc, hat⟩ | ⟨hv, hrc⟩ | ⟨hv, hrc, c, rest', hc, hat⟩⟩ := h
  · dsimp only at hmem hrc hat
    have hspace : Hex.isSpace e = false := by rcases he with rfl | rfl <;> decide
    refine ⟨{ s' with dec := { s'.dec with pos := s'.dec.pos + 1 } }, hmem,
      fun _ => ⟨@Decoder.At.advance _ [e] _ hat, fun more => ?_⟩, fun h => absurd hv h⟩
    · rw [afterElement, if_pos hrc, hat.skip hspace, hat.next]
      dsimp only
      split
      case isTrue => rfl
      case isFalse h93 => rw [if_pos (he.resolve_right h93)]
  · refine ⟨s', hmem, fun h => absurd (hv.symm.trans h) hrc, fun _ more => ?_⟩
    rw [afterElement, if_neg hrc, hv]
  · dsimp only at hmem hrc hat
    refine ⟨{ s' with dec := { s'.dec with pos := s'.dec.pos + 1 } }, hmem, fun h => ?_, fun _ more => ?_⟩
    · rw [hv] at h
      exact absurd h (by decide)
    · have h93 : c ≠ 93 := fun h => hc.2.2 (by rw [h]; decide)
      have h44 : c ≠ 44 := fun h => hc.2.2 (by rw [h]; decide)
      rw [afterElement, if_pos hrc, hat.skip hc.2.1, hat.next]
      dsimp only
      rw [if_neg h93, if_neg h44, hv]

/-- What the lines make of an array from one of its elements on. -/
def arrayFrom (ft : FloatText) (hft : ft.Lawful) (elem : Elem) (store maxlen : Nat) (count : Option Nat)
    (offset : Nat) (m : Mem) (ns : List Number) : Int × Mem :=
  let r := readElements (conv ft hft) elem store maxlen offset m ns
  if r.1 = 0 then
    (0, match count with
      | some addr => r.2.1.store64 addr r.2.2
      | none => r.2.1)
  else (r.1, r.2.1)

/-- From one element on to the next. -/
lemma arrayFrom_cons (hft : ft.Lawful) {elem : Elem} {store maxlen offset : Nat} {count : Option Nat}
    {n : Number} {ns : List Number} :
    arrayFrom ft hft elem store maxlen count offset m (n :: ns) =
      if offset < maxlen then
        if ((conv ft hft).element elem n).2 = 0 then
          arrayFrom ft hft elem store maxlen count (offset + 1)
            (m.store64 (store + 8 * offset) ((conv ft hft).element elem n).1) ns
        else (((conv ft hft).element elem n).2,
          m.store64 (store + 8 * offset) ((conv ft hft).element elem n).1)
      else (jsonErrSubtoolong, m) := by
  unfold arrayFrom
  rw [readElements]
  split
  case isTrue =>
    dsimp only
    split
    case isTrue => rfl
    case isFalse => rfl
  case isFalse => rfl

/-- The number of elements. -/
lemma storeCount_at (elem : Elem) (store maxlen n : Nat) (count : Option Nat) {s : St}
    (hs : s.mem = putAbove base m k) :
    (storeCount (arrayOf base elem store maxlen count) n s).mem =
        putAbove base m (match count with
          | some addr => k.store64 addr n
          | none => k) ∧
      (storeCount (arrayOf base elem store maxlen count) n s).dec = s.dec := by
  cases count with
  | none => exact ⟨hs, rfl⟩
  | some addr =>
    refine ⟨?_, rfl⟩
    show s.mem.store64 (base + addr) _ = _
    rw [hs, store64_eq_putAbove, putAbove_putAbove, above_putAbove]
    rfl

/-- One element of an array. -/
lemma arrLoop_step (hft : ft.Lawful) (tp : Nat) {elem : Elem} {store maxlen offset : Nat} {count : Option Nat}
    {a : Attr} (ha : a.array = arrayOf base elem store maxlen count) (hmax : offset < maxlen)
    {n : Number} (hlen : (numberText ft n).length ≤ 63) (he : e = 44 ∨ e = 93)
    (hat : d.At (numberText ft n ++ e :: rest)) :
    ∃ s', s'.mem = putAbove base m ((above base m).store64 (store + 8 * offset)
        ((conv ft hft).element elem n).1) ∧
      (((conv ft hft).element elem n).2 = 0 → s'.dec.At rest ∧
        ∀ fuel, arrLoop ft a offset tp (fuel + 1) ⟨d, m, w⟩ =
          if e = 93 then some (0, storeCount a.array (offset + 1) s')
          else arrLoop ft a (offset + 1) tp fuel s') ∧
      (((conv ft hft).element elem n).2 ≠ 0 → ∀ fuel, arrLoop ft a offset tp (fuel + 1) ⟨d, m, w⟩ =
        some (((conv ft hft).element elem n).2, s')) := by
  obtain ⟨hne, hplain⟩ := numberText_plain hft n
  obtain ⟨rc, s', hel, htaken⟩ :=
    readElement_taken hft elem base store maxlen offset tp count m w hat he hlen
  obtain ⟨s'', hmem, hok, herr⟩ := htaken.after he a.array offset tp
  have hskip : jsonSkipWs d = d := by
    cases hd : numberText ft n with
    | nil => exact absurd hd hne
    | cons c t =>
      rw [hd] at hat hplain
      exact hat.skip (hplain c List.mem_cons_self).2.1
  have hkind : ¬(a.array.elementType = .object ∨ a.array.elementType = .structobject) := by
    rw [ha]
    cases elem <;> simp [arrayOf]
  have hrun : ∀ fuel, arrLoop ft a offset tp (fuel + 1) ⟨d, m, w⟩ =
      afterElement a.array offset (fun tp s => arrLoop ft a (offset + 1) tp fuel s)
        (some (rc, tp, s')) := by
    intro fuel
    have hmax' : offset < a.array.maxlen := by
      rw [ha]
      exact hmax
    rw [arrLoop, if_pos hmax']
    dsimp only
    rw [hskip, if_neg hkind]
    rw [← ha] at hel
    rw [hel]
  rw [Nat.add_assoc, store64_eq_putAbove] at hmem
  refine ⟨s'', hmem, fun h => ?_, fun h fuel => ?_⟩
  · obtain ⟨hat', hmore⟩ := hok h
    exact ⟨hat', fun fuel => (hrun fuel).trans (hmore _)⟩
  · exact (hrun fuel).trans (herr h _)

/-- The loop over the elements, from one of them on. -/
lemma arrLoop_at (hft : ft.Lawful) {elem : Elem} {store maxlen : Nat} {count : Option Nat} {a : Attr}
    (ha : a.array = arrayOf base elem store maxlen count) (ns : List Number) :
    ∀ (offset tp : Nat) (d : Decoder) (m : Mem) (w : Wild), ns ≠ [] →
      (∀ n ∈ ns, (numberText ft n).length ≤ 63) →
      d.At (commaText (ns.map (numberText ft)) ++ 93 :: rest) →
      ∃ fuel rc s', arrLoop ft a offset tp fuel ⟨d, m, w⟩ = some (rc, s') ∧
        rc = (arrayFrom ft hft elem store maxlen count offset (above base m) ns).1 ∧
        s'.mem = putAbove base m (arrayFrom ft hft elem store maxlen count offset (above base m) ns).2 ∧
        (rc = 0 → s'.dec.At rest) := by
  induction ns with
  | nil => exact fun _ _ _ _ _ h => absurd rfl h
  | cons n ns ih =>
    intro offset tp d m w _ hlen hat
    rw [arrayFrom_cons hft]
    by_cases hmax : offset < maxlen
    · rw [if_pos hmax]
      cases ns with
      | nil =>
        have hat' : d.At (numberText ft n ++ 93 :: rest) := by simpa [commaText] using hat
        obtain ⟨s', hmem, hok, herr⟩ := arrLoop_step (m := m) (w := w) hft tp ha hmax
          (hlen n List.mem_cons_self) (.inr rfl) hat'
        split
        case isTrue h0 =>
          obtain ⟨hrest, hrun⟩ := hok h0
          obtain ⟨hcount, hdec⟩ := storeCount_at elem store maxlen (offset + 1) count hmem
          refine ⟨1, 0, _, hrun 0, rfl, ?_, fun _ => ?_⟩
          · rw [ha]
            exact hcount
          · rw [ha, hdec]
            exact hrest
        case isFalse h0 => exact ⟨1, _, s', herr h0 0, rfl, hmem, fun h => absurd h h0⟩
      | cons n' ns =>
        have hat' : d.At (numberText ft n ++
            44 :: (commaText ((n' :: ns).map (numberText ft)) ++ 93 :: rest)) := by
          simpa [commaText] using hat
        obtain ⟨s', hmem, hok, herr⟩ := arrLoop_step (m := m) (w := w) hft tp ha hmax
          (hlen n List.mem_cons_self) (.inl rfl) hat'
        split
        case isTrue h0 =>
          obtain ⟨hrest, hrun⟩ := hok h0
          obtain ⟨d', m', w'⟩ := s'
          dsimp only at hmem hrest
          subst hmem
          obtain ⟨fuel, rc, s'', hrun', hrc, hmem', hat''⟩ := ih (offset + 1) tp d' _ w'
            (List.cons_ne_nil _ _) (fun k hk => hlen k (List.mem_cons_of_mem _ hk)) hrest
          rw [above_putAbove] at hrc hmem'
          rw [putAbove_putAbove] at hmem'
          exact ⟨fuel + 1, rc, s'', (hrun fuel).trans hrun', hrc, hmem', hat''⟩
        case isFalse h0 => exact ⟨1, _, s', herr h0 0, rfl, hmem, fun h => absurd h h0⟩
    · refine ⟨1, jsonErrSubtoolong, ⟨d, m, w⟩, ?_, ?_, ?_, fun h => absurd h (by decide)⟩
      · rw [arrLoop, ha]
        exact if_neg hmax
      · rw [if_neg hmax]
      · rw [if_neg hmax, putAbove_above]

end Arrays

end UwbCore.Json.Text
