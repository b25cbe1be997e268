import UwbCore.Json.Elements

/-!
# Attributes in the text of a line

The loop of an object over the text of one attribute: its name, a number or an array, and what is behind it
(`Reads.name`, `Reads.value`).
-/

namespace UwbCore.Json.Text
open UwbCore.Lib

/-! ## The loop of an object -/

/-- The loop for a whole table comes to its end with an error code and a memory. -/
def Reads (ft : FloatText) (attrs : List Attr) (l : Locals) (d : Decoder) (m : Mem) (rc : Int)
    (m' : Mem) : Prop :=
  ∀ w, ∃ fuel s, objLoop ft attrs none 0 fuel l ⟨d, m, w⟩ = some (rc, s) ∧ s.mem = m'

section Loop
variable {ft : FloatText} {attrs : List Attr} {l l' : Locals} {d : Decoder} {m m' m'' : Mem} {rc : Int}
variable {c : UInt8} {s rest : List UInt8}

/-- The rounds that are there for a text are enough, and more of them change nothing. -/
lemma Reads.enough {text : List UInt8} {maxlen : Int}
    (h : Reads ft attrs ⟨.init, maxlen⟩ (.init text) m rc m') :
    ∃ s, objLoop ft attrs none 0 (3 * text.length + 1) ⟨.init, maxlen⟩ ⟨.init text, m, ⟨false, false⟩⟩ =
      some (rc, s) ∧ s.mem = m' := by
  obtain ⟨fuel, s, hrun, hmem⟩ := h ⟨false, false⟩
  have hsound : St.Sound ⟨.init text, m, ⟨false, false⟩⟩ := 
    ⟨Nat.zero_le _, rfl, rfl, fun h => Bool.noConfusion h⟩
  obtain ⟨rc', s', hends, -⟩ := (ends ft (3 * text.length + 1)).obj attrs none 0 ⟨.init, maxlen⟩ _
    hsound trivial (Nat.lt_succ_of_le (Nat.le_refl _))
  have hsame := (objLoop_mono (Nat.le_max_left fuel (3 * text.length + 1)) hrun).symm.trans
    (objLoop_mono (Nat.le_max_right fuel (3 * text.length + 1)) hends)
  exact ⟨s, hends.trans hsame.symm, hmem⟩

/-- A character after which the loop goes on behind it. -/
lemma Reads.next (hat : d.At (c :: rest)) (hc : c ≠ 0)
    (hstep : ∀ d' w, ∃ w', objStep ft attrs none 0 c l ⟨d', m, w⟩ = .next l' ⟨d', m', w'⟩)
    (h : ∀ d' : Decoder, d'.At rest → Reads ft attrs l' d' m' rc m'') :
    Reads ft attrs l d m rc m'' := by
  intro w
  obtain ⟨w', hw'⟩ := hstep { d with pos := d.pos + 1 } w
  obtain ⟨fuel, s, hrun, hmem⟩ := h { d with pos := d.pos + 1 } (@Decoder.At.advance _ [c] _ hat) w'
  refine ⟨fuel + 1, s, ?_, hmem⟩
  rw [objLoop, hat.next]
  dsimp only
  rw [if_neg hc, hw']
  exact hrun

/-- A character that is given back. -/
lemma Reads.again (hat : d.At (c :: rest)) (hc : c ≠ 0)
    (hstep : ∀ d' w, ∃ w', objStep ft attrs none 0 c l ⟨d', m, w⟩ =
      .next l' ⟨(jsonReadPrev d').2, m', w'⟩)
    (h : Reads ft attrs l' d m' rc m'') : Reads ft attrs l d m rc m'' := by
  intro w
  obtain ⟨w', hw'⟩ := hstep { d with pos := d.pos + 1 } w
  obtain ⟨fuel, s, hrun, hmem⟩ := h w'
  refine ⟨fuel + 1, s, ?_, hmem⟩
  rw [objLoop, hat.next]
  dsimp only
  rw [if_neg hc, hw', hat.back]
  exact hrun

/-- A character with which the loop returns. -/
lemma Reads.ret (hat : d.At (c :: rest)) (hc : c ≠ 0)
    (hstep : ∀ d' w, ∃ s, objStep ft attrs none 0 c l ⟨d', m, w⟩ = .ret rc s ∧ s.mem = m') :
    Reads ft attrs l d m rc m' := by
  intro w
  obtain ⟨s, hs, hmem⟩ := hstep { d with pos := d.pos + 1 } w
  refine ⟨1, s, ?_, hmem⟩
  rw [objLoop, hat.next]
  dsimp only
  rw [if_neg hc, hs]

/-- An array, and the loop behind it. -/
lemma Reads.array {a : Attr} {maxlen : Int} {rc' : Int} (hat : d.At (c :: rest)) (hc : c ≠ 0)
    (hstep : ∀ d' w, objStep ft attrs none 0 c l ⟨d', m, w⟩ =
      .array a maxlen ⟨(jsonReadPrev d').2, m, w⟩)
    (harr : ∀ w, ∃ fuel s', jsonReadArray ft a fuel ⟨d, m, w⟩ = some (rc', s') ∧ s'.mem = m' ∧
      (rc' = 0 → s'.dec.At s))
    (h : if rc' = 0 then ∀ d' : Decoder, d'.At s → Reads ft attrs ⟨.postArray, maxlen⟩ d' m' rc m''
      else rc = rc' ∧ m'' = m') : Reads ft attrs l d m rc m'' := by
  intro w
  obtain ⟨fuel, s', hrun, hmem, hat'⟩ := harr w
  have hone : ∀ n, objLoop ft attrs none 0 (n + 1) l ⟨d, m, w⟩ =
      (jsonReadArray ft a n ⟨d, m, w⟩).bind fun r =>
        if r.1 = 0 then objLoop ft attrs none 0 n ⟨.postArray, maxlen⟩ r.2 else some r := by
    intro n
    rw [objLoop, hat.next]
    dsimp only
    rw [if_neg hc, hstep]
    dsimp only
    rw [hat.back]
    cases jsonReadArray ft a n ⟨d, m, w⟩ with
    | none => rfl
    | some r => rfl
  split at h
  case isFalse h0 =>
    refine ⟨fuel + 1, s', ?_, hmem.trans h.2.symm⟩
    rw [hone, hrun, Option.bind_some, if_neg h0, h.1]
  case isTrue h0 =>
    obtain ⟨d', m1, w'⟩ := s'
    dsimp only at hmem hat'
    subst hmem
    obtain ⟨fuel', s'', hrun', hmem'⟩ := h d' (hat' h0) w'
    refine ⟨max fuel fuel' + 1, s'', ?_, hmem'⟩
    rw [hone, jsonReadArray_mono (Nat.le_max_left _ _) hrun, Option.bind_some, if_pos h0]
    exact objLoop_mono (Nat.le_max_right _ _) hrun'

/-! ### One attribute -/

/-- How the loop goes on after a value, of which the memory `m` is what was stored: behind a comma with the
    next attribute, and behind the brace not at all. -/
def Goes (ft : FloatText) (attrs : List Attr) (c : UInt8) (rest : List UInt8) (m : Mem) (rc : Int)
    (m' : Mem) : Prop :=
  (c = 44 → ∀ (d : Decoder) (maxlen : Int), d.At rest →
    Reads ft attrs ⟨.awaitAttr, maxlen⟩ d m rc m') ∧
  (c = 125 → rc = 0 ∧ m' = m)

/-- Behind a value. -/
lemma Reads.after {again : State} {maxlen : Int} (hat : d.At (c :: rest)) (hc : c = 44 ∨ c = 125)
    (hstep : ∀ d' w, ∃ w', objStep ft attrs none 0 c l ⟨d', m, w⟩ =
      afterValue c again maxlen ⟨d', m', w'⟩)
    (h : Goes ft attrs c rest m' rc m'') : Reads ft attrs l d m rc m'' := by
  rcases hc with rfl | rfl
  · refine Reads.next hat (by decide) (fun d' w => ?_) fun d' hd' => h.1 rfl d' maxlen hd'
    obtain ⟨w', hw'⟩ := hstep d' w
    exact ⟨w', hw'⟩
  · obtain ⟨rfl, rfl⟩ := h.2 rfl
    refine Reads.ret hat (by decide) fun d' w => ?_
    obtain ⟨w', hw'⟩ := hstep d' w
    exact ⟨_, hw', rfl⟩

/-- The characters of a token up to its end, which is given back. -/
lemma Reads.token {cursor : Cursor} {maxlen : Int} (hc : c = 44 ∨ c = 125) (s : List UInt8) :
    ∀ (buf : List UInt8) (d : Decoder), d.At (s ++ c :: rest) → (∀ x ∈ s, Plain x) →
      buf.length + s.length ≤ 512 →
      (∀ d' : Decoder, d'.At (c :: rest) →
        Reads ft attrs ⟨.postVal cursor (buf ++ s) false, maxlen⟩ d' m rc m') →
      Reads ft attrs ⟨.inValToken cursor buf, maxlen⟩ d m rc m' := by
  induction s with
  | nil =>
    intro buf d hat _ _ h
    have hc0 : c ≠ 0 := by rcases hc with rfl | rfl <;> decide
    rw [List.append_nil] at h
    refine Reads.again hat hc0 (fun d' w => ?_) (h d hat)
    rw [objStep]
    dsimp only
    rw [if_pos (.inr hc), if_pos hc]
    exact ⟨_, rfl⟩
  | cons x s ih =>
    intro buf d hat hs hlen h
    rw [List.length_cons] at hlen
    obtain ⟨hx0, hxs, hx⟩ := hs x List.mem_cons_self
    have hend : ¬(Hex.isSpace x ∨ x = 44 ∨ x = 125) := by
      rintro (hsp | rfl | rfl)
      · rw [hxs] at hsp
        cases hsp
      · exact hx (by decide)
      · exact hx (by decide)
    have hfull : ¬jsonValMax - 1 < buf.length := by
      show ¬511 < buf.length
      omega
    refine Reads.next hat hx0 (fun d' w => ?_) fun d' hd' =>
      ih (buf ++ [x]) d' hd' (fun y hy => hs y (List.mem_cons_of_mem _ hy)) ?_ ?_
    · rw [objStep]
      dsimp only
      rw [if_neg hend, if_neg hfull]
      exact ⟨_, rfl⟩
    · rw [List.length_append, List.length_singleton]
      omega
    · intro d'' hd''
      rw [List.append_assoc]
      exact h d'' hd''

/-- The characters of a name up to the quote. -/
lemma Reads.name {maxlen : Int} (s : List UInt8) :
    ∀ (buf : List UInt8) (d : Decoder), d.At (s ++ 34 :: rest) → (∀ x ∈ s, x ≠ 0 ∧ x ≠ 34) →
      buf.length + s.length ≤ 30 →
      (match findAttr (buf ++ s) attrs with
        | none => rc = jsonErrBadattr ∧ m' = m
        | some cursor => ∀ d' : Decoder, d'.At rest →
          Reads ft attrs ⟨.awaitValue cursor, valueLimit cursor.attr maxlen⟩ d' m rc m') →
      Reads ft attrs ⟨.inAttr buf, maxlen⟩ d m rc m' := by
  induction s with
  | nil =>
    intro buf d hat _ _ h
    rw [List.append_nil] at h
    split at h
    case h_1 hnone =>
      obtain ⟨rfl, rfl⟩ := h
      refine Reads.ret hat (by decide) fun d' w => ?_
      rw [objStep]
      dsimp only
      rw [if_pos rfl, hnone]
      exact ⟨_, rfl, rfl⟩
    case h_2 cursor hsome =>
      refine Reads.next hat (by decide) (fun d' w => ?_) h
      rw [objStep]
      dsimp only
      rw [if_pos rfl, hsome]
      exact ⟨_, rfl⟩
  | cons x s ih =>
    intro buf d hat hs hlen h
    rw [List.length_cons] at hlen
    obtain ⟨hx0, hx34⟩ := hs x List.mem_cons_self
    have hfull : ¬jsonAttrMax - 1 ≤ buf.length := by
      show ¬30 ≤ buf.length
      omega
    refine Reads.next hat hx0 (fun d' w => ?_) fun d' hd' =>
      ih (buf ++ [x]) d' hd' (fun y hy => hs y (List.mem_cons_of_mem _ hy)) ?_ ?_
    · rw [objStep]
      dsimp only
      rw [if_neg hx34, if_neg hfull]
      exact ⟨_, rfl⟩
    · rw [List.length_append, List.length_singleton]
      omega
    · rw [List.append_assoc]
      exact h

/-- A string without a NUL. -/
lemma cstr_eq (h : ∀ x ∈ s, x ≠ 0) : cstr s = s :=
  List.takeWhile_eq_self_iff.mpr fun x hx => decide_eq_true (h x hx)

/-- The search for the attribute stays at one whose name the next does not have. -/
lemma seek_eq {val attrbuf : List UInt8} {quoted : Bool} {a : Attr} {as : List Attr}
    (h : ∀ b ∈ as.head?, b.name ≠ attrbuf) : seek val quoted attrbuf a as = ⟨a, as, attrbuf⟩ := by
  cases as with
  | nil => rw [seek]
  | cons b as =>
    rw [seek, if_neg (h b rfl)]
    split <;> rfl

/-- What the lines make of a value for an attribute. -/
def readFound (ft : FloatText) (hft : ft.Lawful) (a : Json.Attr) (m : Mem) : Value → Int × Mem
  | .num n => match a.target with
    | .uinteger addr => (0, m.store64 addr ((conv ft hft).scalar .uinteger n))
    | .real addr => (0, m.store64 addr ((conv ft hft).scalar .real n))
    | .array .. => (jsonErrNobrak, m)
  | .array ns => match a.target with
    | .array elem store maxlen count => arrayFrom ft hft elem store maxlen count 0 m ns
    | _ => (jsonErrNoarray, m)

section Value
variable {base : Nat} (hft : ft.Lawful) {a : Json.Attr} {cursor : Cursor}

/-- A number behind its last character. -/
lemma postVal_number (hbase : 0 < base) (hattr : cursor.attr = attrOf base a)
    (hstay : ∀ b ∈ cursor.rest.head?, b.name ≠ cursor.attrbuf) {n : Number} (maxlen : Int)
    (hkind : ∀ elem store maxlen count, a.target ≠ .array elem store maxlen count) (w : Wild) :
    objStep ft attrs none 0 c ⟨.postVal cursor (numberText ft n) false, maxlen⟩ ⟨d, m, w⟩ =
      afterValue c (.postVal cursor ((numberText ft n).take jsonValMax) false) maxlen
        ⟨d, putAbove base m (readFound ft hft a (above base m) (.num n)).2, w⟩ := by
  have hval : cstr (numberText ft n) = numberText ft n :=
    cstr_eq fun x hx => ((numberText_plain hft n).2 x hx).1
  have hcursor : (⟨cursor.attr, cursor.rest, cursor.attrbuf⟩ : Cursor) = cursor := rfl
  rw [objStep]
  dsimp only
  rw [postVal, hval, seek_eq hstay, hcursor, hattr]
  obtain ⟨name, target, dflt⟩ := a
  cases target with
  | uinteger addr =>
    have hstore : storeValue ft none 0 (attrOf base ⟨name, .uinteger addr, dflt⟩) (numberText ft n) m =
        (0, m.store64 (base + addr) (Decimal.strtoull (numberText ft n)).1) := by
      have hne : base + addr ≠ 0 := by omega
      rw [storeValue]
      exact if_neg hne
    dsimp only
    rw [if_pos (show quoteError (attrOf base ⟨name, .uinteger addr, dflt⟩) false = 0 from rfl)]
    show (if (storeValue ft none 0 _ (numberText ft n) m).1 = 0 then _ else _) = _
    rw [hstore, if_pos rfl, store64_eq_putAbove]
    rfl
  | real addr =>
    have hstore : storeValue ft none 0 (attrOf base ⟨name, .real addr, dflt⟩) (numberText ft n) m =
        (0, m.store64 (base + addr) (ft.strtod (numberText ft n)).1) := by
      have hne : base + addr ≠ 0 := by omega
      rw [storeValue]
      exact if_neg hne
    dsimp only
    rw [if_pos (show quoteError (attrOf base ⟨name, .real addr, dflt⟩) false = 0 from rfl)]
    show (if (storeValue ft none 0 _ (numberText ft n) m).1 = 0 then _ else _) = _
    rw [hstore, if_pos rfl, store64_eq_putAbove]
    rfl
  | array elem store maxlen count => exact absurd rfl (hkind elem store maxlen count)

/-- A number for an attribute with one. -/
lemma Reads.number (hbase : 0 < base) (hattr : cursor.attr = attrOf base a)
    (hstay : ∀ b ∈ cursor.rest.head?, b.name ≠ cursor.attrbuf) {n : Number} {maxlen : Int}
    (hkind : ∀ elem store maxlen count, a.target ≠ .array elem store maxlen count)
    (hlen : (numberText ft n).length ≤ 63) (hc : c = 44 ∨ c = 125)
    (hat : d.At (numberText ft n ++ c :: rest))
    (hgo : Goes ft attrs c rest (putAbove base m (readFound ft hft a (above base m) (.num n)).2) rc m'') :
    Reads ft attrs ⟨.awaitValue cursor, maxlen⟩ d m rc m'' := by
  obtain ⟨hne, hplain⟩ := numberText_plain hft n
  have htype : cursor.attr.type ≠ .array := by
    rw [hattr]
    obtain ⟨name, target, dflt⟩ := a
    cases target with
    | uinteger addr => exact fun h => by cases h
    | real addr => exact fun h => by cases h
    | array elem store maxlen count => exact absurd rfl (hkind elem store maxlen count)
  have hpost : ∀ d' : Decoder, d'.At (c :: rest) →
      Reads ft attrs ⟨.postVal cursor (numberText ft n) false, maxlen⟩ d' m rc m'' := fun d' hd' =>
    Reads.after hd' hc (fun d'' w => ⟨w, postVal_number hft hbase hattr hstay maxlen hkind w⟩) hgo
  cases htext : numberText ft n with
  | nil => exact absurd htext hne
  | cons x s =>
    rw [htext] at hat hplain hlen hpost
    obtain ⟨hx0, hxs, hx⟩ := hplain x List.mem_cons_self
    have h58 : ¬(Hex.isSpace x ∨ x = 58) := by
      rintro (hsp | rfl)
      · rw [hxs] at hsp
        cases hsp
      · exact hx (by decide)
    have h91 : x ≠ 91 := fun h => hx (by rw [h]; decide)
    have h34 : x ≠ 34 := fun h => hx (by rw [h]; decide)
    rw [List.length_cons] at hlen
    refine Reads.next hat hx0 (fun d' w => ?_) fun d' hd' =>
      Reads.token hc s [x] d' hd' (fun y hy => hplain y (List.mem_cons_of_mem _ hy)) ?_ hpost
    · rw [objStep]
      dsimp only
      rw [if_neg h58, if_neg h91, if_neg htype, if_neg h34]
      exact ⟨_, rfl⟩
    · show 1 + s.length ≤ 512
      omega

/-- An array of numbers for an attribute with one. -/
lemma Reads.numbers {elem : Elem} {store max : Nat} {count : Option Nat}
    (hattr : cursor.attr = attrOf base a) (htarget : a.target = .array elem store max count)
    {ns : List Number} {maxlen : Int} (hns : ns ≠ []) (hlen : ∀ n ∈ ns, (numberText ft n).length ≤ 63)
    (hc : c = 44 ∨ c = 125) (hat : d.At (valueText ft (.array ns) ++ c :: rest))
    (hgo : if (readFound ft hft a (above base m) (.array ns)).1 = 0 then
        Goes ft attrs c rest (putAbove base m (readFound ft hft a (above base m) (.array ns)).2) rc m''
      else rc = (readFound ft hft a (above base m) (.array ns)).1 ∧
        m'' = putAbove base m (readFound ft hft a (above base m) (.array ns)).2) :
    Reads ft attrs ⟨.awaitValue cursor, maxlen⟩ d m rc m'' := by
  obtain ⟨name, target, dflt⟩ := a
  cases htarget
  have htype : cursor.attr.type = .array := by
    rw [hattr]
    rfl
  have harray : cursor.attr.array = arrayOf base elem store max count := by
    rw [hattr]
    rfl
  have hopen : d.At (91 :: (commaText (ns.map (numberText ft)) ++ 93 :: c :: rest)) := by
    simpa [valueText] using hat
  have hinside : Decoder.At { d with pos := d.pos + 1 }
      (commaText (ns.map (numberText ft)) ++ 93 :: c :: rest) := @Decoder.At.advance _ [91] _ hopen
  have harr : ∀ w, ∃ fuel s', jsonReadArray ft cursor.attr fuel ⟨d, m, w⟩ =
        some ((arrayFrom ft hft elem store max count 0 (above base m) ns).1, s') ∧
      s'.mem = putAbove base m (arrayFrom ft hft elem store max count 0 (above base m) ns).2 ∧
      ((arrayFrom ft hft elem store max count 0 (above base m) ns).1 = 0 → s'.dec.At (c :: rest)) := by
    intro w
    obtain ⟨fuel, rc', s', hrun, rfl, hmem, hat'⟩ := arrLoop_at hft harray ns 0
      cursor.attr.array.store { d with pos := d.pos + 1 } m w hns hlen hinside
    refine ⟨fuel + 1, s', ?_, hmem, hat'⟩
    obtain ⟨x, s, hx, hfirst⟩ : ∃ x s, Plain x ∧
        commaText (ns.map (numberText ft)) ++ 93 :: c :: rest = x :: s := by
      cases ns with
      | nil => exact absurd rfl hns
      | cons n ns =>
        obtain ⟨hne, hplain⟩ := numberText_plain hft n
        cases htext : numberText ft n with
        | nil => exact absurd htext hne
        | cons x s =>
          exact ⟨x, _, hplain x (htext ▸ List.mem_cons_self), by rw [List.map_cons, htext]; rfl⟩
    rw [hfirst] at hinside
    rw [jsonReadArray, hopen.skip (by decide), hopen.next]
    dsimp only
    rw [if_pos rfl, hinside.skip hx.2.1, hinside.peek]
    dsimp only
    rw [if_neg fun h => hx.2.2 (by rw [h]; decide)]
    exact hrun
  have hstep : ∀ d' w, objStep ft attrs none 0 91 ⟨.awaitValue cursor, maxlen⟩ ⟨d', m, w⟩ =
      .array cursor.attr maxlen ⟨(jsonReadPrev d').2, m, w⟩ := by
    intro d' w
    rw [objStep]
    dsimp only
    rw [if_neg (by decide), if_pos rfl, if_pos htype]
  refine Reads.array hopen (by decide) hstep harr ?_
  split
  case isTrue h0 =>
    intro d' hd'
    exact Reads.after hd' hc (fun d'' w => ⟨w, rfl⟩) ((if_pos h0).mp hgo)
  case isFalse h0 => exact (if_neg h0).mp hgo

/-- A value for an attribute. -/
lemma Reads.value (hbase : 0 < base) (hattr : cursor.attr = attrOf base a)
    (hstay : ∀ b ∈ cursor.rest.head?, b.name ≠ cursor.attrbuf) {v : Value} {maxlen : Int}
    (hv : match v with
      | .num n => (numberText ft n).length ≤ 63
      | .array ns => ns ≠ [] ∧ ∀ n ∈ ns, (numberText ft n).length ≤ 63)
    (hc : c = 44 ∨ c = 125) (hat : d.At (valueText ft v ++ c :: rest))
    (hgo : if (readFound ft hft a (above base m) v).1 = 0 then
        Goes ft attrs c rest (putAbove base m (readFound ft hft a (above base m) v).2) rc m''
      else rc = (readFound ft hft a (above base m) v).1 ∧
        m'' = putAbove base m (readFound ft hft a (above base m) v).2) :
    Reads ft attrs ⟨.awaitValue cursor, maxlen⟩ d m rc m'' := by
  obtain ⟨name, target, dflt⟩ := a
  cases v with
  | num n =>
    cases target with
    | uinteger addr => exact Reads.number hft hbase hattr hstay (fun _ _ _ _ h => by cases h) hv hc hat hgo
    | real addr => exact Reads.number hft hbase hattr hstay (fun _ _ _ _ h => by cases h) hv hc hat hgo
    | array elem store max count =>
      obtain ⟨rfl, rfl⟩ : rc = jsonErrNobrak ∧ m'' = putAbove base m (above base m) := hgo
      obtain ⟨hne, hplain⟩ := numberText_plain hft n
      have htext : valueText ft (.num n) = numberText ft n := rfl
      have htype : cursor.attr.type = .array := by
        rw [hattr]
        rfl
      rw [htext] at hat
      cases hs : numberText ft n with
      | nil => exact absurd hs hne
      | cons x s =>
        rw [hs] at hat hplain
        obtain ⟨hx0, hxs, hx⟩ := hplain x List.mem_cons_self
        have h58 : ¬(Hex.isSpace x ∨ x = 58) := by
          rintro (hsp | rfl)
          · rw [hxs] at hsp
            cases hsp
          · exact hx (by decide)
        have h91 : x ≠ 91 := fun h => hx (by rw [h]; decide)
        refine Reads.ret hat hx0 fun d' w => ⟨⟨d', m, w⟩, ?_, putAbove_above.symm⟩
        rw [objStep]
        dsimp only
        rw [if_neg h58, if_neg h91, if_pos htype]
  | array ns =>
    have hopen : d.At (91 :: (commaText (ns.map (numberText ft)) ++ 93 :: c :: rest)) := by
      simpa [valueText] using hat
    have hno : ∀ t : JsonType, cursor.attr.type = t → t ≠ .array →
        Reads ft attrs ⟨.awaitValue cursor, maxlen⟩ d m jsonErrNoarray m := by
      intro t ht hne
      refine Reads.ret hopen (by decide) fun d' w => ⟨⟨d', m, w⟩, ?_, rfl⟩
      rw [objStep]
      dsimp only
      rw [if_neg (by decide), if_pos rfl, if_neg (ht ▸ hne)]
    cases target with
    | uinteger addr =>
      obtain ⟨rfl, rfl⟩ : rc = jsonErrNoarray ∧ m'' = putAbove base m (above base m) := hgo
      rw [putAbove_above]
      exact hno .uinteger (by rw [hattr]; rfl) (by decide)
    | real addr =>
      obtain ⟨rfl, rfl⟩ : rc = jsonErrNoarray ∧ m'' = putAbove base m (above base m) := hgo
      rw [putAbove_above]
      exact hno .real (by rw [hattr]; rfl) (by decide)
    | array elem store max count => exact Reads.numbers hft hattr rfl hv.1 hv.2 hc hat hgo

end Value

end Loop

end UwbCore.Json.Text
