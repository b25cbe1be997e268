import UwbCore.Json.Attributes

/-!
# Lines as text

A line of attributes is read from its text as `jsonReadObject` of the lines reads it from the attributes:
with the same error code and the same memory (`readText_refines`). This is for the tables and the lines
whose names are short and of plain characters, whose arrays have elements and whose numbers fit the buffer
of the writer.
-/

namespace UwbCore.Json.Text
open UwbCore.Lib

/-! ## Lines -/

/-- A name that the buffer for names holds, of bytes that are no quote. -/
def Name (s : String) : Prop :=
  s.toList.length ≤ 30 ∧ ∀ x ∈ s.toList, x.toNat < 256 ∧ x.toNat ≠ 0 ∧ x.toNat ≠ 34

instance decidableName (s : String) : Decidable (Name s) :=
  @instDecidableAnd _ _ _ (List.decidableBAll _ _)

/-- The bytes of a name. -/
lemma Name.chars {s : String} (h : Name s) : ∀ x ∈ ascii s, x ≠ 0 ∧ x ≠ 34 := by
  intro x hx
  obtain ⟨y, hy, rfl⟩ := List.mem_map.mp hx
  obtain ⟨hlt, h0, h34⟩ := h.2 y hy
  rw [Ne, Ne, ← UInt8.toNat_inj, ← UInt8.toNat_inj, UInt8.toNat_ofNat', Nat.mod_eq_of_lt hlt]
  exact ⟨h0, h34⟩

/-- A name fits its buffer. -/
lemma Name.short {s : String} (h : Name s) : ([] : List UInt8).length + (ascii s).length ≤ 30 := by
  rw [ascii, List.length_map, List.length_nil, Nat.zero_add]
  exact h.1

/-- A table of names of this kind that are all different. -/
structure Table (attrs : List Json.Attr) : Prop where
  names : ∀ a ∈ attrs, Name a.name
  nodup : (attrs.map (·.name)).Nodup

instance decidableTable (attrs : List Json.Attr) : Decidable (Table attrs) :=
  decidable_of_iff ((∀ a ∈ attrs, Name a.name) ∧ (attrs.map (·.name)).Nodup)
    ⟨fun h => ⟨h.1, h.2⟩, fun h => ⟨h.names, h.nodup⟩⟩

/-- An attribute whose text the reader can take: an array has elements, and the buffer of the encoder holds
    the numbers. -/
def Printable (ft : FloatText) (e : String × Value) : Prop :=
  Name e.1 ∧ match e.2 with
    | .num n => (numberText ft n).length ≤ 63
    | .array ns => ns ≠ [] ∧ ∀ n ∈ ns, (numberText ft n).length ≤ 63

/-- Lists with the same images, where the images tell their elements apart. -/
lemma map_eq_of_mem {α β : Type} {f : α → β} {s t : List α} (h : ∀ x ∈ s, ∀ y ∈ t, f x = f y → x = y)
    (hmap : s.map f = t.map f) : s = t := by
  induction s generalizing t with
  | nil => exact (List.map_eq_nil_iff.mp hmap.symm).symm
  | cons x s ih =>
    cases t with
    | nil => cases hmap
    | cons y t =>
      obtain ⟨hxy, hst⟩ := List.cons.inj hmap
      rw [h x List.mem_cons_self y List.mem_cons_self hxy,
        ih (fun x hx y hy => h x (List.mem_cons_of_mem _ hx) y (List.mem_cons_of_mem _ hy)) hst]

/-- Names with the same bytes are the same. -/
lemma ascii_injective {s t : String} (hs : Name s) (ht : Name t) (h : ascii s = ascii t) : s = t := by
  apply String.toList_inj.mp
  refine map_eq_of_mem (fun x hx y hy hxy => ?_) h
  have hval := congrArg UInt8.toNat hxy
  rw [UInt8.toNat_ofNat', UInt8.toNat_ofNat', Nat.mod_eq_of_lt (hs.2 x hx).1,
    Nat.mod_eq_of_lt (ht.2 y hy).1] at hval
  exact Char.toNat_inj.mp hval

/-- The name stays. -/
lemma attrOf_name (base : Nat) (a : Json.Attr) : (attrOf base a).name = ascii a.name := by
  obtain ⟨name, target, dflt⟩ := a
  cases target <;> rfl

/-- The reader finds the attribute of the table, and the next has another name. -/
lemma findAttr_attrOf (base : Nat) {T : List Json.Attr} (hT : Table T) {name : String}
    (hname : Name name) :
    match T.find? (fun a => a.name == name) with
      | none => findAttr (ascii name) (T.map (attrOf base)) = none
      | some a => ∃ cursor, findAttr (ascii name) (T.map (attrOf base)) = some cursor ∧
          cursor.attr = attrOf base a ∧ ∀ b ∈ cursor.rest.head?, b.name ≠ cursor.attrbuf := by
  induction T with
  | nil => rfl
  | cons a T ih =>
    have hnd := List.nodup_cons.mp hT.nodup
    rw [List.map_cons, findAttr, attrOf_name]
    by_cases ha : a.name = name
    · rw [List.find?_cons_of_pos (by rw [ha]; exact beq_self_eq_true name), if_pos (by rw [ha])]
      refine ⟨_, rfl, rfl, fun b hb => ?_⟩
      dsimp only at hb ⊢
      obtain ⟨a', ha', rfl⟩ := List.mem_map.mp (List.mem_of_mem_head? hb)
      rw [attrOf_name]
      intro heq
      have hsame := ascii_injective (hT.names a' (List.mem_cons_of_mem _ ha')) hname heq
      exact hnd.1 (List.mem_map.mpr ⟨a', ha', hsame.trans ha.symm⟩)
    · have hne : ascii a.name ≠ ascii name := fun h =>
        ha (ascii_injective (hT.names a List.mem_cons_self) hname h)
      rw [List.find?_cons_of_neg (by simpa using ha), if_neg hne]
      exact ih ⟨fun a ha => hT.names a (List.mem_cons_of_mem _ ha), hnd.2⟩

section Line
variable {ft : FloatText} {base : Nat} (hft : ft.Lawful) {T : List Json.Attr}

/-- What the lines make of an attribute that is found. -/
lemma readAttr_found {a : Json.Attr} {e : String × Value} {m : Mem}
    (h : T.find? (fun a => a.name == e.1) = some a) :
    readAttr (conv ft hft) T m e = readFound ft hft a m e.2 := by
  obtain ⟨name, v⟩ := e
  obtain ⟨aname, target, dflt⟩ := a
  rw [readAttr, h]
  cases v with
  | num n => cases target <;> rfl
  | array ns => cases target <;> rfl

/-- The attributes of a line from one of them on. -/
lemma Reads.line (hbase : 0 < base) (hT : Table T) (line : Line) :
    ∀ (d : Decoder) (m : Mem) (maxlen : Int), line ≠ [] → (∀ e ∈ line, Printable ft e) →
      d.At (commaText (line.map (attrText ft)) ++ [125]) →
      Reads ft (T.map (attrOf base)) ⟨.awaitAttr, maxlen⟩ d m
        (readLine (conv ft hft) T (above base m) line).1
        (putAbove base m (readLine (conv ft hft) T (above base m) line).2) := by
  induction line with
  | nil => exact fun _ _ _ h => absurd rfl h
  | cons e line ih =>
    intro d m maxlen _ hline hat
    obtain ⟨hname, hvalue⟩ := hline e List.mem_cons_self
    -- the character behind the attribute, and what is behind it
    obtain ⟨c, rest, hc, htext, hcomma, hbrace⟩ : ∃ c rest, (c = 44 ∨ c = 125) ∧
        commaText ((e :: line).map (attrText ft)) ++ [125] = attrText ft e ++ c :: rest ∧
        (c = 44 → line ≠ [] ∧ rest = commaText (line.map (attrText ft)) ++ [125]) ∧
        (c = 125 → line = []) := by
      cases line with
      | nil => exact ⟨125, [], .inr rfl, by simp [commaText], fun h => absurd h (by decide), fun _ => rfl⟩
      | cons e' line =>
        exact ⟨44, _, .inl rfl, by simp [commaText], fun _ => ⟨List.cons_ne_nil _ _, rfl⟩,
          fun h => absurd h (by decide)⟩
    have hopen : d.At (34 :: (ascii e.1 ++ 34 :: 58 :: 32 :: (valueText ft e.2 ++ c :: rest))) := by
      rw [htext] at hat
      simpa [attrText, keyText] using hat
    refine Reads.next hopen (by decide) (fun d' w => ⟨w, rfl⟩) fun d1 hd1 =>
      Reads.name (ascii e.1) [] d1 hd1 hname.chars hname.short ?_
    have hfind := findAttr_attrOf base hT hname
    rw [List.nil_append]
    cases hT' : T.find? (fun a => a.name == e.1) with
    | none =>
      rw [hT'] at hfind
      rw [hfind]
      have hattr : readAttr (conv ft hft) T (above base m) e = (Json.jsonErrBadattr, above base m) := by
        rw [readAttr, hT']
      rw [readLine, hattr]
      exact ⟨rfl, putAbove_above⟩
    | some a =>
      rw [hT'] at hfind
      obtain ⟨cursor, hcur, hattr, hstay⟩ := hfind
      rw [hcur]
      intro d2 hd2
      -- the colon and the space
      refine Reads.next hd2 (by decide) (fun d' w => ⟨w, rfl⟩) fun d3 hd3 =>
        Reads.next hd3 (by decide) (fun d' w => ⟨w, rfl⟩) fun d4 hd4 =>
          Reads.value hft hbase hattr hstay hvalue hc hd4 ?_
      rw [readLine, readAttr_found hft hT']
      dsimp only
      split
      case isFalse h0 => exact ⟨rfl, rfl⟩
      case isTrue h0 =>
        refine ⟨fun h44 d' maxlen' hd' => ?_, fun h125 => ?_⟩
        · obtain ⟨hne, hrest⟩ := hcomma h44
          rw [hrest] at hd'
          have hih := ih d' (putAbove base m (readFound ft hft a (above base m) e.2).2) maxlen' hne
            (fun e he => hline e (List.mem_cons_of_mem _ he)) hd'
          rwa [above_putAbove, putAbove_putAbove] at hih
        · rw [hbrace h125, readLine]
          exact ⟨rfl, rfl⟩

/-- The defaults of the table. -/
lemma stuff_attrOf (hbase : 0 < base) (T : List Json.Attr) (m : Mem) :
    stuff none 0 m (T.map (attrOf base)) = (0, putAbove base m (Json.stuff (above base m) T)) := by
  induction T generalizing m with
  | nil => rw [List.map_nil, stuff, Json.stuff, List.foldl_nil, putAbove_above]
  | cons a T ih =>
    have hne : ∀ addr, ¬(base + addr = 0) := fun addr h => by omega
    obtain ⟨name, target, dflt⟩ := a
    have hone : ∃ k, stuffAttr none 0 m (attrOf base ⟨name, target, dflt⟩) = some (putAbove base m k) ∧
        Json.stuff (above base m) (⟨name, target, dflt⟩ :: T) = Json.stuff k T := by
      cases target with
      | uinteger addr =>
        cases dflt with
        | none => exact ⟨above base m, congrArg some putAbove_above.symm, rfl⟩
        | some v =>
          refine ⟨(above base m).store64 addr v, ?_, rfl⟩
          rw [← store64_eq_putAbove]
          exact if_neg (show ¬((some v).isNone = true ∨ base + addr = 0) from
            fun h => h.elim Bool.noConfusion (hne addr))
      | real addr =>
        cases dflt with
        | none => exact ⟨above base m, congrArg some putAbove_above.symm, rfl⟩
        | some v =>
          refine ⟨(above base m).store64 addr v, ?_, rfl⟩
          rw [← store64_eq_putAbove]
          exact if_neg (show ¬((some v).isNone = true ∨ base + addr = 0) from
            fun h => h.elim Bool.noConfusion (hne addr))
      | array elem store maxlen count =>
        refine ⟨above base m, ?_, by cases dflt <;> rfl⟩
        rw [putAbove_above]
        exact if_pos (.inr rfl)
    obtain ⟨k, hk, hline⟩ := hone
    rw [List.map_cons, stuff, hk]
    dsimp only
    rw [ih, above_putAbove, putAbove_putAbove, hline]

end Line

/-- The text of a line is read as the line is: with the same error code, and the same memory above the
    address of the structure, while the memory below it stays. -/
theorem readText_refines {ft : FloatText} (hft : ft.Lawful) {base : Nat} (hbase : 0 < base)
    {T : List Json.Attr} (hT : Table T) {line : Line} (hline : ∀ e ∈ line, Printable ft e) (m : Mem)
    {text : List UInt8} (htext : text = (encodeLine ft ⟨[], false⟩ line).text) :
    ∃ s, jsonReadObject ft (3 * text.length + 1) (T.map (attrOf base)) m text =
        some ((Json.jsonReadObject (conv ft hft) T (above base m) line).1, s) ∧
      s.mem = putAbove base m (Json.jsonReadObject (conv ft hft) T (above base m) line).2 := by
  rw [encodeLine_text] at htext
  have hstart : Decoder.At (.init text) (123 :: (commaText (line.map (attrText ft)) ++ [125])) := by
    refine ⟨?_, Nat.zero_le _⟩
    rw [htext, lineText]
    simp [Decoder.init]
  have hreads : Reads ft (T.map (attrOf base)) ⟨.init, 0⟩ (.init text)
      (putAbove base m (Json.stuff (above base m) T))
      (Json.jsonReadObject (conv ft hft) T (above base m) line).1
      (putAbove base m (Json.jsonReadObject (conv ft hft) T (above base m) line).2) := by
    refine Reads.next hstart (by decide) (fun d' w => ⟨w, rfl⟩) fun d hd => ?_
    cases line with
    | nil =>
      refine Reads.next hd (by decide) (fun d' w => ⟨w, rfl⟩) fun d' hd' w =>
        ⟨1, ⟨(jsonReadNext d').2, _, w⟩, ?_, rfl⟩
      rw [objLoop, if_pos hd'.stop]
      rfl
    | cons e line =>
      have h := Reads.line hft hbase hT (e :: line) d
        (putAbove base m (Json.stuff (above base m) T)) 0 (List.cons_ne_nil _ _) hline hd
      rwa [above_putAbove, putAbove_putAbove] at h
  obtain ⟨s, hrun, hmem⟩ := hreads.enough
  refine ⟨s, ?_, hmem⟩
  rw [jsonReadObject, stuff_attrOf hbase]
  exact (if_pos rfl).trans hrun

/-! ## A table and a line -/

/-- The characters of a number that is printed. -/
lemma mem_wholeText {x : BitVec 64} {c : UInt8} (hc : c ∈ wholeText.print x) :
    Plain c ∧ isNumeral c = true := by
  rcases List.mem_append.mp hc with hc | hc
  · obtain ⟨d, hd, rfl⟩ := Decimal.mem_decimal hc
    have hall : ∀ d : Fin 10, Plain (Hex.digit d) ∧ isNumeral (Hex.digit d) = true := by decide
    exact hall ⟨d, hd⟩
  · have hpoint : c = 46 ∨ c = 48 := by simpa using hc
    rcases hpoint with rfl | rfl <;> decide

/-- `wholeText` is as the reader relies on. -/
lemma wholeText_lawful : wholeText.Lawful where
  plain x _ := ⟨List.append_ne_nil_of_right_ne_nil _ (by decide), fun _ hc => (mem_wholeText hc).1⟩
  whole x _ :=
    congrArg List.length (List.takeWhile_eq_self_iff.mpr fun _ hc => (mem_wholeText hc).2)
  stops s rest h := by
    have hstop : (s ++ rest).takeWhile isNumeral = s.takeWhile isNumeral := by
      refine Decimal.takeWhile_append_stops fun c hc => ?_
      rcases h c hc with rfl | rfl
      · rfl
      · rfl
    show (ofWhole (Decimal.ofDigits 10 (((s ++ rest).takeWhile isNumeral).takeWhile isDec)),
      ((s ++ rest).takeWhile isNumeral).length) = _
    rw [hstop]
    rfl
  null := by decide

instance decidablePrintable (ft : FloatText) (e : String × Value) : Decidable (Printable ft e) :=
  match e with
  | (_, .num _) => inferInstanceAs (Decidable (_ ∧ _))
  | (_, .array _) => inferInstanceAs (Decidable (_ ∧ _ ∧ _))

/-- A time, a number and up to three ranges. -/
def rangesTable : List Json.Attr :=
  [⟨"utime", .uinteger 0, none⟩, ⟨"seq", .uinteger 8, some 0⟩, ⟨"raz", .array .real 16 3 none, none⟩]

/-- Of the three ranges one is a whole number, one is missing and one is a double. -/
def rangesLine : Line :=
  [("utime", .num (.uint 1234567)), ("raz", .array [.uint 5, .float nan, .float (ofWhole 70)])]

/-- The line in this table, four kilobytes up. -/
theorem readText_ranges : ∃ s,
    jsonReadObject wholeText (3 * (encodeLine wholeText ⟨[], false⟩ rangesLine).text.length + 1)
        (rangesTable.map (attrOf 4096)) (fun _ => 7) (encodeLine wholeText ⟨[], false⟩ rangesLine).text =
      some ((Json.jsonReadObject (conv wholeText wholeText_lawful) rangesTable
        (above 4096 fun _ => 7) rangesLine).1, s) ∧
    s.mem = putAbove 4096 (fun _ => 7) (Json.jsonReadObject (conv wholeText wholeText_lawful)
      rangesTable (above 4096 fun _ => 7) rangesLine).2 :=
  readText_refines wholeText_lawful (by decide) (by decide) (by decide +kernel) _ rfl

end UwbCore.Json.Text
