import UwbCore.Json.Render

/-!
# The commas of the encoder

A value that can be written is written as a JSON text of it exactly if no array in it has two elements
with entries (`jsonEncodeValue_text_iff`). Else the first entry of the second of these elements begins
with a comma, and all texts of a value have as many commas.
-/

namespace UwbCore.Json.Text
open UwbCore.Lib

mutual

/-- There is an entry somewhere in the value. -/
def JsonValue.hasEntry : JsonValue → Bool
  | .array values => anyEntry values
  | .object entries => !entries.isEmpty
  | .bool _ | .uint64 _ | .int64 _ | .float64 _ | .string _ | .other _ => false

/-- There is an entry somewhere in the values. -/
def anyEntry : List JsonValue → Bool
  | [] => false
  | v :: values => v.hasEntry || anyEntry values

end

mutual

/-- The types are known, and no array has two elements with entries in them. -/
def JsonValue.Proper : JsonValue → Prop
  | .array values => values.countP JsonValue.hasEntry ≤ 1 ∧ properElements values
  | .object entries => properEntries entries
  | .other _ => False
  | .bool _ | .uint64 _ | .int64 _ | .float64 _ | .string _ => True

/-- The elements are proper. -/
def properElements : List JsonValue → Prop
  | [] => True
  | v :: values => v.Proper ∧ properElements values

/-- The values of the entries are proper. -/
def properEntries : List (List UInt8 × JsonValue) → Prop
  | [] => True
  | (_, v) :: entries => v.Proper ∧ properEntries entries

end

/-! ## What is written -/

/-- What a writer does after the text `t`: under a condition it adds some text and returns 0, and else it
    returns an error or adds more commas than that. -/
structure Adds (t text : List UInt8) (commas : Bool) (ok : Prop) (r : Int × Encoder) : Prop where
  closed : JsonText.Closed text
  exact : ok → r = (0, ⟨t ++ text, commas⟩)
  more : ¬ok → r.1 = 0 → ∃ u, r.2 = ⟨t ++ u, commas⟩ ∧ JsonText.Closed u ∧
    JsonText.commas .outside text < JsonText.commas .outside u

/-- Whether the elements are written as they should be, if `je_wr_commas` is `c` before them. -/
def Fine (c : Bool) (values : List JsonValue) : Prop :=
  properElements values ∧ values.countP JsonValue.hasEntry + c.toNat ≤ 1

section
variable {ft : FloatText} {num : BitVec 64 → ℚ} {t text text' : List UInt8} {c c' : Bool} {ok ok' : Prop}
  {r : Int × Encoder}

/-- The same in other words. -/
lemma Adds.congr (h : Adds t text c ok r) (htext : text' = text) (hc : c' = c) (hok : ok' ↔ ok) :
    Adds t text' c' ok' r := by
  subst htext hc
  exact ⟨h.closed, fun h' => h.exact (hok.mp h'), fun h' => h.more (mt hok.mpr h')⟩

/-- The text before belongs to what is added. -/
lemma Adds.shift {s : List UInt8} (hs : JsonText.Closed s) (h : Adds (t ++ s) text c ok r) :
    Adds t (s ++ text) c ok r := by
  refine ⟨hs.append h.closed, fun hok => ?_, fun hok hrc => ?_⟩
  · rw [h.exact hok, List.append_assoc]
  · obtain ⟨u, hr, hu, hlt⟩ := h.more hok hrc
    refine ⟨s ++ u, by rw [hr, List.append_assoc], hs.append hu, ?_⟩
    rw [hs.commas_append, hs.commas_append]
    omega

/-- Some bytes are written. -/
lemma Adds.scalar {s : List UInt8} (hs : JsonText.Closed s) :
    Adds t s c True (0, Encoder.write ⟨t, c⟩ s) :=
  ⟨hs, fun _ => rfl, fun h => absurd trivial h⟩

/-- Nothing is written. -/
lemma Adds.nil : Adds t [] c True (0, ⟨t, c⟩) :=
  ⟨rfl, fun _ => by rw [List.append_nil], fun h => absurd trivial h⟩

/-- A comma before the text is one too much. -/
lemma Adds.surplus {b : Bool} (h : Adds t ((if b then [44] else []) ++ text) c ok r)
    (htext : JsonText.Closed text) : Adds t text c (ok ∧ b = false) r := by
  cases b with
  | false => exact h.congr rfl rfl (and_iff_left rfl)
  | true =>
    have hone : JsonText.commas .outside ([44] ++ text) = 1 + JsonText.commas .outside text := rfl
    refine ⟨htext, fun hok => Bool.noConfusion hok.2, fun _ hrc => ?_⟩
    by_cases hok : ok
    · refine ⟨[44] ++ text, by rw [h.exact hok]; rfl, htext, ?_⟩
      rw [hone]
      omega
    · obtain ⟨u, hr, hu, hlt⟩ := h.more hok hrc
      refine ⟨u, hr, hu, Nat.lt_trans ?_ hlt⟩
      show _ < JsonText.commas .outside ([44] ++ text)
      rw [hone]
      omega

/-- One writer after another. -/
lemma Adds.andThen {k : Encoder → Int × Encoder} (h : Adds t text c ok r)
    (hk : ∀ t, Adds t text' c' ok' (k ⟨t, c⟩)) :
    Adds t (text ++ text') c' (ok ∧ ok') (if r.1 = 0 then k r.2 else r) := by
  have hclosed := (hk []).closed
  refine ⟨h.closed.append hclosed, fun hok => ?_, fun hok hrc => ?_⟩
  · rw [h.exact hok.1, if_pos rfl, (hk _).exact hok.2, List.append_assoc]
  · split at hrc
    case isFalse h0 => exact absurd hrc h0
    case isTrue h0 =>
      rw [if_pos h0, h.closed.commas_append]
      by_cases hok1 : ok
      · rw [h.exact hok1] at hrc ⊢
        obtain ⟨u, hr, hu, hlt⟩ := (hk _).more (fun h2 => hok ⟨hok1, h2⟩) hrc
        refine ⟨text ++ u, by rw [hr, List.append_assoc], h.closed.append hu, ?_⟩
        rw [h.closed.commas_append]
        omega
      · obtain ⟨u, hr, hu, hlt⟩ := h.more hok1 h0
        rw [hr] at hrc ⊢
        by_cases hok2 : ok'
        · refine ⟨u ++ text', by rw [(hk _).exact hok2, List.append_assoc], hu.append hclosed, ?_⟩
          rw [hu.commas_append]
          omega
        · obtain ⟨u', hr', hu', hlt'⟩ := (hk _).more hok2 hrc
          refine ⟨u ++ u', by rw [hr', List.append_assoc], hu.append hu', ?_⟩
          rw [hu.commas_append]
          omega

/-- Some element has an entry. -/
lemma anyEntry_eq (values : List JsonValue) :
    anyEntry values = decide (0 < values.countP JsonValue.hasEntry) := by
  induction values with
  | nil => rfl
  | cons v values ih =>
    rw [anyEntry, ih, List.countP_cons]
    cases v.hasEntry with
    | true => simp
    | false => simp

/-- The first element and the others. -/
lemma fine_cons (v : JsonValue) (values : List JsonValue) :
    Fine c (v :: values) ↔ (v.Proper ∧ (c && v.hasEntry) = false) ∧ Fine (c || v.hasEntry) values := by
  rw [Fine, Fine, properElements, List.countP_cons]
  cases c with
  | true => cases v.hasEntry <;> simp [and_assoc]
  | false => cases v.hasEntry <;> simp [and_assoc]

mutual

/-- A value is written as it is exactly if it is proper and does not begin with an entry while a comma is
    due. -/
lemma value_adds (t : List UInt8) (c : Bool) : ∀ v : JsonValue, v.Writable ft num →
    Adds t (render ft v) (c || v.hasEntry) (v.Proper ∧ (c && v.hasEntry) = false)
      (jsonEncodeValue ft ⟨t, c⟩ v)
  | .array values, hv => by
    have hall := (elements_adds (t ++ [91]) c values hv).andThen (k := fun e => (0, e.write [93]))
      fun t => Adds.scalar (s := [93]) rfl
    rw [jsonEncodeValue, render]
    refine (hall.shift (s := [91]) rfl).congr (List.append_assoc _ _ _) rfl ?_
    rw [and_true, JsonValue.Proper, JsonValue.hasEntry, Fine, anyEntry_eq]
    cases c with
    | true =>
      rw [Bool.true_and, decide_eq_false_iff_not, Bool.toNat_true]
      constructor
      · rintro ⟨⟨-, hall⟩, hnone⟩
        exact ⟨hall, by omega⟩
      · rintro ⟨hall, hnone⟩
        exact ⟨⟨by omega, hall⟩, by omega⟩
    | false => simp [and_comm]
  | .object entries, hv => by
    obtain ⟨members, hmembers, hlisted, -⟩ := entries_listed entries hv
    have hclosed : JsonText.Closed (renderEntries ft entries) := (hlisted.closed fun t ht => by
      obtain ⟨m, hm, rfl⟩ := List.mem_map.mp ht
      obtain ⟨hkey, hblank, hvalue⟩ := hmembers m hm
      exact (JsonText.Member.closed hkey hblank hvalue.closed.1).1).1
    have hall := ((entries_adds (t ++ [123]) c entries hv).surplus hclosed).andThen
      (k := fun e => (0, e.write [125])) fun t => Adds.scalar (s := [125]) rfl
    rw [jsonEncodeValue, render]
    refine (hall.shift (s := [123]) rfl).congr (List.append_assoc _ _ _) rfl ?_
    rw [and_true, JsonValue.Proper, JsonValue.hasEntry]
  | .other _, hv => hv.elim
  | .bool u, hv => by
    have hclosed := (render_denotes _ hv).closed.1
    rw [render] at hclosed
    rw [jsonEncodeValue, render]
    exact (Adds.scalar hclosed).congr rfl (Bool.or_false c) (by simp [JsonValue.Proper, JsonValue.hasEntry])
  | .uint64 u, hv => by
    have hclosed := (render_denotes _ hv).closed.1
    rw [render] at hclosed
    rw [jsonEncodeValue, render]
    exact (Adds.scalar hclosed).congr rfl (Bool.or_false c) (by simp [JsonValue.Proper, JsonValue.hasEntry])
  | .int64 u, hv => by
    have hclosed := (render_denotes _ hv).closed.1
    rw [render] at hclosed
    rw [jsonEncodeValue, render]
    exact (Adds.scalar hclosed).congr rfl (Bool.or_false c) (by simp [JsonValue.Proper, JsonValue.hasEntry])
  | .float64 x, hv => by
    have hclosed := (render_denotes _ hv).closed.1
    rw [render] at hclosed
    rw [jsonEncodeValue, render]
    exact (Adds.scalar hclosed).congr rfl (Bool.or_false c) (by simp [JsonValue.Proper, JsonValue.hasEntry])
  | .string str, hv => by
    have hclosed := (render_denotes _ hv).closed.1
    rw [render] at hclosed
    rw [jsonEncodeValue, render]
    exact (Adds.scalar hclosed).congr rfl (Bool.or_false c) (by simp [JsonValue.Proper, JsonValue.hasEntry])

/-- The elements of an array. -/
lemma elements_adds (t : List UInt8) (c : Bool) : ∀ values : List JsonValue,
    writableElements ft num values → Adds t (renderElements ft values) (c || anyEntry values)
      (Fine c values) (encodeElements ft ⟨t, c⟩ values)
  | [], _ => by
    rw [encodeElements, renderElements]
    exact Adds.nil.congr rfl (Bool.or_false c) (by cases c <;> simp [Fine, properElements])
  | v :: values, hv => by
    have hrest : ∀ t, Adds t ((if values.isEmpty then [] else [44]) ++ renderElements ft values)
        (c || v.hasEntry || anyEntry values) (Fine (c || v.hasEntry) values)
        (encodeElements ft (if values.isEmpty then ⟨t, c || v.hasEntry⟩ else
          Encoder.write ⟨t, c || v.hasEntry⟩ [44]) values) := by
      intro t
      split
      case isTrue => exact elements_adds t _ values hv.2
      case isFalse => exact (elements_adds (t ++ [44]) _ values hv.2).shift (s := [44]) rfl
    rw [encodeElements, renderElements, anyEntry]
    exact ((value_adds t c v hv.1).andThen
      (k := fun e => encodeElements ft (if values.isEmpty then e else e.write [44]) values) hrest).congr
      (List.append_assoc _ _ _) (Bool.or_assoc _ _ _).symm (fine_cons v values)

/-- The entries, the first of which brings the comma that is due. -/
lemma entries_adds (t : List UInt8) (c : Bool) : ∀ entries : List (List UInt8 × JsonValue),
    writableEntries ft num entries →
      Adds t ((if c && !entries.isEmpty then [44] else []) ++ renderEntries ft entries)
        (c || !entries.isEmpty) (properEntries entries) (encodeEntries ft ⟨t, c⟩ entries)
  | [], _ => by
    rw [encodeEntries, renderEntries]
    refine Adds.nil.congr ?_ (Bool.or_false c) Iff.rfl
    rw [List.isEmpty_nil, Bool.not_true, Bool.and_false]
    rfl
  | (key, v) :: entries, hv => by
    have hkey : JsonText.Closed (keyText key) := by
      have hquoted := (JsonText.chars_of_plain hv.1).inner.quoted.1
      have hcolon : JsonText.Closed [58, 32] := rfl
      simpa [keyText] using hquoted.append hcolon
    have hdue : JsonText.Closed ((if c then [44] else []) ++ keyText key) := by
      cases c with
      | true => exact hkey
      | false => exact hkey
    have hcomma : Encoder.write (Encoder.comma ⟨t, c⟩) (keyText key) =
        ⟨t ++ ((if c then [44] else []) ++ keyText key), false⟩ := by
      cases c with
      | true => rw [Encoder.comma, if_pos rfl, Encoder.write, List.append_assoc]; rfl
      | false => rfl
    have hrest : ∀ t, Adds t ((if entries.isEmpty then [] else [44]) ++ renderEntries ft entries) true
        (properEntries entries) (encodeEntries ft ⟨t, true⟩ entries) := by
      intro t
      refine (entries_adds t true entries hv.2.2).congr ?_ rfl Iff.rfl
      cases entries.isEmpty <;> rfl
    have hall := (value_adds (t ++ ((if c then [44] else []) ++ keyText key)) false v hv.2.1).andThen
      (k := fun e => encodeEntries ft { e with wrCommas := true } entries) hrest
    rw [encodeEntries, renderEntries, hcomma]
    refine (hall.shift hdue).congr ?_ (by simp) ?_
    · simp [List.append_assoc]
    · simp [properEntries]

end

/-- A value that can be written is written as a JSON text of it exactly if no array in it has two elements
    with entries. -/
theorem jsonEncodeValue_text_iff {v : JsonValue} (hv : v.Writable ft num) (t : List UInt8) :
    (∃ text commas, jsonEncodeValue ft ⟨t, false⟩ v = (0, ⟨t ++ text, commas⟩) ∧
      JsonText.Denotes text (v.meaning num)) ↔ v.Proper := by
  have h := value_adds t false v hv
  rw [Bool.false_and, eq_self, and_true] at h
  constructor
  · rintro ⟨text, commas, hrun, hdenotes⟩
    by_contra hproper
    obtain ⟨u, hr, -, hlt⟩ := h.more hproper (by rw [hrun])
    rw [hrun] at hr
    have hu : u = text := (List.append_cancel_left (congrArg Encoder.text hr)).symm
    rw [hu, (render_denotes v hv).commas_eq hdenotes] at hlt
    exact absurd hlt (Nat.lt_irrefl _)
  · intro hproper
    exact ⟨_, _, h.exact hproper, render_denotes v hv⟩

end

/-- A node with its name, its range and the addresses of two others. -/
def nodeValue : JsonValue :=
  .object [(ascii "name", .string (ascii "a/b")), (ascii "raz", .float64 (ofWhole 70)),
    (ascii "peers", .array [.uint64 1, .int64 (-2)])]

/-- Such a node is written as JSON. -/
theorem jsonEncodeValue_nodeValue :
    (∃ text commas, jsonEncodeValue wholeText ⟨[], false⟩ nodeValue = (0, ⟨[] ++ text, commas⟩) ∧
      JsonText.Denotes text (nodeValue.meaning fun x => wholeOf x)) ↔ nodeValue.Proper := by
  have hprint : wholeText.print (ofWhole 70) = [55, 48] ++ (46 :: [48, 48, 48]) ++ [] := by decide +kernel
  have hnum : ((wholeOf (ofWhole 70) : ℕ) : ℚ) =
      Decimal.ofDigits 10 ([55, 48] ++ [48, 48, 48]) *
        (10 : ℚ) ^ ((0 : ℤ) - ([48, 48, 48] : List UInt8).length) := by
    have hwhole : wholeOf (ofWhole 70) = 70 := by decide +kernel
    have hdigits : Decimal.ofDigits 10 ([55, 48] ++ [48, 48, 48]) = 70000 := by decide
    rw [hwhole, hdigits]
    norm_num
  have hall : ∀ (P : UInt8 → Prop) [DecidablePred P] (s : List UInt8),
      s.all (fun c => decide (P c)) = true → ∀ c ∈ s, P c :=
    fun P _ s h c hc => of_decide_eq_true (List.all_eq_true.mp h c hc)
  have hdigits : ∀ s : List UInt8, s ≠ [] → s.all (fun c => decide (48 ≤ c ∧ c ≤ 57)) = true →
      JsonText.Digits s := fun s hne h => ⟨hne, hall _ s h⟩
  have hnumeral : JsonText.Numeral (wholeText.print (ofWhole 70)) (wholeOf (ofWhole 70) : ℕ) := by
    rw [hprint, hnum]
    have hwhole : JsonText.Whole [55, 48] := ⟨hdigits _ (by decide) (by decide), by decide⟩
    exact .plain (.mk hwhole (.some (hdigits _ (by decide) (by decide))) .none)
  have hkey : ∀ key : List UInt8, key.all (fun c => decide (32 ≤ c ∧ c ≠ 34 ∧ c ≠ 92)) = true →
      ∀ c ∈ key, 32 ≤ c ∧ c ≠ 34 ∧ c ≠ 92 := fun key h => hall _ key h
  have hv : nodeValue.Writable wholeText fun x => wholeOf x :=
    ⟨hkey _ (by decide), fun c hc => .inl (hkey _ (by decide) c hc).1, hkey _ (by decide),
      fun _ => ⟨hnumeral, by decide +kernel⟩, hkey _ (by decide),
      ⟨trivial, trivial, trivial⟩, trivial⟩
  exact jsonEncodeValue_text_iff hv []

/-- A comma too much. -/
example (ft : FloatText) : (jsonEncodeValue ft ⟨[], false⟩
    (.array [.object [(ascii "a", .uint64 1)], .object [(ascii "b", .uint64 2)]])).2.text =
      ascii "[\x7b\"a\": 1\x7d,\x7b,\"b\": 2\x7d]" := rfl

end UwbCore.Json.Text
