import UwbCore.Json.Moves

/-!
# The reader comes to its end

On every text and for every table three rounds for each byte of the text are enough. The reader reads nothing
behind the NUL of the text and never leaves its buffer for names; its buffer for values it leaves only where
the text has a backslash (`jsonReadObject_ends`). More rounds than are enough change nothing (`steady`).
-/

namespace UwbCore.Json.Text
open UwbCore.Lib

section Ends
variable {d d' : Decoder} {s s' s'' : St}

/-! ## Elements -/

/-- Bytes that are copied and of which some are given back. -/
lemma readn_onward (size count : Nat) (hpos : d.pos ≤ d.text.length)
    (hcount : count ≤ (jsonReadn d size).1.length) : d.Onward (rewind (jsonReadn d size).2 count) := by
  have hlen : (jsonReadn d size).1.length = min size (d.text.length - d.pos) := by
    rw [jsonReadn, List.length_take, List.length_drop]
  have hmore : (jsonReadn d size).2 = { d with pos := d.pos + min size (d.text.length - d.pos) } := by
    rw [jsonReadn]
    dsimp only
    rw [decide_eq_false (Nat.not_lt_of_le hpos), Bool.or_false]
  have hwithin : d.pos + min size (d.text.length - d.pos) ≤ d.text.length + 1 := by omega
  rw [hmore, rewind_eq count hwithin]
  refine ⟨rfl, Nat.le_trans (Nat.sub_le _ _) hwithin, rfl, ?_⟩
  show d.text.length - (d.pos + min size (d.text.length - d.pos) - count) ≤ d.text.length - d.pos
  omega

/-- A number of an array. -/
lemma readNumber_onward {conv : List UInt8 → BitVec 64 × Nat} (addr : Nat) (hs : s.Sound)
    (hpos : s.dec.pos ≤ s.dec.text.length) : s.Onward (readNumber conv addr s).2 := by
  rw [readNumber]
  dsimp only
  split
  case isTrue => exact (hs.refl.move (readn_onward 63 0 hpos (Nat.zero_le _))).mem _
  case isFalse => exact (hs.refl.move (readn_onward 63 _ hpos (Nat.sub_le _ _))).mem _

/-- A double of an array. -/
lemma readReal_onward (ft : FloatText) (addr : Nat) (hs : s.Sound)
    (hpos : s.dec.pos ≤ s.dec.text.length) : s.Onward (readReal ft addr s).2 := by
  rw [readReal]
  split
  case isTrue => exact readNumber_onward addr hs hpos
  case isFalse => exact readNumber_onward addr hs hpos

/-- A boolean of an array. -/
lemma readBoolean_onward (addr : Nat) (hs : s.Sound) (hpos : s.dec.pos ≤ s.dec.text.length) :
    s.Onward (readBoolean addr s).2 := by
  have hall : ∀ count, count ≤ (jsonReadn s.dec 5).1.length →
      s.Onward { s with dec := rewind (jsonReadn s.dec 5).2 count } := fun count hcount =>
    hs.refl.move (readn_onward 5 count hpos hcount)
  rw [readBoolean]
  split
  case isTrue => exact (hall _ (Nat.sub_le _ _)).mem _
  split
  case isTrue => exact (hall 0 (Nat.zero_le _)).mem _
  case isFalse => exact hall 0 (Nat.zero_le _)

/-- Reading a character and no more. -/
lemma St.Onward.read (h : s.Onward s') : s.Onward { s' with dec := (jsonReadNext s'.dec).2 } :=
  h.move (jsonReadNext_onward h.sound.within)

/-- A string of an array. -/
lemma stringLoop_onward (n tp : Nat) (hs : s.Sound) : s.Onward (stringLoop n tp s).2.2 := by
  induction n generalizing tp s with
  | zero => exact hs.refl
  | succ n ih =>
    rw [stringLoop]
    have hone := hs.refl.read
    have htwo := hone.read
    split
    case isTrue => exact htwo.mem _
    split
    case isTrue => exact hone
    case isFalse => exact (htwo.mem _).trans (ih _ (htwo.mem _).sound)

/-- An element of an array. -/
lemma readElement_onward (ft : FloatText) (arr : ArrayT) (offset tp : Nat) (hs : s.Sound)
    (hpos : s.dec.pos ≤ s.dec.text.length) : s.Onward (readElement ft arr offset tp s).2.2 := by
  rw [readElement]
  split
  case h_1 =>
    have hone := hs.refl.read
    rw [readString]
    split
    case isTrue => exact (hone.mem _).trans (stringLoop_onward _ _ (hone.mem _).sound)
    case isFalse => exact hone
  case h_2 => exact readNumber_onward _ hs hpos
  case h_3 => exact readNumber_onward _ hs hpos
  case h_4 => exact readReal_onward ft _ hs hpos
  case h_5 => exact readBoolean_onward _ hs hpos
  case h_6 => exact hs.refl

/-- Leaving white space behind. -/
lemma St.Onward.skip (h : s.Onward s') : s.Onward { s' with dec := jsonSkipWs s'.dec } ∧
    (jsonSkipWs s'.dec).pos ≤ (jsonSkipWs s'.dec).text.length := by
  obtain ⟨hon, hpos⟩ := jsonSkipWs_onward h.sound.within
  exact ⟨h.move hon, hpos⟩

/-- The count of an array. -/
lemma storeCount_onward (h : s.Onward s') (arr : ArrayT) (n : Nat) : s.Onward (storeCount arr n s') := by
  rw [storeCount]
  split
  case h_1 => exact h.mem _
  case h_2 => exact h

/-! ## The loops -/

/-- With this number of rounds the three loops come to their ends. -/
structure Ends (ft : FloatText) (fuel : Nat) : Prop where
  obj : ∀ attrs parent offset (l : Locals) (s : St), s.Sound → l.state.Fits s.dec.text →
    l.weight s < fuel →
    ∃ rc s', objLoop ft attrs parent offset fuel l s = some (rc, s') ∧ s.Onward s'
  array : ∀ a (s : St), s.Sound → 3 * s.dec.left < fuel + 1 → 0 < s.dec.left →
    ∃ rc s', jsonReadArray ft a fuel s = some (rc, s') ∧ s.Onward s' ∧
      (rc = 0 → s'.dec.left < s.dec.left)
  loop : ∀ a offset tp (s : St), s.Sound → 3 * s.dec.left + 1 < fuel →
    ∃ rc s', arrLoop ft a offset tp fuel s = some (rc, s') ∧ s.Onward s'

/-- The loop of an object ends with one round more. -/
lemma obj_ends {ft : FloatText} {fuel : Nat} (ih : Ends ft fuel) (attrs : List Attr)
    (parent : Option ArrayT) (offset : Nat) (l : Locals) (s : St) (hs : s.Sound)
    (hfits : l.state.Fits s.dec.text) (hfuel : l.weight s < fuel + 1) :
    ∃ rc s', objLoop ft attrs parent offset (fuel + 1) l s = some (rc, s') ∧ s.Onward s' := by
  rw [objLoop]
  by_cases hc : (jsonReadNext s.dec).1 = 0
  · rw [if_pos hc]
    exact ⟨_, _, rfl, hs.refl.read⟩
  · rw [if_neg hc]
    have hgood := objStep_good ft attrs parent offset hs hfits hc
    split
    case h_1 l' s' hstep =>
      rw [hstep] at hgood
      obtain ⟨hon, hfits', hlt⟩ := hgood
      obtain ⟨rc, s'', hrun, hon'⟩ := ih.obj attrs parent offset l' s' hon.sound
        (hon.text ▸ hfits') (by omega)
      exact ⟨rc, s'', hrun, hon.trans hon'⟩
    case h_2 rc s' hstep =>
      rw [hstep] at hgood
      exact ⟨rc, s', rfl, hgood⟩
    case h_3 a maxlen s' hstep =>
      rw [hstep] at hgood
      obtain ⟨hon, hleft⟩ := hgood
      have hweight : 3 * s.dec.left ≤ l.weight s := Nat.le_add_right _ _
      have hle := hon.left
      obtain ⟨rc, s'', hrun, hon', hrc⟩ := ih.array a s' hon.sound (by omega) hleft
      rw [hrun]
      dsimp only
      split
      case isFalse => exact ⟨rc, s'', rfl, hon.trans hon'⟩
      case isTrue h0 =>
        have hlt := hrc h0
        have hnext : Locals.weight ⟨.postArray, maxlen⟩ s'' < fuel := by
          show 3 * s''.dec.left + 0 < fuel
          omega
        obtain ⟨rc', s3, hrun', hon3⟩ := ih.obj attrs parent offset ⟨.postArray, maxlen⟩ s''
          hon'.sound trivial hnext
        exact ⟨rc', s3, hrun', (hon.trans hon').trans hon3⟩

/-- An array ends. -/
lemma array_ends {ft : FloatText} {fuel : Nat} (ih : Ends ft fuel) (a : Attr) (s : St) (hs : s.Sound)
    (hfuel : 3 * s.dec.left < fuel + 2) :
    ∃ rc s', jsonReadArray ft a (fuel + 1) s = some (rc, s') ∧ s.Onward s' ∧
      (rc = 0 → s'.dec.left < s.dec.left) := by
  have hone : s.Onward { s with dec := (jsonReadNext (jsonSkipWs s.dec)).2 } := hs.refl.skip.1.read
  -- the bracket is what makes the array shorter than the text before it
  have hlt : (jsonReadNext (jsonSkipWs s.dec)).1 = 91 →
      (jsonReadNext (jsonSkipWs s.dec)).2.left < s.dec.left := by
    intro hc
    exact (jsonReadNext_lt (by rw [hc]; decide)).trans_le (jsonSkipWs_onward hs.within).1.left
  rw [jsonReadArray]
  dsimp only
  generalize jsonReadNext (jsonSkipWs s.dec) = r at hone hlt ⊢
  split
  case isFalse => exact ⟨_, _, rfl, hone, fun h => absurd h (by decide)⟩
  case isTrue hc =>
    have hskip : s.Onward { s with dec := jsonSkipWs r.2 } := hone.skip.1
    have hws : (jsonSkipWs r.2).left < s.dec.left :=
      (jsonSkipWs_onward hone.sound.within).1.left.trans_lt (hlt hc)
    generalize jsonSkipWs r.2 = d at hskip hws ⊢
    have hd : d.pos ≤ d.text.length + 1 := hskip.sound.within
    have hpeek : s.Onward { s with dec := (jsonPeek d).2 } := hskip.move (jsonPeek_onward hd)
    have hlt' : (jsonPeek d).2.left < s.dec.left := (jsonPeek_onward hd).left.trans_lt hws
    split
    case isTrue =>
      refine ⟨_, _, rfl, storeCount_onward hpeek _ _, fun _ => ?_⟩
      rw [storeCount]
      split <;> exact hlt'
    case isFalse =>
      obtain ⟨rc, s', hrun, hon⟩ := ih.loop a 0 a.array.store _ hpeek.sound
        (show 3 * (jsonPeek d).2.left + 1 < fuel by omega)
      exact ⟨rc, s', hrun, hpeek.trans hon, fun _ => hon.left.trans_lt hlt'⟩

/-- An element and what it leaves of the text. -/
lemma element_ends {ft : FloatText} {fuel : Nat} (ih : Ends ft fuel) (a : Attr) (offset tp : Nat)
    (s : St) (hs : s.Sound) (hpos : s.dec.pos ≤ s.dec.text.length) (hfuel : 3 * s.dec.left < fuel) :
    ∃ rc tp' s', (if a.array.elementType = .object ∨ a.array.elementType = .structobject then
        if (stuff (some a.array) offset s.mem a.subtype).1 = 0 then
          (objLoop ft a.subtype (some a.array) offset fuel ⟨.init, 0⟩
            { s with mem := (stuff (some a.array) offset s.mem a.subtype).2 }).map
            fun r => (r.1, tp, r.2)
        else some ((stuff (some a.array) offset s.mem a.subtype).1, tp,
          { s with mem := (stuff (some a.array) offset s.mem a.subtype).2 })
      else some (readElement ft a.array offset tp s)) = some (rc, tp', s') ∧ s.Onward s' := by
  split
  case isFalse => exact ⟨_, _, _, rfl, readElement_onward ft a.array offset tp hs hpos⟩
  split
  case isFalse => exact ⟨_, _, _, rfl, hs.refl.mem _⟩
  case isTrue =>
    have hmem := hs.refl.mem (stuff (some a.array) offset s.mem a.subtype).2
    obtain ⟨rc, s', hrun, hon⟩ := ih.obj a.subtype (some a.array) offset ⟨.init, 0⟩ _ hmem.sound
      trivial hfuel
    rw [hrun]
    exact ⟨rc, tp, s', rfl, hmem.trans hon⟩

/-- The loop over the elements ends. -/
lemma loop_ends {ft : FloatText} {fuel : Nat} (ih : Ends ft fuel) (a : Attr) (offset tp : Nat) (s : St)
    (hs : s.Sound) (hfuel : 3 * s.dec.left + 1 < fuel + 1) :
    ∃ rc s', arrLoop ft a offset tp (fuel + 1) s = some (rc, s') ∧ s.Onward s' := by
  obtain ⟨hskip, hpos⟩ := hs.refl.skip
  have hsl := (jsonSkipWs_onward hs.within).1.left
  rw [arrLoop]
  split
  case isFalse => exact ⟨_, _, rfl, hs.refl⟩
  case isTrue =>
    have hel := element_ends ih a offset tp _ hskip.sound hpos
      (show 3 * (jsonSkipWs s.dec).left < fuel by omega)
    obtain ⟨rc, tp', s', hrun, hon⟩ := hel
    dsimp only at hrun ⊢
    rw [hrun, afterElement]
    have hall := hskip.trans hon
    split
    case isFalse => exact ⟨rc, s', rfl, hall⟩
    case isTrue =>
      have hnext := hall.skip.1.read
      have hnl : (jsonSkipWs s'.dec).left ≤ s'.dec.left :=
        (jsonSkipWs_onward hall.sound.within).1.left
      have hle := hall.left
      dsimp only
      split
      case isTrue => exact ⟨_, _, rfl, storeCount_onward hnext _ _⟩
      split
      case isFalse => exact ⟨_, _, rfl, hnext⟩
      case isTrue hcomma =>
        have hlt : (jsonReadNext (jsonSkipWs s'.dec)).2.left < (jsonSkipWs s'.dec).left :=
          jsonReadNext_lt (by rw [hcomma]; decide)
        obtain ⟨rc', s'', hrun', hon'⟩ := ih.loop a (offset + 1) tp' _ hnext.sound
          (show 3 * (jsonReadNext (jsonSkipWs s'.dec)).2.left + 1 < fuel by omega)
        exact ⟨rc', s'', hrun', hnext.trans hon'⟩

/-- All three loops end. -/
lemma ends (ft : FloatText) (fuel : Nat) : Ends ft fuel := by
  induction fuel with
  | zero =>
    exact ⟨fun _ _ _ _ _ _ _ h => by omega, fun _ _ _ _ _ => by omega, fun _ _ _ _ _ h => by omega⟩
  | succ fuel ih => exact ⟨obj_ends ih, fun a s hs h _ => array_ends ih a s hs h, loop_ends ih⟩

end Ends

/-- The reader comes to its end on every text and for every table. It reads nothing behind the NUL of the
    text, it does not leave its buffer for names, and it leaves that for values only if the text has a
    backslash. -/
theorem jsonReadObject_ends (ft : FloatText) (attrs : List Attr) (m : Mem) (text : List UInt8) :
    ∃ rc s, jsonReadObject ft (3 * text.length + 1) attrs m text = some (rc, s) ∧ s.dec.text = text ∧
      s.dec.past = false ∧ s.wild.name = false ∧ (s.wild.value = true → 92 ∈ text) := by
  rw [jsonReadObject]
  have hs (m : Mem) : St.Sound ⟨.init text, m, ⟨false, false⟩⟩ :=
    ⟨Nat.zero_le _, rfl, rfl, fun h => Bool.noConfusion h⟩
  split
  case isFalse => exact ⟨_, _, rfl, rfl, rfl, rfl, fun h => Bool.noConfusion h⟩
  case isTrue =>
    obtain ⟨rc, s, hrun, hon⟩ := (ends ft (3 * text.length + 1)).obj attrs none 0 ⟨.init, 0⟩ _ (hs _)
      trivial (Nat.lt_succ_of_le (Nat.le_refl _))
    have htext : s.dec.text = text := hon.text
    exact ⟨rc, s, hrun, htext, hon.sound.past, hon.sound.name, fun h => htext ▸ hon.sound.value h⟩

/-! ## More rounds -/

/-- What a loop gives with this number of rounds it gives with one more. -/
structure Steady (ft : FloatText) (fuel : Nat) : Prop where
  obj : ∀ attrs parent offset l s r, objLoop ft attrs parent offset fuel l s = some r →
    objLoop ft attrs parent offset (fuel + 1) l s = some r
  array : ∀ a s r, jsonReadArray ft a fuel s = some r → jsonReadArray ft a (fuel + 1) s = some r
  loop : ∀ a offset tp s r, arrLoop ft a offset tp fuel s = some r →
    arrLoop ft a offset tp (fuel + 1) s = some r

/-- What follows an element does so with more rounds as well. -/
lemma afterElement_steady {arr : ArrayT} {offset : Nat} {more more' : Nat → St → Option (Int × St)}
    {el el' : Option (Int × Nat × St)} {r : Int × St}
    (hmore : ∀ tp s r, more tp s = some r → more' tp s = some r) (hel : ∀ x, el = some x → el' = some x)
    (h : afterElement arr offset more el = some r) : afterElement arr offset more' el' = some r := by
  cases el with
  | none => cases h
  | some x =>
    rw [hel x rfl]
    rw [afterElement] at h ⊢
    split at h
    case isFalse h0 => rwa [if_neg h0]
    case isTrue h0 =>
      rw [if_pos h0]
      dsimp only at h ⊢
      split at h
      case isTrue h1 => rwa [if_pos h1]
      case isFalse h1 =>
        rw [if_neg h1]
        split at h
        case isFalse h2 => rwa [if_neg h2]
        case isTrue h2 =>
          rw [if_pos h2]
          exact hmore _ _ _ h

/-- The three loops do not depend on their rounds. -/
lemma steady (ft : FloatText) (fuel : Nat) : Steady ft fuel := by
  induction fuel with
  | zero =>
    refine ⟨fun attrs parent offset l s r h => ?_, fun a s r h => ?_, fun a offset tp s r h => ?_⟩
    · rw [objLoop] at h
      cases h
    · rw [jsonReadArray] at h
      cases h
    · rw [arrLoop] at h
      cases h
  | succ fuel ih =>
    refine ⟨fun attrs parent offset l s r h => ?_, fun a s r h => ?_, fun a offset tp s r h => ?_⟩
    · rw [objLoop] at h ⊢
      by_cases hc : (jsonReadNext s.dec).1 = 0
      · rwa [if_pos hc] at h ⊢
      rw [if_neg hc] at h ⊢
      cases hstep : objStep ft attrs parent offset (jsonReadNext s.dec).1 l
          { s with dec := (jsonReadNext s.dec).2 } with
      | next l' s' =>
        rw [hstep] at h
        exact ih.obj _ _ _ _ _ _ h
      | ret rc s' =>
        rw [hstep] at h
        exact h
      | array a maxlen s' =>
        rw [hstep] at h
        dsimp only at h ⊢
        cases harr : jsonReadArray ft a fuel s' with
        | none =>
          rw [harr] at h
          cases h
        | some r' =>
          rw [harr] at h
          rw [ih.array _ _ _ harr]
          dsimp only at h ⊢
          split at h
          case isTrue h0 =>
            rw [if_pos h0]
            exact ih.obj _ _ _ _ _ _ h
          case isFalse h0 => rwa [if_neg h0]
    · rw [jsonReadArray] at h ⊢
      dsimp only at h ⊢
      split at h
      case isFalse hc => rwa [if_neg hc]
      case isTrue hc =>
        rw [if_pos hc]
        split at h
        case isTrue hp => rwa [if_pos hp]
        case isFalse hp =>
          rw [if_neg hp]
          exact ih.loop _ _ _ _ _ h
    · rw [arrLoop] at h ⊢
      dsimp only at h ⊢
      split at h
      case isFalse hlt => rwa [if_neg hlt]
      case isTrue hlt =>
        rw [if_pos hlt]
        refine afterElement_steady (fun tp s r h => ih.loop _ _ _ _ _ h) (fun x hx => ?_) h
        -- only an object takes rounds
        split at hx
        case isFalse hobj => rwa [if_neg hobj]
        case isTrue hobj =>
          rw [if_pos hobj]
          split at hx
          case isFalse hst => rwa [if_neg hst]
          case isTrue hst =>
            rw [if_pos hst]
            obtain ⟨y, hy, rfl⟩ := Option.map_eq_some_iff.mp hx
            rw [ih.obj _ _ _ _ _ _ hy]
            rfl

/-- More rounds than are enough for an object. -/
lemma objLoop_mono {ft : FloatText} {attrs : List Attr} {parent : Option ArrayT} {offset : Nat}
    {l : Locals} {s : St} {r : Int × St} {fuel fuel' : Nat} (h : fuel ≤ fuel')
    (hr : objLoop ft attrs parent offset fuel l s = some r) :
    objLoop ft attrs parent offset fuel' l s = some r := by
  induction fuel', h using Nat.le_induction with
  | base => exact hr
  | succ n _ ih => exact (steady ft n).obj _ _ _ _ _ _ ih

/-- More rounds than are enough for an array. -/
lemma jsonReadArray_mono {ft : FloatText} {a : Attr} {s : St} {r : Int × St} {fuel fuel' : Nat}
    (h : fuel ≤ fuel') (hr : jsonReadArray ft a fuel s = some r) :
    jsonReadArray ft a fuel' s = some r := by
  induction fuel', h using Nat.le_induction with
  | base => exact hr
  | succ n _ ih => exact (steady ft n).array _ _ _ ih

end UwbCore.Json.Text
