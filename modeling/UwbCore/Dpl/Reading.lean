import UwbCore.Dpl.Writing

/-!
# Reading chains

What is copied out of a chain (`dplMbufCopydata_eq`) and what a chain is compared with
(`dplMbufCmpf_eq_iff`, `dplMbufCmpm_eq_iff`), by the bytes of the chain alone: where one buffer ends and the
next begins does not matter.
-/

namespace UwbCore.Dpl

variable {c : List Buf}

/-- The second loop copies the bytes of the chain from an offset in its first buffer on. -/
lemma copyLoop_eq {off : Nat} (hoff : ∀ b rest, c = b :: rest → off ≤ b.data.length) (len : Nat) :
    copyLoop c off len = ((flat c).drop off).take len := by
  induction c generalizing off len with
  | nil =>
    rw [flat_nil, List.drop_nil, List.take_nil]
    cases len <;> rfl
  | cons b c ih =>
    cases len with
    | zero => rw [copyLoop, List.take_zero]
    | succ len =>
      rw [copyLoop, take_drop_cons (hoff b c rfl), ih (fun _ _ _ => Nat.zero_le _), List.drop_zero]

/-- The first loop finds where the bytes from an offset on begin. -/
lemma seekData_some {m : List Buf} {off off' : Nat} (h : seekData c off = some (m, off')) :
    (flat c).drop off = (flat m).drop off' ∧ ∀ b rest, m = b :: rest → off' ≤ b.data.length := by
  induction c generalizing off with
  | nil =>
    cases off with
    | zero =>
      cases h
      exact ⟨rfl, fun _ _ _ => Nat.zero_le _⟩
    | succ off => cases h
  | cons b c ih =>
    cases off with
    | zero =>
      cases h
      exact ⟨rfl, fun _ _ _ => Nat.zero_le _⟩
    | succ off =>
      rw [seekData] at h
      split at h
      case isTrue hlt =>
        cases h
        refine ⟨rfl, fun b' rest he => ?_⟩
        cases he
        exact hlt.le
      case isFalse hge =>
        obtain ⟨hdrop, hle⟩ := ih h
        refine ⟨?_, hle⟩
        rw [flat_cons, List.drop_append, List.drop_eq_nil_of_le (Nat.le_of_not_lt hge), List.nil_append]
        exact hdrop

/-- It finds nothing behind the end of the chain only. -/
lemma seekData_none {off : Nat} (h : seekData c off = none) : (flat c).length < off := by
  induction c generalizing off with
  | nil =>
    cases off with
    | zero => cases h
    | succ off => exact Nat.succ_pos off
  | cons b c ih =>
    cases off with
    | zero => cases h
    | succ off =>
      rw [seekData] at h
      split at h
      case isTrue => cases h
      case isFalse hge =>
        have := ih h
        rw [flat_cons, List.length_append]
        omega

/-- C `dpl_mbuf_copydata`: the bytes from the offset on are copied, and there are enough of them or it fails. -/
theorem dplMbufCopydata_eq (c : List Buf) (off len : Nat) :
    dplMbufCopydata c off len =
      (if len ≤ ((flat c).drop off).length then .ok else .failed, ((flat c).drop off).take len) := by
  rw [dplMbufCopydata]
  split
  case isTrue h =>
    rw [h, List.take_zero, if_pos (Nat.zero_le _)]
  case isFalse h =>
    cases hseek : seekData c off with
    | none =>
      have hnil : (flat c).drop off = [] := List.drop_eq_nil_of_le (seekData_none hseek).le
      rw [hnil, List.take_nil, if_neg]
      rw [List.length_nil]
      omega
    | some r =>
      obtain ⟨m, off'⟩ := r
      obtain ⟨hdrop, hle⟩ := seekData_some hseek
      dsimp only
      rw [copyLoop_eq hle, ← hdrop]
      congr 1
      rw [List.length_take]
      split <;> split <;> first | rfl | omega

/-! ## Comparison -/

/-- Bytes of one length that compare as equal are equal. -/
lemma memcmp_eq_iff {s t : List UInt8} (h : s.length = t.length) : memcmp s t = .eq ↔ s = t := by
  induction s generalizing t with
  | nil =>
    rw [List.length_eq_zero_iff.mp h.symm]
    exact iff_of_true rfl rfl
  | cons a s ih =>
    obtain ⟨b, t, rfl⟩ := List.exists_cons_of_length_eq_add_one h.symm
    have hlen : s.length = t.length := Nat.succ_inj.mp h
    rw [memcmp]
    split
    case isTrue hlt => exact iff_of_false (by simp) fun he => (UInt8.lt_irrefl b) ((List.cons.inj he).1 ▸ hlt)
    case isFalse hge =>
      split
      case isTrue hlt => exact iff_of_false (by simp) fun he => (UInt8.lt_irrefl b) ((List.cons.inj he).1 ▸ hlt)
      case isFalse hle =>
        have hab : a = b := UInt8.le_antisymm (UInt8.not_lt.mp hle) (UInt8.not_lt.mp hge)
        rw [ih hlen, hab, List.cons_inj_right]

/-- The part of two lists that is compared first, when the second is to be at the front of the first. -/
lemma isPrefix_append_iff (x y rest : List UInt8) :
    y <+: x ++ rest ↔ x.take (min x.length y.length) = y.take (min x.length y.length) ∧
      (y.length ≤ x.length ∨ y.drop (min x.length y.length) <+: rest) := by
  rcases Nat.le_total y.length x.length with hle | hle
  · rw [Nat.min_eq_right hle, List.take_length, List.prefix_iff_eq_take,
      List.take_append_of_le_length hle]
    exact ⟨fun h => ⟨h.symm, .inl hle⟩, fun h => h.1.symm⟩
  · rw [Nat.min_eq_left hle, List.take_length]
    constructor
    · rintro ⟨z, hz⟩
      have hx : x = y.take x.length := by
        have := congrArg (List.take x.length) hz
        rwa [List.take_append_of_le_length hle, List.take_left, eq_comm] at this
      refine ⟨hx, .inr ⟨z, ?_⟩⟩
      have := congrArg (List.drop x.length) hz
      rwa [List.drop_append_of_le_length hle, List.drop_left] at this
    · rintro ⟨hx, hor⟩
      have hsplit : y = x ++ y.drop x.length := by
        conv_lhs => rw [← List.take_append_drop x.length y, ← hx]
      rw [hsplit, List.prefix_append_right_inj]
      cases hor with
      | inl hge =>
        rw [List.drop_eq_nil_of_le hge]
        exact List.nil_prefix
      | inr h => exact h

/-- The loop finds that the rest of the data stands at the offset in the rest of the chain. -/
lemma cmpfLoop_eq_iff {data : List UInt8} {omOff dataOff : Nat} (hdata : data.length < 2 ^ 16)
    (hlt : dataOff < data.length) (hoff : ∀ b rest, c = b :: rest → omOff ≤ b.data.length) :
    cmpfLoop data c omOff dataOff = some .eq ↔ data.drop dataOff <+: (flat c).drop omOff := by
  induction c generalizing omOff dataOff with
  | nil =>
    refine iff_of_false (Option.some_ne_none _).symm fun h => ?_
    have := h.length_le
    rw [flat_nil, List.drop_nil, List.length_drop, List.length_nil] at this
    omega
  | cons b c ih =>
    have hb := hoff b c rfl
    have hlen : ((b.data.drop omOff).take (min (b.data.drop omOff).length (data.drop dataOff).length)).length =
        ((data.drop dataOff).take (min (b.data.drop omOff).length (data.drop dataOff).length)).length := by
      rw [List.length_take, List.length_take]
      omega
    rw [cmpfLoop, flat_cons, List.drop_append_of_le_length hb, isPrefix_append_iff,
      ← List.length_drop, ← List.length_drop, ← memcmp_eq_iff hlen]
    generalize hx : b.data.drop omOff = x at *
    generalize hy : data.drop dataOff = y at *
    have hyl : y.length = data.length - dataOff := by rw [← hy, List.length_drop]
    cases hcmp : memcmp (x.take (min x.length y.length)) (y.take (min x.length y.length)) with
    | lt => simp
    | gt => simp
    | eq =>
      dsimp only
      rw [Nat.mod_eq_of_lt (by omega)]
      split
      case isTrue hend => exact iff_of_true rfl ⟨rfl, .inl (by omega)⟩
      case isFalse hend =>
        rw [ih (by omega) fun _ _ _ => Nat.zero_le _, List.drop_zero, ← hy, List.drop_drop]
        have hmore : ¬(data.drop dataOff).length ≤ x.length := by
          rw [hy]
          omega
        exact ⟨fun h => ⟨rfl, .inr h⟩, fun h => h.2.resolve_left hmore⟩

/-- `dpl_mbuf_cmpf` finds that bytes are equal exactly if they stand at the offset. -/
theorem dplMbufCmpf_eq_iff {data : List UInt8} (hdata : data.length < 2 ^ 16) (off : Nat) :
    dplMbufCmpf c off data = some .eq ↔ data <+: (flat c).drop off := by
  rw [dplMbufCmpf]
  split
  case isTrue h =>
    rw [h]
    exact iff_of_true rfl List.nil_prefix
  case isFalse h =>
    have hpos := List.length_pos_iff.mpr h
    cases hcur : dplMbufOff c off with
    | none =>
      refine iff_of_false (Option.some_ne_none _).symm fun hpre => ?_
      have := hpre.length_le
      rw [List.length_drop] at this
      by_cases hne : c = []
      · rw [hne, flat_nil, List.length_nil] at this
        omega
      · have := dplMbufOff_none hne hcur
        omega
    | some r =>
      obtain ⟨cur, off'⟩ := r
      obtain ⟨before, b, rest, -, -, hcons, hle⟩ := dplMbufOff_some hcur
      dsimp only
      rw [cmpfLoop_eq_iff hdata hpos, List.drop_zero, dplMbufOff_drop hcur]
      intro b' rest' he
      rw [hcons] at he
      cases he
      exact hle

/-- Two bytes that lie in two buffers. -/
theorem dplMbufCmpf_eq_iff_second :
    dplMbufCmpf [⟨0, none, 0, [1, 2], 0⟩, ⟨0, none, 0, [3, 4], 0⟩] 1 [2, 3] = some .eq ↔
      [2, 3] <+: (flat [⟨0, none, 0, [1, 2], 0⟩, ⟨0, none, 0, [3, 4], 0⟩]).drop 1 :=
  dplMbufCmpf_eq_iff (by decide) 1

/-- Two byte strings begin with the same `len` bytes. -/
def SameBytes (s t : List UInt8) (len : Nat) : Prop :=
  len ≤ s.length ∧ len ≤ t.length ∧ s.take len = t.take len

/-- A part that both begin with, and what is compared behind it. -/
lemma sameBytes_iff {s t : List UInt8} {k len : Nat} (hk : k ≤ len) (hs : k ≤ s.length)
    (ht : k ≤ t.length) :
    SameBytes s t len ↔ s.take k = t.take k ∧ SameBytes (s.drop k) (t.drop k) (len - k) := by
  have hsplit (x : List UInt8) : x.take len = x.take k ++ (x.drop k).take (len - k) := by
    rw [← List.take_add, Nat.add_sub_cancel' hk]
  have hlen : (s.take k).length = (t.take k).length := by
    rw [List.length_take, List.length_take, Nat.min_eq_left hs, Nat.min_eq_left ht]
  rw [SameBytes, SameBytes, hsplit, hsplit, List.length_drop, List.length_drop]
  constructor
  · rintro ⟨h1, h2, heq⟩
    obtain ⟨hfirst, hrest⟩ := List.append_inj heq hlen
    exact ⟨hfirst, by omega, by omega, hrest⟩
  · rintro ⟨hfirst, h1, h2, hrest⟩
    exact ⟨by omega, by omega, by rw [hfirst, hrest]⟩

/-- The buffers that are left behind have no bytes from the offset on. -/
lemma skipUsed_drop {off : Nat} (hoff : ∀ b rest, c = b :: rest → off ≤ b.data.length) :
    (flat (skipUsed c off).1).drop (skipUsed c off).2 = (flat c).drop off := by
  induction c generalizing off with
  | nil => rfl
  | cons b c ih =>
    rw [skipUsed]
    split
    case isTrue hle =>
      obtain rfl := Nat.le_antisymm (hoff b c rfl) hle
      rw [ih fun _ _ _ => Nat.zero_le _, flat_cons, List.drop_left, List.drop_zero]
    case isFalse => rfl

/-- The loop finds that the rests of both chains begin with the same bytes. -/
lemma cmpmLoop_eq_iff {cur1 cur2 : List Buf} {off1 off2 len : Nat}
    (h1 : ∀ b rest, cur1 = b :: rest → off1 ≤ b.data.length)
    (h2 : ∀ b rest, cur2 = b :: rest → off2 ≤ b.data.length) :
    cmpmLoop cur1 off1 cur2 off2 len = some .eq ↔
      SameBytes ((flat cur1).drop off1) ((flat cur2).drop off2) len := by
  induction len using Nat.strong_induction_on generalizing cur1 cur2 off1 off2 with
  | h len ih =>
    rw [cmpmLoop, ← skipUsed_drop h1, ← skipUsed_drop h2]
    split
    case isTrue h0 =>
      subst h0
      exact iff_of_true rfl ⟨Nat.zero_le _, Nat.zero_le _, by rw [List.take_zero, List.take_zero]⟩
    case isFalse h0 =>
      split
      case h_1 b1 c1 o1 b2 c2 o2 hs1 hs2 =>
        have hlt1 := skipUsed_lt hs1
        have hlt2 := skipUsed_lt hs2
        rw [hs1, hs2]
        dsimp only
        generalize hchunk : min (min (b1.data.length - o1) (b2.data.length - o2)) len = chunk
        have htake (b : Buf) (rest : List Buf) (o : Nat) (hle : o + chunk ≤ b.data.length) :
            ((flat (b :: rest)).drop o).take chunk = (b.data.drop o).take chunk := by
          rw [flat_cons, List.drop_append_of_le_length (by omega), List.take_append_of_le_length]
          rw [List.length_drop]
          omega
        have hrest1 : chunk ≤ ((flat (b1 :: c1)).drop o1).length := by
          rw [List.length_drop, flat_cons, List.length_append]
          omega
        have hrest2 : chunk ≤ ((flat (b2 :: c2)).drop o2).length := by
          rw [List.length_drop, flat_cons, List.length_append]
          omega
        have hlen : ((b1.data.drop o1).take chunk).length = ((b2.data.drop o2).take chunk).length := by
          rw [List.length_take, List.length_take, List.length_drop, List.length_drop]
          omega
        rw [sameBytes_iff (by omega) hrest1 hrest2, htake b1 c1 o1 (by omega),
          htake b2 c2 o2 (by omega), ← memcmp_eq_iff hlen]
        cases memcmp ((b1.data.drop o1).take chunk) ((b2.data.drop o2).take chunk) with
        | lt => simp
        | gt => simp
        | eq =>
          rw [List.drop_drop, List.drop_drop]
          dsimp only
          rw [ih (len - chunk) (by omega)]
          · exact (and_iff_right rfl).symm
          · rintro b rest ⟨⟩
            omega
          · rintro b rest ⟨⟩
            omega
      case h_2 hnone =>
        -- one of the chains is at its end
        refine iff_of_false (Option.some_ne_none _).symm ?_
        rintro ⟨hle1, hle2, -⟩
        cases hs1 : skipUsed cur1 off1 with
        | mk d1 o1 =>
        cases hs2 : skipUsed cur2 off2 with
        | mk d2 o2 =>
        rw [hs1, flat] at hle1
        rw [hs2, flat] at hle2
        cases d1 with
        | nil =>
          rw [List.flatMap_nil, List.drop_nil, List.length_nil] at hle1
          omega
        | cons b1 c1 =>
          cases d2 with
          | nil =>
            rw [List.flatMap_nil, List.drop_nil, List.length_nil] at hle2
            omega
          | cons b2 c2 => exact hnone b1 c1 o1 b2 c2 o2 hs1 hs2

/-- Where `dpl_mbuf_cmpm` begins in a chain: at the offset, or without bytes. -/
lemma dplMbufOff_getD (c : List Buf) (off : Nat) :
    (flat ((dplMbufOff c off).getD ([], 0)).1).drop ((dplMbufOff c off).getD ([], 0)).2 =
        (flat c).drop off ∧
      ∀ b rest, ((dplMbufOff c off).getD ([], 0)).1 = b :: rest →
        ((dplMbufOff c off).getD ([], 0)).2 ≤ b.data.length := by
  cases hcur : dplMbufOff c off with
  | none =>
    have hnil : (flat c).drop off = [] := by
      by_cases hne : c = []
      · rw [hne, flat_nil, List.drop_nil]
      · exact List.drop_eq_nil_of_le (dplMbufOff_none hne hcur).le
    exact ⟨hnil.symm, fun b rest e => by cases e⟩
  | some r =>
    obtain ⟨cur, off'⟩ := r
    obtain ⟨before, b, rest, -, -, hcons, hle⟩ := dplMbufOff_some hcur
    refine ⟨(dplMbufOff_drop hcur).symm, fun b' rest' he => ?_⟩
    have he' : cur = b' :: rest' := he
    rw [hcons] at he'
    cases he'
    exact hle

/-- `dpl_mbuf_cmpm` finds that two chains are equal exactly if the same bytes stand at the offsets. -/
theorem dplMbufCmpm_eq_iff (om1 om2 : List Buf) (offset1 offset2 len : Nat) :
    dplMbufCmpm om1 offset1 om2 offset2 len = some .eq ↔
      SameBytes ((flat om1).drop offset1) ((flat om2).drop offset2) len := by
  obtain ⟨hdrop1, hle1⟩ := dplMbufOff_getD om1 offset1
  obtain ⟨hdrop2, hle2⟩ := dplMbufOff_getD om2 offset2
  rw [dplMbufCmpm, ← hdrop1, ← hdrop2]
  exact cmpmLoop_eq_iff hle1 hle2

end UwbCore.Dpl
