import UwbCore.Dpl.Chain

/-!
# Writing into a chain

Appending from another chain, extending, joining two chains, and writing at an offset, as operations on the
bytes of a chain.
-/

namespace UwbCore.Dpl

section
variable {p : MbufPool} {b : Buf} {c c' d : List Buf} {free free' : Nat} {bytes : List UInt8}
variable {f : BitVec 16 → BitVec 16}

/-! ### Other chains -/

/-- The offset lies in the first of the buffers that are found, or at the end of the chain. -/
lemma dplMbufOff_some {off off' : Nat} {cur : List Buf} (h : dplMbufOff c off = some (cur, off')) :
    ∃ before b rest, c = before ++ cur ∧ off = (flat before).length + off' ∧ cur = b :: rest ∧
      off' ≤ b.data.length := by
  induction c generalizing off with
  | nil => cases h
  | cons b c ih =>
    rw [dplMbufOff] at h
    split at h
    case isTrue hoff =>
      cases h
      exact ⟨[], b, c, rfl, (Nat.zero_add _).symm, rfl, hoff.elim Nat.le_of_lt fun h => h.1.ge⟩
    case isFalse hoff =>
      obtain ⟨before, b', rest, rfl, hlen, hcur, hle⟩ := ih h
      refine ⟨b :: before, b', rest, rfl, ?_, hcur, hle⟩
      have : ¬off < b.data.length := fun h => hoff (.inl h)
      rw [flat_cons, List.length_append]
      omega

/-- No buffer is found only behind the end of the chain. -/
lemma dplMbufOff_none {off : Nat} (hne : c ≠ []) (h : dplMbufOff c off = none) :
    (flat c).length < off := by
  induction c generalizing off with
  | nil => exact absurd rfl hne
  | cons b c ih =>
    rw [dplMbufOff] at h
    split at h
    case isTrue => cases h
    case isFalse hoff =>
      have hge : ¬off < b.data.length := fun h => hoff (.inl h)
      rw [flat_cons, List.length_append]
      cases c with
      | nil =>
        have : b.data.length ≠ off := fun h => hoff (.inr ⟨h, rfl⟩)
        simp only [flat_nil, List.length_nil]
        omega
      | cons b' c =>
        have := ih (List.cons_ne_nil _ _) h
        omega

/-- The bytes of a chain from an offset on. -/
lemma dplMbufOff_drop {off off' : Nat} {cur : List Buf} (h : dplMbufOff c off = some (cur, off')) :
    (flat c).drop off = (flat cur).drop off' := by
  obtain ⟨before, b, rest, rfl, rfl, -, -⟩ := dplMbufOff_some h
  rw [flat_append, List.drop_append, List.drop_eq_nil_of_le (Nat.le_add_right _ _), List.nil_append,
    Nat.add_sub_cancel_left]

/-- Bytes of a chain: those of the first buffer, and then the others. -/
lemma take_drop_cons {off : Nat} (h : off ≤ b.data.length) (c : List Buf) (len : Nat) :
    ((flat (b :: c)).drop off).take len =
      (b.data.drop off).take len ++ (flat c).take (len - ((b.data.drop off).take len).length) := by
  rw [flat_cons, List.drop_append_of_le_length h, List.take_append]
  congr 2
  rw [List.length_take]
  omega

/-- The loop appends the bytes of the other chain as far as there is room. -/
lemma appendfromLoop_becomes {src : List Buf} {off len : Nat} (hc : Sound p c) (hne : c ≠ [])
    (hoff : ∀ s rest, src = s :: rest → off ≤ s.data.length) :
    ∃ c' free' rc, appendfromLoop p free c src off len = (c', free', rc) ∧
      Becomes p c free c' free' (flat c ++ (((flat src).drop off).take len).take (room p free c)) ∧
      rc = (if room p free c < (((flat src).drop off).take len).length then .enomem
        else if ((flat src).drop off).length < len then .einval else .ok) := by
  have hzero : Becomes p c free c free (flat c ++ List.take (room p free c) []) := by
    rw [List.take_nil, List.append_nil]
    exact .refl hc hne
  induction src generalizing c free off len with
  | nil =>
    have hslice : (flat []).drop off = [] := List.drop_nil
    rw [hslice, List.take_nil]
    cases len with
    | zero => exact ⟨c, free, .ok, by rw [appendfromLoop], hzero, by simp⟩
    | succ len => exact ⟨c, free, .einval, rfl, hzero, by simp⟩
  | cons s src ih =>
    cases len with
    | zero =>
      rw [List.take_zero]
      exact ⟨c, free, .ok, by rw [appendfromLoop], hzero, by simp⟩
    | succ len =>
      have hs := hoff s src rfl
      rw [appendfromLoop, take_drop_cons hs]
      generalize hchunk : (s.data.drop off).take (len + 1) = chunk
      have hlen : ((flat (s :: src)).drop off).length < len + 1 ↔
          (flat src).length < len + 1 - chunk.length := by
        rw [← hchunk, flat_cons, List.drop_append_of_le_length hs, List.length_append,
          List.length_take]
        omega
      obtain ⟨c1, free1, happ, hb, hroom⟩ := dplMbufAppend_becomes hc hne free chunk
      rw [happ, List.take_append, List.length_append]
      by_cases hfit : chunk.length ≤ room p free c
      · rw [if_pos hfit]
        rw [List.take_of_length_le hfit] at hb ⊢
        obtain ⟨c2, free2, rc2, hrun, hb2, hrc2⟩ :=
          @ih c1 free1 0 (len + 1 - chunk.length) hb.sound hb.ne (fun _ _ _ => Nat.zero_le _)
            (by rw [List.take_nil, List.append_nil]; exact .refl hb.sound hb.ne)
        rw [List.drop_zero, hroom] at hb2 hrc2
        refine ⟨c2, free2, rc2, hrun, ?_, ?_⟩
        · rw [← List.append_assoc, ← hb.flat]
          exact hb.trans hb2
        · have hlt : room p free c - chunk.length < ((flat src).take (len + 1 - chunk.length)).length ↔
              room p free c < chunk.length + ((flat src).take (len + 1 - chunk.length)).length := by
            omega
          rw [hrc2]
          simp only [hlen, hlt]
      · rw [if_neg hfit]
        refine ⟨c1, free1, .enomem, rfl, ?_, ?_⟩
        · rw [Nat.sub_eq_zero_of_le (Nat.le_of_not_le hfit), List.take_zero, List.append_nil]
          exact hb
        · rw [if_pos (by omega)]

/-- C `dpl_mbuf_appendfrom`: the bytes of the other chain are appended as far as there are any and as there
    is memory for them. -/
lemma dplMbufAppendfrom_becomes {src : List Buf} {off len : Nat} (hc : Sound p c) (hne : c ≠ [])
    (hsrc : src ≠ []) :
    ∃ c' free' rc, dplMbufAppendfrom p free c src off len = (c', free', rc) ∧
      Becomes p c free c' free' (flat c ++ (((flat src).drop off).take len).take (room p free c)) ∧
      rc = (if room p free c < (((flat src).drop off).take len).length then .enomem
        else if ((flat src).drop off).length < len then .einval else .ok) := by
  rw [dplMbufAppendfrom]
  cases h : dplMbufOff src off with
  | none =>
    have hnil : (flat src).drop off = [] :=
      List.drop_eq_nil_of_le (Nat.le_of_lt (dplMbufOff_none hsrc h))
    rw [hnil]
    exact @appendfromLoop_becomes _ _ _ [] 0 len hc hne fun s rest e => by cases e
  | some r =>
    obtain ⟨cur, off'⟩ := r
    obtain ⟨-, b, rest, -, -, hcur, hle⟩ := dplMbufOff_some h
    rw [dplMbufOff_drop h]
    refine appendfromLoop_becomes hc hne fun s rest' e => ?_
    rw [hcur] at e
    cases e
    exact hle

/-- C `dpl_mbuf_extend` has no space exactly if the bytes do not fit a block, or the last buffer has no
    room for them and no block is free. -/
lemma dplMbufExtend_isSome_iff (p : MbufPool) (free : Nat) (c : List Buf) (bytes : List UInt8) :
    (dplMbufExtend p free c bytes).isSome = true ↔
      bytes.length ≤ p.databufLen ∧ (bytes.length ≤ lastRoom c ∨ 0 < free) := by
  rw [dplMbufExtend]
  split
  case isTrue hsize => exact iff_of_false Bool.false_ne_true (by omega)
  case isFalse hsize =>
    split
    case isTrue hroom =>
      rw [Option.isSome_map, dplMbufGet, if_neg (Nat.not_lt_zero _)]
      split
      case isTrue hfree => exact iff_of_false Bool.false_ne_true (by omega)
      case isFalse hfree => exact iff_of_true rfl (by omega)
    case isFalse hroom => exact iff_of_true rfl (by omega)

/-- C `dpl_mbuf_extend`: the bytes are appended in one buffer. -/
lemma dplMbufExtend_becomes (hc : Sound p c) (hne : c ≠ [])
    (h : dplMbufExtend p free c bytes = some (c', free')) :
    Becomes p c free c' free' (flat c ++ bytes) := by
  have hlen : ∀ x : BitVec 16, x + BitVec.ofNat 16 bytes.length -
      BitVec.ofNat 16 (flat c ++ bytes).length = x - BitVec.ofNat 16 (flat c).length := fun x => by
    rw [List.length_append]
    exact ofNat_add_sub x _ _
  rw [dplMbufExtend] at h
  split at h
  case isTrue => cases h
  case isFalse hsize =>
    dsimp only at h
    split at h
    case isTrue =>
      obtain ⟨⟨new, free1⟩, hget, he⟩ := Option.map_eq_some_iff.mp h
      obtain ⟨-, rfl, hfree⟩ := dplMbufGet_some hget
      cases he
      have hnew : flat (c ++ [{ p.fresh 0 with
          data := bytes, trail := (p.fresh 0).trail - bytes.length }]) = flat c ++ bytes := by
        rw [flat_append, flat_cons, flat_nil, List.append_nil]
      refine ⟨Sound.onLen (Sound.append hne hc fun x hx => ?_), ?_, ?_, ?_, ?_⟩
      · rw [List.mem_singleton] at hx
        subst hx
        refine ⟨⟨?_, Nat.zero_le _⟩, rfl⟩
        show 0 + 0 + bytes.length + (p.databufLen - 0 - bytes.length) = p.databufLen
        omega
      · rw [length_onLen, List.length_append, List.length_singleton]
        omega
      · rw [flat_onLen, hnew]
      · refine stamp_onLen (hdrOf_append hne _) ?_
        rw [hnew]
        exact hlen
      · exact onLen_ne (List.append_ne_nil_of_left_ne_nil hne _)
    case isFalse hroom =>
      cases h
      have hres := fillLast_resized c bytes
      obtain ⟨-, hflat, -⟩ := fillLast_spec hne bytes
      rw [List.take_of_length_le (Nat.le_of_not_lt hroom)] at hflat
      refine ⟨(hres.sound hc).onLen, ?_, ?_, ?_, ?_⟩
      · rw [length_onLen, hres.length_eq]
      · rw [flat_onLen, hflat]
      · refine stamp_onLen hres.hdrOf ?_
        rw [hflat]
        exact hlen
      · refine onLen_ne fun e => hne ?_
        rw [e] at hres
        cases hres
        rfl

/-- A chain without its packet header. -/
lemma dropHdr_plain (hd : Sound p d) : ∀ x ∈ dropHdr p d, x.Fits p ∧ x.hdr = none := by
  cases d with
  | nil => exact fun x hx => nomatch hx
  | cons b d =>
    intro x hx
    cases List.mem_cons.mp hx with
    | inr hx => exact hd.rest x hx
    | inl e =>
      subst e
      have hsize := hd.head.size
      refine ⟨⟨?_, Nat.zero_le _⟩, rfl⟩
      show 0 + (b.lead + p.hdrLen b.hdr) + b.data.length + b.trail = p.databufLen
      omega

@[simp] lemma flat_dropHdr : flat (dropHdr p d) = flat d := by
  cases d with
  | nil => rfl
  | cons b d => rfl

@[simp] lemma length_dropHdr : (dropHdr p d).length = d.length := by
  cases d with
  | nil => rfl
  | cons b d => rfl

/-- The length is the sum of the lengths. -/
lemma flat_length (c : List Buf) : (flat c).length = (c.map fun b => b.data.length).sum :=
  List.length_flatMap

/-- The length of the second chain, counted or in its header. -/
lemma secondLen_eq (h : ∀ h ∈ hdrOf d, h.len = .ofNat 16 (flat d).length) :
    secondLen d = .ofNat 16 (flat d).length := by
  rw [secondLen]
  split
  case h_1 h' hh => exact h h' hh
  case h_2 => exact congrArg _ (flat_length d).symm

/-- C `dpl_mbuf_concat`: the bytes of both chains, with a length that is right if those of both were. -/
lemma dplMbufConcat_becomes (hc : Sound p c) (hne : c ≠ []) (hd : Sound p d) :
    Sound p (dplMbufConcat p c d) ∧ (dplMbufConcat p c d).length = c.length + d.length ∧
      flat (dplMbufConcat p c d) = flat c ++ flat d ∧ dplMbufConcat p c d ≠ [] ∧
      ((∀ h ∈ hdrOf d, h.len = .ofNat 16 (flat d).length) → stamp (dplMbufConcat p c d) = stamp c) := by
  rw [dplMbufConcat]
  have hflat : flat (c ++ dropHdr p d) = flat c ++ flat d := by rw [flat_append, flat_dropHdr]
  refine ⟨(Sound.append hne hc (dropHdr_plain hd)).onLen, ?_, ?_, ?_, fun hright => ?_⟩
  · rw [length_onLen, List.length_append, length_dropHdr]
  · rw [flat_onLen, hflat]
  · exact onLen_ne (List.append_ne_nil_of_left_ne_nil hne _)
  · refine stamp_onLen (hdrOf_append hne _) fun x => ?_
    rw [hflat, List.length_append, secondLen_eq hright]
    exact ofNat_add_sub x _ _

/-! ### Writing into a chain -/

/-- The first buffer changed. -/
lemma Resized.cons_refl {b' : Buf} (h : Alike b b') (c : List Buf) : Resized (b :: c) (b' :: c) :=
  .cons h (Resized.refl c)

/-- Bytes from an offset on replaced by others. -/
def splice (bytes : List UInt8) (off : Nat) (src : List UInt8) : List UInt8 :=
  bytes.take off ++ src ++ bytes.drop (off + src.length)

/-- The bytes from the offset on are replaced as far as the chain goes. -/
lemma overwrite_spec {off : Nat} (hoff : ∀ b rest, c = b :: rest → off ≤ b.data.length)
    (src : List UInt8) :
    Resized c (overwrite c off src).1 ∧
      (overwrite c off src).2 = src.drop ((flat c).length - off) ∧
      flat (overwrite c off src).1 = splice (flat c) off (src.take ((flat c).length - off)) := by
  induction c generalizing off src with
  | nil =>
    rw [overwrite]
    exact ⟨.nil, by simp, by simp [splice]⟩
  | cons b c ih =>
    have hle := hoff b c rfl
    rw [overwrite]
    dsimp only
    generalize hn : min (b.data.length - off) src.length = copylen
    have hcopy : copylen ≤ src.length := by omega
    have hb : Alike b { b with
        data := b.data.take off ++ src.take copylen ++ b.data.drop (off + copylen) } := by
      refine ⟨rfl, ?_⟩
      show b.lead + (b.data.take off ++ src.take copylen ++ b.data.drop (off + copylen)).length + b.trail = _
      simp only [List.length_append, List.length_take, List.length_drop]
      omega
    split
    case isTrue hall =>
      have hlen : src.length ≤ copylen := List.drop_eq_nil_iff.mp hall
      have htake : src.take copylen = src := List.take_of_length_le hlen
      have htake' : src.take ((flat (b :: c)).length - off) = src := by
        refine List.take_of_length_le ?_
        rw [flat_cons, List.length_append]
        omega
      refine ⟨Resized.cons_refl hb c, ?_, ?_⟩
      · refine (List.drop_eq_nil_of_le ?_).symm
        rw [flat_cons, List.length_append]
        omega
      · have hcl : copylen = src.length := by omega
        rw [htake', flat_cons, splice, flat_cons, htake, List.take_append_of_le_length hle,
          List.drop_append_of_le_length (by omega), hcl, List.append_assoc, List.append_assoc]
    case isFalse hmore =>
      have hlt : copylen < src.length := Nat.lt_of_not_le fun h => hmore (List.drop_eq_nil_of_le h)
      have hcl : copylen = b.data.length - off := by omega
      obtain ⟨hres, hrest, hflat⟩ := @ih 0 (fun _ _ _ => Nat.zero_le _) (src.drop copylen)
      rw [Nat.sub_zero] at hrest hflat
      have hsub : (flat (b :: c)).length - off = copylen + (flat c).length := by
        rw [flat_cons, List.length_append]
        omega
      refine ⟨.cons hb hres, ?_, ?_⟩
      · rw [hrest, List.drop_drop, hsub]
      · rw [hsub, flat_cons, hflat]
        generalize htail : (src.drop copylen).take (flat c).length = tail
        have hnil : b.data.drop (off + copylen) = [] := List.drop_eq_nil_of_le (by omega)
        have hpart : src.take (copylen + (flat c).length) = src.take copylen ++ tail := by
          rw [List.take_add, htail]
        have hend : off + (src.take copylen ++ tail).length = b.data.length + tail.length := by
          rw [List.length_append, List.length_take]
          omega
        rw [hnil, List.append_nil, hpart, splice, splice, hend, flat_cons,
          List.take_append_of_le_length hle, List.drop_length_add_append, List.take_zero,
          List.nil_append, Nat.zero_add, List.append_assoc, List.append_assoc, List.append_assoc]
/-- A write behind some bytes. -/
lemma splice_append (a x : List UInt8) (off : Nat) (src : List UInt8) :
    splice (a ++ x) (a.length + off) src = a ++ splice x off src := by
  rw [splice, splice, List.take_length_add_append, Nat.add_assoc, List.drop_length_add_append,
    List.append_assoc, List.append_assoc, List.append_assoc]

/-- What goes to the end of the chain takes nothing from behind it. -/
lemma splice_past {off : Nat} {src : List UInt8} (h : bytes.length ≤ off + src.length) :
    splice bytes off src = bytes.take off ++ src := by
  rw [splice, List.drop_eq_nil_of_le h, List.append_nil]

/-- Overwriting leaves the room in each buffer. -/
lemma overwrite_trail (c : List Buf) (off : Nat) (src : List UInt8) :
    (overwrite c off src).1.map Buf.trail = c.map Buf.trail := by
  induction c generalizing off src with
  | nil => rfl
  | cons b c ih =>
    rw [overwrite]
    dsimp only
    split
    case isTrue => rfl
    case isFalse => exact congrArg (b.trail :: ·) (ih 0 _)

/-- The room in the last buffer. -/
lemma lastRoom_eq (c : List Buf) : lastRoom c = ((c.map Buf.trail).getLast?).getD 0 := by
  rw [lastRoom, List.getLast?_map]

/-- The packet header of a chain that has become another. -/
lemma hdrOf_of_stamp (h : stamp c' = stamp c) : hdrOf c' = (hdrOf c).map fun x =>
    { x with len := x.len - .ofNat 16 (flat c).length + .ofNat 16 (flat c').length } := by
  rw [stamp, stamp] at h
  cases hc : hdrOf c with
  | none =>
    rw [hc] at h
    exact Option.map_eq_none_iff.mp h
  | some x =>
    rw [hc] at h
    obtain ⟨x', hc', he⟩ := Option.map_eq_some_iff.mp h
    obtain ⟨len, flags, user⟩ := x'
    simp only [Prod.mk.injEq] at he
    obtain ⟨hlen, rfl, rfl⟩ := he
    rw [hc', Option.map_some, ← hlen]
    congr 2
    bv_omega

/-- The length in the packet header after `rest` bytes were appended to the last buffer as a chain of its own,
    when there is memory for `space` bytes. -/
def grownLen (single : Bool) (rest space : Nat) (len : BitVec 16) : BitVec 16 :=
  if single then len + .ofNat 16 (min rest space) else len

/-- The length in the packet header after `dpl_mbuf_copyinto`, of which `rest` bytes go behind the end of the
    chain. -/
def lenAfter (single : Bool) (off rest space : Nat) (len : BitVec 16) : BitVec 16 :=
  if rest ≤ space ∧ rest ≠ 0 then .ofNat 16 (max (grownLen single rest space len).toNat (off + rest))
  else grownLen single rest space len

/-- The end of `dpl_mbuf_copyinto`: the bytes are appended to the last buffer as a chain of its own. -/
lemma appendLast_spec (hc : Sound p c) (hne : c ≠ []) (free : Nat) (bytes : List UInt8) :
    ∃ last free', dplMbufAppend p free c.getLast?.toList bytes =
        (last, free', if bytes.length ≤ room p free c then .ok else .enomem) ∧
      Sound p (c.dropLast ++ last) ∧ (c.dropLast ++ last).length + free' = c.length + free ∧
      flat (c.dropLast ++ last) = flat c ++ bytes.take (room p free c) ∧ last ≠ [] ∧
      hdrOf (c.dropLast ++ last) = (hdrOf c).map fun h => { h with
        len := grownLen (c.length = 1) bytes.length (room p free c) h.len } := by
  obtain ⟨init, l, rfl⟩ := (List.eq_nil_or_concat' c).resolve_left hne
  have hroom : room p free (init ++ [l]) = room p free [l] := by
    rw [room, room, lastRoom_append (List.cons_ne_nil _ _)]
  have hlast : Sound p [l] :=
    .single (hc.fits l (List.mem_append_right _ (List.mem_singleton_self l)))
  obtain ⟨last, free', happ, hb, -⟩ := dplMbufAppend_becomes hlast (List.cons_ne_nil _ _) free bytes
  rw [List.getLast?_concat, Option.toList_some, happ, hroom, List.dropLast_concat]
  have hhdr := hdrOf_of_stamp hb.stamp
  have hflat := hb.flat
  have hblocks := hb.blocks
  refine ⟨last, free', rfl, ?_, ?_, ?_, hb.ne, ?_⟩
  · cases init with
    | nil => exact hb.sound
    | cons x init =>
      -- The last buffer is not the first one, so that it has no packet header.
      have hx : Sound p (x :: init) := .cons (hc.fits x List.mem_cons_self) fun y hy =>
        hc.rest y (List.mem_append_left _ hy)
      have hnone : l.hdr = none := (hc.rest l (List.mem_append_right _ (List.mem_singleton_self l))).2
      refine Sound.append (List.cons_ne_nil _ _) hx fun y hy => ?_
      obtain ⟨z, last, rfl⟩ := List.exists_cons_of_ne_nil hb.ne
      rw [hdrOf_cons, hdrOf_cons, hnone] at hhdr
      cases List.mem_cons.mp hy with
      | inl e => exact e ▸ ⟨hb.sound.head, hhdr⟩
      | inr hy => exact hb.sound.rest y hy
  · rw [List.length_append, List.length_append]
    rw [List.length_singleton] at hblocks ⊢
    omega
  · rw [flat_append, hflat, flat_append, List.append_assoc]
  · cases init with
    | nil =>
      rw [List.nil_append, List.nil_append, hhdr, hflat]
      refine congrArg (fun g => (hdrOf [l]).map g) (funext fun h => ?_)
      have hone : grownLen ([l].length = 1) bytes.length (room p free [l]) h.len =
          h.len + .ofNat 16 (min bytes.length (room p free [l])) := rfl
      rw [hone, List.length_append, List.length_take, BitVec.ofNat_add, Nat.min_comm]
      congr 1
      bv_omega
    | cons x init =>
      have hone : ∀ h : BitVec 16,
          grownLen (((x :: init) ++ [l]).length = 1) bytes.length (room p free [l]) h = h := fun h => by
        simp [grownLen]
      rw [hdrOf_append (List.cons_ne_nil _ _), hdrOf_append (List.cons_ne_nil _ _)]
      simp only [hone]
      cases hdrOf (x :: init) with
      | none => rfl
      | some h => rfl

/-- C `dpl_mbuf_copyinto` inside a chain or at its end. -/
lemma dplMbufCopyinto_spec (hc : Sound p c) (hne : c ≠ []) (free : Nat) {off : Nat} {src : List UInt8}
    (hoff : off ≤ (flat c).length) (hshort : src.length < 2 ^ 16) :
    ∃ c' free', dplMbufCopyinto p free c off src = (c', free',
        if src.length - ((flat c).length - off) ≤ room p free c then .ok else .enomem) ∧
      Sound p c' ∧ c'.length + free' = c.length + free ∧ c' ≠ [] ∧
      flat c' = splice (flat c) off (src.take ((flat c).length - off + room p free c)) ∧
      hdrOf c' = (hdrOf c).map fun h => { h with
        len := lenAfter (c.length = 1) off (src.length - ((flat c).length - off)) (room p free c) h.len } := by
  rw [dplMbufCopyinto]
  cases hcur : dplMbufOff c off with
  | none => exact absurd (dplMbufOff_none hne hcur) (Nat.not_lt.mpr hoff)
  | some r =>
    obtain ⟨cur, off'⟩ := r
    obtain ⟨before, b, rest, hsplit, hlen, hcons, hle⟩ := dplMbufOff_some hcur
    obtain ⟨hres, hrest, hflat⟩ := overwrite_spec (c := cur)
      (fun b' rest' e => by rw [hcons] at e; cases e; exact hle) src
    have htrail := overwrite_trail cur off' src
    dsimp only
    generalize overwrite cur off' src = w at hres hrest hflat htrail ⊢
    obtain ⟨cur', left⟩ := w
    dsimp only at hres hrest hflat htrail ⊢
    have hbefore : c.take (c.length - cur.length) = before := by
      rw [hsplit, List.length_append, Nat.add_sub_cancel, List.take_left]
    rw [hbefore]
    have hinside : (flat c).length - off = (flat cur).length - off' := by
      rw [hsplit, flat_append, List.length_append, hlen]
      omega
    -- The chain with what was written over it.
    generalize hw : before ++ cur' = w
    have hwres : Resized c w := by
      rw [hsplit, ← hw]
      exact List.rel_append (Resized.refl before) hres
    have hwflat : flat w = splice (flat c) off (src.take ((flat c).length - off)) := by
      rw [← hw, flat_append, hflat, hinside, hlen, hsplit, flat_append, splice_append]
    have hwlen := hwres.length_eq
    have hwne : w ≠ [] := fun e => hne (List.length_eq_zero_iff.mp (by rw [hwlen, e]; rfl))
    have hwroom : room p free w = room p free c := by
      rw [room, room, lastRoom_eq, lastRoom_eq, ← hw, hsplit, List.map_append, List.map_append, htrail]
    have hleft : left.length = src.length - ((flat c).length - off) := by
      rw [hrest, hinside, List.length_drop]
    split
    case isTrue hnil =>
      rw [hnil, List.length_nil] at hleft
      refine ⟨w, free, ?_, hwres.sound hc, by rw [hwlen], hwne, ?_, ?_⟩
      · rw [← hleft, if_pos (Nat.zero_le _)]
      · rw [hwflat, List.take_of_length_le (by omega), List.take_of_length_le (by omega)]
      · rw [hwres.hdrOf, ← hleft]
        simp [lenAfter, grownLen]
    case isFalse hmore =>
      have hpos := List.length_pos_of_ne_nil hmore
      have htake : left.take (left.length % 2 ^ 16) = left :=
        List.take_of_length_le (by rw [Nat.mod_eq_of_lt (by omega)])
      obtain ⟨last, free', happ, hsound, hblocks, hlflat, hlne, hhdr⟩ :=
        appendLast_spec (hwres.sound hc) hwne free left
      rw [htake, happ, hwroom]
      rw [hwroom] at hlflat hhdr
      rw [← hwlen] at hblocks hhdr
      have hbytes : flat (w.dropLast ++ last) =
          splice (flat c) off (src.take ((flat c).length - off + room p free c)) := by
        have hin : ((src.take ((flat c).length - off)).length) = (flat c).length - off := by
          rw [List.length_take]
          omega
        rw [hlflat, hwflat, splice_past (by omega), splice_past (by rw [List.length_take]; omega),
          List.append_assoc, List.take_add, hrest, hinside]
      have hne' : w.dropLast ++ last ≠ [] := List.append_ne_nil_of_right_ne_nil _ hlne
      by_cases hfit : left.length ≤ room p free c
      · rw [if_pos hfit, ← hleft, if_pos hfit]
        refine ⟨_, free', rfl, hsound.onLen, by rw [length_onLen, hblocks], onLen_ne hne', ?_, ?_⟩
        · rw [flat_onLen, hbytes]
        · rw [hdrOf_onLen, hhdr, hwres.hdrOf, Option.map_map]
          refine congrArg (fun g => (hdrOf c).map g) (funext fun h => ?_)
          rw [lenAfter, if_pos ⟨hfit, Nat.ne_of_gt hpos⟩]
          rfl
      · rw [if_neg hfit, ← hleft, if_neg hfit]
        refine ⟨_, free', rfl, hsound, hblocks, hne', hbytes, ?_⟩
        rw [hhdr, hwres.hdrOf]
        refine congrArg (fun g => (hdrOf c).map g) (funext fun h => ?_)
        rw [lenAfter, if_neg fun h => hfit h.1]

end

end UwbCore.Dpl
