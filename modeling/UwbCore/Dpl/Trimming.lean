import UwbCore.Dpl.Writing

/-!
# Trimming and copies of a chain

Trimming and copying as operations on the bytes of a chain.
-/

namespace UwbCore.Dpl

section
variable {p : MbufPool} {b : Buf} {c c' d : List Buf} {free free' : Nat} {bytes : List UInt8}

/-! ### Trimming -/

/-- The front is trimmed buffer by buffer. -/
lemma trimHead_spec (c : List Buf) (len : Nat) :
    Resized c (trimHead c len).1 ∧ (trimHead c len).2 = len - (flat c).length ∧
      flat (trimHead c len).1 = (flat c).drop len := by
  fun_induction trimHead c len with
  | case1 len => exact ⟨.nil, rfl, List.drop_nil.symm⟩
  | case2 b c => exact ⟨Resized.refl _, (Nat.zero_sub _).symm, rfl⟩
  | case3 b c len hle c' rest heq ih =>
    rw [heq] at ih
    obtain ⟨hres, hrest, hflat⟩ := ih
    refine ⟨.cons ⟨rfl, ?_⟩ hres, ?_, ?_⟩
    · show b.lead + 0 + (b.trail + b.data.length) = _
      omega
    · rw [flat_cons, List.length_append]
      dsimp only at hrest ⊢
      omega
    · rw [flat_cons, flat_cons, List.nil_append, List.drop_append, List.drop_eq_nil_of_le hle,
        List.nil_append]
      exact hflat
  | case4 b c len hlt =>
    have hlen : len + 1 ≤ b.data.length := Nat.le_of_not_le hlt
    refine ⟨.cons ⟨rfl, ?_⟩ (Resized.refl c), ?_, ?_⟩
    · show b.lead + (len + 1) + (b.data.drop (len + 1)).length + b.trail = _
      rw [List.length_drop]
      omega
    · rw [flat_cons, List.length_append]
      dsimp only
      omega
    · rw [flat_cons, flat_cons, List.drop_append_of_le_length hlen]

/-- A buffer that is cut is as large. -/
lemma Buf.alike_cut (b : Buf) (count : Nat) : Alike b (b.cut count) := by
  refine ⟨rfl, ?_⟩
  show b.lead + (b.data.take count).length + (b.trail + (b.data.length - count)) = _
  rw [List.length_take]
  omega

/-- The last buffer has no more bytes than the chain. -/
lemma lastLen_le (c : List Buf) : lastLen c ≤ (flat c).length := by
  rcases List.eq_nil_or_concat' c with rfl | ⟨init, l, rfl⟩
  · exact Nat.zero_le _
  · have hl : lastLen (init ++ [l]) = l.data.length := by
      rw [lastLen, List.getLast?_concat]
      rfl
    rw [hl, flat_append, flat_cons, flat_nil, List.append_nil, List.length_append]
    exact Nat.le_add_left _ _

/-- The last buffer is cut. -/
lemma cutLast_spec {len : Nat} (h : len ≤ lastLen c) :
    Resized c (cutLast len c) ∧ flat (cutLast len c) = (flat c).take ((flat c).length - len) := by
  fun_induction cutLast len c with
  | case1 => exact ⟨.nil, List.take_nil.symm⟩
  | case2 b =>
    refine ⟨.cons (b.alike_cut _) .nil, ?_⟩
    simp [Buf.cut]
  | case3 b next c ih =>
    obtain ⟨hres, hflat⟩ := ih h
    refine ⟨.cons ⟨rfl, rfl⟩ hres, ?_⟩
    have hlen : len ≤ (flat (next :: c)).length :=
      Nat.le_trans (show len ≤ lastLen (next :: c) from h) (lastLen_le _)
    rw [flat_cons, hflat, flat_cons b, List.length_append, Nat.add_sub_assoc hlen,
      List.take_length_add_append]

/-- The chain that is left behind the cut, of which the buffers behind are freed. -/
lemma cutAt_spec {count : Nat} (free : Nat) (h : count ≤ (flat c).length) :
    (cutAt c free count).1.length + (cutAt c free count).2 = c.length + free ∧
      flat (cutAt c free count).1 = (flat c).take count ∧ hdrOf (cutAt c free count).1 = hdrOf c := by
  fun_induction cutAt c free count with
  | case1 free count => exact ⟨rfl, List.take_nil.symm, rfl⟩
  | case2 b c free count hle =>
    refine ⟨?_, ?_, rfl⟩
    · simp only [dplMbufFreeChain, List.length_cons, List.length_nil]
      omega
    · rw [flat_cons, flat_cons, flat_nil, List.append_nil, List.take_append_of_le_length hle]
      rfl
  | case3 b c free count hlt c' free' heq ih =>
    rw [heq] at ih
    rw [flat_cons, List.length_append] at h
    obtain ⟨hblocks, hflat, -⟩ := ih (by omega)
    dsimp only at hblocks hflat
    refine ⟨?_, ?_, rfl⟩
    · rw [List.length_cons, List.length_cons]
      omega
    · rw [flat_cons, hflat, flat_cons, List.take_append, List.take_of_length_le (Nat.le_of_not_le hlt)]

/-- The buffers before the cut are as they were. -/
lemma cutAt_plain {count : Nat} (free : Nat) (h : ∀ x ∈ c, x.Fits p ∧ x.hdr = none) :
    ∀ x ∈ (cutAt c free count).1, x.Fits p ∧ x.hdr = none := by
  fun_induction cutAt c free count with
  | case1 => exact h
  | case2 b c free count hle =>
    intro x hx
    cases List.mem_singleton.mp hx
    have hb := h b List.mem_cons_self
    exact ⟨(b.alike_cut count).fits hb.1, hb.2⟩
  | case3 b c free count hlt c' free' heq ih =>
    rw [heq] at ih
    intro x hx
    cases List.mem_cons.mp hx with
    | inl e => exact e ▸ h b List.mem_cons_self
    | inr hx => exact ih (fun y hy => h y (List.mem_cons_of_mem b hy)) x hx

/-- A chain that is cut is well formed. -/
lemma cutAt_sound {count : Nat} (free : Nat) (hc : Sound p c) : Sound p (cutAt c free count).1 := by
  cases c with
  | nil => exact hc
  | cons b c =>
    rw [cutAt]
    split
    case isTrue => exact .single ((b.alike_cut count).fits hc.head)
    case isFalse => exact .cons hc.head (cutAt_plain free hc.rest)

/-- What is in the packet header besides the length. -/
def userOf (c : List Buf) : Option (BitVec 16 × List UInt8) := (hdrOf c).map fun h => (h.flags, h.user)

/-- The length in the packet header is the number of bytes, in 16 bits. -/
def Counted (c : List Buf) : Prop := ∀ h ∈ hdrOf c, h.len = .ofNat 16 (flat c).length

/-- A chain `c` becomes a chain `c'` with the bytes `bytes` as in `Becomes`, whatever its header counts. -/
structure Keeps (p : MbufPool) (c : List Buf) (free : Nat) (c' : List Buf) (free' : Nat)
    (bytes : List UInt8) : Prop where
  sound : Sound p c'
  blocks : c'.length + free' = c.length + free
  flat : flat c' = bytes
  user : userOf c' = userOf c
  ne : c' ≠ []

/-- A chain that becomes another keeps its header besides the length. -/
lemma Becomes.keeps (h : Becomes p c free c' free' bytes) : Keeps p c free c' free' bytes where
  sound := h.sound
  blocks := h.blocks
  flat := h.flat
  user := by
    have hs := congrArg (Option.map Prod.snd) h.stamp
    rwa [Dpl.stamp, Dpl.stamp, Option.map_map, Option.map_map] at hs
  ne := h.ne

/-- A length that is off by as much as before is right if it was. -/
lemma Counted.of_stamp (h : stamp c' = stamp c) (hc : Counted c) : Counted c' := by
  intro x hx
  rw [hdrOf_of_stamp h] at hx
  obtain ⟨y, hy, rfl⟩ := Option.map_eq_some_iff.mp hx
  show y.len - _ + _ = _
  rw [hc y hy]
  bv_omega

/-- So a chain that becomes another is counted if it was. -/
lemma Becomes.counted (h : Becomes p c free c' free' bytes) (hc : Counted c) : Counted c' :=
  .of_stamp h.stamp hc

/-- C `dpl_mbuf_adj`: bytes are trimmed from the front or from the end. -/
lemma dplMbufAdj_keeps (hc : Sound p c) (hne : c ≠ []) (free : Nat) (reqLen : Int) :
    Keeps p c free (dplMbufAdj free c reqLen).1 (dplMbufAdj free c reqLen).2
        (if 0 ≤ reqLen then (flat c).drop reqLen.toNat
          else (flat c).take ((flat c).length - (-reqLen).toNat)) ∧
      (Counted c → Counted (dplMbufAdj free c reqLen).1) := by
  cases reqLen with
  | ofNat reqLen =>
    rw [if_pos (show (0 : Int) ≤ Int.ofNat reqLen from Int.natCast_nonneg reqLen), dplMbufAdj]
    obtain ⟨hres, hrest, hflat⟩ := trimHead_spec c reqLen
    generalize trimHead c reqLen = r at hres hrest hflat ⊢
    obtain ⟨c', rest⟩ := r
    dsimp only at hres hrest hflat ⊢
    have hb : Becomes p c free (onLen (· - .ofNat 16 (reqLen - rest)) c') free
        ((flat c).drop reqLen) := by
      refine ⟨(hres.sound hc).onLen, by rw [length_onLen, hres.length_eq], ?_, ?_, ?_⟩
      · rw [flat_onLen, hflat]
      · refine stamp_onLen hres.hdrOf fun x => ?_
        have hlen : (flat c).length - reqLen + (reqLen - rest) = (flat c).length := by omega
        rw [ofNat_sub_sub, hflat, List.length_drop, hlen]
      · exact onLen_ne fun e => hne (List.length_eq_zero_iff.mp (by rw [hres.length_eq, e]; rfl))
    exact ⟨hb.keeps, hb.counted⟩
  | negSucc n =>
    rw [if_neg (by omega), dplMbufAdj]
    have hneg : (-Int.negSucc n).toNat = n + 1 := rfl
    rw [hneg]
    dsimp only
    split
    case isTrue hlast =>
      obtain ⟨hres, hflat⟩ := cutLast_spec hlast
      have hb : Becomes p c free (onLen (· - .ofNat 16 (n + 1)) (cutLast (n + 1) c)) free
          ((flat c).take ((flat c).length - (n + 1))) := by
        refine ⟨(hres.sound hc).onLen, by rw [length_onLen, hres.length_eq], ?_, ?_, ?_⟩
        · rw [flat_onLen, hflat]
        · refine stamp_onLen hres.hdrOf fun x => ?_
          have hlen : (flat c).length - (n + 1) + (n + 1) = (flat c).length :=
            Nat.sub_add_cancel (Nat.le_trans hlast (lastLen_le c))
          rw [ofNat_sub_sub, hflat, List.length_take, Nat.min_eq_left (Nat.sub_le _ _), hlen]
        · exact onLen_ne fun e => hne (List.length_eq_zero_iff.mp (by rw [hres.length_eq, e]; rfl))
      exact ⟨hb.keeps, hb.counted⟩
    case isFalse =>
      -- Here the length is set to what is left, whatever it was.
      rw [← flat_length]
      generalize hcount : (flat c).length - (n + 1) = count
      have hle : count ≤ (flat (onLen (fun _ => .ofNat 16 count) c)).length := by
        rw [flat_onLen]
        omega
      obtain ⟨hblocks, hflat, hhdr⟩ := cutAt_spec free hle
      rw [length_onLen] at hblocks
      rw [flat_onLen] at hflat
      refine ⟨⟨cutAt_sound free hc.onLen, hblocks, hflat, ?_, ?_⟩, fun _ x hx => ?_⟩
      · rw [userOf, hhdr, hdrOf_onLen, Option.map_map]
        rfl
      · obtain ⟨b, c, rfl⟩ := List.exists_cons_of_ne_nil hne
        rw [onLen, cutAt]
        split
        case isTrue => exact List.cons_ne_nil _ _
        case isFalse => exact List.cons_ne_nil _ _
      · rw [hhdr, hdrOf_onLen] at hx
        obtain ⟨y, -, rfl⟩ := Option.map_eq_some_iff.mp hx
        show BitVec.ofNat 16 count = _
        rw [hflat, List.length_take, Nat.min_eq_left (by omega)]

/-- Buffers without data have no bytes of the chain. -/
lemma dropWhile_empty (c : List Buf) :
    flat (c.dropWhile fun b => b.data.isEmpty) = flat c := by
  induction c with
  | nil => rfl
  | cons b c ih =>
    rw [List.dropWhile_cons]
    split
    case isTrue h => rw [ih, flat_cons, List.isEmpty_iff.mp h, List.nil_append]
    case isFalse => rfl

/-- C `dpl_mbuf_trim_front`: buffers without data go, the bytes and the header stay. -/
lemma dplMbufTrimFront_becomes (hc : Sound p c) (hne : c ≠ []) (free : Nat) :
    Becomes p c free (dplMbufTrimFront p free c).1 (dplMbufTrimFront p free c).2 (flat c) := by
  obtain ⟨om, c, rfl⟩ := List.exists_cons_of_ne_nil hne
  rw [dplMbufTrimFront]
  split
  case isTrue => exact .refl hc hne
  case isFalse hdata =>
    have hnil : om.data = [] := not_not.mp hdata
    have hflat := dropWhile_empty c
    have hsub := (List.dropWhile_sublist (fun b : Buf => b.data.isEmpty) (l := c))
    dsimp only
    generalize (c.dropWhile fun b => b.data.isEmpty) = full at hflat hsub ⊢
    have hlen := hsub.length_le
    have hplain : ∀ x ∈ full, x.Fits p ∧ x.hdr = none := fun x hx => hc.rest x (hsub.subset hx)
    have hstamp : ∀ c', hdrOf c' = om.hdr → flat c' = flat (om :: c) → stamp c' = stamp (om :: c) :=
      fun c' hh hf => by rw [stamp, stamp, hh, hf, hdrOf_cons]
    cases full with
    | nil =>
      have hf : flat [om] = flat (om :: c) := by rw [flat_cons, flat_cons, ← hflat]
      refine ⟨.single hc.head, ?_, hf, hstamp _ rfl hf, List.cons_ne_nil _ _⟩
      simp only [List.length_cons, List.length_nil]
      omega
    | cons cur rest =>
      rw [List.length_cons] at hlen
      have hf : flat (om :: cur :: rest) = flat (om :: c) := by rw [flat_cons, flat_cons om, hflat]
      dsimp only
      split
      case isTrue hroom =>
        have hcur := hplain cur List.mem_cons_self
        have hsize := hcur.1.size
        have hzero : p.hdrLen cur.hdr = 0 := by rw [hcur.2]; rfl
        have hf' : flat (cur :: rest) = flat (om :: c) := by
          rw [← hf, flat_cons om, hnil, List.nil_append]
        refine ⟨.cons ⟨?_, hc.head.short⟩ fun x hx => hplain x (List.mem_cons_of_mem _ hx), ?_, hf',
          hstamp _ rfl hf', List.cons_ne_nil _ _⟩
        · show p.hdrLen om.hdr + (cur.lead + p.hdrLen cur.hdr - p.hdrLen om.hdr) + cur.data.length +
            cur.trail = p.databufLen
          omega
        · simp only [List.length_cons]
          omega
      case isFalse =>
        refine ⟨.cons hc.head hplain, ?_, hf, hstamp _ rfl hf, List.cons_ne_nil _ _⟩
        simp only [List.length_cons]
        omega

/-! ### Copies -/

/-- A chain with the same bytes in as many buffers, made of `c.length` free blocks, or none when there are not
    as many. -/
lemma dupLoop_spec {head : List Buf} (hhead : Sound p head) (hne : head ≠ [])
    (hc : ∀ x ∈ c, x.Fits p ∧ x.hdr = none) (free : Nat) :
    dupLoop p free head c = ([], free + head.length) ∧ free < c.length ∨
      ∃ c', dupLoop p free head c = (c', free - c.length) ∧ c.length ≤ free ∧ Sound p c' ∧
        c'.length = head.length + c.length ∧ flat c' = flat head ++ flat c ∧ hdrOf c' = hdrOf head := by
  induction c generalizing head free with
  | nil => exact .inr ⟨head, rfl, Nat.zero_le _, hhead, rfl, (List.append_nil _).symm, rfl⟩
  | cons b c ih =>
    have hb := hc b List.mem_cons_self
    have hsize := hb.1.size
    have hlead : b.lead ≤ p.databufLen := by omega
    have hzero : p.hdrLen b.hdr = 0 := by rw [hb.2]; rfl
    rw [dupLoop, dplMbufGet, if_neg (Nat.not_lt.mpr hlead)]
    cases free with
    | zero => exact .inl ⟨by rw [if_pos rfl]; rfl, Nat.succ_pos _⟩
    | succ free =>
      rw [if_neg (Nat.succ_ne_zero free)]
      dsimp only
      have hcopy : ((p.fresh b.lead).copyOf b).Fits p := by
        refine ⟨?_, Nat.zero_le _⟩
        show 0 + b.lead + b.data.length + (p.databufLen - b.lead - b.data.length) = p.databufLen
        omega
      have hhead' : Sound p (head ++ [(p.fresh b.lead).copyOf b]) :=
        Sound.append hne hhead fun x hx => by
          cases List.mem_singleton.mp hx
          exact ⟨hcopy, rfl⟩
      rcases ih hhead' (List.append_ne_nil_of_left_ne_nil hne _)
        (fun x hx => hc x (List.mem_cons_of_mem b hx)) free with ⟨hrun, hlt⟩ | ⟨c', hrun, hle, hs, hl, hf, hh⟩
      · refine .inl ⟨?_, Nat.succ_lt_succ hlt⟩
        rw [Nat.add_sub_cancel, hrun, List.length_append, List.length_singleton]
        congr 1
        omega
      · refine .inr ⟨c', ?_, Nat.succ_le_succ hle, hs, ?_, ?_, ?_⟩
        · rw [Nat.add_sub_cancel, hrun, List.length_cons]
          congr 1
          omega
        · rw [hl, List.length_append, List.length_singleton, List.length_cons]
          omega
        · rw [hf, flat_append, flat_cons, flat_nil, List.append_nil, List.append_assoc]
          rfl
        · rw [hh, hdrOf_append hne]

/-- C `dpl_mbuf_dup`: a chain with the same bytes and the same header, if there are as many free blocks. -/
lemma dplMbufDup_spec (hc : Sound p c) (hne : c ≠ []) (free : Nat) :
    dplMbufDup p free c = ([], free) ∧ free < c.length ∨
      ∃ c', dplMbufDup p free c = (c', free - c.length) ∧ c.length ≤ free ∧ Sound p c' ∧
        c'.length = c.length ∧ flat c' = flat c ∧ hdrOf c' = hdrOf c := by
  obtain ⟨b, c, rfl⟩ := List.exists_cons_of_ne_nil hne
  have hsize := hc.head.size
  have hlead : b.lead ≤ p.databufLen := by omega
  rw [dplMbufDup, dplMbufGet, if_neg (Nat.not_lt.mpr hlead)]
  cases free with
  | zero => exact .inl ⟨by rw [if_pos rfl], Nat.succ_pos _⟩
  | succ free =>
    rw [if_neg (Nat.succ_ne_zero free)]
    dsimp only
    generalize hhead : (if b.hdr.isSome then dplMbufCopypkthdr p (p.fresh b.lead) b else p.fresh b.lead) =
      head
    have hcopy : (head.copyOf b).Fits p ∧ (head.copyOf b).hdr = b.hdr := by
      cases hh : b.hdr with
      | none =>
        rw [hh] at hhead hsize
        subst hhead
        refine ⟨⟨?_, Nat.zero_le _⟩, rfl⟩
        have hzero : p.hdrLen none = 0 := rfl
        show 0 + b.lead + b.data.length + (p.databufLen - b.lead - b.data.length) = p.databufLen
        omega
      | some h =>
        rw [hh] at hhead
        subst hhead
        refine ⟨⟨?_, hc.head.short⟩, hh⟩
        show p.hdrLen b.hdr + 0 + b.data.length + (p.databufLen - p.hdrLen b.hdr - b.data.length) =
          p.databufLen
        omega
    rcases dupLoop_spec (Sound.single hcopy.1)
      (List.cons_ne_nil _ _) hc.rest free with ⟨hrun, hlt⟩ | ⟨c', hrun, hle, hs, hl, hf, hh⟩
    · exact .inl ⟨hrun, Nat.succ_lt_succ hlt⟩
    · refine .inr ⟨c', ?_, Nat.succ_le_succ hle, hs, ?_, ?_, ?_⟩
      · rw [Nat.add_sub_cancel, hrun, List.length_cons]
        congr 1
        omega
      · rw [hl, List.length_singleton, List.length_cons, Nat.add_comm]
      · rw [hf, flat_cons, flat_nil, List.append_nil]
        rfl
      · rw [hh]
        exact hcopy.2

end

end UwbCore.Dpl
