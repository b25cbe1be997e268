import UwbCore.Dpl.Trimming

/-!
# The front of a chain

Prepending and pulling up as operations on the bytes of a chain. Where they need a block that is not there
they free the whole chain instead.
-/

namespace UwbCore.Dpl

section
variable {p : MbufPool} {b : Buf} {c c' d : List Buf} {free free' : Nat} {bytes : List UInt8}

/-! ### The front -/

/-- The bytes for which there is memory before a chain: each new head takes the packet header over. -/
def headRoom (p : MbufPool) (free : Nat) (c : List Buf) : Nat :=
  (c.head?.map fun b => b.lead + free * (p.databufLen - p.hdrLen b.hdr)).getD 0

/-- The room before a chain is that before its first buffer. -/
lemma headRoom_cons (free : Nat) (b : Buf) (c : List Buf) :
    headRoom p free (b :: c) = b.lead + free * (p.databufLen - p.hdrLen b.hdr) := rfl

/-- The new head is empty, with the packet header and all of its block before the data. -/
lemma newHead_spec {new : Buf} (hb : b.Fits p) (h : newHead p free b = some (new, free')) :
    new.Fits p ∧ new.hdr = b.hdr ∧ new.data = [] ∧ new.lead = p.databufLen - p.hdrLen b.hdr := by
  rw [newHead] at h
  split at h
  case h_1 hh =>
    obtain ⟨⟨x, free1⟩, hget, he⟩ := Option.map_eq_some_iff.mp h
    obtain ⟨-, rfl, -⟩ := dplMbufGet_some hget
    cases he
    refine ⟨⟨?_, Nat.zero_le _⟩, hh.symm, rfl, ?_⟩
    · show 0 + (0 + (p.databufLen - 0)) + 0 + 0 = p.databufLen
      omega
    · rw [hh]
      exact Nat.zero_add _
  case h_2 x hh =>
    obtain ⟨⟨y, free1⟩, hget, he⟩ := Option.map_eq_some_iff.mp h
    obtain ⟨-, -, rfl, -⟩ := dplMbufGetPkthdr_some hget
    cases he
    have hsize := hb.size
    refine ⟨⟨?_, hb.short⟩, rfl, rfl, Nat.zero_add _⟩
    show p.hdrLen b.hdr + (0 + (p.databufLen - p.hdrLen b.hdr)) + 0 + 0 = p.databufLen
    omega

/-- There is no new head only without a free block: the packet header of a chain fits a block. -/
lemma newHead_none (hb : b.Fits p) (h : newHead p free b = none) : free = 0 := by
  by_contra hfree
  have hsize := hb.size
  have hshort := hb.short
  rw [newHead] at h
  split at h
  case h_1 =>
    rw [dplMbufGet, if_neg (Nat.not_lt_zero _), if_neg hfree] at h
    cases h
  case h_2 x hh =>
    have hlen : p.hdrLen b.hdr = p.pkthdrSize + x.user.length := by
      rw [hh]
      rfl
    rw [dplMbufGetPkthdr] at h
    dsimp only at h
    rw [if_neg (by omega), dplMbufGet, if_neg (Nat.not_lt_zero _), if_neg hfree] at h
    cases h

/-- The loop puts the bytes before the others where there is memory for them, or frees the chain. -/
lemma prependLoop_spec (hc : Sound p (b :: c)) (free : Nat) (bytes : List UInt8) :
    prependLoop p free b c bytes = ([], free + (b :: c).length) ∧
        headRoom p free (b :: c) < bytes.length ∨
      Becomes p (b :: c) free (prependLoop p free b c bytes).1 (prependLoop p free b c bytes).2
        (bytes ++ flat (b :: c)) ∧ bytes.length ≤ headRoom p free (b :: c) := by
  induction free using Nat.strong_induction_on generalizing b c bytes with
  | h free ih =>
    rw [prependLoop]
    generalize hlead : min bytes.length b.lead = leading
    generalize hleft : bytes.length - leading = left
    have hsize := hc.head.size
    have hdrop : (bytes.drop left).length = leading := by
      rw [List.length_drop]
      omega
    -- The head with what fits before its data.
    generalize hom : ({ b with
        lead := b.lead - leading
        data := bytes.drop left ++ b.data
        hdr := b.hdr.map fun h => { h with len := h.len + .ofNat 16 leading } } : Buf) = om
    have hdata : om.data = bytes.drop left ++ b.data := by rw [← hom]
    have hone : onLen (· + .ofNat 16 leading) ({ b with
        lead := b.lead - leading
        data := bytes.drop left ++ b.data } :: c) = om :: c := by rw [← hom]; rfl
    have hfit : Alike b { b with lead := b.lead - leading, data := bytes.drop left ++ b.data } := by
      refine ⟨rfl, ?_⟩
      show b.lead - leading + (bytes.drop left ++ b.data).length + b.trail = _
      rw [List.length_append, hdrop]
      omega
    have hb : Becomes p (b :: c) free (om :: c) free (bytes.drop left ++ flat (b :: c)) := by
      have hf : flat ({ b with lead := b.lead - leading, data := bytes.drop left ++ b.data } :: c) =
          bytes.drop left ++ flat (b :: c) := by rw [flat_cons, flat_cons, List.append_assoc]
      rw [← hone]
      refine ⟨(Sound.cons (hfit.fits hc.head) hc.rest).onLen, rfl, by rw [flat_onLen, hf], ?_,
        onLen_ne (List.cons_ne_nil _ _)⟩
      refine stamp_onLen rfl fun x => ?_
      rw [hf, List.length_append, hdrop, Nat.add_comm]
      exact ofNat_add_sub x _ _
    split
    case isTrue h0 =>
      rw [h0, List.drop_zero] at hb
      refine .inr ⟨hb, ?_⟩
      rw [headRoom_cons]
      omega
    case isFalse h0 =>
      split
      case h_1 hnone =>
        obtain rfl := newHead_none hb.sound.head hnone
        refine .inl ⟨rfl, ?_⟩
        rw [headRoom_cons, Nat.zero_mul]
        omega
      case h_2 new free1 hnew =>
        obtain ⟨hfits, hhdr, hnil, hroom⟩ := newHead_spec hb.sound.head hnew
        have hlt := newHead_lt hnew
        have hlen : p.hdrLen om.hdr = p.hdrLen b.hdr := by
          rw [← hom]
          exact hdrLen_map (f := fun x => x + .ofNat 16 leading)
        have htake : (bytes.take left).length = left := by
          rw [List.length_take]
          omega
        -- One block less, and the space of the new head more.
        have hmore : headRoom p free (b :: c) =
            b.lead + headRoom p free1 (new :: dropHdr p (om :: c)) := by
          rw [headRoom_cons, headRoom_cons, hroom, hhdr, hlen, hlt, Nat.succ_mul]
          omega
        have hs : Sound p (new :: dropHdr p (om :: c)) := .cons hfits (dropHdr_plain hb.sound)
        have hf : flat (new :: dropHdr p (om :: c)) = flat (om :: c) := by
          rw [flat_cons, hnil, List.nil_append, flat_dropHdr]
        have hb2 : Becomes p (b :: c) free (new :: dropHdr p (om :: c)) free1
            (bytes.drop left ++ flat (b :: c)) := by
          refine ⟨hs, ?_, by rw [hf, hb.flat], ?_, List.cons_ne_nil _ _⟩
          · rw [List.length_cons, length_dropHdr, List.length_cons, List.length_cons]
            omega
          · rw [← hb.stamp, stamp, stamp, hf, hdrOf_cons, hdrOf_cons, hhdr]
        rcases ih free1 (by omega) hs (bytes.take left) with ⟨hrun, hshort⟩ | ⟨hrun, henough⟩
        · refine .inl ⟨?_, by omega⟩
          rw [hrun, List.length_cons, length_dropHdr, List.length_cons, List.length_cons]
          congr 1
          omega
        · refine .inr ⟨?_, by omega⟩
          have hbytes : bytes ++ flat (b :: c) =
              bytes.take left ++ flat (new :: dropHdr p (om :: c)) := by
            rw [hf, hb.flat, ← List.append_assoc, List.take_append_drop]
          rw [hbytes]
          exact hb2.trans hrun

/-- C `dpl_mbuf_prepend`: the bytes are put before the others where there is memory for them, or the chain
    is freed. -/
lemma dplMbufPrepend_spec (hc : Sound p c) (hne : c ≠ []) (free : Nat) (bytes : List UInt8) :
    dplMbufPrepend p free c bytes = ([], free + c.length) ∧ headRoom p free c < bytes.length ∨
      Becomes p c free (dplMbufPrepend p free c bytes).1 (dplMbufPrepend p free c bytes).2
        (bytes ++ flat c) ∧ bytes.length ≤ headRoom p free c := by
  obtain ⟨b, c, rfl⟩ := List.exists_cons_of_ne_nil hne
  exact prependLoop_spec hc free bytes

/-- What is kept when data is moved to the end of a buffer with space for all that is wanted. -/
structure Pulled (p : MbufPool) (b : Buf) (c : List Buf) (free len : Nat) (r : Buf × List Buf × Nat × Nat) :
    Prop where
  alike : Alike b r.1
  plain : ∀ x ∈ r.2.1, x.Fits p ∧ x.hdr = none
  bytes : r.1.data ++ flat r.2.1 = b.data ++ flat c
  blocks : r.2.1.length + r.2.2.1 = c.length + free
  got : r.1.data.length + r.2.2.2 = b.data.length + len
  done : r.2.2.2 = 0 ∨ r.2.1 = []

/-- The loop takes what is wanted as far as the chain goes. -/
lemma pullupLoop_done {len : Nat} (hc : ∀ x ∈ c, x.Fits p ∧ x.hdr = none) (hlen : len ≤ b.trail)
    (free : Nat) : Pulled p b c free len (pullupLoop b c free len) := by
  induction c generalizing b free len with
  | nil => exact ⟨⟨rfl, rfl⟩, hc, rfl, rfl, rfl, .inr rfl⟩
  | cons om c ih =>
    rw [pullupLoop]
    generalize hcount : min (min len b.trail) om.data.length = count
    have hom := hc om List.mem_cons_self
    have htake : (om.data.take count).length = count := by
      rw [List.length_take]
      omega
    have halike : Alike b { b with data := b.data ++ om.data.take count, trail := b.trail - count } := by
      refine ⟨rfl, ?_⟩
      show b.lead + (b.data ++ om.data.take count).length + (b.trail - count) = _
      rw [List.length_append, htake]
      omega
    have hgot : (b.data ++ om.data.take count).length + (len - count) = b.data.length + len := by
      rw [List.length_append, htake]
      omega
    split
    case isTrue hlt =>
      have hsize := hom.1.size
      refine ⟨halike, fun x hx => ?_, ?_, rfl, hgot, .inl ?_⟩
      · cases List.mem_cons.mp hx with
        | inr hx => exact hc x (List.mem_cons_of_mem om hx)
        | inl e =>
          subst e
          refine ⟨⟨?_, hom.1.short⟩, hom.2⟩
          show p.hdrLen om.hdr + (om.lead + count) + (om.data.drop count).length + om.trail = p.databufLen
          rw [List.length_drop]
          omega
      · show b.data ++ om.data.take count ++ (om.data.drop count ++ flat c) = b.data ++ (om.data ++ flat c)
        rw [List.append_assoc, ← List.append_assoc (om.data.take count), List.take_append_drop]
      · show len - count = 0
        omega
    case isFalse hge =>
      have hall : om.data.take count = om.data := List.take_of_length_le (by omega)
      rw [hall] at halike hgot ⊢
      have hcl : count = om.data.length := by omega
      split
      case isTrue h0 =>
        refine ⟨halike, fun x hx => hc x (List.mem_cons_of_mem om hx), ?_, ?_, ?_, .inl rfl⟩
        · show b.data ++ om.data ++ flat c = b.data ++ (om.data ++ flat c)
          rw [List.append_assoc]
        · show c.length + (free + 1) = (om :: c).length + free
          rw [List.length_cons]
          omega
        · rw [h0] at hgot
          exact hgot
      case isFalse =>
        have hrest := @ih { b with data := b.data ++ om.data, trail := b.trail - count } (len - count)
          (fun x hx => hc x (List.mem_cons_of_mem om hx)) (by dsimp only; omega) (free + 1)
        refine ⟨⟨hrest.alike.hdr, hrest.alike.size.trans halike.size⟩, hrest.plain, ?_, ?_, ?_, hrest.done⟩
        · rw [hrest.bytes, flat_cons, List.append_assoc]
        · rw [hrest.blocks, List.length_cons]
          omega
        · rw [hrest.got]
          exact hgot

/-- The chain has the bytes that are wanted in its first buffer, or it is too short and freed. -/
lemma pullupEnd_spec {len : Nat} {r : Buf × List Buf × Nat × Nat} (hb : b.Fits p)
    (h : Pulled p b c free len r) :
    pullupEnd r = ([], free + c.length + 1) ∧ (flat c).length < len ∨
      ((pullupEnd r).1.length + (pullupEnd r).2 = c.length + 1 + free ∧ Sound p (pullupEnd r).1 ∧
        flat (pullupEnd r).1 = b.data ++ flat c ∧ hdrOf (pullupEnd r).1 = b.hdr ∧
        ∃ om2 rest, (pullupEnd r).1 = om2 :: rest ∧ b.data.length + len ≤ om2.data.length) ∧
        len ≤ (flat c).length := by
  obtain ⟨om2, rest, free', len'⟩ := r
  obtain ⟨halike, hplain, hbytes, hblocks, hgot, hdone⟩ := h
  dsimp only at halike hplain hbytes hblocks hgot hdone
  have hsum := congrArg List.length hbytes
  rw [List.length_append, List.length_append] at hsum
  rw [pullupEnd]
  split
  case isTrue hpos =>
    rcases hdone with h0 | rfl
    · omega
    · rw [flat_nil, List.length_nil] at hsum
      refine .inl ⟨?_, by omega⟩
      rw [dplMbufFreeChain]
      rw [List.length_nil] at hblocks ⊢
      congr 1
      omega
  case isFalse hpos =>
    refine .inr ⟨⟨?_, .cons (halike.fits hb) hplain, hbytes, halike.hdr, om2, rest, rfl, by omega⟩,
      by omega⟩
    rw [List.length_cons]
    dsimp only
    omega

/-- The new head of `dpl_mbuf_pullup`, with the header of the old one. -/
lemma pullupHead_spec {om2 : Buf} (hb : b.Fits p)
    (h : (if b.hdr.isSome then dplMbufCopypkthdr p (p.fresh 0) b else p.fresh 0) = om2) :
    om2.Fits p ∧ om2.hdr = b.hdr ∧ om2.data = [] ∧ om2.trail = p.databufLen - p.hdrLen b.hdr := by
  have hsize := hb.size
  cases hh : b.hdr with
  | none =>
    rw [hh, Option.isSome_none, if_neg Bool.false_ne_true] at h
    subst h
    exact ⟨fresh_fits (Nat.zero_le _), rfl, rfl, rfl⟩
  | some x =>
    rw [hh, Option.isSome_some, if_pos rfl] at h
    subst h
    refine ⟨⟨?_, hb.short⟩, hh, rfl, hh ▸ rfl⟩
    show p.hdrLen b.hdr + 0 + 0 + (p.databufLen - p.hdrLen b.hdr) = p.databufLen
    omega

/-- A chain has `len` bytes, and there is space for them in its first buffer or in a new one. -/
def CanPullup (p : MbufPool) (free : Nat) (c : List Buf) (len : Nat) : Prop :=
  len ≤ (flat c).length ∧ ∀ b ∈ c.head?, len ≤ b.data.length + b.trail ∨
    len ≤ p.databufLen - p.hdrLen b.hdr ∧ 0 < free

/-- C `dpl_mbuf_pullup`: the first `len` bytes are in the first buffer if they can be, or the chain is
    freed. -/
lemma dplMbufPullup_spec {len : Nat} (hc : Sound p c) (hne : c ≠ []) (free : Nat) :
    dplMbufPullup p free c len = ([], free + c.length) ∧ ¬CanPullup p free c len ∨
      (Becomes p c free (dplMbufPullup p free c len).1 (dplMbufPullup p free c len).2 (flat c) ∧
        ∃ b rest, (dplMbufPullup p free c len).1 = b :: rest ∧ len ≤ b.data.length) ∧
        CanPullup p free c len := by
  obtain ⟨b, c, rfl⟩ := List.exists_cons_of_ne_nil hne
  have hflat : (flat (b :: c)).length = b.data.length + (flat c).length := by
    rw [flat_cons, List.length_append]
  -- Whether it can be done, for the buffer that the chain begins with.
  have hcan : CanPullup p free (b :: c) len ↔ len ≤ b.data.length + (flat c).length ∧
      (len ≤ b.data.length + b.trail ∨ len ≤ p.databufLen - p.hdrLen b.hdr ∧ 0 < free) := by
    rw [CanPullup, hflat]
    simp only [List.head?_cons, Option.mem_some_iff, forall_eq']
  -- A chain with the bytes and the header of this one is what it becomes.
  have hend : ∀ (c' : List Buf) (free' : Nat), c'.length + free' = (b :: c).length + free → Sound p c' →
      flat c' = flat (b :: c) → hdrOf c' = b.hdr → c' ≠ [] →
      Becomes p (b :: c) free c' free' (flat (b :: c)) := fun c' free' hl hs hf hh hne' =>
    ⟨hs, hl, hf, by rw [stamp, stamp, hf, hh, hdrOf_cons], hne'⟩
  rw [hcan, dplMbufPullup]
  split
  case isTrue hle => exact .inr ⟨⟨.refl hc hne, b, c, rfl, hle⟩, by omega, .inl (by omega)⟩
  case isFalse hlt =>
    split
    case isTrue hroom =>
      have hp := pullupLoop_done hc.rest (show len - b.data.length ≤ b.trail by omega) free
      rcases pullupEnd_spec hc.head hp with
        ⟨hfail, hshort⟩ | ⟨⟨hblocks, hs, hf, hh, om2, rest, he, hgot⟩, henough⟩
      · refine .inl ⟨?_, by omega⟩
        rw [hfail, List.length_cons]
        rfl
      · refine .inr ⟨⟨hend _ _ (by rw [hblocks, List.length_cons]) hs hf hh
          (by rw [he]; exact List.cons_ne_nil _ _), om2, rest, he, by omega⟩, by omega, .inl hroom.1⟩
    case isFalse hroom =>
      -- In a chain of one buffer there are no more bytes, and in a longer one there is no space.
      have hno : len ≤ b.data.length + (flat c).length → ¬len ≤ b.data.length + b.trail := by
        intro hbytes htrail
        rcases c with _ | ⟨next, c⟩
        · rw [flat_nil, List.length_nil] at hbytes
          omega
        · exact hroom ⟨htrail, List.cons_ne_nil _ _⟩
      split
      case isTrue hsize =>
        refine .inl ⟨rfl, ?_⟩
        rintro ⟨hbytes, htrail | hnew⟩
        · exact hno hbytes htrail
        · omega
      case isFalse hsize =>
        rw [dplMbufGet, if_neg (Nat.not_lt_zero _)]
        cases free with
        | zero =>
          rw [if_pos rfl]
          refine .inl ⟨rfl, ?_⟩
          rintro ⟨hbytes, htrail | hnew⟩
          · exact hno hbytes htrail
          · omega
        | succ free =>
          rw [if_neg (Nat.succ_ne_zero free)]
          dsimp only
          generalize hom2 : (if b.hdr.isSome then dplMbufCopypkthdr p (p.fresh 0) b else p.fresh 0) = om2
          obtain ⟨hfit, hhdr, hnil, htrail⟩ := pullupHead_spec hc.head hom2
          -- The first round takes all of the old head, so that it is freed.
          have hfirst : pullupLoop om2 (b :: c) free len =
              pullupLoop { om2 with
                data := om2.data ++ b.data
                trail := om2.trail - b.data.length } c (free + 1) (len - b.data.length) := by
            have hcount : min (min len om2.trail) b.data.length = b.data.length := by omega
            rw [pullupLoop, hcount, List.take_length, if_neg (Nat.lt_irrefl _), if_neg (by omega)]
          rw [Nat.add_sub_cancel, hfirst]
          have halike : Alike om2 { om2 with
              data := om2.data ++ b.data
              trail := om2.trail - b.data.length } := by
            refine ⟨rfl, ?_⟩
            show om2.lead + (om2.data ++ b.data).length + (om2.trail - b.data.length) = _
            rw [List.length_append]
            omega
          have hp := pullupLoop_done (b := { om2 with
            data := om2.data ++ b.data
            trail := om2.trail - b.data.length }) hc.rest
            (show len - b.data.length ≤ om2.trail - b.data.length by omega) (free + 1)
          rcases pullupEnd_spec (halike.fits hfit) hp with
            ⟨hfail, hshort⟩ | ⟨⟨hblocks, hs, hf, hh, om3, rest, he, hgot⟩, henough⟩
          · refine .inl ⟨?_, by omega⟩
            rw [hfail, List.length_cons]
            rfl
          · refine .inr ⟨⟨hend _ _ ?_ hs ?_ (hh.trans hhdr) (by rw [he]; exact List.cons_ne_nil _ _), om3,
              rest, he, ?_⟩, by omega, .inr ⟨by omega, Nat.succ_pos free⟩⟩
            · rw [hblocks, List.length_cons]
            · rw [hf, hnil, List.nil_append]
              rfl
            · have hall : (om2.data ++ b.data).length + (len - b.data.length) ≤ om3.data.length := hgot
              rw [List.length_append] at hall
              omega

/-- C `dpl_mbuf_prepend_pullup`: the bytes are put before the others and lie in the first buffer, or the chain
    is freed. -/
theorem dplMbufPrependPullup_spec (hc : Sound p c) (hne : c ≠ []) (free : Nat) (bytes : List UInt8) :
    dplMbufPrependPullup p free c bytes = ([], free + c.length) ∨
      Becomes p c free (dplMbufPrependPullup p free c bytes).1
          (dplMbufPrependPullup p free c bytes).2 (bytes ++ flat c) ∧
        ∃ b rest, (dplMbufPrependPullup p free c bytes).1 = b :: rest ∧
          bytes.length ≤ b.data.length := by
  rw [dplMbufPrependPullup]
  rcases dplMbufPrepend_spec hc hne free bytes with ⟨hfail, -⟩ | ⟨hb, -⟩
  · rw [hfail]
    exact .inl rfl
  · generalize dplMbufPrepend p free c bytes = r at hb ⊢
    obtain ⟨c', free'⟩ := r
    dsimp only at hb ⊢
    rcases @dplMbufPullup_spec p c' bytes.length hb.sound hb.ne free' with ⟨hfail, -⟩ | ⟨⟨hb', hfirst⟩, -⟩
    · refine .inl ?_
      rw [hfail, Nat.add_comm free', hb.blocks, Nat.add_comm]
    · rw [hb.flat] at hb'
      exact .inr ⟨hb.trans hb', hfirst⟩

end

end UwbCore.Dpl
