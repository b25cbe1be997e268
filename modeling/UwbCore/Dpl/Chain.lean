import UwbCore.Dpl.Mbuf

/-!
# What the operations make of a chain

Each operation on a chain of buffers as one on the bytes of the chain: the buffers stay well formed, no block
is lost or put back twice, and the length in the packet header is off by as much as before (`Becomes`).
-/

namespace UwbCore.Dpl

/-! ## What is kept -/

/-- The bytes of a chain. -/
def flat (c : List Buf) : List UInt8 := c.flatMap Buf.data

@[simp] lemma flat_nil : flat [] = [] := rfl

@[simp] lemma flat_cons (b : Buf) (c : List Buf) : flat (b :: c) = b.data ++ flat c := rfl

@[simp] lemma flat_append (c d : List Buf) : flat (c ++ d) = flat c ++ flat d :=
  List.flatMap_append

/-- The packet header of a chain. -/
def hdrOf (c : List Buf) : Option Pkthdr := c.head?.bind Buf.hdr

@[simp] lemma hdrOf_cons (b : Buf) (c : List Buf) : hdrOf (b :: c) = b.hdr := rfl

/-- The header is at the front. -/
lemma hdrOf_append {c : List Buf} (h : c ≠ []) (d : List Buf) : hdrOf (c ++ d) = hdrOf c := by
  cases c with
  | nil => exact absurd rfl h
  | cons b c => rfl

/-- A buffer that fills its block. -/
structure Buf.Fits (p : MbufPool) (b : Buf) : Prop where
  size : p.hdrLen b.hdr + b.lead + b.data.length + b.trail = p.databufLen
  short : p.hdrLen b.hdr ≤ 255

/-- A chain of buffers that fill their blocks, of which only the first has a packet header. -/
structure Sound (p : MbufPool) (c : List Buf) : Prop where
  fits : ∀ b ∈ c, b.Fits p
  plain : ∀ b ∈ c.tail, b.hdr = none

/-- What is in the packet header besides the length, and by how much the length is off. -/
def stamp (c : List Buf) : Option (BitVec 16 × BitVec 16 × List UInt8) :=
  (hdrOf c).map fun h => (h.len - .ofNat 16 (flat c).length, h.flags, h.user)

/-- A chain `c` becomes the chain `c'` with the bytes `bytes`, while the free blocks become `free'`. -/
structure Becomes (p : MbufPool) (c : List Buf) (free : Nat) (c' : List Buf) (free' : Nat)
    (bytes : List UInt8) : Prop where
  sound : Sound p c'
  blocks : c'.length + free' = c.length + free
  flat : flat c' = bytes
  stamp : stamp c' = stamp c
  ne : c' ≠ []

section
variable {p : MbufPool} {b : Buf} {c c' d : List Buf} {free free' : Nat} {bytes : List UInt8}

/-- A buffer and those behind it. -/
lemma Sound.cons (hb : b.Fits p) (hc : ∀ x ∈ c, x.Fits p ∧ x.hdr = none) : Sound p (b :: c) :=
  ⟨fun x hx => (List.mem_cons.mp hx).elim (fun e => e ▸ hb) fun h => (hc x h).1,
    fun x hx => (hc x hx).2⟩

/-- A single buffer. -/
lemma Sound.single (hb : b.Fits p) : Sound p [b] := .cons hb fun _ hx => absurd hx List.not_mem_nil

/-- The first buffer. -/
lemma Sound.head (h : Sound p (b :: c)) : b.Fits p := h.fits b List.mem_cons_self

/-- The buffers behind the first have no header. -/
lemma Sound.rest (h : Sound p (b :: c)) : ∀ x ∈ c, x.Fits p ∧ x.hdr = none :=
  fun x hx => ⟨h.fits x (List.mem_cons_of_mem b hx), h.plain x hx⟩

/-- More buffers without a header. -/
lemma Sound.append (hne : c ≠ []) (hc : Sound p c) (hd : ∀ x ∈ d, x.Fits p ∧ x.hdr = none) :
    Sound p (c ++ d) := by
  cases c with
  | nil => exact absurd rfl hne
  | cons b c =>
    refine .cons hc.head fun x hx => ?_
    exact (List.mem_append.mp hx).elim (hc.rest x) (hd x)

/-- One change after another. -/
lemma Becomes.trans {c'' : List Buf} {free'' : Nat} {bytes' : List UInt8}
    (h : Becomes p c free c' free' bytes) (h' : Becomes p c' free' c'' free'' bytes') :
    Becomes p c free c'' free'' bytes' :=
  ⟨h'.sound, h'.blocks.trans h.blocks, h'.flat, h'.stamp.trans h.stamp, h'.ne⟩

/-- Nothing changed. -/
lemma Becomes.refl (h : Sound p c) (hne : c ≠ []) : Becomes p c free c free (Dpl.flat c) :=
  ⟨h, rfl, rfl, rfl, hne⟩

/-! ### The length in the header -/

variable {f : BitVec 16 → BitVec 16}

@[simp] lemma flat_onLen : flat (onLen f c) = flat c := by
  cases c with
  | nil => rfl
  | cons b c => rfl

@[simp] lemma length_onLen : (onLen f c).length = c.length := by
  cases c with
  | nil => rfl
  | cons b c => rfl

/-- The length in the header is changed. -/
lemma hdrOf_onLen : hdrOf (onLen f c) = (hdrOf c).map fun h => { h with len := f h.len } := by
  cases c with
  | nil => rfl
  | cons b c => rfl

/-- The room for the header does not depend on the length in it. -/
lemma hdrLen_map {h : Option Pkthdr} :
    p.hdrLen (h.map fun h => { h with len := f h.len }) = p.hdrLen h := by
  cases h with
  | none => rfl
  | some h => rfl

/-- The length in the header is of no matter. -/
lemma Sound.onLen (h : Sound p c) : Sound p (onLen f c) := by
  cases c with
  | nil => exact h
  | cons b c =>
    refine .cons ⟨?_, ?_⟩ h.rest
    · rw [hdrLen_map]
      exact h.head.size
    · rw [hdrLen_map]
      exact h.head.short

/-- No buffer is lost. -/
lemma onLen_ne (h : c ≠ []) : onLen f c ≠ [] := by
  cases c with
  | nil => exact absurd rfl h
  | cons b c => exact List.cons_ne_nil _ _

/-- When the length is changed as the bytes are, it is off by as much as before. -/
lemma stamp_onLen (hh : hdrOf c' = hdrOf c)
    (hf : ∀ x, f x - .ofNat 16 (flat c').length = x - .ofNat 16 (flat c).length) :
    stamp (onLen f c') = stamp c := by
  rw [stamp, stamp, hdrOf_onLen, flat_onLen, hh, Option.map_map]
  exact congrArg (fun g => (hdrOf c).map g) (funext fun h => by
    show (f h.len - _, h.flags, h.user) = _
    rw [hf])

/-- In 16 bits the same is added and taken off. -/
lemma ofNat_add_sub (x : BitVec 16) (m n : Nat) :
    x + BitVec.ofNat 16 n - BitVec.ofNat 16 (m + n) = x - BitVec.ofNat 16 m := by
  rw [BitVec.ofNat_add]
  bv_omega

/-- In 16 bits two lengths are taken off. -/
lemma ofNat_sub_sub (x : BitVec 16) (m n : Nat) :
    x - BitVec.ofNat 16 n - BitVec.ofNat 16 m = x - BitVec.ofNat 16 (m + n) := by
  rw [BitVec.ofNat_add]
  bv_omega

/-! ### Buffers in their blocks -/

/-- A buffer with the same header in as much of the block. -/
structure Alike (b b' : Buf) : Prop where
  hdr : b'.hdr = b.hdr
  size : b'.lead + b'.data.length + b'.trail = b.lead + b.data.length + b.trail

/-- It fits as well. -/
lemma Alike.fits {b' : Buf} (h : Alike b b') (hb : b.Fits p) : b'.Fits p := by
  have hsize := hb.size
  have hshort := hb.short
  have := h.size
  exact ⟨by rw [h.hdr]; omega, by rw [h.hdr]; exact hshort⟩

/-- Buffer by buffer the same, apart from where the data is and what it is. -/
abbrev Resized : List Buf → List Buf → Prop := List.Forall₂ Alike

/-- Nothing changed. -/
lemma Resized.refl (c : List Buf) : Resized c c := List.forall₂_same.mpr fun _ _ => ⟨rfl, rfl⟩

/-- The header stays. -/
lemma Resized.hdrOf (h : Resized c c') : hdrOf c' = hdrOf c := by
  cases h with
  | nil => rfl
  | cons hb _ => exact hb.hdr

/-- Buffers without a header. -/
lemma Resized.plain (h : Resized c c') (hc : ∀ x ∈ c, x.Fits p ∧ x.hdr = none) :
    ∀ x ∈ c', x.Fits p ∧ x.hdr = none := by
  induction h with
  | nil => exact hc
  | cons hb _ ih =>
    have hhead := hc _ List.mem_cons_self
    have htail := ih fun x hx => hc x (List.mem_cons_of_mem _ hx)
    intro x hx
    cases List.mem_cons.mp hx with
    | inl e => exact e ▸ ⟨hb.fits hhead.1, hb.hdr.trans hhead.2⟩
    | inr hx => exact htail x hx

/-- The chain stays sound. -/
lemma Resized.sound (h : Resized c c') (hc : Sound p c) : Sound p c' := by
  cases h with
  | nil => exact hc
  | cons hb hrest => exact .cons (hb.fits hc.head) (Resized.plain hrest hc.rest)

/-! ### Adding at the end -/

/-- Filling the last buffer changes only its data. -/
lemma fillLast_resized (c : List Buf) (bytes : List UInt8) : Resized c (fillLast c bytes).1 := by
  fun_induction fillLast c bytes with
  | case1 => exact .nil
  | case2 b bytes space =>
    refine .cons ⟨rfl, ?_⟩ .nil
    show b.lead + (b.data ++ bytes.take space).length + (b.trail - space) = _
    rw [List.length_append, List.length_take]
    omega
  | case3 b next c bytes c' rest heq ih =>
    rw [heq] at ih
    exact .cons ⟨rfl, rfl⟩ ih

/-- The room is that of the last buffer. -/
lemma lastRoom_cons (b next : Buf) (c : List Buf) :
    lastRoom (b :: next :: c) = lastRoom (next :: c) := rfl

/-- The room is that of the chain behind. -/
lemma lastRoom_append (hne : d ≠ []) : lastRoom (c ++ d) = lastRoom d := by
  rw [lastRoom, lastRoom, List.getLast?_append_of_ne_nil _ hne]

@[simp] lemma lastRoom_onLen : lastRoom (onLen f c) = lastRoom c := by
  cases c with
  | nil => rfl
  | cons b c =>
    cases c with
    | nil => rfl
    | cons b' c => rfl

/-- The last buffer takes as many bytes as there is space for. -/
lemma fillLast_spec (hne : c ≠ []) (bytes : List UInt8) :
    (fillLast c bytes).2 = bytes.drop (lastRoom c) ∧
      flat (fillLast c bytes).1 = flat c ++ bytes.take (lastRoom c) ∧
      lastRoom (fillLast c bytes).1 = lastRoom c - bytes.length := by
  fun_induction fillLast c bytes with
  | case1 => exact absurd rfl hne
  | case2 b bytes space =>
    have hroom : lastRoom [b] = b.trail := rfl
    rw [hroom]
    refine ⟨?_, ?_, ?_⟩
    · exact List.drop_eq_drop_min.symm
    · rw [flat_cons, flat_nil, List.append_nil, flat_cons, flat_nil, List.append_nil]
      exact congrArg _ List.take_eq_take_min.symm
    · show b.trail - space = _
      omega
  | case3 b next c bytes c' rest heq ih =>
    rw [heq] at ih
    obtain ⟨hrest, hflat, hroom⟩ := ih (List.cons_ne_nil _ _)
    have hne' : c' ≠ [] := by
      intro e
      have := (fillLast_resized (next :: c) bytes).length_eq
      rw [heq, e] at this
      cases this
    obtain ⟨x, c', rfl⟩ := List.exists_cons_of_ne_nil hne'
    rw [lastRoom_cons, lastRoom_cons]
    exact ⟨hrest, by rw [flat_cons, hflat, flat_cons b, List.append_assoc], hroom⟩

/-- New buffers take as many bytes as there are free blocks for. -/
lemma addBufs_spec (p : MbufPool) (free : Nat) (bytes : List UInt8) :
    (addBufs p free bytes).2.2 = bytes.drop (free * p.databufLen) ∧
      flat (addBufs p free bytes).1 = bytes.take (free * p.databufLen) ∧
      (addBufs p free bytes).1.length + (addBufs p free bytes).2.1 = free ∧
      ((addBufs p free bytes).1 = [] ∧ (bytes = [] ∨ free = 0) ∨
        (addBufs p free bytes).1 ≠ [] ∧ bytes ≠ [] ∧
          lastRoom (addBufs p free bytes).1 + (addBufs p free bytes).2.1 * p.databufLen =
            free * p.databufLen - bytes.length) := by
  fun_induction addBufs p free bytes with
  | case1 free => exact ⟨List.drop_nil.symm, List.take_nil.symm, Nat.zero_add _, .inl ⟨rfl, .inl rfl⟩⟩
  | case2 b bytes =>
    rw [Nat.zero_mul]
    exact ⟨rfl, rfl, rfl, .inl ⟨rfl, .inr rfl⟩⟩
  | case3 free b bytes new part c free' rest heq ih =>
    rw [heq] at ih
    obtain ⟨hrest, hflat, hlen, hroom⟩ := ih
    dsimp only at hrest hflat hlen hroom ⊢
    have hmul : (free + 1) * p.databufLen = p.databufLen + free * p.databufLen := by
      rw [Nat.succ_mul, Nat.add_comm]
    have hpart : part.length = min p.databufLen (b :: bytes).length := List.length_take
    have hdrop : ((b :: bytes).drop p.databufLen).length = (b :: bytes).length - p.databufLen :=
      List.length_drop
    refine ⟨?_, ?_, ?_, .inr ⟨List.cons_ne_nil _ _, List.cons_ne_nil _ _, ?_⟩⟩
    · rw [hrest, List.drop_drop, hmul]
    · rw [flat_cons, hflat, hmul, List.take_add]
    · rw [List.length_cons]
      omega
    · rw [hmul]
      rcases hroom with ⟨rfl, hend⟩ | ⟨hne, hmore, hroom⟩
      · show p.databufLen - 0 - part.length + free' * p.databufLen = _
        have hfree : free' = free := by simpa using hlen
        rw [hfree, hpart]
        rcases hend with hnil | rfl
        · rw [hnil, List.length_nil] at hdrop
          generalize free * p.databufLen = space
          omega
        · omega
      · have hlast : lastRoom ({ new with data := part, trail := new.trail - part.length } :: c) =
            lastRoom c := by
          obtain ⟨x, c, rfl⟩ := List.exists_cons_of_ne_nil hne
          rfl
        have hpos := List.length_pos_of_ne_nil hmore
        rw [hlast, hroom, hdrop]
        generalize free * p.databufLen = space
        omega

/-- A fresh buffer fits. -/
lemma fresh_fits {lead : Nat} (h : lead ≤ p.databufLen) : (p.fresh lead).Fits p := by
  refine ⟨?_, Nat.zero_le _⟩
  show 0 + lead + 0 + (p.databufLen - lead) = p.databufLen
  omega

/-- The buffers that are added have no header. -/
lemma addBufs_plain (p : MbufPool) (free : Nat) (bytes : List UInt8) :
    ∀ x ∈ (addBufs p free bytes).1, x.Fits p ∧ x.hdr = none := by
  fun_induction addBufs p free bytes with
  | case1 => exact fun x hx => nomatch hx
  | case2 => exact fun x hx => nomatch hx
  | case3 free b bytes new part c free' rest heq ih =>
    rw [heq] at ih
    intro x hx
    cases List.mem_cons.mp hx with
    | inr hx => exact ih x hx
    | inl e =>
      subst e
      refine ⟨⟨?_, Nat.zero_le _⟩, rfl⟩
      have hpart : part.length ≤ p.databufLen := List.length_take_le _ _
      show 0 + 0 + part.length + (p.databufLen - 0 - part.length) = p.databufLen
      omega

/-- The bytes for which there is memory behind a chain. -/
def room (p : MbufPool) (free : Nat) (c : List Buf) : Nat := lastRoom c + free * p.databufLen

/-- C `dpl_mbuf_append`: the bytes are appended as far as there is memory for them. -/
lemma dplMbufAppend_becomes (hc : Sound p c) (hne : c ≠ []) (free : Nat) (bytes : List UInt8) :
    ∃ c' free', dplMbufAppend p free c bytes =
        (c', free', if bytes.length ≤ room p free c then .ok else .enomem) ∧
      Becomes p c free c' free' (flat c ++ bytes.take (room p free c)) ∧
      room p free' c' = room p free c - bytes.length := by
  obtain ⟨b, c, rfl⟩ := List.exists_cons_of_ne_nil hne
  have hres := fillLast_resized (b :: c) bytes
  obtain ⟨hleft, hflat, hroom⟩ := fillLast_spec hne bytes
  rw [dplMbufAppend]
  generalize fillLast (b :: c) bytes = r at hres hleft hflat hroom ⊢
  obtain ⟨filled, left⟩ := r
  dsimp only at hres hleft hflat hroom ⊢
  obtain ⟨hrest, hadd, hblocks, hnew⟩ := addBufs_spec p free left
  have hplain := addBufs_plain p free left
  generalize addBufs p free left = r at hrest hadd hblocks hnew hplain ⊢
  obtain ⟨new, free', rest⟩ := r
  dsimp only at hrest hadd hblocks hnew hplain ⊢
  have hlength := hres.length_eq
  have hfilled : filled ≠ [] := fun e => by
    rw [e] at hlength
    cases hlength
  have hrest' : rest = bytes.drop (room p free (b :: c)) := by
    rw [hrest, hleft, List.drop_drop]
    rfl
  have hflat' : flat (filled ++ new) = flat (b :: c) ++ bytes.take (room p free (b :: c)) := by
    rw [flat_append, hflat, hadd, hleft, List.append_assoc, ← List.take_add]
    rfl
  refine ⟨onLen (· + .ofNat 16 (bytes.length - rest.length)) (filled ++ new), free', ?_,
    ⟨?_, ?_, ?_, ?_, ?_⟩, ?_⟩
  · have hnil : rest = [] ↔ bytes.length ≤ room p free (b :: c) := by rw [hrest', List.drop_eq_nil_iff]
    simp only [hnil]
  · exact (Sound.append hfilled (hres.sound hc) hplain).onLen
  · rw [length_onLen, List.length_append, ← hlength]
    omega
  · rw [flat_onLen, hflat']
  · refine stamp_onLen (by rw [hdrOf_append hfilled, hres.hdrOf]) fun x => ?_
    have hlen : (flat (filled ++ new)).length =
        (flat (b :: c)).length + (bytes.length - rest.length) := by
      rw [hflat', hrest', List.length_append, List.length_take, List.length_drop]
      omega
    rw [hlen]
    exact ofNat_add_sub x _ _
  · exact onLen_ne (List.append_ne_nil_of_left_ne_nil hfilled new)
  · have hleft' : left.length = bytes.length - lastRoom (b :: c) := by rw [hleft, List.length_drop]
    rw [room, room, lastRoom_onLen]
    rcases hnew with ⟨rfl, hend⟩ | ⟨hne', hbytes, hspace⟩
    · have hfree : free' = free := by simpa using hblocks
      rw [List.append_nil, hroom, hfree]
      rcases hend with hnil | rfl
      · rw [hnil, List.length_nil] at hleft'
        generalize free * p.databufLen = space
        omega
      · omega
    · have hpos : 0 < left.length := List.length_pos_of_ne_nil hbytes
      rw [lastRoom_append hne', hspace, hleft']
      generalize free * p.databufLen = space
      omega

end

end UwbCore.Dpl
