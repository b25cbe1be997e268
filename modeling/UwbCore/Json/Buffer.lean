import Mathlib.Data.List.TakeWhile
import UwbCore.Lib.Run
import UwbCore.Lib.Table

/-!
# The line buffers of the JSON encoders

The encoders hand their text piece by piece to `rng_write_line`, `ccp_write_line` or `wcs_write_line`,
which collect it in the `iobuf` of their structure. The bytes go to the index modulo the size of the
buffer, the index itself is a 16-bit number that only counts up, and the test for the end of a line
looks at the byte before the unreduced index.

A buffer keeps a record of its accesses (`LineBuf.accesses`), so that one outside of it is seen. The
loop over the bytes has a 16-bit counter: a write of 2^16 bytes or more without a NUL among the first
2^16 never returns.
-/

namespace UwbCore.Json
open UwbCore.Lib

/-! ## The writers -/

/-- `iobuf` and `idx` of a JSON structure, with the indices of `iobuf` that were read or written
    (newest first), the byte written last, and whether a write is in its loop for ever. -/
structure LineBuf where
  iobuf : Table UInt8
  idx : UInt16
  accesses : List Int
  last : Option UInt8
  looping : Bool

/-- A buffer that no line was written to. -/
def LineBuf.fresh (iobuf : Table UInt8) : LineBuf where
  iobuf := iobuf
  idx := 0
  accesses := []
  last := none
  looping := false

/-- `json->iobuf[(json->idx++)%BUFSIZE] = c` -/
def LineBuf.put (bufsize : Nat) (b : LineBuf) (c : UInt8) : LineBuf where
  iobuf := b.iobuf.modify (b.idx.toNat % bufsize) fun _ => c
  idx := b.idx + 1
  accesses := Int.ofNat (b.idx.toNat % bufsize) :: b.accesses
  last := some c
  looping := b.looping

/-- The loop over the bytes of a write, and whether it came to its end. -/
def writeLoop (bufsize : Nat) (data : List UInt8) : Nat → UInt16 → LineBuf → LineBuf × Bool
  | 0, _, b => (b, false)
  | fuel + 1, i, b =>
    match data[i.toNat]? with
    | none => (b, true)
    | some c =>
      if c = 0 then (b.put bufsize c, true)
      else writeLoop bufsize data fuel (i + 1) (b.put bufsize c)

/-- `json->iobuf[i]`; `around` is the memory outside of the buffer. -/
def LineBuf.byteAt (around : Int → UInt8) (bufsize : Nat) (b : LineBuf) (i : Int) : UInt8 :=
  if 0 ≤ i ∧ i < bufsize then b.iobuf i.toNat else around i

/-- `if (json->iobuf[json->idx-1]=='\0') json->idx = 0;` where `idx` is promoted to `int`. -/
def LineBuf.endLine (around : Int → UInt8) (bufsize : Nat) (b : LineBuf) : LineBuf :=
  { b with
    idx := if b.byteAt around bufsize (b.idx.toNat - 1) = 0 then 0 else b.idx
    accesses := (b.idx.toNat - 1 : Int) :: b.accesses }

/-- One call of a writer with `len` bytes of data, none if `len` is not positive; it returns `len`.
    The loop is followed for `extra` rounds more than it can take if it ends. -/
def writeLine (around : Int → UInt8) (bufsize extra : Nat) (b : LineBuf) (data : List UInt8) :
    LineBuf :=
  if b.looping then b
  else
    match writeLoop bufsize data (2 ^ 16 + 1 + extra) 0 b with
    | (b', true) => b'.endLine around bufsize
    | (b', false) => { b' with looping := true }

/-- The sizes of the buffers, in the settings of the three packages. -/
structure Bufsizes where
  uwbRngJsonBufsize : Nat
  uwbCcpJsonBufsize : Nat
  uwbWcsJsonBufsize : Nat
  rng_pos : 0 < uwbRngJsonBufsize
  ccp_pos : 0 < uwbCcpJsonBufsize
  wcs_pos : 0 < uwbWcsJsonBufsize

def Bufsizes.dflt : Bufsizes where
  uwbRngJsonBufsize := 256
  uwbCcpJsonBufsize := 128
  uwbWcsJsonBufsize := 256
  rng_pos := by decide
  ccp_pos := by decide
  wcs_pos := by decide

section Writers
variable (sizes : Bufsizes) (around : Int → UInt8) (extra : Nat)

/-- `rng_write_line` -/
def rngWriteLine : LineBuf → List UInt8 → LineBuf :=
  writeLine around sizes.uwbRngJsonBufsize extra

/-- `ccp_write_line` -/
def ccpWriteLine : LineBuf → List UInt8 → LineBuf :=
  writeLine around sizes.uwbCcpJsonBufsize extra

/-- `wcs_write_line` -/
def wcsWriteLine : LineBuf → List UInt8 → LineBuf :=
  writeLine around sizes.uwbWcsJsonBufsize extra

end Writers

inductive Writer where
  | rng | ccp | wcs
  deriving DecidableEq, Repr

def Writer.bufsize (sizes : Bufsizes) : Writer → Nat
  | .rng => sizes.uwbRngJsonBufsize
  | .ccp => sizes.uwbCcpJsonBufsize
  | .wcs => sizes.uwbWcsJsonBufsize

def Writer.write (sizes : Bufsizes) (around : Int → UInt8) (extra : Nat) :
    Writer → LineBuf → List UInt8 → LineBuf
  | .rng => rngWriteLine sizes around extra
  | .ccp => ccpWriteLine sizes around extra
  | .wcs => wcsWriteLine sizes around extra

/-- Each of the three writers is `writeLine` with its size. -/
lemma Writer.write_eq (sizes : Bufsizes) (around : Int → UInt8) (extra : Nat) (w : Writer) :
    w.write sizes around extra = writeLine around (w.bufsize sizes) extra := by
  cases w <;> rfl

/-- No buffer is empty. -/
lemma Writer.bufsize_pos (sizes : Bufsizes) (w : Writer) : 0 < w.bufsize sizes := by
  cases w with
  | rng => exact sizes.rng_pos
  | ccp => exact sizes.ccp_pos
  | wcs => exact sizes.wcs_pos

/-! ## Lines inside the buffer -/

/-- Every access was inside the buffer. -/
def LineBuf.Within (bufsize : Nat) (b : LineBuf) : Prop :=
  ∀ a ∈ b.accesses, 0 ≤ a ∧ a < bufsize

/-- Every access was inside the buffer, and when a line has got its NUL the next starts at index 0. -/
structure LineBuf.Sound (bufsize : Nat) (b : LineBuf) : Prop where
  within : b.Within bufsize
  restarts : b.looping = false → b.last = some 0 → b.idx = 0

/-- The bytes before the first NUL. -/
def text (data : List UInt8) : List UInt8 := data.takeWhile (· ≠ 0)

/-- The bytes that a write stores, its first NUL among them. -/
def stored (data : List UInt8) : List UInt8 := data.take ((text data).length + 1)

/-- The write ends inside the buffer, behind its first byte; or it does not end. -/
def LineBuf.Fits (bufsize : Nat) (b : LineBuf) (data : List UInt8) : Prop :=
  b.looping = true ∨ 2 ^ 16 ≤ (text data).length ∨
    1 ≤ (b.idx.toNat + (stored data).length) % 2 ^ 16 ∧
      (b.idx.toNat + (stored data).length) % 2 ^ 16 ≤ bufsize

instance LineBuf.decidableFits (bufsize : Nat) (b : LineBuf) (data : List UInt8) :
    Decidable (b.Fits bufsize data) :=
  inferInstanceAs (Decidable (_ ∨ _ ∨ _ ∧ _))

/-! ## What a write does -/

section Puts
variable {bufsize : Nat} {b : LineBuf}

@[simp] lemma LineBuf.put_idx (b : LineBuf) (c : UInt8) : (b.put bufsize c).idx = b.idx + 1 := rfl

/-- A character more is within the buffer as the ones before it were. -/
lemma LineBuf.put_within (c : UInt8) (h : 0 < bufsize) :
    (b.put bufsize c).Within bufsize ↔ b.Within bufsize := by
  have hlt : Int.ofNat (b.idx.toNat % bufsize) < bufsize := Int.ofNat_lt.mpr (Nat.mod_lt _ h)
  have hmem : ∀ a, a ∈ (b.put bufsize c).accesses ↔
      a = Int.ofNat (b.idx.toNat % bufsize) ∨ a ∈ b.accesses := fun a => List.mem_cons
  constructor
  · intro hw a ha
    exact hw a ((hmem a).mpr (.inr ha))
  · intro hw a ha
    cases (hmem a).mp ha with
    | inl e => exact e ▸ ⟨Int.natCast_nonneg _, hlt⟩
    | inr ha => exact hw a ha

/-- The bytes of a list, stored one after another. -/
def LineBuf.puts (bufsize : Nat) (b : LineBuf) (data : List UInt8) : LineBuf :=
  data.foldl (LineBuf.put bufsize) b

/-- The first character. -/
lemma LineBuf.puts_cons (c : UInt8) (data : List UInt8) :
    b.puts bufsize (c :: data) = (b.put bufsize c).puts bufsize data := rfl

/-- The last character. -/
lemma LineBuf.puts_concat (data : List UInt8) (c : UInt8) :
    b.puts bufsize (data ++ [c]) = (b.puts bufsize data).put bufsize c := by
  simp [LineBuf.puts]

/-- Characters are within the buffer as the ones before them were. -/
lemma LineBuf.puts_within (data : List UInt8) (h : 0 < bufsize) :
    (b.puts bufsize data).Within bufsize ↔ b.Within bufsize := by
  induction data generalizing b with
  | nil => exact Iff.rfl
  | cons c data ih => rw [puts_cons, ih, put_within c h]

/-- The index counts the characters in 16 bits. -/
lemma LineBuf.puts_idx (data : List UInt8) :
    (b.puts bufsize data).idx.toNat = (b.idx.toNat + data.length) % 2 ^ 16 := by
  induction data generalizing b with
  | nil => exact (Nat.mod_eq_of_lt b.idx.toNat_lt).symm
  | cons c data ih =>
    rw [puts_cons, ih, put_idx, UInt16.toNat_add, List.length_cons]
    simp only [UInt16.reduceToNat, Nat.mod_add_mod]
    congr 1
    omega

/-- The byte stored last stands before the index, if that is inside the buffer. -/
lemma LineBuf.puts_last (data : List UInt8) (c : UInt8)
    (h1 : 1 ≤ (b.puts bufsize (data ++ [c])).idx.toNat)
    (hle : (b.puts bufsize (data ++ [c])).idx.toNat ≤ bufsize) :
    (b.puts bufsize (data ++ [c])).last = some c ∧
      (b.puts bufsize (data ++ [c])).iobuf ((b.puts bufsize (data ++ [c])).idx.toNat - 1) = c := by
  rw [puts_concat] at h1 hle ⊢
  refine ⟨rfl, ?_⟩
  have hidx : ((b.puts bufsize data).put bufsize c).idx.toNat =
      ((b.puts bufsize data).idx.toNat + 1) % 2 ^ 16 := by
    rw [put_idx, UInt16.toNat_add]
    rfl
  have hlt := (b.puts bufsize data).idx.toNat_lt
  have hmod : (b.puts bufsize data).idx.toNat % bufsize = (b.puts bufsize data).idx.toNat :=
    Nat.mod_eq_of_lt (by omega)
  have hpos : ((b.puts bufsize data).put bufsize c).idx.toNat - 1 =
      (b.puts bufsize data).idx.toNat % bufsize := by omega
  rw [hpos]
  exact Table.modify_self (b.puts bufsize data).iobuf _ fun _ => c

end Puts

/-- What is stored of a write ends with its NUL, or is the whole of it. -/
lemma stored_cons (c : UInt8) (rest : List UInt8) :
    stored (c :: rest) = c :: if c = 0 then [] else stored rest := by
  by_cases h : c = 0
  case pos => simp [stored, text, h]
  case neg => simp [stored, text, h]

/-- One character more. -/
lemma text_cons_length {c : UInt8} (rest : List UInt8) (h : c ≠ 0) :
    (text (c :: rest)).length = (text rest).length + 1 := by
  simp [text, h]

/-- A write whose text is shorter than 2^16 ends, with its bytes stored. -/
lemma writeLoop_ends {bufsize fuel : Nat} {data : List UInt8} {i : UInt16} (b : LineBuf)
    (hlt : i.toNat + (text (data.drop i.toNat)).length < 2 ^ 16)
    (hfuel : (text (data.drop i.toNat)).length < fuel) :
    writeLoop bufsize data fuel i b = (b.puts bufsize (stored (data.drop i.toNat)), true) := by
  induction fuel generalizing i b with
  | zero => omega
  | succ fuel ih =>
    rw [writeLoop]
    cases e : data[i.toNat]? with
    | none =>
      have hnil : data.drop i.toNat = [] := List.drop_eq_nil_of_le (List.getElem?_eq_none_iff.mp e)
      rw [hnil]
      rfl
    | some c =>
      obtain ⟨hi, hc⟩ := List.getElem?_eq_some_iff.mp e
      have hdrop : data.drop i.toNat = c :: data.drop (i.toNat + 1) := by
        rw [List.drop_eq_getElem_cons hi, hc]
      rw [hdrop] at hlt hfuel ⊢
      rw [stored_cons]
      by_cases h0 : c = 0
      case pos =>
        simp only [h0, if_true]
        rfl
      case neg =>
        rw [text_cons_length _ h0] at hlt hfuel
        -- the counter does not wrap before the text is over
        have hnext : (i + 1).toNat = i.toNat + 1 := by
          rw [UInt16.toNat_add]
          exact Nat.mod_eq_of_lt (by simp; omega)
        simp only [h0, if_false]
        rw [ih (i := i + 1) (b.put bufsize c) (by rw [hnext]; omega) (by rw [hnext]; omega), hnext]
        rfl

/-- Before the NUL there are characters. -/
lemma getElem?_text {data : List UInt8} {i : Nat} (h : i < (text data).length) :
    ∃ c, data[i]? = some c ∧ c ≠ 0 := by
  have hpre : text data <+: data := List.takeWhile_prefix _
  have hmem : (text data)[i] ∈ text data := List.getElem_mem h
  refine ⟨(text data)[i], ?_, by simpa using List.mem_takeWhile_imp hmem⟩
  rw [hpre.getElem h]
  exact List.getElem?_eq_getElem _

/-- A write whose first 2^16 bytes have no NUL is in its loop after any number of rounds. -/
lemma writeLoop_loops (bufsize : Nat) {data : List UInt8} (h : 2 ^ 16 ≤ (text data).length)
    (fuel : Nat) (i : UInt16) (b : LineBuf) :
    ∃ l, writeLoop bufsize data fuel i b = (b.puts bufsize l, false) := by
  induction fuel generalizing i b with
  | zero => exact ⟨[], rfl⟩
  | succ fuel ih =>
    obtain ⟨c, hget, hne⟩ := getElem?_text (Nat.lt_of_lt_of_le i.toNat_lt h)
    obtain ⟨l, hl⟩ := ih (i + 1) (b.put bufsize c)
    refine ⟨c :: l, ?_⟩
    rw [writeLoop, hget]
    simp only [hne, if_false]
    exact hl

section Writes
variable {around : Int → UInt8} {bufsize extra : Nat} {b : LineBuf} {data : List UInt8}

/-- A write that ends stores its bytes and tests for the end of the line. -/
lemma writeLine_ends (hb : b.looping = false) (hlt : (text data).length < 2 ^ 16) :
    writeLine around bufsize extra b data =
      (b.puts bufsize (stored data)).endLine around bufsize := by
  have hloop : writeLoop bufsize data (2 ^ 16 + 1 + extra) 0 b =
      (b.puts bufsize (stored data), true) :=
    writeLoop_ends (i := 0) b (by simpa using hlt)
      (show (text data).length < 2 ^ 16 + 1 + extra by omega)
  rw [writeLine, hb, hloop]
  rfl

/-- A write that does not end goes on storing bytes. -/
lemma writeLine_loops (around : Int → UInt8) (bufsize extra : Nat) (hb : b.looping = false)
    (hle : 2 ^ 16 ≤ (text data).length) :
    ∃ l, writeLine around bufsize extra b data = { b.puts bufsize l with looping := true } := by
  obtain ⟨l, hl⟩ := writeLoop_loops bufsize hle (2 ^ 16 + 1 + extra) 0 b
  refine ⟨l, ?_⟩
  rw [writeLine, hb, hl]
  rfl

/-- A writer that loops does nothing more. -/
lemma writeLine_looping (hb : b.looping = true) : writeLine around bufsize extra b data = b := by
  rw [writeLine, hb]
  rfl

/-- The test stays inside the buffer exactly if the index is behind one of its bytes. -/
lemma LineBuf.endLine_within (around : Int → UInt8) :
    (b.endLine around bufsize).Within bufsize ↔
      b.Within bufsize ∧ 1 ≤ b.idx.toNat ∧ b.idx.toNat ≤ bufsize := by
  have hmem : ∀ a, a ∈ (b.endLine around bufsize).accesses ↔
      a = (b.idx.toNat - 1 : Int) ∨ a ∈ b.accesses := fun a => List.mem_cons
  constructor
  · intro hw
    obtain ⟨h0, hlt⟩ := hw _ ((hmem _).mpr (.inl rfl))
    exact ⟨fun a ha => hw a ((hmem a).mpr (.inr ha)), by omega, by omega⟩
  · rintro ⟨hw, h1, hle⟩ a ha
    cases (hmem a).mp ha with
    | inl e => omega
    | inr ha => exact hw a ha

/-- Inside the buffer the test is made on the byte before the index. -/
lemma LineBuf.endLine_idx (around : Int → UInt8) (h1 : 1 ≤ b.idx.toNat) (hle : b.idx.toNat ≤ bufsize) :
    (b.endLine around bufsize).idx = if b.iobuf (b.idx.toNat - 1) = 0 then 0 else b.idx := by
  have hin : (0 : Int) ≤ b.idx.toNat - 1 ∧ (b.idx.toNat - 1 : Int) < bufsize := by omega
  have hpos : (b.idx.toNat - 1 : Int).toNat = b.idx.toNat - 1 := by omega
  have hbyte : b.byteAt around bufsize (b.idx.toNat - 1) = b.iobuf (b.idx.toNat - 1) := by
    rw [byteAt, if_pos hin, hpos]
  rw [← hbyte]
  rfl

/-- As long as the accesses stay inside, a line is at its start, or behind a byte that is not a NUL. -/
def LineBuf.Held (bufsize : Nat) (b : LineBuf) : Prop :=
  b.looping = false → b.Within bufsize →
    b.idx = 0 ∨ b.iobuf (b.idx.toNat - 1) ≠ 0 ∧ b.last ≠ some 0

/-- A fresh buffer holds a line. -/
lemma LineBuf.held_fresh (iobuf : Table UInt8) : (LineBuf.fresh iobuf).Held bufsize :=
  fun _ _ => .inl rfl

/-- A fresh buffer is sound. -/
lemma LineBuf.sound_fresh (iobuf : Table UInt8) : (LineBuf.fresh iobuf).Sound bufsize where
  within := by
    rintro a ⟨⟩
  restarts := fun _ _ => rfl

/-- After a line the buffer holds a line. -/
lemma writeLine_held (around : Int → UInt8) (extra : Nat) (data : List UInt8)
    (hh : b.Held bufsize) :
    (writeLine around bufsize extra b data).Held bufsize := by
  cases hb : b.looping with
  | true => rwa [writeLine_looping hb]
  | false =>
    by_cases hlt : (text data).length < 2 ^ 16
    case neg =>
      obtain ⟨l, hl⟩ := writeLine_loops around bufsize extra hb (Nat.le_of_not_lt hlt)
      rw [hl]
      rintro ⟨⟩
    case pos =>
      rw [writeLine_ends hb hlt]
      intro _ hw
      obtain ⟨hwp, h1, hle⟩ := (LineBuf.endLine_within around).mp hw
      have hidx := LineBuf.endLine_idx around h1 hle
      rcases List.eq_nil_or_concat' (stored data) with hnil | ⟨l, c, hl⟩
      case inl =>
        -- nothing is stored, and the test is made again on the byte that was held before
        have hnone : b.puts bufsize [] = b := rfl
        rw [hnil, hnone] at h1 hidx hwp ⊢
        rcases hh hb hwp with h0 | ⟨hne, hlast⟩
        case inl => exact absurd (h0 ▸ h1) (by decide)
        case inr =>
          rw [if_neg hne] at hidx
          exact .inr ⟨hidx ▸ hne, hlast⟩
      case inr =>
        rw [hl] at h1 hle hidx ⊢
        obtain ⟨hlast, hbyte⟩ := LineBuf.puts_last l c h1 hle
        by_cases h0 : c = 0
        case pos => exact .inl (hidx.trans (if_pos (hbyte.trans h0)))
        case neg =>
          rw [hbyte, if_neg h0] at hidx
          refine .inr ⟨?_, ?_⟩
          · rw [hidx]
            exact hbyte.trans_ne h0
          · exact hlast.trans_ne fun e => h0 (Option.some.inj e)

/-- A write keeps a sound buffer sound exactly if it fits. -/
lemma writeLine_sound (around : Int → UInt8) (extra : Nat) (data : List UInt8) (hpos : 0 < bufsize)
    (hh : b.Held bufsize) (hs : b.Sound bufsize) :
    (writeLine around bufsize extra b data).Sound bufsize ↔ b.Fits bufsize data := by
  cases hb : b.looping with
  | true =>
    rw [writeLine_looping hb]
    exact iff_of_true hs (.inl hb)
  | false =>
    by_cases hlt : (text data).length < 2 ^ 16
    case neg =>
      obtain ⟨l, hl⟩ := writeLine_loops around bufsize extra hb (Nat.le_of_not_lt hlt)
      rw [hl]
      refine iff_of_true ⟨(LineBuf.puts_within l hpos).mpr hs.within, ?_⟩
        (.inr (.inl (Nat.le_of_not_lt hlt)))
      rintro ⟨⟩
    case pos =>
      have hheld := writeLine_held around extra data hh
      rw [writeLine_ends hb hlt] at hheld ⊢
      have hfits : b.Fits bufsize data ↔ 1 ≤ (b.puts bufsize (stored data)).idx.toNat ∧
          (b.puts bufsize (stored data)).idx.toNat ≤ bufsize := by
        rw [LineBuf.puts_idx, LineBuf.Fits, hb]
        simp only [Bool.false_eq_true, false_or, Nat.not_le.mpr hlt]
      have hwithin := (LineBuf.puts_within (b := b) (stored data) hpos).mpr hs.within
      rw [hfits]
      constructor
      · intro hs'
        exact ((LineBuf.endLine_within around).mp hs'.within).2
      · intro h
        have hw := (LineBuf.endLine_within around).mpr ⟨hwithin, h⟩
        refine ⟨hw, fun hb' hlast => ?_⟩
        rcases hheld hb' hw with h0 | ⟨-, hne⟩
        case inl => exact h0
        case inr => exact absurd hlast hne

end Writes

/-- Over any sequence of writes to a buffer all accesses stay inside, and each line starts at index 0,
    exactly if every write fits. -/
theorem lines_sound_iff (sizes : Bufsizes) (around : Int → UInt8) (extra : Nat) (w : Writer)
    (iobuf : Table UInt8) (writes : List (List UInt8)) :
    (∀ n, ((writes.take n).foldl (w.write sizes around extra) (.fresh iobuf)).Sound
      (w.bufsize sizes)) ↔
    Allowed (w.write sizes around extra) (LineBuf.Fits (w.bufsize sizes)) (.fresh iobuf) writes := by
  have hpos := w.bufsize_pos sizes
  rw [w.write_eq]
  exact (allowed_iff_along (fun _ data hh => writeLine_held around extra data hh)
    (fun _ data hh hs => writeLine_sound around extra data hpos hh hs) writes (LineBuf.held_fresh iobuf)
    (LineBuf.sound_fresh iobuf)).symm

/-- The first 129 bytes of a longer text. -/
def longText : List UInt8 := List.replicate 129 0x61

/-- One write of 129 bytes is too long for the 128 bytes of the clock calibration packets. -/
theorem lines_sound_fails :
    ¬∀ (sizes : Bufsizes) (around : Int → UInt8) (extra : Nat) (w : Writer) (iobuf : Table UInt8)
      (writes : List (List UInt8)) (n : Nat),
      ((writes.take n).foldl (w.write sizes around extra) (.fresh iobuf)).Sound (w.bufsize sizes) := by
  intro h
  have hsound := h .dflt (fun _ => 0) 0 .ccp (fun _ => 0) [longText] 1
  rw [Writer.write_eq, List.take_succ_cons, List.take_zero, List.foldl_cons, List.foldl_nil] at hsound
  have hfits := writeLine_sound (fun _ => 0) 0 longText (Writer.bufsize_pos .dflt .ccp)
    (LineBuf.held_fresh fun _ => 0) (LineBuf.sound_fresh fun _ => 0)
  exact absurd (hfits.mp hsound) (by decide +kernel)

end UwbCore.Json
