import UwbCore.Json.Basic

/-!
# Ranges as JSON lines

`rng_json_write` prints a range with the fields it has and `rng_json_read` reads one
(lib/uwb_rng/src/rng_json.c). The writer prints the code as `c` and the reported range as `braz`, of
which the table of the reader knows neither, and nothing in the table stores a code. A line is accepted
exactly if it has neither of the two (`accepted_iff`); then the times and addresses are those of the
record (`read_utime` and its like), but the code is the one that was in the structure before (`rangeRoundTrip_iff`).

The addresses are those of the members behind `utime`. A line that fits the buffer of its writer is the
sequence of its attributes.
-/

namespace UwbCore.Rng
open UwbCore.Lib UwbCore.Json

/-- Three doubles: a `triad_t`, whose first is the range, or an array. -/
structure Triad where
  x0 : BitVec 64
  x1 : BitVec 64
  x2 : BitVec 64
  deriving DecidableEq

/-- The members of `rng_json_t` that are printed. -/
structure RngJson where
  utime : BitVec 64
  seq : BitVec 64
  code : BitVec 64
  uid : BitVec 64
  ouid : BitVec 64
  raz : Triad
  braz : Triad
  rssi : Triad
  los : Triad
  ppm : BitVec 64
  sts : BitVec 64
  deriving DecidableEq

/-! ## Where the members are -/

def utimeOff : Nat := 0
def seqOff : Nat := 8
def codeOff : Nat := 16
def uidOff : Nat := 24
def ouidOff : Nat := 32
def razOff : Nat := 40
def rssiOff : Nat := 88
def losOff : Nat := 120
def ppmOff : Nat := 152
def stsOff : Nat := 160

/-! ## Writing and reading -/

/-- The numbers of an array: the first alone if the others are not numbers. -/
def Triad.printed (t : Triad) : List (BitVec 64) :=
  if isNan t.x1 && isNan t.x2 then [t.x0] else [t.x0, t.x1, t.x2]

/-- An attribute that is there under a condition. -/
def entryIf (c : Bool) (name : String) (v : Value) : Line := if c then [(name, v)] else []

/-- C `rng_json_write`. -/
def rngJsonWrite (r : RngJson) : Line :=
  [("utime", .num (.uint r.utime))] ++
  entryIf (decide (r.seq ≠ 0)) "seq" (.num (.uint r.seq)) ++
  entryIf (decide (r.code ≠ 0)) "c" (.num (.uint r.code)) ++
  entryIf (decide (r.uid ≠ 0)) "uid" (.num (.uint r.uid)) ++
  entryIf (decide (r.ouid ≠ 0)) "ouid" (.num (.uint r.ouid)) ++
  [("raz", .array (r.raz.printed.map .float))] ++
  entryIf (!isNan r.braz.x0) "braz" (.array (r.braz.printed.map .float)) ++
  entryIf (!isNan r.rssi.x0) "rssi" (.array (r.rssi.printed.map .float)) ++
  entryIf (!isNan r.los.x0) "los" (.array (r.los.printed.map .float)) ++
  entryIf (!isNan r.ppm) "ppm" (.num (.float r.ppm)) ++
  entryIf (!isNan r.sts) "sts" (.num (.float r.sts))

/-- `DPL_FLOAT64_NAN()` -/
def nan : BitVec 64 := 0x7FF8000000000000

/-- The table of `rng_json_read`. -/
def rngAttr : List Attr :=
  [⟨"utime", .uinteger utimeOff, none⟩,
    ⟨"seq", .uinteger seqOff, some 0⟩,
    ⟨"uid", .uinteger uidOff, some 0⟩,
    ⟨"ouid", .uinteger ouidOff, some 0⟩,
    ⟨"rng", .real razOff, some nan⟩,
    ⟨"raz", .array .real razOff 3 none, some nan⟩,
    ⟨"rssi", .array .real rssiOff 3 none, some nan⟩,
    ⟨"los", .array .real losOff 3 none, some nan⟩,
    ⟨"ppm", .real ppmOff, some nan⟩,
    ⟨"sts", .real stsOff, some nan⟩]

/-- C `rng_json_read`. -/
def rngJsonRead (conv : Conv) (m : Mem) (line : Line) : Int × Mem :=
  jsonReadObject conv rngAttr m line

/-- The line of a range is accepted, and its integers are those of the record. -/
structure RoundTrip (conv : Conv) (m : Mem) (r : RngJson) : Prop where
  rc : (rngJsonRead conv m (rngJsonWrite r)).1 = 0
  utime : (rngJsonRead conv m (rngJsonWrite r)).2.load utimeOff 8 = r.utime.toNat
  seq : (rngJsonRead conv m (rngJsonWrite r)).2.load seqOff 8 = r.seq.toNat
  code : (rngJsonRead conv m (rngJsonWrite r)).2.load codeOff 8 = r.code.toNat
  uid : (rngJsonRead conv m (rngJsonWrite r)).2.load uidOff 8 = r.uid.toNat
  ouid : (rngJsonRead conv m (rngJsonWrite r)).2.load ouidOff 8 = r.ouid.toNat

section
variable {conv : Conv} {m : Mem} {r : RngJson}

/-- An entry that is there under a condition. -/
lemma forall_entryIf {c : Bool} {name : String} {v : Value} {P : String × Value → Prop} :
    (∀ e ∈ entryIf c name v, P e) ↔ (c = true → P (name, v)) := by
  rw [entryIf]
  split
  case isTrue h => simp [h]
  case isFalse h => simp [h]

/-- At most three numbers. -/
lemma Triad.printed_length_le (t : Triad) : t.printed.length ≤ 3 := by
  rw [Triad.printed]
  split
  case isTrue => exact Nat.le_add_left 1 2
  case isFalse => exact Nat.le_refl 3

/-- The line of a range is accepted exactly if it has no code and no reported range. -/
lemma accepted_iff : (rngJsonRead conv m (rngJsonWrite r)).1 = 0 ↔
    r.code = 0 ∧ isNan r.braz.x0 = true := by
  have hc : ¬Json.Accepts conv rngAttr ("c", .num (.uint r.code)) := not_accepts_of_unknown rfl
  have hbraz : ¬Json.Accepts conv rngAttr ("braz", .array (r.braz.printed.map .float)) :=
    not_accepts_of_unknown rfl
  have hutime : Json.Accepts conv rngAttr ("utime", .num (.uint r.utime)) := accepts_uinteger rfl
  have hseq : Json.Accepts conv rngAttr ("seq", .num (.uint r.seq)) := accepts_uinteger rfl
  have huid : Json.Accepts conv rngAttr ("uid", .num (.uint r.uid)) := accepts_uinteger rfl
  have houid : Json.Accepts conv rngAttr ("ouid", .num (.uint r.ouid)) := accepts_uinteger rfl
  have hraz : Json.Accepts conv rngAttr ("raz", .array (r.raz.printed.map .float)) :=
    accepts_floats rfl r.raz.printed_length_le
  have hrssi : Json.Accepts conv rngAttr ("rssi", .array (r.rssi.printed.map .float)) :=
    accepts_floats rfl r.rssi.printed_length_le
  have hlos : Json.Accepts conv rngAttr ("los", .array (r.los.printed.map .float)) :=
    accepts_floats rfl r.los.printed_length_le
  have hppm : Json.Accepts conv rngAttr ("ppm", .num (.float r.ppm)) := accepts_real rfl
  have hsts : Json.Accepts conv rngAttr ("sts", .num (.float r.sts)) := accepts_real rfl
  rw [rngJsonRead, jsonReadObject, readLine_rc_iff, rngJsonWrite]
  simp only [List.forall_mem_append, forall_entryIf, List.forall_mem_singleton, hc, hbraz, hutime,
    hseq, huid, houid, hraz, hrssi, hlos, hppm, hsts]
  simp

/-! ## What an accepted line leaves behind -/

/-- What such an entry makes of a word. -/
lemma foldl_entryIf {c : Bool} {name name' : String} {v : Value} {old : Nat} :
    (entryIf c name v).foldl (pick conv name') old =
      if c then pick conv name' old (name, v) else old := by
  rw [entryIf]
  split
  case isTrue => rfl
  case isFalse => rfl

/-- The defaults are stored before the line is read. -/
lemma stuff_rngAttr : stuff m rngAttr = (((((m.store64 seqOff 0).store64 uidOff 0).store64 ouidOff
    0).store64 razOff nan).store64 ppmOff nan).store64 stsOff nan := rfl

/-- The defaults of the integers; the code has none. -/
lemma stuff_load : (stuff m rngAttr).load seqOff 8 = 0 ∧ (stuff m rngAttr).load uidOff 8 = 0 ∧
    (stuff m rngAttr).load ouidOff 8 = 0 ∧
      (stuff m rngAttr).load codeOff 8 = m.load codeOff 8 := by
  rw [stuff_rngAttr]
  refine ⟨?_, ?_, ?_, ?_⟩
  · simp (disch := decide) only [Mem.load_store64_of_apart, Mem.load_store64]
    rfl
  · simp (disch := decide) only [Mem.load_store64_of_apart, Mem.load_store64]
    rfl
  · simp (disch := decide) only [Mem.load_store64_of_apart, Mem.load_store64]
    rfl
  · simp (disch := decide) only [Mem.load_store64_of_apart]

/-- What is left out when it is 0 reads as its default. -/
lemma default_word (x : BitVec 64) : (if decide (x ≠ 0) = true then x.toNat else 0) = x.toNat := by
  by_cases h : x = 0
  case pos => simp [h]
  case neg => rw [if_pos (decide_eq_true h)]

variable (h : (rngJsonRead conv m (rngJsonWrite r)).1 = 0)
include h

/-- The time is read back. -/
lemma read_utime : (rngJsonRead conv m (rngJsonWrite r)).2.load utimeOff 8 = r.utime.toNat := by
  refine (@readLine_uint conv rngAttr "utime" utimeOff none rfl (by decide) _ _ h).trans ?_
  simp [rngJsonWrite, foldl_entryIf, pick, conv.scalar_uint]

/-- The sequence number is read back. -/
lemma read_seq : (rngJsonRead conv m (rngJsonWrite r)).2.load seqOff 8 = r.seq.toNat := by
  refine (@readLine_uint conv rngAttr "seq" seqOff (some 0) rfl (by decide) _ _ h).trans ?_
  rw [stuff_load.1, ← default_word r.seq]
  simp [rngJsonWrite, foldl_entryIf, pick, conv.scalar_uint]

/-- The node is read back. -/
lemma read_uid : (rngJsonRead conv m (rngJsonWrite r)).2.load uidOff 8 = r.uid.toNat := by
  refine (@readLine_uint conv rngAttr "uid" uidOff (some 0) rfl (by decide) _ _ h).trans ?_
  rw [stuff_load.2.1, ← default_word r.uid]
  simp [rngJsonWrite, foldl_entryIf, pick, conv.scalar_uint]

/-- The other node is read back. -/
lemma read_ouid : (rngJsonRead conv m (rngJsonWrite r)).2.load ouidOff 8 = r.ouid.toNat := by
  refine (@readLine_uint conv rngAttr "ouid" ouidOff (some 0) rfl (by decide) _ _ h).trans ?_
  rw [stuff_load.2.2.1, ← default_word r.ouid]
  simp [rngJsonWrite, foldl_entryIf, pick, conv.scalar_uint]

omit h in
/-- No line stores a code. -/
lemma read_code (line : Line) : (rngJsonRead conv m line).2.load codeOff 8 = m.load codeOff 8 :=
  (readLine_apart (by decide) line _).trans stuff_load.2.2.2

omit h in
/-- A range is read back with its integers exactly if it has no code and no reported range, and the
    structure it is read into had no code either. -/
theorem rangeRoundTrip_iff (conv : Conv) (m : Mem) (r : RngJson) : RoundTrip conv m r ↔
    r.code = 0 ∧ isNan r.braz.x0 = true ∧ m.load codeOff 8 = 0 := by
  constructor
  · intro h
    obtain ⟨hcode, hbraz⟩ := accepted_iff.mp h.rc
    have hread := h.code
    rw [read_code, hcode] at hread
    exact ⟨hcode, hbraz, hread⟩
  · rintro ⟨hcode, hbraz, hm⟩
    have hrc : (rngJsonRead conv m (rngJsonWrite r)).1 = 0 := accepted_iff.mpr ⟨hcode, hbraz⟩
    refine ⟨hrc, read_utime hrc, read_seq hrc, ?_, read_uid hrc, read_ouid hrc⟩
    rw [read_code, hm, hcode]
    rfl

end

/-- A range of one metre with a code and nothing else. -/
def oneMetre (code : BitVec 64) : RngJson :=
  ⟨1234, 2, code, 4, 5, ⟨0x3FF0000000000000, nan, nan⟩, ⟨nan, nan, nan⟩, ⟨nan, nan, nan⟩,
    ⟨nan, nan, nan⟩, nan, nan⟩

/-- The attribute `c` of a range with a code is not in the table of the reader. -/
theorem rangeRoundTrip_fails : ¬∀ (conv : Conv) (m : Mem) (r : RngJson), RoundTrip conv m r := by
  intro h
  have hrc := (h .verbatim (fun _ => 0) (oneMetre 0x131)).rc
  exact absurd hrc (by decide +kernel)

end UwbCore.Rng
