import UwbCore.Json.Basic

/-!
# Calibration records as JSON lines

`ccp_json_write_uint64` prints a record and `ccp_json_read_uint64` reads it back
(lib/uwb_ccp/src/ccp_json.c). The reader stores 64 bits for each integer, also where the member of the
structure has fewer, and the uid comes after the timestamps in the line, which begin where its 32 bits
end. So what comes back of the first timestamp lacks its low 32 bits (`read_written`), and a record is
read back as it was exactly if these are zero (`roundTrip_iff`).

The addresses are those of the members behind `utime`, on a little-endian machine that aligns words
to their size. A line that fits the buffer of its writer is the sequence of its attributes.
-/

namespace UwbCore.Ccp
open UwbCore.Lib UwbCore.Json

/-- The members of `ccp_json_t` that are printed, and the counter of the array. -/
structure CcpJson where
  utime : BitVec 64
  seq : BitVec 8
  uid : BitVec 32
  ccp0 : BitVec 64
  ccp1 : BitVec 64
  count : BitVec 64
  ppm : BitVec 64
  deriving DecidableEq

/-! ## Where the members are -/

def utimeOff : Nat := 0
def seqOff : Nat := 8
def uidOff : Nat := 12
def ccpOff : Nat := 16
def countOff : Nat := 32
def ppmOff : Nat := 40

/-- The record in a memory. -/
def CcpJson.ofMem (m : Mem) : CcpJson where
  utime := BitVec.ofNat 64 (m.load utimeOff 8)
  seq := BitVec.ofNat 8 (m.load seqOff 1)
  uid := BitVec.ofNat 32 (m.load uidOff 4)
  ccp0 := BitVec.ofNat 64 (m.load ccpOff 8)
  ccp1 := BitVec.ofNat 64 (m.load (ccpOff + 8) 8)
  count := BitVec.ofNat 64 (m.load countOff 8)
  ppm := BitVec.ofNat 64 (m.load ppmOff 8)

/-! ## Writing and reading -/

/-- C `ccp_json_write_uint64`. -/
def ccpJsonWriteUint64 (r : CcpJson) : Line :=
  [("utime", .num (.uint r.utime)), ("ccp", .array [.uint r.ccp0, .uint r.ccp1]),
    ("seq", .num (.uint (r.seq.setWidth 64)))] ++
  (if r.uid ≠ 0 then [("uid", .num (.uint (r.uid.setWidth 64)))] else []) ++
  (if isNan r.ppm then [] else [("ppm", .num (.uint r.ppm))])

/-- The table of `ccp_json_read_uint64`. -/
def ccpAttr : List Attr :=
  [⟨"utime", .uinteger utimeOff, none⟩,
    ⟨"seq", .uinteger seqOff, none⟩,
    ⟨"uid", .uinteger uidOff, none⟩,
    ⟨"ccp", .array .uinteger ccpOff 2 (some countOff), none⟩,
    ⟨"ppm", .uinteger ppmOff, none⟩]

/-- C `ccp_json_read_uint64`. -/
def ccpJsonReadUint64 (conv : Conv) (m : Mem) (line : Line) : Int × Mem :=
  jsonReadObject conv ccpAttr (m.clear utimeOff (ppmOff + 8 - utimeOff)) line

/-- The line of a record is read without an error, and gives the record back. -/
structure RoundTrip (conv : Conv) (m : Mem) (r : CcpJson) : Prop where
  rc : (ccpJsonReadUint64 conv m (ccpJsonWriteUint64 r)).1 = 0
  utime : (CcpJson.ofMem (ccpJsonReadUint64 conv m (ccpJsonWriteUint64 r)).2).utime = r.utime
  seq : (CcpJson.ofMem (ccpJsonReadUint64 conv m (ccpJsonWriteUint64 r)).2).seq = r.seq
  uid : (CcpJson.ofMem (ccpJsonReadUint64 conv m (ccpJsonWriteUint64 r)).2).uid = r.uid
  ccp0 : (CcpJson.ofMem (ccpJsonReadUint64 conv m (ccpJsonWriteUint64 r)).2).ccp0 = r.ccp0
  ccp1 : (CcpJson.ofMem (ccpJsonReadUint64 conv m (ccpJsonWriteUint64 r)).2).ccp1 = r.ccp1
  ppm : (CcpJson.ofMem (ccpJsonReadUint64 conv m (ccpJsonWriteUint64 r)).2).ppm = r.ppm

/-! ## What the reader leaves behind -/

section
variable {conv : Conv} {m : Mem} {r : CcpJson}

/-- The stores for a line, in the order of its attributes. -/
def stores (m : Mem) (r : CcpJson) : Mem :=
  (((((((m.clear utimeOff (ppmOff + 8 - utimeOff)).store64 utimeOff r.utime).store64 ccpOff
    r.ccp0).store64 (ccpOff + 8) r.ccp1).store64 countOff 2).store64 seqOff
      (r.seq.setWidth 64)).store64 uidOff (r.uid.setWidth 64)).store64 ppmOff r.ppm

/-- A scalar of the table. -/
lemma readAttr_uint {name : String} {addr : Nat} {n : BitVec 64}
    (h : ccpAttr.find? (fun a => a.name == name) = some ⟨name, .uinteger addr, none⟩) :
    readAttr conv ccpAttr m (name, .num (.uint n)) = (0, m.store64 addr n) := by
  rw [readAttr, h]
  show (0, m.store64 addr (conv.scalar .uinteger (.uint n))) = _
  rw [conv.scalar_uint]

/-- The pair of epochs is stored, and their number. -/
lemma readAttr_ccp {a b : BitVec 64} :
    readAttr conv ccpAttr m ("ccp", .array [.uint a, .uint b]) =
      (0, ((m.store64 ccpOff a).store64 (ccpOff + 8) b).store64 countOff 2) := by
  have h : ccpAttr.find? (fun a => a.name == "ccp") =
      some ⟨"ccp", .array .uinteger ccpOff 2 (some countOff), none⟩ := by decide
  rw [readAttr, h]
  simp [jsonReadArray, readElements, conv.element_uint]

/-- An attribute that is stored is followed by the rest of the line. -/
lemma readLine_cons {e : String × Value} {line : Line} {m' : Mem}
    (h : readAttr conv ccpAttr m e = (0, m')) :
    readLine conv ccpAttr m (e :: line) = readLine conv ccpAttr m' line := by
  rw [readLine, h]
  exact if_pos rfl

/-- A record with a uid and a number is read with these stores. -/
lemma read_written (huid : r.uid ≠ 0) (hppm : isNan r.ppm = false) :
    ccpJsonReadUint64 conv m (ccpJsonWriteUint64 r) = (0, stores m r) := by
  have hline : ccpJsonWriteUint64 r = [("utime", .num (.uint r.utime)),
      ("ccp", .array [.uint r.ccp0, .uint r.ccp1]), ("seq", .num (.uint (r.seq.setWidth 64))),
      ("uid", .num (.uint (r.uid.setWidth 64))), ("ppm", .num (.uint r.ppm))] := by
    rw [ccpJsonWriteUint64, if_pos huid, hppm]
    rfl
  rw [hline, ccpJsonReadUint64, jsonReadObject]
  rw [readLine_cons (readAttr_uint rfl), readLine_cons readAttr_ccp,
    readLine_cons (readAttr_uint rfl), readLine_cons (readAttr_uint rfl),
    readLine_cons (readAttr_uint rfl)]
  rfl

/-! ## What comes back -/

/-- The members that no later store meets, and the uid, come back. -/
lemma stores_kept (m : Mem) (r : CcpJson) :
    (CcpJson.ofMem (stores m r)).utime = r.utime ∧ (CcpJson.ofMem (stores m r)).seq = r.seq ∧
      (CcpJson.ofMem (stores m r)).uid = r.uid ∧ (CcpJson.ofMem (stores m r)).ccp1 = r.ccp1 ∧
      (CcpJson.ofMem (stores m r)).ppm = r.ppm := by
  have hseq := r.seq.isLt
  have huid := r.uid.isLt
  have h : (stores m r).load utimeOff 8 = r.utime.toNat ∧ (stores m r).load seqOff 1 = r.seq.toNat ∧
      (stores m r).load uidOff 4 = r.uid.toNat ∧ (stores m r).load (ccpOff + 8) 8 = r.ccp1.toNat ∧
      (stores m r).load ppmOff 8 = r.ppm.toNat := by
    refine ⟨?_, ?_, ?_, ?_, ?_⟩
    · simp (disch := decide) only [stores, Mem.load_store64_of_apart, Mem.load_store64]
    · simp (disch := decide) only [stores, Mem.load_store64_of_apart, Mem.load_store64_low]
      rw [BitVec.toNat_setWidth]
      omega
    · simp (disch := decide) only [stores, Mem.load_store64_of_apart, Mem.load_store64_low]
      rw [BitVec.toNat_setWidth]
      omega
    · simp (disch := decide) only [stores, Mem.load_store64_of_apart, Mem.load_store64]
    · rw [stores, Mem.load_store64]
  obtain ⟨h1, h2, h3, h4, h5⟩ := h
  simp only [CcpJson.ofMem, h1, h2, h3, h4, h5, BitVec.ofNat_toNat, BitVec.setWidth_eq, and_self]

/-- The first timestamp without its low 32 bits. -/
lemma stores_ccp0 (m : Mem) (r : CcpJson) :
    (stores m r).load ccpOff 8 = 2 ^ 32 * (r.ccp0.toNat / 2 ^ 32) := by
  -- its low half is the upper half of the store of the uid, which is 0
  have hlow : (stores m r).load ccpOff 4 = 0 := by
    have huid := r.uid.isLt
    rw [stores, Mem.load_store64_of_apart (.inr (by decide))]
    show Mem.load _ (uidOff + 4) 4 = 0
    rw [Mem.load_store64_high rfl, BitVec.toNat_setWidth]
    omega
  have hhigh : (stores m r).load (ccpOff + 4) 4 = r.ccp0.toNat / 256 ^ 4 := by
    simp (disch := decide) only [stores, Mem.load_store64_of_apart, Mem.load_store64_high]
  have hsum := Mem.load_add (m := stores m r) (a := ccpOff) (k := 4) (n := 4)
  exact hsum.trans (by rw [hlow, hhigh, Nat.zero_add]; rfl)

/-- A record with a uid and a number for the offset comes back exactly if the low 32 bits of its first
    timestamp are zero. -/
theorem roundTrip_iff (conv : Conv) (m : Mem) (r : CcpJson) (huid : r.uid ≠ 0)
    (hppm : isNan r.ppm = false) : RoundTrip conv m r ↔ r.ccp0.toNat % 2 ^ 32 = 0 := by
  have hread : ccpJsonReadUint64 conv m (ccpJsonWriteUint64 r) = (0, stores m r) :=
    read_written huid hppm
  obtain ⟨hutime, hseq, huid', hccp1, hppm'⟩ := stores_kept m r
  have hccp0 : (CcpJson.ofMem (stores m r)).ccp0 = r.ccp0 ↔ r.ccp0.toNat % 2 ^ 32 = 0 := by
    have hlt := r.ccp0.isLt
    rw [← BitVec.toNat_inj]
    show (BitVec.ofNat 64 ((stores m r).load ccpOff 8)).toNat = _ ↔ _
    rw [stores_ccp0, BitVec.toNat_ofNat]
    omega
  constructor
  · intro h
    have h0 := h.ccp0
    rw [hread] at h0
    exact hccp0.mp h0
  · intro h
    refine ⟨?_, ?_, ?_, ?_, ?_, ?_, ?_⟩
    all_goals rw [hread]
    · exact hutime
    · exact hseq
    · exact huid'
    · exact hccp0.mpr h
    · exact hccp1
    · exact hppm'

end

/-- A record of a node with a uid. -/
def seventyTicks (ccp0 : BitVec 64) : CcpJson := ⟨1234, 7, 0x4321, ccp0, 0x100000046, 0, 0⟩

/-- A first timestamp of a whole number of 2^32 units, and any other record. -/
theorem roundTrip_whole : RoundTrip .verbatim (fun _ => 0) (seventyTicks 0x4600000000) ↔
    (seventyTicks 0x4600000000).ccp0.toNat % 2 ^ 32 = 0 :=
  roundTrip_iff .verbatim (fun _ => 0) (seventyTicks 0x4600000000) (by decide) (by decide)

/-- A timestamp of 70 comes back as 0. -/
theorem roundTrip_fails : ¬∀ (conv : Conv) (m : Mem) (r : CcpJson), r.uid ≠ 0 →
    isNan r.ppm = false → RoundTrip conv m r := by
  intro h
  have h70 := (h .verbatim (fun _ => 0) (seventyTicks 70) (by decide) (by decide)).ccp0
  exact absurd h70 (by decide +kernel)

end UwbCore.Ccp
