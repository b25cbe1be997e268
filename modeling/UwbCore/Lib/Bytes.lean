import Mathlib.Tactic

/-!
# Bytes in memory

Sixteen-bit values as two little-endian bytes, and lists of bytes at an offset of a memory. What is
written piece by piece is there as a whole (`holds_append`), and is what a reader finds there
(`read16_holds`, `readBytes_holds`).
-/

namespace UwbCore.Lib

/-- The bytes of a 16-bit value. -/
def le16 (x : UInt16) : List UInt8 := [x.toUInt8, (x >>> 8).toUInt8]

/-- A 16-bit value read from its bytes. -/
def ofLe16 (lo hi : UInt8) : UInt16 := lo.toUInt16 ||| hi.toUInt16 <<< 8

@[simp] lemma le16_length (x : UInt16) : (le16 x).length = 2 := rfl

/-- Two bytes and back. -/
lemma ofLe16_le16 (x : UInt16) : ofLe16 x.toUInt8 (x >>> 8).toUInt8 = x := by
  apply UInt16.toNat_inj.mp
  have hx : x.toNat < 65536 := x.toNat_lt
  have h8 : UInt16.toNat 8 % 16 = 8 := rfl
  have hhi : (x.toNat / 2 ^ 8 % 2 ^ 8) <<< 8 % 2 ^ 16 = (x.toNat / 2 ^ 8) <<< 8 := by
    rw [Nat.shiftLeft_eq, Nat.shiftLeft_eq]
    omega
  have hor : (x.toNat / 2 ^ 8) <<< 8 + x.toNat % 2 ^ 8 =
      (x.toNat / 2 ^ 8) <<< 8 ||| x.toNat % 2 ^ 8 :=
    Nat.shiftLeft_add_eq_or_of_lt (Nat.mod_lt _ (by decide)) _
  simp only [ofLe16, UInt16.toNat_or, UInt8.toNat_toUInt16, UInt16.toNat_toUInt8,
    UInt16.toNat_shiftLeft, UInt16.toNat_shiftRight, Nat.shiftRight_eq_div_pow, h8]
  rw [hhi, Nat.or_comm, ← hor, Nat.shiftLeft_eq]
  omega

/-- Memory holds these bytes from `off` on. -/
def Holds (mem : Nat → UInt8) (off : Nat) (bytes : List UInt8) : Prop :=
  ∀ i (h : i < bytes.length), mem (off + i) = bytes[i]

section
variable {mem : Nat → UInt8} {off : Nat}

/-- No bytes. -/
lemma holds_nil : Holds mem off [] := nofun

/-- Bytes behind bytes. -/
lemma holds_append {l m : List UInt8} :
    Holds mem off (l ++ m) ↔ Holds mem off l ∧ Holds mem (off + l.length) m := by
  constructor
  · intro h
    refine ⟨fun i hi => ?_, fun i hi => ?_⟩
    · rw [h i (by rw [List.length_append]; omega), List.getElem_append_left hi]
    · rw [Nat.add_assoc, h (l.length + i) (by rw [List.length_append]; omega),
        List.getElem_append_right (Nat.le_add_right _ _)]
      simp
  · rintro ⟨hl, hm⟩ i hi
    rw [List.getElem_append]
    split
    case isTrue hlt => exact hl i hlt
    case isFalse hge =>
      rw [List.length_append] at hi
      rw [← hm (i - l.length) (by omega)]
      congr 1
      omega

/-- The first byte and the others. -/
lemma holds_cons {b : UInt8} {l : List UInt8} :
    Holds mem off (b :: l) ↔ mem off = b ∧ Holds mem (off + 1) l := by
  rw [← List.singleton_append, holds_append]
  refine and_congr_left fun _ => ⟨fun h => h 0 Nat.one_pos, fun h i hi => ?_⟩
  obtain rfl : i = 0 := Nat.lt_one_iff.mp hi
  exact h

end

/-- The 16-bit value at `off`. -/
def read16 (mem : Nat → UInt8) (off : Nat) : UInt16 := ofLe16 (mem off) (mem (off + 1))

/-- The bytes from `off` on. -/
def readBytes (mem : Nat → UInt8) (off len : Nat) : List UInt8 :=
  (List.range len).map fun i => mem (off + i)

/-- A word that is there is read. -/
lemma read16_holds {mem : Nat → UInt8} {off : Nat} {x : UInt16} (h : Holds mem off (le16 x)) :
    read16 mem off = x := by
  rw [le16, holds_cons, holds_cons] at h
  rw [read16, h.1, h.2.1, ofLe16_le16]

/-- Bytes that are there are read. -/
lemma readBytes_holds {mem : Nat → UInt8} {off : Nat} {bytes : List UInt8}
    (h : Holds mem off bytes) : readBytes mem off bytes.length = bytes := by
  apply List.ext_getElem
  · simp [readBytes]
  · intro i hi hi'
    simp only [readBytes, List.getElem_map, List.getElem_range]
    exact h i hi'

end UwbCore.Lib
