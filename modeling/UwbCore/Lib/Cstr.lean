import Mathlib.Tactic

/-!
# Strings in buffers of a fixed size

A C string (`CString`) is a list of bytes without a NUL. A buffer holds it when the NULs that fill
the buffer up stand after it (`CString.pad`), and a reader finds it there if one of them fits
(`cstr_pad`). A copy of a string over the start of such a buffer leaves what the older string has
beyond the newer one (`overwrite_pad`), so it is the newer one that is read back exactly if the older
one is not longer (`CString.overlay_eq_iff`).
-/

namespace UwbCore.Lib

/-- A string: its bytes without the NUL that ends it. -/
structure CString where
  bytes : List UInt8
  nonzero : ∀ b ∈ bytes, b ≠ 0
  deriving DecidableEq

namespace CString

/-- Without its zeros a list has none. -/
lemma nonzero_filter (l : List UInt8) : ∀ b ∈ l.filter (· ≠ 0), b ≠ 0 := by
  intro b hb
  exact of_decide_eq_true (List.mem_filter.mp hb).2

/-- The string of the bytes of a list other than NUL. -/
def ofBytes (l : List UInt8) : CString := ⟨l.filter (· ≠ 0), nonzero_filter l⟩

/-- C `strlen`. -/
def strlen (s : CString) : Nat := s.bytes.length

/-- A buffer of `n` bytes with the string at its start and NULs after it. -/
def pad (n : Nat) (s : CString) : List UInt8 := s.bytes ++ List.replicate (n - s.strlen) 0

/-- Two strings, one over the other, have no zero. -/
lemma nonzero_overlay (s v : CString) : ∀ b ∈ v.bytes ++ s.bytes.drop v.strlen, b ≠ 0 := by
  intro b hb
  cases List.mem_append.mp hb with
  | inl h => exact v.nonzero b h
  | inr h => exact s.nonzero b (List.mem_of_mem_drop h)

/-- The string `v`, and what `s` has beyond it. -/
def overlay (s v : CString) : CString := ⟨v.bytes ++ s.bytes.drop v.strlen, nonzero_overlay s v⟩

/-- A string is told by its bytes. -/
lemma ext_bytes {s t : CString} (h : s.bytes = t.bytes) : s = t := by
  cases s
  cases t
  cases h
  rfl

@[simp] lemma strlen_overlay (s v : CString) : (s.overlay v).strlen = max s.strlen v.strlen := by
  show (v.bytes ++ s.bytes.drop v.bytes.length).length = max s.bytes.length v.bytes.length
  rw [List.length_append, List.length_drop]
  omega

/-- The older string is gone exactly if it is not longer. -/
theorem overlay_eq_iff {s v : CString} : s.overlay v = v ↔ s.strlen ≤ v.strlen := by
  constructor
  · intro h
    have hlen := strlen_overlay s v
    rw [h] at hlen
    exact hlen ▸ le_max_left _ _
  · intro h
    apply ext_bytes
    show v.bytes ++ s.bytes.drop v.strlen = v.bytes
    rw [List.drop_eq_nil_of_le h, List.append_nil]

end CString

/-- C `memcpy` of some bytes to the start of a buffer. -/
def overwrite (buf bytes : List UInt8) : List UInt8 := bytes ++ buf.drop bytes.length

/-- The string at the start of a buffer, if a NUL ends it there. -/
def cstr (buf : List UInt8) : Option (List UInt8) :=
  if 0 ∈ buf then some (buf.takeWhile (· ≠ 0)) else none

/-- A copy over a padded buffer, as one of strings. -/
lemma overwrite_pad {n : Nat} {s v : CString} (hs : s.strlen ≤ n) (hv : v.strlen ≤ n) :
    overwrite (s.pad n) v.bytes = (s.overlay v).pad n := by
  show v.bytes ++ (s.bytes ++ List.replicate (n - s.strlen) 0).drop v.strlen =
    (v.bytes ++ s.bytes.drop v.strlen) ++ List.replicate (n - (s.overlay v).strlen) 0
  rw [List.append_assoc, List.drop_append, List.drop_replicate, CString.strlen_overlay]
  congr 3
  show n - s.strlen - (v.strlen - s.strlen) = n - max s.strlen v.strlen
  omega

/-- The string in a padded buffer is found there if the buffer has room for a NUL. -/
theorem cstr_pad {n : Nat} {s : CString} :
    cstr (s.pad n) = if s.strlen < n then some s.bytes else none := by
  have hin : 0 ∈ s.pad n ↔ s.strlen < n := by
    rw [CString.pad, List.mem_append, List.mem_replicate]
    constructor
    · rintro (h | ⟨h, -⟩)
      · exact absurd rfl (s.nonzero 0 h)
      · omega
    · intro h
      exact .inr ⟨by omega, rfl⟩
  have htake : (s.pad n).takeWhile (· ≠ 0) = s.bytes := by
    rw [CString.pad, List.takeWhile_append_of_pos]
    · simp
    · intro b hb
      exact decide_eq_true (s.nonzero b hb)
  simp only [cstr, hin, htake]

end UwbCore.Lib
