import UwbCore.Lib.Cstr
import UwbCore.Lib.Table

/-!
# The configuration entries

The entries of the UWB configuration are strings in buffers of `CFGSTR_STRLEN` bytes.
`uwbcfg_internal_set` copies a value over the start of an entry without its NUL. The entries hold
padded strings at all times (`config_sets`): after any sets an entry is the default, written over by
each value in turn, and its length is the greatest so far. A set therefore leaves its value in the
entry exactly when no value before it was longer (`setGet_iff`).

How many entries there are depends on the radios of the build, so `CFGSTR_MAX` is a parameter.
-/

namespace UwbCore.Uwbcfg
open UwbCore.Lib

/-- C `CFGSTR_STRLEN`. -/
def cfgstrStrlen : Nat := 8

/-- C `g_uwb_config`. -/
abbrev Config := Table (List UInt8)

/-- C `uwbcfg_internal_get`. -/
def uwbcfgInternalGet (cfgstrMax : Nat) (g : Config) (idx : Nat) : Option (List UInt8) :=
  if idx < cfgstrMax then some (g idx) else none

/-- C `uwbcfg_internal_set`. -/
def uwbcfgInternalSet (cfgstrMax : Nat) (g : Config) (idx : Nat) (val : CString) : Int × Config :=
  if idx < cfgstrMax ∧ val.strlen < cfgstrStrlen then
    (0, g.modify idx fun entry => overwrite entry val.bytes)
  else (-1, g)

/-- The default values. A C initialiser may fill the entry up to the last byte. -/
structure Defaults where
  val : Nat → CString
  fits : ∀ i, (val i).strlen ≤ cfgstrStrlen

/-- The entries before any set. -/
def Defaults.config (d : Defaults) : Config := fun i => (d.val i).pad cfgstrStrlen

/-- The entries after some sets. -/
def sets (cfgstrMax : Nat) (g : Config) (es : List (Nat × CString)) : Config :=
  es.foldl (fun g e => (uwbcfgInternalSet cfgstrMax g e.1 e.2).2) g

/-- What an entry reads back as. -/
def reads (cfgstrMax : Nat) (g : Config) (idx : Nat) : Option (List UInt8) :=
  (uwbcfgInternalGet cfgstrMax g idx).bind cstr

/-- A set that returns 0 leaves its value in the entry and the other entries as they are, and one
    that returns -1 leaves everything as it is. -/
def SetGet (cfgstrMax : Nat) (g : Config) (idx : Nat) (val : CString) : Prop :=
  ((uwbcfgInternalSet cfgstrMax g idx val).1 = 0 →
    reads cfgstrMax (uwbcfgInternalSet cfgstrMax g idx val).2 idx = some val.bytes ∧
      ∀ j ≠ idx, (uwbcfgInternalSet cfgstrMax g idx val).2 j = g j) ∧
  ((uwbcfgInternalSet cfgstrMax g idx val).1 = -1 → (uwbcfgInternalSet cfgstrMax g idx val).2 = g)

/-- The value is as long as the default and every value that the entry was set to before. -/
def Longest (d : Defaults) (es : List (Nat × CString)) (idx : Nat) (val : CString) : Prop :=
  (d.val idx).strlen ≤ val.strlen ∧
    ∀ v, (idx, v) ∈ es → v.strlen < cfgstrStrlen → v.strlen ≤ val.strlen

variable {cfgstrMax : Nat}

/-- A value that is accepted is written over the old one. -/
lemma set_of_accepted {idx : Nat} {val : CString}
    (h : idx < cfgstrMax ∧ val.strlen < cfgstrStrlen) (g : Config) :
    uwbcfgInternalSet cfgstrMax g idx val =
      (0, g.modify idx fun entry => overwrite entry val.bytes) := if_pos h

/-- A value that is refused changes nothing. -/
lemma set_of_refused {idx : Nat} {val : CString}
    (h : ¬ (idx < cfgstrMax ∧ val.strlen < cfgstrStrlen)) (g : Config) :
    uwbcfgInternalSet cfgstrMax g idx val = (-1, g) := if_neg h

/-! ## The entries as strings -/

/-- A set of the strings that the entries hold. -/
def put (cfgstrMax : Nat) (s : Table CString) (e : Nat × CString) : Table CString :=
  if e.1 < cfgstrMax ∧ e.2.strlen < cfgstrStrlen then s.modify e.1 fun old => old.overlay e.2 else s

/-- The strings that the entries hold after some sets. -/
def held (cfgstrMax : Nat) (s : Table CString) (es : List (Nat × CString)) : Table CString :=
  es.foldl (put cfgstrMax) s

/-- The entries that hold these strings. -/
def entries (s : Table CString) : Config := fun i => (s i).pad cfgstrStrlen

/-- No string is longer than an entry. -/
def Fit (s : Table CString) : Prop := ∀ i, (s i).strlen ≤ cfgstrStrlen

/-- The other entries stay. -/
lemma put_of_ne (s : Table CString) {e : Nat × CString} {j : Nat} (h : j ≠ e.1) :
    put cfgstrMax s e j = s j := by
  rw [put]
  split
  case isTrue => exact Table.modify_of_ne _ _ h
  case isFalse => rfl

/-- The entry that is set. -/
lemma put_self (s : Table CString) {e : Nat × CString}
    (h : e.1 < cfgstrMax ∧ e.2.strlen < cfgstrStrlen) :
    put cfgstrMax s e e.1 = (s e.1).overlay e.2 := by
  rw [put, if_pos h, Table.modify_self]

/-- A value that is set. -/
lemma Fit.put {s : Table CString} (hs : Fit s) (e : Nat × CString) : Fit (put cfgstrMax s e) := by
  intro i
  by_cases hi : i = e.1
  case neg => exact put_of_ne s hi ▸ hs i
  case pos =>
    by_cases h : e.1 < cfgstrMax ∧ e.2.strlen < cfgstrStrlen
    case neg =>
      rw [Uwbcfg.put, if_neg h]
      exact hs i
    case pos =>
      rw [hi, put_self s h, CString.strlen_overlay]
      exact max_le (hs e.1) h.2.le

/-- Values that are set. -/
lemma Fit.held {s : Table CString} (hs : Fit s) (es : List (Nat × CString)) :
    Fit (held cfgstrMax s es) :=
  List.foldlRecOn es (Uwbcfg.put cfgstrMax) hs fun _ h e _ => h.put e

/-- One set of the entries is one set of the strings they hold. -/
lemma set_entries {s : Table CString} (hs : Fit s) (idx : Nat) (val : CString) :
    (uwbcfgInternalSet cfgstrMax (entries s) idx val).2 = entries (put cfgstrMax s (idx, val)) := by
  by_cases h : idx < cfgstrMax ∧ val.strlen < cfgstrStrlen
  case neg => rw [set_of_refused h, put, if_neg h]
  case pos =>
    rw [set_of_accepted h, put, if_pos h]
    funext j
    show (if j = idx then _ else _) = CString.pad _ (if j = idx then _ else _)
    split
    case isTrue => exact overwrite_pad (hs idx) h.2.le
    case isFalse => rfl

/-- The entries hold strings after any sets. -/
theorem sets_entries {s : Table CString} (hs : Fit s) (es : List (Nat × CString)) :
    sets cfgstrMax (entries s) es = entries (held cfgstrMax s es) := by
  induction es generalizing s with
  | nil => rfl
  | cons e es ih =>
    show sets cfgstrMax (uwbcfgInternalSet cfgstrMax (entries s) e.1 e.2).2 es = _
    rw [set_entries hs]
    exact ih (hs.put e)

/-- How long the string of an entry is after one set. -/
lemma strlen_put_le_iff {s : Table CString} {e : Nat × CString} {idx n : Nat}
    (hidx : idx < cfgstrMax) :
    (put cfgstrMax s e idx).strlen ≤ n ↔
      (s idx).strlen ≤ n ∧ (idx = e.1 → e.2.strlen < cfgstrStrlen → e.2.strlen ≤ n) := by
  by_cases hi : idx = e.1
  case neg => simp [put_of_ne s hi, hi]
  case pos =>
    subst hi
    by_cases hv : e.2.strlen < cfgstrStrlen
    case neg => simp [put, hv]
    case pos => simp [put_self s ⟨hidx, hv⟩, hv]

/-- The string of an entry is no longer than a bound exactly if nothing it was set to is. -/
lemma strlen_held_le_iff {s : Table CString} {es : List (Nat × CString)} {idx n : Nat}
    (hidx : idx < cfgstrMax) :
    (held cfgstrMax s es idx).strlen ≤ n ↔
      (s idx).strlen ≤ n ∧ ∀ v, (idx, v) ∈ es → v.strlen < cfgstrStrlen → v.strlen ≤ n := by
  induction es generalizing s with
  | nil => simp [held]
  | cons e es ih =>
    show (held cfgstrMax (put cfgstrMax s e) es idx).strlen ≤ n ↔ _
    rw [ih, strlen_put_le_iff hidx, and_assoc]
    apply and_congr_right
    intro _
    obtain ⟨i, w⟩ := e
    simp only [List.mem_cons, Prod.mk.injEq]
    constructor
    · rintro ⟨hw, hes⟩ v (⟨rfl, rfl⟩ | hv)
      · exact hw rfl
      · exact hes v hv
    · intro h
      exact ⟨fun hi => h w (.inl ⟨hi, rfl⟩), fun v hv => h v (.inr hv)⟩

/-! ## When a set can be read back -/

/-- A value reads back after its set exactly if the string before it is not longer. -/
lemma reads_set_iff {s : Table CString} (hs : Fit s) {idx : Nat} {val : CString}
    (h : idx < cfgstrMax ∧ val.strlen < cfgstrStrlen) :
    reads cfgstrMax (uwbcfgInternalSet cfgstrMax (entries s) idx val).2 idx = some val.bytes ↔
      (s idx).strlen ≤ val.strlen := by
  rw [set_entries hs, reads, uwbcfgInternalGet, if_pos h.1, Option.bind_some, entries,
    put_self s h, cstr_pad, ← CString.overlay_eq_iff]
  constructor
  · intro e
    split at e
    case isTrue => exact CString.ext_bytes (Option.some.inj e)
    case isFalse => cases e
  · intro e
    rw [e, if_pos h.2]

/-- After any sets the next one keeps its promise exactly if its value is refused or is as long as
    the default and every value that the entry was set to before. -/
theorem setGet_iff (cfgstrMax : Nat) (d : Defaults) (es : List (Nat × CString)) (idx : Nat)
    (val : CString) :
    SetGet cfgstrMax (sets cfgstrMax d.config es) idx val ↔
      (idx < cfgstrMax → val.strlen < cfgstrStrlen → Longest d es idx val) := by
  have hfit : Fit (held cfgstrMax d.val es) := Fit.held d.fits es
  have hsets : sets cfgstrMax d.config es = entries (held cfgstrMax d.val es) :=
    sets_entries d.fits es
  rw [hsets]
  by_cases h : idx < cfgstrMax ∧ val.strlen < cfgstrStrlen
  case pos =>
    rw [SetGet, reads_set_iff hfit h, strlen_held_le_iff h.1, set_of_accepted h]
    constructor
    · rintro ⟨hkept, -⟩ - -
      exact (hkept rfl).1
    · intro hlong
      refine ⟨fun _ => ⟨hlong h.1 h.2, fun j hj => ?_⟩, fun hrc : (0 : Int) = -1 => ?_⟩
      · dsimp only
        exact Table.modify_of_ne _ _ hj
      · cases hrc
  case neg =>
    rw [SetGet, set_of_refused h]
    constructor
    · intro _ hidx hval
      exact absurd ⟨hidx, hval⟩ h
    · intro _
      refine ⟨fun hrc : (-1 : Int) = 0 => ?_, fun _ => rfl⟩
      cases hrc

/-- The coarse transmit power: 15 where the build says 3, and later 3 again. -/
def power15 : CString := .ofBytes [0x31, 0x35]
def power3 : CString := .ofBytes [0x33]

/-- The value of the example fits. -/
lemma power3_fits (_ : Nat) : power3.strlen ≤ cfgstrStrlen := by decide

def powerDefaults : Defaults := ⟨fun _ => power3, power3_fits⟩

/-- The shorter value leaves the end of the longer one in the entry, which then reads 35. -/
theorem setGet_fails : ¬ ∀ (cfgstrMax : Nat) (d : Defaults) (es : List (Nat × CString)) (idx : Nat)
    (val : CString), idx < cfgstrMax → val.strlen < cfgstrStrlen →
      SetGet cfgstrMax (sets cfgstrMax d.config es) idx val := by
  intro h
  obtain ⟨hkept, -⟩ := h 1 powerDefaults [(0, power15)] 0 power3 (by decide) (by decide)
  obtain ⟨hread, -⟩ := hkept rfl
  have h35 : reads 1 (uwbcfgInternalSet 1 (sets 1 powerDefaults.config [(0, power15)]) 0 power3).2 0 =
      some [0x33, 0x35] := by decide
  rw [h35] at hread
  exact absurd hread (by decide)

end UwbCore.Uwbcfg
