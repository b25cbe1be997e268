import UwbCore.Lib.Bytes

/-!
# Reading from a buffer

A computation that reads bytes of a buffer, as the tree of its reads. On a given buffer it has a
result (`run`) and the places it reads (`reads`). Buffers that agree on these places give the same
result (`run_congr`), so a computation that stays within the first `len` bytes (`Within`) does not see
what lies behind them.
-/

namespace UwbCore.Lib

inductive Scan (α : Type) where
  | done (a : α)
  | byte (i : Nat) (k : UInt8 → Scan α)

namespace Scan
variable {α β : Type}

def run (mem : Nat → UInt8) : Scan α → α
  | done a => a
  | byte i k => (k (mem i)).run mem

def reads (mem : Nat → UInt8) : Scan α → List Nat
  | done _ => []
  | byte i k => i :: (k (mem i)).reads mem

protected def bind : Scan α → (α → Scan β) → Scan β
  | done a, f => f a
  | byte i k, f => byte i fun b => (k b).bind f

instance : Monad Scan where
  pure := done
  bind := Scan.bind

/-- The byte at `i`. -/
def u8 (i : Nat) : Scan UInt8 := byte i done

/-- The 16-bit value at `i`, least significant byte first. -/
def u16 (i : Nat) : Scan UInt16 := do
  let lo ← u8 i
  let hi ← u8 (i + 1)
  return ofLe16 lo hi

/-- `len` bytes from `off` on. -/
def bytes (off : Nat) : Nat → Scan (List UInt8)
  | 0 => return []
  | len + 1 => do
    let b ← u8 off
    let bs ← bytes (off + 1) len
    return b :: bs

/-- A 64-bit value from its bytes, least significant byte first. -/
def ofLe64 (bs : List UInt8) : UInt64 := bs.foldr (fun b acc => acc <<< 8 ||| b.toUInt64) 0

/-- The 64-bit value at `i`. -/
def u64 (i : Nat) : Scan UInt64 := do
  let bs ← bytes i 8
  return ofLe64 bs

/-- The computation reads the first `len` bytes only. -/
def Within (mem : Nat → UInt8) (len : Nat) (p : Scan α) : Prop := ∀ i ∈ p.reads mem, i < len

section
variable {mem mem' : Nat → UInt8} {len : Nat}

@[simp] lemma run_pure (a : α) : (pure a : Scan α).run mem = a := rfl

@[simp] lemma run_bind (p : Scan α) (f : α → Scan β) :
    (p >>= f).run mem = (f (p.run mem)).run mem := by
  change (p.bind f).run mem = _
  induction p with
  | done a => rfl
  | byte i k ih => exact ih (mem i)

@[simp] lemma reads_bind (p : Scan α) (f : α → Scan β) :
    (p >>= f).reads mem = p.reads mem ++ (f (p.run mem)).reads mem := by
  change (p.bind f).reads mem = _
  induction p with
  | done a => rfl
  | byte i k ih => exact congrArg (i :: ·) (ih (mem i))

@[simp] lemma run_u8 (i : Nat) : (u8 i).run mem = mem i := rfl

@[simp] lemma run_u16 (i : Nat) : (u16 i).run mem = read16 mem i := rfl

@[simp] lemma run_bytes (off n : Nat) : (bytes off n).run mem = readBytes mem off n := by
  induction n generalizing off with
  | zero => rfl
  | succ n ih =>
    rw [bytes, run_bind, run_bind, ih]
    simp only [readBytes, List.range_succ_eq_map, List.map_cons, List.map_map]
    refine congrArg (mem off :: ·) (List.map_congr_left fun i _ => congrArg mem ?_)
    omega

/-- Buffers that agree on the bytes read give the same result, and the same bytes are read. -/
theorem run_congr {p : Scan α} (h : ∀ i ∈ p.reads mem, mem' i = mem i) :
    p.run mem' = p.run mem ∧ p.reads mem' = p.reads mem := by
  induction p with
  | done a => exact ⟨rfl, rfl⟩
  | byte i k ih =>
    have hi : mem' i = mem i := h i List.mem_cons_self
    have hk := ih (mem i) fun j hj => h j (List.mem_cons_of_mem i hj)
    rw [run, reads, hi]
    exact ⟨hk.1, congrArg (i :: ·) hk.2⟩

@[simp] lemma within_pure (a : α) : Within mem len (pure a : Scan α) := fun i hi => by cases hi

@[simp] lemma within_bind {p : Scan α} {f : α → Scan β} :
    Within mem len (p >>= f) ↔ Within mem len p ∧ Within mem len (f (p.run mem)) := by
  simp only [Within, reads_bind, List.mem_append, or_imp, forall_and]

@[simp] lemma within_u8 {i : Nat} : Within mem len (u8 i) ↔ i < len := by
  simp [Within, u8, reads]

@[simp] lemma within_u16 {i : Nat} : Within mem len (u16 i) ↔ i + 1 < len := by
  simp only [u16, within_bind, within_u8, within_pure, and_true]
  omega

@[simp] lemma within_bytes {off n : Nat} :
    Within mem len (bytes off n) ↔ n = 0 ∨ off + n ≤ len := by
  induction n generalizing off with
  | zero => simp [bytes]
  | succ n ih =>
    simp only [bytes, within_bind, within_u8, ih, within_pure, and_true]
    omega

@[simp] lemma run_u64 (i : Nat) : (u64 i).run mem = ofLe64 (readBytes mem i 8) := by
  rw [u64, run_bind, run_bytes, run_pure]

@[simp] lemma within_u64 {i : Nat} : Within mem len (u64 i) ↔ i + 8 ≤ len := by
  simp [u64]

end

/-- The first `len` bytes new, the others as they were: a buffer after a copy. -/
def overlay (old new : Nat → UInt8) (len : Nat) (i : Nat) : UInt8 := if i < len then new i else old i

end Scan

end UwbCore.Lib
