import Mathlib.Tactic

/-!
# Packet buffers

The chained buffers of `dpl_mbuf.c` as far as the transport uses them: reading at an offset, adding
bytes at the end, trimming the end, and filling a fresh buffer. A chain keeps its last buffer apart,
since it is the one that `dpl_mbuf_extend`, `dpl_mbuf_adj` and `dpl_mbuf_append` scroll to.
-/

namespace UwbCore.Transport

/-- A buffer of a chain: its data and the space behind them. -/
structure Seg where
  data : List UInt8
  room : Nat
  deriving DecidableEq, Repr

/-- A chain of buffers, the last one apart. -/
structure Mbuf where
  init : List Seg
  last : Seg
  deriving DecidableEq, Repr

/-- The pool that buffers are taken from: free blocks, data bytes of a block, and what the packet
    header and the user header take of a first block. -/
structure Pool where
  free : Nat
  databufLen : Nat
  pkthdrLen : Nat
  deriving DecidableEq, Repr

def Mbuf.segs (m : Mbuf) : List Seg := m.init ++ [m.last]

def flatten (segs : List Seg) : List UInt8 := segs.flatMap Seg.data

/-- The bytes of a chain. -/
def Mbuf.flat (m : Mbuf) : List UInt8 := flatten m.segs

/-- `omp_len` of the packet header, which every operation changes with the lengths it is the sum
    of. -/
def Mbuf.pktlen (m : Mbuf) : Nat := m.flat.length

/-! ## Operations -/

/-- The first loop of `dpl_mbuf_copydata`: the buffer in which offset `off` lies. -/
def seekSeg : List Seg → Nat → Option (List Seg × Nat)
  | segs, 0 => some (segs, 0)
  | [], _ + 1 => none
  | s :: rest, off + 1 =>
    if off + 1 < s.data.length then some (s :: rest, off + 1)
    else seekSeg rest (off + 1 - s.data.length)

/-- The second loop of `dpl_mbuf_copydata`. -/
def copySegs : List Seg → Nat → Nat → Option (List UInt8)
  | _, _, 0 => some []
  | [], _, _ + 1 => none
  | s :: rest, off, len + 1 =>
    let count := min (s.data.length - off) (len + 1)
    (copySegs rest 0 (len + 1 - count)).map (((s.data.drop off).take count) ++ ·)

/-- C `dpl_mbuf_copydata`; `none` when it returns -1. -/
def dplMbufCopydata (m : Mbuf) (off len : Nat) : Option (List UInt8) :=
  if len = 0 then some []
  else (seekSeg m.segs off).bind fun (segs, off) => copySegs segs off len

/-- C `dpl_mbuf_extend` and the bytes its caller writes to the space gained; `none` is NULL. -/
def dplMbufExtend (pool : Pool) (m : Mbuf) (bytes : List UInt8) : Option (Mbuf × Pool) :=
  if pool.databufLen < bytes.length then none
  else if m.last.room < bytes.length then
    if pool.free = 0 then none
    else some (⟨m.segs, ⟨bytes, pool.databufLen - bytes.length⟩⟩,
      { pool with free := pool.free - 1 })
  else some ({ m with last := ⟨m.last.data ++ bytes, m.last.room - bytes.length⟩ }, pool)

/-- A buffer cut to `count` bytes. -/
def Seg.cut (s : Seg) (count : Nat) : Seg :=
  ⟨s.data.take count, s.room + (s.data.length - count)⟩

/-- The last loop of `dpl_mbuf_adj`: the chain cut to `count` bytes. -/
def cutSegs (last : Seg) : List Seg → Nat → Mbuf
  | [], count => ⟨[], last.cut count⟩
  | s :: rest, count =>
    if count ≤ s.data.length then ⟨[], s.cut count⟩
    else
      let m := cutSegs last rest (count - s.data.length)
      ⟨s :: m.init, m.last⟩

/-- C `dpl_mbuf_adj` with the negative argument `-len`: `len` bytes trimmed from the end, and the
    buffers behind the new end freed. -/
def dplMbufAdj (pool : Pool) (m : Mbuf) (len : Nat) : Mbuf × Pool :=
  if len ≤ m.last.data.length then
    ({ m with last := m.last.cut (m.last.data.length - len) }, pool)
  else
    let m' := cutSegs m.last m.init (m.pktlen - len)
    (m', { pool with free := pool.free + (m.segs.length - m'.segs.length) })

/-- C `dpl_mbuf_get_pkthdr`: the space of a fresh buffer. -/
def dplMbufGetPkthdr (pool : Pool) : Option (Nat × Pool) :=
  if pool.databufLen < pool.pkthdrLen ∨ 255 < pool.pkthdrLen then none
  else if pool.free = 0 then none
  else some (pool.databufLen - pool.pkthdrLen, { pool with free := pool.free - 1 })

/-- The blocks that `dpl_mbuf_append` adds to a chain, and how many are left. -/
def appendBlocks (databufLen : Nat) : Nat → List UInt8 → Option (List Seg × Nat)
  | free, [] => some ([], free)
  | 0, _ :: _ => none
  | free + 1, b :: bytes =>
    let data := (b :: bytes).take databufLen
    (appendBlocks databufLen free ((b :: bytes).drop databufLen)).map fun (segs, free) =>
      (⟨data, databufLen - data.length⟩ :: segs, free)

/-- The chain of a first buffer and those added to it. -/
def chainOf (first : Seg) : List Seg → Mbuf
  | [] => ⟨[], first⟩
  | s :: rest =>
    let m := chainOf s rest
    ⟨first :: m.init, m.last⟩

/-- C `dpl_mbuf_copyinto` at offset 0 of a fresh buffer with `room` bytes of space, where it comes
    down to `dpl_mbuf_append`; `none` when blocks run out. -/
def dplMbufCopyinto (pool : Pool) (room : Nat) (bytes : List UInt8) : Option (Mbuf × Pool) :=
  (appendBlocks pool.databufLen pool.free (bytes.drop room)).map fun (segs, free) =>
    (chainOf ⟨bytes.take room, room - (bytes.take room).length⟩ segs, { pool with free := free })

/-- C `dpl_mbuf_free_chain`. -/
def dplMbufFreeChain (pool : Pool) (m : Mbuf) : Pool :=
  { pool with free := pool.free + m.segs.length }

/-! ## What they do to the bytes -/

@[simp] lemma flatten_nil : flatten [] = [] := rfl

@[simp] lemma flatten_cons (s : Seg) (segs : List Seg) :
    flatten (s :: segs) = s.data ++ flatten segs := rfl

@[simp] lemma flatten_append (l m : List Seg) : flatten (l ++ m) = flatten l ++ flatten m := by
  rw [flatten, List.flatMap_append, flatten, flatten]

/-- The bytes of a chain: the last buffer and those before it. -/
lemma Mbuf.flat_eq (m : Mbuf) : m.flat = flatten m.init ++ m.last.data := by
  rw [Mbuf.flat, Mbuf.segs, flatten_append, flatten_cons, flatten_nil, List.append_nil]

/-- The first loop finds where the bytes from `off` on start. -/
lemma seekSeg_some {segs : List Seg} {off : Nat} (h : off ≤ (flatten segs).length) :
    ∃ segs' off', seekSeg segs off = some (segs', off') ∧
      (flatten segs').drop off' = (flatten segs).drop off ∧
      ∀ s rest, segs' = s :: rest → off' ≤ s.data.length := by
  induction segs generalizing off with
  | nil =>
    cases off with
    | zero => exact ⟨[], 0, rfl, rfl, fun _ _ _ => Nat.zero_le _⟩
    | succ off => simp at h
  | cons s rest ih =>
    cases off with
    | zero => exact ⟨s :: rest, 0, rfl, rfl, fun _ _ _ => Nat.zero_le _⟩
    | succ off =>
      rw [seekSeg]
      split
      case isTrue hlt =>
        refine ⟨s :: rest, off + 1, rfl, rfl, fun s' rest' e => ?_⟩
        cases e
        exact hlt.le
      case isFalse hge =>
        rw [flatten_cons, List.length_append] at h
        obtain ⟨segs', off', hseek, hdrop, hoff⟩ := @ih (off + 1 - s.data.length) (by omega)
        refine ⟨segs', off', hseek, ?_, hoff⟩
        have hnil : s.data.drop (off + 1) = [] := List.drop_eq_nil_of_le (by omega)
        rw [hdrop, flatten_cons, List.drop_append, hnil, List.nil_append]

/-- The second loop copies what is there from `off` on. -/
lemma copySegs_some {segs : List Seg} {off len : Nat}
    (h : len ≤ ((flatten segs).drop off).length)
    (hoff : ∀ s rest, segs = s :: rest → off ≤ s.data.length) :
    copySegs segs off len = some (((flatten segs).drop off).take len) := by
  induction segs generalizing off len with
  | nil =>
    cases len with
    | zero => simp [copySegs]
    | succ len => simp at h
  | cons s rest ih =>
    cases len with
    | zero => simp [copySegs]
    | succ len =>
      have hs := hoff s rest rfl
      have hdrop : (flatten (s :: rest)).drop off = s.data.drop off ++ flatten rest := by
        rw [flatten_cons, List.drop_append_of_le_length hs]
      rw [hdrop, List.length_append, List.length_drop] at h
      have hrest := @ih 0 (len + 1 - min (s.data.length - off) (len + 1))
        (by rw [List.drop_zero]; omega) (fun _ _ _ => Nat.zero_le _)
      rw [copySegs, hrest, hdrop, List.drop_zero, Option.map_some, List.take_append,
        List.length_drop]
      congr 2
      · rcases Nat.le_total (s.data.length - off) (len + 1) with hle | hle
        · rw [min_eq_left hle, List.take_of_length_le (by simp),
            List.take_of_length_le (by simpa using hle)]
        · rw [min_eq_right hle]
      · congr 1
        omega

/-- Reading inside a chain succeeds and gives the bytes there. -/
lemma dplMbufCopydata_some {m : Mbuf} {off len : Nat} (h : off + len ≤ m.pktlen) :
    dplMbufCopydata m off len = some ((m.flat.drop off).take len) := by
  rw [dplMbufCopydata]
  split
  case isTrue h0 => rw [h0, List.take_zero]
  case isFalse =>
    rw [Mbuf.pktlen, Mbuf.flat] at h
    obtain ⟨segs', off', hseek, hdrop, hoff⟩ := @seekSeg_some m.segs off (by omega)
    rw [hseek, Option.bind_some, Mbuf.flat, ← hdrop]
    refine copySegs_some ?_ hoff
    rw [hdrop, List.length_drop]
    omega

/-- The bytes of an extension end up at the end, in one buffer. -/
lemma dplMbufExtend_some {pool pool' : Pool} {m m' : Mbuf} {bytes : List UInt8}
    (h : dplMbufExtend pool m bytes = some (m', pool')) :
    m'.flat = m.flat ++ bytes ∧ ∃ l, m'.last.data = l ++ bytes := by
  rw [dplMbufExtend] at h
  split at h
  · cases h
  · split at h
    · split at h
      · cases h
      · cases h
        rw [Mbuf.flat_eq]
        exact ⟨rfl, [], rfl⟩
    · cases h
      rw [Mbuf.flat_eq, Mbuf.flat_eq, List.append_assoc]
      exact ⟨rfl, m.last.data, rfl⟩

/-- What was trimmed from the last buffer can be put back without a new block. -/
lemma dplMbufExtend_adj {pool : Pool} {m : Mbuf} {bytes : List UInt8}
    (hlast : bytes.length ≤ m.last.data.length) (hpool : bytes.length ≤ pool.databufLen) :
    ∃ m', dplMbufExtend (dplMbufAdj pool m bytes.length).2 (dplMbufAdj pool m bytes.length).1
        bytes = some (m', pool) ∧
      m'.flat = m.flat.take (m.pktlen - bytes.length) ++ bytes ∧
      m'.last.data.length = m.last.data.length := by
  have hlen : (m.last.data.take (m.last.data.length - bytes.length)).length =
      m.last.data.length - bytes.length := by
    rw [List.length_take]
    omega
  have hroom : ¬ (m.last.cut (m.last.data.length - bytes.length)).room < bytes.length := by
    rw [Seg.cut]
    dsimp only
    omega
  rw [dplMbufAdj, if_pos hlast, dplMbufExtend, if_neg (Nat.not_lt.mpr hpool), if_neg hroom]
  refine ⟨_, rfl, ?_, ?_⟩
  · have hcut : m.pktlen - bytes.length =
        (flatten m.init).length + (m.last.data.length - bytes.length) := by
      rw [Mbuf.pktlen, Mbuf.flat_eq, List.length_append]
      omega
    rw [hcut, Mbuf.flat_eq, Mbuf.flat_eq, List.take_length_add_append, List.append_assoc]
    rfl
  · rw [Seg.cut, List.length_append, hlen]
    omega

/-- Bytes are appended if and only if there are blocks for them. -/
lemma appendBlocks_isSome (d free : Nat) (bytes : List UInt8) :
    (appendBlocks d free bytes).isSome ↔ bytes.length ≤ free * d := by
  induction free generalizing bytes with
  | zero =>
    cases bytes with
    | nil => simp [appendBlocks]
    | cons b bytes => simp [appendBlocks]
  | succ free ih =>
    cases bytes with
    | nil => simp [appendBlocks]
    | cons b bytes =>
      rw [appendBlocks, Option.isSome_map, ih, List.length_drop, Nat.succ_mul]
      omega

/-- The blocks that are added hold the bytes. -/
lemma appendBlocks_flatten {d free free' : Nat} {bytes : List UInt8} {segs : List Seg}
    (h : appendBlocks d free bytes = some (segs, free')) : flatten segs = bytes := by
  induction free generalizing bytes segs with
  | zero =>
    cases bytes with
    | nil =>
      cases h
      rfl
    | cons b bytes => cases h
  | succ free ih =>
    cases bytes with
    | nil =>
      cases h
      rfl
    | cons b bytes =>
      obtain ⟨⟨segs', free''⟩, hrest, he⟩ := Option.map_eq_some_iff.mp h
      cases he
      rw [flatten_cons, ih hrest, List.take_append_drop]

/-- The buffers of a chain. -/
lemma chainOf_segs (first : Seg) (segs : List Seg) : (chainOf first segs).segs = first :: segs := by
  induction segs generalizing first with
  | nil => rfl
  | cons s rest ih =>
    have h := ih s
    rw [Mbuf.segs] at h ⊢
    rw [chainOf, List.cons_append, h]

/-- A fresh buffer is filled if and only if there is memory for the bytes, and then holds them. -/
lemma dplMbufCopyinto_isSome (pool : Pool) (room : Nat) (bytes : List UInt8) :
    (dplMbufCopyinto pool room bytes).isSome ↔
      bytes.length ≤ room + pool.free * pool.databufLen := by
  rw [dplMbufCopyinto, Option.isSome_map, appendBlocks_isSome, List.length_drop]
  omega

/-- What is copied in is there. -/
lemma dplMbufCopyinto_flat {pool pool' : Pool} {room : Nat} {bytes : List UInt8} {m : Mbuf}
    (h : dplMbufCopyinto pool room bytes = some (m, pool')) : m.flat = bytes := by
  obtain ⟨⟨segs, free⟩, happ, he⟩ := Option.map_eq_some_iff.mp h
  cases he
  rw [Mbuf.flat, chainOf_segs, flatten_cons, appendBlocks_flatten happ, List.take_append_drop]

end UwbCore.Transport
