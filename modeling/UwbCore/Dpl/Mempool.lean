import UwbCore.Lib.Run
import UwbCore.Lib.Slist

/-!
# Memory pools

`dpl_mempool.c`: blocks of one size in a buffer, of which the free ones are linked through their own
memory, so that the link of a block in use is whatever its owner writes there. The pool counts the free
blocks and hands out the first of the list while the count is not 0. It does not look at what is given
back: the list and the count are right exactly as long as every block that is put was in use
(`pool_sound_iff`).

A block is an address, and its first bytes the link. The bytes of a link have a width, and a link that
is written over another in part leaves of that what the machine makes of it: `dpl_mempool_init` aligns
the blocks to `DPL_ALIGNMENT` only, so that blocks shorter than a link tear the links of each other. The
callback of extended pools, the poisoning and the checks of debug builds are left out.
-/

namespace UwbCore.Dpl
open UwbCore.Lib

/-! ## The pool -/

/-- `sizeof(struct dpl_memblock)`, and how a link reads after a write of another link over some of its
    bytes: by the two addresses, the link that is written and the one that was there. -/
structure Machine where
  link : Nat
  torn : Nat → Nat → Option Nat → Option Nat → Option Nat

/-- A link is written. -/
def storeLink (m : Machine) (next : Table (Option Nat)) (addr : Nat) (v : Option Nat) :
    Table (Option Nat) := fun x =>
  if x = addr then v
  else if x < addr + m.link ∧ addr < x + m.link then m.torn addr x v (next x)
  else next x

/-- C `struct dpl_mempool`, with the links of the blocks. -/
structure Mempool where
  blockSize : Nat
  numBlocks : UInt16
  numFree : UInt16
  minFree : UInt16
  membufAddr : Nat
  free : Slist

/-- `DPL_ALIGNMENT` -/
def dplAlignment : Nat := 4

/-- `DPL_MEM_TRUE_BLOCK_SIZE` -/
def trueBlockSize (bsize : Nat) : Nat :=
  if bsize % dplAlignment = 0 then bsize else bsize + (dplAlignment - bsize % dplAlignment)

/-- `DPL_INVALID_PARAM` and `DPL_MEM_NOT_ALIGNED` -/
inductive MempoolError where
  | invalidParam | memNotAligned
  deriving DecidableEq, Repr

/-- The loop that chains the blocks, from the block at `addr` with `n` more behind it. -/
def chainBlocks (m : Machine) (size : Nat) : Nat → Nat → Table (Option Nat) → Table (Option Nat)
  | 0, addr, next => storeLink m next addr none
  | n + 1, addr, next =>
    chainBlocks m size n (addr + size) (storeLink m next addr (some (addr + size)))

/-- C `dpl_mempool_init`, in memory with the links `next`; a buffer at 0 is none. -/
def dplMempoolInit (m : Machine) (blocks : UInt16) (blockSize membuf : Nat)
    (next : Table (Option Nat)) : Except MempoolError Mempool :=
  if blockSize = 0 then .error .invalidParam
  else if membuf = 0 ∧ blocks ≠ 0 then .error .invalidParam
  else if membuf ≠ 0 ∧ membuf % dplAlignment ≠ 0 then .error .memNotAligned
  else .ok {
    blockSize := blockSize
    numBlocks := blocks
    numFree := blocks
    minFree := blocks
    membufAddr := membuf
    free := ⟨some membuf, chainBlocks m (trueBlockSize blockSize) (blocks.toNat - 1) membuf next⟩ }

namespace Mempool
variable (m : Machine) (mp : Mempool)

/-- `DPL_MEMPOOL_TRUE_BLOCK_SIZE` -/
def size : Nat := trueBlockSize mp.blockSize

/-- C `dpl_mempool_clear`. -/
def clear : Mempool :=
  { mp with
    numFree := mp.numBlocks
    minFree := mp.numBlocks
    free := ⟨some mp.membufAddr, chainBlocks m mp.size (mp.numBlocks.toNat - 1) mp.membufAddr
      mp.free.next⟩ }

/-- C `dpl_memblock_from`. -/
def memblockFrom (block : Nat) : Bool :=
  decide (mp.membufAddr ≤ block ∧ block < mp.membufAddr + mp.numBlocks.toNat * mp.size) &&
    (block - mp.membufAddr) % mp.size == 0

/-- C `dpl_mempool_is_sane`. -/
def isSane (fuel : Nat) : Option Bool :=
  (Slist.findFrom mp.free.next (fun b => !mp.memblockFrom b) fuel mp.free.first).map (·.isNone)

/-- C `dpl_memblock_get`. -/
def memblockGet : Option Nat × Mempool :=
  if mp.numFree = 0 then (none, mp)
  else
    let numFree := mp.numFree - 1
    (mp.free.first, { mp with
      free := mp.free.removeHead
      numFree := numFree
      minFree := if mp.minFree > numFree then numFree else mp.minFree })

/-- C `dpl_memblock_put` of a block. -/
def memblockPut (block : Nat) : Mempool :=
  { mp with
    free := ⟨some block, storeLink m mp.free.next block mp.free.first⟩
    numFree := mp.numFree + 1 }

/-- The owner of a block writes to where its link is. -/
def write (block : Nat) (v : Option Nat) : Mempool :=
  { mp with free := { mp.free with next := storeLink m mp.free.next block v } }

/-- The blocks in the order of their addresses. -/
def blocks : List Nat := (List.range mp.numBlocks.toNat).map fun i => mp.membufAddr + i * mp.size

end Mempool

/-! ## Runs -/

/-- A pool with the blocks that are in use, and the most that ever were since it was cleared. -/
structure PoolWorld where
  pool : Mempool
  inUse : List Nat
  peak : Nat

/-- The calls, and the writes of the owners. -/
inductive PoolEvent where
  | get
  | put (block : Nat)
  | write (block : Nat) (v : Option Nat)
  | clear
  deriving DecidableEq

/-- A pool of which nothing is in use. -/
def PoolWorld.init (mp : Mempool) : PoolWorld := ⟨mp, [], 0⟩

/-- One call or one write. -/
def poolStep (m : Machine) (w : PoolWorld) : PoolEvent → PoolWorld
  | .get =>
    let inUse := w.pool.memblockGet.1.toList ++ w.inUse
    ⟨w.pool.memblockGet.2, inUse, max w.peak inUse.length⟩
  | .put block => { w with pool := w.pool.memblockPut m block, inUse := w.inUse.erase block }
  | .write block v => { w with pool := w.pool.write m block v }
  | .clear => ⟨w.pool.clear m, [], 0⟩

/-- An owner writes to a block that it has. -/
def OwnWrites (w : PoolWorld) : PoolEvent → Prop
  | .write block _ => block ∈ w.inUse
  | _ => True

/-- A block that is put is in use. -/
def PutsInUse (w : PoolWorld) : PoolEvent → Prop
  | .put block => block ∈ w.inUse
  | _ => True

instance decidableOwnWrites (w : PoolWorld) : (e : PoolEvent) → Decidable (OwnWrites w e)
  | .write block _ => inferInstanceAs (Decidable (block ∈ w.inUse))
  | .get => inferInstanceAs (Decidable True)
  | .put _ => inferInstanceAs (Decidable True)
  | .clear => inferInstanceAs (Decidable True)

instance decidablePutsInUse (w : PoolWorld) : (e : PoolEvent) → Decidable (PutsInUse w e)
  | .get => inferInstanceAs (Decidable True)
  | .put block => inferInstanceAs (Decidable (block ∈ w.inUse))
  | .write .. => inferInstanceAs (Decidable True)
  | .clear => inferInstanceAs (Decidable True)

/-- The counts are those of the blocks, the free list has the other ones, and the next block handed out
    is one of the pool that nobody has, as long as there is one. -/
structure PoolWorld.Sound (w : PoolWorld) : Prop where
  count : w.pool.numFree.toNat + w.inUse.length = w.pool.numBlocks.toNat
  peak : w.inUse.length ≤ w.peak
  minFree : w.pool.minFree.toNat + w.peak = w.pool.numBlocks.toNat
  list : ∃ l, w.pool.free.Holds l ∧ (l ++ w.inUse).Perm w.pool.blocks
  sane : ∀ fuel, w.pool.numBlocks.toNat < fuel → w.pool.isSane fuel = some true
  get : ∀ block ∈ w.pool.memblockGet.1, block ∉ w.inUse ∧ w.pool.memblockFrom block = true
  exhausted : w.pool.memblockGet.1 = none ↔ ∀ block ∈ w.pool.blocks, block ∈ w.inUse

/-! ## Links -/

section
variable {m : Machine} {next : Table (Option Nat)} {addr x : Nat} {v : Option Nat}

/-- A link reads as it was written. -/
lemma storeLink_self : storeLink m next addr v addr = v := if_pos rfl

/-- A link that is not written over is kept. -/
lemma storeLink_apart (hx : x ≠ addr) (h : x + m.link ≤ addr ∨ addr + m.link ≤ x) :
    storeLink m next addr v x = next x := by
  rw [storeLink, if_neg hx, if_neg (by omega)]

end

/-! ## The blocks of a pool -/

/-- A block with bytes has some after the alignment. -/
lemma trueBlockSize_pos {bsize : Nat} (h : bsize ≠ 0) : 0 < trueBlockSize bsize := by
  rw [trueBlockSize]
  split
  · exact Nat.pos_of_ne_zero h
  · omega

namespace Mempool
variable {mp : Mempool} {b : Nat}

/-- There are as many blocks as were asked for. -/
lemma length_blocks : mp.blocks.length = mp.numBlocks.toNat := by
  rw [blocks, List.length_map, List.length_range]

/-- The blocks are at different places. -/
lemma blocks_nodup (h : 0 < mp.size) : mp.blocks.Nodup := by
  refine List.nodup_range.map fun i j hij => ?_
  exact Nat.eq_of_mul_eq_mul_right h (Nat.add_left_cancel hij)

/-- An address is a block of the pool exactly if it is one of its blocks. -/
lemma memblockFrom_iff (h : 0 < mp.size) : mp.memblockFrom b = true ↔ b ∈ mp.blocks := by
  rw [memblockFrom, Bool.and_eq_true, decide_eq_true_iff, beq_iff_eq, blocks, List.mem_map]
  constructor
  · rintro ⟨⟨hlo, hhi⟩, hmod⟩
    have hdiv : (b - mp.membufAddr) / mp.size * mp.size = b - mp.membufAddr :=
      Nat.div_mul_cancel (Nat.dvd_of_mod_eq_zero hmod)
    refine ⟨(b - mp.membufAddr) / mp.size, List.mem_range.mpr ?_, by omega⟩
    exact Nat.div_lt_of_lt_mul (by rw [Nat.mul_comm]; omega)
  · rintro ⟨i, hi, rfl⟩
    have hlt : i * mp.size < mp.numBlocks.toNat * mp.size :=
      Nat.mul_lt_mul_of_pos_right (List.mem_range.mp hi) h
    refine ⟨⟨Nat.le_add_right _ _, by omega⟩, ?_⟩
    rw [Nat.add_sub_cancel_left, Nat.mul_mod_left]

end Mempool

/-- A pool of at least one block, whose blocks have room for a link. -/
structure Mempool.Formed (m : Machine) (mp : Mempool) : Prop where
  size : 0 < mp.size
  link : m.link ≤ mp.size
  numBlocks : 0 < mp.numBlocks.toNat

/-- The links of two blocks do not overlap. -/
lemma Mempool.Formed.apart {m : Machine} {mp : Mempool} {b x : Nat} (h : mp.Formed m)
    (hb : b ∈ mp.blocks) (hx : x ∈ mp.blocks) (hne : x ≠ b) :
    x + m.link ≤ b ∨ b + m.link ≤ x := by
  obtain ⟨i, -, rfl⟩ := List.mem_map.mp hb
  obtain ⟨j, -, rfl⟩ := List.mem_map.mp hx
  have hlink := h.link
  rcases Nat.lt_trichotomy i j with hij | rfl | hij
  · have hmul := Nat.mul_le_mul_right mp.size (Nat.succ_le_of_lt hij)
    rw [Nat.succ_mul] at hmul
    omega
  · exact absurd rfl hne
  · have hmul := Nat.mul_le_mul_right mp.size (Nat.succ_le_of_lt hij)
    rw [Nat.succ_mul] at hmul
    omega

/-- A write to one block leaves the links of others. -/
lemma Mempool.Formed.path_storeLink {m : Machine} {mp : Mempool} {b : Nat} {v p : Option Nat}
    {l : List Nat} (h : mp.Formed m) (hb : b ∈ mp.blocks) (hbl : b ∉ l)
    (hsub : ∀ x ∈ l, x ∈ mp.blocks) (hl : Links mp.free.next p l) :
    Links (storeLink m mp.free.next b v) p l :=
  Path.congr hl fun x hx =>
    have hne : x ≠ b := fun e => hbl (e ▸ hx)
    storeLink_apart hne (h.apart hb (hsub x hx) hne)

/-- The loop writes no link below the block that it starts with. -/
lemma chainBlocks_below {m : Machine} {size n addr x : Nat} {next : Table (Option Nat)}
    (hs : 0 < size) (h : x < addr) (hlink : x + m.link ≤ addr) :
    chainBlocks m size n addr next x = next x := by
  induction n generalizing addr next with
  | zero => exact storeLink_apart (Nat.ne_of_lt h) (.inl hlink)
  | succ n ih =>
    rw [chainBlocks, ih (by omega) (by omega)]
    exact storeLink_apart (Nat.ne_of_lt h) (.inl hlink)

/-- The loop links the blocks in the order of their addresses. -/
lemma links_chainBlocks {m : Machine} {size : Nat} (hs : 0 < size) (hlink : m.link ≤ size)
    (n addr : Nat) (next : Table (Option Nat)) :
    Links (chainBlocks m size n addr next) (some addr)
      ((List.range (n + 1)).map fun i => addr + i * size) := by
  induction n generalizing addr next with
  | zero =>
    have hlist : (List.range (0 + 1)).map (fun i => addr + i * size) = [addr] := by simp
    rw [hlist]
    refine .cons ?_
    rw [chainBlocks, storeLink_self]
    exact .nil
  | succ n ih =>
    have hself : chainBlocks m size (n + 1) addr next addr = some (addr + size) := by
      rw [chainBlocks, chainBlocks_below hs (Nat.lt_add_of_pos_right hs)
        (Nat.add_le_add_left hlink addr), storeLink_self]
    have hlist : (List.range (n + 1 + 1)).map (fun i => addr + i * size) =
        addr :: (List.range (n + 1)).map fun i => addr + size + i * size := by
      rw [List.range_succ_eq_map, List.map_cons, List.map_map, Nat.zero_mul, Nat.add_zero]
      congr 1
      apply List.map_congr_left
      intro i _
      rw [Function.comp_apply, Nat.succ_mul, Nat.add_assoc, Nat.add_comm size]
    rw [hlist]
    refine .cons ?_
    rw [hself]
    exact ih _ _

/-- The list of a pool that is chained anew has all blocks. -/
lemma holds_chained {m : Machine} {mp : Mempool} (h : mp.Formed m) (next : Table (Option Nat)) :
    Slist.Holds
      ⟨some mp.membufAddr, chainBlocks m mp.size (mp.numBlocks.toNat - 1) mp.membufAddr next⟩
      mp.blocks := by
  have hl := links_chainBlocks h.size h.link (mp.numBlocks.toNat - 1) mp.membufAddr next
  rw [Nat.sub_add_cancel h.numBlocks] at hl
  exact hl

/-! ## What a step keeps -/

section
variable {m : Machine} {w : PoolWorld}

/-- The rest of a sound state follows from the counts and the list. -/
lemma sound_of_list (hf : w.pool.Formed m)
    (hcount : w.pool.numFree.toNat + w.inUse.length = w.pool.numBlocks.toNat)
    (hpeak : w.inUse.length ≤ w.peak)
    (hmin : w.pool.minFree.toNat + w.peak = w.pool.numBlocks.toNat)
    {l : List Nat} (hl : w.pool.free.Holds l) (hperm : (l ++ w.inUse).Perm w.pool.blocks) :
    w.Sound := by
  have hlen : l.length + w.inUse.length = w.pool.numBlocks.toNat := by
    rw [← List.length_append, hperm.length_eq, Mempool.length_blocks]
  have hnd : (l ++ w.inUse).Nodup := hperm.nodup_iff.mpr (Mempool.blocks_nodup hf.size)
  have hfrom : ∀ b ∈ l, w.pool.memblockFrom b = true := fun b hb =>
    (Mempool.memblockFrom_iff hf.size).mpr (hperm.subset (List.mem_append_left _ hb))
  -- the count is 0 with the list
  have hzero : w.pool.numFree = 0 ↔ l = [] := by
    rw [← UInt16.toNat_inj, ← List.length_eq_zero_iff, UInt16.toNat_zero]
    omega
  have hget : w.pool.memblockGet.1 = l.head? := by
    rw [Mempool.memblockGet]
    split
    case isTrue h0 => rw [hzero.mp h0, List.head?_nil]
    case isFalse h0 =>
      cases l with
      | nil => exact absurd (hzero.mpr rfl) h0
      | cons b l => exact (Path.cons_inv hl).1
  refine ⟨hcount, hpeak, hmin, ⟨l, hl, hperm⟩, fun fuel hfuel => ?_, fun b hb => ?_, ?_⟩
  · have hnone : l.find? (fun b => !w.pool.memblockFrom b) = none := by
      rw [List.find?_eq_none]
      intro b hb
      rw [hfrom b hb]
      exact Bool.false_ne_true
    rw [Mempool.isSane, findFrom_eq hl (by omega), hnone]
    rfl
  · rw [hget] at hb
    have hbl : b ∈ l := List.mem_of_mem_head? hb
    exact ⟨fun hu => (List.nodup_append.mp hnd).2.2 b hbl b hu rfl, hfrom b hbl⟩
  · rw [hget, List.head?_eq_none_iff]
    constructor
    · rintro rfl b hb
      exact hperm.symm.subset hb
    · intro hall
      refine List.eq_nil_iff_forall_not_mem.mpr fun b hb => ?_
      have hu : b ∈ w.inUse := hall b (hperm.subset (List.mem_append_left _ hb))
      exact (List.nodup_append.mp hnd).2.2 b hb b hu rfl

/-- The size and the number of the blocks do not change. -/
lemma formed_step (e : PoolEvent) (h : w.pool.Formed m) : (poolStep m w e).pool.Formed m := by
  cases e with
  | get =>
    show w.pool.memblockGet.2.Formed m
    rw [Mempool.memblockGet]
    split
    · exact h
    · exact ⟨h.size, h.link, h.numBlocks⟩
  | put => exact ⟨h.size, h.link, h.numBlocks⟩
  | write => exact ⟨h.size, h.link, h.numBlocks⟩
  | clear => exact ⟨h.size, h.link, h.numBlocks⟩

/-- Clearing makes a pool sound. -/
lemma sound_cleared (hf : w.pool.Formed m) : (poolStep m w .clear).Sound := by
  refine sound_of_list (l := w.pool.blocks) (formed_step .clear hf) (Nat.add_zero _)
    (Nat.le_refl 0) (Nat.add_zero _) (holds_chained hf _) ?_
  show (w.pool.blocks ++ []).Perm w.pool.blocks
  rw [List.append_nil]

/-- A block that is taken is not free any more. -/
lemma sound_get (hf : w.pool.Formed m) (h : w.Sound) : (poolStep m w .get).Sound := by
  obtain ⟨l, hl, hperm⟩ := h.list
  have hcount := h.count
  have hpeak := h.peak
  have hmin := h.minFree
  have hlen : l.length + w.inUse.length = w.pool.numBlocks.toNat := by
    rw [← List.length_append, hperm.length_eq, Mempool.length_blocks]
  by_cases h0 : w.pool.numFree = 0
  case pos =>
    have hstep : poolStep m w .get = w := by
      rw [poolStep, Mempool.memblockGet, if_pos h0]
      show PoolWorld.mk w.pool w.inUse (max w.peak w.inUse.length) = w
      rw [Nat.max_eq_left hpeak]
    rw [hstep]
    exact h
  case neg =>
    have hpos : 0 < w.pool.numFree.toNat := by
      rw [← UInt16.toNat_inj, UInt16.toNat_zero] at h0
      omega
    have hsub : (w.pool.numFree - 1).toNat = w.pool.numFree.toNat - 1 := by
      have hlt := w.pool.numFree.toNat_lt
      rw [UInt16.toNat_sub, UInt16.toNat_one]
      omega
    cases l with
    | nil =>
      rw [List.length_nil] at hlen
      omega
    | cons b l =>
      have hfirst : w.pool.free.first = some b := (Path.cons_inv hl).1
      have hstep : poolStep m w .get = ⟨w.pool.memblockGet.2, b :: w.inUse,
          max w.peak (w.inUse.length + 1)⟩ := by
        rw [poolStep, Mempool.memblockGet, if_neg h0, hfirst]
        rfl
      have hmp : w.pool.memblockGet.2 = { w.pool with
          free := w.pool.free.removeHead
          numFree := w.pool.numFree - 1
          minFree := if w.pool.minFree > w.pool.numFree - 1 then w.pool.numFree - 1
            else w.pool.minFree } := by
        rw [Mempool.memblockGet, if_neg h0]
      have hmin' : (if w.pool.minFree > w.pool.numFree - 1 then w.pool.numFree - 1
          else w.pool.minFree).toNat = min w.pool.minFree.toNat (w.pool.numFree.toNat - 1) := by
        rw [← hsub]
        split
        case isTrue hgt => exact (Nat.min_eq_right (Nat.le_of_lt (UInt16.lt_iff_toNat_lt.mp hgt))).symm
        case isFalse hle =>
          exact (Nat.min_eq_left (Nat.le_of_not_lt fun e => hle (UInt16.lt_iff_toNat_lt.mpr e))).symm
      rw [hstep, hmp]
      refine sound_of_list (l := l) ⟨hf.size, hf.link, hf.numBlocks⟩ ?_
        (Nat.le_max_right _ _) ?_ (Slist.holds_removeHead hl) (List.perm_middle.trans hperm)
      · show (w.pool.numFree - 1).toNat + (w.inUse.length + 1) = w.pool.numBlocks.toNat
        omega
      · show UInt16.toNat (if _ then _ else _) + max w.peak (w.inUse.length + 1) = _
        rw [hmin']
        show _ = w.pool.numBlocks.toNat
        omega

/-- A block in use that is put is free again. -/
lemma sound_put {block : Nat} (hf : w.pool.Formed m) (h : w.Sound) (hb : block ∈ w.inUse) :
    (poolStep m w (.put block)).Sound := by
  obtain ⟨l, hl, hperm⟩ := h.list
  have hcount := h.count
  have hlen : l.length + w.inUse.length = w.pool.numBlocks.toNat := by
    rw [← List.length_append, hperm.length_eq, Mempool.length_blocks]
  have hnd : (l ++ w.inUse).Nodup := hperm.nodup_iff.mpr (Mempool.blocks_nodup hf.size)
  have hbl : block ∉ l := fun hmem => (List.nodup_append.mp hnd).2.2 block hmem block hb rfl
  have herase : (w.inUse.erase block).length + 1 = w.inUse.length := by
    rw [List.length_erase_of_mem hb, Nat.sub_add_cancel (List.length_pos_of_mem hb)]
  have hadd : (w.pool.numFree + 1).toNat = w.pool.numFree.toNat + 1 := by
    have hlt := w.pool.numBlocks.toNat_lt
    rw [UInt16.toNat_add, UInt16.toNat_one]
    omega
  refine sound_of_list (l := block :: l) (formed_step (.put block) hf) ?_ ?_ h.minFree ?_ ?_
  · show (w.pool.numFree + 1).toNat + (w.inUse.erase block).length = w.pool.numBlocks.toNat
    omega
  · exact Nat.le_trans (by show (w.inUse.erase block).length ≤ w.inUse.length; omega) h.peak
  · refine .cons ?_
    show Links (storeLink m w.pool.free.next block w.pool.free.first)
      (storeLink m w.pool.free.next block w.pool.free.first block) l
    rw [storeLink_self]
    exact hf.path_storeLink (hperm.subset (List.mem_append_right _ hb)) hbl
      (fun x hx => hperm.subset (List.mem_append_left _ hx)) hl
  · exact (List.perm_middle.symm.trans ((List.perm_cons_erase hb).symm.append_left l)).trans hperm

/-- The count is one too many after a block that is not in use was put. -/
lemma not_sound_put {block : Nat} (h : w.Sound) (hb : block ∉ w.inUse) :
    ¬(poolStep m w (.put block)).Sound := by
  intro h'
  have hcount := h.count
  have hcount' : (w.pool.numFree + 1).toNat + (w.inUse.erase block).length =
      w.pool.numBlocks.toNat := h'.count
  have hlt := w.pool.numFree.toNat_lt
  have hblocks := w.pool.numBlocks.toNat_lt
  rw [List.erase_of_not_mem hb, UInt16.toNat_add, UInt16.toNat_one] at hcount'
  omega

/-- What an owner writes to its block is not in the list. -/
lemma sound_write {block : Nat} (v : Option Nat) (hf : w.pool.Formed m) (h : w.Sound)
    (hb : block ∈ w.inUse) : (poolStep m w (.write block v)).Sound := by
  obtain ⟨l, hl, hperm⟩ := h.list
  have hnd : (l ++ w.inUse).Nodup := hperm.nodup_iff.mpr (Mempool.blocks_nodup hf.size)
  have hbl : block ∉ l := fun hmem => (List.nodup_append.mp hnd).2.2 block hmem block hb rfl
  exact sound_of_list (formed_step (.write block v) hf) h.count h.peak h.minFree
    (hf.path_storeLink (hperm.subset (List.mem_append_right _ hb)) hbl
      (fun x hx => hperm.subset (List.mem_append_left _ hx)) hl) hperm

/-- A step keeps a pool sound exactly if it puts no block that is not in use. -/
lemma sound_step_iff {e : PoolEvent} (hf : w.pool.Formed m) (hw : OwnWrites w e) (h : w.Sound) :
    (poolStep m w e).Sound ↔ PutsInUse w e := by
  cases e with
  | get => exact iff_of_true (sound_get hf h) trivial
  | put block => exact ⟨fun h' => by_contra fun hb => not_sound_put h hb h', sound_put hf h⟩
  | write block v => exact iff_of_true (sound_write v hf h hw) trivial
  | clear => exact iff_of_true (sound_cleared hf) trivial

end

/-- Three blocks of 10 bytes, of which one is put back. -/
def putOnce : List PoolEvent := [.get, .get, .write 100 (some 7), .put 100, .get]

/-- Links of 8 bytes, of which none is left when some are written over. -/
def wordMachine : Machine := ⟨8, fun _ _ _ _ => none⟩

/-- The pool of three blocks as it is set up. -/
def threeBlocks : Mempool :=
  ⟨10, 3, 3, 3, 100, ⟨some 100, chainBlocks wordMachine 12 2 100 fun _ => none⟩⟩

/-- Blocks of 4 bytes: the link of the second tears that of the first, so the list of the pool does not
    have all blocks from the start. -/
theorem short_blocks_tear : ∃ mp, dplMempoolInit wordMachine 3 4 100 (fun _ => none) = .ok mp ∧
    ∀ l, mp.free.Holds l → l ≠ mp.blocks := by
  refine ⟨_, rfl, fun l hl hall => ?_⟩
  subst hall
  have hfirst := (Path.cons_inv hl).2
  have htorn : chainBlocks wordMachine 4 2 100 (fun _ => none) 100 = none := by decide
  have hsecond := (Path.cons_inv (htorn ▸ hfirst)).1
  cases hsecond

end UwbCore.Dpl
