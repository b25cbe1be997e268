import Mathlib.Tactic

/-!
# Chained packet buffers

The buffers of `dpl_mbuf.c` over one pool. A chain is the list of its buffers, and the null pointer is the
list without any. Of a buffer the space before its data, the data and the space behind them are kept, so
that `om_data` and `om_len` can be read off, and the packet header apart when the buffer has one. Of the
pool the number of free blocks is threaded through (`UwbCore.Dpl.Mempool` has the blocks themselves).

Bytes that an operation only makes room for (`dpl_mbuf_extend`, `dpl_mbuf_prepend`) are arguments here: they
stand for whatever is in the memory there, or for what the caller puts there.
-/

namespace UwbCore.Dpl

/-- `struct dpl_mbuf_pkthdr` and the user header behind it. -/
structure Pkthdr where
  len : BitVec 16
  flags : BitVec 16
  user : List UInt8
  deriving DecidableEq, Repr

/-- `struct dpl_mbuf` -/
structure Buf where
  flags : BitVec 8
  hdr : Option Pkthdr
  /-- `DPL_MBUF_LEADINGSPACE` -/
  lead : Nat
  data : List UInt8
  /-- `DPL_MBUF_TRAILINGSPACE` -/
  trail : Nat
  deriving DecidableEq, Repr

/-- `struct dpl_mbuf_pool`: the bytes of a block behind `struct dpl_mbuf`, and the size of a packet header. -/
structure MbufPool where
  databufLen : Nat
  pkthdrSize : Nat
  deriving DecidableEq, Repr

/-- What an operation returns; `failed` is -1. -/
inductive Rc where
  | ok
  | enomem
  | einval
  | failed
  deriving DecidableEq, Repr

/-- `om_pkthdr_len` -/
def MbufPool.hdrLen (p : MbufPool) : Option Pkthdr → Nat
  | none => 0
  | some h => p.pkthdrSize + h.user.length

/-! ## Buffers -/

/-- A fresh buffer. -/
def MbufPool.fresh (p : MbufPool) (lead : Nat) : Buf := ⟨0, none, lead, [], p.databufLen - lead⟩

/-- C `dpl_mbuf_get` -/
def dplMbufGet (p : MbufPool) (free leadingspace : Nat) : Option (Buf × Nat) :=
  if p.databufLen < leadingspace then none
  else if free = 0 then none
  else some (p.fresh leadingspace, free - 1)

/-- C `dpl_mbuf_get_pkthdr`, with the bytes that lie where the user header will be. -/
def dplMbufGetPkthdr (p : MbufPool) (free : Nat) (user : List UInt8) : Option (Buf × Nat) :=
  let pkthdrLen := user.length + p.pkthdrSize
  if p.databufLen < pkthdrLen ∨ 255 < pkthdrLen then none
  else (dplMbufGet p free 0).map fun (om, free) =>
    ({ om with hdr := some ⟨0, 0, user⟩, trail := om.trail - pkthdrLen }, free)

/-- C `dpl_mbuf_free_chain`: every buffer is put back. -/
def dplMbufFreeChain (free : Nat) (om : List Buf) : Nat := free + om.length

/-- C `_dpl_mbuf_copypkthdr` -/
def dplMbufCopypkthdr (p : MbufPool) (new old : Buf) : Buf :=
  { new with hdr := old.hdr, lead := 0, trail := p.databufLen - p.hdrLen old.hdr }

/-- `omp_len` of the first buffer changed by `f`, if that has a packet header. -/
def onLen (f : BitVec 16 → BitVec 16) : List Buf → List Buf
  | [] => []
  | b :: c => { b with hdr := b.hdr.map fun h => { h with len := f h.len } } :: c

/-! ## Adding at the end -/

/-- The last buffer takes what fits in the space behind its data. -/
def fillLast : List Buf → List UInt8 → List Buf × List UInt8
  | [], bytes => ([], bytes)
  | [b], bytes =>
    let space := min b.trail bytes.length
    ([{ b with data := b.data ++ bytes.take space, trail := b.trail - space }], bytes.drop space)
  | b :: next :: c, bytes =>
    let (c', rest) := fillLast (next :: c) bytes
    (b :: c', rest)

/-- The loop of `dpl_mbuf_append` that takes new buffers: they, the free blocks and the bytes left over. -/
def addBufs (p : MbufPool) : Nat → List UInt8 → List Buf × Nat × List UInt8
  | free, [] => ([], free, [])
  | 0, b :: bytes => ([], 0, b :: bytes)
  | free + 1, b :: bytes =>
    let new := p.fresh 0
    let part := (b :: bytes).take p.databufLen
    let (c, free, rest) := addBufs p free ((b :: bytes).drop p.databufLen)
    ({ new with data := part, trail := new.trail - part.length } :: c, free, rest)

/-- C `dpl_mbuf_append` -/
def dplMbufAppend (p : MbufPool) (free : Nat) (om : List Buf) (bytes : List UInt8) :
    List Buf × Nat × Rc :=
  match om with
  | [] => ([], free, .einval)
  | b :: c =>
    let (filled, remainder) := fillLast (b :: c) bytes
    let (new, free, remainder) := addBufs p free remainder
    (onLen (· + .ofNat 16 (bytes.length - remainder.length)) (filled ++ new), free,
      if remainder = [] then .ok else .enomem)

/-- C `dpl_mbuf_off`: the buffers from the one on that holds the offset, and the offset in it. -/
def dplMbufOff : List Buf → Nat → Option (List Buf × Nat)
  | [], _ => none
  | b :: c, off =>
    if off < b.data.length ∨ b.data.length = off ∧ c = [] then some (b :: c, off)
    else dplMbufOff c (off - b.data.length)

/-- The loop of `dpl_mbuf_appendfrom`. -/
def appendfromLoop (p : MbufPool) : Nat → List Buf → List Buf → Nat → Nat → List Buf × Nat × Rc
  | free, dst, _, _, 0 => (dst, free, .ok)
  | free, dst, [], _, _ + 1 => (dst, free, .einval)
  | free, dst, s :: src, off, len + 1 =>
    let chunk := (s.data.drop off).take (len + 1)
    match dplMbufAppend p free dst chunk with
    | (dst, free, .ok) => appendfromLoop p free dst src 0 (len + 1 - chunk.length)
    | (dst, free, rc) => (dst, free, rc)

/-- C `dpl_mbuf_appendfrom` -/
def dplMbufAppendfrom (p : MbufPool) (free : Nat) (dst src : List Buf) (srcOff len : Nat) :
    List Buf × Nat × Rc :=
  match dplMbufOff src srcOff with
  | none => appendfromLoop p free dst [] 0 len
  | some (src, off) => appendfromLoop p free dst src off len

/-- `DPL_MBUF_TRAILINGSPACE` of the last buffer. -/
def lastRoom (c : List Buf) : Nat := (c.getLast?.map Buf.trail).getD 0

/-- C `dpl_mbuf_extend`, with the bytes of the space that is gained; `none` is NULL. -/
def dplMbufExtend (p : MbufPool) (free : Nat) (om : List Buf) (bytes : List UInt8) :
    Option (List Buf × Nat) :=
  if p.databufLen < bytes.length then none
  else if lastRoom om < bytes.length then
    (dplMbufGet p free 0).map fun (newm, free) =>
      (onLen (· + .ofNat 16 bytes.length)
        (om ++ [{ newm with data := bytes, trail := newm.trail - bytes.length }]), free)
  else some (onLen (· + .ofNat 16 bytes.length) (fillLast om bytes).1, free)

/-- `om_pkthdr_len = 0` in the first buffer. -/
def dropHdr (p : MbufPool) : List Buf → List Buf
  | [] => []
  | b :: c => { b with hdr := none, lead := b.lead + p.hdrLen b.hdr } :: c

/-- The length of the second chain of `dpl_mbuf_concat`. -/
def secondLen (second : List Buf) : BitVec 16 :=
  match second.head?.bind Buf.hdr with
  | some h => h.len
  | none => .ofNat 16 (second.map fun b => b.data.length).sum

/-- C `dpl_mbuf_concat` -/
def dplMbufConcat (p : MbufPool) (first second : List Buf) : List Buf :=
  onLen (· + secondLen second) (first ++ dropHdr p second)

/-- The bytes of `src` written over the data from an offset on, in one buffer after the other, and those
    that are left at the end of the chain. -/
def overwrite : List Buf → Nat → List UInt8 → List Buf × List UInt8
  | [], _, src => ([], src)
  | b :: c, off, src =>
    let copylen := min (b.data.length - off) src.length
    let b' := { b with data := b.data.take off ++ src.take copylen ++ b.data.drop (off + copylen) }
    let src := src.drop copylen
    if src = [] then (b' :: c, [])
    else
      let (c', rest) := overwrite c 0 src
      (b' :: c', rest)

/-- C `dpl_mbuf_copyinto`. What does not fit is appended to the last buffer as a chain of its own, with a
    length of 16 bits. -/
def dplMbufCopyinto (p : MbufPool) (free : Nat) (om : List Buf) (off : Nat) (src : List UInt8) :
    List Buf × Nat × Rc :=
  match dplMbufOff om off with
  | none => (om, free, .failed)
  | some (cur, curOff) =>
    let (cur', rest) := overwrite cur curOff src
    let om' := om.take (om.length - cur.length) ++ cur'
    if rest = [] then (om', free, .ok)
    else
      match dplMbufAppend p free om'.getLast?.toList (rest.take (rest.length % 2 ^ 16)) with
      | (last, free, .ok) =>
        (onLen (fun len => .ofNat 16 (max len.toNat (off + rest.length))) (om'.dropLast ++ last), free, .ok)
      | (last, free, rc) => (om'.dropLast ++ last, free, rc)

/-! ## Copies -/

/-- The copy of a buffer in a new one with the same space before the data. -/
def Buf.copyOf (new om : Buf) : Buf :=
  { new with flags := om.flags, data := om.data, trail := new.trail - om.data.length }

/-- The loop of `dpl_mbuf_dup` behind the first buffer. -/
def dupLoop (p : MbufPool) : Nat → List Buf → List Buf → List Buf × Nat
  | free, head, [] => (head, free)
  | free, head, b :: c =>
    match dplMbufGet p free b.lead with
    | none => ([], dplMbufFreeChain free head)
    | some (new, free) => dupLoop p free (head ++ [new.copyOf b]) c

/-- C `dpl_mbuf_dup`; `[]` is NULL. -/
def dplMbufDup (p : MbufPool) (free : Nat) : List Buf → List Buf × Nat
  | [] => ([], free)
  | b :: c =>
    match dplMbufGet p free b.lead with
    | none => ([], free)
    | some (new, free) =>
      let head := if b.hdr.isSome then dplMbufCopypkthdr p new b else new
      dupLoop p free [head.copyOf b] c

/-- The first loop of `dpl_mbuf_copydata`. -/
def seekData : List Buf → Nat → Option (List Buf × Nat)
  | c, 0 => some (c, 0)
  | [], _ + 1 => none
  | b :: c, off + 1 =>
    if off + 1 < b.data.length then some (b :: c, off + 1) else seekData c (off + 1 - b.data.length)

/-- The second loop of `dpl_mbuf_copydata`: the bytes that are copied. -/
def copyLoop : List Buf → Nat → Nat → List UInt8
  | _, _, 0 => []
  | [], _, _ + 1 => []
  | b :: c, off, len + 1 =>
    let part := (b.data.drop off).take (len + 1)
    part ++ copyLoop c 0 (len + 1 - part.length)

/-- C `dpl_mbuf_copydata`: what is written to `dst`. -/
def dplMbufCopydata (m : List Buf) (off len : Nat) : Rc × List UInt8 :=
  if len = 0 then (.ok, [])
  else
    match seekData m off with
    | none => (.failed, [])
    | some (m, off) =>
      let dst := copyLoop m off len
      (if dst.length < len then .failed else .ok, dst)

/-! ## Comparisons -/

/-- The sign of `memcmp`. -/
def memcmp : List UInt8 → List UInt8 → Ordering
  | a :: s, b :: t => if a < b then .lt else if b < a then .gt else memcmp s t
  | _, _ => .eq

/-- The loop of `dpl_mbuf_cmpf`, in which `data_off` has 16 bits; `none` is `INT_MAX`. -/
def cmpfLoop (data : List UInt8) : List Buf → Nat → Nat → Option Ordering
  | [], _, _ => none
  | b :: c, omOff, dataOff =>
    let chunk := min (b.data.length - omOff) (data.length - dataOff)
    match memcmp ((b.data.drop omOff).take chunk) ((data.drop dataOff).take chunk) with
    | .eq =>
      if (dataOff + chunk) % 2 ^ 16 = data.length then some .eq
      else cmpfLoop data c 0 ((dataOff + chunk) % 2 ^ 16)
    | rc => some rc

/-- C `dpl_mbuf_cmpf` -/
def dplMbufCmpf (om : List Buf) (off : Nat) (data : List UInt8) : Option Ordering :=
  if data = [] then some .eq
  else
    match dplMbufOff om off with
    | none => none
    | some (om, off) => cmpfLoop data om off 0

/-- The inner loops of `dpl_mbuf_cmpm`: buffers whose data is used up are left behind. -/
def skipUsed : List Buf → Nat → List Buf × Nat
  | [], off => ([], off)
  | b :: c, off => if b.data.length ≤ off then skipUsed c 0 else (b :: c, off)

/-- The offset lies in the buffer that is found. -/
lemma skipUsed_lt {c : List Buf} {off off' : Nat} {b : Buf} {rest : List Buf}
    (h : skipUsed c off = (b :: rest, off')) : off' < b.data.length := by
  induction c generalizing off with
  | nil => cases h
  | cons b' c ih =>
    rw [skipUsed] at h
    split at h
    case isTrue => exact ih h
    case isFalse hlt =>
      cases h
      exact Nat.lt_of_not_le hlt

/-- The loop of `dpl_mbuf_cmpm`; `none` is `INT_MAX`. -/
def cmpmLoop (cur1 : List Buf) (off1 : Nat) (cur2 : List Buf) (off2 len : Nat) : Option Ordering :=
  if len = 0 then some .eq
  else
    match _h1 : skipUsed cur1 off1, _h2 : skipUsed cur2 off2 with
    | (b1 :: c1, off1), (b2 :: c2, off2) =>
      let chunk := min (min (b1.data.length - off1) (b2.data.length - off2)) len
      match memcmp ((b1.data.drop off1).take chunk) ((b2.data.drop off2).take chunk) with
      | .eq => cmpmLoop (b1 :: c1) (off1 + chunk) (b2 :: c2) (off2 + chunk) (len - chunk)
      | rc => some rc
    | _, _ => none
  termination_by len
  decreasing_by
    have := skipUsed_lt _h1
    have := skipUsed_lt _h2
    omega

/-- C `dpl_mbuf_cmpm` -/
def dplMbufCmpm (om1 : List Buf) (offset1 : Nat) (om2 : List Buf) (offset2 len : Nat) :
    Option Ordering :=
  let (cur1, off1) := (dplMbufOff om1 offset1).getD ([], 0)
  let (cur2, off2) := (dplMbufOff om2 offset2).getD ([], 0)
  cmpmLoop cur1 off1 cur2 off2 len

/-! ## Trimming -/

/-- The loop of `dpl_mbuf_adj` that trims the head, and what it did not trim. -/
def trimHead : List Buf → Nat → List Buf × Nat
  | [], len => ([], len)
  | b :: c, 0 => (b :: c, 0)
  | b :: c, len + 1 =>
    if b.data.length ≤ len + 1 then
      let (c', rest) := trimHead c (len + 1 - b.data.length)
      ({ b with data := [], trail := b.trail + b.data.length } :: c', rest)
    else ({ b with lead := b.lead + (len + 1), data := b.data.drop (len + 1) } :: c, 0)

/-- A buffer cut to `count` bytes. -/
def Buf.cut (b : Buf) (count : Nat) : Buf :=
  { b with data := b.data.take count, trail := b.trail + (b.data.length - count) }

/-- The last buffer cut by `len` bytes. -/
def cutLast (len : Nat) : List Buf → List Buf
  | [] => []
  | [b] => [b.cut (b.data.length - len)]
  | b :: next :: c => b :: cutLast len (next :: c)

/-- `om_len` of the last buffer. -/
def lastLen (c : List Buf) : Nat := (c.getLast?.map fun b => b.data.length).getD 0

/-- The last loop of `dpl_mbuf_adj`: the chain cut to `count` bytes, the buffers behind freed. -/
def cutAt : List Buf → Nat → Nat → List Buf × Nat
  | [], free, _ => ([], free)
  | b :: c, free, count =>
    if count ≤ b.data.length then ([b.cut count], dplMbufFreeChain free c)
    else
      let (c', free) := cutAt c free (count - b.data.length)
      (b :: c', free)

/-- C `dpl_mbuf_adj` -/
def dplMbufAdj (free : Nat) (mp : List Buf) : Int → List Buf × Nat
  | .ofNat reqLen =>
    let (mp, len) := trimHead mp reqLen
    (onLen (· - .ofNat 16 (reqLen - len)) mp, free)
  | .negSucc n =>
    let len := n + 1
    if len ≤ lastLen mp then (onLen (· - .ofNat 16 len) (cutLast len mp), free)
    else
      let count := (mp.map fun b => b.data.length).sum - len
      cutAt (onLen (fun _ => .ofNat 16 count) mp) free count

/-- C `dpl_mbuf_trim_front` -/
def dplMbufTrimFront (p : MbufPool) (free : Nat) : List Buf → List Buf × Nat
  | [] => ([], free)
  | om :: c =>
    if om.data ≠ [] then (om :: c, free)
    else
      let full := c.dropWhile fun b => b.data.isEmpty
      let free := free + (c.length - full.length)
      match full with
      | [] => ([om], free)
      | cur :: rest =>
        if p.hdrLen om.hdr ≤ cur.lead then
          ({ cur with hdr := om.hdr, lead := cur.lead + p.hdrLen cur.hdr - p.hdrLen om.hdr } :: rest,
            free + 1)
        else (om :: cur :: rest, free)

/-! ## The front -/

/-- The new head of `dpl_mbuf_prepend`, with its data at the end of the block. -/
def newHead (p : MbufPool) (free : Nat) (om : Buf) : Option (Buf × Nat) :=
  match om.hdr with
  | none => (dplMbufGet p free 0).map fun (new, free) =>
    ({ new with lead := new.lead + new.trail, trail := 0 }, free)
  | some h => (dplMbufGetPkthdr p free h.user).map fun (new, free) =>
    let new := dplMbufCopypkthdr p new om
    ({ new with lead := new.lead + new.trail, trail := 0 }, free)

/-- A buffer is had from a free block. -/
lemma dplMbufGet_some {p : MbufPool} {free free' lead : Nat} {b : Buf}
    (h : dplMbufGet p free lead = some (b, free')) :
    lead ≤ p.databufLen ∧ b = p.fresh lead ∧ free = free' + 1 := by
  rw [dplMbufGet] at h
  split at h
  case isTrue => cases h
  case isFalse hlead =>
    split at h
    case isTrue => cases h
    case isFalse hfree =>
      cases h
      exact ⟨Nat.le_of_not_lt hlead, rfl, by omega⟩

/-- A buffer with a header is had from a free block. -/
lemma dplMbufGetPkthdr_some {p : MbufPool} {free free' : Nat} {user : List UInt8} {b : Buf}
    (h : dplMbufGetPkthdr p free user = some (b, free')) :
    user.length + p.pkthdrSize ≤ p.databufLen ∧ user.length + p.pkthdrSize ≤ 255 ∧
      b = ⟨0, some ⟨0, 0, user⟩, 0, [], p.databufLen - (user.length + p.pkthdrSize)⟩ ∧
      free = free' + 1 := by
  rw [dplMbufGetPkthdr] at h
  dsimp only at h
  split at h
  case isTrue => cases h
  case isFalse hlen =>
    obtain ⟨⟨b', free''⟩, hget, he⟩ := Option.map_eq_some_iff.mp h
    obtain ⟨-, rfl, hfree⟩ := dplMbufGet_some hget
    cases he
    exact ⟨by omega, by omega, rfl, hfree⟩

/-- The new head takes one block. -/
lemma newHead_lt {p : MbufPool} {free free' : Nat} {om new : Buf}
    (h : newHead p free om = some (new, free')) : free = free' + 1 := by
  rw [newHead] at h
  split at h
  · obtain ⟨⟨b, free''⟩, hget, he⟩ := Option.map_eq_some_iff.mp h
    cases he
    exact (dplMbufGet_some hget).2.2
  · obtain ⟨⟨b, free''⟩, hget, he⟩ := Option.map_eq_some_iff.mp h
    cases he
    exact (dplMbufGetPkthdr_some hget).2.2.2

/-- The loop of `dpl_mbuf_prepend`, with the bytes of the space that is gained; `[]` is NULL. -/
def prependLoop (p : MbufPool) (free : Nat) (om : Buf) (c : List Buf) (bytes : List UInt8) :
    List Buf × Nat :=
  let leading := min bytes.length om.lead
  let left := bytes.length - leading
  let om := { om with
    lead := om.lead - leading
    data := bytes.drop left ++ om.data
    hdr := om.hdr.map fun h => { h with len := h.len + .ofNat 16 leading } }
  if left = 0 then (om :: c, free)
  else
    match _h : newHead p free om with
    | none => ([], dplMbufFreeChain free (om :: c))
    | some (new, free) => prependLoop p free new (dropHdr p (om :: c)) (bytes.take left)
  termination_by free
  decreasing_by
    have := newHead_lt _h
    omega

/-- C `dpl_mbuf_prepend` -/
def dplMbufPrepend (p : MbufPool) (free : Nat) (om : List Buf) (bytes : List UInt8) :
    List Buf × Nat :=
  match om with
  | [] => ([], free)
  | b :: c => prependLoop p free b c bytes

/-- The loop of `dpl_mbuf_pullup`, which moves data to the end of `om2`: that buffer, the rest of the
    chain, the free blocks and what is still wanted. A buffer keeps data only when nothing more is wanted,
    since the loop is entered with space for all that is (`pullupLoop_done`). -/
def pullupLoop : Buf → List Buf → Nat → Nat → Buf × List Buf × Nat × Nat
  | om2, [], free, len => (om2, [], free, len)
  | om2, om :: c, free, len =>
    let count := min (min len om2.trail) om.data.length
    let om2 := { om2 with data := om2.data ++ om.data.take count, trail := om2.trail - count }
    if count < om.data.length then
      (om2, { om with lead := om.lead + count, data := om.data.drop count } :: c, free, len - count)
    else if len - count = 0 then (om2, c, free + 1, 0)
    else pullupLoop om2 c (free + 1) (len - count)

/-- The end of `dpl_mbuf_pullup`. -/
def pullupEnd : Buf × List Buf × Nat × Nat → List Buf × Nat
  | (om2, om, free, len) =>
    if 0 < len then ([], dplMbufFreeChain (free + 1) om) else (om2 :: om, free)

/-- C `dpl_mbuf_pullup`; `[]` is NULL. -/
def dplMbufPullup (p : MbufPool) (free : Nat) (om : List Buf) (len : Nat) : List Buf × Nat :=
  match om with
  | [] => ([], free)
  | b :: c =>
    if len ≤ b.data.length then (b :: c, free)
    else if len ≤ b.data.length + b.trail ∧ c ≠ [] then
      pullupEnd (pullupLoop b c free (len - b.data.length))
    else if p.databufLen - p.hdrLen b.hdr < len then ([], dplMbufFreeChain free (b :: c))
    else
      match dplMbufGet p free 0 with
      | none => ([], dplMbufFreeChain free (b :: c))
      | some (new, free) =>
        let om2 := if b.hdr.isSome then dplMbufCopypkthdr p new b else new
        pullupEnd (pullupLoop om2 (b :: c) free len)

/-- C `dpl_mbuf_prepend_pullup` -/
def dplMbufPrependPullup (p : MbufPool) (free : Nat) (om : List Buf) (bytes : List UInt8) :
    List Buf × Nat :=
  let (om, free) := dplMbufPrepend p free om bytes
  dplMbufPullup p free om bytes.length

end UwbCore.Dpl
