import UwbCore.Bota.Arrival

/-!
# Broadcasting an image

A transfer is lossless when every packet is complete, the slot is smaller than 2^31 bytes and starts with an
image header, and the first packet has all of the header (`lossless_of_safe`). It is not when an encoder call
fails for a packet that is handed out all the same (`lossless_fails`).
-/

namespace UwbCore.Bota
open UwbCore.Lib

variable {F : Type}

/-! ## Transfers -/

/-- A transfer: the slot that is sent, the size and the flags of its packets, the allocations of the
    call that resets the offset and of the calls after it, and the offset left from before. -/
structure Transfer where
  src : Source
  mtu : Int
  flags : UInt64
  reset : Allocs
  pulls : List Allocs
  off : UInt32

/-- The packets of a transfer and the offset that it has come to. -/
def Transfer.out (t : Transfer) (headerSize : Nat) : List Sent × UInt32 :=
  transmit headerSize t.src t.mtu t.flags t.reset t.pulls t.off

/-- Deliveries of all packets in their order, each at least once. -/
structure Deliveries (ps : List Packet) (ds : List (Packet × List Env)) : Prop where
  packets : ds.map Prod.fst = ps
  once : ∀ d ∈ ds, d.2 ≠ []

/-- When the image has been marked, the check had succeeded on the flash before. -/
def Checked (hw : Board F) (c : Call F) (a : Answer F) : Prop :=
  ∀ permanent, a.pending = some permanent →
    ∃ f, botaCheckImage hw c.checkMem f a.upload.faId = true ∧
      a.flash = hw.bootSetPending f permanent

/-- The packets are complete and tile the slot; once they reach its end, an erased slot that they are
    delivered to holds the image, apart from what the boot loader marks; and an image is marked only
    after it has been checked. -/
structure Lossless (hw : Board F) (byte : F → Nat → UInt8) (markFrom maxChunk : Nat)
    (t : Transfer) : Prop where
  complete : ∀ s ∈ (t.out hw.headerSize).1, s.Complete
  tiles : Tiles t.src.image 0 ((t.out hw.headerSize).1.map Sent.chunk)
    (t.out hw.headerSize).2.toNat
  reaches : t.src.image.length ≤ (t.pulls.filter Allocs.gives).length →
    (t.out hw.headerSize).2.toNat = t.src.image.length
  delivered : (t.out hw.headerSize).2.toNat = t.src.image.length →
    ∀ ds, Deliveries ((t.out hw.headerSize).1.map Sent.packet) ds →
    ∀ r : Receiver F, r.marked = false → (∀ i < t.src.image.length, byte r.flash i = 0xff) →
      (deliverAll hw maxChunk ds r).upload.off.toNat = t.src.image.length ∧
        ∀ i < t.src.image.length, (deliverAll hw maxChunk ds r).marked = false ∨ i < markFrom →
          byte (deliverAll hw maxChunk ds r).flash i = t.src.image.getD i 0
  pending : ∀ (c : Call F) (u : Upload), Checked hw c (botaUpload hw c u)

/-- The size of the packets is one that is meant to work. -/
structure Transfer.Sized (hw : Board F) (maxChunk : Nat) (t : Transfer) : Prop where
  mtu_gt : cborOverhead < t.mtu
  mtu_le : t.mtu - cborOverhead ≤ maxChunk
  header_le : hw.headerSize + 8 ≤ maxChunk

/-- The image starts with a header, all of which is in the first packet, and no encoder call fails
    in a packet that is handed out. -/
structure Transfer.Safe (hw : Board F) (t : Transfer) : Prop where
  fits : Fits hw t.src
  header_le : hw.headerSize ≤ t.src.image.length
  magic : ∀ k, hw.headerSize ≤ k → (hw.header (t.src.image.take k)).ihMagic = hw.imageMagic
  first : (hw.headerSize : Int) ≤ firstSize hw.headerSize t.src t.mtu t.reset
  encodes : ∀ a ∈ t.reset :: t.pulls, a.Encodes

section
variable {hw : Board F} {maxChunk : Nat} {t : Transfer}

/-- At the end of a call the image was checked before it is marked. -/
lemma checked_finish (c : Call F) (u : Upload) (f : F) : Checked hw c (finish hw c u f) := by
  intro permanent h
  unfold finish at h ⊢
  dsimp only at h ⊢
  split at h
  case isFalse => cases h
  case isTrue hc =>
    rw [if_pos hc]
    cases h
    rw [completes, Bool.and_eq_true] at hc
    exact ⟨f, hc.2, rfl⟩

/-- A stage before it marks nothing. -/
lemma checked_next {c : Call F} (s : Stage F) {rest : Upload → F → Answer F}
    (h : ∀ u f, Checked hw c (rest u f)) : Checked hw c (s.next rest) := by
  unfold Stage.next
  split
  case isTrue => exact h _ _
  case isFalse =>
    intro permanent hp
    cases hp

/-- An image is marked only after its check. -/
lemma checked_botaUpload (c : Call F) (u : Upload) : Checked hw c (botaUpload hw c u) := by
  have hrefused : ∀ u : Upload, Checked hw c ⟨.einval, u, c.flash, none⟩ := by
    intro u permanent hp
    cases hp
  unfold botaUpload
  cases c.msg with
  | none => exact hrefused u
  | some m =>
    dsimp only
    split
    case isTrue => exact hrefused u
    case isFalse =>
      unfold uploadMessage
      dsimp only
      split
      case isTrue => exact hrefused _
      case isFalse =>
        exact checked_next _ fun u f => checked_next _ fun u f => checked_finish c u f

/-- A packet of a transfer has its place in the image. -/
lemma Transfer.Sized.part (hsized : t.Sized hw maxChunk) (hsafe : t.Safe hw) {s : Sent}
    (hs : s ∈ (t.out hw.headerSize).1) :
    Part t.src maxChunk s.packet ∧ (s.packet.off = 0 → Part.Starts hw s.packet) := by
  obtain ⟨htiles, -⟩ := @transmit_tiles t.src t.reset t.off hw.headerSize t.mtu t.flags
    hsafe.fits.small hsized.mtu_gt t.pulls
  obtain ⟨hmade, -, hfirst⟩ := transmit_made hsafe.fits.small hsized.mtu_gt t.pulls hs
  obtain ⟨hne, hdata⟩ := htiles.mem (List.mem_map_of_mem hs)
  have hmtu := hsized.mtu_le
  have hheader := hsized.header_le
  have hmagic := hsafe.magic
  have hlong := hsafe.header_le
  have hlarge := hsafe.first
  have hlen : ∀ size : Int, size ≤ maxChunk → Made t.src size t.flags s →
      Part t.src maxChunk s.packet := by
    intro size hsize hm
    have hl := congrArg (fun p : Packet => p.data.length) hm
    rw [List.length_take] at hl
    exact ⟨congrArg Packet.size hm, congrArg Packet.dstSlot hm, hne, hdata, by omega⟩
  refine ⟨?_, fun h0 => ?_⟩
  · cases hmade with
    | inl hm => exact hlen _ (by omega) hm
    | inr hm => exact hlen _ hmtu hm
  · rw [Part.Starts, hfirst h0]
    refine ⟨?_, hmagic _ (by omega)⟩
    rw [List.length_take]
    omega

/-- A transfer is lossless when the slot starts with an image header that fits the first packet and
    no encoder call fails in a packet that is handed out. -/
theorem lossless_of_safe (hw : Board F) (byte : F → Nat → UInt8) (markFrom maxChunk : Nat)
    (t : Transfer) (hst : Storage hw byte markFrom) (hsized : t.Sized hw maxChunk)
    (hsafe : t.Safe hw) : Lossless hw byte markFrom maxChunk t := by
  obtain ⟨htiles, hend⟩ := @transmit_tiles t.src t.reset t.off hw.headerSize t.mtu t.flags
    hsafe.fits.small hsized.mtu_gt t.pulls
  refine ⟨fun s hs => ?_, htiles, hend, fun hall ds hds r _ hblank => ?_,
    checked_botaUpload⟩
  · obtain ⟨-, hc, -⟩ := transmit_made hsafe.fits.small hsized.mtu_gt t.pulls hs
    exact hc hsafe.encodes
  · have hpos : t.src.image.length ≠ 0 := by
      have := hw.headerSize_pos
      have := hsafe.header_le
      omega
    have hchunks : (ds.map fun d => (d.1.off.toNat, d.1.data)) =
        (t.out hw.headerSize).1.map Sent.chunk := by
      have h := congrArg (List.map fun p : Packet => (p.off.toNat, p.data)) hds.packets
      rwa [List.map_map, List.map_map] at h
    have hparts : ∀ d ∈ ds, Part t.src maxChunk d.1 ∧ (d.1.off = 0 → Part.Starts hw d.1) ∧
        d.2 ≠ [] := by
      intro d hd
      have hmem : d.1 ∈ (t.out hw.headerSize).1.map Sent.packet := by
        rw [← hds.packets]
        exact List.mem_map_of_mem hd
      obtain ⟨s, hs, he⟩ := List.mem_map.mp hmem
      rw [← he]
      obtain ⟨hp, hstarts⟩ := hsized.part hsafe hs
      exact ⟨hp, hstarts, hds.once d hd⟩
    have hready : Ready hw byte markFrom t.src 0 r :=
      ⟨⟨fun i hi => absurd hi (Nat.not_lt_zero i), fun i _ hi => hblank i hi⟩,
        fun h => absurd rfl h⟩
    have htiles' : Tiles t.src.image 0 (ds.map fun d => (d.1.off.toNat, d.1.data))
        t.src.image.length := by
      rw [hchunks, ← hall]
      exact htiles
    have hdone := (ready_deliverAll hst hsafe.fits ds htiles' hparts hready).arrived hpos
    exact ⟨hdone.off, fun i hi => hdone.stored.bytes i hi⟩

end

/-! ## A slot of 128 bytes -/

/-- The area of slot 1 in memory. -/
def memWrite (f : Nat → UInt8) (off : UInt32) (bytes : List UInt8) : Bool × (Nat → UInt8) :=
  if off.toNat + bytes.length ≤ 128 then
    (true, fun i => if i < off.toNat then f i else bytes[i - off.toNat]?.getD (f i))
  else (false, f)

/-- A write that succeeds stays in the area. -/
lemma memWrite_bounds {f : Nat → UInt8} {off : UInt32} {bytes : List UInt8}
    (h : (memWrite f off bytes).1 = true) : off.toNat + bytes.length ≤ 128 := by
  unfold memWrite at h
  split at h
  case isTrue hle => exact hle
  case isFalse => cases h

/-- The number in the `n` bytes at `i`, least significant byte first. -/
def memWord (bytes : List UInt8) (i n : Nat) : Nat :=
  Nat.ofDigits 256 (((bytes.drop i).take n).map UInt8.toNat)

/-- The header in the first 32 bytes of an image: `ih_magic` at 0 and `ih_ver` at 20. -/
def memHeader (bytes : List UInt8) : ImageHeader where
  ihMagic := .ofNat (memWord bytes 0 4)
  ihVer := ⟨.ofNat (memWord bytes 20 1), .ofNat (memWord bytes 21 1), .ofNat (memWord bytes 22 2),
    .ofNat (memWord bytes 24 4)⟩

/-- The magic number is in the first four bytes. -/
lemma memHeader_take (bytes : List UInt8) {k : Nat} (h : 4 ≤ k) :
    (memHeader (bytes.take k)).ihMagic = (memHeader bytes).ihMagic := by
  show UInt32.ofNat (memWord (bytes.take k) 0 4) = UInt32.ofNat (memWord bytes 0 4)
  rw [memWord, memWord, List.drop_zero, List.drop_zero, List.take_take, Nat.min_eq_left h]

/-- A board that reads and writes its slot in memory, accepts every image with the magic number, and
    marks it in the last 16 bytes. -/
def memBoard : Board (Nat → UInt8) where
  imageMagic := 0x96f3b83d
  headerSize := 32
  headerSize_pos := idleHeader_pos
  header := memHeader
  flashAreaIdFromImageSlot := fun slot => if slot = 0 then 1 else if slot = 1 then 2 else 255
  flashAreaOpen := fun area => area == 2
  faSize := fun _ => 128
  flashAreaRead := fun f _ off len =>
    if off.toNat + len ≤ 128 then some ((List.range len).map fun i => f (off.toNat + i)) else none
  flashAreaWrite := fun f _ off bytes => memWrite f off bytes
  flashAreaErase := fun f _ off sz =>
    (true, fun i => if off.toNat ≤ i ∧ i < off.toNat + sz.toNat then 0xff else f i)
  bootutilImgValidate := fun hdr _ _ => hdr.ihMagic == 0x96f3b83d
  bootSetPending := fun f permanent i =>
    if i < 112 then f i else if permanent then 0x01 else 0x00
  write_bounds := fun _ _ _ _ => memWrite_bounds

/-- The memory keeps what is written, up to the bytes that the boot loader marks. -/
lemma storage_memBoard : Storage memBoard (fun f i => f i) 112 := by
  refine ⟨rfl, ?_, ?_, ?_, fun _ => rfl, ?_, fun _ _ _ hi => if_pos hi⟩
  · intro f off bytes h
    have hle : off.toNat + bytes.length ≤ 128 := h
    show (memWrite f off bytes).1 = true
    rw [memWrite, if_pos hle]
  · intro f off bytes i hi _ hok
    show (memWrite f off bytes).2 (off.toNat + i) = _
    rw [memWrite, if_pos (memWrite_bounds hok)]
    dsimp only
    rw [if_neg (by omega), Nat.add_sub_cancel_left, List.getD_eq_getElem?_getD,
      List.getElem?_eq_getElem hi]
    rfl
  · intro f off bytes i hi
    show (memWrite f off bytes).2 i = f i
    unfold memWrite
    split
    case isFalse => rfl
    case isTrue =>
      dsimp only
      split
      case isTrue => rfl
      case isFalse hlow => rw [List.getElem?_eq_none (by omega)]; rfl
  · intro f i hi
    exact if_pos ⟨Nat.zero_le i, by rwa [show (0 : UInt32).toNat = 0 from rfl, Nat.zero_add]⟩

/-- The content of a slot: an image of version 1.0.0.0, and an erased end. -/
def memBytes : List UInt8 :=
  [0x3d, 0xb8, 0xf3, 0x96] ++ List.replicate 16 0 ++ [1, 0, 0, 0, 0, 0, 0, 0] ++
    List.replicate 84 7 ++ List.replicate 16 0xff

/-- The slot has 128 bytes. -/
lemma memBytes_length : memBytes.length < 2 ^ 32 := by decide +kernel

/-- The slot that is sent. -/
def memImage : Source := ⟨memBytes, memBytes_length, true⟩

/-- A call of which every allocation succeeds. -/
def memAllocs : Allocs := ⟨true, true, true, true, fun _ => true, true⟩

/-- The slot in packets of 40 bytes: the call that resets, whose encoder calls are `ok`, and six calls
    after it, of which one gets no packet and one no buffer. -/
def memTransfer (ok : Nat → Bool) : Transfer :=
  ⟨memImage, 76, 1, { memAllocs with items := ok },
    [{ memAllocs with pkthdr := false }, memAllocs, { memAllocs with buf := false }, memAllocs,
      memAllocs, memAllocs], 0⟩

/-- These are sizes that are meant to work. -/
lemma sized_memTransfer (ok : Nat → Bool) : (memTransfer ok).Sized memBoard 512 :=
  ⟨(by decide : (36 : Int) < 76), (by decide : (76 - 36 : Int) ≤ 512),
    (by decide : 32 + 8 ≤ 512)⟩

/-- Four packets arrive at the end of the slot, although two calls fail on the way. -/
theorem lossless_memTransfer :
    Lossless memBoard (fun f i => f i) 112 512 (memTransfer fun _ => true) ∧
      ((memTransfer fun _ => true).out 32).1.map (fun s => (s.packet.off, s.packet.data.length)) =
        [(0, 40), (40, 40), (80, 40), (120, 8)] ∧
      ((memTransfer fun _ => true).out 32).2 = 128 := by
  refine ⟨?_, by decide +kernel, by decide +kernel⟩
  apply lossless_of_safe memBoard _ 112 512 _ storage_memBoard (sized_memTransfer _)
  refine ⟨⟨by decide +kernel, by decide +kernel⟩, by decide +kernel, ?_, by decide +kernel, ?_⟩
  · intro k hk
    show (memHeader (memBytes.take k)).ihMagic = 0x96f3b83d
    rw [memHeader_take memBytes (Nat.le_trans (by decide) hk)]
    decide +kernel
  · intro a ha hg i
    simp only [memTransfer, List.mem_cons, List.not_mem_nil, or_false] at ha
    rcases ha with rfl | rfl | rfl | rfl | rfl | rfl | rfl <;> rfl

/-- The data of the packet find no memory, the end of the map does: the packet is handed out without
    its data. -/
theorem lossless_fails :
    ¬ ∀ (F : Type) (hw : Board F) (byte : F → Nat → UInt8) (markFrom maxChunk : Nat)
      (t : Transfer), Storage hw byte markFrom → t.Sized hw maxChunk →
        Lossless hw byte markFrom maxChunk t := by
  intro h
  have hl := h _ memBoard (fun f i => f i) 112 512 (memTransfer fun i => i != 9) storage_memBoard
    (sized_memTransfer _)
  have hc : ∀ s ∈ ((memTransfer fun i => i != 9).out 32).1, s.items = s.packet.items := hl.complete
  exact absurd hc (by decide +kernel)

end UwbCore.Bota
