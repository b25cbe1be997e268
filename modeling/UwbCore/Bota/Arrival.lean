import UwbCore.Bota.Packet
import UwbCore.Bota.Upload

/-!
# Packets that arrive

The packets of an image delivered to `bota_upload` in their order, each of them any number of times in a row,
leave the bytes before the next packet in the slot (`Arrived`).

The flash of the receiver keeps what is written to erased bytes, and a byte that is written with the
value it has (`Storage`). The boot loader marks an image behind its last byte, from `markFrom` on.
-/

namespace UwbCore.Bota
open UwbCore.Lib

variable {F : Type}

/-! ## The receiver -/

/-- The area that images are broadcast to. -/
def slotArea (hw : Board F) : UInt8 := hw.flashAreaIdFromImageSlot 1

/-- The flash map at its word, for the bytes of the area. -/
structure Storage (hw : Board F) (byte : F → Nat → UInt8) (markFrom : Nat) : Prop where
  opens : hw.flashAreaOpen (slotArea hw) = true
  write_ok : ∀ f off bytes, off.toNat + bytes.length ≤ (hw.faSize (slotArea hw)).toNat →
    (hw.flashAreaWrite f (slotArea hw) off bytes).1 = true
  write_inside : ∀ f off bytes i, i < bytes.length →
    byte f (off.toNat + i) = 0xff ∨ byte f (off.toNat + i) = bytes.getD i 0 →
    (hw.flashAreaWrite f (slotArea hw) off bytes).1 = true →
    byte (hw.flashAreaWrite f (slotArea hw) off bytes).2 (off.toNat + i) = bytes.getD i 0
  write_outside : ∀ f off bytes i, i < off.toNat ∨ off.toNat + bytes.length ≤ i →
    byte (hw.flashAreaWrite f (slotArea hw) off bytes).2 i = byte f i
  erase_ok : ∀ f, (hw.flashAreaErase f (slotArea hw) 0 (hw.faSize (slotArea hw))).1 = true
  erase_byte : ∀ f i, i < (hw.faSize (slotArea hw)).toNat →
    byte (hw.flashAreaErase f (slotArea hw) 0 (hw.faSize (slotArea hw))).2 i = 0xff
  mark_byte : ∀ f permanent i, i < markFrom → byte (hw.bootSetPending f permanent) i = byte f i

/-- The message with the fields of a packet. -/
def Packet.message (p : Packet) (h : p.data.length < 2 ^ 32) : Message where
  d := p.data
  l := if p.off = 0 then some p.size.toUInt64 else none
  o := some p.off.toUInt64
  s := if p.off = 0 then some p.dstSlot else none
  f := if p.off = 0 then some p.flags else none
  d_length := h

/-- The slot is in the first packet only. -/
lemma message_slot {p : Packet} {h : p.data.length < 2 ^ 32} :
    (p.message h).slot = if p.off = 0 then p.dstSlot else uintMax := by
  unfold Message.slot Packet.message
  split <;> rfl

/-- The size is in the first packet only. -/
lemma message_size {p : Packet} {h : p.data.length < 2 ^ 32} :
    (p.message h).size = if p.off = 0 then p.size.toUInt64 else uintMax := by
  unfold Message.size Packet.message
  split <;> rfl

/-- The flags are in the first packet only. -/
lemma message_flags {p : Packet} {h : p.data.length < 2 ^ 32} :
    (p.message h).flags = if p.off = 0 then p.flags else uintMax := by
  unfold Message.flags Packet.message
  split <;> rfl

/-- The offset is in every packet. -/
lemma message_off {p : Packet} {h : p.data.length < 2 ^ 32} :
    (p.message h).off = p.off.toUInt64 := rfl

/-- The message that a complete packet is decoded to; data longer than `IMGMGR_MAX_CHUNK_SIZE` do
    not fit the buffer. -/
def Packet.decoded (maxChunk : Nat) (p : Packet) : Option Message :=
  if h : p.data.length < 2 ^ 32 then
    if p.data.length ≤ maxChunk then some (p.message h) else none
  else none

/-- What the outcome of a delivery depends on besides the packet. -/
structure Env where
  stack : List UInt8
  checkMem : Bool
  replyOk : Bool

/-- The node that receives, and whether the boot loader has marked the image. -/
structure Receiver (F : Type) where
  upload : Upload
  flash : F
  marked : Bool

/-- The call of `bota_upload` for a packet. -/
def Receiver.call (maxChunk : Nat) (p : Packet) (r : Receiver F) (e : Env) : Call F :=
  ⟨r.flash, p.decoded maxChunk, e.stack, e.checkMem, e.replyOk⟩

/-- The delivery of a packet. -/
def deliver (hw : Board F) (maxChunk : Nat) (p : Packet) (r : Receiver F) (e : Env) : Receiver F :=
  let a := botaUpload hw (r.call maxChunk p e) r.upload
  ⟨a.upload, a.flash, r.marked || a.pending.isSome⟩

/-- The delivery of packets in their order, each once for every one of its environments. -/
def deliverAll (hw : Board F) (maxChunk : Nat) (ds : List (Packet × List Env)) (r : Receiver F) :
    Receiver F :=
  ds.foldl (fun r d => d.2.foldl (deliver hw maxChunk d.1) r) r

/-! ## What has arrived -/

/-- The first `n` bytes of the image are in the slot, up to what the boot loader marks, and the rest
    of it is erased. -/
structure Stored (byte : F → Nat → UInt8) (markFrom : Nat) (image : List UInt8) (n : Nat) (f : F)
    (marked : Bool) : Prop where
  bytes : ∀ i, i < n → marked = false ∨ i < markFrom → byte f i = image.getD i 0
  blank : ∀ i, n ≤ i → i < image.length → byte f i = 0xff

/-- The upload has come to `n`. -/
structure Arrived (hw : Board F) (byte : F → Nat → UInt8) (markFrom : Nat) (src : Source) (n : Nat)
    (r : Receiver F) : Prop where
  stored : Stored byte markFrom src.image n r.flash r.marked
  faId : r.upload.faId = slotArea hw
  size : r.upload.size = src.faSize
  off : r.upload.off.toNat = n

section
variable {hw : Board F} {byte : F → Nat → UInt8} {markFrom maxChunk : Nat} {src : Source}
  {f : F} {marked : Bool} {n : Nat} {r : Receiver F} {e : Env}

/-- Data that belong at `off` are stored there once the bytes before them are, and again. -/
lemma Stored.write (hst : Storage hw byte markFrom) {off : UInt32} {data image : List UInt8}
    (h : Stored byte markFrom image n f marked)
    (hn : n = off.toNat ∨ n = off.toNat + data.length)
    (hdata : data = (image.drop off.toNat).take data.length)
    (hle : off.toNat + data.length ≤ image.length)
    (hok : (hw.flashAreaWrite f (slotArea hw) off data).1 = true) :
    Stored byte markFrom image (off.toNat + data.length)
      (hw.flashAreaWrite f (slotArea hw) off data).2 marked := by
  constructor
  · intro i hi hm
    by_cases hlow : i < off.toNat
    case pos =>
      rw [hst.write_outside f off data i (.inl hlow)]
      exact h.bytes i (by omega) hm
    case neg =>
      obtain ⟨j, rfl⟩ := Nat.exists_eq_add_of_le (Nat.not_lt.mp hlow)
      have hj : j < data.length := by omega
      have heq : data.getD j 0 = image.getD (off.toNat + j) 0 := by
        rw [List.getD_eq_getElem?_getD, List.getD_eq_getElem?_getD, chunk_getElem? hdata hj]
      rw [← heq]
      refine hst.write_inside f off data j hj ?_ hok
      cases hn with
      | inl hn => exact .inl (h.blank _ (by omega) (by omega))
      | inr hn =>
        rw [heq]
        exact .inr (h.bytes _ (by omega) hm)
  · intro i hi hlt
    rw [hst.write_outside f off data i (.inr hi)]
    exact h.blank i (by omega) hlt

/-- The end of the function keeps what is stored. -/
lemma Stored.finish (hst : Storage hw byte markFrom) {c : Call F} {u : Upload}
    (h : Stored byte markFrom src.image n f marked) (hsize : u.size = src.faSize)
    (hoff : u.off.toNat = n) :
    Stored byte markFrom src.image n (finish hw c u f).flash
      (marked || (finish hw c u f).pending.isSome) := by
  unfold Bota.finish
  dsimp only
  split
  case isFalse =>
    rw [Option.isSome_none, Bool.or_false]
    exact h
  case isTrue hc =>
    -- the upload is complete, so nothing of the slot is left erased
    have hn : n = src.image.length := by
      rw [completes, Bool.and_eq_true, beq_iff_eq] at hc
      rw [← hoff, ← hc.1, hsize, faSize_toNat]
    constructor
    · intro i hi hm
      rw [Option.isSome_some, Bool.or_true] at hm
      have hlow : i < markFrom := by
        cases hm with
        | inl hm => cases hm
        | inr hm => exact hm
      rw [hst.mark_byte f _ i hlow]
      exact h.bytes i hi (.inr hlow)
    · intro i hi hlt
      omega

/-- The image fits the slot that it is sent to, and offsets in it are positive as an `int`. -/
structure Fits (hw : Board F) (src : Source) : Prop where
  small : src.image.length < 2 ^ 31
  fits : src.image.length ≤ (hw.faSize (slotArea hw)).toNat

/-- A packet with a chunk of the image, of a size that is decoded. -/
structure Part (src : Source) (maxChunk : Nat) (p : Packet) : Prop where
  size : p.size = src.faSize
  dstSlot : p.dstSlot = 1
  data_ne : p.data ≠ []
  data : p.data = (src.image.drop p.off.toNat).take p.data.length
  length_le : p.data.length ≤ maxChunk

variable {p : Packet}

/-- A part lies within the image. -/
lemma Part.le (hp : Part src maxChunk p) : p.off.toNat + p.data.length ≤ src.image.length :=
  chunk_le hp.data_ne hp.data

/-- It is decoded, and its offset is not the one that stands for none. -/
lemma Part.decoded (hp : Part src maxChunk p) (hfits : Fits hw src) :
    ∃ h, (r.call maxChunk p e).msg = some (p.message h) ∧ (p.message h).off ≠ uintMax := by
  have hsmall := hfits.small
  have hle := hp.le
  have hlt : p.data.length < 2 ^ 32 := by omega
  refine ⟨hlt, ?_, ?_⟩
  · show p.decoded maxChunk = _
    rw [Packet.decoded, dif_pos hlt, if_pos hp.length_le]
  · intro hoff
    have hn := congrArg UInt64.toNat hoff
    have ho : (p.message hlt).off.toNat = p.off.toNat := UInt32.toNat_toUInt64 p.off
    have hmax : uintMax.toNat = 2 ^ 32 - 1 := by decide
    rw [ho, hmax] at hn
    omega

/-- The area of the slot can be written. -/
lemma usable_slotArea (hst : Storage hw byte markFrom) : usable hw (slotArea hw) = true := by
  rw [usable, hst.opens, Bool.and_true, Bool.not_eq_true', decide_eq_false_iff_not]
  exact UInt8.lt_irrefl _

/-- The outcome of a delivery whose data have been written. -/
lemma arrived_of_finish (hst : Storage hw byte markFrom) {u : Upload}
    (ha : botaUpload hw (r.call maxChunk p e) r.upload = finish hw (r.call maxChunk p e) u f)
    (hstored : Stored byte markFrom src.image n f r.marked) (hfa : u.faId = slotArea hw)
    (hsize : u.size = src.faSize) (hoff : u.off.toNat = n) :
    Arrived hw byte markFrom src n (deliver hw maxChunk p r e) := by
  have hup : (deliver hw maxChunk p r e).upload = u := by
    show (botaUpload hw (r.call maxChunk p e) r.upload).upload = u
    rw [ha, finish_eq.1]
  constructor
  · show Stored byte markFrom src.image n (botaUpload hw (r.call maxChunk p e) r.upload).flash
      (r.marked || (botaUpload hw (r.call maxChunk p e) r.upload).pending.isSome)
    rw [ha]
    exact hstored.finish hst hsize hoff
  · rw [hup, hfa]
  · rw [hup, hsize]
  · rw [hup, hoff]

/-- The data of a packet can be written. -/
lemma Part.write_ok (hst : Storage hw byte markFrom) (hfits : Fits hw src)
    (hp : Part src maxChunk p) (f : F) :
    (hw.flashAreaWrite f (slotArea hw) p.off p.data).1 = true :=
  hst.write_ok f p.off p.data (hp.le.trans hfits.fits)

/-- Where an upload comes to with the data of a packet. -/
lemma Part.advance_off (hp : Part src maxChunk p) (hfits : Fits hw src)
    {hlt : p.data.length < 2 ^ 32} {u : Upload} :
    (u.advance (p.message hlt)).off.toNat = p.off.toNat + p.data.length := by
  have hsmall := hfits.small
  have hle := hp.le
  show (p.off.toUInt64 + UInt64.ofNat p.data.length).toUInt32.toNat = _
  rw [UInt64.toNat_toUInt32, UInt64.toNat_add, UInt64.toNat_ofNat', UInt32.toNat_toUInt64]
  omega

/-- A packet behind the first one, delivered in its place or once more. -/
lemma arrived_later (hst : Storage hw byte markFrom) (hfits : Fits hw src)
    (hp : Part src maxChunk p) (h0 : p.off ≠ 0) (h : Arrived hw byte markFrom src n r)
    (hn : n = p.off.toNat ∨ n = p.off.toNat + p.data.length) :
    Arrived hw byte markFrom src (p.off.toNat + p.data.length) (deliver hw maxChunk p r e) := by
  obtain ⟨hlt, hm, hoff⟩ := @Part.decoded F hw maxChunk src r e p hp hfits
  have hz : (p.message hlt).off ≠ 0 := by
    intro hz
    apply h0
    apply UInt32.toNat_inj.mp
    rw [← UInt32.toNat_toUInt64, ← @message_off p hlt, hz]
    rfl
  have htarget : target hw (p.message hlt) r.upload = slotArea hw := by
    rw [target, message_slot, if_neg h0, if_neg (not_not.mpr rfl), h.faId]
  -- without these fields the message leaves the upload as it is
  have hkeep : noteFields hw (p.message hlt) r.upload = r.upload := by
    apply noteFields_eq_iff.mpr
    constructor
    · rw [message_slot, if_neg h0]
      exact fun hs => absurd rfl hs
    · rw [message_size, if_neg h0]
      exact fun hs => absurd rfl hs
    · rw [message_flags, if_neg h0]
      exact fun hs => absurd rfl hs
  have hok := hp.write_ok hst hfits r.flash
  have hwr : hw.flashAreaWrite r.flash r.upload.faId (p.message hlt).off.toUInt32
      (p.message hlt).d = (true, (hw.flashAreaWrite r.flash (slotArea hw) p.off p.data).2) := by
    rw [h.faId, message_off, UInt32.toUInt32_toUInt64, ← hok]
    rfl
  have ha := botaUpload_message hm hoff (by rw [htarget]; exact usable_slotArea hst)
  rw [if_neg hz, hkeep, Stage.next, if_pos rfl] at ha
  refine arrived_of_finish hst (u := r.upload.advance (p.message hlt)) ?_
    (h.stored.write hst hn hp.data hp.le hok) h.faId h.size (hp.advance_off hfits)
  rw [ha]
  show ((storeData hw (p.message hlt) r.upload r.flash).next _) = _
  rw [storeData_written hp.data_ne hwr]
  rfl

/-- The flash that the first packet is written to: erased for it, or as it was. -/
lemma firstBase_stored (hst : Storage hw byte markFrom) (hfits : Fits hw src) {c : Call F}
    {m : Message} (h : Stored byte markFrom src.image n c.flash marked) :
    (firstBase hw c m (slotArea hw)).1 = true ∧ ∃ k, (k = 0 ∨ k = n) ∧
      Stored byte markFrom src.image k (firstBase hw c m (slotArea hw)).2 marked := by
  unfold firstBase
  split
  case isFalse => exact ⟨rfl, n, .inr rfl, h⟩
  case isTrue =>
    refine ⟨hst.erase_ok c.flash, 0, .inl rfl, ?_, ?_⟩
    · intro i hi
      exact absurd hi (Nat.not_lt_zero i)
    · intro i _ hlt
      exact hst.erase_byte c.flash i (hlt.trans_le hfits.fits)

/-- The header of the image is in the data. -/
def Part.Starts (hw : Board F) (p : Packet) : Prop :=
  hw.headerSize ≤ p.data.length ∧ (hw.header p.data).ihMagic = hw.imageMagic

/-- The first packet, delivered to an erased slot or once more. -/
lemma arrived_first (hst : Storage hw byte markFrom) (hfits : Fits hw src)
    (hp : Part src maxChunk p) (h0 : p.off = 0) (hstarts : Part.Starts hw p)
    (h : Stored byte markFrom src.image n r.flash r.marked)
    (hn : n = 0 ∨ n = p.data.length) :
    Arrived hw byte markFrom src p.data.length (deliver hw maxChunk p r e) := by
  obtain ⟨hlt, hm, hoff⟩ := @Part.decoded F hw maxChunk src r e p hp hfits
  have hle := hp.le
  have hdata := hp.data
  rw [h0] at hle hdata
  have htarget : target hw (p.message hlt) r.upload = slotArea hw := by
    rw [target, message_slot, if_pos h0, hp.dstSlot, if_pos (by decide)]
    rfl
  have hz : (p.message hlt).off = 0 := by rw [message_off, h0]; rfl
  have hs : startsImage hw (p.message hlt) = true := by
    rw [startsImage, Bool.and_eq_true, decide_eq_true_eq, beq_iff_eq]
    exact hstarts
  have hfa : (noteFields hw (p.message hlt) r.upload).faId = slotArea hw := by
    rw [noteFields_faId, htarget]
  have ha := botaUpload_message hm hoff (by rw [htarget]; exact usable_slotArea hst)
  rw [if_pos hz, firstPacket_started hs, hfa] at ha
  obtain ⟨herased, k, hk, hstored⟩ := @firstBase_stored F hw byte markFrom src r.marked n hst hfits
    (r.call maxChunk p e) (p.message hlt) h
  generalize firstBase hw (r.call maxChunk p e) (p.message hlt) (slotArea hw) = base at *
  generalize hu : (noteFields hw (p.message hlt) r.upload).restart (p.message hlt) = u at *
  have hufa : u.faId = slotArea hw := by rw [← hu, restart_faId, hfa]
  have husize : u.size = src.faSize := by
    rw [← hu]
    show (p.message hlt).size.toUInt32 = src.faSize
    rw [message_size, if_pos h0, UInt32.toUInt32_toUInt64, hp.size]
  have hok := hp.write_ok hst hfits base.2
  have hwr : hw.flashAreaWrite base.2 u.faId (p.message hlt).off.toUInt32 (p.message hlt).d =
      (true, (hw.flashAreaWrite base.2 (slotArea hw) p.off p.data).2) := by
    rw [hufa, message_off, UInt32.toUInt32_toUInt64, ← hok]
    rfl
  have hlen : p.off.toNat + p.data.length = p.data.length := by rw [h0]; exact Nat.zero_add _
  have hdone := hstored.write hst (by rw [hlen, h0]; show k = 0 ∨ k = p.data.length; omega) hp.data
    hp.le hok
  rw [hlen] at hdone
  refine arrived_of_finish hst (u := u.advance (p.message hlt)) ?_ hdone hufa husize
    (by rw [hp.advance_off hfits, hlen])
  rw [ha, Stage.next, if_pos (by rw [herased]; rfl)]
  show ((storeData hw (p.message hlt) u base.2).next _) = _
  rw [storeData_written hp.data_ne hwr]
  rfl

/-! ## Whole images -/

/-- The slot is ready for the packet at offset `n`. -/
structure Ready (hw : Board F) (byte : F → Nat → UInt8) (markFrom : Nat) (src : Source) (n : Nat)
    (r : Receiver F) : Prop where
  stored : Stored byte markFrom src.image n r.flash r.marked
  arrived : n ≠ 0 → Arrived hw byte markFrom src n r

/-- A packet that is delivered in its place or once more has arrived after it. -/
lemma arrived_deliver (hst : Storage hw byte markFrom) (hfits : Fits hw src)
    (hp : Part src maxChunk p) (hstarts : p.off = 0 → Part.Starts hw p)
    (h : Ready hw byte markFrom src p.off.toNat r ∨
      Arrived hw byte markFrom src (p.off.toNat + p.data.length) r) :
    Arrived hw byte markFrom src (p.off.toNat + p.data.length) (deliver hw maxChunk p r e) := by
  by_cases h0 : p.off = 0
  case pos =>
    have hz : p.off.toNat = 0 := by rw [h0]; rfl
    rw [hz, Nat.zero_add] at h ⊢
    cases h with
    | inl h => exact arrived_first hst hfits hp h0 (hstarts h0) h.stored (.inl rfl)
    | inr h => exact arrived_first hst hfits hp h0 (hstarts h0) h.stored (.inr rfl)
  case neg =>
    cases h with
    | inl h =>
      have hne : p.off.toNat ≠ 0 := fun hz => h0 (UInt32.toNat_inj.mp hz)
      exact arrived_later hst hfits hp h0 (h.arrived hne) (.inl rfl)
    | inr h => exact arrived_later hst hfits hp h0 h (.inr rfl)

/-- The repetitions of a packet change nothing. -/
lemma arrived_repeats (hst : Storage hw byte markFrom) (hfits : Fits hw src)
    (hp : Part src maxChunk p) (hstarts : p.off = 0 → Part.Starts hw p) (es : List Env)
    (h : Arrived hw byte markFrom src (p.off.toNat + p.data.length) r) :
    Arrived hw byte markFrom src (p.off.toNat + p.data.length)
      (es.foldl (deliver hw maxChunk p) r) := by
  induction es generalizing r with
  | nil => exact h
  | cons e es ih => exact ih (arrived_deliver hst hfits hp hstarts (.inr h))

/-- Packets that tile the image from `n` to `m` bring it from `n` to `m`, however often each of them
    is delivered. -/
lemma ready_deliverAll (hst : Storage hw byte markFrom) (hfits : Fits hw src)
    (ds : List (Packet × List Env)) {m : Nat}
    (htiles : Tiles src.image n (ds.map fun d => (d.1.off.toNat, d.1.data)) m)
    (hparts : ∀ d ∈ ds, Part src maxChunk d.1 ∧ (d.1.off = 0 → Part.Starts hw d.1) ∧ d.2 ≠ [])
    (h : Ready hw byte markFrom src n r) :
    Ready hw byte markFrom src m (deliverAll hw maxChunk ds r) := by
  induction ds generalizing n r with
  | nil =>
    cases htiles with
    | done => exact h
  | cons d ds ih =>
    obtain ⟨p, es⟩ := d
    obtain ⟨hp, hstarts, hes⟩ := hparts _ List.mem_cons_self
    cases es with
    | nil => exact absurd rfl hes
    | cons e es =>
      rw [List.map_cons] at htiles
      cases htiles with
      | chunk _ _ hrest =>
        have hfirst : Arrived hw byte markFrom src (p.off.toNat + p.data.length)
            (deliver hw maxChunk p r e) := arrived_deliver hst hfits hp hstarts (.inl h)
        have hall := arrived_repeats hst hfits hp hstarts es hfirst
        exact ih hrest (fun d hd => hparts d (List.mem_cons_of_mem _ hd))
          ⟨hall.stored, fun _ => hall⟩

end

end UwbCore.Bota
