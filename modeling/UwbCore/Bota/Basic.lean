import UwbCore.Lib.Run

/-!
# Firmware uploads

`bota_upload` of `bcast_ota_nmgr.c`, which takes an image from management messages and stores it in
a slot. What it uses of the flash map and of the boot loader is not part of the repository and is a
parameter (`Board`), and so is what the flash holds whenever a message arrives. The decoder is taken
at its word: a message is given by its fields, and one whose data do not fit the buffer is not
decoded. The variant with `BCAST_OTA_SCRATCH_ENABLED`, which is off by default, is left out, and
`malloc` of the buffer for the data is taken to succeed: the function does not return otherwise.
-/

namespace UwbCore.Bota
open UwbCore.Lib

/-! ## The board -/

/-- The fields of `struct image_version` that are compared. -/
structure ImageVersion where
  ivMajor : UInt8
  ivMinor : UInt8
  ivRevision : UInt16
  ivBuildNum : UInt32
  deriving DecidableEq, Repr

/-- The fields of `struct image_header` that are looked at. -/
structure ImageHeader where
  ihMagic : UInt32
  ihVer : ImageVersion
  deriving DecidableEq, Repr

/-- The flash map and the boot loader. `flash_area_write` and `flash_area_erase` tell whether they
    return 0 and what the flash is afterwards, `flash_area_read` fills the buffer or fails. -/
structure Board (F : Type) where
  imageMagic : UInt32
  /-- `sizeof(struct image_header)` -/
  headerSize : Nat
  headerSize_pos : 0 < headerSize
  header : List UInt8 → ImageHeader
  flashAreaIdFromImageSlot : UInt32 → UInt8
  /-- `flash_area_open` returns 0 and an area -/
  flashAreaOpen : UInt8 → Bool
  faSize : UInt8 → UInt32
  flashAreaRead : F → UInt8 → UInt32 → Nat → Option (List UInt8)
  flashAreaWrite : F → UInt8 → UInt32 → List UInt8 → Bool × F
  flashAreaErase : F → UInt8 → UInt32 → UInt32 → Bool × F
  bootutilImgValidate : ImageHeader → F → UInt8 → Bool
  bootSetPending : F → Bool → F
  /-- a write that would leave the area is refused -/
  write_bounds : ∀ f area off bytes, (flashAreaWrite f area off bytes).1 = true →
    off.toNat + bytes.length ≤ (faSize area).toNat

/-! ## The state and the messages -/

/-- C `struct bota_state`. -/
@[ext] structure Upload where
  off : UInt32
  size : UInt32
  uplErrs : UInt32
  slotId : UInt8
  faId : UInt8
  flags : UInt64
  deriving DecidableEq, Repr

def Upload.init : Upload := ⟨0, 0, 0, 0, 0, 0⟩

/-- `UINT_MAX`, which the decoder leaves in a field that a message does not have. -/
def uintMax : UInt64 := 0xffffffff

/-- The attributes of a message. -/
structure Message where
  d : List UInt8
  l : Option UInt64
  o : Option UInt64
  s : Option UInt64
  f : Option UInt64
  d_length : d.length < 2 ^ 32

def Message.size (m : Message) : UInt64 := m.l.getD uintMax
def Message.off (m : Message) : UInt64 := m.o.getD uintMax
def Message.slot (m : Message) : UInt64 := m.s.getD uintMax
def Message.flags (m : Message) : UInt64 := m.f.getD uintMax

/-- What `bota_upload` returns; `erase` is the code that `flash_area_erase` failed with. -/
inductive Rc where
  | eok
  | einval
  | enomem
  | erase
  deriving DecidableEq, Repr

/-- A message that arrives: the flash at that time, the message unless it could not be decoded, what
    the stack holds where `tmp_hdr` will be, whether `bota_check_image` gets its memory, and whether
    the reply can be encoded. -/
structure Call (F : Type) where
  flash : F
  msg : Option Message
  stack : List UInt8
  checkMem : Bool
  replyOk : Bool

/-- What a message leaves behind; `pending` is the argument of `boot_set_pending` if it was called. -/
structure Answer (F : Type) where
  rc : Rc
  upload : Upload
  flash : F
  pending : Option Bool

/-- What a part of `bota_upload` leaves behind; with an error code the rest is not run. -/
structure Stage (F : Type) where
  rc : Rc
  upload : Upload
  flash : F

variable {F : Type}

/-! ## The handler -/

/-- C `bota_check_image`, which returns 0. -/
def botaCheckImage (hw : Board F) (checkMem : Bool) (f : F) (area : UInt8) : Bool :=
  match hw.flashAreaRead f area 0 hw.headerSize with
  | none => false
  | some hdr => checkMem && hw.bootutilImgValidate (hw.header hdr) f area

/-- The fields that a message sets, whatever becomes of it. -/
def noteFields (hw : Board F) (m : Message) (u : Upload) : Upload :=
  let u := if m.slot ≠ uintMax then
      { u with
        slotId := m.slot.toUInt8
        faId := hw.flashAreaIdFromImageSlot m.slot.toUInt32 }
    else u
  let u := if m.size ≠ uintMax then { u with size := m.size.toUInt32 } else u
  if m.flags ≠ uintMax then { u with flags := m.flags } else u

/-- The header that `tmp_hdr` is read from; the result of the read is not looked at. -/
def tmpHdr (hw : Board F) (f : F) (area : UInt8) (stack : List UInt8) : ImageHeader :=
  hw.header ((hw.flashAreaRead f area 0 hw.headerSize).getD stack)

/-- The flash holds no image, or another version than the message. -/
def needsErase (hw : Board F) (f : F) (area : UInt8) (stack : List UInt8) (m : Message) : Bool :=
  (tmpHdr hw f area stack).ihMagic != hw.imageMagic ||
    (hw.header m.d).ihVer != (tmpHdr hw f area stack).ihVer

/-- The data start with the header of an image. -/
def startsImage (hw : Board F) (m : Message) : Bool :=
  decide (hw.headerSize ≤ m.d.length) && (hw.header m.d).ihMagic == hw.imageMagic

/-- The state at the start of an upload. -/
def Upload.restart (u : Upload) (m : Message) : Upload :=
  { u with off := 0, size := m.size.toUInt32, uplErrs := 0 }

/-- What is done for a message with offset 0. -/
def firstPacket (hw : Board F) (stack : List UInt8) (m : Message) (u : Upload) (f : F) : Stage F :=
  if !startsImage hw m then ⟨.einval, u, f⟩
  else if needsErase hw f u.faId stack m then
    let r := hw.flashAreaErase f u.faId 0 (hw.faSize u.faId)
    ⟨if r.1 then .eok else .erase, u.restart m, r.2⟩
  else ⟨.eok, u.restart m, f⟩

/-- The state once the data of a message are written. -/
def Upload.advance (u : Upload) (m : Message) : Upload :=
  { u with
    uplErrs := if u.off.toUInt64 ≠ m.off then u.uplErrs + 1 else u.uplErrs
    off := (m.off + UInt64.ofNat m.d.length).toUInt32 }

/-- The data are written, at the offset narrowed to 32 bits. -/
def storeData (hw : Board F) (m : Message) (u : Upload) (f : F) : Stage F :=
  if m.d = [] then ⟨.eok, u, f⟩
  else
    let r := hw.flashAreaWrite f u.faId m.off.toUInt32 m.d
    if r.1 then ⟨.eok, u.advance m, r.2⟩ else ⟨.einval, u, r.2⟩

/-- The upload has reached its size with an image that is in order. -/
def completes (hw : Board F) (checkMem : Bool) (u : Upload) (f : F) : Bool :=
  u.size == u.off && botaCheckImage hw checkMem f u.faId

/-- `BOTA_FLAGS_SET_PERMANENT` -/
def Upload.permanent (u : Upload) : Bool := u.flags &&& 1 != 0

/-- The end of the function: the image is marked when it is complete, and the reply encoded. -/
def finish (hw : Board F) (c : Call F) (u : Upload) (f : F) : Answer F :=
  let rc := if c.replyOk then .eok else .enomem
  if completes hw c.checkMem u f then
    ⟨rc, u, hw.bootSetPending f u.permanent, some u.permanent⟩
  else ⟨rc, u, f, none⟩

/-- The exit `err_close`, or the next part. -/
def Stage.next (s : Stage F) (rest : Upload → F → Answer F) : Answer F :=
  if s.rc = .eok then rest s.upload s.flash else ⟨s.rc, s.upload, s.flash, none⟩

/-- The area is not the one of slot 0 and can be opened. -/
def usable (hw : Board F) (area : UInt8) : Bool :=
  !decide (area < hw.flashAreaIdFromImageSlot 1) && hw.flashAreaOpen area

/-- `bota_upload` on a message with an offset. -/
def uploadMessage (hw : Board F) (c : Call F) (m : Message) (u : Upload) : Answer F :=
  let u := noteFields hw m u
  if !usable hw u.faId then ⟨.einval, u, c.flash, none⟩
  else
    let s := if m.off = 0 then firstPacket hw c.stack m u c.flash else ⟨.eok, u, c.flash⟩
    s.next fun u f => (storeData hw m u f).next fun u f => finish hw c u f

/-- C `bota_upload`. -/
def botaUpload (hw : Board F) (c : Call F) (u : Upload) : Answer F :=
  match c.msg with
  | none => ⟨.einval, u, c.flash, none⟩
  | some m =>
    if m.off = uintMax then ⟨.einval, u, c.flash, none⟩ else uploadMessage hw c m u

/-- The upload state after a message. -/
def uploadStep (hw : Board F) (u : Upload) (c : Call F) : Upload := (botaUpload hw c u).upload

/-! ## The fields -/

section
variable {hw : Board F} {m : Message} {u : Upload} {f : F}

/-- The area that a message is for: that of the slot it names, or the one in use. -/
def target (hw : Board F) (m : Message) (u : Upload) : UInt8 :=
  if m.slot ≠ uintMax then hw.flashAreaIdFromImageSlot m.slot.toUInt32 else u.faId

@[simp] lemma noteFields_faId : (noteFields hw m u).faId = target hw m u := by
  unfold noteFields target
  dsimp only
  split_ifs <;> rfl

@[simp] lemma noteFields_slotId :
    (noteFields hw m u).slotId = if m.slot ≠ uintMax then m.slot.toUInt8 else u.slotId := by
  unfold noteFields
  dsimp only
  split_ifs <;> rfl

@[simp] lemma noteFields_size :
    (noteFields hw m u).size = if m.size ≠ uintMax then m.size.toUInt32 else u.size := by
  unfold noteFields
  dsimp only
  split_ifs <;> rfl

@[simp] lemma noteFields_flags :
    (noteFields hw m u).flags = if m.flags ≠ uintMax then m.flags else u.flags := by
  unfold noteFields
  dsimp only
  split_ifs <;> rfl

@[simp] lemma noteFields_off : (noteFields hw m u).off = u.off := by
  unfold noteFields
  dsimp only
  split_ifs <;> rfl

@[simp] lemma noteFields_uplErrs : (noteFields hw m u).uplErrs = u.uplErrs := by
  unfold noteFields
  dsimp only
  split_ifs <;> rfl

@[simp] lemma restart_faId : (u.restart m).faId = u.faId := rfl

@[simp] lemma advance_faId : (u.advance m).faId = u.faId := rfl

@[simp] lemma storeData_faId : (storeData hw m u f).upload.faId = u.faId := by
  unfold storeData
  dsimp only
  split_ifs <;> rfl

end

end UwbCore.Bota
