import UwbCore.Bota.Basic

/-!
# What a message leaves behind

A message that `bota_upload` answers with an error should leave the upload and the flash as they
were, and one that it accepts should have its data written at the offset it names. The fields of a
message are stored before it is checked, the upload is restarted and the flash erased before the
data are written, and the offset is narrowed to 32 bits for the write. So both hold exactly for a
message that is `Harmless`: a refused one only repeats what is stored, and the offset of data that
are written is below 2^32 (`uploads_iff`).
-/

namespace UwbCore.Bota
open UwbCore.Lib

variable {F : Type}

/-! ## The property -/

/-- The data of a message have been written to the area of a slot, at the offset of the message, on
    the flash as it was or was erased for it. The boot loader may have marked the image after. -/
def StoredAt (hw : Board F) (c : Call F) (m : Message) (a : Answer F) : Prop :=
  ∃ slot base off w, a.upload.faId = hw.flashAreaIdFromImageSlot slot ∧
    (base = c.flash ∨
      base = (hw.flashAreaErase c.flash a.upload.faId 0 (hw.faSize a.upload.faId)).2) ∧
    hw.flashAreaWrite base a.upload.faId off m.d = (true, w) ∧
    off.toNat = m.off.toNat ∧
    m.off.toNat + m.d.length ≤ (hw.faSize a.upload.faId).toNat ∧
    (a.flash = w ∨ ∃ permanent, a.flash = hw.bootSetPending w permanent)

/-- A message that is refused changes nothing, one that is accepted is stored where it says. -/
structure Clean (hw : Board F) (u : Upload) (c : Call F) : Prop where
  rejected : (botaUpload hw c u).rc ≠ .eok →
    (botaUpload hw c u).upload = u ∧ (botaUpload hw c u).flash = c.flash
  accepted : ∀ m, c.msg = some m → (botaUpload hw c u).rc = .eok → m.d ≠ [] →
    StoredAt hw c m (botaUpload hw c u)

/-! ## The condition -/

/-- The fields that the message has are those that are stored. -/
structure Repeats (hw : Board F) (m : Message) (u : Upload) : Prop where
  slot : m.slot ≠ uintMax →
    m.slot.toUInt8 = u.slotId ∧ hw.flashAreaIdFromImageSlot m.slot.toUInt32 = u.faId
  size : m.size ≠ uintMax → m.size.toUInt32 = u.size
  flags : m.flags ≠ uintMax → m.flags = u.flags

/-- An upload of this size has been restarted and is at `off`. -/
structure Restarted (m : Message) (off : UInt32) (u : Upload) : Prop where
  off_eq : u.off = off
  size : u.size = m.size.toUInt32
  uplErrs : u.uplErrs = 0

/-- The flash after the end of `bota_upload`. -/
def marked (hw : Board F) (checkMem : Bool) (u : Upload) (f : F) : F :=
  if completes hw checkMem u f then hw.bootSetPending f u.permanent else f

/-- The flash that the data of a first packet are written to. -/
def firstBase (hw : Board F) (c : Call F) (m : Message) (area : UInt8) : Bool × F :=
  if needsErase hw c.flash area c.stack m then
    hw.flashAreaErase c.flash area 0 (hw.faSize area)
  else (true, c.flash)

/-- The condition on a message with offset 0. -/
def FirstHarmless (hw : Board F) (c : Call F) (m : Message) (u : Upload) : Prop :=
  let base := firstBase hw c m (target hw m u)
  let w := hw.flashAreaWrite base.2 (target hw m u) 0 m.d
  if !startsImage hw m then Repeats hw m u
  else if !base.1 then Repeats hw m u ∧ Restarted m 0 u ∧ base.2 = c.flash
  else if !w.1 then Repeats hw m u ∧ Restarted m 0 u ∧ w.2 = c.flash
  else c.replyOk = true ∨
    (Repeats hw m u ∧ Restarted m (UInt32.ofNat m.d.length) u ∧
      marked hw c.checkMem u w.2 = c.flash)

/-- The condition on a message with another offset. -/
def LaterHarmless (hw : Board F) (c : Call F) (m : Message) (u : Upload) : Prop :=
  let w := hw.flashAreaWrite c.flash (target hw m u) m.off.toUInt32 m.d
  if m.d = [] then
    c.replyOk = true ∨ (Repeats hw m u ∧ marked hw c.checkMem u c.flash = c.flash)
  else if !w.1 then Repeats hw m u ∧ w.2 = c.flash
  else c.replyOk = true ∧ m.off.toNat < 2 ^ 32

/-- A message that will be refused repeats what is stored, at the start of an upload also the
    restart, and what fails of the flash leaves it alone; and a message that will be accepted has
    no data, or its offset fits 32 bits. -/
def Harmless (hw : Board F) (u : Upload) (c : Call F) : Prop :=
  match c.msg with
  | none => True
  | some m => m.off = uintMax ∨
    if !usable hw (target hw m u) then Repeats hw m u
    else if m.off = 0 then FirstHarmless hw c m u
    else LaterHarmless hw c m u

/-! ## The fields -/

section
variable {hw : Board F} {m : Message} {u : Upload} {c : Call F}

/-- The area stays the same unless the message names another slot. -/
lemma target_eq_iff : target hw m u = u.faId ↔
    (m.slot ≠ uintMax → hw.flashAreaIdFromImageSlot m.slot.toUInt32 = u.faId) := ite_eq_right_iff

/-- The fields are as before if and only if the message repeats them. -/
lemma noteFields_eq_iff : noteFields hw m u = u ↔ Repeats hw m u := by
  rw [Upload.ext_iff, noteFields_off, noteFields_size, noteFields_uplErrs, noteFields_slotId,
    noteFields_faId, noteFields_flags, target_eq_iff, ite_eq_right_iff, ite_eq_right_iff,
    ite_eq_right_iff]
  constructor
  · intro h
    obtain ⟨-, hsize, -, hslot, harea, hflags⟩ := h
    exact ⟨fun hs => ⟨hslot hs, harea hs⟩, hsize, hflags⟩
  · intro h
    exact ⟨rfl, h.size, rfl, fun hs => (h.slot hs).1, fun hs => (h.slot hs).2, h.flags⟩

/-- The same for an upload that is restarted with the message. -/
lemma restart_noteFields_eq_iff {off : UInt32} :
    { (noteFields hw m u).restart m with off := off } = u ↔
      Repeats hw m u ∧ Restarted m off u := by
  rw [Upload.ext_iff]
  simp only [Upload.restart, noteFields_slotId, noteFields_faId, noteFields_flags, target_eq_iff,
    ite_eq_right_iff]
  constructor
  · intro h
    obtain ⟨hoff, hsize, herrs, hslot, harea, hflags⟩ := h
    exact ⟨⟨fun hs => ⟨hslot hs, harea hs⟩, fun _ => hsize, hflags⟩, hoff.symm, hsize.symm,
      herrs.symm⟩
  · intro h
    obtain ⟨hrep, hre⟩ := h
    exact ⟨hre.off_eq.symm, hre.size.symm, hre.uplErrs.symm, fun hs => (hrep.slot hs).1,
      fun hs => (hrep.slot hs).2, hrep.flags⟩

end

/-! ## The exits -/

section
variable {hw : Board F} {m : Message} {u v : Upload} {c : Call F} {a : Answer F} {f w : F}

/-- The area in use is that of a slot once a message has named one. -/
def AreaKnown (hw : Board F) (u : Upload) : Prop :=
  u.faId = 0 ∨ ∃ slot, u.faId = hw.flashAreaIdFromImageSlot slot

/-- An area that passes the check is that of a slot. -/
lemma usable_slot (hi : AreaKnown hw u) (h : usable hw (target hw m u) = true) :
    ∃ slot, target hw m u = hw.flashAreaIdFromImageSlot slot := by
  unfold target at h ⊢
  split_ifs at h ⊢ with hs
  · exact ⟨_, rfl⟩
  · cases hi with
    | inr h' => exact h'
    | inl h0 =>
      -- area 0 is not below that of slot 1 only if it is that area
      rw [usable, h0, Bool.and_eq_true, Bool.not_eq_true', decide_eq_false_iff_not] at h
      refine ⟨1, h0.trans ?_⟩
      have hle : (hw.flashAreaIdFromImageSlot 1).toNat ≤ 0 := UInt8.le_iff_toNat_le.mp
        (UInt8.not_lt.mp h.1)
      exact UInt8.toNat_inj.mp (Nat.le_zero.mp hle).symm

/-- A call that is refused is clean if it leaves everything as it was. -/
lemma clean_refused (ha : botaUpload hw c u = a) (hrc : a.rc ≠ .eok) :
    Clean hw u c ↔ a.upload = u ∧ a.flash = c.flash := by
  subst ha
  exact ⟨fun h => h.rejected hrc, fun h => ⟨fun _ => h, fun _ _ h0 => absurd h0 hrc⟩⟩

/-- A call that is accepted is clean if its data is stored. -/
lemma clean_accepted (hm : c.msg = some m) (ha : botaUpload hw c u = a) (hrc : a.rc = .eok) :
    Clean hw u c ↔ (m.d ≠ [] → StoredAt hw c m a) := by
  subst ha
  refine ⟨fun h => h.accepted m hm hrc, fun h => ⟨fun h0 => absurd hrc h0, fun m' hm' _ => ?_⟩⟩
  rw [hm] at hm'
  cases hm'
  exact h

/-- What the end of a call does. -/
lemma finish_eq : (finish hw c v f).upload = v ∧ (finish hw c v f).flash = marked hw c.checkMem v f ∧
    (finish hw c v f).rc = if c.replyOk then .eok else .enomem := by
  unfold finish marked
  dsimp only
  split_ifs <;> exact ⟨rfl, rfl, rfl⟩

/-- A message that was carried out is answered with an error when the reply cannot be encoded. -/
lemma clean_finish (hm : c.msg = some m) (ha : botaUpload hw c u = finish hw c v f) :
    Clean hw u c ↔
      (c.replyOk = true ∧ (m.d ≠ [] → StoredAt hw c m (finish hw c v f))) ∨
        (c.replyOk = false ∧ v = u ∧ marked hw c.checkMem v f = c.flash) := by
  obtain ⟨hupload, hflash, hrc⟩ := @finish_eq F hw v c f
  cases hr : c.replyOk with
  | true =>
    rw [hr, if_pos rfl] at hrc
    rw [clean_accepted hm ha hrc]
    simp
  | false =>
    rw [hr, if_neg (by simp)] at hrc
    rw [clean_refused ha (by rw [hrc]; decide), hupload, hflash]
    simp

/-- The data written are where the message says if and only if its offset fits 32 bits. -/
lemma storedAt_iff {base : F} (hslot : ∃ slot, v.faId = hw.flashAreaIdFromImageSlot slot)
    (hbase : base = c.flash ∨ base = (hw.flashAreaErase c.flash v.faId 0 (hw.faSize v.faId)).2)
    (hwr : hw.flashAreaWrite base v.faId m.off.toUInt32 m.d = (true, w)) :
    StoredAt hw c m (finish hw c v w) ↔ m.off.toNat < 2 ^ 32 := by
  obtain ⟨hupload, hflash, -⟩ := @finish_eq F hw v c w
  unfold StoredAt
  rw [hupload, hflash]
  constructor
  · intro h
    obtain ⟨_, _, off, _, -, -, -, hoff, -⟩ := h
    rw [← hoff]
    exact off.toNat_lt
  · intro h
    obtain ⟨slot, hslot⟩ := hslot
    have hoff : m.off.toUInt32.toNat = m.off.toNat := by
      rw [UInt64.toNat_toUInt32, Nat.mod_eq_of_lt h]
    have hin := hw.write_bounds base v.faId m.off.toUInt32 m.d (by rw [hwr])
    rw [hoff] at hin
    refine ⟨slot, base, m.off.toUInt32, w, hslot, hbase, hwr, hoff, hin, ?_⟩
    unfold marked
    split
    case isTrue => exact .inr ⟨_, rfl⟩
    case isFalse => exact .inl rfl

/-! ## The messages -/

/-- Data has at least one byte. -/
lemma length_pos (hd : m.d ≠ []) : 0 < m.d.length := List.length_pos_iff.mpr hd

/-- Writing data counts an error or moves the offset. -/
lemma advance_ne (hd : m.d ≠ []) (hoff : v.off = u.off) (herrs : v.uplErrs = u.uplErrs) :
    v.advance m ≠ u := by
  intro h
  have hlen := length_pos hd
  have hlt := m.d_length
  have ho : (m.off + UInt64.ofNat m.d.length).toUInt32 = u.off := congrArg Upload.off h
  have he : (if v.off.toUInt64 ≠ m.off then v.uplErrs + 1 else v.uplErrs) = u.uplErrs :=
    congrArg Upload.uplErrs h
  split_ifs at he with hm
  · rw [herrs] at he
    have hn := congrArg UInt32.toNat he
    rw [UInt32.toNat_add, UInt32.toNat_one] at hn
    have := u.uplErrs.toNat_lt
    omega
  · have hm : m.off.toNat = u.off.toNat := by
      rw [← not_not.mp hm, hoff, UInt32.toNat_toUInt64]
    have hn := congrArg UInt32.toNat ho
    rw [UInt64.toNat_toUInt32, UInt64.toNat_add, UInt64.toNat_ofNat', hm] at hn
    have := u.off.toNat_lt
    omega

/-- After the first data of a restarted upload. -/
lemma restart_advance (h0 : m.off = 0) :
    (v.restart m).advance m = { v.restart m with off := UInt32.ofNat m.d.length } := by
  have hlt := m.d_length
  have hoff : (m.off + UInt64.ofNat m.d.length).toUInt32 = UInt32.ofNat m.d.length := by
    apply UInt32.toNat_inj.mp
    rw [h0, UInt64.zero_add, UInt64.toNat_toUInt32, UInt64.toNat_ofNat', UInt32.toNat_ofNat']
    omega
  have herrs : (v.restart m).off.toUInt64 = m.off := h0.symm
  rw [Upload.advance, if_neg (not_not.mpr herrs), hoff]

/-- No data is stored. -/
lemma storeData_nil (hd : m.d = []) : storeData hw m v f = ⟨.eok, v, f⟩ := if_pos hd

/-- The write fails. -/
lemma storeData_refused (hd : m.d ≠ [])
    (hwr : hw.flashAreaWrite f v.faId m.off.toUInt32 m.d = (false, w)) :
    storeData hw m v f = ⟨.einval, v, w⟩ := by
  rw [storeData, if_neg hd, hwr]
  rfl

/-- The write succeeds. -/
lemma storeData_written (hd : m.d ≠ [])
    (hwr : hw.flashAreaWrite f v.faId m.off.toUInt32 m.d = (true, w)) :
    storeData hw m v f = ⟨.eok, v.advance m, w⟩ := by
  rw [storeData, if_neg hd, hwr]
  rfl

/-- A message for a usable area goes through the three stages. -/
lemma botaUpload_message (hm : c.msg = some m) (hoff : m.off ≠ uintMax)
    (hu : usable hw (target hw m u) = true) :
    botaUpload hw c u =
      (if m.off = 0 then firstPacket hw c.stack m (noteFields hw m u) c.flash
        else ⟨.eok, noteFields hw m u, c.flash⟩).next fun u f =>
          (storeData hw m u f).next fun u f => finish hw c u f := by
  unfold botaUpload
  rw [hm]
  dsimp only
  rw [if_neg hoff, uploadMessage, noteFields_faId, hu]
  rfl

/-- A message with another offset than 0. -/
lemma clean_later (hi : AreaKnown hw u) (hm : c.msg = some m) (hoff : m.off ≠ uintMax)
    (hu : usable hw (target hw m u) = true) (h0 : m.off ≠ 0) :
    Clean hw u c ↔ LaterHarmless hw c m u := by
  have ha := botaUpload_message hm hoff hu
  rw [if_neg h0] at ha
  unfold LaterHarmless
  by_cases hd : m.d = []
  case pos =>
    have ha : botaUpload hw c u = finish hw c (noteFields hw m u) c.flash := by
      rw [ha, Stage.next, if_pos rfl, storeData_nil hd]
      rfl
    rw [clean_finish hm ha, noteFields_eq_iff, if_pos hd]
    have hmark : Repeats hw m u →
        marked hw c.checkMem (noteFields hw m u) c.flash = marked hw c.checkMem u c.flash :=
      fun hr => by rw [noteFields_eq_iff.mpr hr]
    cases c.replyOk with
    | true => simp [hd]
    | false => simp +contextual [hmark]
  case neg =>
    rw [if_neg hd]
    cases hwr : hw.flashAreaWrite c.flash (target hw m u) m.off.toUInt32 m.d with
    | mk ok w =>
      rw [← @noteFields_faId F hw m u] at hwr
      cases ok with
      | false =>
        rw [Stage.next, if_pos rfl, storeData_refused hd hwr] at ha
        rw [clean_refused ha (by simp [Stage.next]), ← noteFields_eq_iff]
        rfl
      | true =>
        have ha : botaUpload hw c u = finish hw c ((noteFields hw m u).advance m) w := by
          rw [ha, Stage.next, if_pos rfl, storeData_written hd hwr]
          rfl
        obtain ⟨slot, hslot⟩ := usable_slot hi hu
        have hst := @storedAt_iff F hw m ((noteFields hw m u).advance m) c w c.flash
          ⟨slot, by rw [advance_faId, noteFields_faId, hslot]⟩ (.inl rfl) hwr
        have hne : (noteFields hw m u).advance m ≠ u :=
          advance_ne hd noteFields_off noteFields_uplErrs
        rw [clean_finish hm ha, hst]
        simp [hd, hne]

/-- The first packet has no header of an image. -/
lemma firstPacket_refused (hs : startsImage hw m = false) (stack : List UInt8) :
    firstPacket hw stack m v f = ⟨.einval, v, f⟩ := by
  rw [firstPacket, hs]
  rfl

/-- The first packet starts an upload. -/
lemma firstPacket_started (hs : startsImage hw m = true) :
    firstPacket hw c.stack m v c.flash = ⟨if (firstBase hw c m v.faId).1 then .eok else .erase,
      v.restart m, (firstBase hw c m v.faId).2⟩ := by
  unfold firstPacket firstBase
  rw [hs]
  cases needsErase hw c.flash v.faId c.stack m <;> rfl

/-- The header of an image is data. -/
lemma startsImage_data (hs : startsImage hw m = true) : m.d ≠ [] := by
  intro hd
  rw [startsImage, hd, Bool.and_eq_true, decide_eq_true_eq] at hs
  exact absurd hs.1 (Nat.not_le.mpr hw.headerSize_pos)

/-- The area is erased or left as it is. -/
lemma firstBase_cases {area : UInt8} : (firstBase hw c m area).2 = c.flash ∨
    (firstBase hw c m area).2 = (hw.flashAreaErase c.flash area 0 (hw.faSize area)).2 := by
  unfold firstBase
  split
  case isTrue => exact .inr rfl
  case isFalse => exact .inl rfl

/-- A message with offset 0. -/
lemma clean_first (hi : AreaKnown hw u) (hm : c.msg = some m) (hoff : m.off ≠ uintMax)
    (hu : usable hw (target hw m u) = true) (h0 : m.off = 0) :
    Clean hw u c ↔ FirstHarmless hw c m u := by
  have ha := botaUpload_message hm hoff hu
  rw [if_pos h0] at ha
  unfold FirstHarmless
  dsimp only
  cases hs : startsImage hw m with
  | false =>
    rw [firstPacket_refused hs] at ha
    rw [clean_refused ha (by simp [Stage.next]), ← noteFields_eq_iff]
    simp [Stage.next]
  | true =>
    have hd := startsImage_data hs
    have hrestart : (noteFields hw m u).restart m = u ↔ Repeats hw m u ∧ Restarted m 0 u :=
      restart_noteFields_eq_iff
    have hbase := @firstBase_cases F hw m c (target hw m u)
    rw [firstPacket_started hs, noteFields_faId] at ha
    cases hb : firstBase hw c m (target hw m u) with
    | mk erased base =>
      rw [hb] at ha hbase
      cases erased with
      | false =>
        rw [clean_refused ha (by simp [Stage.next])]
        simp [Stage.next, hrestart, and_assoc]
      | true =>
        cases hwr : hw.flashAreaWrite base (target hw m u) 0 m.d with
        | mk ok w =>
          have hwr' : hw.flashAreaWrite base ((noteFields hw m u).restart m).faId m.off.toUInt32
              m.d = (ok, w) := by
            rw [restart_faId, noteFields_faId, h0]
            exact hwr
          cases ok with
          | false =>
            rw [Stage.next, if_pos rfl, storeData_refused hd hwr'] at ha
            rw [clean_refused ha (by simp [Stage.next])]
            simp [Stage.next, hrestart, and_assoc]
          | true =>
            have ha : botaUpload hw c u =
                finish hw c (((noteFields hw m u).restart m).advance m) w := by
              rw [ha, Stage.next, if_pos rfl, storeData_written hd hwr']
              rfl
            obtain ⟨slot, hslot⟩ := usable_slot hi hu
            have hst := @storedAt_iff F hw m (((noteFields hw m u).restart m).advance m) c w base
              ⟨slot, by rw [advance_faId, restart_faId, noteFields_faId, hslot]⟩
              (by rw [advance_faId, restart_faId, noteFields_faId]; exact hbase) hwr'
            have hlt : m.off.toNat < 2 ^ 32 := by rw [h0]; decide
            have hmark : Repeats hw m u ∧ Restarted m (UInt32.ofNat m.d.length) u →
                marked hw c.checkMem (((noteFields hw m u).restart m).advance m) w =
                  marked hw c.checkMem u w := fun hr => by
              rw [restart_advance h0, restart_noteFields_eq_iff.mpr hr]
            rw [clean_finish hm ha, hst, restart_advance h0, restart_noteFields_eq_iff,
              ← restart_advance h0]
            cases c.replyOk with
            | true => exact iff_of_true (.inl ⟨rfl, fun _ => hlt⟩) (.inl rfl)
            | false => simp +contextual [hmark, and_assoc]

/-- A message is dealt with cleanly if and only if it is harmless. -/
lemma clean_iff (hi : AreaKnown hw u) : Clean hw u c ↔ Harmless hw u c := by
  unfold Harmless
  cases hm : c.msg with
  | none =>
    have ha : botaUpload hw c u = ⟨.einval, u, c.flash, none⟩ := by rw [botaUpload, hm]
    rw [clean_refused ha (by simp)]
    simp
  | some m =>
    dsimp only
    by_cases hoff : m.off = uintMax
    case pos =>
      have ha : botaUpload hw c u = ⟨.einval, u, c.flash, none⟩ := by
        rw [botaUpload, hm]
        exact if_pos hoff
      rw [clean_refused ha (by simp)]
      simp [hoff]
    case neg =>
      cases hu : usable hw (target hw m u) with
      | false =>
        have ha : botaUpload hw c u = ⟨.einval, noteFields hw m u, c.flash, none⟩ := by
          unfold botaUpload
          rw [hm]
          dsimp only
          rw [if_neg hoff, uploadMessage, noteFields_faId, hu]
          rfl
        rw [clean_refused ha (by simp), noteFields_eq_iff]
        simp [hoff]
      | true =>
        rw [or_iff_right hoff, if_neg (by simp)]
        split
        case isTrue h0 => exact clean_first hi hm hoff hu h0
        case isFalse h0 => exact clean_later hi hm hoff hu h0

/-- No stage changes the area. -/
lemma next_faId {s : Stage F} {rest : Upload → F → Answer F} {area : UInt8}
    (hs : s.upload.faId = area) (hrest : ∀ u f, u.faId = area → (rest u f).upload.faId = area) :
    (s.next rest).upload.faId = area := by
  unfold Stage.next
  split
  case isTrue => exact hrest _ _ hs
  case isFalse => exact hs

/-- The first packet does not change the area. -/
lemma firstPacket_faId (stack : List UInt8) :
    (firstPacket hw stack m v f).upload.faId = v.faId := by
  unfold firstPacket
  dsimp only
  split_ifs <;> rfl

/-- A message leaves the area that it names. -/
lemma uploadMessage_faId : (uploadMessage hw c m u).upload.faId = target hw m u := by
  unfold uploadMessage
  dsimp only
  split
  case isTrue => exact noteFields_faId
  case isFalse =>
    apply next_faId
    · split
      case isTrue => rw [firstPacket_faId, noteFields_faId]
      case isFalse => exact noteFields_faId
    · intro v f hv
      apply next_faId (storeData_faId.trans hv)
      intro v f hv
      rw [finish_eq.1, hv]

/-- After any message the area in use is the one before, or the one that the message is for. -/
lemma uploadStep_faId : (uploadStep hw u c).faId = u.faId ∨
    ∃ m, (uploadStep hw u c).faId = target hw m u := by
  unfold uploadStep botaUpload
  cases c.msg with
  | none => exact .inl rfl
  | some m =>
    dsimp only
    split
    case isTrue => exact .inl rfl
    case isFalse => exact .inr ⟨m, uploadMessage_faId⟩

/-- Messages keep the area known. -/
lemma areaKnown_step (hi : AreaKnown hw u) : AreaKnown hw (uploadStep hw u c) := by
  cases @uploadStep_faId F hw u c with
  | inl h => rwa [AreaKnown, h]
  | inr h =>
    obtain ⟨m, h⟩ := h
    rw [AreaKnown, h, target]
    split
    case isTrue => exact .inr ⟨_, rfl⟩
    case isFalse => exact hi

end

/-! ## Runs -/

/-- In a run every message is dealt with cleanly, in the state that it finds, if and only if every
    message is harmless there. -/
theorem uploads_iff (hw : Board F) (calls : List (Call F)) :
    Allowed (uploadStep hw) (Clean hw) Upload.init calls ↔
      Allowed (uploadStep hw) (Harmless hw) Upload.init calls :=
  allowed_congr (I := AreaKnown hw) (fun _ _ hi => areaKnown_step hi) (fun _ _ hi => clean_iff hi)
    calls (.inl rfl)

/-- The header has a length. -/
lemma idleHeader_pos : 0 < 32 := by decide

/-- A board with two slots of 256 bytes on a flash that keeps what it has. -/
def idleBoard : Board Unit where
  imageMagic := 0x96f3b83d
  headerSize := 32
  headerSize_pos := idleHeader_pos
  header := fun _ => ⟨0xffffffff, ⟨0xff, 0xff, 0xffff, 0xffffffff⟩⟩
  flashAreaIdFromImageSlot := fun slot => if slot = 0 then 1 else if slot = 1 then 2 else 255
  flashAreaOpen := fun area => area == 1 || area == 2
  faSize := fun _ => 256
  flashAreaRead := fun _ _ _ _ => none
  flashAreaWrite := fun f _ off bytes => (decide (off.toNat + bytes.length ≤ 256), f)
  flashAreaErase := fun f _ _ _ => (true, f)
  bootutilImgValidate := fun _ _ _ => false
  bootSetPending := fun f _ => f
  write_bounds := fun _ _ _ _ h => of_decide_eq_true h

/-- Four bytes are few. -/
lemma fourBytes_length : [1, 2, 3, 4].length < 2 ^ 32 := by decide

/-- A message for the slot that the node runs from. -/
def slotZero : Message where
  d := [1, 2, 3, 4]
  l := none
  o := some 128
  s := some 0
  f := none
  d_length := fourBytes_length

/-- It is refused, but the slot has been changed. -/
theorem uploads_fails :
    ¬ ∀ (F : Type) (hw : Board F) (calls : List (Call F)),
      Allowed (uploadStep hw) (Clean hw) Upload.init calls := by
  intro h
  have hclean := (h Unit idleBoard [⟨(), some slotZero, [], true, true⟩]).1
  have hkept := (hclean.rejected (by decide)).1
  exact absurd (congrArg Upload.faId hkept) (by decide)

end UwbCore.Bota
