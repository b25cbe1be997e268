import UwbCore.Nrng.Basic

/-!
# The responders of a request

Which responders take a request for theirs, when they answer, and how long the requester listens. The
mask travels in the slot payload, and both sides derive the times from their own count of its bits.
Times are in ticks of the radio's clock, `2 ^ 16` to an UWB usec, counted from the reception of the
request; flight times are left out. A response leaves the antenna an antenna delay after the send time
the radio is given, and a receive timeout of 0 is none.
-/

namespace UwbCore.Nrng
open UwbCore.Lib

/-- The time on the air of a response before and after the instant its time stamps refer to, that of the
    rest of the request, after which the receiver is on, and the antenna delays in a network. -/
structure Airtime where
  shr : Nat
  shr_pos : 0 < shr
  data : Nat
  requestData : Nat
  antennaMin : UInt16
  antennaMax : UInt16
  antenna_le : antennaMin.toNat ≤ antennaMax.toNat

/-- A node of the network. -/
def Airtime.Has (air : Airtime) (dev : Dev) : Prop :=
  air.antennaMin.toNat ≤ dev.txAntennaDelay.toNat ∧ dev.txAntennaDelay.toNat ≤ air.antennaMax.toNat

/-- A node that listens for a request, and that the request is meant for. -/
structure Responder (cfg : Cfg) (dstAddress cellId : UInt16) where
  node : Node
  dev : Dev
  listening : node.sem = 0
  addressed : dstAddress = dev.myShortAddress ∨ dstAddress = broadcastAddress
  inCell : cfg.build = .cell → dev.cellId = cellId
  slot_lt : dev.slotId.toNat < 16

namespace Responder
variable {cfg : Cfg} {dstAddress cellId : UInt16} (r : Responder cfg dstAddress cellId)

def slot : Nat := r.dev.slotId.toNat

/-- The response to a request that is received at `t`. -/
def reply (req : Frame) (t : BitVec 40) : Option Reply :=
  (r.node.rxComplete cfg r.dev ⟨requestLen, req, t, false, 0⟩).reply

/-- When a response leaves the antenna, after a reception at `t`: the send time as the radio takes it,
    without its lowest nine bits, and the antenna delay. -/
def offset (p : Reply) (t : BitVec 40) : Int :=
  (p.dxTime / 2 ^ 9 * 2 ^ 9 + r.dev.txAntennaDelay.toNat : Nat) - t.toNat

/-- A responder in slot `i` with an antenna delay. -/
def atSlot (cfg : Cfg) (dstAddress cellId : UInt16) (i : Nat) (hi : i < 16) (antenna : UInt16) :
    Responder cfg dstAddress cellId where
  node := { Node.init with sem := 0 }
  dev := ⟨dstAddress, .ofNat i, cellId, antenna⟩
  listening := rfl
  addressed := .inl rfl
  inCell _ := rfl
  slot_lt := by
    rw [UInt16.toNat_ofNat']
    omega

/-- The responder of a slot has it. -/
lemma atSlot_slot {i : Nat} (hi : i < 16) (antenna : UInt16) :
    (atSlot cfg dstAddress cellId i hi antenna).slot = i := by
  rw [slot, atSlot, UInt16.toNat_ofNat']
  omega

end Responder

variable (cfg : Cfg) (air : Airtime)

/-- A request reaches its responders: those of the mask answer and no others, one after another, and
    within the time the requester listens. -/
structure Served (req : Request) (slotMask dstAddress cellId : UInt16) : Prop where
  replies : ∀ (r : Responder cfg dstAddress cellId) t,
    (r.reply req.frame t).isSome = true ↔ slotMask.toNat.testBit r.slot = true
  disjoint : ∀ (r r' : Responder cfg dstAddress cellId) t t' p p', air.Has r.dev → air.Has r'.dev →
    r.slot ≠ r'.slot → r.reply req.frame t = some p → r'.reply req.frame t' = some p' →
    r.offset p t + air.data ≤ r'.offset p' t' - air.shr ∨
      r'.offset p' t' + air.data ≤ r.offset p t - air.shr
  covered : ∀ (r : Responder cfg dstAddress cellId) t p, air.Has r.dev →
    r.reply req.frame t = some p → req.rxTimeout = 0 ∨
      r.offset p t + air.data ≤ air.requestData + req.rxTimeout * 2 ^ 16

/-- The payload has room for the mask and the cell: 16 bits and 14 in one build, but 14 bits and 16
    in the other, where the first two bits of the cell id are seen as those of slots 14 and 15. -/
def SlotsCarried (slotMask cellId : UInt16) : Prop :=
  match cfg.build with
  | .cell => cellId.toNat < 2 ^ 14 ∨ slotMask = 0
  | .range =>
    slotMask.toNat.testBit 14 = cellId.toNat.testBit 0 ∧
      slotMask.toNat.testBit 15 = cellId.toNat.testBit 1

/-- The distance between two slots, in UWB usec. -/
def slotPeriod : Nat :=
  cfg.config.txGuardDelay.toNat + usecsToDwtUsecs cfg.responseDuration.toNat

/-- The receive timeout for `n` responses, before it is cut to 16 bits. -/
def timeoutSum (n : Nat) : Nat :=
  cfg.config.txHoldoffDelay.toNat +
    n * (cfg.responseDuration.toNat + dwtUsecsToUsecs cfg.config.txGuardDelay.toNat) +
    cfg.config.rxTimeoutDelay.toNat

/-- How long the sum exceeds the end of the last of `n` responses: a guard time, the frame, the flight
    allowance and what usec count for more than UWB usec. -/
def slack (n : Nat) : Int :=
  ((n * (cfg.responseDuration.toNat + dwtUsecsToUsecs cfg.config.txGuardDelay.toNat) : Int) -
    (n - 1) * slotPeriod cfg + cfg.config.rxTimeoutDelay.toNat) * 2 ^ 16 +
    air.requestData - air.data

/-- The bits of the mask that a responder sees. -/
def seenMask (slotMask cellId : UInt16) : Nat :=
  match cfg.build with
  | .cell => if cellId.toNat < 2 ^ 14 then slotMask.toNat else 0
  | .range => slotMask.toNat % 2 ^ 14 + 2 ^ 14 * cellId.toNat

/-- The slots are carried where the mask that is seen is the same in its low bits. -/
lemma slotsCarried_iff (slotMask cellId : UInt16) :
    SlotsCarried cfg slotMask cellId ↔
      ∀ i < 16, (seenMask cfg slotMask cellId).testBit i = slotMask.toNat.testBit i := by
  have hlow : slotMask.toNat % 2 ^ 14 < 2 ^ 14 := Nat.mod_lt _ (by decide)
  rw [SlotsCarried, seenMask]
  cases cfg.build with
  | cell =>
    constructor
    · rintro (h | h) i hi
      · rw [if_pos h]
      · simp [h]
    · intro h
      by_cases hc : cellId.toNat < 2 ^ 14
      case pos => exact .inl hc
      case neg =>
        right
        simp only [if_neg hc, Nat.zero_testBit] at h
        apply UInt16.toNat_inj.mp
        apply Nat.eq_of_testBit_eq
        intro i
        by_cases hi : i < 16
        case pos => rw [← h i hi]; exact (Nat.zero_testBit i).symm
        case neg =>
          have hlt : slotMask.toNat < 2 ^ i :=
            Nat.lt_of_lt_of_le slotMask.toNat_lt (Nat.pow_le_pow_right (by decide) (not_lt.mp hi))
          rw [Nat.testBit_lt_two_pow hlt]
          exact (Nat.zero_testBit i).symm
  | range =>
    have hbit : ∀ i, (slotMask.toNat % 2 ^ 14 + 2 ^ 14 * cellId.toNat).testBit i =
        if i < 14 then slotMask.toNat.testBit i else cellId.toNat.testBit (i - 14) := by
      intro i
      rw [Nat.add_comm, Nat.testBit_two_pow_mul_add _ hlow, Nat.testBit_mod_two_pow]
      split
      case isTrue h => rw [decide_eq_true h, Bool.true_and]
      case isFalse => rfl
    simp only [hbit]
    constructor
    · rintro ⟨h14, h15⟩ i hi
      split
      case isTrue => rfl
      case isFalse h =>
        obtain rfl | rfl : i = 14 ∨ i = 15 := by omega
        · exact h14.symm
        · exact h15.symm
    · intro h
      exact ⟨(h 14 (by decide)).symm, (h 15 (by decide)).symm⟩

/-- The fields of a request frame that a responder goes by. -/
lemma requestFrame_spec (dev : Dev) (n : Node) (f : Frame) (dstAddress code slotMask cellId : UInt16) :
    let req := n.requestFrame cfg dev f dstAddress code slotMask cellId
    req.fctrl = f.fctrl ∧ req.dstAddress = dstAddress ∧ req.code = code := by
  simp only [Node.requestFrame]
  cases cfg.build <;> exact ⟨rfl, rfl, rfl⟩

/-- A field of a word as a number. -/
lemma toNat_setField (w : BitVec 32) {lo len : Nat} (v : Nat) (h : lo + len ≤ 32) :
    (BitVec.ofNat 32 (setField w.toNat lo len v)).toNat = setField w.toNat lo len v := by
  rw [BitVec.toNat_ofNat]
  exact Nat.mod_eq_of_lt (Bits.setField_lt _ _ _ _ w.isLt h)

/-- A responder sees its bit and its place in the mask it is shown. -/
lemma slotIdx_requestFrame (dev : Dev) (n : Node) (f : Frame)
    (dstAddress code slotMask cellId : UInt16) (r : Responder cfg dstAddress cellId) :
    Node.slotIdx cfg r.dev (n.requestFrame cfg dev f dstAddress code slotMask cellId) =
      if (seenMask cfg slotMask cellId).testBit r.slot then
        some (rank (seenMask cfg slotMask cellId) r.slot)
      else none := by
  have hm : slotMask.toNat < 2 ^ 16 := slotMask.toNat_lt
  have hc : cellId.toNat < 2 ^ 16 := cellId.toNat_lt
  have hs : r.slot < 16 := r.slot_lt
  have hcell := r.inCell
  have hdev : r.dev.slotId.toNat = r.slot := rfl
  cases hb : cfg.build with
  | cell =>
    have hp : (n.requestFrame cfg dev f dstAddress code slotMask cellId).ptype = ptypeCell := by
      simp only [Node.requestFrame, hb, Frame.ptype, Frame.setPtype, Frame.setCellId,
        Frame.setSlotMask]
      rw [toNat_setField _ _ (by decide), Bits.field_setField_self]
      rfl
    have hi : (n.requestFrame cfg dev f dstAddress code slotMask cellId).cellId =
        cellId.toNat % 2 ^ 14 := by
      simp only [Node.requestFrame, hb, Frame.cellId, Frame.setPtype, Frame.setCellId,
        Frame.setSlotMask]
      rw [toNat_setField _ _ (by decide), Bits.field_setField_of_disjoint _ _ _ _ (by decide),
        toNat_setField _ _ (by decide), Bits.field_setField_self]
    have hw : (n.requestFrame cfg dev f dstAddress code slotMask cellId).slotMask =
        slotMask.toNat := by
      simp only [Node.requestFrame, hb, Frame.slotMask, Frame.setPtype, Frame.setCellId,
        Frame.setSlotMask]
      rw [toNat_setField _ _ (by decide), Bits.field_setField_self, Nat.mod_eq_of_lt hm]
    simp only [Node.slotIdx, hb, hp, hi, hw, hcell hb, seenMask, hdev, ne_eq, not_true, if_false]
    by_cases hlt : cellId.toNat < 2 ^ 14
    case pos =>
      simp only [Nat.mod_eq_of_lt hlt, not_true, if_false, hlt, if_true, ← ne_eq,
        Bits.and_two_pow_ne_zero]
      split
      case isTrue hbit => rw [bitIndex_position hbit (by omega) (by omega)]
      case isFalse => rfl
    case neg =>
      have hne : ¬cellId.toNat % 2 ^ 14 = cellId.toNat := by omega
      simp only [hlt, if_false, Nat.zero_testBit, Bool.false_eq_true]
      exact if_pos hne
  | range =>
    have hw : (n.requestFrame cfg dev f dstAddress code slotMask cellId).bitfield =
        slotMask.toNat % 2 ^ 14 + 2 ^ 14 * cellId.toNat := by
      simp only [Node.requestFrame, hb, Frame.bitfield, Frame.setPtype, Frame.setCellId,
        Frame.setSlotMask]
      rw [toNat_setField _ _ (by decide), toNat_setField _ _ (by decide), Bits.field_add _ _ 14 16,
        Bits.field_setField_self, Bits.field_setField_of_disjoint _ _ _ _ (by decide),
        Bits.field_setField_self, Nat.mod_eq_of_lt hc]
    simp only [Node.slotIdx, hb, hw, seenMask, hdev, Bits.and_two_pow_ne_zero]
    split
    case isTrue hbit => rw [bitIndex_position hbit (by omega) (by omega)]
    case isFalse => rfl

/-- The start of a slot, as a delay. -/
def slotStart (k : Nat) : Nat :=
  (cfg.config.txHoldoffDelay.toNat + k * slotPeriod cfg) * 2 ^ 16

/-- A slot starts after the one before it. -/
lemma slotStart_lt {k l : Nat} (h : k < l) :
    slotStart cfg k + slotPeriod cfg * 2 ^ 16 ≤ slotStart cfg l := by
  have hm := Nat.mul_le_mul_right (slotPeriod cfg) (Nat.succ_le_of_lt h)
  rw [Nat.succ_mul] at hm
  rw [slotStart, slotStart, ← Nat.add_mul]
  exact Nat.mul_le_mul_right _ (by omega)

/-- A response starts with its slot and the antenna delay, up to the grain of the radio's clock. -/
lemma offset_eq {dstAddress cellId : UInt16} (r : Responder cfg dstAddress cellId) (f : Frame) (k : Nat)
    (t : BitVec 40) :
    r.offset ⟨f, Node.responseTxDelay cfg k t⟩ t =
      slotStart cfg k + r.dev.txAntennaDelay.toNat - (t.toNat % 2 ^ 9 : Nat) := by
  have hd : Node.responseTxDelay cfg k t = t.toNat + slotStart cfg k := rfl
  simp only [Responder.offset, hd, slotStart]
  omega

/-- A responder that sees its bit answers in the slot of its place, and no other one answers. -/
lemma reply_eq {req : Frame} {dstAddress cellId : UInt16} (r : Responder cfg dstAddress cellId)
    (t : BitVec 40) (hf : req.fctrl = fctrlRange16) (hd : req.dstAddress = dstAddress)
    (hc : req.code = codeSsTwrNrng) :
    r.reply req t = (Node.slotIdx cfg r.dev req).map fun k =>
      ⟨Node.responseFrame cfg r.dev (r.node.frames ((r.node.idx + 1).toNat % cfg.nframes))
        ⟨requestLen, req, t, false, 0⟩ k, Node.responseTxDelay cfg k t⟩ := by
  have hs : r.node.sem ≠ 1 := by
    rw [r.listening]
    decide
  have ha : ¬(req.dstAddress ≠ r.dev.myShortAddress ∧ req.dstAddress ≠ broadcastAddress) := by
    rw [hd]
    exact fun h => r.addressed.elim h.1 h.2
  rw [Responder.reply, Node.rxComplete, if_neg (not_not.mpr hf), if_neg hs, if_neg ha, if_pos hc,
    Node.rxRequest, if_neg (Nat.lt_irrefl requestLen)]
  split
  case h_1 e => rw [e]; rfl
  case h_2 k e => rw [e]; rfl

section Request
variable {n : Node} (dev : Dev) {dstAddress slotMask cellId : UInt16}

/-- Who answers a request, and when. -/
lemma reply_request (hn : n.Formed) (r : Responder cfg dstAddress cellId) (t : BitVec 40) :
    (r.reply (n.request cfg dev dstAddress codeSsTwrNrng slotMask cellId).2.frame t).map
        (r.offset · t) =
      if (seenMask cfg slotMask cellId).testBit r.slot then
        some (slotStart cfg (rank (seenMask cfg slotMask cellId) r.slot) +
          r.dev.txAntennaDelay.toNat - (t.toNat % 2 ^ 9 : Nat) : Int)
      else none := by
  have ho : (n.openRequest cfg slotMask cellId).Formed := by
    rw [Node.Formed, Node.openRequest_frames]
    exact hn
  obtain ⟨hf, hd, hc⟩ := requestFrame_spec cfg dev (n.openRequest cfg slotMask cellId)
    ((n.openRequest cfg slotMask cellId).frames ((n.openRequest cfg slotMask cellId).place cfg 0))
    dstAddress codeSsTwrNrng slotMask cellId
  rw [Node.request, reply_eq cfg r t (hf.trans (ho _)) hd hc, slotIdx_requestFrame]
  split
  case isTrue => rw [Option.map_some, Option.map_some, offset_eq]
  case isFalse => rfl

/-- The response that comes back from a responder that sees its bit. -/
lemma reply_frame (hn : n.Formed) (r : Responder cfg dstAddress cellId) (t : BitVec 40)
    (hb : (seenMask cfg slotMask cellId).testBit r.slot = true) :
    let req := (n.request cfg dev dstAddress codeSsTwrNrng slotMask cellId).2.frame
    ∃ p, r.reply req t = some p ∧ p.frame.fctrl = fctrlRange16 ∧ p.frame.seqNum = req.seqNum ∧
      p.frame.dstAddress = req.srcAddress ∧ p.frame.code = codeSsTwrNrngT1 ∧
      p.frame.slotId = .ofNat (rank (seenMask cfg slotMask cellId) r.slot) := by
  have ho : (n.openRequest cfg slotMask cellId).Formed := by
    rw [Node.Formed, Node.openRequest_frames]
    exact hn
  obtain ⟨hf, hd, hc⟩ := requestFrame_spec cfg dev (n.openRequest cfg slotMask cellId)
    ((n.openRequest cfg slotMask cellId).frames ((n.openRequest cfg slotMask cellId).place cfg 0))
    dstAddress codeSsTwrNrng slotMask cellId
  have hr := reply_eq cfg r t (hf.trans (ho _)) hd hc
  rw [slotIdx_requestFrame, if_pos hb] at hr
  exact ⟨_, hr, hf.trans (ho _), rfl, rfl, rfl, rfl⟩

/-- The timeout of a request is the sum, cut to 16 bits. -/
lemma rxTimeout_request :
    (n.request cfg dev dstAddress codeSsTwrNrng slotMask cellId).2.rxTimeout =
      timeoutSum cfg (rank slotMask.toNat 16) % 2 ^ 16 := by
  have hn : (n.openRequest cfg slotMask cellId).nnodes.toNat = rank slotMask.toNat 16 := by
    have hr := Bits.rank_le slotMask.toNat 16
    rw [Node.openRequest, ← numberOfBits_slots]
    rw [← numberOfBits_slots] at hr
    split <;> exact Nat.mod_eq_of_lt (by omega)
  simp only [Node.request, hn, timeoutSum, usecsToResponse]
  omega

/-- The slots are handed out as the request says exactly when the payload carries the mask. -/
lemma replies_iff (hn : n.Formed) :
    (∀ (r : Responder cfg dstAddress cellId) t,
      (r.reply (n.request cfg dev dstAddress codeSsTwrNrng slotMask cellId).2.frame t).isSome = true ↔
        slotMask.toNat.testBit r.slot = true) ↔ SlotsCarried cfg slotMask cellId := by
  have hs : ∀ (r : Responder cfg dstAddress cellId) t,
      (r.reply (n.request cfg dev dstAddress codeSsTwrNrng slotMask cellId).2.frame t).isSome = true ↔
        (seenMask cfg slotMask cellId).testBit r.slot = true := by
    intro r t
    rw [← Option.isSome_map (f := (r.offset · t)), reply_request cfg dev hn]
    split
    case isTrue h => simp [h]
    case isFalse h => simp [h]
  rw [slotsCarried_iff]
  simp only [hs]
  constructor
  · intro h i hi
    have := h (.atSlot cfg dstAddress cellId i hi 0) 0
    rw [Responder.atSlot_slot] at this
    exact Bool.eq_iff_iff.mpr this
  · intro h r _
    rw [h r.slot r.slot_lt]

section Carried
variable (hn : n.Formed) (hc : SlotsCarried cfg slotMask cellId)
include hn hc

/-- Who answers a request whose mask is carried, and when. -/
lemma reply_carried (r : Responder cfg dstAddress cellId) (t : BitVec 40) :
    (r.reply (n.request cfg dev dstAddress codeSsTwrNrng slotMask cellId).2.frame t).map
        (r.offset · t) =
      if slotMask.toNat.testBit r.slot then
        some (slotStart cfg (rank slotMask.toNat r.slot) + r.dev.txAntennaDelay.toNat -
          (t.toNat % 2 ^ 9 : Nat) : Int)
      else none := by
  have hbits := (slotsCarried_iff cfg slotMask cellId).mp hc
  have hr : rank (seenMask cfg slotMask cellId) r.slot = rank slotMask.toNat r.slot :=
    Bits.rank_congr fun i hi => hbits i (Nat.lt_trans hi r.slot_lt)
  rw [reply_request cfg dev hn, hbits r.slot r.slot_lt, hr]

/-- Who replies was asked, and replies at the start of its slot. -/
lemma offset_of_reply {r : Responder cfg dstAddress cellId} {t : BitVec 40} {p : Reply}
    (h : r.reply (n.request cfg dev dstAddress codeSsTwrNrng slotMask cellId).2.frame t = some p) :
    slotMask.toNat.testBit r.slot = true ∧
      r.offset p t = slotStart cfg (rank slotMask.toNat r.slot) + r.dev.txAntennaDelay.toNat -
        (t.toNat % 2 ^ 9 : Nat) := by
  have hr := reply_carried cfg dev hn hc r t
  rw [h] at hr
  split at hr
  case isTrue hb => exact ⟨hb, Option.some.inj hr⟩
  case isFalse => cases hr

variable (dstAddress) in
/-- Who is asked replies. -/
lemma exists_reply {i : Nat} (hi : i < 16) (hb : slotMask.toNat.testBit i = true) (antenna : UInt16)
    (t : BitVec 40) :
    ∃ p, (Responder.atSlot cfg dstAddress cellId i hi antenna).reply
        (n.request cfg dev dstAddress codeSsTwrNrng slotMask cellId).2.frame t = some p ∧
      (Responder.atSlot cfg dstAddress cellId i hi antenna).offset p t =
        slotStart cfg (rank slotMask.toNat i) + antenna.toNat - (t.toNat % 2 ^ 9 : Nat) := by
  have hr := reply_carried cfg dev hn hc (.atSlot cfg dstAddress cellId i hi antenna) t
  rw [Responder.atSlot_slot, if_pos hb] at hr
  obtain ⟨p, hp, ho⟩ := Option.map_eq_some_iff.mp hr
  exact ⟨p, hp, ho⟩

/-- Slots are disjoint when a period has room for a response, the grain of the clock and the spread of the
    antenna delays. -/
lemma disjoint_iff :
    (∀ (r r' : Responder cfg dstAddress cellId) t t' p p', air.Has r.dev → air.Has r'.dev →
      r.slot ≠ r'.slot →
      r.reply (n.request cfg dev dstAddress codeSsTwrNrng slotMask cellId).2.frame t = some p →
      r'.reply (n.request cfg dev dstAddress codeSsTwrNrng slotMask cellId).2.frame t' = some p' →
      r.offset p t + air.data ≤ r'.offset p' t' - air.shr ∨
        r'.offset p' t' + air.data ≤ r.offset p t - air.shr) ↔
    (2 ≤ rank slotMask.toNat 16 →
      air.shr + air.data + 511 + (air.antennaMax.toNat - air.antennaMin.toNat) ≤
        slotPeriod cfg * 2 ^ 16) := by
  have hle := air.antenna_le
  constructor
  · intro h h2
    obtain ⟨i, hi, hbi, hri⟩ := Bits.exists_of_lt_rank (p := 0) (Nat.lt_of_lt_of_le (by decide) h2)
    obtain ⟨j, hj, hbj, hrj⟩ := Bits.exists_of_lt_rank (p := 1) (Nat.lt_of_lt_of_le (by decide) h2)
    have hne : ∀ a b, (Responder.atSlot cfg dstAddress cellId i hi a).slot ≠
        (Responder.atSlot cfg dstAddress cellId j hj b).slot := by
      intro a b
      rw [Responder.atSlot_slot, Responder.atSlot_slot]
      rintro rfl
      omega
    have hmax := UInt16.toNat_lt air.antennaMax
    -- The first responder waits for its antenna as much longer than the second as the spread allows, and the
    -- second answers earlier by what the grain allows, until the two meet.
    let period := slotPeriod cfg * 2 ^ 16
    let longer := min period (air.antennaMax.toNat - air.antennaMin.toNat)
    let earlier := min (period - longer) 511
    have hant : (UInt16.ofNat (air.antennaMin.toNat + longer)).toNat = air.antennaMin.toNat + longer := by
      rw [UInt16.toNat_ofNat']
      omega
    have hgrain : (BitVec.ofNat 40 earlier).toNat % 2 ^ 9 = earlier := by
      rw [BitVec.toNat_ofNat]
      omega
    have hz : (0 : BitVec 40).toNat % 2 ^ 9 = 0 := by decide
    have hhas : air.Has (Responder.atSlot cfg dstAddress cellId i hi
        (.ofNat (air.antennaMin.toNat + longer))).dev := by
      rw [Airtime.Has, Responder.atSlot, hant]
      omega
    have hhas' : air.Has (Responder.atSlot cfg dstAddress cellId j hj air.antennaMin).dev :=
      ⟨le_rfl, hle⟩
    obtain ⟨p, hp, hop⟩ := exists_reply cfg dev dstAddress hn hc hi hbi
      (.ofNat (air.antennaMin.toNat + longer)) 0
    obtain ⟨q, hq, hoq⟩ := exists_reply cfg dev dstAddress hn hc hj hbj air.antennaMin
      (.ofNat 40 earlier)
    have hdis := h _ _ _ _ _ _ hhas hhas' (hne _ _) hp hq
    have := air.shr_pos
    rw [hri, hz, hant] at hop
    rw [hrj, hgrain] at hoq
    have h0 : slotStart cfg 0 = cfg.config.txHoldoffDelay.toNat * 2 ^ 16 := by
      rw [slotStart, Nat.zero_mul, Nat.add_zero]
    have h1 : slotStart cfg 1 = cfg.config.txHoldoffDelay.toNat * 2 ^ 16 + period := by
      rw [slotStart, Nat.one_mul, Nat.add_mul]
    rw [h0] at hop
    rw [h1] at hoq
    omega
  · intro h r r' t t' p p' ha ha' hne hp hp'
    obtain ⟨hb, ho⟩ := offset_of_reply cfg dev hn hc hp
    obtain ⟨hb', ho'⟩ := offset_of_reply cfg dev hn hc hp'
    have hlt := Bits.rank_lt hb (show r.slot < 16 from r.slot_lt)
    have hlt' := Bits.rank_lt hb' (show r'.slot < 16 from r'.slot_lt)
    have hkl : rank slotMask.toNat r.slot ≠ rank slotMask.toNat r'.slot :=
      fun e => hne (Bits.rank_inj hb hb' e)
    have hair := h (by omega)
    rw [Airtime.Has] at ha ha'
    rcases Nat.lt_or_gt_of_ne hkl with h | h
    · have := slotStart_lt cfg h
      omega
    · have := slotStart_lt cfg h
      omega

/-- The timeout covers the last response when it is 0, so that there is none, or when what it loses to its
    16 bits and to the longest antenna delay was to spare. -/
lemma covered_iff :
    (∀ (r : Responder cfg dstAddress cellId) t p, air.Has r.dev →
      r.reply (n.request cfg dev dstAddress codeSsTwrNrng slotMask cellId).2.frame t = some p →
      (n.request cfg dev dstAddress codeSsTwrNrng slotMask cellId).2.rxTimeout = 0 ∨
        r.offset p t + air.data ≤ air.requestData +
          (n.request cfg dev dstAddress codeSsTwrNrng slotMask cellId).2.rxTimeout * 2 ^ 16) ↔
    (0 < rank slotMask.toNat 16 → timeoutSum cfg (rank slotMask.toNat 16) % 2 ^ 16 = 0 ∨
      (timeoutSum cfg (rank slotMask.toNat 16) / 2 ^ 16 * 2 ^ 32 + air.antennaMax.toNat : Nat) ≤
        slack cfg air (rank slotMask.toNat 16)) := by
  rw [rxTimeout_request]
  generalize hN : rank slotMask.toNat 16 = N
  have hsum : 0 < N → ((slotStart cfg (N - 1) + air.data : Nat) : Int) + slack cfg air N =
      air.requestData + timeoutSum cfg N * 2 ^ 16 := by
    intro h0
    obtain ⟨m, rfl⟩ := Nat.exists_eq_succ_of_ne_zero (Nat.ne_of_gt h0)
    simp only [slotStart, slack, timeoutSum, Nat.succ_eq_add_one, Nat.add_sub_cancel]
    push_cast
    ring
  constructor
  · intro h h0
    obtain ⟨i, hi, hb, hr⟩ := Bits.exists_of_lt_rank (m := slotMask.toNat) (k := 16) (p := N - 1)
      (by omega)
    obtain ⟨p, hp, ho⟩ := exists_reply cfg dev dstAddress hn hc hi hb air.antennaMax 0
    have hz : (0 : BitVec 40).toNat % 2 ^ 9 = 0 := by decide
    refine (h _ _ _ ⟨air.antenna_le, le_rfl⟩ hp).imp_right fun hcov => ?_
    have := hsum h0
    rw [hr, hz] at ho
    omega
  · intro h r t p ha hp
    obtain ⟨hb, ho⟩ := offset_of_reply cfg dev hn hc hp
    have hlt := Bits.rank_lt hb (show r.slot < 16 from r.slot_lt)
    have hle : slotStart cfg (rank slotMask.toNat r.slot) ≤ slotStart cfg (N - 1) := by
      rcases Nat.lt_or_eq_of_le (Nat.le_sub_one_of_lt (hN ▸ hlt)) with hk | hk
      · exact Nat.le_trans (Nat.le_add_right _ _) (slotStart_lt cfg hk)
      · rw [hk]
    have := hsum (by omega)
    have hmax := ha.2
    refine (h (by omega)).imp_right fun hslack => ?_
    omega

end Carried

end Request

/-- The airtime of a response of 180 usec, and of a request, among nodes with any antenna delay. -/
def airtime180 : Airtime := ⟨8000000, Nat.succ_pos _, 3500000, 3400000, 0, 0xFFFF, Nat.zero_le _⟩

end UwbCore.Nrng
