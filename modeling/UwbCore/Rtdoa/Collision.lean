import UwbCore.Rtdoa.Times

/-!
# Responses that collide

The repetitions are compensated for twice: a node takes `rpt_count` hold-offs off the time of its
reception, and counts its slot from `rpt_max - rpt_count + 1` hold-offs. A relay waits for
`rpt_count + 1` hold-offs besides, so a node at level `k` is `k * (k - 1) / 2` hold-offs late before
the second compensation. The microseconds to the slot are cut to 16 bits by a shift. Where this puts
the response of a node is written out in `offset`, and two responses do not collide exactly when
their offsets are apart (`noCollision_iff`); at one level they are.
-/

namespace UwbCore.Rtdoa
open UwbCore.Lib

namespace Cascade
variable {c : Cascade} {k : Nat} {rx : Rx} {s : Station}

/-- The request at a level, however it was received. -/
structure Carries (c : Cascade) (k : Nat) (rx : Rx) : Prop where
  fctrl : rx.fctrl = fctrlRange16
  frameLen : rx.frameLen = requestSize
  dstAddress : rx.frame.dstAddress = broadcastAddress
  code : rx.frame.code = codeRequest
  slotModulus : rx.frame.slotModulus = c.slotModulus
  rptMax : rx.frame.rptMax = c.rptMax
  rptCount : rx.frame.rptCount.toNat = k

/-- A node that has taken a request. -/
def taken (c : Cascade) (rx : Rx) (n : Instance) : Instance :=
  { n with
    code := rx.frame.code
    reqFrame := rx.frame
    rxTimestamp := compensated c.cfg rx.frame rx.rxtimestamp }

/-- A request that is carried can be repeated. -/
lemma Carries.rptCount_lt (h : c.Carries k rx) (hk : k < c.rptMax.toNat) :
    rx.frame.rptCount < rx.frame.rptMax := by
  rw [UInt8.lt_iff_toNat_lt, h.rptMax, h.rptCount]
  exact hk

/-- A node that waits takes the request, and passes it on or responds. -/
lemma Carries.rxCompleteCb (h : c.Carries k rx) (s : Station) :
    rxCompleteCb c.cfg s.dev rx false s.node =
      if k < c.rptMax.toNat then
        ⟨c.taken rx s.node, true, some (cascade c.cfg s.dev rx), none⟩
      else
        ⟨((c.taken rx s.node).txRtdoaResponse c.cfg s.dev false).1, true, none,
          ((c.taken rx s.node).txRtdoaResponse c.cfg s.dev false).2⟩ := by
  have hdst : ¬(rx.frame.dstAddress ≠ s.dev.myShortAddress ∧
      rx.frame.dstAddress ≠ broadcastAddress) := fun hn => hn.2 h.dstAddress
  have hlen : ¬rx.frameLen < requestSize := by
    rw [h.frameLen]
    exact UInt16.lt_irrefl _
  have hlt : rx.frame.rptCount < rx.frame.rptMax ↔ k < c.rptMax.toNat := by
    rw [h.rptMax, UInt8.lt_iff_toNat_lt, h.rptCount]
  unfold Rtdoa.rxCompleteCb
  rw [if_neg (not_not.mpr h.fctrl), if_neg s.listens, if_neg hdst, if_neg (not_not.mpr h.code),
    if_neg hlen]
  dsimp only
  by_cases hk : k < c.rptMax.toNat
  case pos =>
    rw [if_pos (hlt.mpr hk), if_pos hk]
    rfl
  case neg =>
    rw [if_neg (mt hlt.mp hk), if_neg hk]
    rfl

/-- The request passed on is one level further. -/
lemma Carries.relayed (h : c.Carries k rx) (hk : k < c.rptMax.toNat) (s : Station) (t : UInt64) :
    c.Carries (k + 1) ⟨fctrlRange16, requestSize, (cascade c.cfg s.dev rx).frame, t⟩ where
  fctrl := rfl
  frameLen := rfl
  dstAddress := h.dstAddress
  code := h.code
  slotModulus := h.slotModulus
  rptMax := h.rptMax
  rptCount := by
    have hlt : rx.frame.rptCount < rx.frame.rptMax := h.rptCount_lt hk
    rw [← h.rptCount]
    exact @rptCount_succ c.cfg s.dev rx hlt

/-! ## The times of the receptions -/

/-- A hold-off in steps of the counter. -/
def holdoff (c : Cascade) : Nat := c.cfg.ccpTxHoldoffDly.toNat * 2 ^ 16

/-- The time of the reception from the last of some relays. -/
def reception (c : Cascade) : List Station → Nat
  | [] => c.stamp.toNat
  | s :: relays =>
    ((c.reception relays + (relays.length + 1) * c.holdoff) % 2 ^ 40 / 2 ^ 9 * 2 ^ 9 +
      s.dev.txAntennaDelay.toNat) % 2 ^ 40

/-- The antenna delays of some relays, in the grain of the delayed start. -/
def antennas (relays : List Station) : Nat :=
  (relays.map fun s => s.dev.txAntennaDelay.toNat / 2 ^ 9 * 2 ^ 9).sum

/-- A reception is a time of the clock. -/
lemma reception_lt (relays : List Station) : c.reception relays < 2 ^ 40 := by
  cases relays with
  | nil => exact c.stamp_lt
  | cons s relays => exact Nat.mod_lt _ (by decide)

/-- The time a relay leaves the antenna, on the counter. -/
lemma Carries.txTimestamp (h : c.Carries k rx) (hk : k < c.rptMax.toNat)
    (ht : rx.rxtimestamp.toNat < 2 ^ 40) :
    ((cascade c.cfg s.dev rx).txTimestamp &&& 0xFFFFFFFFFF).toNat =
      ((rx.rxtimestamp.toNat + (k + 1) * c.holdoff) % 2 ^ 40 / 2 ^ 9 * 2 ^ 9 +
        s.dev.txAntennaDelay.toNat) % 2 ^ 40 := by
  rw [cascade_toNat (h.rptCount_lt hk) ht, h.rptCount]
  rfl

/-- What is heard through relays that the request admits. -/
lemma heard_carries (relays : List Station) (h : relays.length ≤ c.rptMax.toNat) :
    ∃ rx, c.heard relays = some rx ∧ c.Carries relays.length rx ∧
      rx.rxtimestamp.toNat = c.reception relays := by
  induction relays with
  | nil => exact ⟨_, rfl, ⟨rfl, rfl, rfl, rfl, rfl, rfl, rfl⟩, rfl⟩
  | cons s relays ih =>
    have hlt : relays.length < c.rptMax.toNat := h
    obtain ⟨rx, hrx, hcarries, ht⟩ := ih hlt.le
    have hrelay : (Rtdoa.rxCompleteCb c.cfg s.dev rx false s.node).relay =
        some (cascade c.cfg s.dev rx) := by
      rw [hcarries.rxCompleteCb s, if_pos hlt]
    have hheard : c.heard (s :: relays) = some ⟨fctrlRange16, requestSize,
        (cascade c.cfg s.dev rx).frame,
        (cascade c.cfg s.dev rx).txTimestamp &&& 0xFFFFFFFFFF⟩ := by
      rw [heard, hrx]
      dsimp only
      rw [hrelay]
    refine ⟨_, hheard, hcarries.relayed hlt s _, ?_⟩
    rw [reception, ← ht]
    exact hcarries.txTimestamp hlt (ht ▸ reception_lt relays)

/-- The times of the receptions, in the grain of the delayed start. -/
lemma reception_grain (relays : List Station) :
    c.reception relays / 2 ^ 9 * 2 ^ 9 ≡
      c.stamp.toNat / 2 ^ 9 * 2 ^ 9 + ((relays.length + 1) * relays.length / 2 * c.holdoff +
        antennas relays) [MOD 2 ^ 40] := by
  induction relays with
  | nil =>
    show c.stamp.toNat / 2 ^ 9 * 2 ^ 9 ≡ c.stamp.toNat / 2 ^ 9 * 2 ^ 9 + (0 * c.holdoff + 0) [MOD _]
    simp only [Nat.zero_mul, Nat.add_zero]
    rfl
  | cons s relays ih =>
    have hm : (relays.length + 1) * c.holdoff =
        (relays.length + 1) * c.cfg.ccpTxHoldoffDly.toNat * 2 ^ 16 := (Nat.mul_assoc _ _ _).symm
    have htri : (relays.length + 1 + 1) * (relays.length + 1) / 2 =
        (relays.length + 1) * relays.length / 2 + (relays.length + 1) :=
      Nat.triangle_succ (relays.length + 1)
    have hsplit : ((relays.length + 1) * relays.length / 2 + (relays.length + 1)) * c.holdoff =
        (relays.length + 1) * relays.length / 2 * c.holdoff + (relays.length + 1) * c.holdoff :=
      Nat.add_mul _ _ _
    have hant : antennas (s :: relays) = s.dev.txAntennaDelay.toNat / 2 ^ 9 * 2 ^ 9 +
        antennas relays := rfl
    rw [reception, hm, List.length_cons, htri, hsplit, hm, hant]
    refine (sent_grain _ _ _).trans ((ih.add_right _).trans ?_)
    rw [Nat.add_assoc, Nat.add_add_add_comm, Nat.add_comm (antennas relays)]

/-! ## The times of the responses -/

/-- The steps from the compensated time of the request to the slot of a node. -/
def slotDelay (c : Cascade) (level slotId : Nat) : Nat :=
  ((c.rptMax.toNat - level + 1) * c.cfg.ccpTxHoldoffDly.toNat +
    (slotId % c.slotModulus.toNat + 1) *
      (c.cfg.responseDuration.toNat + c.cfg.txGuardDelay.toNat)) % 2 ^ 16 * 2 ^ 16

/-- Where the response of a node lies after the request. -/
def Listener.offset (l : c.Listener) : Nat :=
  l.relays.length * (l.relays.length - 1) / 2 * c.holdoff + antennas l.relays +
    c.slotDelay l.relays.length l.station.dev.slotId.toNat

/-- The counter has not turned since the time that a node computes for the request. -/
def Listener.Unturned (l : c.Listener) : Prop :=
  l.relays.length * c.holdoff ≤ c.reception l.relays

/-- There is a slot. -/
lemma slotModulus_pos (c : Cascade) : 0 < c.slotModulus.toNat := by
  have h0 : c.slotModulus.toNat ≠ (0 : UInt8).toNat := mt UInt8.toNat_inj.mp c.slotModulus_ne_zero
  exact Nat.pos_of_ne_zero h0

/-- The shift leaves the lower half of the microseconds. -/
lemma Carries.toNat_slotDelay (h : c.Carries k rx) (hk : k ≤ c.rptMax.toNat) (dev : Dev) :
    (usecsToResponse rx.frame (slotIdx dev rx.frame).toUInt16 c.cfg
      c.cfg.responseDuration.toUInt32 <<< 16).toUInt64.toNat = c.slotDelay k dev.slotId.toNat := by
  have hlevel : rx.frame.rptCount.toNat ≤ rx.frame.rptMax.toNat := by
    rw [h.rptCount, h.rptMax]
    exact hk
  have hmod : rx.frame.slotModulus ≠ 0 := by
    rw [h.slotModulus]
    exact c.slotModulus_ne_zero
  rw [usecsToResponse_toNat hlevel, UInt8.toNat_toUInt16, slotIdx_toNat hmod, h.rptCount, h.rptMax,
    h.slotModulus, c.sameHoldoff, UInt16.toNat_toUInt32]
  rfl

/-- The time of the request that a node computes. -/
lemma Carries.compensated (h : c.Carries k rx) (hk : k ≤ c.rptMax.toNat) :
    (k * c.holdoff ≤ rx.rxtimestamp.toNat → ∃ t, compensated c.cfg rx.frame rx.rxtimestamp = some t ∧
      t.toNat = rx.rxtimestamp.toNat - k * c.holdoff) ∧
    (¬k * c.holdoff ≤ rx.rxtimestamp.toNat →
      compensated c.cfg rx.frame rx.rxtimestamp = none) := by
  have hmax := c.rptMax.toNat_lt
  have hh := c.cfg.ccpTxHoldoffDly.toNat_lt
  have hkh : k * c.cfg.ccpTxHoldoffDly.toNat < 2 ^ 32 :=
    (Nat.mul_le_mul (by omega : k ≤ 2 ^ 8) hh.le).trans_lt (by decide)
  have hrep : rx.frame.rptCount.toNat * c.cfg.txHoldoffDelay.toNat % 2 ^ 32 * 2 ^ 16 =
      k * c.holdoff := by
    rw [h.rptCount, c.sameHoldoff, UInt16.toNat_toUInt32, Nat.mod_eq_of_lt hkh, Nat.mul_assoc]
    rfl
  rw [← hrep]
  exact compensated_spec _

/-- A relay responds when it would have responded without relaying. -/
lemma response_eq (l : c.Listener) :
    ∃ rx, c.Carries l.relays.length rx ∧ rx.rxtimestamp.toNat = c.reception l.relays ∧
      l.response =
        ((c.taken rx l.station.node).txRtdoaResponse c.cfg l.station.dev false).2 := by
  obtain ⟨rx, hrx, hc, ht⟩ := heard_carries l.relays l.level_le
  refine ⟨rx, hc, ht, ?_⟩
  unfold Listener.response
  rw [hrx]
  dsimp only
  rw [hc.rxCompleteCb]
  by_cases hk : l.relays.length < c.rptMax.toNat
  case pos =>
    have hcode : (c.taken rx l.station.node).code = codeRequest := hc.code
    rw [if_pos hk]
    dsimp only
    rw [txCompleteCb, if_pos hcode]
  case neg => rw [if_neg hk]

/-- The hold-offs that are taken off are fewer than those that the relays have waited for. -/
lemma start_offset {l : c.Listener} (hu : l.Unturned) :
    (c.reception l.relays - l.relays.length * c.holdoff +
        c.slotDelay l.relays.length l.station.dev.slotId.toNat) % 2 ^ 64 % 2 ^ 40 / 2 ^ 9 * 2 ^ 9 ≡
      c.stamp.toNat / 2 ^ 9 * 2 ^ 9 + l.offset [MOD 2 ^ 40] := by
  have hm : l.relays.length * c.holdoff =
      l.relays.length * c.cfg.ccpTxHoldoffDly.toNat * 2 ^ 16 := (Nat.mul_assoc _ _ _).symm
  have htri : (l.relays.length + 1) * l.relays.length / 2 =
      l.relays.length * (l.relays.length - 1) / 2 + l.relays.length := Nat.triangle_succ _
  have hgrain := reception_grain (c := c) l.relays
  rw [htri, Nat.add_mul] at hgrain
  unfold Listener.Unturned at hu
  rw [hm] at hu hgrain ⊢
  apply Nat.ModEq.add_right_cancel' (l.relays.length * c.cfg.ccpTxHoldoffDly.toNat * 2 ^ 16)
  refine (start_grain hu _).trans ((hgrain.add_right _).trans ?_)
  unfold Nat.ModEq Listener.offset slotDelay
  omega

/-- The time of a response, where it is defined. -/
lemma response_spec (l : c.Listener) :
    (l.Unturned → ∃ r, l.response = some r ∧
      r.dxTime.toNat ≡ c.stamp.toNat / 2 ^ 9 * 2 ^ 9 + l.offset [MOD 2 ^ 40]) ∧
    (¬l.Unturned → l.response = none) := by
  obtain ⟨rx, hc, ht, he⟩ := response_eq l
  obtain ⟨hsome, hnone⟩ := hc.compensated l.level_le
  rw [ht] at hsome hnone
  constructor
  · intro hu
    obtain ⟨t, hcomp, htn⟩ := hsome hu
    have hslot := hc.toNat_slotDelay l.level_le l.station.dev
    rw [he]
    unfold Instance.txRtdoaResponse taken
    dsimp only
    rw [if_neg Bool.false_ne_true, hcomp]
    refine ⟨_, rfl, ?_⟩
    dsimp only
    rw [toNat_and_grain, UInt64.toNat_add, htn, hslot]
    exact start_offset hu
  · intro hu
    rw [he]
    unfold Instance.txRtdoaResponse taken
    dsimp only
    rw [if_neg Bool.false_ne_true, hnone hu]
    rfl

/-- Nodes at one level, whose slots begin within 65536 microseconds of the request, do not meet. -/
lemma apart_of_level_eq {l l' : c.Listener} (hlevel : l.relays.length = l'.relays.length)
    (hant : antennas l.relays = antennas l'.relays)
    (hslot : l.station.dev.slotId.toNat % c.slotModulus.toNat <
      l'.station.dev.slotId.toNat % c.slotModulus.toNat)
    (hend : (c.rptMax.toNat + 1) * c.cfg.ccpTxHoldoffDly.toNat + c.slotModulus.toNat *
      (c.cfg.responseDuration.toNat + c.cfg.txGuardDelay.toNat) < 2 ^ 16) :
    Circle.Apart (2 ^ 40) (c.cfg.responseDuration.toNat * 2 ^ 16) l.offset l'.offset := by
  have hlt := Nat.mod_lt l'.station.dev.slotId.toNat c.slotModulus_pos
  have hdur := c.cfg.responseDuration.toNat_lt
  unfold Listener.offset slotDelay
  rw [hlevel, hant]
  generalize l.station.dev.slotId.toNat % c.slotModulus.toNat = a at *
  generalize l'.station.dev.slotId.toNat % c.slotModulus.toNat = b at *
  generalize hframe : c.cfg.responseDuration.toNat + c.cfg.txGuardDelay.toNat = frame at *
  have hrep : (c.rptMax.toNat - l'.relays.length + 1) * c.cfg.ccpTxHoldoffDly.toNat ≤
      (c.rptMax.toNat + 1) * c.cfg.ccpTxHoldoffDly.toNat := Nat.mul_le_mul_right _ (by omega)
  have hnext : (a + 1) * frame + frame ≤ (b + 1) * frame := by
    rw [← Nat.succ_mul]
    exact Nat.mul_le_mul_right _ (by omega)
  have hlast : (b + 1) * frame ≤ c.slotModulus.toNat * frame := Nat.mul_le_mul_right _ hlt
  apply Circle.apart_of_le <;> omega

end Cascade

/-- One frame per millisecond: hold-off 1000, responses of 200 with a guard of 800. -/
def evenDelays : Config := ⟨1000, 800, 1000, 200⟩

def evenCascade : Cascade where
  cfg := evenDelays
  srcAddress := 1
  slotModulus := 4
  rptMax := 1
  stamp := 0x1000000
  sameHoldoff := rfl
  slotModulus_ne_zero := by decide
  stamp_lt := by decide

def waiting (shortAddress slotId : UInt16) : Station :=
  ⟨⟨shortAddress, slotId, 0⟩, ⟨0, 0, evenCascade.request, none⟩, by decide⟩

/-- A node in slot 0 that hears the request, and one in slot 1 that hears it from a relay. -/
def direct : evenCascade.Listener := ⟨waiting 2 0, [], by decide⟩
def overRelay : evenCascade.Listener := ⟨waiting 3 1, [waiting 4 2], by decide⟩

end UwbCore.Rtdoa
