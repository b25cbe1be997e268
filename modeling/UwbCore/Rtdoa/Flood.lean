import UwbCore.Rtdoa.Times

/-!
# A request that spreads through a network

The nodes of a network pass a request on, each with delays of its own, and a copy of it is heard when a
node has sent it (`Hears`). Copies differ in the count of the repetitions and in the time. That time is
what the relays on the way have waited for, in the grain of the delayed start (`Hears.grain`), and
a node that takes a copy responds at a time that is counted from it (`respond_spec`).
-/

namespace UwbCore.Rtdoa
open UwbCore.Lib

/-- A node that waits for a request, and its delays. -/
structure Node extends Station where
  cfg : Config

namespace Node
variable (n : Node)

/-- The request is for the node. -/
def Takes (rx : Rx) : Prop :=
  rx.frame.dstAddress = n.dev.myShortAddress ∨ rx.frame.dstAddress = broadcastAddress

instance decidableTakes (rx : Rx) : Decidable (n.Takes rx) := inferInstanceAs (Decidable (_ ∨ _))

/-- The response of a node to a copy, sent at once or when its relay is out. -/
def respond (rx : Rx) : Option Response :=
  let e := rxCompleteCb n.cfg n.dev rx false n.node
  match e.relay with
  | none => e.response
  | some _ => (txCompleteCb n.cfg n.dev false e.node).response

/-- What a relay waits for before it sends a copy, with its antenna in the grain of the delayed start. -/
def wait (rx : Rx) : Nat :=
  (rx.frame.rptCount.toNat + 1) * (n.cfg.ccpTxHoldoffDly.toNat * 2 ^ 16) +
    n.dev.txAntennaDelay.toNat / 2 ^ 9 * 2 ^ 9

/-- The hold-offs that a node takes off the time of a copy. -/
def repeats (rx : Rx) : Nat :=
  rx.frame.rptCount.toNat * n.cfg.txHoldoffDelay.toNat % 2 ^ 32 * 2 ^ 16

/-- The steps from there to the slot of the node. -/
def toSlot (rx : Rx) : Nat :=
  ((rx.frame.rptMax.toNat - rx.frame.rptCount.toNat + 1) * n.cfg.txHoldoffDelay.toNat +
    (n.dev.slotId.toNat % rx.frame.slotModulus.toNat + 1) *
      (n.cfg.responseDuration.toNat + n.cfg.txGuardDelay.toNat)) % 2 ^ 16 * 2 ^ 16

end Node

/-- A copy of a request that can be taken and passed on. -/
structure IsRequest (rx : Rx) : Prop where
  fctrl : rx.fctrl = fctrlRange16
  frameLen : ¬rx.frameLen < requestSize
  code : rx.frame.code = codeRequest
  slotModulus : rx.frame.slotModulus ≠ 0
  level : rx.frame.rptCount.toNat ≤ rx.frame.rptMax.toNat
  stamp : rx.rxtimestamp.toNat < 2 ^ 40

/-- What is heard of a request in a network, and what the relays on its way have waited for. -/
inductive Hears (net : Node → Prop) (rx0 : Rx) : Nat → Rx → Prop where
  | direct :
    Hears net rx0 0 rx0
  | relayed {waited rx r} (n : Node) :
    net n →
    Hears net rx0 waited rx →
    (rxCompleteCb n.cfg n.dev rx false n.node).relay = some r →
    Hears net rx0 (waited + n.wait rx)
      ⟨fctrlRange16, requestSize, r.frame, r.txTimestamp &&& 0xFFFFFFFFFF⟩

section
variable {n : Node} {rx rx0 : Rx} {net : Node → Prop} {waited : Nat}

/-- A node that has taken a copy. -/
def Node.taken (n : Node) (rx : Rx) : Instance :=
  { n.node with
    code := rx.frame.code
    reqFrame := rx.frame
    rxTimestamp := compensated n.cfg rx.frame rx.rxtimestamp }

/-- What a node does with a copy: it passes it on, or it responds. -/
lemma IsRequest.rxCompleteCb (h : IsRequest rx) (ht : n.Takes rx) :
    rxCompleteCb n.cfg n.dev rx false n.node =
      if rx.frame.rptCount < rx.frame.rptMax then
        ⟨n.taken rx, true, some (cascade n.cfg n.dev rx), none⟩
      else
        ⟨((n.taken rx).txRtdoaResponse n.cfg n.dev false).1, true, none,
          ((n.taken rx).txRtdoaResponse n.cfg n.dev false).2⟩ := by
  have hdst : ¬(rx.frame.dstAddress ≠ n.dev.myShortAddress ∧
      rx.frame.dstAddress ≠ broadcastAddress) := by
    rintro ⟨h1, h2⟩
    cases ht with
    | inl ht => exact h1 ht
    | inr ht => exact h2 ht
  unfold Rtdoa.rxCompleteCb
  rw [if_neg (not_not.mpr h.fctrl), if_neg n.listens, if_neg hdst, if_neg (not_not.mpr h.code),
    if_neg h.frameLen]
  rfl

/-- A copy that is not for a node has no effect. -/
lemma relay_of_not_takes (ht : ¬n.Takes rx) :
    (rxCompleteCb n.cfg n.dev rx false n.node).relay = none ∧
      (rxCompleteCb n.cfg n.dev rx false n.node).response = none := by
  have hdst : rx.frame.dstAddress ≠ n.dev.myShortAddress ∧
      rx.frame.dstAddress ≠ broadcastAddress := not_or.mp ht
  unfold Rtdoa.rxCompleteCb
  by_cases hf : rx.fctrl ≠ fctrlRange16
  case pos =>
    rw [if_pos hf]
    exact ⟨rfl, rfl⟩
  case neg =>
    rw [if_neg hf, if_neg n.listens, if_pos hdst]
    exact ⟨rfl, rfl⟩

/-- What a relay sends, and when it is one. -/
lemma IsRequest.relay (h : IsRequest rx) {r : Relay}
    (hr : (Rtdoa.rxCompleteCb n.cfg n.dev rx false n.node).relay = some r) :
    rx.frame.rptCount < rx.frame.rptMax ∧ r = cascade n.cfg n.dev rx := by
  by_cases ht : n.Takes rx
  case pos =>
    rw [h.rxCompleteCb ht] at hr
    by_cases hlt : rx.frame.rptCount < rx.frame.rptMax
    case pos =>
      rw [if_pos hlt] at hr
      exact ⟨hlt, (Option.some.inj hr).symm⟩
    case neg =>
      rw [if_neg hlt] at hr
      cases hr
  case neg =>
    rw [(relay_of_not_takes ht).1] at hr
    cases hr

/-- A copy is a request again. -/
lemma IsRequest.copy (h : IsRequest rx) (hlt : rx.frame.rptCount < rx.frame.rptMax) :
    IsRequest ⟨fctrlRange16, requestSize, (cascade n.cfg n.dev rx).frame,
      (cascade n.cfg n.dev rx).txTimestamp &&& 0xFFFFFFFFFF⟩ where
  fctrl := rfl
  frameLen := UInt16.lt_irrefl _
  code := h.code
  slotModulus := h.slotModulus
  level := by
    rw [rptCount_succ hlt]
    exact UInt8.lt_iff_toNat_lt.mp hlt
  stamp := by
    rw [cascade_toNat hlt h.stamp]
    exact Nat.mod_lt _ (by decide)

/-- All that is heard of a request is one. -/
lemma Hears.isRequest (h : Hears net rx0 waited rx) (h0 : IsRequest rx0) : IsRequest rx := by
  induction h with
  | direct => exact h0
  | relayed n _ _ hr ih =>
    obtain ⟨hlt, rfl⟩ := ih.relay hr
    exact ih.copy hlt

/-- The time of a copy, in the grain of the delayed start. -/
lemma Hears.grain (h : Hears net rx0 waited rx) (h0 : IsRequest rx0) :
    rx.rxtimestamp.toNat / 2 ^ 9 * 2 ^ 9 ≡
      rx0.rxtimestamp.toNat / 2 ^ 9 * 2 ^ 9 + waited [MOD 2 ^ 40] := by
  induction h with
  | direct => rw [Nat.add_zero]
  | @relayed waited rx r n _ hears hr ih =>
    have hreq := hears.isRequest h0
    obtain ⟨hlt, rfl⟩ := hreq.relay hr
    show ((cascade n.cfg n.dev rx).txTimestamp &&& 0xFFFFFFFFFF).toNat / 2 ^ 9 * 2 ^ 9 ≡ _ [MOD _]
    rw [cascade_toNat hlt hreq.stamp, Node.wait, ← Nat.mul_assoc]
    refine (sent_grain _ _ _).trans ?_
    rw [← Nat.add_assoc (rx0.rxtimestamp.toNat / 2 ^ 9 * 2 ^ 9)]
    exact ih.add_right _

/-- The repetitions of a request do not change how many there may be. -/
lemma Hears.rptMax (h : Hears net rx0 waited rx) (h0 : IsRequest rx0) :
    rx.frame.rptMax = rx0.frame.rptMax := by
  induction h with
  | direct => rfl
  | relayed n _ hears hr ih =>
    obtain ⟨-, rfl⟩ := (hears.isRequest h0).relay hr
    exact ih

/-- A request that is not to be repeated is heard itself only. -/
lemma Hears.of_rptMax_zero (h : Hears net rx0 waited rx) (h0 : IsRequest rx0)
    (hmax : rx0.frame.rptMax = 0) : rx = rx0 ∧ waited = 0 := by
  induction h with
  | direct => exact ⟨rfl, rfl⟩
  | relayed n _ hears hr ih =>
    obtain ⟨hlt, -⟩ := (hears.isRequest h0).relay hr
    rw [hears.rptMax h0, hmax] at hlt
    exact absurd hlt (UInt8.not_lt_zero)

end

/-! ## Responses -/

section
variable {n : Node} {rx : Rx}

/-- A node responds to a copy that it takes as if it did not pass it on. -/
lemma Node.respond_eq (h : IsRequest rx) (ht : n.Takes rx) :
    n.respond rx = ((n.taken rx).txRtdoaResponse n.cfg n.dev false).2 := by
  rw [Node.respond, h.rxCompleteCb ht]
  by_cases hlt : rx.frame.rptCount < rx.frame.rptMax
  case pos =>
    have hcode : (n.taken rx).code = codeRequest := h.code
    rw [if_pos hlt]
    dsimp only
    rw [txCompleteCb, if_pos hcode]
  case neg => rw [if_neg hlt]

/-- A frame that is not taken has no response. -/
lemma Node.respond_of_not_takes (ht : ¬n.Takes rx) : n.respond rx = none := by
  obtain ⟨hrelay, hresponse⟩ := relay_of_not_takes ht
  simp only [Node.respond, hrelay, hresponse]

/-- The time that a node sets for its response, where it is defined. -/
lemma Node.respond_spec (h : IsRequest rx) (ht : n.Takes rx) :
    (n.repeats rx ≤ rx.rxtimestamp.toNat → ∃ r, n.respond rx = some r ∧
      r.dxTime.toNat + n.repeats rx ≡
        rx.rxtimestamp.toNat / 2 ^ 9 * 2 ^ 9 + n.toSlot rx [MOD 2 ^ 40]) ∧
    (¬n.repeats rx ≤ rx.rxtimestamp.toNat → n.respond rx = none) := by
  obtain ⟨hsome, hnone⟩ := @compensated_spec n.cfg rx.frame rx.rxtimestamp
  rw [Node.respond_eq h ht, Instance.txRtdoaResponse, if_neg Bool.false_ne_true]
  constructor
  · intro hle
    obtain ⟨t, hcomp, htime⟩ := hsome hle
    have hslot := @usecsToResponse_toNat n.cfg rx.frame h.level
      (slotIdx n.dev rx.frame).toUInt16 n.cfg.responseDuration
    rw [UInt8.toNat_toUInt16, slotIdx_toNat h.slotModulus] at hslot
    rw [Node.taken, hcomp]
    refine ⟨_, rfl, ?_⟩
    dsimp only
    rw [toNat_and_grain, UInt64.toNat_add, htime, hslot]
    exact start_grain hle _
  · intro hle
    rw [Node.taken, hnone hle]
    rfl

end

end UwbCore.Rtdoa
