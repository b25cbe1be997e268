import UwbCore.Ccp.Basic
import UwbCore.Lib.Turns

/-!
# Whose turn it is in a survey

In the superframe with sequence number `q` the node with slot id `q % nnodes` asks for ranges and
sends its results, and every other node listens (lib/survey/src/survey.c); the end of a round is the
superframe with the last remainder. The nodes take the sequence number of the clock master
(`follows_send`), which has 8 bits. So `nnodes` superframes in a row give every node one turn exactly
if their number divides 256 or the sequence number does not wrap among them (`fair_iff`).

The times of the slots are those of `tdma_tx_slot_start` and `tdma_rx_slot_start` and may be any.
-/

namespace UwbCore.Survey
open UwbCore.Lib

/-- The fields of `survey_instance_t` and of the build that its slots use; `completeCb` tells whether
    `survey_complete_cb` is set. -/
structure Instance where
  surveyMask : Nat
  nnodes : UInt16
  seqNum : UInt8
  completeCb : Bool
  deriving DecidableEq

/-- What `tdma_tx_slot_start` and `tdma_rx_slot_start` give for a slot. -/
structure SlotStart where
  tx : UInt64
  rx : UInt64

/-- The functions that a slot of the survey ends in. -/
inductive Call where
  | surveyRequest (dxTime : UInt64)
  | surveyListen (dxTime : UInt64)
  | surveyBroadcaster (dxTime : UInt64)
  | surveyReceiver (dxTime : UInt64)
  deriving DecidableEq

/-- The sequence number of the survey: that of the clock without its low bits. -/
def seqOf (surveyMask : Nat) (ccpSeqNum : UInt8) : UInt8 :=
  (((ccpSeqNum.toNat : BitVec 32) &&& (~~~0#32 <<< surveyMask)) >>> surveyMask).toNat.toUInt8

/-- The low bits that a delayed start does not have. -/
def dxTime (start : UInt64) : UInt64 := start &&& 0xFFFFFFFE00

variable (slotId : UInt16) (ccpSeqNum : UInt8) (s : Instance)

/-- The test that both slots make. -/
def isTurn : Prop := ccpSeqNum.toNat % s.nnodes.toNat = slotId.toNat

instance decidableIsTurn : Decidable (isTurn slotId ccpSeqNum s) :=
  inferInstanceAs (Decidable (_ = _))

/-- C `survey_slot_range_cb`. -/
def surveySlotRangeCb (start : SlotStart) : Instance × Call :=
  ({ s with seqNum := seqOf s.surveyMask ccpSeqNum },
    if isTurn slotId ccpSeqNum s then .surveyRequest (dxTime start.tx)
    else .surveyListen (dxTime start.rx))

/-- C `survey_slot_broadcast_cb`, with whether it puts the event of a complete survey on the queue. -/
def surveySlotBroadcastCb (start : SlotStart) : Instance × Call × Bool :=
  ({ s with seqNum := seqOf s.surveyMask ccpSeqNum },
    if isTurn slotId ccpSeqNum s then .surveyBroadcaster (dxTime start.tx)
    else .surveyReceiver (dxTime start.rx),
    decide ((ccpSeqNum.toNat % s.nnodes.toNat : Int) = s.nnodes.toNat - 1) && s.completeCb)

variable {slotId ccpSeqNum s} {start : SlotStart}

/-- A node asks for ranges exactly if it is its turn. -/
lemma request_iff :
    (∃ t, (surveySlotRangeCb slotId ccpSeqNum s start).2 = .surveyRequest t) ↔
      isTurn slotId ccpSeqNum s := by
  rw [surveySlotRangeCb]
  split
  case isTrue h => exact ⟨fun _ => h, fun _ => ⟨_, rfl⟩⟩
  case isFalse h => exact ⟨fun ⟨_, e⟩ => (nomatch e), fun ht => absurd ht h⟩

/-- A node broadcasts exactly if it is its turn. -/
lemma broadcast_iff :
    (∃ t, (surveySlotBroadcastCb slotId ccpSeqNum s start).2.1 = .surveyBroadcaster t) ↔
      isTurn slotId ccpSeqNum s := by
  rw [surveySlotBroadcastCb]
  split
  case isTrue h => exact ⟨fun _ => h, fun _ => ⟨_, rfl⟩⟩
  case isFalse h => exact ⟨fun ⟨_, e⟩ => (nomatch e), fun ht => absurd ht h⟩

/-- The event of a complete survey is that of the last remainder. -/
lemma complete_iff (hcb : s.completeCb = true) (hpos : 0 < s.nnodes.toNat) :
    (surveySlotBroadcastCb slotId ccpSeqNum s start).2.2 = true ↔
      ccpSeqNum.toNat % s.nnodes.toNat = s.nnodes.toNat - 1 := by
  show (decide _ && s.completeCb) = true ↔ _
  rw [hcb, Bool.and_true, decide_eq_true_iff]
  omega

/-! ## Nodes that follow one clock -/

section
variable {cfg : Ccp.Cfg}

/-- The number of the blink is taken. -/
lemma takeEpochs_seqNum (ccp : Ccp.Instance) (rx : Ccp.Rx) :
    (ccp.takeEpochs cfg rx).seqNum = rx.blink.seqNum := by
  simp only [Ccp.Instance.takeEpochs, Ccp.Instance.adjustForEpochToRm, Ccp.Instance.checkValid]
  split <;> rfl

/-- The time of flight leaves it. -/
lemma compensateTof_seqNum (p : Ccp.Instance × Ccp.Frame) :
    (Ccp.compensateTof cfg p).1.seqNum = p.1.seqNum := by
  obtain ⟨ccp, f⟩ := p
  rw [Ccp.compensateTof]
  split <;> rfl

/-- So do the relays. -/
lemma compensateRelays_seqNum (p : Ccp.Instance × Ccp.Frame) :
    (Ccp.compensateRelays cfg p).1.seqNum = p.1.seqNum := by
  obtain ⟨ccp, f⟩ := p
  by_cases h : f.blink.rptCount ≠ 0
  case pos => simp only [Ccp.compensateRelays, h, ne_eq, not_false_eq_true, if_true]
  case neg => simp only [Ccp.compensateRelays, h, if_false]

/-- A node has the sequence number of the blink it takes. -/
lemma takeBlink_seqNum (ccp : Ccp.Instance) (rx : Ccp.Rx) :
    (ccp.takeBlink cfg rx).ccp.seqNum = rx.blink.seqNum := by
  simp only [Ccp.Instance.takeBlink, Ccp.Instance.release, compensateRelays_seqNum,
    compensateTof_seqNum, takeEpochs_seqNum]

/-- The sequence number that the master sends is the next one, and the nodes that take the blink have
    it as well. -/
lemma follows_send {cfg' : Ccp.Cfg} {master node : Ccp.Instance} {startTxError : Bool}
    {systime : BitVec 64} {tx : Ccp.Tx} {rx : Ccp.Rx}
    (h : (master.send cfg startTxError systime).tx = some tx)
    (hrx : rx.blink.seqNum = tx.blink.seqNum) :
    (master.send cfg startTxError systime).ccp.seqNum = master.seqNum + 1 ∧
      (node.takeBlink cfg' rx).ccp.seqNum = master.seqNum + 1 := by
  rw [takeBlink_seqNum, hrx]
  rw [Ccp.Instance.send] at h ⊢
  split
  case isTrue hs =>
    rw [if_pos hs] at h
    cases h
  case isFalse hs =>
    rw [if_neg hs] at h
    cases startTxError with
    | true =>
      cases h
      exact ⟨rfl, rfl⟩
    | false =>
      cases h
      exact ⟨rfl, rfl⟩

end

/-- The nodes of a survey by slot id, and the sequence number of the clock they follow. -/
structure Net where
  nnodes : UInt16
  pos : 0 < nnodes.toNat
  ccpSeqNum : UInt8
  nodes : UInt16 → Instance
  same : ∀ i, (nodes i).nnodes = nnodes

/-- The starts of the two slots of a superframe, by node. -/
structure Slots where
  range : UInt16 → SlotStart
  broadcast : UInt16 → SlotStart

/-- What a node does in a superframe. -/
structure Done where
  range : Call
  broadcast : Call
  complete : Bool

namespace Net

/-- A node after the slots of a superframe. -/
def nodeAfter (w : Net) (x : Slots) (i : UInt16) : Instance × Done :=
  let ranged := surveySlotRangeCb i (w.ccpSeqNum + 1) (w.nodes i) (x.range i)
  let sent := surveySlotBroadcastCb i (w.ccpSeqNum + 1) ranged.1 (x.broadcast i)
  (sent.1, ⟨ranged.2, sent.2.1, sent.2.2⟩)

/-- A superframe: the master sends the next sequence number, and every node has its two slots. -/
def superframe (w : Net) (x : Slots) : Net :=
  { w with
    ccpSeqNum := w.ccpSeqNum + 1
    nodes := fun i => (w.nodeAfter x i).1 }

/-- The net after some superframes. -/
def run (w : Net) (x : Nat → Slots) : Nat → Net
  | 0 => w
  | k + 1 => (w.run x k).superframe (x k)

/-- What a node does in the superframe after `k` others. -/
def done (w : Net) (x : Nat → Slots) (k : Nat) (i : UInt16) : Done :=
  ((w.run x k).nodeAfter (x k) i).2

/-- The node asks for ranges in this superframe. -/
def Requester (w : Net) (x : Nat → Slots) (k : Nat) (i : UInt16) : Prop :=
  ∃ t, (w.done x k i).range = .surveyRequest t

/-- The node sends its results in this superframe. -/
def Broadcaster (w : Net) (x : Nat → Slots) (k : Nat) (i : UInt16) : Prop :=
  ∃ t, (w.done x k i).broadcast = .surveyBroadcaster t

/-- The `nnodes` superframes after the first `k` give every node one turn of each kind, to no two of
    them in one superframe, and every node reports a complete survey once. -/
structure Fair (w : Net) (x : Nat → Slots) (k : Nat) : Prop where
  requester : ∀ i < w.nnodes, Once w.nnodes.toNat fun j => w.Requester x (k + j) i
  broadcaster : ∀ i < w.nnodes, Once w.nnodes.toNat fun j => w.Broadcaster x (k + j) i
  exclusive : ∀ j < w.nnodes.toNat, ∀ i i' : UInt16, i ≠ i' →
    ¬(w.Requester x (k + j) i ∧ w.Requester x (k + j) i') ∧
      ¬(w.Broadcaster x (k + j) i ∧ w.Broadcaster x (k + j) i')
  complete : ∀ i < w.nnodes, (w.nodes i).completeCb = true →
    Once w.nnodes.toNat fun j => (w.done x (k + j) i).complete = true

variable {w : Net} {x : Nat → Slots} {k : Nat} {i : UInt16}

/-- The number of nodes and what is set up in them stays. -/
lemma run_nnodes : (w.run x k).nnodes = w.nnodes := by
  induction k with
  | zero => rfl
  | succ k ih => exact ih

/-- A run leaves the callback. -/
lemma run_completeCb : ((w.run x k).nodes i).completeCb = (w.nodes i).completeCb := by
  induction k with
  | zero => rfl
  | succ k ih => exact ih

/-- The sequence number counts the superframes. -/
lemma run_ccpSeqNum : (w.run x k).ccpSeqNum = w.ccpSeqNum + UInt8.ofNat k := by
  induction k with
  | zero => exact (UInt8.add_zero _).symm
  | succ k ih =>
    show (w.run x k).ccpSeqNum + 1 = _
    rw [ih, UInt8.ofNat_add, UInt8.add_assoc]
    rfl

/-- The sequence number in a superframe, from that in an earlier one. -/
lemma ccpSeqNum_toNat (j : Nat) :
    ((w.run x (k + j)).ccpSeqNum + 1).toNat = (((w.run x k).ccpSeqNum + 1).toNat + j) % 256 := by
  rw [run_ccpSeqNum, run_ccpSeqNum, UInt8.ofNat_add]
  simp only [UInt8.toNat_add, UInt8.toNat_ofNat']
  omega

/-- The remainder that the nodes compute in a superframe. -/
def turnOf (w : Net) (x : Nat → Slots) (k : Nat) : Nat :=
  ((w.run x k).ccpSeqNum + 1).toNat % w.nnodes.toNat

/-- Whose turn it is. -/
lemma isTurn_iff : isTurn i ((w.run x k).ccpSeqNum + 1) ((w.run x k).nodes i) ↔
    w.turnOf x k = i.toNat := by
  rw [isTurn, (w.run x k).same, run_nnodes, turnOf]

/-- Who asks. -/
lemma requester_iff : w.Requester x k i ↔ w.turnOf x k = i.toNat :=
  request_iff.trans isTurn_iff

/-- Who broadcasts. -/
lemma broadcaster_iff : w.Broadcaster x k i ↔ w.turnOf x k = i.toNat :=
  broadcast_iff.trans isTurn_iff

/-- The survey is complete after the turn of the last node. -/
lemma done_complete_iff (h : (w.nodes i).completeCb = true) :
    (w.done x k i).complete = true ↔ w.turnOf x k = w.nnodes.toNat - 1 := by
  have hcb : ((w.run x k).nodes i).completeCb = true := by rw [run_completeCb, h]
  have hn : ((w.run x k).nodes i).nnodes = w.nnodes := by rw [(w.run x k).same, run_nnodes]
  have hiff := @complete_iff i ((w.run x k).ccpSeqNum + 1) ((w.run x k).nodes i) ((x k).broadcast i)
    hcb (hn ▸ w.pos)
  rw [hn] at hiff
  exact hiff

/-- The remainders that the nodes compute in successive superframes. -/
lemma turnOf_add (j : Nat) :
    w.turnOf x (k + j) = (((w.run x k).ccpSeqNum + 1).toNat + j) % 256 % w.nnodes.toNat := by
  rw [turnOf, ccpSeqNum_toNat]

/-- The turns of a survey are fair exactly if its number of nodes divides 256 or the sequence numbers
    of the superframes do not wrap. -/
theorem fair_iff (w : Net) (x : Nat → Slots) (k : Nat) :
    w.Fair x k ↔ w.nnodes.toNat ∣ 256 ∨
      ((w.run x k).ccpSeqNum + 1).toNat + w.nnodes.toNat ≤ 256 := by
  have hlt : ((w.run x k).ccpSeqNum + 1).toNat < 256 := UInt8.toNat_lt _
  rw [← turns_iff w.pos hlt]
  simp only [← turnOf_add]
  constructor
  · intro h i hi
    have hi16 : i < 65536 := hi.trans w.nnodes.toNat_lt
    have hto : (UInt16.ofNat i).toNat = i := UInt16.toNat_ofNat_of_lt' hi16
    have honce := h.requester (UInt16.ofNat i) (by rwa [UInt16.lt_iff_toNat_lt, hto])
    refine (Once.congr fun j _ => ?_).mp honce
    rw [requester_iff, hto]
  · intro h
    refine ⟨fun i hi => ?_, fun i hi => ?_, fun j _ i i' hne => ⟨?_, ?_⟩, fun i _ hcb => ?_⟩
    · refine (Once.congr fun j _ => ?_).mpr (h i.toNat (UInt16.lt_iff_toNat_lt.mp hi))
      exact requester_iff
    · refine (Once.congr fun j _ => ?_).mpr (h i.toNat (UInt16.lt_iff_toNat_lt.mp hi))
      exact broadcaster_iff
    · rw [requester_iff, requester_iff]
      rintro ⟨e, e'⟩
      exact hne (UInt16.toNat_inj.mp (e.symm.trans e'))
    · rw [broadcaster_iff, broadcaster_iff]
      rintro ⟨e, e'⟩
      exact hne (UInt16.toNat_inj.mp (e.symm.trans e'))
    · have hpos := w.pos
      refine (Once.congr fun j _ => ?_).mpr (h (w.nnodes.toNat - 1) (by omega))
      exact done_complete_iff hcb

/-- There are three nodes. -/
lemma three_pos : 0 < (3 : UInt16).toNat := by decide

/-- Three nodes before the superframe with sequence number 255. -/
def three : Net := ⟨3, three_pos, 254, fun _ => ⟨0, 3, 0, true⟩, fun _ => rfl⟩

/-- In the superframes 255, 0 and 1 node 0 has two turns and node 2 has none. -/
theorem fair_fails : ¬∀ (w : Net) (x : Nat → Slots) (k : Nat), w.Fair x k := by
  intro h
  have hfair := h three (fun _ => ⟨fun _ => ⟨0, 0⟩, fun _ => ⟨0, 0⟩⟩) 0
  obtain ⟨j, ⟨hj, hr⟩, -⟩ := hfair.requester 2 (by decide)
  rw [requester_iff, turnOf_add] at hr
  have hj3 : j < 3 := hj
  interval_cases j
  · exact absurd hr (by decide)
  · exact absurd hr (by decide)
  · exact absurd hr (by decide)

end Net

end UwbCore.Survey
