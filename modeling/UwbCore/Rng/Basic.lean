import UwbCore.Lib.Ring
import UwbCore.Lib.Table

/-!
# Ranging: frames and nodes

The state of `struct uwb_rng_instance`: the ring of `twr_frame_t`, its 16-bit index, the semaphore,
the flag `complete_after_tx`, and the registers of the radio that the handlers read. The handlers
copy time stamps and never compute with them, so their type `S` is left open: 32-bit counters for
the arithmetic, counters that carry where they come from for the exchanges.

The measurement data of a frame (angles, signal strength) is left out. It takes no part in the
headers, the time stamps and the control flow.
-/

namespace UwbCore.Rng
open UwbCore.Lib

/-- Message codes (`uwb_dataframe_code_t`). `gap` stands for the unassigned codes inside the range
    `UWB_DATA_CODE_SS_TWR ... UWB_DATA_CODE_DS_TWR_EXT_END`, `other` for those outside. -/
inductive Code where
  | ssTwr | ssTwrT1 | ssTwrFinal | ssTwrEnd
  | ssTwrExt | ssTwrExtT1 | ssTwrExtFinal | ssTwrExtEnd
  | ssTwrAck | ssTwrAckT1 | ssTwrAckFinal | ssTwrAckEnd
  | gap
  | dsTwr | dsTwrT1 | dsTwrT2 | dsTwrFinal | dsTwrEnd
  | dsTwrExt | dsTwrExtT1 | dsTwrExtT2 | dsTwrExtFinal | dsTwrExtEnd
  | other
  deriving DecidableEq, Repr

/-- The case range `UWB_DATA_CODE_SS_TWR ... UWB_DATA_CODE_DS_TWR_EXT_END`. -/
def Code.isTwr : Code → Bool
  | .other => false
  | _ => true

/-- The codes whose exchange takes one sequence number (`uwb_rng_request`). -/
def Code.oneSeq : Code → Bool
  | .ssTwr | .ssTwrExt => true
  | _ => false

/-- The codes under which `uwb_rng_twr_to_tof` combines one frame. -/
def Code.isSingleSided : Code → Bool
  | .ssTwr | .ssTwrT1 | .ssTwrFinal | .ssTwrEnd => true
  | .ssTwrExt | .ssTwrExtT1 | .ssTwrExtFinal | .ssTwrExtEnd => true
  | .ssTwrAck | .ssTwrAckT1 | .ssTwrAckFinal | .ssTwrAckEnd => true
  | _ => false

/-- The codes under which `uwb_rng_twr_to_tof` combines two frames. -/
def Code.isDoubleSided : Code → Bool
  | .dsTwr | .dsTwrT1 | .dsTwrT2 | .dsTwrFinal | .dsTwrEnd => true
  | .dsTwrExt | .dsTwrExtT1 | .dsTwrExtT2 | .dsTwrExtFinal | .dsTwrExtEnd => true
  | _ => false

/-- `FCNTL_IEEE_RANGE_16` -/
def fctrlRange16 : UInt16 := 0x8841

/-- `UWB_FCTRL_ACK_REQUESTED` -/
def fctrlAckRequested : UInt16 := 0x0020

/-- `UWB_FCTRL_FRAME_TYPE_ACK` -/
def fctrlFrameTypeAck : UInt16 := 0x0002

/-- `sizeof(ieee_rng_request_frame_t)` -/
def requestLen : Nat := 11

/-- `sizeof(ieee_rng_response_frame_t)` -/
def responseLen : Nat := 19

/-- `sizeof(twr_frame_final_t)` -/
def finalLen : Nat := 31

/-- `TWR_EXT_FRAME_SIZE` -/
def twrExtFrameSize : Nat := 32

/-- There is room for it in a buffer of 120 bytes. -/
lemma twrExtFrameSize_le : twrExtFrameSize ≤ 120 := by decide

/-- The first `k` bytes of a 32-bit word replaced, least significant byte first. -/
def overlayWord (k : Nat) (old new : BitVec 32) : BitVec 32 :=
  if k = 0 then old else if 4 ≤ k then new
  else (old >>> (8 * k)) <<< (8 * k) ||| new &&& BitVec.ofNat 32 (2 ^ (8 * k) - 1)

/-- What a type of 32-bit time stamps has to offer: a word of which the first bytes are replaced,
    as a copy of a frame that ends inside the word does, and a test for 0. -/
class Stamp (S : Type) where
  overlay : Nat → S → S → S
  isZero : S → Bool
  overlay_zero : ∀ old new, overlay 0 old new = old
  overlay_full : ∀ k old new, 4 ≤ k → overlay k old new = new

instance : Stamp (BitVec 32) where
  overlay := overlayWord
  isZero t := t = 0
  overlay_zero old new := rfl
  overlay_full k old new h := by
    have : k ≠ 0 := by omega
    simp [overlayWord, this, h]

/-- A `uint64_t` of which the low word is a time stamp of 32 bits, and the high word a plain
    number. -/
structure Wide (S : Type) where
  low : S
  high : BitVec 32

/-- `!timestamp`, a test of all 64 bits -/
def Wide.isZero {S : Type} [Stamp S] (t : Wide S) : Bool := Stamp.isZero t.low && t.high = 0

/-- `twr_frame_t` -/
structure TwrFrame (S : Type) where
  fctrl : UInt16
  seqNum : UInt8
  panId : UInt16
  dstAddress : UInt16
  srcAddress : UInt16
  code : Code
  reception : S
  transmission : S
  request : S
  response : S
  carrierIntegrator : BitVec 32

variable {S : Type}

/-- A frame as it goes over the air: its first `len` bytes. -/
structure Msg (S : Type) where
  len : Nat
  frame : TwrFrame S

/-- `memcpy(frame->array, inst->rxbuf, inst->frame_len)` for a length that covers the header: a
    field takes the bytes of it that were received. -/
def TwrFrame.receive [Stamp S] (f : TwrFrame S) (m : Msg S) : TwrFrame S :=
  { m.frame with
    reception := Stamp.overlay (m.len - 11) f.reception m.frame.reception
    transmission := Stamp.overlay (m.len - 15) f.transmission m.frame.transmission
    request := Stamp.overlay (m.len - 19) f.request m.frame.request
    response := Stamp.overlay (m.len - 23) f.response m.frame.response
    carrierIntegrator := overlayWord (m.len - 27) f.carrierIntegrator m.frame.carrierIntegrator }

/-- The packages that append a receive handler to the ranging service. -/
inductive Package where
  | twrSs | twrSsAck | twrSsExt | twrDs | twrDsExt
  deriving DecidableEq, Repr

/-- What is fixed for a node: its addresses, the ring, whether the radio filters frames, the size
    of `frame->array`, and the packages in the order in which their interfaces are appended. -/
structure Cfg where
  myShortAddress : UInt16
  panId : UInt16
  frameFilter : Bool
  ring : RingSize
  frameSize : Nat
  frameSize_ge : twrExtFrameSize ≤ frameSize
  packages : List Package

/-- `config->fctrl_req_ack` of the configuration for a code: twr_ss_ack.c asks for a hardware
    ACK. -/
def Cfg.reqAck (cfg : Cfg) (code : Code) : Bool :=
  code = .ssTwrAck && cfg.packages.contains .twrSsAck

/-- The ranging state of a node, the time of the last transmission (`uwb_read_txtime`) and the
    frame control that was received last (`inst->fctrl`). -/
structure Node (S : Type) where
  code : Code
  seqNum : UInt16
  sem : Nat
  completeAfterTx : Bool
  rxAckExpected : Bool
  txAckExpected : Bool
  ackRxTimestamp : Wide S
  idx : UInt16
  frames : Table (TwrFrame S)
  txtime : S
  fctrl : UInt16

/-- What the radio reports with a received frame: `inst->rxtimestamp` in its low and its high
    word, and the flags. -/
structure Rx (S : Type) where
  msg : Msg S
  timestamp : S
  timestampHigh : BitVec 32
  ldeError : Bool
  autoackTriggered : Bool
  carrierIntegrator : BitVec 32

/-- `inst->fctrl`, the frame control of the frame that was received -/
def Rx.fctrl (rx : Rx S) : UInt16 := rx.msg.frame.fctrl

/-- A ranging frame, with or without a request for an ACK, or an ACK. -/
def Rx.Ranging (rx : Rx S) : Prop :=
  rx.fctrl = fctrlRange16 ∨ rx.fctrl = fctrlRange16 ||| fctrlAckRequested ∨
    rx.fctrl = fctrlFrameTypeAck

instance (rx : Rx S) : Decidable rx.Ranging := inferInstanceAs (Decidable (_ ∨ _ ∨ _))

/-- `inst->rxtimestamp` -/
def Rx.rxtimestamp (rx : Rx S) : Wide S := ⟨rx.timestamp, rx.timestampHigh⟩

/-- What becomes of a transmission: the time `uwb_rng_calc_rel_tx` plans it for, whether
    `uwb_start_tx` fails, and the time the radio puts into its register. -/
structure Tx (S : Type) where
  planned : S
  startTxError : Bool
  txtime : S

/-- What a callback or a call leaves behind: the node, the message it has started to send and
    whether it called `rng_issue_complete`. -/
structure Effect (S : Type) where
  node : Node S
  sent : Option (Msg S)
  issued : Bool

namespace Node
variable (cfg : Cfg) (n : Node S)

/-- The frame at `rng->idx`. -/
def frame : TwrFrame S := n.frames (cfg.ring.cur n.idx)

def setFrame (i : Nat) (f : TwrFrame S) : Node S := { n with frames := n.frames.modify i fun _ => f }

/-- `dpl_sem_release(&rng->sem)` -/
def release : Node S := { n with sem := n.sem + 1 }

/-- The guarded release of the callbacks: only where the count is 0. -/
def releaseIfZero : Node S := if n.sem = 0 then n.release else n

/-- Nothing but the node changes. -/
def quiet : Effect S := ⟨n, none, false⟩

/-- The release of the semaphore and `rng_issue_complete`. -/
def complete : Effect S := ⟨n.release, none, true⟩

/-- The transmission of a message that will be answered. -/
def send (m : Msg S) (tx : Tx S) : Effect S :=
  if tx.startTxError then n.release.quiet
  else ⟨{ n with txtime := tx.txtime }, some m, false⟩

/-- The transmission of the last message of an exchange. -/
def sendLast (m : Msg S) (tx : Tx S) : Effect S :=
  if tx.startTxError then n.complete
  else ⟨{ n with txtime := tx.txtime, completeAfterTx := true }, some m, false⟩

end Node

/-- `frame->dst_address = frame->src_address; frame->src_address = inst->my_short_address` and the
    code of the answer. -/
def TwrFrame.answer (f : TwrFrame S) (cfg : Cfg) (code : Code) : TwrFrame S :=
  { f with dstAddress := f.srcAddress, srcAddress := cfg.myShortAddress, code := code }

/-- A frame of `g_twr_frames` before its first use. -/
def TwrFrame.init (zero : S) : TwrFrame S where
  fctrl := 0
  seqNum := 0
  panId := 0
  dstAddress := 0
  srcAddress := 0
  code := .other
  reception := zero
  transmission := zero
  request := zero
  response := zero
  carrierIntegrator := 0

/-- `uwb_rng_init` -/
def Node.init (zero : S) : Node S where
  code := .other
  seqNum := 0
  sem := 1
  completeAfterTx := false
  rxAckExpected := false
  txAckExpected := false
  ackRxTimestamp := ⟨zero, 0⟩
  idx := 0xFFFF
  frames := fun _ => .init zero
  txtime := zero
  fctrl := 0

@[simp] lemma setFrame_self (n : Node S) (i : Nat) (f : TwrFrame S) :
    (n.setFrame i f).frames i = f := if_pos rfl

@[simp] lemma setFrame_idx (n : Node S) (i : Nat) (f : TwrFrame S) :
    (n.setFrame i f).idx = n.idx := rfl

/-- The other frames stay. -/
lemma setFrame_of_ne (n : Node S) {i j : Nat} (f : TwrFrame S) (h : j ≠ i) :
    (n.setFrame i f).frames j = n.frames j := if_neg h

section Laws
variable [Stamp S] (f : TwrFrame S) (m : Msg S)

@[simp] lemma receive_fctrl : (f.receive m).fctrl = m.frame.fctrl := rfl
@[simp] lemma receive_seqNum : (f.receive m).seqNum = m.frame.seqNum := rfl
@[simp] lemma receive_panId : (f.receive m).panId = m.frame.panId := rfl
@[simp] lemma receive_dstAddress : (f.receive m).dstAddress = m.frame.dstAddress := rfl
@[simp] lemma receive_srcAddress : (f.receive m).srcAddress = m.frame.srcAddress := rfl
@[simp] lemma receive_code : (f.receive m).code = m.frame.code := rfl

/-- A response brings the time stamps of the responder, and leaves the others. -/
lemma receive_response (h : m.len = responseLen) :
    (f.receive m).reception = m.frame.reception ∧
      (f.receive m).transmission = m.frame.transmission ∧
      (f.receive m).request = f.request ∧ (f.receive m).response = f.response := by
  simp only [TwrFrame.receive, h, responseLen]
  exact ⟨Stamp.overlay_full _ _ _ (by decide), Stamp.overlay_full _ _ _ (by decide),
    Stamp.overlay_zero _ _, Stamp.overlay_zero _ _⟩

/-- A final frame brings all four time stamps. -/
lemma receive_final (h : finalLen ≤ m.len) :
    (f.receive m).reception = m.frame.reception ∧
      (f.receive m).transmission = m.frame.transmission ∧
      (f.receive m).request = m.frame.request ∧ (f.receive m).response = m.frame.response := by
  have h31 : 31 ≤ m.len := h
  exact ⟨Stamp.overlay_full _ _ _ (by omega), Stamp.overlay_full _ _ _ (by omega),
    Stamp.overlay_full _ _ _ (by omega), Stamp.overlay_full _ _ _ (by omega)⟩

end Laws

end UwbCore.Rng
