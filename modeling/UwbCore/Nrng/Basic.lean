import UwbCore.Lib.Run
import UwbCore.Lib.Table
import UwbCore.Nrng.Slots

/-!
# Multi-responder ranging

`struct nrng_instance` and the single-sided handler of `twr_ss_nrng.c`: a node asks the responders of
a slot mask for a range in one request, and each of them answers in a time slot of its own. The slot
selection goes through a payload of bit-fields that is laid out in one way with `CELL_ENABLED` and
in another without.

Times of the radio are 40 bits wide and the delays added to them 32, so the 64-bit sums of the source
do not wrap and are numbers here. The conversions between usec and UWB usec (a 40/39 of an usec) are
products and quotients of doubles. On all arguments of their types they are the whole numbers
below, a quotient that is whole falling short of itself by the rounding of the constant.
-/

namespace UwbCore.Nrng
open UwbCore.Lib

/-- `CELL_ENABLED`: slots are picked by the mask of a cell, or by a range of slots. -/
inductive Build where
  | cell | range
  deriving DecidableEq, Repr

/-- `struct uwb_rng_config`, the delays -/
structure RngConfig where
  txHoldoffDelay : UInt32
  txGuardDelay : UInt32
  rxTimeoutDelay : UInt16

/-- `(uint32_t)uwb_dwt_usecs_to_usecs(t)` -/
def dwtUsecsToUsecs (t : Nat) : Nat := 40 * t / 39

/-- `(uint64_t)uwb_usecs_to_dwt_usecs(t)` -/
def usecsToDwtUsecs (t : Nat) : Nat := (39 * t - 1) / 40

/-- What is fixed for all nodes: the build (`wcs` is `uwb_wcs_local_to_master` in one with
    `UWB_WCS_ENABLED`, and `1UL` has `ulBits` bits), the ring, the delays and `uwb_phy_frame_duration`
    of a response. -/
structure Cfg where
  build : Build
  ulBits : Nat
  wcs : Option (Nat → Nat)
  nframes : Nat
  nframes_pos : 0 < nframes
  config : RngConfig
  responseDuration : UInt16

/-- The settings of the repository, for a build with words of 32 bits, and a response of 180 usec. -/
def Cfg.dflt (build : Build) (wcs : Option (Nat → Nat)) : Cfg where
  build := build
  ulBits := 32
  wcs := wcs
  nframes := 32
  nframes_pos := Nat.succ_pos 31
  config := ⟨0x300, 0x120, 0x10⟩
  responseDuration := 180

/-- `struct uwb_dev`, the identity of a node (`uid` and `my_short_address` are one field) -/
structure Dev where
  myShortAddress : UInt16
  slotId : UInt16
  cellId : UInt16
  txAntennaDelay : UInt16

/-- `FCNTL_IEEE_RANGE_16` -/
def fctrlRange16 : UInt16 := 0x8841

/-- `UWB_BROADCAST_ADDRESS` -/
def broadcastAddress : UInt16 := 0xFFFF

def codeSsTwrNrng : UInt16 := 0x0130
def codeSsTwrNrngT1 : UInt16 := 0x0131
def codeSsTwrNrngFinal : UInt16 := 0x0132
def codeSsTwrNrngExtEnd : UInt16 := 0x0137
def codeDsTwrNrng : UInt16 := 0x0140
def codeDsTwrNrngEnd : UInt16 := 0x0144
def codeDsTwrNrngExt : UInt16 := 0x0145
def codeDsTwrNrngExtEnd : UInt16 := 0x0149
def codeDsTwrNrngInvalid : UInt16 := 0x014A

/-- `PTYPE_CELL` and `PTYPE_RANGE` -/
def ptypeCell : Nat := 0
def ptypeRange : Nat := 2

/-- `nrng_frame_t`. In a request the two words after the header, the reception and the transmission
    time of a response, are the slot payload. -/
structure Frame where
  fctrl : UInt16
  seqNum : UInt8
  panId : UInt16
  dstAddress : UInt16
  srcAddress : UInt16
  code : UInt16
  reception : BitVec 32
  transmission : BitVec 32
  slotId : UInt8
  request : BitVec 32
  response : BitVec 32
  carrierIntegrator : BitVec 32

/-- `sizeof(nrng_request_frame_t)` and `sizeof(nrng_response_frame_t)` -/
def requestLen : Nat := 19
def responseLen : Nat := 20

namespace Frame
variable (f : Frame)

/-! The members of `slot_payload_t` -/

def ptype : Nat := field f.reception.toNat 0 2
def bitfield : Nat := field f.transmission.toNat 0 30
def cellId : Nat := field f.transmission.toNat 0 14
def slotMask : Nat := field f.transmission.toNat 14 16

def setPtype (v : Nat) : Frame :=
  { f with reception := .ofNat 32 (setField f.reception.toNat 0 2 v) }

/-- `start_slot_id` and, at the same place, `cell_id` -/
def setCellId (v : Nat) : Frame :=
  { f with transmission := .ofNat 32 (setField f.transmission.toNat 0 14 v) }

/-- `end_slot_id` and, at the same place, `slot_mask` -/
def setSlotMask (v : Nat) : Frame :=
  { f with transmission := .ofNat 32 (setField f.transmission.toNat 14 16 v) }

/-- `memcpy` of a request over the frame -/
def copyRequest (g : Frame) : Frame :=
  { g with
    slotId := f.slotId, request := f.request, response := f.response
    carrierIntegrator := f.carrierIntegrator }

/-- `memcpy` of a response over the frame -/
def copyResponse (g : Frame) : Frame :=
  { g with
    request := f.request, response := f.response, carrierIntegrator := f.carrierIntegrator }

/-- `nrng_set_frames` -/
def init : Frame where
  fctrl := fctrlRange16
  seqNum := 0
  panId := 0xDECA
  dstAddress := 0
  srcAddress := 0
  code := codeDsTwrNrngInvalid
  reception := 0
  transmission := 0
  slotId := 0
  request := 0
  response := 0
  carrierIntegrator := 0

end Frame

/-- `struct nrng_instance`, with the radio's time of the last transmission. -/
structure Node where
  sem : Nat
  idx : UInt16
  seqNum : UInt8
  nnodes : UInt16
  slotMask : UInt16
  cellId : UInt16
  frames : Table Frame
  txtime : BitVec 40

/-- `nrng_init` -/
def Node.init : Node where
  sem := 1
  idx := 0xFFFF
  seqNum := 0
  nnodes := 0
  slotMask := 0
  cellId := 0
  frames := fun _ => .init
  txtime := 0

/-- What the radio reports with a received frame. -/
structure Rx where
  len : Nat
  frame : Frame
  timestamp : BitVec 40
  ldeError : Bool
  carrierIntegrator : BitVec 32

/-- `usecs_to_response` -/
def usecsToResponse (cfg : Cfg) (nslots : Nat) : Nat :=
  nslots * (cfg.responseDuration.toNat + dwtUsecsToUsecs cfg.config.txGuardDelay.toNat) % 2 ^ 32

/-- What a request hands to the radio: the frame, and the receive timeout in UWB usec. -/
structure Request where
  frame : Frame
  rxTimeout : Nat

namespace Node
variable (cfg : Cfg) (dev : Dev) (n : Node)

/-- The frame at place `p` of the current request. -/
def place (p : Nat) : Nat := (n.idx.toNat + p) % cfg.nframes

/-- The frame of a request, written over one of the ring. -/
def requestFrame (frame : Frame) (dstAddress code slotMask cellId : UInt16) : Frame :=
  let frame :=
    { frame with
      seqNum := n.seqNum, code := code, srcAddress := dev.myShortAddress, dstAddress := dstAddress }
  match cfg.build with
  | .cell => ((frame.setPtype ptypeCell).setCellId cellId.toNat).setSlotMask slotMask.toNat
  | .range => ((frame.setPtype ptypeRange).setSlotMask cellId.toNat).setCellId slotMask.toNat

/-- The bookkeeping of a request: the index moves on by the number of responders. -/
def openRequest (slotMask cellId : UInt16) : Node :=
  let nnodes := .ofNat (numberOfBits slotMask.toNat)
  let n := { n with sem := 0, nnodes := nnodes, idx := n.idx + nnodes, seqNum := n.seqNum + 1 }
  match cfg.build with
  | .cell => { n with cellId := cellId, slotMask := slotMask }
  | .range => n

/-- `nrng_request` up to the start of the transmission, once the semaphore is taken. -/
def request (dstAddress code slotMask cellId : UInt16) : Node × Request :=
  let n := n.openRequest cfg slotMask cellId
  let frame := n.requestFrame cfg dev (n.frames (n.place cfg 0)) dstAddress code slotMask cellId
  let timeout := (cfg.config.txHoldoffDelay.toNat + usecsToResponse cfg n.nnodes.toNat +
    cfg.config.rxTimeoutDelay.toNat) % 2 ^ 16
  ({ n with frames := n.frames.modify (n.place cfg 0) fun _ => frame }, ⟨frame, timeout⟩)

/-- The end of a request, by the timeout or by a start error: the semaphore is free again. -/
def release : Node := { n with sem := 1 }

end Node

/-- A response handed to the radio, and the time it is to be sent at. -/
structure Reply where
  frame : Frame
  dxTime : Nat

/-- What the receive handler leaves behind: the node, the response it sends and the receive timeout
    it sets. -/
structure Effect where
  node : Node
  reply : Option Reply
  rxTimeout : Option Nat

namespace Node
variable (cfg : Cfg) (dev : Dev) (n : Node)

def quiet : Effect := ⟨n, none, none⟩

/-- A time stamp of the radio as it goes into a frame. -/
def stamp (t : Nat) : BitVec 32 :=
  match cfg.wcs with
  | none => .ofNat 32 t
  | some localToMaster => .ofNat 32 (localToMaster t)

/-- The slot of a node in a request, where the request selects it. -/
def slotIdx (f : Frame) : Option Nat :=
  match cfg.build with
  | .cell =>
    if f.ptype ≠ ptypeCell then none
    else if f.cellId ≠ dev.cellId.toNat then none
    else if f.slotMask &&& 2 ^ dev.slotId.toNat ≠ 0 then
      some (bitIndex f.slotMask (2 ^ dev.slotId.toNat) .position)
    else none
  | .range =>
    if f.bitfield &&& 2 ^ dev.slotId.toNat ≠ 0 then
      some (bitIndex f.bitfield (2 ^ dev.slotId.toNat) .position)
    else none

/-- `response_tx_delay` -/
def responseTxDelay (slotIdx : Nat) (rxtimestamp : BitVec 40) : Nat :=
  rxtimestamp.toNat + (cfg.config.txHoldoffDelay.toNat + slotIdx * (cfg.config.txGuardDelay.toNat +
    usecsToDwtUsecs cfg.responseDuration.toNat)) * 2 ^ 16

/-- The response to a request, written over a frame of the ring. -/
def responseFrame (f : Frame) (rx : Rx) (slotIdx : Nat) : Frame :=
  let txDelay := responseTxDelay cfg slotIdx rx.timestamp
  let responseTimestamp := txDelay % 2 ^ 40 / 2 ^ 9 * 2 ^ 9 + dev.txAntennaDelay.toNat
  { f.copyRequest rx.frame with
    reception := stamp cfg rx.timestamp.toNat
    transmission := stamp cfg responseTimestamp
    dstAddress := rx.frame.srcAddress
    srcAddress := dev.myShortAddress
    code := codeSsTwrNrngT1
    slotId := .ofNat slotIdx
    seqNum := rx.frame.seqNum
    carrierIntegrator := if cfg.wcs.isSome then 0 else -rx.carrierIntegrator }

/-- `rx_complete_cb` on `UWB_DATA_CODE_SS_TWR_NRNG` -/
def rxRequest (rx : Rx) : Effect :=
  if rx.len < requestLen then n.quiet
  else match slotIdx cfg dev rx.frame with
    | none => n.quiet
    | some slotIdx =>
      let n := { n with idx := n.idx + 1 }
      let frame := responseFrame cfg dev (n.frames (n.place cfg 0)) rx slotIdx
      let frames := n.frames.modify (n.place cfg 0) fun f => responseFrame cfg dev f rx slotIdx
      ⟨{ n with frames := frames, sem := n.sem + 1 },
        some ⟨frame, responseTxDelay cfg slotIdx rx.timestamp⟩, none⟩

/-- The frame that the answer to a request sent at `txtime` becomes. -/
def finalFrame (txtime : BitVec 40) (f : Frame) (rx : Rx) : Frame :=
  let responseTimestamp := if rx.ldeError then 0 else rx.timestamp.toNat
  { f.copyResponse rx.frame with
    request := stamp cfg txtime.toNat
    response := stamp cfg responseTimestamp
    dstAddress := rx.frame.srcAddress
    srcAddress := dev.myShortAddress
    code := codeSsTwrNrngFinal
    carrierIntegrator := if cfg.wcs.isSome then 0 else rx.carrierIntegrator }

/-- `rx_complete_cb` on `UWB_DATA_CODE_SS_TWR_NRNG_T1` -/
def rxResponse (rx : Rx) : Effect :=
  if rx.len < responseLen then n.quiet
  else if n.seqNum ≠ rx.frame.seqNum then n.quiet
  else
    let idx := rx.frame.slotId.toNat
    let timeout :=
      if idx + 1 = n.nnodes.toNat then 1
      else (usecsToResponse cfg (n.nnodes - .ofNat idx).toNat + cfg.config.rxTimeoutDelay.toNat) % 2 ^ 16
    ⟨{ n with frames := n.frames.modify (n.place cfg idx) fun f => finalFrame cfg dev n.txtime f rx },
      none, some timeout⟩

/-- `rx_complete_cb` -/
def rxComplete (rx : Rx) : Effect :=
  if rx.frame.fctrl ≠ fctrlRange16 then n.quiet
  else if n.sem = 1 then n.quiet
  else if rx.frame.dstAddress ≠ dev.myShortAddress ∧ rx.frame.dstAddress ≠ broadcastAddress then
    n.quiet
  else if rx.frame.code = codeSsTwrNrng then n.rxRequest cfg dev rx
  else if rx.frame.code = codeSsTwrNrngT1 then n.rxResponse cfg dev rx
  else n.quiet

end Node

/-- What happens at a node. -/
inductive Event where
  | request (dstAddress code slotMask cellId : UInt16) (startTxError : Bool) (txtime : BitVec 40)
  | listen
  | receive (rx : Rx)
  | timeout

namespace Node
variable (cfg : Cfg) (dev : Dev)

/-- One event at a node. A call waits for the semaphore. -/
def step (n : Node) : Event → Node
  | .request dstAddress code slotMask cellId startTxError txtime =>
    if n.sem = 0 then n
    else
      let (n, _) := n.request cfg dev dstAddress code slotMask cellId
      if startTxError then n.release else { n with txtime := txtime }
  | .listen => if n.sem = 0 then n else { n with sem := n.sem - 1 }
  | .receive rx => (n.rxComplete cfg dev rx).node
  | .timeout => if n.sem = 0 then n.release else n

/-- Every frame of the ring is a ranging frame. -/
def Formed (n : Node) : Prop := ∀ i, (n.frames i).fctrl = fctrlRange16

/-- The frame control stays in all slots. -/
lemma modify_fctrl {t : Table Frame} (ht : ∀ j, (t j).fctrl = fctrlRange16) (i : Nat)
    (g : Frame → Frame) (hg : (g (t i)).fctrl = fctrlRange16) (j : Nat) :
    (t.modify i g j).fctrl = fctrlRange16 := by
  rw [Table.modify_apply]
  split
  case isTrue => exact hg
  case isFalse => exact ht j

/-- A request has the frame control of its slot. -/
lemma requestFrame_fctrl (n : Node) (f : Frame) (dstAddress code slotMask cellId : UInt16) :
    (n.requestFrame cfg dev f dstAddress code slotMask cellId).fctrl = f.fctrl := by
  rw [requestFrame]
  split <;> rfl

/-- Opening a request changes no frame. -/
lemma openRequest_frames (n : Node) (slotMask cellId : UInt16) :
    (n.openRequest cfg slotMask cellId).frames = n.frames := by
  rw [openRequest]
  split <;> rfl

/-- A request. -/
lemma Formed.request {n : Node} (hn : n.Formed) (dstAddress code slotMask cellId : UInt16) :
    (n.request cfg dev dstAddress code slotMask cellId).1.Formed := by
  have ho : (n.openRequest cfg slotMask cellId).Formed := by
    rw [Formed, openRequest_frames]
    exact hn
  intro j
  refine modify_fctrl ho _ (fun _ => _) ?_ j
  rw [requestFrame_fctrl]
  exact ho _

/-- A frame that is received. -/
lemma Formed.rxComplete {n : Node} (hn : n.Formed) (rx : Rx) :
    (n.rxComplete cfg dev rx).node.Formed := by
  rw [Node.rxComplete]
  split
  case isTrue => exact hn
  case isFalse hf =>
    have hf : rx.frame.fctrl = fctrlRange16 := not_not.mp hf
    split_ifs
    · exact hn
    · exact hn
    · rw [rxRequest]
      split
      case isTrue => exact hn
      case isFalse =>
        split
        case h_1 => exact hn
        case h_2 k _ =>
          intro j
          exact modify_fctrl hn _ (fun f => responseFrame cfg dev f rx k) hf j
    · rw [rxResponse]
      split
      case isTrue => exact hn
      case isFalse =>
        split
        case isTrue => exact hn
        case isFalse =>
          intro j
          exact modify_fctrl hn _ (fun f => finalFrame cfg dev n.txtime f rx) hf j
    · exact hn

/-- One step. -/
lemma Formed.step {n : Node} (hn : n.Formed) (e : Event) : (n.step cfg dev e).Formed := by
  cases e with
  | request dstAddress code slotMask cellId startTxError txtime =>
    rw [Node.step]
    split_ifs
    · exact hn
    · exact hn.request cfg dev dstAddress code slotMask cellId
    · exact hn.request cfg dev dstAddress code slotMask cellId
  | listen =>
    rw [Node.step]
    split <;> exact hn
  | receive rx => exact hn.rxComplete cfg dev rx
  | timeout =>
    rw [Node.step]
    split <;> exact hn

/-- A node only ever stores ranging frames. -/
theorem formed_of_reach {n : Node} (rch : Reach (step cfg dev) anyEvent .init n) : n.Formed :=
  rch.invariant (fun _ => rfl) fun _ e hm _ => hm.step cfg dev e

end Node
end UwbCore.Nrng
