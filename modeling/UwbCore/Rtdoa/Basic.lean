import UwbCore.Lib.Circle
import UwbCore.Lib.Word

/-!
# RTDoA requests and responses

The callbacks of `rtdoa_node.c`: a node that hears a request passes it on while repetitions are left,
and answers it in its slot, at once or after its relay was sent. The slots are counted from the time
of the request, which a node finds from its own reception and the count of the repetitions. The clocks
are ideal (a skew of 0) and there is no propagation delay, so `tof_comp_cb` takes nothing off; time
stamps are those of one counter of 40 bits.
-/

namespace UwbCore.Rtdoa
open UwbCore.Lib

/-- `FCNTL_IEEE_RANGE_16` -/
def fctrlRange16 : UInt16 := 0x8841

/-- `UWB_DATA_CODE_RTDOA_REQUEST` -/
def codeRequest : UInt16 := 0x0311

/-- `UWB_DATA_CODE_RTDOA_RESP` -/
def codeResp : UInt16 := 0x0312

/-- `UWB_BROADCAST_ADDRESS` -/
def broadcastAddress : UInt16 := 0xffff

/-- `sizeof(rtdoa_request_frame_t)` -/
def requestSize : UInt16 := 22

/-- C `rtdoa_request_frame_t`, as far as the times of the responses depend on it. -/
structure Frame where
  dstAddress : UInt16
  srcAddress : UInt16
  code : UInt16
  slotModulus : UInt8
  rptCount : UInt8
  rptMax : UInt8

/-- The delays of `struct uwb_rng_config` and of the CCP, in UWB microseconds, and the duration of a
    response. -/
structure Config where
  txHoldoffDelay : UInt32
  txGuardDelay : UInt32
  ccpTxHoldoffDly : UInt16
  responseDuration : UInt16

/-- What the callbacks use of C `struct uwb_dev`. -/
structure Dev where
  myShortAddress : UInt16
  slotId : UInt16
  txAntennaDelay : UInt16

/-- A frame in the receive buffer. -/
structure Rx where
  fctrl : UInt16
  frameLen : UInt16
  frame : Frame
  rxtimestamp : UInt64

/-- C `struct rtdoa_instance`: the code of the frame at `idx`, the request, and its time in
    `rx_timestamp`, where that is defined. -/
structure Instance where
  sem : Nat
  code : UInt16
  reqFrame : Frame
  rxTimestamp : Option UInt64

/-- A request passed on, the time it is to be sent at and the time it leaves the antenna. -/
structure Relay where
  frame : Frame
  delayStart : UInt64
  txTimestamp : UInt64

/-- C `rtdoa_response_frame_t` and the time it is to be sent at. -/
structure Response where
  srcAddress : UInt16
  slotId : UInt8
  dxTime : UInt64

/-- What a callback leaves behind, what it returns, and what it has sent. -/
structure Effect where
  node : Instance
  ret : Bool
  relay : Option Relay
  response : Option Response

/-- C `rtdoa_usecs_to_response`. -/
def usecsToResponse (req : Frame) (nslots : UInt16) (config : Config) (duration : UInt32) : UInt32 :=
  (req.rptMax.toUInt32 - req.rptCount.toUInt32 + 1) * config.txHoldoffDelay +
    nslots.toUInt32 * (duration + config.txGuardDelay)

/-- The slot of a node. -/
def slotIdx (dev : Dev) (req : Frame) : UInt8 :=
  (dev.slotId % req.slotModulus.toUInt16 + 1).toUInt8

namespace Instance

/-- The semaphore is given back where no one has done so. -/
def release (n : Instance) : Instance := { n with sem := if n.sem = 0 then 1 else n.sem }

/-- C `tx_rtdoa_response`. The shift of the microseconds is one of 32 bits. -/
def txRtdoaResponse (cfg : Config) (dev : Dev) (startTxError : Bool) (n : Instance) :
    Instance × Option Response :=
  let slot := slotIdx dev n.reqFrame
  let usecs := usecsToResponse n.reqFrame slot.toUInt16 cfg cfg.responseDuration.toUInt32
  let sent := { n with code := codeResp }
  if startTxError then (sent.release, none)
  else (sent, n.rxTimestamp.map fun t =>
    ⟨dev.myShortAddress, slot, (t + (usecs <<< 16).toUInt64) &&& 0x000000FFFFFFFE00⟩)

end Instance

/-- The reception without the delay of the repetitions. The source computes with floating point,
    exactly for these times, but has no defined result for a negative time. -/
def compensated (cfg : Config) (frame : Frame) (rxtimestamp : UInt64) : Option UInt64 :=
  if frame.rptCount = 0 then some rxtimestamp
  else
    let repeatDly := (frame.rptCount.toUInt32 * cfg.txHoldoffDelay).toUInt64 <<< 16
    if repeatDly ≤ rxtimestamp then some (rxtimestamp - repeatDly) else none

/-- The request is passed on, with one repetition more. -/
def cascade (cfg : Config) (dev : Dev) (rx : Rx) : Relay :=
  let txFrame :=
    { rx.frame with srcAddress := dev.myShortAddress, rptCount := rx.frame.rptCount + 1 }
  let delayStart := (rx.rxtimestamp +
    txFrame.rptCount.toUInt64 * (cfg.ccpTxHoldoffDly.toUInt64 <<< 16)) &&& 0x0FFFFFFFE00
  ⟨txFrame, delayStart, delayStart + dev.txAntennaDelay.toUInt64⟩

/-- C `rx_complete_cb`. -/
def rxCompleteCb (cfg : Config) (dev : Dev) (rx : Rx) (startTxError : Bool) (n : Instance) :
    Effect :=
  if rx.fctrl ≠ fctrlRange16 then ⟨n, false, none, none⟩
  else if n.sem = 1 then ⟨n, false, none, none⟩
  else if rx.frame.dstAddress ≠ dev.myShortAddress ∧ rx.frame.dstAddress ≠ broadcastAddress then
    ⟨n, true, none, none⟩
  else if rx.frame.code ≠ codeRequest then ⟨n, false, none, none⟩
  else if rx.frameLen < requestSize then ⟨n, true, none, none⟩
  else
    let n := { n with
      code := rx.frame.code
      reqFrame := rx.frame
      rxTimestamp := compensated cfg rx.frame rx.rxtimestamp }
    if rx.frame.rptCount < rx.frame.rptMax then
      if startTxError then ⟨n.release, true, none, none⟩
      else ⟨n, true, some (cascade cfg dev rx), none⟩
    else
      let (n, response) := n.txRtdoaResponse cfg dev startTxError
      ⟨n, true, none, response⟩

/-- C `tx_complete_cb`: the response follows when the request was passed on. -/
def txCompleteCb (cfg : Config) (dev : Dev) (startTxError : Bool) (n : Instance) : Effect :=
  if n.code = codeRequest then
    let (n, response) := n.txRtdoaResponse cfg dev startTxError
    ⟨n, true, none, response⟩
  else ⟨n.release, n.sem = 0, none, none⟩

/-! ## A cascade -/

/-- A node that waits for a request. -/
structure Station where
  dev : Dev
  node : Instance
  listens : node.sem ≠ 1

/-- A request that all hear at the time `stamp`, with the hold-off of the relays the one that is
    compensated for. -/
structure Cascade where
  cfg : Config
  srcAddress : UInt16
  slotModulus : UInt8
  rptMax : UInt8
  stamp : UInt64
  sameHoldoff : cfg.txHoldoffDelay = cfg.ccpTxHoldoffDly.toUInt32
  slotModulus_ne_zero : slotModulus ≠ 0
  stamp_lt : stamp.toNat < 2 ^ 40

namespace Cascade
variable (c : Cascade)

/-- The request as `rtdoa_request` sends it. -/
def request : Frame where
  dstAddress := broadcastAddress
  srcAddress := c.srcAddress
  code := codeRequest
  slotModulus := c.slotModulus
  rptCount := 0
  rptMax := c.rptMax

/-- What is heard of the last of some relays, the last one first. -/
def heard : List Station → Option Rx
  | [] => some ⟨fctrlRange16, requestSize, c.request, c.stamp⟩
  | s :: relays =>
    match heard relays with
    | none => none
    | some rx =>
      match (rxCompleteCb c.cfg s.dev rx false s.node).relay with
      | none => none
      | some r => some ⟨fctrlRange16, requestSize, r.frame, r.txTimestamp &&& 0xFFFFFFFFFF⟩

/-- A node, and the relays that the request has come through. -/
structure Listener where
  station : Station
  relays : List Station
  level_le : relays.length ≤ c.rptMax.toNat

variable {c} in
/-- The response of a node, sent at once or when its relay is out. -/
def Listener.response (l : c.Listener) : Option Response :=
  match c.heard l.relays with
  | none => none
  | some rx =>
    let e := rxCompleteCb c.cfg l.station.dev rx false l.station.node
    match e.relay with
    | none => e.response
    | some _ => (txCompleteCb c.cfg l.station.dev false e.node).response

/-- Both nodes respond, and no step of the counter lies in both responses. -/
def NoCollision (l l' : c.Listener) : Prop :=
  ∃ r r', l.response = some r ∧ l'.response = some r' ∧
    ¬Circle.Overlap (2 ^ 40) (c.cfg.responseDuration.toNat * 2 ^ 16) r.dxTime.toNat r'.dxTime.toNat

end Cascade

end UwbCore.Rtdoa
