import UwbCore.Lib.Table
import UwbCore.Lib.Trunc
import UwbCore.Nrng.Ranges
import UwbCore.Rtdoa.Basic

/-!
# A tag that listens to RTDoA rounds

The tag of `rtdoa_tag.c` keeps the frames it hears in a ring and programs its receiver anew after each
of them. The last request is `req_frame`, through which times of the tag become times of the reference
(`rtdoa_local_to_master64`), and `rtdoa_tdoa_between_frames` gives the time difference of a request and
a response in metres. The state of the clock synchronisation is part of the configuration, since the
results are looked at while it stays the same.

Floating point is exact. A conversion to an unsigned word that is out of range, which C leaves
undefined, keeps the low bits.
-/

namespace UwbCore.Rtdoa
open UwbCore.Lib
open UwbCore.Nrng (FloatVal uwbRngTofToMeters)

/-- `UWB_DATA_CODE_TWR_INVALID` -/
def codeTwrInvalid : UInt16 := 0x0100

/-- `sizeof(rtdoa_response_frame_t)` -/
def responseSize : UInt16 := 20

/-- `rtdoa_frame_t` -/
structure RingFrame extends Frame where
  txTimestamp : UInt64
  rxTimestamp : UInt64

/-- The configuration of the tag, with `status.valid` and `fractional_skew` of its clock and what
    `uwb_phy_SHR_duration` gives. -/
structure TagCfg extends Config where
  nframes : Nat
  valid : Bool
  fractionalSkew : ℚ
  shrDuration : UInt16

/-- C `struct rtdoa_instance` of a tag; `reqFrame` is the place of the frame in the ring. -/
structure Tag where
  sem : Nat
  timeout : UInt64
  idx : UInt16
  reqFrame : Option Nat
  frames : Table RingFrame

/-- A frame in the receive buffer of the tag. Of a response, what stands in the buffer behind its slot
    takes the place of the counts of a request. -/
structure TagRx extends Rx where
  txTimestamp : UInt64
  startRxError : Bool

/-- What the tag has its receiver do. -/
inductive DevCall where
  | stopRx
  | setDelayStart (dxTime : UInt64)
  | startRx
  | setRxTimeout (timeout : UInt32)
  | adjRxTimeout (timeout : UInt32)
  deriving DecidableEq

/-- What a callback of the tag leaves behind, what it returns and what it has the receiver do. -/
structure TagEffect where
  tag : Tag
  ret : Bool
  calls : List DevCall

/-! ## Times of the reference -/

/-- The low 40 bits of a time. -/
def lo40 (t : UInt64) : UInt64 := t &&& 0x0FFFFFFFFFF

/-- C `rtdoa_local_to_master64`. -/
def rtdoaLocalToMaster64 (cfg : TagCfg) (dtuTime : UInt64) (req : RingFrame) : UInt64 :=
  let delta := lo40 (lo40 dtuTime - lo40 req.rxTimestamp)
  let reqLo40 := lo40 req.txTimestamp +
    if cfg.valid then UInt64.ofInt (roundAway ((1 - cfg.fractionalSkew) * delta.toNat)) else delta
  (req.txTimestamp &&& 0xFFFFFF0000000000) + reqLo40

/-- A difference of two times as a signed number. -/
def tofOf (rxTs txTimestamp : UInt64) : Int := (rxTs - txTimestamp).toBitVec.toInt

namespace Tag

/-- C `rtdoa_tdoa_between_frames`. The source reads through `req_frame` without a check; a tag that has
    a request has one. -/
def rtdoaTdoaBetweenFrames (cfg : TagCfg) (s : Tag) (req : Option Nat) (resp : Nat) :
    FloatVal × Tag :=
  match req with
  | none => (.nan, s)
  | some req =>
    if (s.frames resp).code = codeResp then
      let invalidated :=
        { s with frames := s.frames.modify resp fun f => { f with code := codeTwrInvalid } }
      if (s.frames resp).txTimestamp < (s.frames req).txTimestamp then (.nan, invalidated)
      else match s.reqFrame with
        | none => (.nan, invalidated)
        | some current =>
          let rxTs := rtdoaLocalToMaster64 cfg (s.frames resp).rxTimestamp (s.frames current)
          (uwbRngTofToMeters (.num (tofOf rxTs (s.frames resp).txTimestamp)), invalidated)
    else (.nan, s)

/-! ## Receiving -/

/-- The place of the next frame in the ring. -/
def slot (cfg : TagCfg) (s : Tag) : Nat := (s.idx + 1).toNat % cfg.nframes

/-- What the callbacks give back when no one has done so. -/
def release (s : Tag) : Tag := { s with sem := if s.sem = 0 then 1 else s.sem }

/-- What is left of the window when a frame was received, in units of the timeout. -/
def newTimeout (s : Tag) (rxtimestamp : UInt64) : Int :=
  max 1 ((s.timeout.toBitVec.toInt - rxtimestamp.toBitVec.toInt) >>> (16 : Nat))

/-- The end of the callback. -/
def adjust (s : Tag) (rx : TagRx) : TagEffect :=
  ⟨s, true, [.adjRxTimeout (UInt32.ofInt (s.newTimeout rx.rxtimestamp))]⟩

/-- The delay of the repetitions. -/
def repeatDly (cfg : TagCfg) (rx : TagRx) : UInt32 :=
  if rx.frame.rptCount ≠ 0 then rx.frame.rptCount.toUInt32 * cfg.txHoldoffDelay else 0

/-- The frame of a request as it is kept: its reception is that of the first request of the round. -/
def requestFrame (cfg : TagCfg) (rx : TagRx) : RingFrame where
  toFrame := rx.frame
  txTimestamp := rx.txTimestamp
  rxTimestamp :=
    if rx.frame.rptCount ≠ 0 then
      UInt64.ofInt (trunc (rx.rxtimestamp.toNat -
        (repeatDly cfg rx <<< 16).toNat * (1 - cfg.fractionalSkew)))
    else rx.rxtimestamp

/-- The time at which the receiver is started again after a request. -/
def restart (cfg : TagCfg) (rx : TagRx) : UInt64 :=
  rx.rxtimestamp - (repeatDly cfg rx).toUInt64 +
    (usecsToResponse rx.frame 0 cfg.toConfig cfg.responseDuration.toUInt32 <<< 16).toUInt64 -
      cfg.shrDuration.toUInt64

/-- The case of a request. -/
def takeRequest (cfg : TagCfg) (s : Tag) (rx : TagRx) : TagEffect :=
  let kept := { s with
    idx := s.idx + 1
    reqFrame := some (s.slot cfg)
    frames := s.frames.modify (s.slot cfg) fun _ => requestFrame cfg rx }
  ⟨if rx.startRxError then { kept with sem := kept.sem + 1 } else kept, true,
    [.stopRx, .setDelayStart (restart cfg rx), .startRx,
      .setRxTimeout (UInt16.ofInt (s.newTimeout rx.rxtimestamp)).toUInt32]⟩

/-- The case of a response. -/
def takeResponse (cfg : TagCfg) (s : Tag) (rx : TagRx) : Tag :=
  { s with
    idx := s.idx + 1
    frames := s.frames.modify (s.slot cfg) fun _ => ⟨rx.frame, rx.txTimestamp, rx.rxtimestamp⟩ }

/-- The frame is one for the tag, while it listens. -/
def Takes (dev : Dev) (s : Tag) (rx : TagRx) : Prop :=
  rx.fctrl = fctrlRange16 ∧ s.sem ≠ 1 ∧
    (rx.frame.dstAddress = dev.myShortAddress ∨ rx.frame.dstAddress = broadcastAddress)

instance decidableTakes (dev : Dev) (s : Tag) (rx : TagRx) : Decidable (s.Takes dev rx) :=
  inferInstanceAs (Decidable (_ ∧ _ ∧ _))

/-- C `rx_complete_cb` of the tag. -/
def rxCompleteCb (cfg : TagCfg) (dev : Dev) (s : Tag) (rx : TagRx) : TagEffect :=
  if ¬s.Takes dev rx then ⟨s, decide (rx.fctrl = fctrlRange16 ∧ s.sem ≠ 1), []⟩
  else if rx.frame.code = codeRequest then
    if rx.frameLen < requestSize then s.adjust rx else s.takeRequest cfg rx
  else if rx.frame.code = codeResp then
    if rx.frameLen < responseSize then s.adjust rx else (s.takeResponse cfg rx).adjust rx
  else ⟨s, false, []⟩

/-- C `rtdoa_listen`, up to the wait for its end. -/
def rtdoaListen (s : Tag) (delay : UInt64) (timeout : UInt16) (startRxError : Bool) : TagEffect :=
  if s.sem = 0 then ⟨s, false, []⟩
  else
    let set := { s with
      sem := s.sem - 1
      timeout := (delay + timeout.toUInt64 <<< 16) &&& 0xFFFFFFFFFF }
    ⟨if startRxError then { set with sem := set.sem + 1 } else set, true,
      [.setDelayStart delay, .setRxTimeout timeout.toUInt32, .startRx]⟩

end Tag

end UwbCore.Rtdoa
