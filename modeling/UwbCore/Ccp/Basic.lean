import UwbCore.Lib.Ring
import UwbCore.Lib.Table
import UwbCore.Lib.Word

/-!
# Clock calibration: the instance and its callbacks

The clock master sends a blink every period and the other nodes take the epoch of their superframe
from it (lib/uwb_ccp/src/uwb_ccp.c). Time in device units is a 64-bit word, of which the clock of the
device has 40 bits; an interval in a blink has 40 bits, and periods are kept in units of 2^16 (dwt
usec). What the device and the operating system answer is part of the event that is handled.
-/

namespace UwbCore.Ccp
open UwbCore.Lib

/-- `uwb_ccp_blink_frame_t` -/
structure BlinkFrame where
  fctrl : UInt8
  seqNum : UInt8
  euid : UInt64
  shortAddress : UInt16
  transmissionInterval : BitVec 40
  transmissionTimestamp : BitVec 64
  rptCount : BitVec 8
  rptMax : BitVec 8
  epochToRmUs : BitVec 16
  deriving DecidableEq

/-- `uwb_ccp_frame_t` -/
structure Frame where
  blink : BlinkFrame
  receptionTimestamp : BitVec 64
  carrierIntegrator : BitVec 32
  rxttcko : BitVec 32
  deriving DecidableEq

/-- `uwb_ccp_role_t` -/
inductive Role where
  | master | slave | relay
  deriving DecidableEq

/-- `FCNTL_IEEE_BLINK_CCP_64` -/
def fctrlBlinkCcp64 : UInt8 := 0xC5

/-- `sizeof(uwb_ccp_blink_frame_t)` -/
def blinkLen : Nat := 32

/-- `sizeof(frame->array)` -/
def arrayLen : Nat := 48

/-- The build, the configuration and the device of a node, with the conversions of its clocks; `skew`
    is `uwb_ccp_skew_compensation_ui64` and `tofComp` the callback of `uwb_ccp_set_tof_comp_cb`. -/
structure Cfg where
  role : Role
  txHoldoffDly : BitVec 16
  tolerateMissedFrames : Nat
  validThreshold : Nat
  testCascadeRpts : Nat
  maxCascadeRpts : BitVec 8
  osLatency : BitVec 32
  ring : IndexRing
  postprocess : Bool
  euid : UInt64
  myShortAddress : UInt16
  slotId : BitVec 16
  txAntennaDelay : BitVec 16
  rxttckoEnable : Bool
  shrDuration : BitVec 16
  dwtUsecsToUsecs : BitVec 64 → BitVec 32
  usecsToTicks : BitVec 32 → BitVec 32
  skew : BitVec 64 → BitVec 64
  tofComp : Option (UInt16 → BitVec 32)

/-- Dwt usec in ticks of the operating system. -/
def Cfg.ticks (cfg : Cfg) (dwtUsecs : BitVec 64) : BitVec 32 :=
  cfg.usecsToTicks (cfg.dwtUsecsToUsecs dwtUsecs)

/-- `struct uwb_ccp_instance` with the status bits its callbacks use, and the count of `sem`. -/
structure Instance where
  masterEuid : UInt64
  sem : Nat
  valid : Bool
  validCount : BitVec 3
  startTxError : Bool
  startRxError : Bool
  rxError : Bool
  rxTimeoutError : Bool
  masterEpoch : BitVec 64
  localEpoch : BitVec 64
  osEpoch : BitVec 32
  period : BitVec 32
  idx : UInt16
  seqNum : UInt8
  missedFrames : BitVec 8
  blinkFrameDuration : BitVec 16
  frames : Table Frame

/-- A received frame, and what the device and the clocks answer while it is handled. -/
structure Rx where
  fctrl0 : UInt8
  frameLen : Nat
  blink : BlinkFrame
  ldeError : Bool
  rxtimestamp : BitVec 64
  systime0 : BitVec 32
  cputime : BitVec 32
  systime1 : BitVec 32
  carrierIntegrator : BitVec 32
  rxttcko : BitVec 32
  startTxError : Bool

/-- A frame given to the device, and the time it is to be sent at. -/
structure Tx where
  delayStart : BitVec 64
  blink : BlinkFrame
  started : Bool
  deriving DecidableEq

/-- What a callback leaves behind: the instance, the frame given to the device, whether the superframe
    callbacks of the other services were called, whether postprocessing was asked for, and the
    return value. -/
structure Effect where
  ccp : Instance
  tx : Option Tx
  superframe : Bool
  postprocess : Bool
  handled : Bool

variable (cfg : Cfg) (ccp : Instance)

/-- A callback that only returns. -/
def Instance.returns (handled : Bool) : Effect := ⟨ccp, none, false, false, handled⟩

def Instance.release : Instance := { ccp with sem := ccp.sem + 1 }

/-- C `adjust_for_epoch_to_rm`. -/
def Instance.adjustForEpochToRm (epochToRmUs : BitVec 16) : Instance :=
  { ccp with
    masterEpoch := ccp.masterEpoch - epochToRmUs.setWidth 64 <<< 16
    localEpoch := ccp.localEpoch - epochToRmUs.setWidth 64 <<< 16
    osEpoch := ccp.osEpoch - cfg.ticks (epochToRmUs.setWidth 64) }

/-- The time since an event of the device, from two reads of the system time around one of the
    operating system: half of each, in dwt usec. -/
def latency (systime0 systime1 stamp : BitVec 32) : BitVec 32 :=
  ((systime0 - stamp) >>> 1 + (systime1 - stamp) >>> 1) >>> 16

/-! ## Missed blinks -/

/-- C `issue_superframe`. -/
def Instance.issueSuperframe : Effect :=
  if ccp.valid = true ∧ ccp.missedFrames.toNat ≤ cfg.tolerateMissedFrames then
    ⟨{ ccp with
        osEpoch := ccp.osEpoch + cfg.ticks (ccp.period.setWidth 64)
        masterEpoch := ccp.masterEpoch + ccp.period.setWidth 64 <<< 16
        localEpoch := ccp.localEpoch + ccp.period.setWidth 64 <<< 16 }, none, true, false, true⟩
  else ccp.returns true

/-- The count of missed blinks, and the superframe where the build tolerates some. -/
def Instance.miss : Effect :=
  let missed := { ccp with missedFrames := ccp.missedFrames + 1 }
  if 0 < cfg.tolerateMissedFrames then missed.issueSuperframe cfg else missed.returns true

/-- C `error_cb`. -/
def Instance.errorCb : Effect :=
  if ccp.sem = 1 then ccp.returns false
  else if ccp.sem = 0 then
    let e := if cfg.role = .master then ccp.returns true
      else { ccp with rxError := true }.miss cfg
    { e with ccp := e.ccp.release }
  else ccp.returns true

/-- C `rx_timeout_cb`. -/
def Instance.rxTimeoutCb : Effect :=
  if ccp.sem = 1 then ccp.returns false
  else if ccp.sem = 0 then
    let e := { ccp with rxTimeoutError := true }.miss cfg
    { e with ccp := e.ccp.release }
  else ccp.returns true

/-- C `reset_cb`. -/
def Instance.resetCb : Effect :=
  if ccp.sem = 0 then ccp.release.returns true else ccp.returns false

/-! ## A received blink -/

/-- Validity: a blink of another master, or one that goes back in time, starts over. -/
def Instance.checkValid (b : BlinkFrame) : Instance :=
  if b.transmissionTimestamp < ccp.masterEpoch ∨ b.euid ≠ ccp.masterEuid then
    { ccp with masterEuid := b.euid, valid := decide (cfg.validThreshold = 0), validCount := 0 }
  else
    let count := if (ccp.validCount.toNat : Int) < cfg.validThreshold - 1 then ccp.validCount + 1
      else ccp.validCount
    { ccp with
      validCount := count
      valid := ccp.valid || decide ((count.toNat : Int) = cfg.validThreshold - 1) }

/-- The epochs as the blink gives them. -/
def Instance.takeEpochs (rx : Rx) : Instance :=
  let confirmed := { ccp with
    idx := ccp.idx + 1
    seqNum := rx.blink.seqNum
    missedFrames := 0
    osEpoch := rx.cputime - cfg.ticks
      ((latency rx.systime0 rx.systime1 (rx.rxtimestamp.setWidth 32)).setWidth 64)
    rxTimeoutError := false }
  let checked := confirmed.checkValid cfg rx.blink
  { checked with
    masterEpoch := rx.blink.transmissionTimestamp
    localEpoch := rx.rxtimestamp
    period := (rx.blink.transmissionInterval >>> 16).setWidth 32 }.adjustForEpochToRm cfg
      rx.blink.epochToRmUs

/-- The frame in the ring, with what the device measured. -/
def Frame.received (f : Frame) (rx : Rx) : Frame :=
  { f with
    blink := rx.blink
    receptionTimestamp := rx.rxtimestamp
    carrierIntegrator := rx.carrierIntegrator
    rxttcko := if cfg.rxttckoEnable then rx.rxttcko else 0 }

/-- The compensation for the time of flight, where a callback for it is set. -/
def compensateTof : Instance × Frame → Instance × Frame
  | (ccp, f) => match cfg.tofComp with
    | none => (ccp, f)
    | some tof =>
      let tofComp := (cfg.skew ((tof f.blink.shortAddress).setWidth 64)).setWidth 32
      let localEpoch := ccp.localEpoch - tofComp.setWidth 64
      ({ ccp with localEpoch := localEpoch }, { f with receptionTimestamp := localEpoch })

/-- The interval of the master, from an interval that relays have shortened. -/
def masterInterval (transmissionInterval : BitVec 40) : BitVec 64 :=
  (transmissionInterval.setWidth 64 / 0x100000000 + 1) * 0x100000000

/-- The compensation for the delay of the relays, where the blink has passed any. -/
def compensateRelays : Instance × Frame → Instance × Frame
  | (ccp, f) =>
    if f.blink.rptCount ≠ 0 then
      let interval := masterInterval f.blink.transmissionInterval
      let repeatDly := interval - f.blink.transmissionInterval.setWidth 64
      let repeatLocal := cfg.skew repeatDly
      let localEpoch := (ccp.localEpoch - repeatLocal) &&& 0x0FFFFFFFFFF
      ({ ccp with
          period := (interval >>> 16).setWidth 32
          masterEpoch := ccp.masterEpoch - repeatDly
          localEpoch := localEpoch
          osEpoch := ccp.osEpoch - cfg.ticks (repeatLocal >>> 16) },
        { f with receptionTimestamp := localEpoch, carrierIntegrator := 0, rxttcko := 0 })
    else (ccp, f)

/-- The time a relay sends at: the hold-off of its level and a shift by its slot after the reception
    it calculates with, cut to the grain of the device. -/
def relayStart (blinkFrameDuration : BitVec 16) (rptCount : BitVec 8)
    (receptionTimestamp : BitVec 64) : BitVec 64 :=
  (receptionTimestamp + rptCount.setWidth 64 * cfg.txHoldoffDly.setWidth 64 <<< 16 +
    (cfg.slotId % 4).setWidth 64 * (blinkFrameDuration.setWidth 64 <<< 16)) &&& 0x0FFFFFFFE00

/-- The cascade relay of a blink. -/
def Instance.relay (f : Frame) (started : Bool) : Tx :=
  let rptCount := f.blink.rptCount + 1
  let delayStart := relayStart cfg ccp.blinkFrameDuration rptCount f.receptionTimestamp
  let txDelay := cfg.skew
    (delayStart + cfg.txAntennaDelay.setWidth 64 - f.receptionTimestamp)
  ⟨delayStart,
    { f.blink with
      shortAddress := cfg.myShortAddress
      rptCount := rptCount
      transmissionTimestamp := f.blink.transmissionTimestamp + txDelay
      transmissionInterval := (f.blink.transmissionInterval.setWidth 64 - txDelay).setWidth 40 },
    started⟩

/-- What a good blink does. -/
def Instance.takeBlink (rx : Rx) : Effect :=
  let slot := cfg.ring.next ccp.idx
  let (synced, f) := compensateRelays cfg (compensateTof cfg
    (ccp.takeEpochs cfg rx, (ccp.frames slot).received cfg rx))
  let tx := if cfg.role = .relay ∧ synced.valid = true ∧ f.blink.rptCount < f.blink.rptMax then
      some (synced.relay cfg f (!rx.startTxError))
    else none
  let done := { synced with
    frames := synced.frames.modify slot fun _ => f
    startTxError := if tx.isSome then rx.startTxError else synced.startTxError }
  ⟨done.release, tx, true, cfg.postprocess && done.valid, false⟩

/-- C `rx_complete_cb`. -/
def Instance.rxCompleteCb (rx : Rx) : Effect :=
  if cfg.role = .master then ccp.returns true
  else if rx.fctrl0 ≠ fctrlBlinkCcp64 then ccp.returns (decide (ccp.sem = 0))
  else if ccp.sem ≠ 0 then ccp.returns false
  else if ¬(blinkLen ≤ rx.frameLen ∧ rx.frameLen ≤ arrayLen) then ccp.returns true
  else if rx.ldeError = true ∨ rx.blink.rptCount.toNat < cfg.testCascadeRpts then
    { ccp with
      frames := ccp.frames.modify (cfg.ring.next ccp.idx) fun f =>
        { f with blink := rx.blink } }.returns true
  else ccp.takeBlink cfg rx

/-! ## The calls that take the semaphore -/

/-- C `uwb_ccp_start`. -/
def Instance.start (systime : BitVec 64) (cputime : BitVec 32) : Instance :=
  let ts := ((systime - ccp.period.setWidth 64 <<< 16) &&& 0xFFFFFFFFFF) +
    (cfg.txHoldoffDly.setWidth 64 + 2 * cfg.osLatency.setWidth 64) <<< 16
  -- only `lo` and `hi` of a time stamp are written, bit 63 stays
  let epoch := if cfg.role = .master then ts &&& 0xFFFFFFFFFF else ts
  { ccp with
    idx := 0
    valid := false
    masterEuid := 0
    osEpoch := cputime - cfg.shrDuration.setWidth 32
    localEpoch := (epoch - cfg.shrDuration.setWidth 64) &&& 0xFFFFFFFFFF
    frames := ccp.frames.modify (cfg.ring.cur 0) fun f =>
      if cfg.role = .master then
        { f with blink.transmissionTimestamp :=
            (f.blink.transmissionTimestamp &&& 0x8000000000000000) ||| epoch }
      else { f with receptionTimestamp := epoch } }

/-- C `ccp_listen`, up to the wait for its completion; a call that does not get the semaphore waits. -/
def Instance.listen (startRxError : Bool) : Instance :=
  if ccp.sem = 0 then ccp
  else
    let taken := { ccp with
      sem := ccp.sem - 1, rxTimeoutError := false, startRxError := startRxError }
    if startRxError then taken.release else taken

/-- The end of the wait in `ccp_listen`, with the semaphore or after a timeout. -/
def Instance.listenEnd : Instance := if ccp.sem = 0 then ccp.release else ccp

/-- The blink that `ccp_send` builds. -/
def Instance.nextBlink (delayStart : BitVec 64) : BlinkFrame :=
  { (ccp.frames (cfg.ring.next ccp.idx)).blink with
    rptCount := 0
    rptMax := cfg.maxCascadeRpts
    epochToRmUs := cfg.shrDuration
    transmissionTimestamp := delayStart + cfg.txAntennaDelay.setWidth 64
    seqNum := ccp.seqNum + 1
    euid := cfg.euid
    shortAddress := cfg.myShortAddress
    transmissionInterval := (ccp.period.setWidth 64 <<< 16).setWidth 40 }

/-- The time `ccp_send` sends at: one period after the previous frame, without the low 9 bits. -/
def Instance.sendStart : BitVec 64 :=
  ((ccp.frames (cfg.ring.cur ccp.idx)).blink.transmissionTimestamp +
    ccp.period.setWidth 64 <<< 16) &&& 0xFFFFFFFFFFFFFE00

/-- What `ccp_send` does when the transmission could not be started. -/
def Instance.sendFailed (timestamp systime : BitVec 64) : Instance :=
  let lateUs := ((systime - timestamp) &&& 0xFFFFFFFFFF) >>> 16
  { ccp with
    frames := ccp.frames.modify (cfg.ring.cur ccp.idx) fun f =>
      { f with blink.transmissionTimestamp := timestamp + ccp.period.setWidth 64 <<< 16 }
    idx := ccp.idx + 1
    osEpoch := ccp.osEpoch + cfg.ticks (ccp.period.setWidth 64 - lateUs) -
      cfg.usecsToTicks cfg.osLatency
    masterEpoch := ccp.masterEpoch + ccp.period.setWidth 64 <<< 16
    localEpoch := ccp.localEpoch + ccp.period.setWidth 64 <<< 16 }

/-- C `ccp_send`, up to the wait for its completion. -/
def Instance.send (startTxError : Bool) (systime : BitVec 64) : Effect :=
  if ccp.sem = 0 then ccp.returns false
  else
    let delayStart := ccp.sendStart cfg
    let blink := ccp.nextBlink cfg delayStart
    let built := { ccp with
      sem := ccp.sem - 1
      seqNum := ccp.seqNum + 1
      startTxError := startTxError
      frames := ccp.frames.modify (cfg.ring.next ccp.idx) fun f => { f with blink := blink } }
    let tx := some ⟨delayStart, blink, !startTxError⟩
    if startTxError then
      ⟨(built.sendFailed cfg blink.transmissionTimestamp systime).release, tx,
        decide (0 < cfg.tolerateMissedFrames), false, false⟩
    else ⟨built, tx, false, false, false⟩

/-- C `tx_complete_cb`. -/
def Instance.txCompleteCb (systime0 cputime systime1 : BitVec 32) : Effect :=
  if ccp.sem = 1 ∨ cfg.role ≠ .master then ccp.returns false
  else
    let b := (ccp.frames (cfg.ring.cur (ccp.idx + 1))).blink
    let synced := { ccp with
      idx := ccp.idx + 1
      osEpoch := cputime - cfg.ticks
        ((latency systime0 systime1 (b.transmissionTimestamp.setWidth 32)).setWidth 64)
      localEpoch := b.transmissionTimestamp &&& 0xFFFFFFFFFF
      masterEpoch := b.transmissionTimestamp
      period := (b.transmissionInterval >>> 16).setWidth 32 }.adjustForEpochToRm cfg b.epochToRmUs
    let done := { synced with valid := synced.valid || decide (1 < synced.idx) }
    ⟨if done.sem = 0 then done.release else done, none, true, cfg.postprocess && done.valid, false⟩

/-! ## A node before its start -/

/-- The frame that `uwb_ccp_init` copies to every slot. -/
def Frame.dflt : Frame :=
  ⟨⟨fctrlBlinkCcp64, 0, 0, 0, 0, 0, 0, cfg.maxCascadeRpts, 0⟩, 0, 0, 0⟩

/-- C `uwb_ccp_init`, with the period of the build. -/
def Instance.init (period : BitVec 32) : Instance where
  masterEuid := 0
  sem := 1
  valid := false
  validCount := 0
  startTxError := false
  startRxError := false
  rxError := false
  rxTimeoutError := false
  masterEpoch := 0
  localEpoch := 0
  osEpoch := 0
  period := period
  idx := 0
  seqNum := 0
  missedFrames := 0
  blinkFrameDuration := 0
  frames := fun _ => Frame.dflt cfg

/-- The values of syscfg.yml, on a device in slot `slotId` with clocks that need no conversion. -/
def Cfg.dflt (role : Role) (slotId : BitVec 16) : Cfg where
  role := role
  txHoldoffDly := 0x380
  tolerateMissedFrames := 0
  validThreshold := 2
  testCascadeRpts := 0
  maxCascadeRpts := 4
  osLatency := 800
  ring := .two
  postprocess := false
  euid := 0x11
  myShortAddress := 0x2222
  slotId := slotId
  txAntennaDelay := 0x4034
  rxttckoEnable := false
  shrDuration := 64
  dwtUsecsToUsecs := BitVec.setWidth 32
  usecsToTicks := id
  skew := id
  tofComp := none

end UwbCore.Ccp
