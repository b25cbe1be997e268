import UwbCore.Rng.Basic

/-!
# Ranging: the calls and callbacks

`uwb_rng_request`, `uwb_rng_listen` and the callbacks of `uwb_rng.c`, and the receive handlers of
the five packages that share them: `twr_ss`, `twr_ss_ext`, `twr_ss_ack`, `twr_ds` and `twr_ds_ext`.
The handlers of the single-sided packages, and those of the double-sided ones, differ in their
codes, lengths and checks only. A callback that returns `false` leaves the event to the next
package. Time stamps are those of the local clock (`UWB_WCS_ENABLED` is 0).
-/

namespace UwbCore.Rng
open UwbCore.Lib

variable {S : Type}

/-! ## Single-sided stages -/

/-- The responder answers a request. -/
def ssRequest (t1 : Code) (len : Nat) (cfg : Cfg) (rx : Rx S) (tx : Tx S) (n : Node S) :
    Effect S :=
  let frame := { n.frame cfg with
    reception := rx.timestamp
    transmission := tx.planned
    carrierIntegrator := -rx.carrierIntegrator }.answer cfg t1
  (n.setFrame (cfg.ring.cur n.idx) frame).send ⟨len, frame⟩ tx

/-- The initiator adds its own time stamps and reports them. -/
def ssT1 (final : Code) (len : Nat) (cfg : Cfg) (rx : Rx S) (tx : Tx S) (n : Node S) : Effect S :=
  if rx.msg.len ≠ len ∨ rx.ldeError then n.quiet
  else
    let frame := { n.frame cfg with
      request := n.txtime
      response := rx.timestamp
      carrierIntegrator := rx.carrierIntegrator }.answer cfg final
    (n.setFrame (cfg.ring.cur n.idx) frame).sendLast ⟨finalLen, frame⟩ tx

/-- The responder has the report. -/
def ssFinal (rx : Rx S) (n : Node S) : Effect S :=
  if rx.msg.len ≠ finalLen then n.quiet else n.complete

/-! ## Double-sided stages -/

/-- The responder answers a request. -/
def dsRequest (t1 : Code) (ok : Bool) (cfg : Cfg) (rx : Rx S) (tx : Tx S) (n : Node S) :
    Effect S :=
  if ok then
    let frame := { n.frame cfg with
      reception := rx.timestamp
      transmission := tx.planned
      carrierIntegrator := -rx.carrierIntegrator }.answer cfg t1
    (n.setFrame (cfg.ring.cur n.idx) frame).send ⟨responseLen, frame⟩ tx
  else n.quiet

/-- The second message of the initiator, built in the frame after the one that was received. -/
def t2Frame (t2 : Code) (cfg : Cfg) (rx : Rx S) (n : Node S) : TwrFrame S :=
  { n.frames (cfg.ring.next n.idx) with
    request := n.txtime
    response := rx.timestamp
    dstAddress := (n.frame cfg).srcAddress
    srcAddress := cfg.myShortAddress
    seqNum := (n.frame cfg).seqNum + 1
    code := t2 }

/-- The initiator closes the first round and opens the second. -/
def dsT1 (t2 : Code) (len : Nat) (ok : Bool) (cfg : Cfg) (rx : Rx S) (tx : Tx S) (n : Node S) :
    Effect S :=
  if ok then
    let frame := { n.frame cfg with
      request := n.txtime
      response := rx.timestamp
      carrierIntegrator := rx.carrierIntegrator }
    let nextFrame := t2Frame t2 cfg rx n
    let n := (n.setFrame (cfg.ring.cur n.idx) frame).setFrame (cfg.ring.next n.idx) nextFrame
    if rx.ldeError then n.quiet
    else
      let nextFrame := { nextFrame with reception := rx.timestamp, transmission := tx.planned }
      (n.setFrame (cfg.ring.next n.idx) nextFrame).send ⟨len, nextFrame⟩ tx
  else n.quiet

/-- The responder takes the first round over into the frame before, and reports the second. -/
def dsT2 (final : Code) (len : Nat) (ok : Bool) (cfg : Cfg) (rx : Rx S) (tx : Tx S) (n : Node S) :
    Effect S :=
  if ok then
    let previousFrame := { n.frames (cfg.ring.prev n.idx) with
      request := (n.frame cfg).request
      response := (n.frame cfg).response }
    let frame := { n.frame cfg with
      request := n.txtime
      response := rx.timestamp
      carrierIntegrator := -rx.carrierIntegrator }.answer cfg final
    ((n.setFrame (cfg.ring.prev n.idx) previousFrame).setFrame (cfg.ring.cur n.idx) frame).sendLast
      ⟨len, frame⟩ tx
  else n.quiet

/-! ## The packages -/

/-- What a handler does and whether it takes the event. -/
abbrev Handler (S : Type) := Node S → Effect S × Bool

/-- The checks in front of a handler: a ranging frame, and the semaphore taken. -/
def whenSolicited (rx : Rx S) (n : Node S) (r : Effect S × Bool) : Effect S × Bool :=
  if rx.fctrl ≠ fctrlRange16 then (n.quiet, false)
  else if n.sem = 1 then (n.quiet, false)
  else r

/-- `rx_complete_cb` of twr_ss.c -/
def TwrSs.rxComplete (cfg : Cfg) (rx : Rx S) (tx : Tx S) : Handler S := fun n =>
  whenSolicited rx n <| match n.code with
    | .ssTwr => (ssRequest .ssTwrT1 responseLen cfg rx tx n, true)
    | .ssTwrT1 => (ssT1 .ssTwrFinal responseLen cfg rx tx n, true)
    | .ssTwrFinal => (ssFinal rx n, true)
    | _ => (n.quiet, false)

/-- `rx_complete_cb` of twr_ss_ext.c -/
def TwrSsExt.rxComplete (cfg : Cfg) (rx : Rx S) (tx : Tx S) : Handler S := fun n =>
  whenSolicited rx n <| match n.code with
    | .ssTwrExt => (ssRequest .ssTwrExtT1 twrExtFrameSize cfg rx tx n, true)
    | .ssTwrExtT1 => (ssT1 .ssTwrExtFinal twrExtFrameSize cfg rx tx n, true)
    | .ssTwrExtFinal => (ssFinal rx n, true)
    | _ => (n.quiet, false)

/-- `rx_complete_cb` of twr_ds.c -/
def TwrDs.rxComplete (cfg : Cfg) (rx : Rx S) (tx : Tx S) : Handler S := fun n =>
  whenSolicited rx n <| match n.code with
    | .dsTwr => (dsRequest .dsTwrT1 (rx.msg.len = requestLen) cfg rx tx n, true)
    | .dsTwrT1 =>
      (dsT1 .dsTwrT2 finalLen (!rx.ldeError && rx.msg.len = responseLen) cfg rx tx n, true)
    | .dsTwrT2 =>
      (dsT2 .dsTwrFinal finalLen (!rx.ldeError && rx.msg.len = finalLen) cfg rx tx n, true)
    | .dsTwrFinal => (n.complete, true)
    | _ => (n.quiet, false)

/-- `rx_complete_cb` of twr_ds_ext.c, which checks one length only -/
def TwrDsExt.rxComplete (cfg : Cfg) (rx : Rx S) (tx : Tx S) : Handler S := fun n =>
  whenSolicited rx n <| match n.code with
    | .dsTwrExt => (dsRequest .dsTwrExtT1 true cfg rx tx n, true)
    | .dsTwrExtT1 =>
      (dsT1 .dsTwrExtT2 twrExtFrameSize (rx.msg.len = responseLen) cfg rx tx n, true)
    | .dsTwrExtT2 => (dsT2 .dsTwrExtFinal twrExtFrameSize true cfg rx tx n, true)
    | .dsTwrExtFinal => (n.complete, true)
    | _ => (n.quiet, false)

/-- No ACK is expected, sent or received. -/
def Node.clearAcks (n : Node S) : Node S :=
  { n with rxAckExpected := false, txAckExpected := false }

/-- The responder prepares its answer, which is sent when the hardware ACK has gone out. -/
def TwrSsAck.onRequest (cfg : Cfg) (rx : Rx S) (n : Node S) : Effect S :=
  if !rx.autoackTriggered then n.release.quiet
  else
    let frame := { n.frame cfg with
      fctrl := fctrlRange16
      reception := rx.timestamp
      carrierIntegrator := -rx.carrierIntegrator }.answer cfg .ssTwrAckT1
    { n.setFrame (cfg.ring.cur n.idx) frame with txAckExpected := true }.quiet

/-- The initiator reports, with the time of the ACK as the time of the response. -/
def TwrSsAck.onT1 [Stamp S] (cfg : Cfg) (rx : Rx S) (tx : Tx S) (n : Node S) : Effect S :=
  if rx.msg.len ≠ responseLen ∨ rx.ldeError then n.quiet
  else
    let frame := { n.frame cfg with request := n.txtime, response := n.ackRxTimestamp.low }
    if n.ackRxTimestamp.isZero then (n.setFrame (cfg.ring.cur n.idx) frame).quiet
    else
      let frame := { frame with carrierIntegrator := rx.carrierIntegrator }.answer cfg .ssTwrAckFinal
      (n.setFrame (cfg.ring.cur n.idx) frame).sendLast ⟨finalLen, frame⟩ tx

/-- The stages of twr_ss_ack.c for a data frame. -/
def TwrSsAck.onFrame [Stamp S] (cfg : Cfg) (rx : Rx S) (tx : Tx S) : Handler S := fun n =>
  match n.code with
  | .ssTwrAck => (TwrSsAck.onRequest cfg rx n, true)
  | .ssTwrAckT1 => (TwrSsAck.onT1 cfg rx tx n, true)
  | .ssTwrAckFinal => (ssFinal rx n, true)
  | _ => (n.quiet, false)

/-- `rx_complete_cb` of twr_ss_ack.c -/
def TwrSsAck.rxComplete [Stamp S] (cfg : Cfg) (rx : Rx S) (tx : Tx S) : Handler S := fun n =>
  if ¬rx.Ranging then (n.quiet, false)
  else if n.sem = 1 then (n.quiet, false)
  else if rx.fctrl = fctrlFrameTypeAck ∧ !n.rxAckExpected then (n.quiet, false)
  else
    let n := n.clearAcks
    if rx.fctrl = fctrlFrameTypeAck then
      if rx.msg.frame.seqNum ≠ n.seqNum.toUInt8 then (n.release.quiet, false)
      else ({ n with ackRxTimestamp := rx.rxtimestamp }.quiet, true)
    else TwrSsAck.onFrame cfg rx tx n

/-- `tx_complete_cb` of twr_ss_ack.c -/
def TwrSsAck.txComplete (cfg : Cfg) (tx : Tx S) : Handler S := fun n =>
  if n.sem = 1 then (n.quiet, false)
  else if !n.txAckExpected then (n.quiet, false)
  else
    let n := { n with txAckExpected := false }
    if n.code = .ssTwrAck then
      let frame := { n.frame cfg with transmission := n.txtime }
      ((n.setFrame (cfg.ring.cur n.idx) frame).send ⟨responseLen, frame⟩ tx, true)
    else (n.quiet, true)

def Package.rxComplete [Stamp S] (cfg : Cfg) (rx : Rx S) (tx : Tx S) : Package → Handler S
  | .twrSs => TwrSs.rxComplete cfg rx tx
  | .twrSsAck => TwrSsAck.rxComplete cfg rx tx
  | .twrSsExt => TwrSsExt.rxComplete cfg rx tx
  | .twrDs => TwrDs.rxComplete cfg rx tx
  | .twrDsExt => TwrDsExt.rxComplete cfg rx tx

def Package.txComplete (cfg : Cfg) (tx : Tx S) : Package → Handler S
  | .twrSsAck => TwrSsAck.txComplete cfg tx
  | _ => fun n => (n.quiet, false)

/-- The interfaces are called one after another until one takes the event. -/
def firstOf : List (Handler S) → Node S → Effect S
  | [], n => n.quiet
  | h :: hs, n => if (h n).2 then (h n).1 else firstOf hs (h n).1.node

/-! ## The shared service -/

/-- `rx_complete_cb` of uwb_rng.c: the node, and whether the event ends here. -/
def UwbRng.rxComplete [Stamp S] (cfg : Cfg) (rx : Rx S) (n : Node S) : Node S × Bool :=
  if ¬rx.Ranging then (n.releaseIfZero, false)
  else if n.sem = 1 then (n, false)
  else if rx.msg.len < requestLen then (n, false)
  else
    let n := { n with code := rx.msg.frame.code }
    if !n.code.isTwr then (n, false)
    else if cfg.frameSize < rx.msg.len then (n, false)
    else
      let frame := (n.frames (cfg.ring.next n.idx)).receive rx.msg
      let n := n.setFrame (cfg.ring.next n.idx) frame
      if !cfg.frameFilter ∧ frame.dstAddress ≠ cfg.myShortAddress then (n.releaseIfZero, true)
      else ({ n with idx := n.idx + 1 }, false)

/-- `tx_complete_cb` of uwb_rng.c -/
def UwbRng.txComplete : Handler S := fun n =>
  if n.fctrl ≠ fctrlRange16 then (n.quiet, false)
  else if n.sem = 1 then (n.quiet, false)
  else if n.code.isTwr then
    let e := if n.completeAfterTx then n.complete else n.quiet
    ({ e with node := { e.node with completeAfterTx := false } }, true)
  else (n.quiet, false)

/-- A received frame: the shared service first, then the packages. -/
def Node.rxComplete [Stamp S] (cfg : Cfg) (rx : Rx S) (tx : Tx S) (n : Node S) : Effect S :=
  let r := UwbRng.rxComplete cfg rx { n with fctrl := rx.fctrl }
  if r.2 then r.1.quiet
  else firstOf (cfg.packages.map (Package.rxComplete cfg rx tx)) r.1

/-- A completed transmission. -/
def Node.txComplete (cfg : Cfg) (tx : Tx S) (n : Node S) : Effect S :=
  firstOf (UwbRng.txComplete :: cfg.packages.map (Package.txComplete cfg tx)) n

/-- `rx_timeout_cb` -/
def Node.rxTimeout (n : Node S) : Node S := n.releaseIfZero

/-- `reset_cb` and `superframe_reset_cb` -/
def Node.reset (n : Node S) : Node S :=
  if n.sem = 0 then n.release.clearAcks else n

/-- The header of a request, written into the frame that was next when the call was made. -/
def requestFrame (cfg : Cfg) (code : Code) (dst : UInt16) (seqNum : UInt16) (f : TwrFrame S) :
    TwrFrame S :=
  { f with
    fctrl := if cfg.reqAck code then fctrlRange16 ||| fctrlAckRequested else fctrlRange16
    seqNum := seqNum.toUInt8
    code := code
    panId := cfg.panId
    srcAddress := cfg.myShortAddress
    dstAddress := dst }

/-- `uwb_rng_request` from the first pend on, with the frame `slot` that it looked up before. While
    the semaphore is taken the call waits. -/
def Node.request (cfg : Cfg) (slot : Nat) (dst : UInt16) (code : Code) (tx : Tx S) (n : Node S) :
    Effect S :=
  if n.sem = 0 then n.quiet
  else
    let seqNum := n.seqNum + if code.oneSeq then 1 else 2
    let frame := requestFrame cfg code dst seqNum (n.frames slot)
    { n.setFrame slot frame with
      sem := n.sem - 1
      seqNum := seqNum
      rxAckExpected := cfg.reqAck code || n.rxAckExpected }.send ⟨requestLen, frame⟩ tx

/-- `uwb_rng_listen` up to the start of the receiver. -/
def Node.listen (startRxError : Bool) (n : Node S) : Node S :=
  if n.sem = 0 then n
  else if startRxError then n else { n with sem := n.sem - 1 }

/-- A blocking call has seen its exchange end: the second pend. -/
def Node.pend (n : Node S) : Node S := { n with sem := n.sem - 1 }

end UwbCore.Rng
