import UwbCore.Lib.Run
import UwbCore.Lib.Table
import UwbCore.Transport.Basic

/-!
# Sending the queue

`uwb_transport_dequeue_tx` as the steps between which the callbacks, `uwb_transport_enqueue_tx` and
other calls may run. A step pends on a semaphore, tests its count, releases it, writes or starts a
transmission, or compares `ack_seq_num`; a pend on a count of 0 waits. Beside the instance runs a
ledger of what was enqueued, transmitted, acknowledged and dequeued, which no step looks at.
-/

namespace UwbCore.Transport
open UwbCore.Lib

variable {D : Type}

/-! ## The call -/

/-- The semaphores of an instance. -/
inductive SemId where
  | sem
  | writeTxLock
  | ackSem
  deriving DecidableEq, Repr

def Instance.count (s : Instance D) : SemId → Nat
  | .sem => s.sem
  | .writeTxLock => s.writeTxLock
  | .ackSem => s.ackSem

def Instance.setCount (s : Instance D) : SemId → Nat → Instance D
  | .sem, n => { s with sem := n }
  | .writeTxLock, n => { s with writeTxLock := n }
  | .ackSem, n => { s with ackSem := n }

/-- The pends of a call: for the transmit buffer, for the overlapping transmission, for `ack_sem`
    before the start, for the acknowledgement, and after the loop. -/
inductive Pend where
  | lock
  | overlap
  | ackFree
  | ack
  | last
  deriving DecidableEq, Repr

/-- The releases of a semaphore whose count is 0: three after a failed start, one after the
    acknowledgement, one at the end. -/
inductive Release where
  | errSem
  | errLock
  | errAck
  | acked
  | last
  deriving DecidableEq, Repr

/-- Where a call is. -/
inductive Pc where
  | loopTop
  | pend (p : Pend)
  | write
  | start
  | check (r : Release)
  | release (r : Release)
  | slipped
  | compare
  | sent
  | loopCond
  deriving DecidableEq, Repr

def Pend.sem : Pend → SemId
  | .lock => .writeTxLock
  | .overlap | .last => .sem
  | .ackFree | .ack => .ackSem

def Release.sem : Release → SemId
  | .errSem | .last => .sem
  | .errLock => .writeTxLock
  | .errAck | .acked => .ackSem

/-- Where a call goes on once it holds the semaphore. -/
def Pend.next (cfg : Config) : Pend → Pc
  | .lock => .write
  | .overlap => if cfg.requestAcks then .pend .ackFree else .start
  | .ackFree => .start
  | .ack => .check .acked
  | .last => .check .last

/-- Where it goes on after a release; at the end it returns. -/
def Release.next : Release → Option Pc
  | .errSem => some (.check .errLock)
  | .errLock => some (.check .errAck)
  | .errAck => some .slipped
  | .acked => some .compare
  | .last => none

/-- The locals of a call; `mp` is the pointer to the packet, `transferred` is
    `membuf_transferred`. -/
structure Call where
  pc : Pc
  argDxTime : UInt64
  dxTimeEnd : UInt64
  dxTime : UInt64
  lastDuration : UInt64
  idx : Nat
  nSent : Nat
  transferred : Bool
  mp : Option Nat
  deriving DecidableEq, Repr

/-- The durations of `uwb_phy` that are used, in the unit of the upper 32 bits of the system time,
    and the two guard times. -/
structure Phy where
  preamble : UInt64
  data : Nat → UInt64
  subslotGuard : UInt64
  periodEndGuard : UInt64

/-- What the device answers: whether a start failed, and the system time. -/
structure Answer where
  startTxError : Bool
  systime : UInt64
  deriving DecidableEq, Repr

def dtu40bMask : UInt64 := 0xffffffffff

/-! ## The world -/

/-- What a packet was enqueued with. -/
structure Enqueued where
  payload : List UInt8
  dst : UInt16
  tspCode : UInt16
  retries : UInt16
  deriving DecidableEq, Repr

/-- A packet taken off the queue: whether as sent, after how many started transmissions, and
    whether one of them had been acknowledged by then. -/
structure Departure where
  id : Nat
  delivered : Bool
  started : Nat
  acked : Bool
  deriving DecidableEq, Repr

structure Ledger where
  /-- packets in the order they were enqueued -/
  enqueued : List Enqueued
  /-- `frame_seq_num` under which a packet was last written -/
  wrote : Table UInt8
  /-- started transmissions of a packet -/
  started : Table Nat
  /-- the packet whose started transmission waits for its acknowledgement -/
  waiting : Option Nat
  /-- packets acknowledged while they waited -/
  acked : Table Bool
  /-- started transmissions in their order, with the delayed start of those that have one -/
  starts : List (Nat × Option UInt64)
  left : List Departure

structure TxWorld (D : Type) where
  node : Instance D
  ledger : Ledger
  /-- the calls in progress -/
  calls : List Call

def Ledger.empty : Ledger := ⟨[], fun _ => 0, fun _ => 0, none, fun _ => false, [], []⟩

def TxWorld.init (dev : D) (uid panId : UInt16) (pool : Pool) : TxWorld D :=
  ⟨.init dev uid panId pool, .empty, []⟩

/-- The end of the wait for an acknowledgement, with the sequence number received if any. -/
def Ledger.answered (l : Ledger) (seq : Option UInt8) : Ledger :=
  match l.waiting with
  | none => l
  | some id =>
    { l with
      waiting := none
      acked := l.acked.modify id fun a => a || seq == some (l.wrote id) }

/-- A transmission of a packet has started. -/
def Ledger.start (l : Ledger) (id : Nat) (delay : Option UInt64) : Ledger :=
  { l with
    started := l.started.modify id (· + 1)
    waiting := some id
    starts := l.starts ++ [(id, delay)] }

/-! ## The steps of a call -/

/-- The packet the call works on: the one it has a pointer to, or the first of the queue. -/
def target (s : Instance D) (c : Call) : Option TxPacket :=
  match c.mp with
  | none => s.txQ.head?
  | some id => s.txQ.find? (·.id == id)

/-- The chain of a queued packet replaced. -/
def setOm (q : List TxPacket) (id : Nat) (om : Mbuf) : List TxPacket :=
  q.map fun p => if p.id = id then { p with om := om } else p

/-- `dpl_mqueue_get` on `tx_q`, and the chain freed. -/
def dequeueHead (w : TxWorld D) (delivered : Bool) : TxWorld D :=
  match w.node.txQ with
  | [] => w
  | p :: rest =>
    { w with
      node := { w.node with txQ := rest, pool := dplMbufFreeChain w.node.pool p.om }
      ledger := { w.ledger with
        left := w.ledger.left ++
          [⟨p.id, delivered, w.ledger.started p.id, w.ledger.acked p.id⟩] } }

/-- The call without a packet, before the loop condition. -/
def Call.done (c : Call) : Call := { c with pc := .loopCond, mp := none, transferred := false }

/-- The transmission does not fit before the end of the window, if there is one. -/
def isLate (phy : Phy) (dxTimeEnd dxTime nextDuration : UInt64) : Bool :=
  let remaining := dxTimeEnd - ((dxTime + nextDuration) &&& dtu40bMask) -
    (phy.periodEndGuard <<< 16)
  dxTimeEnd != 0 && decide (0x7fffffffff < remaining)

/-- The top of the loop: the next packet, and whether it fits in the window. -/
def loopTop (phy : Phy) (w : TxWorld D) (c : Call) : Call :=
  if !w.node.hasInit then { c with pc := .pend .last }
  else match target w.node c with
    | none => { c with pc := .pend .last }
    | some p =>
      let dxTime := (c.dxTime + c.lastDuration) &&& dtu40bMask
      let nextDuration :=
        (phy.preamble + phy.data (p.om.pktlen + headerSize) + phy.subslotGuard) <<< 16
      { c with
        pc := .pend (if isLate phy c.dxTimeEnd dxTime nextDuration then .last else .lock)
        dxTime := dxTime
        lastDuration := nextDuration
        mp := some p.id
        transferred := c.transferred && c.mp.isSome }

/-- The packet written to the transmit buffer, unless it is there from an earlier round. -/
def writePacket (cfg : Config) (hw : TxBuffer D) (w : TxWorld D) (c : Call) : TxWorld D × Call :=
  if c.transferred then (w, { c with pc := .pend .overlap })
  else match (target w.node c).bind fun p =>
      (writeTx cfg hw p.om (c.idx + 1) w.node).map fun node => (p.id, node) with
    | none => (w, c)
    | some (id, node) =>
      ({ w with
          node := node
          ledger := { w.ledger with wrote := w.ledger.wrote.modify id fun _ => node.frameSeqNum } },
        { c with pc := .pend .overlap, idx := c.idx + 1, nSent := 0, transferred := true })

/-- The `dx_time` that `uwb_transport_start_tx` gives to `uwb_set_delay_start`; without it the frame
    is sent at once. -/
def Call.delayStart (c : Call) : Option UInt64 :=
  let dxTime := if c.argDxTime ≠ 0 then c.dxTime else 0
  if dxTime ≠ 0 then some dxTime else none

/-- `uwb_transport_start_tx` and what follows its answer. -/
def startTx (cfg : Config) (ans : Answer) (w : TxWorld D) (c : Call) : TxWorld D × Call :=
  if ans.startTxError then (w, { c with pc := .check .errSem })
  else match target w.node c with
    | none => (w, c)
    | some p =>
      ({ w with ledger := w.ledger.start p.id c.delayStart },
        { c with nSent := c.nSent + 1, pc := if cfg.requestAcks then .pend .ack else .sent })

/-- The packet dropped, or kept with the retries that are left written to its trailer. -/
def retryOrDrop (w : TxWorld D) (c : Call) : TxWorld D × Call :=
  match target w.node c with
  | none => (w, c)
  | some p =>
    match copydata16 p.om (p.om.pktlen - 2) with
    | none => (w, c)
    | some retries =>
      if retries.toNat < c.nSent then (dequeueHead w false, c.done)
      else
        let (om, pool) := dplMbufAdj w.node.pool p.om 2
        match dplMbufExtend pool om (le16 (retries - .ofNat c.nSent)) with
        | none =>
          ({ w with node := { w.node with txQ := setOm w.node.txQ p.id om, pool := pool } },
            { c with pc := .loopCond })
        | some (om, pool) =>
          ({ w with node := { w.node with txQ := setOm w.node.txQ p.id om, pool := pool } },
            { c with pc := .loopCond, nSent := 0 })

/-- A call that has slipped behind the system time is set right. -/
def slipped (phy : Phy) (ans : Answer) (c : Call) : Call :=
  { c with
    pc := .loopCond
    dxTime := if 0x7fffffffff < c.dxTime - ans.systime then ans.systime + phy.preamble <<< 16
      else c.dxTime }

/-- One step of a call; without a call it has returned. -/
def callStep (cfg : Config) (hw : TxBuffer D) (phy : Phy) (ans : Answer) (w : TxWorld D)
    (c : Call) : TxWorld D × Option Call :=
  match c.pc with
  | .loopTop => (w, some (loopTop phy w c))
  | .pend p =>
    if w.node.count p.sem = 0 then (w, some c)
    else ({ w with node := w.node.setCount p.sem (w.node.count p.sem - 1) },
      some { c with pc := p.next cfg })
  | .write => (writePacket cfg hw w c).map id some
  | .start => (startTx cfg ans w c).map id some
  | .check r =>
    if w.node.count r.sem = 0 then (w, some { c with pc := .release r })
    else (w, r.next.map fun pc => { c with pc := pc })
  | .release r =>
    ({ w with node := w.node.setCount r.sem (w.node.count r.sem + 1) },
      r.next.map fun pc => { c with pc := pc })
  | .slipped => (w, some (slipped phy ans c))
  | .compare =>
    if w.node.ackSeqNum ≠ w.node.frameSeqNum.toNat then (retryOrDrop w c).map id some
    else (dequeueHead w true, some c.done)
  | .sent => (dequeueHead w true, some c.done)
  | .loopCond =>
    (w, some { c with
      pc := if w.node.txQ ≠ [] ∧ w.node.hasInit then .loopTop else .pend .last })

/-- A call as it enters the loop. -/
def Call.begin (argDxTime dxTimeEnd : UInt64) : Call where
  pc := .loopTop
  argDxTime := argDxTime
  dxTimeEnd := dxTimeEnd
  dxTime := argDxTime
  lastDuration := 0
  idx := 0
  nSent := 0
  transferred := false
  mp := none

inductive TxEvent where
  | enqueue (dst tspCode retries : UInt16) (om : Mbuf)
  | call (argDxTime dxTimeEnd : UInt64)
  | step (i : Nat) (ans : Answer)
  | rxComplete (rx : RxInfo)
  | rxTimeout
  | reset
  | txBegins
  | txComplete

def txStep (cfg : Config) (hw : TxBuffer D) (phy : Phy) (w : TxWorld D) : TxEvent → TxWorld D
  | .enqueue dst tspCode retries om =>
    match enqueueTx cfg dst tspCode retries ⟨w.ledger.enqueued.length, om⟩ w.node with
    | (.ok, node) =>
      { w with
        node := node
        ledger := { w.ledger with
          enqueued := w.ledger.enqueued ++ [⟨om.flat, dst, tspCode, retries⟩] } }
    | (.einval, node) => { w with node := node }
  | .call argDxTime dxTimeEnd =>
    if w.node.txQ = [] then w
    else { w with calls := w.calls ++ [.begin argDxTime dxTimeEnd] }
  | .step i ans =>
    match w.calls[i]? with
    | none => w
    | some c =>
      match callStep cfg hw phy ans w c with
      | (w', some c') => { w' with calls := w.calls.set i c' }
      | (w', none) => { w' with calls := w.calls.eraseIdx i }
  | .rxComplete rx =>
    { w with
      node := (rxCompleteCb cfg rx w.node).2
      ledger := if rx.fctrl = fctrlFrameTypeAck then w.ledger.answered (some (rx.rxbuf 2))
        else w.ledger }
  | .rxTimeout => { w with node := (rxTimeoutCb w.node).2, ledger := w.ledger.answered none }
  | .reset => { w with node := (resetCb w.node).2, ledger := w.ledger.answered none }
  | .txBegins => { w with node := (txBeginsCb w.node).2 }
  | .txComplete => { w with node := (txCompleteCb w.node).2 }

end UwbCore.Transport
