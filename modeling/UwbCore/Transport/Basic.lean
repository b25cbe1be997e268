import UwbCore.Lib.Bytes
import UwbCore.Transport.Mbuf

/-!
# The transport layer

The frame header, the state of a transport instance and the functions of `uwb_transport.c` that
work on it: `uwb_transport_enqueue_tx`, `uwb_transport_write_tx` and the callbacks of the MAC
interface. The transmit buffer of the device is a parameter (`TxBuffer`): all that is relied on is
that a write is read back and leaves the other bytes alone.
-/

namespace UwbCore.Transport
open UwbCore.Lib

/-! ## The header -/

/-- C `uwb_transport_frame_header_t`. -/
structure FrameHeader where
  fctrl : UInt16
  seqNum : UInt8
  panId : UInt16
  dstAddress : UInt16
  srcAddress : UInt16
  code : UInt16
  tspCode : UInt16
  deriving DecidableEq, Repr

/-- `sizeof(uwb_transport_frame_header_t)`. -/
def headerSize : Nat := 13

/-- `UWB_FCTRL_STD_DATA_FRAME`. -/
def transportFctrl : UInt16 := 0x8841
def fctrlAckRequested : UInt16 := 0x0020
def fctrlFrameTypeAck : UInt16 := 0x0002
def trnsprtRequest : UInt16 := 0x0411
def trnsprtEnd : UInt16 := 0x041f
def broadcastAddress : UInt16 := 0xffff

/-- The packed header as written to the transmit buffer. -/
def FrameHeader.bytes (h : FrameHeader) : List UInt8 :=
  le16 h.fctrl ++ [h.seqNum] ++ le16 h.panId ++ le16 h.dstAddress ++ le16 h.srcAddress ++
    le16 h.code ++ le16 h.tspCode

/-- The header as read through the frame pointer. -/
def readHeader (mem : Nat → UInt8) : FrameHeader where
  fctrl := read16 mem 0
  seqNum := mem 2
  panId := read16 mem 3
  dstAddress := read16 mem 5
  srcAddress := read16 mem 7
  code := read16 mem 9
  tspCode := read16 mem 11

@[simp] lemma FrameHeader.bytes_length (h : FrameHeader) : h.bytes.length = headerSize := rfl

/-- A header read back is the one that was written. -/
theorem readHeader_bytes {mem : Nat → UInt8} {h : FrameHeader} (hm : Holds mem 0 h.bytes) :
    readHeader mem = h := by
  simp only [FrameHeader.bytes, holds_append, le16_length, List.length_append, List.length_cons,
    List.length_nil, Nat.zero_add] at hm
  obtain ⟨⟨⟨⟨⟨⟨hfctrl, hseq⟩, hpan⟩, hdst⟩, hsrc⟩, hcode⟩, htsp⟩ := hm
  rw [holds_cons] at hseq
  rw [readHeader, read16_holds hfctrl, hseq.1, read16_holds hpan, read16_holds hdst,
    read16_holds hsrc, read16_holds hcode, read16_holds htsp]

/-! ## The instance -/

/-- The settings that the functions below read; `dupTicks` is 10 ms in ticks of `cputime`. -/
structure Config where
  requestAcks : Bool
  phrModeStd : Bool
  dupTicks : UInt32
  deriving DecidableEq, Repr

/-- A packet on `tx_q`; `id` stands for the pointer to its chain. -/
structure TxPacket where
  id : Nat
  om : Mbuf
  deriving DecidableEq, Repr

/-- A packet on `rx_q` with its user header. -/
structure RxPacket where
  tspCode : UInt16
  uid : UInt16
  om : Mbuf
  deriving DecidableEq, Repr

/-- What `uwb_dev` reports of the latest frame received, and the time of its reception. -/
structure RxInfo where
  fctrl : UInt16
  frameLen : UInt16
  rxbuf : Nat → UInt8
  autoackTriggered : Bool
  cputime : UInt32

/-- The transmit buffer of the device and `uwb_write_tx`. -/
structure TxBuffer (D : Type) where
  write : D → List UInt8 → Nat → D
  read : D → Nat → UInt8
  /-- a write is read back and leaves the other bytes alone -/
  read_write : ∀ d bytes off i, read (write d bytes off) i =
    if i < off then read d i else bytes[i - off]?.getD (read d i)

/-- C `struct _uwb_transport_instance` and the part of `uwb_dev` that it uses. -/
structure Instance (D : Type) where
  dev : D
  uid : UInt16
  panId : UInt16
  hasInit : Bool
  awaitingAckTx : Bool
  frameSeqNum : UInt8
  ackSeqNum : Int
  lastFrameTime : UInt32
  lastFrame : FrameHeader
  txBufferLen : Nat
  txBufferOffset : Nat
  sem : Nat
  writeTxLock : Nat
  ackSem : Nat
  txQ : List TxPacket
  rxQ : List RxPacket
  pool : Pool

/-- C `uwb_transport_init`. -/
def Instance.init {D : Type} (dev : D) (uid panId : UInt16) (pool : Pool) : Instance D where
  dev := dev
  uid := uid
  panId := panId
  hasInit := true
  awaitingAckTx := false
  frameSeqNum := 0
  ackSeqNum := 0
  lastFrameTime := 0
  lastFrame := ⟨0, 0, 0, 0, 0, 0, 0⟩
  txBufferLen := 0
  txBufferOffset := 0
  sem := 1
  writeTxLock := 1
  ackSem := 1
  txQ := []
  rxQ := []
  pool := pool

variable {D : Type}

/-! ## Sending -/

/-- `UWB_TRANSPORT_MTU_STD` and `UWB_TRANSPORT_MTU_EXT`. -/
def Config.mtu (cfg : Config) : Nat :=
  if cfg.phrModeStd then 128 - headerSize - 2 else 512 - headerSize - 2

/-- The bytes that `uwb_transport_enqueue_tx` appends to a packet. -/
def trailer (dst tspCode retries : UInt16) : List UInt8 := le16 dst ++ le16 tspCode ++ le16 retries

/-- The size of the trailer. -/
def trailerSize : Nat := 6

@[simp] lemma trailer_length (dst tspCode retries : UInt16) :
    (trailer dst tspCode retries).length = trailerSize := rfl

/-- What `uwb_transport_enqueue_tx` returns. -/
inductive DplError where
  | ok
  | einval
  deriving DecidableEq, Repr

/-- C `uwb_transport_enqueue_tx`. -/
def enqueueTx (cfg : Config) (dst tspCode retries : UInt16) (p : TxPacket) (s : Instance D) :
    DplError × Instance D :=
  if cfg.mtu < p.om.pktlen then (.einval, s)
  else match dplMbufExtend s.pool p.om (trailer dst tspCode retries) with
    | none => (.einval, { s with pool := dplMbufFreeChain s.pool p.om })
    | some (om, pool) => (.ok, { s with pool := pool, txQ := s.txQ ++ [{ p with om := om }] })

/-- The half of the transmit buffer that an index selects. -/
def txBufferHalf (idx : Nat) : Nat := if idx % 2 = 0 then 0 else 512

/-- The loop of `uwb_transport_write_tx`, `n` rounds of it from payload offset `off` on. The return
    code of `dpl_mbuf_copydata` is not looked at. -/
def writeChunks (hw : TxBuffer D) (om : Mbuf) (txLen base : Nat) : Nat → Nat → D → D
  | 0, _, d => d
  | n + 1, off, d =>
    if off < txLen then
      let len := min (txLen - off) 128
      writeChunks hw om txLen base n (off + len)
        (hw.write d ((dplMbufCopydata om off len).getD []) (base + off))
    else d

/-- The header that `uwb_transport_write_tx` puts before the payload. -/
def headerOf (cfg : Config) (s : Instance D) (dst tspCode : UInt16) : FrameHeader where
  fctrl := if cfg.requestAcks then transportFctrl ||| fctrlAckRequested else transportFctrl
  seqNum := s.frameSeqNum + 1
  panId := s.panId
  dstAddress := dst
  srcAddress := s.uid
  code := trnsprtRequest
  tspCode := tspCode

/-- The 16-bit value at an offset of a chain; `none` when an assertion fails. -/
def copydata16 (om : Mbuf) (off : Nat) : Option UInt16 :=
  (dplMbufCopydata om off 2).map fun b => ofLe16 (b.getD 0 0) (b.getD 1 0)

/-- C `uwb_transport_write_tx`. -/
def writeTx (cfg : Config) (hw : TxBuffer D) (om : Mbuf) (idx : Nat) (s : Instance D) :
    Option (Instance D) := do
  let base := txBufferHalf idx
  let txLen := om.pktlen - 6
  let dst ← copydata16 om (om.pktlen - 6)
  let tspCode ← copydata16 om (om.pktlen - 4)
  let hdr := headerOf cfg s dst tspCode
  let dev := hw.write s.dev hdr.bytes base
  some { s with
    frameSeqNum := hdr.seqNum
    dev := writeChunks hw om txLen (base + headerSize) txLen 0 dev
    txBufferLen := (headerSize + om.pktlen - 6) % 2 ^ 16
    txBufferOffset := base }

/-! ## Callbacks -/

/-- A semaphore released if its count is 0. -/
def releaseIfZero (count : Nat) : Nat := if count = 0 then count + 1 else count

/-- The end of `rx_complete_cb` for a frame that is not taken. -/
def Instance.earlyRet (s : Instance D) : Instance D := { s with sem := releaseIfZero s.sem }

/-- The signal that `ack_seq_num` has been set, given only when it is waited for. -/
def Instance.signalAck (s : Instance D) (seq : Int) : Instance D :=
  if s.ackSem = 0 then { s with ackSeqNum := seq, ackSem := s.ackSem + 1 } else s

/-- The frame is the last one accepted, less than 10 ms ago. -/
def isDuplicate (cfg : Config) (s : Instance D) (cputime : UInt32) (frame : FrameHeader) : Bool :=
  decide (cputime - s.lastFrameTime < cfg.dupTicks) && s.lastFrame == frame

/-- The buffer for a payload, filled; `none` when there is no memory for it. -/
def storePayload (pool : Pool) (payload : List UInt8) : Option (Mbuf × Pool) :=
  (dplMbufGetPkthdr pool).bind fun (room, pool) => dplMbufCopyinto pool room payload

/-- The bytes that `rx_complete_cb` copies; the length is that of a 16-bit subtraction. -/
def RxInfo.payload (rx : RxInfo) : List UInt8 :=
  readBytes rx.rxbuf headerSize (rx.frameLen - 13).toNat

/-- `rx_complete_cb` on a frame that is taken. -/
def acceptFrame (rx : RxInfo) (s : Instance D) : Instance D :=
  let frame := readHeader rx.rxbuf
  let s := { s with lastFrame := frame, lastFrameTime := rx.cputime }
  match storePayload s.pool rx.payload with
  | none => s
  | some (om, pool) =>
    { s with pool := pool, rxQ := s.rxQ ++ [⟨frame.tspCode, frame.srcAddress, om⟩] }

/-- A frame control of the transport, acknowledgement requested or not. -/
def isTransportFctrl (fctrl : UInt16) : Bool :=
  fctrl == transportFctrl || fctrl == transportFctrl ||| fctrlAckRequested

/-- The code and the address are those of a frame to take. -/
def isForUs (s : Instance D) (frame : FrameHeader) : Bool :=
  !(frame.code < trnsprtRequest || trnsprtEnd < frame.code) &&
    !(frame.dstAddress != s.uid && frame.dstAddress != broadcastAddress)

/-- C `rx_complete_cb`. -/
def rxCompleteCb (cfg : Config) (rx : RxInfo) (s : Instance D) : Bool × Instance D :=
  if rx.fctrl = fctrlFrameTypeAck then (true, s.signalAck (rx.rxbuf 2).toNat)
  else if !isTransportFctrl rx.fctrl then (false, s.earlyRet)
  else
    let s := { s with awaitingAckTx := s.awaitingAckTx || rx.autoackTriggered }
    let frame := readHeader rx.rxbuf
    if isForUs s frame && !isDuplicate cfg s rx.cputime frame then (true, acceptFrame rx s)
    else (false, s.earlyRet)

/-- C `rx_timeout_cb`. -/
def rxTimeoutCb (s : Instance D) : Bool × Instance D :=
  if s.ackSem = 0 then (true, s.signalAck (-1))
  else if s.sem = 0 then (true, { s with sem := s.sem + 1 })
  else (false, s)

/-- C `tx_begins_cb`. -/
def txBeginsCb (s : Instance D) : Bool × Instance D :=
  (s.writeTxLock == 0, { s with writeTxLock := releaseIfZero s.writeTxLock })

/-- C `tx_complete_cb`. -/
def txCompleteCb (s : Instance D) : Bool × Instance D :=
  (s.sem == 0, { s with awaitingAckTx := false, sem := releaseIfZero s.sem })

/-- C `reset_cb`. -/
def resetCb (s : Instance D) : Bool × Instance D :=
  let s := s.signalAck (-1)
  (false, { s with sem := releaseIfZero s.sem, writeTxLock := releaseIfZero s.writeTxLock })

/-- A transmit buffer that is plain memory. -/
def plainMemory : TxBuffer (Nat → UInt8) where
  write d bytes off i := if i < off then d i else bytes[i - off]?.getD (d i)
  read d i := d i
  read_write _ _ _ _ := rfl

/-- Standard PHR mode, acknowledgements requested, 10000 ticks in 10 ms. -/
def Config.dflt : Config := ⟨true, true, 10000⟩

end UwbCore.Transport
