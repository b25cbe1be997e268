import UwbCore.Transport.Length

/-!
# Management frames over UWB

`rx_complete_cb` of `nmgr_uwb.c`: a management frame is repeated for other nodes, and a request for
this node is passed on to the management task. Both work in place on the receive buffer. Like the
transport's, the callback does not look at `frame_len` before the length of the payload is computed,
and a reception keeps to the frame exactly when the frame has the fields that are read
(`lengthSafe_iff`, for both callbacks).
-/

namespace UwbCore.Nmgr
open UwbCore.Lib UwbCore.Lib.Scan
open UwbCore.Transport (Mbuf Pool RxInfo Received storeScan releaseIfZero broadcastAddress)

/-- C `nmgr_uwb_frame_header_t`. -/
structure FrameHeader where
  fctrl : UInt16
  seqNum : UInt8
  panId : UInt16
  dstAddress : UInt16
  srcAddress : UInt16
  code : UInt16
  rptCount : UInt8
  rptMax : UInt8
  deriving DecidableEq, Repr

/-- `sizeof(nmgr_uwb_frame_header_t)`. -/
def headerSize : Nat := 13

/-- `NMGR_UWB_FCTRL`. -/
def nmgrFctrl : UInt16 := 0x8841
def nmgrInvalid : UInt16 := 0x0420
def nmgrRequest : UInt16 := 0x0421
def nmgrEnd : UInt16 := 0x042f

def isNmgrCode (code : UInt16) : Bool := !(code < nmgrInvalid || nmgrEnd < code)

def FrameHeader.bytes (h : FrameHeader) : List UInt8 :=
  le16 h.fctrl ++ [h.seqNum] ++ le16 h.panId ++ le16 h.dstAddress ++ le16 h.srcAddress ++
    le16 h.code ++ [h.rptCount, h.rptMax]

def readHeader (mem : Nat → UInt8) : FrameHeader where
  fctrl := read16 mem 0
  seqNum := mem 2
  panId := read16 mem 3
  dstAddress := read16 mem 5
  srcAddress := read16 mem 7
  code := read16 mem 9
  rptCount := mem 11
  rptMax := mem 12

/-- A request on its way to the management task, with the header in its user header. -/
structure Request where
  header : FrameHeader
  om : Mbuf

/-- C `nmgr_uwb_instance_t`, the static variables of the callback, and the address of the device. The
    pool is the one that `os_msys_get_pkthdr` takes buffers from. -/
structure Instance where
  myShortAddress : UInt16
  lastRptSrc : UInt16
  lastRptSeqNum : UInt8
  sem : Nat
  pool : Pool
  requests : List Request

/-- What a reception leaves behind: the instance, what the callback returns, whether the frame was
    repeated, and the bytes that were written to the radio for it. -/
structure Effect where
  node : Instance
  ret : Bool
  repeated : Bool
  sent : Option (List UInt8)

/-- The end of `rx_complete_cb`. -/
def Instance.earlyRet (n : Instance) : Instance := { n with sem := releaseIfZero n.sem }

/-- The frame in the buffer after the repetition was decided on, and the instance. -/
structure Repetition where
  node : Instance
  frame : FrameHeader
  repeats : Bool

/-- The repetition of a frame. In its condition `frame->src_address = last_rpt_src && ...` is an
    assignment, which leaves 0 or 1 in the buffer. -/
def Instance.repeatFrame (n : Instance) (frame : FrameHeader) : Repetition :=
  if frame.rptCount < frame.rptMax ∧ frame.dstAddress ≠ n.myShortAddress ∧
      frame.srcAddress ≠ n.myShortAddress then
    let assigned := if n.lastRptSrc ≠ 0 ∧ frame.seqNum ≠ n.lastRptSeqNum then 1 else 0
    let frame := { frame with srcAddress := assigned }
    if assigned ≠ 0 then ⟨n, frame, false⟩
    else ⟨{ n with lastRptSrc := frame.srcAddress, lastRptSeqNum := frame.seqNum },
      { frame with rptCount := frame.rptCount + 1 }, true⟩
  else ⟨n, frame, false⟩

/-- The header is read to its end in any case: the repetition looks at `rpt_max` first. -/
def scanHeader : Scan FrameHeader := do
  let fctrl ← u16 0
  let seqNum ← u8 2
  let panId ← u16 3
  let dstAddress ← u16 5
  let srcAddress ← u16 7
  let code ← u16 9
  let rptCount ← u8 11
  let rptMax ← u8 12
  return ⟨fctrl, seqNum, panId, dstAddress, srcAddress, code, rptCount, rptMax⟩

/-- `uwb_write_tx(inst, inst->rxbuf, 0, inst->frame_len)` once the radio has started, with the header
    that was changed. -/
def sendScan (rx : RxInfo) (startTxError : Bool) (r : Repetition) :
    Scan (Option (List UInt8)) := do
  if r.repeats && !startTxError then
    let rest ← bytes headerSize (rx.frameLen.toNat - headerSize)
    return some ((r.frame.bytes ++ rest).take rx.frameLen.toNat)
  else return none

/-- The request for this node is passed on. -/
def requestScan (rx : RxInfo) (r : Repetition) (sent : Option (List UInt8)) : Scan Effect := do
  let stored ← storeScan r.node.pool headerSize (rx.frameLen - 13).toNat
  match stored with
  | none => return ⟨r.node.earlyRet, true, r.repeats, sent⟩
  | some (om, pool) =>
    let requests := r.node.requests ++ [⟨r.frame, om⟩]
    return ⟨{ r.node.earlyRet with pool := pool, requests := requests }, true, r.repeats, sent⟩

/-- `rx_complete_cb` on a management frame. -/
def frameScan (rx : RxInfo) (startTxError : Bool) (n : Instance) : Scan Effect := do
  let frame ← scanHeader
  let r := n.repeatFrame frame
  let sent ← sendScan rx startTxError r
  if r.frame.dstAddress ≠ n.myShortAddress ∧ r.frame.dstAddress ≠ broadcastAddress then
    return ⟨r.node.earlyRet, false, r.repeats, sent⟩
  else if r.frame.code = nmgrRequest then requestScan rx r sent
  else return ⟨r.node.earlyRet, false, r.repeats, sent⟩

/-- C `rx_complete_cb`, read by read. -/
def rxCompleteScan (rx : RxInfo) (startTxError : Bool) (n : Instance) : Scan Effect :=
  if rx.fctrl ≠ nmgrFctrl then return ⟨n.earlyRet, false, false, none⟩
  else do
    let code ← u16 9
    if isNmgrCode code then frameScan rx startTxError n
    else return ⟨n.earlyRet, false, false, none⟩

/-- C `rx_complete_cb`. -/
def rxCompleteCb (rx : RxInfo) (startTxError : Bool) (n : Instance) : Effect :=
  (rxCompleteScan rx startTxError n).run rx.rxbuf

/-- The frame has the fields that are read: its code, and all of its header if it is a management
    frame. -/
def LongEnough (rx : RxInfo) : Prop :=
  rx.fctrl = nmgrFctrl →
    11 ≤ rx.frameLen.toNat ∧ (isNmgrCode (read16 rx.rxbuf 9) = true → headerSize ≤ rx.frameLen.toNat)

def newPayloads (n n' : Instance) : List (List UInt8) :=
  (n'.requests.drop n.requests.length).map (·.om.flat)

/-- The reception keeps to the bytes of the frame; the callback returns true for a frame it takes. -/
def LengthSafe (rx : RxInfo) (startTxError : Bool) (n : Instance) : Prop :=
  Received headerSize rx.frameLen.toNat rx.rxbuf (rxCompleteScan rx startTxError n)
    ((rxCompleteCb rx startTxError n).ret = true)
    (newPayloads n (rxCompleteCb rx startTxError n).node)

section
variable {rx : RxInfo} {startTxError : Bool} {n : Instance} {mem : Nat → UInt8} {len : Nat}

@[simp] lemma run_scanHeader : scanHeader.run mem = readHeader mem := rfl

@[simp] lemma within_scanHeader : Within mem len scanHeader ↔ headerSize ≤ len := by
  simp only [scanHeader, within_bind, within_u16, within_u8, within_pure, and_true, headerSize]
  omega

/-- The payload is what follows the header. -/
lemma payload_toNat (h : headerSize ≤ rx.frameLen.toNat) :
    (rx.frameLen - 13).toNat = rx.frameLen.toNat - headerSize :=
  UInt16.toNat_sub_of_le _ _ (UInt16.le_iff_toNat_le.mpr h)

/-- The repetition stays within the frame. -/
lemma within_sendScan (h : headerSize ≤ rx.frameLen.toNat) (r : Repetition) :
    (sendScan rx startTxError r).Within mem rx.frameLen.toNat := by
  unfold sendScan
  split
  case isTrue =>
    rw [within_bind, within_bytes]
    exact ⟨.inr (by omega), within_pure _⟩
  case isFalse => exact within_pure _

/-- The request stays within the frame. -/
lemma within_requestScan (h : headerSize ≤ rx.frameLen.toNat) (r : Repetition)
    (sent : Option (List UInt8)) : (requestScan rx r sent).Within mem rx.frameLen.toNat := by
  have hp := payload_toNat h
  unfold requestScan
  rw [within_bind]
  refine ⟨Transport.within_storeScan _ (by omega), ?_⟩
  split <;> exact within_pure _

/-- A management frame is read to the end of its header. -/
lemma within_frameScan :
    (frameScan rx startTxError n).Within mem rx.frameLen.toNat ↔
      headerSize ≤ rx.frameLen.toNat := by
  unfold frameScan
  rw [within_bind, within_scanHeader, within_bind]
  refine and_iff_left_of_imp fun h => ⟨within_sendScan h _, ?_⟩
  split
  case isTrue => exact within_pure _
  case isFalse =>
    split
    case isTrue => exact within_requestScan h _ _
    case isFalse => exact within_pure _

/-- The handler stays within the frame exactly if that is long enough. -/
lemma within_rxCompleteScan :
    (rxCompleteScan rx startTxError n).Within rx.rxbuf rx.frameLen.toNat ↔ LongEnough rx := by
  unfold rxCompleteScan LongEnough
  by_cases hf : rx.fctrl = nmgrFctrl
  case neg => exact iff_of_true (by rw [if_pos hf]; exact within_pure _) fun h => absurd h hf
  case pos =>
    rw [if_neg (not_not.mpr hf), within_bind, within_u16, run_u16, forall_prop_of_true hf]
    refine and_congr_right fun _ => ?_
    cases isNmgrCode (read16 rx.rxbuf 9) with
    | false => simp
    | true =>
      rw [if_pos rfl, forall_prop_of_true rfl]
      exact within_frameScan

/-! ## What is passed on -/

@[simp] lemma earlyRet_requests (n : Instance) : n.earlyRet.requests = n.requests := rfl

@[simp] lemma repeatFrame_requests (frame : FrameHeader) :
    (n.repeatFrame frame).node.requests = n.requests := by
  unfold Instance.repeatFrame
  dsimp only
  split_ifs <;> rfl

@[simp] lemma repeatFrame_pool (frame : FrameHeader) :
    (n.repeatFrame frame).node.pool = n.pool := by
  unfold Instance.repeatFrame
  dsimp only
  split_ifs <;> rfl

/-- A request that is passed on has the payload of the frame. -/
lemma requestScan_payload (h : headerSize ≤ rx.frameLen.toNat) (r : Repetition)
    (sent : Option (List UInt8)) {bytes : List UInt8}
    (hb : bytes ∈ newPayloads r.node ((requestScan rx r sent).run mem).node) :
    bytes = readBytes mem headerSize (rx.frameLen.toNat - headerSize) := by
  unfold requestScan at hb
  rw [run_bind, Transport.run_storeScan, payload_toNat h] at hb
  cases hs : Transport.storePayload r.node.pool
      (readBytes mem headerSize (rx.frameLen.toNat - headerSize)) with
  | none =>
    simp only [hs, run_pure, newPayloads, Instance.earlyRet, List.drop_length, List.map_nil] at hb
    cases hb
  | some r =>
    simp only [hs, run_pure, newPayloads, List.drop_left, List.map_cons, List.map_nil,
      List.mem_singleton] at hb
    rw [hb, Transport.storePayload_flat hs]

/-- The callback returns false and passes nothing on, or the frame is a request for this node. -/
lemma rxCompleteScan_cases (rx : RxInfo) (startTxError : Bool) (n : Instance) :
    (rxCompleteCb rx startTxError n).ret = false ∧
        (rxCompleteCb rx startTxError n).node.requests = n.requests ∨
      rx.fctrl = nmgrFctrl ∧ isNmgrCode (read16 rx.rxbuf 9) = true ∧ ∃ r sent,
        r.node.requests = n.requests ∧
          rxCompleteCb rx startTxError n = (requestScan rx r sent).run rx.rxbuf := by
  unfold rxCompleteCb rxCompleteScan
  by_cases hf : rx.fctrl = nmgrFctrl
  case neg =>
    rw [if_pos hf]
    exact .inl ⟨rfl, rfl⟩
  case pos =>
    rw [if_neg (not_not.mpr hf), run_bind, run_u16]
    cases isNmgrCode (read16 rx.rxbuf 9) with
    | false => exact .inl ⟨rfl, rfl⟩
    | true =>
      rw [if_pos rfl, frameScan, run_bind, run_bind]
      have hkept : (n.repeatFrame (scanHeader.run rx.rxbuf)).node.earlyRet.requests = n.requests :=
        (earlyRet_requests _).trans (repeatFrame_requests _)
      split
      case isTrue =>
        rw [run_pure]
        exact .inl ⟨rfl, hkept⟩
      case isFalse =>
        split
        case isTrue => exact .inr ⟨hf, rfl, _, _, repeatFrame_requests _, rfl⟩
        case isFalse =>
          rw [run_pure]
          exact .inl ⟨rfl, hkept⟩

/-- A management frame is received within its bytes exactly when it is long enough. -/
lemma lengthSafe_nmgr : LengthSafe rx startTxError n ↔ LongEnough rx := by
  refine ⟨fun h => within_rxCompleteScan.mp h.within, fun h => ?_⟩
  have hw : (rxCompleteScan rx startTxError n).Within rx.rxbuf rx.frameLen.toNat :=
    within_rxCompleteScan.mpr h
  cases rxCompleteScan_cases rx startTxError n with
  | inl hc =>
    obtain ⟨hret, hq⟩ := hc
    refine ⟨hw, fun ht => absurd (hret.symm.trans ht) Bool.false_ne_true, fun bytes hb => ?_⟩
    rw [newPayloads, hq, List.drop_length] at hb
    cases hb
  | inr hc =>
    obtain ⟨hf, hcode, r, sent, hq, he⟩ := hc
    have hlen : headerSize ≤ rx.frameLen.toNat := (h hf).2 hcode
    refine ⟨hw, fun _ => hlen, fun bytes hb => requestScan_payload hlen r sent ?_⟩
    rw [he] at hb
    unfold newPayloads at hb ⊢
    rw [hq]
    exact hb

end

/-- Both receive callbacks keep to the bytes of the frame exactly when it is long enough. -/
theorem lengthSafe_iff {D : Type} (cfg : Transport.Config) (rx : RxInfo) (s : Transport.Instance D)
    (startTxError : Bool) (n : Instance) :
    (Transport.LengthSafe cfg rx s ↔ Transport.LongEnough rx s) ∧
      (LengthSafe rx startTxError n ↔ LongEnough rx) :=
  ⟨Transport.lengthSafe_transport, lengthSafe_nmgr⟩

/-- Five bytes of a transport frame, received into a buffer that holds a whole one. -/
def shortRx : RxInfo where
  fctrl := Transport.transportFctrl
  frameLen := 5
  rxbuf := Transport.twoBytesWritten.dev
  autoackTriggered := false
  cputime := 1000

/-- The five bytes are taken for the packet that was there before. -/
theorem lengthSafe_fails :
    ¬ ((∀ (D : Type) (cfg : Transport.Config) (rx : RxInfo) (s : Transport.Instance D),
        Transport.LengthSafe cfg rx s) ∧
      ∀ (rx : RxInfo) (startTxError : Bool) (n : Instance), LengthSafe rx startTxError n) := by
  rintro ⟨h, -⟩
  have hw := (h _ .dflt shortRx (Transport.freshNode 0x20)).within
  exact absurd (Transport.within_rxCompleteScan.mp hw) (by decide +kernel)

end UwbCore.Nmgr
