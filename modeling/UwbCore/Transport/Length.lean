import UwbCore.Lib.Scan
import UwbCore.Transport.Framing

/-!
# Short frames

`rx_complete_cb` once more, as a computation that reads the receive buffer (`rxCompleteScan`); its
result is that of `rxCompleteCb` (`run_rxCompleteScan`). Nothing in it looks at `frame_len` before
the length of the payload is computed, so a short frame is read behind its end, and the length of
its payload wraps. A reception keeps to the frame exactly when the frame is long enough for the
fields that are read on the way the frame takes (`lengthSafe_transport`).
-/

namespace UwbCore.Transport
open UwbCore.Lib UwbCore.Lib.Scan

variable {D : Type}

/-- What is asked of the reception of a frame of `len` bytes: nothing is read behind it, a frame that
    is taken has its header, and what is passed up are the bytes behind the header. -/
structure Received {α : Type} (header len : Nat) (mem : Nat → UInt8) (p : Scan α) (taken : Prop)
    (passed : List (List UInt8)) : Prop where
  within : p.Within mem len
  noWrap : taken → header ≤ len
  payload : ∀ bytes ∈ passed, bytes = readBytes mem header (len - header)

def scanHeader : Scan FrameHeader := do
  let fctrl ← u16 0
  let seqNum ← u8 2
  let panId ← u16 3
  let dstAddress ← u16 5
  let srcAddress ← u16 7
  let code ← u16 9
  let tspCode ← u16 11
  return ⟨fctrl, seqNum, panId, dstAddress, srcAddress, code, tspCode⟩

/-- The buffer for a payload of `len` bytes behind the header, filled. -/
def storeScan (pool : Pool) (header len : Nat) : Scan (Option (Mbuf × Pool)) :=
  match dplMbufGetPkthdr pool with
  | none => return none
  | some (room, pool) => do
    let payload ← bytes header len
    return dplMbufCopyinto pool room payload

def isTransportCode (code : UInt16) : Bool := !(code < trnsprtRequest || trnsprtEnd < code)

/-- Sent to this node, or to all. -/
def isOurs (s : Instance D) (dst : UInt16) : Bool := !(dst != s.uid && dst != broadcastAddress)

/-- `rx_complete_cb` from the copy of the header on. -/
def acceptScan (rx : RxInfo) (s : Instance D) : Scan (Bool × Instance D) := do
  let frame ← scanHeader
  let stored ← storeScan s.pool headerSize (rx.frameLen - 13).toNat
  let s := { s with lastFrame := frame, lastFrameTime := rx.cputime }
  match stored with
  | none => return (true, s)
  | some (om, pool) =>
    return (true, { s with pool := pool, rxQ := s.rxQ ++ [⟨frame.tspCode, frame.srcAddress, om⟩] })

/-- `rx_complete_cb` on a frame with the frame control of the transport. -/
def dataScan (cfg : Config) (rx : RxInfo) (s : Instance D) : Scan (Bool × Instance D) := do
  let code ← u16 9
  if isTransportCode code then
    let dst ← u16 5
    if isOurs s dst then
      if rx.cputime - s.lastFrameTime < cfg.dupTicks then
        let frame ← scanHeader
        if s.lastFrame == frame then return (false, s.earlyRet)
        else acceptScan rx s
      else acceptScan rx s
    else return (false, s.earlyRet)
  else return (false, s.earlyRet)

/-- C `rx_complete_cb`, read by read. -/
def rxCompleteScan (cfg : Config) (rx : RxInfo) (s : Instance D) : Scan (Bool × Instance D) :=
  if rx.fctrl = fctrlFrameTypeAck then
    if s.ackSem = 0 then do
      let seq ← u8 2
      return (true, s.signalAck seq.toNat)
    else return (true, s)
  else if isTransportFctrl rx.fctrl then
    dataScan cfg rx { s with awaitingAckTx := s.awaitingAckTx || rx.autoackTriggered }
  else return (false, s.earlyRet)

/-- The frame has the fields that are read: the sequence number of an ACK that is waited for, the code
    of a transport frame, and all of the header of one for this node. -/
def LongEnough (rx : RxInfo) (s : Instance D) : Prop :=
  if rx.fctrl = fctrlFrameTypeAck then s.ackSem = 0 → 3 ≤ rx.frameLen.toNat
  else isTransportFctrl rx.fctrl = true →
    11 ≤ rx.frameLen.toNat ∧
      (isForUs s (readHeader rx.rxbuf) = true → headerSize ≤ rx.frameLen.toNat)

/-- The payloads that a callback has put on `rx_q`. -/
def newPayloads (s s' : Instance D) : List (List UInt8) :=
  (s'.rxQ.drop s.rxQ.length).map (·.om.flat)

/-- The reception keeps to the bytes of the frame; the callback returns true for an ACK and for a data
    frame it takes. -/
def LengthSafe (cfg : Config) (rx : RxInfo) (s : Instance D) : Prop :=
  Received headerSize rx.frameLen.toNat rx.rxbuf (rxCompleteScan cfg rx s)
    (rx.fctrl ≠ fctrlFrameTypeAck ∧ (rxCompleteCb cfg rx s).1 = true)
    (newPayloads s (rxCompleteCb cfg rx s).2)

instance decidableLongEnough (rx : RxInfo) (s : Instance D) : Decidable (LongEnough rx s) :=
  inferInstanceAs (Decidable (if rx.fctrl = fctrlFrameTypeAck then _ else _))

section
variable {mem : Nat → UInt8} {len : Nat} {cfg : Config} {rx : RxInfo} {s : Instance D}

@[simp] lemma run_scanHeader : scanHeader.run mem = readHeader mem := rfl

@[simp] lemma within_scanHeader : Within mem len scanHeader ↔ headerSize ≤ len := by
  simp only [scanHeader, within_bind, within_u16, within_u8, within_pure, and_true, headerSize]
  omega

@[simp] lemma run_storeScan (pool : Pool) (header n : Nat) :
    (storeScan pool header n).run mem = storePayload pool (readBytes mem header n) := by
  unfold storeScan storePayload
  cases dplMbufGetPkthdr pool with
  | none => rfl
  | some r => simp

/-- The payload is read within the frame. -/
lemma within_storeScan (pool : Pool) {header n : Nat} (h : header + n ≤ len) :
    Within mem len (storeScan pool header n) := by
  unfold storeScan
  cases dplMbufGetPkthdr pool with
  | none => exact within_pure _
  | some r => simp [h]

/-- A frame is for this node by its code and its address. -/
lemma isForUs_eq (frame : FrameHeader) :
    isForUs s frame = (isTransportCode frame.code && isOurs s frame.dstAddress) := rfl

/-- The reads of a frame that is accepted add nothing to it. -/
lemma run_acceptScan :
    (acceptScan rx s).run rx.rxbuf = (true, acceptFrame rx s) := by
  unfold acceptScan acceptFrame
  simp only [run_bind, run_scanHeader, run_storeScan, RxInfo.payload]
  cases storePayload s.pool (readBytes rx.rxbuf headerSize (rx.frameLen - 13).toNat) <;> rfl

/-- A frame is accepted within its bytes if it has a header. -/
lemma within_acceptScan :
    (acceptScan rx s).Within mem rx.frameLen.toNat ↔ headerSize ≤ rx.frameLen.toNat := by
  unfold acceptScan
  rw [within_bind, within_scanHeader]
  refine and_iff_left_of_imp fun h => ?_
  have h13 : 13 ≤ rx.frameLen.toNat := h
  have hsub : (rx.frameLen - 13).toNat = rx.frameLen.toNat - 13 :=
    UInt16.toNat_sub_of_le _ _ (UInt16.le_iff_toNat_le.mpr h13)
  rw [within_bind]
  refine ⟨within_storeScan _ (by rw [hsub, headerSize]; omega), ?_⟩
  split <;> exact within_pure _

/-- The reads of a data frame add nothing to it. -/
lemma run_dataScan :
    (dataScan cfg rx s).run rx.rxbuf =
      if isForUs s (readHeader rx.rxbuf) && !isDuplicate cfg s rx.cputime (readHeader rx.rxbuf)
      then (true, acceptFrame rx s) else (false, s.earlyRet) := by
  have hcode : read16 rx.rxbuf 9 = (readHeader rx.rxbuf).code := rfl
  have hdst : read16 rx.rxbuf 5 = (readHeader rx.rxbuf).dstAddress := rfl
  unfold dataScan
  rw [run_bind, run_u16, hcode, isForUs_eq]
  cases isTransportCode (readHeader rx.rxbuf).code with
  | false => rfl
  | true =>
    rw [if_pos rfl, run_bind, run_u16, hdst]
    cases isOurs s (readHeader rx.rxbuf).dstAddress with
    | false => rfl
    | true =>
      rw [if_pos rfl, isDuplicate]
      by_cases ht : rx.cputime - s.lastFrameTime < cfg.dupTicks
      case pos =>
        rw [if_pos ht, run_bind, run_scanHeader, decide_eq_true ht]
        cases s.lastFrame == readHeader rx.rxbuf with
        | true => rfl
        | false => exact run_acceptScan
      case neg =>
        rw [if_neg ht, decide_eq_false ht]
        exact run_acceptScan

/-- The reads of `rx_complete_cb` add nothing to it. -/
theorem run_rxCompleteScan :
    (rxCompleteScan cfg rx s).run rx.rxbuf = rxCompleteCb cfg rx s := by
  unfold rxCompleteScan rxCompleteCb
  split
  case isTrue =>
    unfold Instance.signalAck
    split <;> rfl
  case isFalse =>
    cases isTransportFctrl rx.fctrl with
    | false => rfl
    | true => exact run_dataScan

/-- A data frame is read as far as its code, and to the end of the header if it is for this node. -/
lemma within_dataScan :
    (dataScan cfg rx s).Within rx.rxbuf rx.frameLen.toNat ↔ 11 ≤ rx.frameLen.toNat ∧
      (isForUs s (readHeader rx.rxbuf) = true → headerSize ≤ rx.frameLen.toNat) := by
  have hcode : read16 rx.rxbuf 9 = (readHeader rx.rxbuf).code := rfl
  have hdst : read16 rx.rxbuf 5 = (readHeader rx.rxbuf).dstAddress := rfl
  unfold dataScan
  rw [within_bind, within_u16, run_u16, hcode, isForUs_eq]
  refine and_congr_right fun h11 => ?_
  cases isTransportCode (readHeader rx.rxbuf).code with
  | false => simp
  | true =>
    rw [if_pos rfl, within_bind, within_u16, run_u16, hdst, and_iff_right (by omega)]
    cases isOurs s (readHeader rx.rxbuf).dstAddress with
    | false => simp
    | true =>
      rw [if_pos rfl, Bool.and_true, eq_self_iff_true, true_imp_iff]
      split
      case isTrue =>
        rw [within_bind, within_scanHeader, run_scanHeader]
        refine and_iff_left_of_imp fun h13 => ?_
        split
        case isTrue => exact within_pure _
        case isFalse => exact within_acceptScan.mpr h13
      case isFalse => exact within_acceptScan

/-- The handler stays within the frame exactly if that is long enough. -/
lemma within_rxCompleteScan :
    (rxCompleteScan cfg rx s).Within rx.rxbuf rx.frameLen.toNat ↔ LongEnough rx s := by
  unfold rxCompleteScan LongEnough
  split
  case isTrue =>
    by_cases h0 : s.ackSem = 0
    case pos =>
      rw [if_pos h0, within_bind, within_u8, and_iff_left (within_pure _), forall_prop_of_true h0]
      omega
    case neg => exact iff_of_true (by rw [if_neg h0]; exact within_pure _) fun h => absurd h h0
  case isFalse =>
    cases isTransportFctrl rx.fctrl with
    | false => simp
    | true => rw [if_pos rfl, forall_prop_of_true rfl]; exact within_dataScan

/-- An acknowledgment leaves the queue. -/
lemma signalAck_rxQ (seq : Int) : (s.signalAck seq).rxQ = s.rxQ := by
  unfold Instance.signalAck
  split <;> rfl

/-- A frame is taken when it passes all checks, and nothing is put on `rx_q` otherwise. -/
lemma rxCompleteCb_cases (cfg : Config) (rx : RxInfo) (s : Instance D) :
    ((rxCompleteCb cfg rx s).1 = false ∨ rx.fctrl = fctrlFrameTypeAck) ∧
        (rxCompleteCb cfg rx s).2.rxQ = s.rxQ ∨
      rx.fctrl ≠ fctrlFrameTypeAck ∧ isTransportFctrl rx.fctrl = true ∧
        isForUs s (readHeader rx.rxbuf) = true ∧ ∃ s', s'.rxQ = s.rxQ ∧
          rxCompleteCb cfg rx s = (true, acceptFrame rx s') := by
  unfold rxCompleteCb
  split
  case isTrue h => exact .inl ⟨.inr h, signalAck_rxQ _⟩
  case isFalse h =>
    cases ht : isTransportFctrl rx.fctrl with
    | false => exact .inl ⟨.inl rfl, rfl⟩
    | true =>
      rw [Bool.not_true, if_neg Bool.false_ne_true]
      dsimp only
      split
      case isTrue hf =>
        refine .inr ⟨h, rfl, (Bool.and_eq_true_iff.mp hf).1,
          { s with awaitingAckTx := s.awaitingAckTx || rx.autoackTriggered }, rfl, rfl⟩
      case isFalse => exact .inl ⟨.inl rfl, rfl⟩

/-- What is put on `rx_q` for a frame with a header is what the frame has behind it. -/
lemma acceptFrame_payload (h : headerSize ≤ rx.frameLen.toNat) {bytes : List UInt8}
    (hb : bytes ∈ newPayloads s (acceptFrame rx s)) :
    bytes = readBytes rx.rxbuf headerSize (rx.frameLen.toNat - headerSize) := by
  have hsub : (rx.frameLen - 13).toNat = rx.frameLen.toNat - 13 :=
    UInt16.toNat_sub_of_le _ _ (UInt16.le_iff_toNat_le.mpr h)
  unfold newPayloads acceptFrame at hb
  cases hs : storePayload s.pool rx.payload with
  | none =>
    simp only [hs, List.drop_length, List.map_nil] at hb
    cases hb
  | some r =>
    obtain ⟨om, pool⟩ := r
    simp only [hs, List.drop_left, List.map_cons, List.map_nil, List.mem_singleton] at hb
    rw [hb, storePayload_flat hs, RxInfo.payload, hsub]
    rfl

/-- The transport receives a frame within its bytes exactly when the frame is long enough. -/
lemma lengthSafe_transport : LengthSafe cfg rx s ↔ LongEnough rx s := by
  refine ⟨fun h => within_rxCompleteScan.mp h.within, fun h => ?_⟩
  have hw : (rxCompleteScan cfg rx s).Within rx.rxbuf rx.frameLen.toNat :=
    within_rxCompleteScan.mpr h
  cases rxCompleteCb_cases cfg rx s with
  | inl hc =>
    obtain ⟨hrej, hq⟩ := hc
    refine ⟨hw, fun ht => ?_, fun bytes hb => ?_⟩
    · cases hrej with
      | inl hrej => exact absurd (hrej.symm.trans ht.2) Bool.false_ne_true
      | inr hack => exact absurd hack ht.1
    · rw [newPayloads, hq, List.drop_length] at hb
      cases hb
  | inr hc =>
    obtain ⟨hack, ht, hus, s', hq, he⟩ := hc
    have hlen : headerSize ≤ rx.frameLen.toNat := by
      rw [LongEnough, if_neg hack] at h
      exact (h ht).2 hus
    refine ⟨hw, fun _ => hlen, fun bytes hb => acceptFrame_payload (s := s') hlen ?_⟩
    rw [he] at hb
    unfold newPayloads at hb ⊢
    rw [hq]
    exact hb

end

end UwbCore.Transport
