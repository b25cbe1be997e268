import UwbCore.Lib.Run
import UwbCore.Nmgr.Basic

/-!
# Relayed management frames

What becomes of the management frames that a node hears one after another, from any sources. The
condition of the repetition assigns to the source address where it means to compare it, so that the
record of the frame repeated last never says anything, every frame that can be repeated is repeated,
with the source address 0, and the frame passed on to the management task is the one with the changed
header. The frames are handled as they should be exactly when no frame meets these slips
(`relayedRight_iff`).
-/

namespace UwbCore.Nmgr
open UwbCore.Lib UwbCore.Lib.Scan
open UwbCore.Transport (Pool RxInfo HasMemory storePayload broadcastAddress)

/-- A management frame with all of its header. -/
def IsFrame (rx : RxInfo) : Prop :=
  rx.fctrl = nmgrFctrl ∧ isNmgrCode (readHeader rx.rxbuf).code = true ∧
    headerSize ≤ rx.frameLen.toNat

instance decidableIsFrame (rx : RxInfo) : Decidable (IsFrame rx) :=
  inferInstanceAs (Decidable (_ ∧ _ ∧ _))

/-- The bytes behind the header. -/
def payload (rx : RxInfo) : List UInt8 :=
  readBytes rx.rxbuf headerSize (rx.frameLen.toNat - headerSize)

/-- There are repetitions left, and the node is neither the source nor the destination. -/
def Relayable (address : UInt16) (frame : FrameHeader) : Prop :=
  frame.rptCount < frame.rptMax ∧ frame.dstAddress ≠ address ∧ frame.srcAddress ≠ address

instance decidableRelayable (address : UInt16) (frame : FrameHeader) :
    Decidable (Relayable address frame) := inferInstanceAs (Decidable (_ ∧ _ ∧ _))

/-- A frame that was heard: its header and payload, the address of the node, source and sequence
    number of the frame that was repeated last before, and what was done. -/
structure Heard where
  frame : FrameHeader
  payload : List UInt8
  address : UInt16
  last : Option (UInt16 × UInt8)
  repeated : Bool
  sent : Option (List UInt8)
  passed : List Request

/-- The frame was repeated if it should be, once, and nothing but the count of the repetition differs
    from the frame that was heard. -/
structure Heard.Right (h : Heard) : Prop where
  repeated : h.repeated = true ↔
    h.last ≠ some (h.frame.srcAddress, h.frame.seqNum) ∧ Relayable h.address h.frame
  sent : ∀ bytes ∈ h.sent,
    bytes = { h.frame with rptCount := h.frame.rptCount + 1 }.bytes ++ h.payload
  passed : ∀ q ∈ h.passed, q.header = h.frame ∧ q.om.flat = h.payload

/-- A node, source and sequence number of the frame it repeated last, and the frames it heard. -/
structure RelayRun where
  node : Instance
  last : Option (UInt16 × UInt8)
  log : List Heard

/-- A frame is heard, and the radio may fail to start for its repetition; or buffers are taken and
    freed, requests are served, and calls take the semaphore. -/
inductive RelayEvent where
  | rx (rx : RxInfo) (startTxError : Bool)
  | other (sem : Nat) (pool : Pool) (requests : List Request)

namespace RelayRun

def heard (s : RelayRun) (rx : RxInfo) (startTxError : Bool) : Heard where
  frame := readHeader rx.rxbuf
  payload := payload rx
  address := s.node.myShortAddress
  last := s.last
  repeated := (rxCompleteCb rx startTxError s.node).repeated
  sent := (rxCompleteCb rx startTxError s.node).sent
  passed := (rxCompleteCb rx startTxError s.node).node.requests.drop s.node.requests.length

def step (s : RelayRun) : RelayEvent → RelayRun
  | .rx rx startTxError =>
    let frame := readHeader rx.rxbuf
    { node := (rxCompleteCb rx startTxError s.node).node
      last :=
        if (rxCompleteCb rx startTxError s.node).repeated then some (frame.srcAddress, frame.seqNum)
        else s.last
      log := if IsFrame rx then s.log ++ [s.heard rx startTxError] else s.log }
  | .other sem pool requests =>
    { s with node := { s.node with sem := sem, pool := pool, requests := requests } }

def AllRight (s : RelayRun) : Prop := ∀ h ∈ s.log, h.Right

/-- A frame that can be repeated is not the one repeated last, has the source address 0 or is not
    sent, and is not passed on. -/
def Guard (s : RelayRun) : RelayEvent → Prop
  | .rx rx startTxError =>
    let frame := readHeader rx.rxbuf
    IsFrame rx → Relayable s.node.myShortAddress frame →
      s.last ≠ some (frame.srcAddress, frame.seqNum) ∧
      (startTxError = true ∨ frame.srcAddress = 0) ∧
      ¬(frame.dstAddress = broadcastAddress ∧ frame.code = nmgrRequest ∧
        HasMemory s.node.pool (payload rx).length)
  | .other .. => True

/-- A node after `nmgr_uwb_init`. -/
def init (address : UInt16) (pool : Pool) : RelayRun where
  node := ⟨address, 0, 0, 1, pool, []⟩
  last := none
  log := []

end RelayRun

/-! ## What is done with a frame -/

/-- A header can be read back from its bytes. -/
lemma bytes_injective {h h' : FrameHeader} (he : h.bytes = h'.bytes) : h = h' := by
  have back (h : FrameHeader) : readHeader (fun i => h.bytes.getD i 0) = h := by
    simp [readHeader, read16, FrameHeader.bytes, le16, ofLe16_le16]
  rw [← back h, ← back h', he]

section
variable {rx : RxInfo} {startTxError : Bool} {n : Instance}

/-- With no source recorded, the frames that can be repeated are. -/
lemma repeatFrame_of_zero (h : n.lastRptSrc = 0) (frame : FrameHeader) :
    n.repeatFrame frame =
      if Relayable n.myShortAddress frame then
        ⟨{ n with lastRptSrc := 0, lastRptSeqNum := frame.seqNum },
          { frame with srcAddress := 0, rptCount := frame.rptCount + 1 }, true⟩
      else ⟨n, frame, false⟩ := by
  have ha : ¬(n.lastRptSrc ≠ 0 ∧ frame.seqNum ≠ n.lastRptSeqNum) := fun hn => hn.1 h
  unfold Instance.repeatFrame Relayable
  rw [if_neg ha]
  rfl

/-- The request leaves what was repeated. -/
lemma requestScan_kept (r : Repetition) (sent : Option (List UInt8)) (mem : Nat → UInt8) :
    ((requestScan rx r sent).run mem).repeated = r.repeats ∧
      ((requestScan rx r sent).run mem).sent = sent ∧
      ((requestScan rx r sent).run mem).node.lastRptSrc = r.node.lastRptSrc := by
  unfold requestScan
  rw [run_bind]
  split <;> exact ⟨rfl, rfl, rfl⟩

variable (rx startTxError n) in
/-- The repetition decides on what is sent, and on the frame that is recorded. -/
lemma frameScan_kept (mem : Nat → UInt8) :
    ((frameScan rx startTxError n).run mem).repeated = (n.repeatFrame (readHeader mem)).repeats ∧
      ((frameScan rx startTxError n).run mem).sent =
        (sendScan rx startTxError (n.repeatFrame (readHeader mem))).run mem ∧
      ((frameScan rx startTxError n).run mem).node.lastRptSrc =
        (n.repeatFrame (readHeader mem)).node.lastRptSrc := by
  unfold frameScan
  rw [run_bind, run_bind, run_scanHeader]
  split
  case isTrue => exact ⟨rfl, rfl, rfl⟩
  case isFalse =>
    split
    case isTrue => exact requestScan_kept _ _ _
    case isFalse => exact ⟨rfl, rfl, rfl⟩

/-- The source that is recorded is always 0. -/
lemma rxCompleteCb_lastRptSrc (h : n.lastRptSrc = 0) :
    (rxCompleteCb rx startTxError n).node.lastRptSrc = 0 := by
  unfold rxCompleteCb rxCompleteScan
  split
  case isTrue => exact h
  case isFalse =>
    rw [run_bind]
    split
    case isTrue =>
      rw [(frameScan_kept rx startTxError n _).2.2, repeatFrame_of_zero h]
      split
      case isTrue => rfl
      case isFalse => exact h
    case isFalse => exact h

/-- A frame goes through the handler. -/
lemma rxCompleteCb_frame (h : IsFrame rx) :
    rxCompleteCb rx startTxError n = (frameScan rx startTxError n).run rx.rxbuf := by
  obtain ⟨hf, hc, -⟩ := h
  have hc' : isNmgrCode ((u16 9).run rx.rxbuf) = true := hc
  unfold rxCompleteCb rxCompleteScan
  rw [if_neg (not_not.mpr hf), run_bind, if_pos hc']

/-- The payload is what follows the header. -/
lemma payload_length : (payload rx).length = rx.frameLen.toNat - headerSize := by
  rw [payload, readBytes, List.length_map, List.length_range]

/-- What is sent is the header as it is in the buffer, and the payload. -/
lemma run_sendScan (h : headerSize ≤ rx.frameLen.toNat) (r : Repetition) :
    (sendScan rx startTxError r).run rx.rxbuf =
      if r.repeats && !startTxError then some (r.frame.bytes ++ payload rx) else none := by
  unfold sendScan
  split
  case isTrue =>
    have hlen : (r.frame.bytes ++ payload rx).length ≤ rx.frameLen.toNat := by
      have hb : r.frame.bytes.length = headerSize := rfl
      rw [List.length_append, payload_length, hb]
      omega
    rw [run_bind, run_bytes, run_pure]
    exact congrArg some (List.take_of_length_le hlen)
  case isFalse => rfl

/-- The frame goes to the management task: a request for this node or for all, for which there is
    memory. -/
def Passes (rx : RxInfo) (n : Instance) : Prop :=
  ((readHeader rx.rxbuf).dstAddress = n.myShortAddress ∨
    (readHeader rx.rxbuf).dstAddress = broadcastAddress) ∧
  (readHeader rx.rxbuf).code = nmgrRequest ∧ HasMemory n.pool (payload rx).length

variable (n) in
/-- A repetition keeps the address and the code. -/
lemma repeatFrame_kept (frame : FrameHeader) :
    (n.repeatFrame frame).frame.dstAddress = frame.dstAddress ∧
      (n.repeatFrame frame).frame.code = frame.code := by
  unfold Instance.repeatFrame
  dsimp only
  split_ifs <;> exact ⟨rfl, rfl⟩

variable (startTxError n) in
/-- What is passed on has the header as it is in the buffer, and the payload. -/
lemma frameScan_passed (h : headerSize ≤ rx.frameLen.toNat) :
    (Passes rx n → ∃ om, om.flat = payload rx ∧
      ((frameScan rx startTxError n).run rx.rxbuf).node.requests.drop n.requests.length =
        [⟨(n.repeatFrame (readHeader rx.rxbuf)).frame, om⟩]) ∧
    (¬Passes rx n →
      ((frameScan rx startTxError n).run rx.rxbuf).node.requests.drop n.requests.length = []) := by
  obtain ⟨hd, hc⟩ := repeatFrame_kept n (readHeader rx.rxbuf)
  have hq : (n.repeatFrame (readHeader rx.rxbuf)).node.requests = n.requests :=
    repeatFrame_requests _
  have none_left {q : List Request} (he : q = n.requests) : q.drop n.requests.length = [] := by
    rw [he, List.drop_length]
  unfold frameScan Passes
  rw [run_bind, run_bind, run_scanHeader, hd, hc]
  split
  case isTrue hn =>
    exact ⟨fun hp => absurd hp.1 (not_or.mpr hn), fun _ => none_left hq⟩
  case isFalse hn =>
    split
    case isFalse hr => exact ⟨fun hp => absurd hp.2.1 hr, fun _ => none_left hq⟩
    case isTrue hr =>
      have hus : (readHeader rx.rxbuf).dstAddress = n.myShortAddress ∨
          (readHeader rx.rxbuf).dstAddress = broadcastAddress := by
        by_contra ho
        exact hn (not_or.mp ho)
      rw [and_iff_right hus, and_iff_right hr, ← Transport.storePayload_isSome]
      unfold requestScan
      have hpay : storePayload n.pool
          (readBytes rx.rxbuf headerSize (rx.frameLen.toNat - headerSize)) =
        storePayload n.pool (payload rx) := rfl
      rw [run_bind, Transport.run_storeScan, payload_toNat h, repeatFrame_pool, hpay]
      cases hs : storePayload n.pool (payload rx) with
      | none => exact ⟨fun hp => absurd hp Bool.false_ne_true, fun _ => none_left hq⟩
      | some r =>
        refine ⟨fun _ => ⟨r.1, Transport.storePayload_flat hs, ?_⟩, fun hp => absurd rfl hp⟩
        rw [← hq]
        exact List.drop_left

end

/-! ## The condition -/

namespace RelayRun
variable {s : RelayRun} {rx : RxInfo} {startTxError : Bool}

/-- The frame in the buffer after the repetition was decided on. -/
def inBuffer (s : RelayRun) (rx : RxInfo) : FrameHeader :=
  (s.node.repeatFrame (readHeader rx.rxbuf)).frame

variable (s startTxError) in
/-- What was done with a frame. -/
lemma heard_fields (h : IsFrame rx) :
    (s.heard rx startTxError).repeated = (s.node.repeatFrame (readHeader rx.rxbuf)).repeats ∧
      (s.heard rx startTxError).sent =
        (if (s.node.repeatFrame (readHeader rx.rxbuf)).repeats && !startTxError
          then some ((s.inBuffer rx).bytes ++ payload rx) else none) ∧
      (Passes rx s.node → ∃ om, om.flat = payload rx ∧
        (s.heard rx startTxError).passed = [⟨s.inBuffer rx, om⟩]) ∧
      (¬Passes rx s.node → (s.heard rx startTxError).passed = []) := by
  obtain ⟨hrep, hsent, -⟩ := frameScan_kept rx startTxError s.node rx.rxbuf
  rw [run_sendScan h.2.2] at hsent
  have hpass := frameScan_passed startTxError s.node h.2.2
  rw [← rxCompleteCb_frame h] at hrep hsent hpass
  exact ⟨hrep, hsent, hpass.1, hpass.2⟩

/-- A frame that cannot be repeated is handled as it should be. -/
lemma heard_right_of_not_relayable (hz : s.node.lastRptSrc = 0) (h : IsFrame rx)
    (hr : ¬Relayable s.node.myShortAddress (readHeader rx.rxbuf)) :
    (s.heard rx startTxError).Right := by
  have hf : s.node.repeatFrame (readHeader rx.rxbuf) = ⟨s.node, readHeader rx.rxbuf, false⟩ := by
    rw [repeatFrame_of_zero hz, if_neg hr]
  obtain ⟨hrep, hsent, hpass, hleft⟩ := heard_fields s startTxError h
  rw [hf] at hrep hsent
  refine ⟨?_, ?_, ?_⟩
  · rw [hrep]
    exact iff_of_false Bool.false_ne_true fun hn => hr hn.2
  · intro bytes hb
    rw [hsent] at hb
    cases hb
  · intro q hq
    by_cases hp : Passes rx s.node
    case pos =>
      obtain ⟨om, hom, he⟩ := hpass hp
      rw [he] at hq
      cases List.mem_singleton.mp hq
      exact ⟨congrArg Repetition.frame hf, hom⟩
    case neg =>
      rw [hleft hp] at hq
      cases hq

/-- A frame that can be repeated is handled as it should be unless it meets one of the slips. -/
lemma heard_right_of_relayable (hz : s.node.lastRptSrc = 0) (h : IsFrame rx)
    (hr : Relayable s.node.myShortAddress (readHeader rx.rxbuf)) :
    (s.heard rx startTxError).Right ↔
      s.last ≠ some ((readHeader rx.rxbuf).srcAddress, (readHeader rx.rxbuf).seqNum) ∧
      (startTxError = true ∨ (readHeader rx.rxbuf).srcAddress = 0) ∧
      ¬((readHeader rx.rxbuf).dstAddress = broadcastAddress ∧
        (readHeader rx.rxbuf).code = nmgrRequest ∧
        HasMemory s.node.pool (payload rx).length) := by
  have hf : s.node.repeatFrame (readHeader rx.rxbuf) =
      ⟨{ s.node with lastRptSrc := 0, lastRptSeqNum := (readHeader rx.rxbuf).seqNum },
        { readHeader rx.rxbuf with
          srcAddress := 0, rptCount := (readHeader rx.rxbuf).rptCount + 1 }, true⟩ := by
    rw [repeatFrame_of_zero hz, if_pos hr]
  have hb : s.inBuffer rx = { readHeader rx.rxbuf with
      srcAddress := 0, rptCount := (readHeader rx.rxbuf).rptCount + 1 } :=
    congrArg Repetition.frame hf
  have hp : Passes rx s.node ↔ (readHeader rx.rxbuf).dstAddress = broadcastAddress ∧
      (readHeader rx.rxbuf).code = nmgrRequest ∧ HasMemory s.node.pool (payload rx).length :=
    and_congr_left' (or_iff_right hr.2.1)
  obtain ⟨hrep, hsent, hpass, hleft⟩ := heard_fields s startTxError h
  rw [hf] at hrep hsent
  rw [← hp]
  constructor
  · intro hR
    refine ⟨(hR.repeated.mp hrep).1, ?_, fun hpasses => ?_⟩
    · cases startTxError with
      | true => exact .inl rfl
      | false =>
        have he := List.append_cancel_right (hR.sent _ hsent)
        rw [hb] at he
        exact .inr (congrArg FrameHeader.srcAddress (bytes_injective he)).symm
    · obtain ⟨om, -, he⟩ := hpass hpasses
      have hq := (hR.passed ⟨s.inBuffer rx, om⟩ (by rw [he]; exact List.mem_singleton_self _)).1
      have hcount : (readHeader rx.rxbuf).rptCount + 1 = (readHeader rx.rxbuf).rptCount := by
        have := congrArg FrameHeader.rptCount hq
        rw [hb] at this
        exact this
      grind
  · rintro ⟨hlast, hsrc, hnot⟩
    refine ⟨iff_of_true hrep ⟨hlast, hr⟩, fun bytes hbytes => ?_, fun q hq => ?_⟩
    · rw [hsent] at hbytes
      cases hsrc with
      | inl he =>
        rw [he] at hbytes
        cases hbytes
      | inr hsrc =>
        cases startTxError with
        | true => cases hbytes
        | false =>
          have he : (s.inBuffer rx).bytes ++ payload rx = bytes := Option.some.inj hbytes
          rw [← he, hb]
          exact congrArg (fun src : UInt16 => FrameHeader.bytes { readHeader rx.rxbuf with
            srcAddress := src, rptCount := (readHeader rx.rxbuf).rptCount + 1 } ++ payload rx) hsrc.symm
    · rw [hleft hnot] at hq
      cases hq

/-- A frame that is handled as it should be meets the condition, and the other way round. -/
lemma heard_right_iff (hz : s.node.lastRptSrc = 0) (h : IsFrame rx) :
    (s.heard rx startTxError).Right ↔ s.Guard (.rx rx startTxError) := by
  by_cases hr : Relayable s.node.myShortAddress (readHeader rx.rxbuf)
  case pos =>
    rw [heard_right_of_relayable hz h hr]
    exact ⟨fun hg _ _ => hg, fun hg => hg h hr⟩
  case neg =>
    exact iff_of_true (heard_right_of_not_relayable hz h hr) fun _ hr' => absurd hr' hr

/-- A frame that was received is logged. -/
lemma log_rx : (s.step (.rx rx startTxError)).log =
    if IsFrame rx then s.log ++ [s.heard rx startTxError] else s.log := rfl

/-- The frames stay right with a step exactly when the frame of the step meets the condition. -/
lemma allRight_step (e : RelayEvent) (hz : s.node.lastRptSrc = 0) (h : s.AllRight) :
    (s.step e).AllRight ↔ s.Guard e := by
  cases e with
  | other sem pool requests => exact iff_of_true h trivial
  | rx rx startTxError =>
    unfold AllRight
    rw [log_rx]
    by_cases hf : IsFrame rx
    case pos =>
      rw [← heard_right_iff hz hf, if_pos hf, List.forall_mem_append, List.forall_mem_singleton]
      exact and_iff_right h
    case neg =>
      rw [if_neg hf]
      exact iff_of_true h fun hf' => absurd hf' hf

/-- At first nothing was repeated. -/
lemma allRight_init (address : UInt16) (pool : Pool) : (init address pool).AllRight :=
  fun _ h => absurd h List.not_mem_nil

/-- The source of the last repetition is never noted. -/
lemma lastRptSrc_step (e : RelayEvent) (hz : s.node.lastRptSrc = 0) :
    (s.step e).node.lastRptSrc = 0 := by
  cases e with
  | other sem pool requests => exact hz
  | rx rx startTxError => exact rxCompleteCb_lastRptSrc hz

end RelayRun

/-- All frames that a node hears are handled as they should be exactly when every frame meets the
    condition. -/
theorem relayedRight_iff (address : UInt16) (pool : Pool) (es : List RelayEvent) :
    (∀ k, ((es.take k).foldl RelayRun.step (.init address pool)).AllRight) ↔
      Allowed RelayRun.step RelayRun.Guard (.init address pool) es := by
  refine (allowed_iff_along (I := fun s => s.node.lastRptSrc = 0)
    (fun s e => RelayRun.lastRptSrc_step e) (fun s e => RelayRun.allRight_step e) es rfl ?_).symm
  exact RelayRun.allRight_init address pool

/-- A frame from node 1 to node 2. -/
def foreignRx : RxInfo where
  fctrl := nmgrFctrl
  frameLen := 13
  rxbuf i := (FrameHeader.mk nmgrFctrl 7 0xdeca 2 1 nmgrRequest 0 4).bytes.getD i 0
  autoackTriggered := false
  cputime := 0

/-- Node 5 repeats it with the source address 0, and repeats it again when it hears it again. -/
theorem relayedRight_fails :
    ¬ (∀ (address : UInt16) (pool : Pool) (es : List RelayEvent),
        (es.foldl RelayRun.step (.init address pool)).AllRight) ∧
      (([.rx foreignRx false, .rx foreignRx false].foldl RelayRun.step
        (.init 5 ⟨16, 560, 48⟩)).log.map Heard.repeated) = [true, true] := by
  refine ⟨fun h => ?_, by decide +kernel⟩
  have hg := (RelayRun.allRight_step (.rx foreignRx false) rfl (RelayRun.allRight_init _ _)).mp
    (h 5 ⟨16, 560, 48⟩ [.rx foreignRx false])
  obtain ⟨-, hsrc, -⟩ := hg (by decide +kernel) (by decide +kernel)
  exact absurd hsrc (by decide +kernel)

end UwbCore.Nmgr
