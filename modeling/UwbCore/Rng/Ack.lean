import UwbCore.Rng.AckStages

/-!
# Single-sided ranging with hardware ACKs

The initiator keeps the time of the ACK of its request in `ack_rx_timestamp` until the response
arrives, and never clears it: a zero stands for an ACK that has not come only until the first one
has. Time stamps carry the ACK they were taken from. The response time of a frame that gets the code
`SS_TWR_ACK_FINAL` is that of the ACK of its own request as long as no response is handled in an
exchange whose ACK was not taken (`ownAcks_of_guarded`).
-/

namespace UwbCore.Rng
open UwbCore.Lib

/-- An ACK: the exchange it was received in, and its sequence number. -/
structure AckId where
  exchange : Nat
  seqNum : UInt8
  deriving DecidableEq

abbrev AckStamp := Marked AckId

/-- A frame that got the code `SS_TWR_ACK_FINAL`: the exchange it belongs to, the sequence number of
    the request of that exchange if it began with one, and the response time. -/
structure AckFinal where
  exchange : Nat
  request : Option UInt8
  response : AckStamp

/-- The response time is that of the ACK of the request. -/
def AckFinal.Own (f : AckFinal) : Prop :=
  ∃ q ∈ f.request, f.response.mark = some ⟨f.exchange, q⟩

/-- A node, the number of its exchanges, the sequence number of the request that began the one in
    progress, whether its ACK was taken, and the frames that got the last code. -/
structure AckRun where
  node : Node AckStamp
  exchange : Nat
  request : Option UInt8
  acked : Bool
  finals : List AckFinal

namespace AckRun

/-- A received frame, with its time marked if it is an ACK. -/
def markedRx (exchange : Nat) (rx : Rx (BitVec 32)) : Rx AckStamp :=
  { rx.map (⟨·, none⟩) with
    timestamp := ⟨rx.timestamp,
      if rx.fctrl = fctrlFrameTypeAck then some ⟨exchange, rx.msg.frame.seqNum⟩ else none⟩ }

/-- The event with the time of a received ACK marked. -/
def marked (exchange : Nat) : Event (BitVec 32) → Event AckStamp
  | .receive rx tx => .receive (markedRx exchange rx) (tx.map (⟨·, none⟩))
  | e => e.map (⟨·, none⟩)

def begins (s : AckRun) (e : Event (BitVec 32)) : Bool := (marked s.exchange e).begins s.node

def exchangeOf (s : AckRun) (e : Event (BitVec 32)) : Nat :=
  if s.begins e then s.exchange + 1 else s.exchange

def effect (cfg : Cfg) (s : AckRun) (e : Event (BitVec 32)) : Effect AckStamp :=
  (marked (s.exchangeOf e) e).effect cfg s.node

/-- The sequence number of the request, for a call that makes one. -/
def newRequest (seqNum : UInt16) : Event (BitVec 32) → Option UInt8
  | .request .. => some seqNum.toUInt8
  | _ => none

/-- The request of the exchange that the event belongs to. -/
def requestOf (cfg : Cfg) (s : AckRun) (e : Event (BitVec 32)) : Option UInt8 :=
  if s.begins e then newRequest (s.effect cfg e).node.seqNum e else s.request

def takesAck (cfg : Cfg) (s : AckRun) : Event (BitVec 32) → Bool
  | .receive rx _ => TakesAck cfg s.node rx
  | _ => false

/-- A frame that was received under another code has the code `SS_TWR_ACK_FINAL` now. -/
def getsFinal (cfg : Cfg) (s : AckRun) (e : Event (BitVec 32)) : Bool :=
  match e with
  | .receive rx _ =>
    rx.msg.frame.code ≠ .ssTwrAckFinal ∧ (s.effect cfg e).node.idx ≠ s.node.idx ∧
      ((s.effect cfg e).node.frame cfg).code = .ssTwrAckFinal
  | _ => false

def step (cfg : Cfg) (s : AckRun) (e : Event (BitVec 32)) : AckRun where
  node := (s.effect cfg e).node
  exchange := s.exchangeOf e
  request := s.requestOf cfg e
  acked := !s.begins e && (s.acked || s.takesAck cfg e)
  finals :=
    if s.getsFinal cfg e then
      s.finals ++ [⟨s.exchangeOf e, s.requestOf cfg e, ((s.effect cfg e).node.frame cfg).response⟩]
    else s.finals

def OwnAcks (s : AckRun) : Prop := ∀ f ∈ s.finals, f.Own

/-- A response that is handled with a time of an ACK at hand comes in an exchange that began with a
    request and has taken its ACK. -/
def Guard (cfg : Cfg) (s : AckRun) : Event (BitVec 32) → Prop
  | .receive rx _ =>
    TakesResponse cfg s.node rx →
      s.node.ackRxTimestamp.isZero = true ∨ s.request.isSome = true ∧ s.acked = true
  | _ => True

instance decidableOwn (f : AckFinal) : Decidable f.Own :=
  inferInstanceAs (Decidable (∃ q ∈ f.request, _))

instance decidableOwnAcks (s : AckRun) : Decidable s.OwnAcks :=
  inferInstanceAs (Decidable (∀ f ∈ s.finals, f.Own))

instance decidableGuard (cfg : Cfg) (s : AckRun) :
    (e : Event (BitVec 32)) → Decidable (s.Guard cfg e)
  | .receive rx _ =>
    inferInstanceAs (Decidable (TakesResponse cfg s.node rx →
      s.node.ackRxTimestamp.isZero = true ∨ s.request.isSome = true ∧ s.acked = true))
  | .request .. | .listen _ | .pend | .giveBack | .giveBackIfZero | .txComplete _ | .rxTimeout
  | .reset | .otherTx _ => isTrue trivial

/-- A node after `uwb_rng_init`. -/
def init : AckRun where
  node := .init ⟨0, none⟩
  exchange := 0
  request := none
  acked := false
  finals := []

end AckRun

/-! ## Runs -/

namespace AckRun
variable {cfg : Cfg} {s : AckRun} {e : Event (BitVec 32)}

/-- The ACK that was taken in the exchange gave its time, under the sequence number of the node,
    which is that of the request. -/
structure Inv (s : AckRun) : Prop where
  acked : s.acked = true →
    s.node.ackRxTimestamp.low.mark = some ⟨s.exchange, s.node.seqNum.toUInt8⟩
  request : ∀ q ∈ s.request, q = s.node.seqNum.toUInt8
  finals : s.OwnAcks

/-- The same exchange goes on. -/
lemma exchangeOf_of_not_begins (hb : s.begins e = false) : s.exchangeOf e = s.exchange := by
  rw [exchangeOf, hb]
  rfl

/-- With the same request. -/
lemma requestOf_of_not_begins (hb : s.begins e = false) : s.requestOf cfg e = s.request := by
  rw [requestOf, hb]
  rfl

/-- Only a frame brings the final message. -/
lemma getsFinal_of_not_receive (hr : ∀ rx tx, e ≠ .receive rx tx) :
    s.getsFinal cfg e = false := by
  cases e with
  | receive rx tx => exact absurd rfl (hr rx tx)
  | _ => rfl

/-- Without a final message none is added. -/
lemma step_finals (hf : s.getsFinal cfg e = false) : (s.step cfg e).finals = s.finals := by
  rw [step, hf]
  rfl

/-- A call that gets the semaphore begins an exchange without an ACK. -/
lemma Inv.of_begins (h : s.Inv) (hb : s.begins e = true) : (s.step cfg e).Inv := by
  have ha : (s.step cfg e).acked = false := by
    rw [step, hb]
    rfl
  have hr : (s.step cfg e).request = newRequest (s.step cfg e).node.seqNum e := if_pos hb
  refine ⟨fun hacked => absurd (ha.symm.trans hacked) Bool.false_ne_true, fun q hq => ?_, ?_⟩
  · rw [hr] at hq
    cases e with
    | request => cases hq; rfl
    | _ => cases hq
  · rw [OwnAcks, step_finals (getsFinal_of_not_receive fun rx tx he => ?_)]
    · exact h.finals
    · rw [he] at hb
      cases hb

/-- An event in the exchange that is no reception. -/
lemma Inv.of_other (h : s.Inv) (hb : s.begins e = false) (hr : ∀ rx tx, e ≠ .receive rx tx) :
    (s.step cfg e).Inv := by
  have hx := exchangeOf_of_not_begins hb
  have hk : Kept s.node (s.effect cfg e).node := by
    rw [effect, hx]
    refine Event.kept hb fun rx tx he => ?_
    cases e with
    | receive rx tx => exact hr rx tx rfl
    | _ => cases he
  have ha : (s.step cfg e).acked = s.acked := by
    rw [step, hb]
    cases e with
    | receive rx tx => exact absurd rfl (hr rx tx)
    | _ => exact Bool.or_false _
  refine ⟨fun hacked => ?_, fun q hq => ?_, ?_⟩
  · have hn : (s.step cfg e).node = (s.effect cfg e).node := rfl
    have hex : (s.step cfg e).exchange = s.exchange := hx
    rw [hn, hk.ackTime, hk.seqNum, hex]
    exact h.acked (ha.symm.trans hacked)
  · have hn : (s.step cfg e).node.seqNum = s.node.seqNum := hk.seqNum
    have hq' : (s.step cfg e).request = s.request := requestOf_of_not_begins hb
    rw [hq'] at hq
    rw [hn]
    exact h.request q hq
  · rw [OwnAcks, step_finals (getsFinal_of_not_receive hr)]
    exact h.finals

/-- An acknowledgment is marked with its time. -/
lemma markedRx_mark {x : Nat} {rx : Rx (BitVec 32)} (hf : rx.fctrl = fctrlFrameTypeAck) :
    (markedRx x rx).rxtimestamp.low.mark = some ⟨x, rx.msg.frame.seqNum⟩ := if_pos hf

/-- The time of the ACK that the exchange has taken, before the event or by it. -/
lemma Inv.acked_receive (h : s.Inv) {rx : Rx (BitVec 32)} (tx : Tx AckStamp)
    (ha : s.acked = true ∨ TakesAck cfg s.node rx) :
    (s.node.rxComplete cfg (markedRx s.exchange rx) tx).node.ackRxTimestamp.low.mark =
      some ⟨s.exchange, s.node.seqNum.toUInt8⟩ := by
  cases ha with
  | inl ha =>
    obtain ⟨-, hk | ⟨hf, hq, ht⟩⟩ := rxComplete_ackTime cfg (markedRx s.exchange rx) tx s.node
    · rw [hk]
      exact h.acked ha
    · rw [ht, markedRx_mark hf, ← hq]
      rfl
  | inr ht =>
    rw [rxComplete_takes (markedRx s.exchange rx) ht, markedRx_mark ht.1, ← ht.2.2.2.1]

/-- A received frame. -/
lemma Inv.of_receive (h : s.Inv) {rx : Rx (BitVec 32)} {tx : Tx (BitVec 32)}
    (g : s.Guard cfg (.receive rx tx)) : (s.step cfg (.receive rx tx)).Inv := by
  have he : s.effect cfg (.receive rx tx) =
      s.node.rxComplete cfg (markedRx s.exchange rx) (tx.map (⟨·, none⟩)) := rfl
  obtain ⟨hseq, -⟩ := rxComplete_ackTime cfg (markedRx s.exchange rx) (tx.map (⟨·, none⟩)) s.node
  rw [← he] at hseq
  have hacked : (s.step cfg (.receive rx tx)).acked =
      (s.acked || decide (TakesAck cfg s.node rx)) := rfl
  refine ⟨fun ha => ?_, fun q hq => ?_, ?_⟩
  · rw [hacked, Bool.or_eq_true, decide_eq_true_eq] at ha
    have hm := h.acked_receive (tx.map (⟨·, none⟩)) ha
    rw [← he, ← hseq] at hm
    exact hm
  · exact (h.request q hq).trans (congrArg UInt16.toUInt8 hseq.symm)
  · intro f hf
    cases hg : s.getsFinal cfg (.receive rx tx) with
    | false =>
      rw [step_finals hg] at hf
      exact h.finals f hf
    | true =>
      have hfs : (s.step cfg (.receive rx tx)).finals = s.finals ++ [⟨s.exchange, s.request,
          ((s.effect cfg (.receive rx tx)).node.frame cfg).response⟩] := if_pos hg
      rw [hfs] at hf
      cases List.mem_append.mp hf with
      | inl hf => exact h.finals f hf
      | inr hf =>
        cases List.mem_singleton.mp hf
        obtain ⟨hc, hi, hcode⟩ := of_decide_eq_true hg
        rw [he] at hi hcode ⊢
        obtain ⟨htakes, hz, hres⟩ := rxComplete_reported (markedRx s.exchange rx) hc hi hcode
        obtain ⟨hreq, ha⟩ := (g htakes).resolve_left (Bool.eq_false_iff.mp hz)
        obtain ⟨q, hq⟩ := Option.isSome_iff_exists.mp hreq
        refine ⟨q, hq, ?_⟩
        rw [hres, h.acked ha, h.request q hq]

/-- One event under the guard keeps the invariant. -/
lemma Inv.step (h : s.Inv) (g : s.Guard cfg e) : (s.step cfg e).Inv := by
  cases hb : s.begins e with
  | true => exact h.of_begins hb
  | false =>
    cases e with
    | receive rx tx => exact h.of_receive g
    | _ => exact h.of_other hb fun rx tx he => by cases he

/-- The node that begins. -/
lemma init_inv : init.Inv := by
  refine ⟨fun h => absurd h Bool.false_ne_true, fun q hq => ?_, fun f hf => ?_⟩
  · cases hq
  · cases hf

/-- In every run whose events meet the guard, a frame gets the code `SS_TWR_ACK_FINAL` with the time
    of the ACK of its own request only. -/
theorem ownAcks_of_guarded (cfg : Cfg) {s : AckRun}
    (rch : Reach (step cfg) (Guard cfg) init s) : s.OwnAcks :=
  (rch.invariant init_inv fun _ _ h g => h.step g).finals

/-! ## An exchange with its ACK, and one after it without -/

/-- Node 1 with the package `twr_ss_ack`. -/
def ackCfg : Cfg := { Session.twrCfg 1 with packages := [.twrSsAck] }

/-- An ACK of five bytes. -/
def ackRx (seqNum : UInt8) : Rx (BitVec 32) where
  msg := ⟨5, { TwrFrame.init 0 with fctrl := fctrlFrameTypeAck, seqNum := seqNum }⟩
  timestamp := 700
  timestampHigh := 0
  ldeError := false
  autoackTriggered := false
  carrierIntegrator := 0

/-- Node 1 asks node 2, hears `acks`, answers the response of node 2 and returns. -/
def ackExchange (acks : List (Event (BitVec 32))) : List (Event (BitVec 32)) :=
  [.request 0 2 .ssTwrAck Session.startedTx] ++ acks ++
    [.receive (DsRun.dsRx responseLen .ssTwrAckT1) Session.startedTx,
      .txComplete Session.startedTx, .pend, .giveBackIfZero]

/-- Two exchanges with their ACKs. -/
theorem ownAcks_exchanges :
    ((ackExchange [.receive (ackRx 2) Session.startedTx] ++
      ackExchange [.receive (ackRx 4) Session.startedTx]).foldl (step ackCfg) init).OwnAcks ∧
    ((ackExchange [.receive (ackRx 2) Session.startedTx] ++
      ackExchange [.receive (ackRx 4) Session.startedTx]).foldl (step ackCfg)
        init).finals.length = 2 := by
  have hall : Allowed (step ackCfg) (Guard ackCfg) init
      (ackExchange [.receive (ackRx 2) Session.startedTx] ++
        ackExchange [.receive (ackRx 4) Session.startedTx]) := by decide +kernel
  exact ⟨ownAcks_of_guarded _ (Reach.of_allowed hall), by decide +kernel⟩

/-- The ACK of the second exchange is lost, and that of the first one is used again. -/
theorem ownAcks_fails :
    ¬ ∀ (cfg : Cfg) (es : List (Event (BitVec 32))), (es.foldl (step cfg) init).OwnAcks := by
  intro h
  have hc := h ackCfg (ackExchange [.receive (ackRx 2) Session.startedTx] ++ ackExchange [])
  revert hc
  decide +kernel

end AckRun

end UwbCore.Rng
