import UwbCore.Rng.Complete

/-!
# Headers of double-sided ranging

A reply of `twr_ds` or `twr_ds_ext` takes its frame control and PAN id from the ring slot it is
built in. The answers of the responder are built in the slot of the message they answer, the second
message of the initiator in the slot after it, where nothing of the exchange has been written. The
headers are right as long as that slot happens to hold the header of an earlier frame of the same
PAN, and no handler runs on a frame that was not copied (`headersOk_of_guarded`).
-/

namespace UwbCore.Rng
open UwbCore.Lib

variable {S : Type}

/-- A frame of a double-sided exchange that a node has started to send, with the PAN id of the
    exchange and the address of the peer. -/
structure DsTransmission (S : Type) where
  frame : TwrFrame S
  panId : UInt16
  peer : UInt16

/-- Frame control, PAN id and both addresses are those of the exchange. -/
def DsTransmission.HeaderOk (cfg : Cfg) (t : DsTransmission S) : Prop :=
  t.frame.fctrl = fctrlRange16 ∧ t.frame.panId = t.panId ∧ t.frame.dstAddress = t.peer ∧
    t.frame.srcAddress = cfg.myShortAddress

/-- A node and the frames of double-sided exchanges it has started to send. -/
structure DsRun (S : Type) where
  node : Node S
  sent : List (DsTransmission S)

namespace DsRun

/-- What an event sends for a double-sided exchange: a request, to the address it is made for, or
    the answer to a message, in the PAN and to the source of that message. -/
def sentBy (cfg : Cfg) (e : Event S) (sent : Option (Msg S)) : List (DsTransmission S) :=
  match e, sent with
  | .request _ dst _ _, some m =>
    if m.frame.code.isDoubleSided then [⟨m.frame, cfg.panId, dst⟩] else []
  | .receive rx _, some m =>
    if m.frame.code.isDoubleSided then
      [⟨m.frame, rx.msg.frame.panId, rx.msg.frame.srcAddress⟩]
    else []
  | _, _ => []

def step [Stamp S] (cfg : Cfg) (s : DsRun S) (e : Event S) : DsRun S where
  node := (e.effect cfg s.node).node
  sent := s.sent ++ sentBy cfg e (e.effect cfg s.node).sent

def HeadersOk (cfg : Cfg) (s : DsRun S) : Prop := ∀ t ∈ s.sent, t.HeaderOk cfg

end DsRun

/-- The slot for the second message of the initiator holds the header of a frame of the PAN of the
    message that is answered. -/
def SlotReady (cfg : Cfg) (n : Node S) (m : Msg S) : Prop :=
  (n.frames (cfg.ring.next (n.idx + 1))).fctrl = fctrlRange16 ∧
    (n.frames (cfg.ring.next (n.idx + 1))).panId = m.frame.panId

/-- The codes that `twr_ds_ext` answers without a look at the length. -/
def Code.unchecked : Code → Bool
  | .dsTwrExt | .dsTwrExtT2 => true
  | _ => false

/-- A message that is answered in the next slot finds a header there, and where a frame is too short
    or too long to be copied, the code that the handlers go by is not one that is answered at every
    length. -/
def DsRun.Guard (cfg : Cfg) (s : DsRun S) : Event S → Prop
  | .receive rx _ =>
    rx.fctrl = fctrlRange16 → s.node.sem ≠ 1 →
      (rx.msg.frame.code = .dsTwrT1 ∨ rx.msg.frame.code = .dsTwrExtT1 →
        SlotReady cfg s.node rx.msg) ∧
      (rx.msg.len < requestLen → s.node.code.unchecked = false) ∧
      (cfg.frameSize < rx.msg.len → rx.msg.frame.code.unchecked = false)
  | _ => True

instance (cfg : Cfg) (n : Node S) (m : Msg S) : Decidable (SlotReady cfg n m) :=
  inferInstanceAs (Decidable (_ ∧ _))

instance (cfg : Cfg) (t : DsTransmission S) : Decidable (t.HeaderOk cfg) :=
  inferInstanceAs (Decidable (_ ∧ _))

instance (cfg : Cfg) (s : DsRun S) : Decidable (s.HeadersOk cfg) :=
  inferInstanceAs (Decidable (∀ t ∈ s.sent, t.HeaderOk cfg))

instance DsRun.decidableGuard (cfg : Cfg) (s : DsRun S) : (e : Event S) → Decidable (s.Guard cfg e)
  | .receive rx _ =>
    inferInstanceAs (Decidable (rx.fctrl = fctrlRange16 → s.node.sem ≠ 1 →
      (rx.msg.frame.code = .dsTwrT1 ∨ rx.msg.frame.code = .dsTwrExtT1 →
        SlotReady cfg s.node rx.msg) ∧
      (rx.msg.len < requestLen → s.node.code.unchecked = false) ∧
      (cfg.frameSize < rx.msg.len → rx.msg.frame.code.unchecked = false)))
  | .request .. | .listen _ | .pend | .giveBack | .giveBackIfZero | .txComplete _ | .rxTimeout
  | .reset | .otherTx _ => isTrue trivial

/-! ## What the handlers send -/

/-- The answer of a double-sided handler: to the source of the current frame, with the frame control
    and the PAN id of the current frame, or of the one after it. -/
def DsAnswer (cfg : Cfg) (rx : Rx S) (n : Node S) (m : Msg S) : Prop :=
  n.code.isTwr = true ∧
    m.frame.dstAddress = (n.frame cfg).srcAddress ∧ m.frame.srcAddress = cfg.myShortAddress ∧
    (m.frame.fctrl = (n.frame cfg).fctrl ∧ m.frame.panId = (n.frame cfg).panId ∧
        (requestLen ≤ rx.msg.len ∧ rx.msg.len ≤ cfg.frameSize ∨ n.code.unchecked = true) ∨
      m.frame.fctrl = (n.frames (cfg.ring.next n.idx)).fctrl ∧
        m.frame.panId = (n.frames (cfg.ring.next n.idx)).panId ∧
        rx.msg.len = responseLen ∧ (n.code = .dsTwrT1 ∨ n.code = .dsTwrExtT1))

/-- What is sent is the message. -/
lemma sent_send {n : Node S} {m m' : Msg S} {tx : Tx S} (h : (n.send m tx).sent = some m') :
    m' = m := by
  unfold Node.send at h
  split at h
  case isTrue => cases h
  case isFalse => cases h; rfl

/-- What is sent is the last message. -/
lemma sent_sendLast {n : Node S} {m m' : Msg S} {tx : Tx S}
    (h : (n.sendLast m tx).sent = some m') : m' = m := by
  unfold Node.sendLast at h
  split at h
  case isTrue => cases h
  case isFalse => cases h; rfl

/-- Single-sided codes. -/
lemma SsPackage.not_doubleSided {request t1 final len} (p : SsPackage request t1 final len) :
    t1.isDoubleSided = false ∧ final.isDoubleSided = false := by cases p <;> exact ⟨rfl, rfl⟩

/-- Which codes are not checked. -/
lemma DsPackage.unchecked {request t1 t2 final len strict}
    (p : DsPackage request t1 t2 final len strict) (h : strict = false) :
    request.unchecked = true ∧ t2.unchecked = true := by
  cases p with
  | twrDs => cases h
  | twrDsExt => exact ⟨rfl, rfl⟩

/-- The codes of double-sided ranging. -/
lemma DsPackage.isTwr {request t1 t2 final len strict}
    (p : DsPackage request t1 t2 final len strict) :
    request.isTwr = true ∧ t1.isTwr = true ∧ t2.isTwr = true := by cases p <;> exact ⟨rfl, rfl, rfl⟩

/-- The codes of the first response. -/
lemma DsPackage.t1_code {request t1 t2 final len strict}
    (p : DsPackage request t1 t2 final len strict) : t1 = .dsTwrT1 ∨ t1 = .dsTwrExtT1 := by
  cases p with
  | twrDs => exact .inl rfl
  | twrDsExt => exact .inr rfl

variable [Stamp S] {cfg : Cfg} {rx : Rx S} {tx : Tx S} {n : Node S} {e : Effect S} {m : Msg S}

/-- A double-sided message comes from a double-sided handler, which answers the current frame. -/
lemma Handled.dsAnswer (h : Handled cfg rx tx n e) (hs : e.sent = some m)
    (hd : m.frame.code.isDoubleSided = true) :
    (rx.fctrl = fctrlRange16 ∧ n.sem ≠ 1) ∧ DsAnswer cfg rx n m := by
  have single {c : Code} (hc : c.isDoubleSided = false) (e : m.frame.code = c) : False := by
    rw [e, hc] at hd
    cases hd
  have size := cfg.frameSize_ge
  cases h with
  | ssRequest p =>
    cases sent_send hs
    exact (single p.not_doubleSided.1 rfl).elim
  | ssT1 p =>
    unfold Rng.ssT1 at hs
    split at hs
    case isTrue => cases hs
    case isFalse =>
      cases sent_sendLast hs
      exact (single p.not_doubleSided.2 rfl).elim
  | ssFinal =>
    unfold Rng.ssFinal at hs
    split at hs <;> cases hs
  | @dsRequest _ _ _ _ _ strict p hc hf hn =>
    refine ⟨⟨hf, hn⟩, ?_⟩
    unfold Rng.dsRequest at hs
    split at hs
    case isTrue hok =>
      cases sent_send hs
      refine ⟨by rw [hc]; exact p.isTwr.1, rfl, rfl, .inl ⟨rfl, rfl, ?_⟩⟩
      cases hstrict : strict with
      | false => exact .inr (by rw [hc]; exact (p.unchecked hstrict).1)
      | true =>
        have hlen : rx.msg.len = requestLen := by simpa [hstrict] using hok
        simp only [requestLen, twrExtFrameSize] at hlen size ⊢
        exact .inl (by omega)
    case isFalse => cases hs
  | dsT1 p hc hf hn =>
    refine ⟨⟨hf, hn⟩, ?_⟩
    unfold Rng.dsT1 at hs
    split at hs
    case isTrue hok =>
      dsimp only at hs
      split at hs
      case isTrue => cases hs
      case isFalse =>
        cases sent_send hs
        refine ⟨by rw [hc]; exact p.isTwr.2.1, rfl, rfl, .inr ⟨rfl, rfl, ?_, ?_⟩⟩
        · simp only [Bool.and_eq_true, decide_eq_true_eq] at hok
          exact hok.2
        · rw [hc]
          exact p.t1_code
    case isFalse => cases hs
  | @dsT2 _ _ _ _ _ strict p hc hf hn =>
    refine ⟨⟨hf, hn⟩, ?_⟩
    unfold Rng.dsT2 at hs
    split at hs
    case isTrue hok =>
      cases sent_sendLast hs
      refine ⟨by rw [hc]; exact p.isTwr.2.2, rfl, rfl, .inl ⟨rfl, rfl, ?_⟩⟩
      cases hstrict : strict with
      | false => exact .inr (by rw [hc]; exact (p.unchecked hstrict).2)
      | true =>
        have hlen : rx.ldeError = false ∧ rx.msg.len = finalLen := by simpa [hstrict] using hok
        simp only [requestLen, finalLen, twrExtFrameSize] at hlen size ⊢
        exact .inl (by omega)
    case isFalse => cases hs
  | dsFinal => cases hs
  | ackReceived => cases hs
  | ackRequest =>
    unfold TwrSsAck.onRequest at hs
    split at hs <;> cases hs
  | ackT1 =>
    unfold TwrSsAck.onT1 at hs
    split at hs
    case isTrue => cases hs
    case isFalse =>
      dsimp only at hs
      split at hs
      case isTrue => cases hs
      case isFalse =>
        cases sent_sendLast hs
        exact (single (c := .ssTwrAckFinal) rfl rfl).elim
  | ackFinal =>
    unfold Rng.ssFinal at hs
    split at hs <;> cases hs

/-- The packages send a double-sided message as an answer to the frame the shared service left. -/
lemma packages_dsAnswer (hs : (firstOf (cfg.packages.map (Package.rxComplete cfg rx tx)) n).sent =
      some m) (hd : m.frame.code.isDoubleSided = true) :
    (rx.fctrl = fctrlRange16 ∧ n.sem ≠ 1) ∧ DsAnswer cfg rx n m := by
  revert m
  refine firstOf_rxComplete (P := fun n e => ∀ {m}, e.sent = some m →
    m.frame.code.isDoubleSided = true →
      (rx.fctrl = fctrlRange16 ∧ n.sem ≠ 1) ∧ DsAnswer cfg rx n m) _ _ ?_ ?_ ?_
  · intro n m hs
    cases hs
  · intro n e h m
    exact h.dsAnswer
  · rintro n n' e ⟨sem, _, _, hsem, rfl⟩ h m hs hd
    obtain ⟨⟨hf, hn⟩, ha⟩ := h hs hd
    exact ⟨⟨hf, fun h1 => hn (hsem h1)⟩, ha⟩

omit [Stamp S] in
/-- A frame that was not copied is not answered under the guard. -/
lemma not_dsAnswer_of_not_copied (hu : n.code.unchecked = false)
    (hl : rx.msg.len < requestLen ∨ cfg.frameSize < rx.msg.len) : ¬ DsAnswer cfg rx n m := by
  have size := cfg.frameSize_ge
  simp only [requestLen, twrExtFrameSize] at hl size
  rintro ⟨_, _, _, ⟨_, _, h⟩ | ⟨_, _, h, _⟩⟩
  · rw [hu] at h
    simp only [requestLen, Bool.false_eq_true, or_false] at h
    omega
  · simp only [responseLen] at h
    omega

/-- Under the guard the answer to a received message has the header of the exchange. -/
lemma headerOk_receive {s : DsRun S} (g : s.Guard cfg (.receive rx tx))
    (hs : (s.node.rxComplete cfg rx tx).sent = some m)
    (hd : m.frame.code.isDoubleSided = true) :
    DsTransmission.HeaderOk cfg ⟨m.frame, rx.msg.frame.panId, rx.msg.frame.srcAddress⟩ := by
  have shared : Shared cfg rx { s.node with fctrl := rx.fctrl }
      (UwbRng.rxComplete cfg rx { s.node with fctrl := rx.fctrl }) := UwbRng.shared
  unfold Node.rxComplete at hs
  revert hs shared
  generalize UwbRng.rxComplete cfg rx { s.node with fctrl := rx.fctrl } = r
  intro hs shared
  cases shared with
  | other hf =>
    obtain ⟨⟨hf', _⟩, _⟩ := packages_dsAnswer hs hd
    exact absurd (.inl hf') hf
  | ignored hi =>
    obtain ⟨⟨hf, hn⟩, ha⟩ := packages_dsAnswer hs hd
    have hl : rx.msg.len < requestLen := hi.resolve_left hn
    exact absurd ha (not_dsAnswer_of_not_copied ((g hf hn).2.1 hl) (.inl hl))
  | unread hu =>
    obtain ⟨⟨hf, hn⟩, ha⟩ := packages_dsAnswer hs hd
    cases hu with
    | inl hu => cases hu.symm.trans ha.1
    | inr hu => exact absurd ha (not_dsAnswer_of_not_copied ((g hf hn).2.2 hu) (.inr hu))
  | foreign => cases hs
  | accepted =>
    obtain ⟨⟨hf, hn⟩, _, hdst, hsrc, ha⟩ := packages_dsAnswer hs hd
    obtain ⟨hcur, hnext, _⟩ :=
      accepted_frame cfg rx { s.node with fctrl := rx.fctrl }
    dsimp only at hdst hsrc ha
    rw [hcur] at hdst ha
    cases ha with
    | inl ha => exact ⟨ha.1.trans hf, ha.2.1, hdst, hsrc⟩
    | inr ha =>
      obtain ⟨hfc, hpan, _, hcode⟩ := ha
      rw [hnext] at hfc hpan
      obtain ⟨rf, rp⟩ := (g hf hn).1 hcode
      exact ⟨hfc.trans rf, hpan.trans rp, hdst, hsrc⟩

omit [Stamp S] in
/-- A request carries the header it is made for. -/
lemma headerOk_request {slot : Nat} {dst : UInt16} {code : Code}
    (hs : (n.request cfg slot dst code tx).sent = some m)
    (hd : m.frame.code.isDoubleSided = true) :
    DsTransmission.HeaderOk cfg ⟨m.frame, cfg.panId, dst⟩ := by
  unfold Node.request at hs
  split at hs
  case isTrue => cases hs
  case isFalse =>
    cases sent_send hs
    have hc : code ≠ .ssTwrAck := by
      rintro rfl
      cases hd
    refine ⟨?_, rfl, rfl, rfl⟩
    simp [requestFrame, Cfg.reqAck, hc]

namespace DsRun

/-- One event under the guard sends right headers only. -/
lemma headersOk_step {s : DsRun S} {e : Event S} (h : s.HeadersOk cfg) (g : s.Guard cfg e) :
    (s.step cfg e).HeadersOk cfg := by
  intro t ht
  cases List.mem_append.mp ht with
  | inl ht => exact h t ht
  | inr ht =>
    unfold sentBy at ht
    split at ht
    case h_1 hs =>
      split at ht
      case isTrue hd =>
        cases List.mem_singleton.mp ht
        exact headerOk_request hs hd
      case isFalse => cases ht
    case h_2 hs =>
      split at ht
      case isTrue hd =>
        cases List.mem_singleton.mp ht
        exact headerOk_receive g hs hd
      case isFalse => cases ht
    case h_3 => cases ht

/-- A node after `uwb_rng_init` with the initial frame ring. -/
def init (zero : S) : DsRun S := ⟨.init zero, []⟩

/-- In every run whose events meet the guard, every frame of a double-sided exchange that is sent
    carries the header of its exchange. -/
theorem headersOk_of_guarded (cfg : Cfg) (zero : S) {s : DsRun S}
    (rch : Reach (step cfg) (Guard cfg) (init zero) s) : s.HeadersOk cfg :=
  rch.invariant (fun _ ht => by cases ht) fun _ _ h g => headersOk_step h g

/-! ## An initiator after three receptions, and one that has just started -/

/-- A message of node 2 to node 1, as node 1 receives it. -/
def dsRx (len : Nat) (code : Code) : Rx (BitVec 32) where
  msg := ⟨len, { TwrFrame.init 0 with
    fctrl := fctrlRange16, seqNum := 1, panId := 0xDECA, dstAddress := 1, srcAddress := 2,
    code := code }⟩
  timestamp := 900
  timestampHigh := 0
  ldeError := false
  autoackTriggered := false
  carrierIntegrator := 0

/-- Node 1 listens, answers a request of node 2 and hears no more of it. -/
def answered : List (Event (BitVec 32)) :=
  [.listen false, .receive (dsRx requestLen .dsTwr) Session.startedTx, .rxTimeout]

/-- Node 1 asks node 2 with the frame `slot` and answers the response. -/
def initiated (slot : Nat) : List (Event (BitVec 32)) :=
  [.request slot 2 .dsTwr Session.startedTx,
    .receive (dsRx responseLen .dsTwrT1) Session.startedTx]

/-- After three receptions the slot after that of the response holds a header. -/
theorem headersOk_initiator :
    ((answered ++ answered ++ answered ++ initiated 3).foldl (step (Session.twrCfg 1))
      (init 0)).HeadersOk (Session.twrCfg 1) ∧
    ((answered ++ answered ++ answered ++ initiated 3).foldl (step (Session.twrCfg 1))
      (init 0)).sent.length = 5 := by
  have hall : Allowed (step (Session.twrCfg 1)) (Guard (Session.twrCfg 1)) (init 0)
      (answered ++ answered ++ answered ++ initiated 3) := by decide +kernel
  exact ⟨headersOk_of_guarded _ _ (Reach.of_allowed hall), by decide +kernel⟩

/-- In the first exchange of a node the second message is built in a slot that holds zeros. -/
theorem headersOk_fails :
    ¬ ∀ (cfg : Cfg) (es : List (Event (BitVec 32))),
      (es.foldl (step cfg) (init 0)).HeadersOk cfg := by
  intro h
  have hc := h (Session.twrCfg 1) (initiated 0)
  revert hc
  decide +kernel

end DsRun

end UwbCore.Rng
