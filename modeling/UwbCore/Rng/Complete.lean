import UwbCore.Lib.Run
import UwbCore.Rng.Handled

/-!
# Completion after a transmission

The handler of the last message but one sets `complete_after_tx`, and `tx_complete_cb` of the shared
service completes the exchange when the flag is set. Nothing ties the flag to a transmission or to
an exchange: a timeout, a reset or a superframe releases the semaphore and leaves the flag. The
completions are those of the last message of the exchange in progress as long as no other
transmission is started, and no call takes the semaphore, while the flag is set
(`completesOwn_of_guarded`).
-/

namespace UwbCore.Rng
open UwbCore.Lib

variable {S : Type}

/-- The codes of the last message of an exchange. -/
def Code.isFinal : Code → Bool
  | .ssTwrFinal | .ssTwrExtFinal | .ssTwrAckFinal | .dsTwrFinal | .dsTwrExtFinal => true
  | _ => false

/-- What happens to the ranging service of a node. `giveBack` is the end of a blocking
    `uwb_rng_listen` and `giveBackIfZero` that of `uwb_rng_request`; `otherTx` is a frame of another
    service, or a hardware ACK, that goes out through the same radio. -/
inductive Event (S : Type) where
  | request (slot : Nat) (dst : UInt16) (code : Code) (tx : Tx S)
  | listen (startRxError : Bool)
  | pend
  | giveBack
  | giveBackIfZero
  | receive (rx : Rx S) (tx : Tx S)
  | txComplete (tx : Tx S)
  | rxTimeout
  | reset
  | otherTx (txtime : S)

/-- What an event does to the node. -/
def Event.effect [Stamp S] (cfg : Cfg) (n : Node S) : Event S → Effect S
  | .request slot dst code tx => n.request cfg slot dst code tx
  | .listen startRxError => (n.listen startRxError).quiet
  | .pend => n.pend.quiet
  | .giveBack => n.release.quiet
  | .giveBackIfZero => n.releaseIfZero.quiet
  | .receive rx tx => n.rxComplete cfg rx tx
  | .txComplete tx => n.txComplete cfg tx
  | .rxTimeout => n.rxTimeout.quiet
  | .reset => n.reset.quiet
  | .otherTx txtime => { n with txtime := txtime }.quiet

/-- The event is a call that gets the semaphore, so that a new exchange begins. -/
def Event.begins (n : Node S) : Event S → Bool
  | .request .. | .listen _ => n.sem ≠ 0
  | _ => false

/-- The radio is used by another service. -/
def Event.isOther : Event S → Bool
  | .otherTx _ => true
  | _ => false

/-- A transmission: the code of its message and the exchange it was started in. -/
structure Transmission where
  code : Code
  exchange : Nat

/-- A completion by `tx_complete_cb`: the transmission that completed and the exchange in
    progress. -/
structure Completion where
  tx : Option Transmission
  exchange : Nat

/-- The transmission that completed is the last message of the exchange in progress. -/
def Completion.Own (c : Completion) : Prop :=
  ∃ tx ∈ c.tx, tx.code.isFinal = true ∧ tx.exchange = c.exchange

/-- A node, the number of its exchanges, the transmission started last (`none` for one of another
    service) and the completions by `tx_complete_cb`. -/
structure Session (S : Type) where
  node : Node S
  exchange : Nat
  lastTx : Option Transmission
  completions : List Completion

namespace Session
variable [Stamp S]

def lastTxAfter (s : Session S) (exchange : Nat) (e : Event S) (sent : Option (Msg S)) :
    Option Transmission :=
  match e, sent with
  | .otherTx _, _ => none
  | _, some m => some ⟨m.frame.code, exchange⟩
  | _, none => s.lastTx

def completionsAfter (s : Session S) (e : Event S) (issued : Bool) : List Completion :=
  match e with
  | .txComplete _ => if issued then s.completions ++ [⟨s.lastTx, s.exchange⟩] else s.completions
  | _ => s.completions

def step (cfg : Cfg) (s : Session S) (e : Event S) : Session S :=
  let exchange := if e.begins s.node then s.exchange + 1 else s.exchange
  { node := (e.effect cfg s.node).node
    exchange := exchange
    lastTx := s.lastTxAfter exchange e (e.effect cfg s.node).sent
    completions := s.completionsAfter e (e.effect cfg s.node).issued }

/-- `tx_complete_cb` completes exchanges on the transmission of their own last message only. -/
def CompletesOwn (s : Session S) : Prop :=
  ∀ c ∈ s.completions, c.Own

/-- While `complete_after_tx` is set, nothing but a last message is started, and no call takes the
    semaphore. -/
def Guard (cfg : Cfg) (s : Session S) (e : Event S) : Prop :=
  s.node.completeAfterTx = true →
    e.begins s.node = false ∧ e.isOther = false ∧
      ∀ m ∈ (e.effect cfg s.node).sent, m.frame.code.isFinal = true

instance (c : Completion) : Decidable c.Own :=
  inferInstanceAs (Decidable (∃ tx ∈ c.tx, _))

instance (s : Session S) : Decidable s.CompletesOwn :=
  inferInstanceAs (Decidable (∀ c ∈ s.completions, c.Own))

instance (cfg : Cfg) (s : Session S) (e : Event S) : Decidable (s.Guard cfg e) :=
  inferInstanceAs (Decidable (s.node.completeAfterTx = true →
    e.begins s.node = false ∧ e.isOther = false ∧
      ∀ m ∈ (e.effect cfg s.node).sent, m.frame.code.isFinal = true))

/-- The invariant: the flag stands for the transmission started last. -/
structure Inv (s : Session S) : Prop where
  pending : s.node.completeAfterTx = true → Completion.Own ⟨s.lastTx, s.exchange⟩
  own : s.CompletesOwn

end Session

/-! ## What the events do to the flag -/

/-- The flag is as before, or was set for the last message that is being sent. -/
def FlagKept (n : Node S) (e : Effect S) : Prop :=
  e.node.completeAfterTx = n.completeAfterTx ∨
    e.node.completeAfterTx = true ∧ ∃ m, e.sent = some m ∧ m.frame.code.isFinal = true

/-- The flag is as it was. -/
lemma FlagKept.of_eq {n : Node S} {e : Effect S}
    (h : e.node.completeAfterTx = n.completeAfterTx) : FlagKept n e := .inl h

/-- Two changes. -/
lemma FlagKept.trans {n n' : Node S} {e : Effect S}
    (h : n'.completeAfterTx = n.completeAfterTx) (h' : FlagKept n' e) : FlagKept n e := by
  cases h' with
  | inl h' => exact .inl (h'.trans h)
  | inr h' => exact .inr h'

/-- The semaphore does not change the flag. -/
lemma completeAfterTx_releaseIfZero (n : Node S) :
    n.releaseIfZero.completeAfterTx = n.completeAfterTx := by
  unfold Node.releaseIfZero
  split <;> rfl

/-- A message does not change the flag. -/
lemma flag_send (n : Node S) (m : Msg S) (tx : Tx S) :
    (n.send m tx).node.completeAfterTx = n.completeAfterTx := by
  unfold Node.send
  split <;> rfl

/-- The last message keeps it, or sets it if it was sent. -/
lemma flag_sendLast {n : Node S} {m : Msg S} {tx : Tx S} (h : m.frame.code.isFinal = true) :
    FlagKept n (n.sendLast m tx) := by
  unfold Node.sendLast
  split
  case isTrue => exact .of_eq rfl
  case isFalse => exact .inr ⟨rfl, m, rfl, h⟩

variable {cfg : Cfg} {rx : Rx S} {tx : Tx S} {n : Node S} {e : Effect S}

/-- The final message of single-sided ranging. -/
lemma SsPackage.final_isFinal {request t1 final len} (p : SsPackage request t1 final len) :
    final.isFinal = true := by cases p <;> rfl

/-- The final message of double-sided ranging. -/
lemma DsPackage.final_isFinal {request t1 t2 final len strict}
    (p : DsPackage request t1 t2 final len strict) : final.isFinal = true := by cases p <;> rfl

/-- The end of single-sided ranging does not change the flag. -/
lemma flag_ssFinal : (ssFinal rx n).node.completeAfterTx = n.completeAfterTx := by
  unfold ssFinal
  split <;> rfl

/-- A request does not change the flag. -/
lemma flag_request {slot dst code} :
    (n.request cfg slot dst code tx).node.completeAfterTx = n.completeAfterTx := by
  unfold Node.request
  split
  case isTrue => rfl
  case isFalse => exact flag_send _ _ _

variable [Stamp S]

/-- One stage of a protocol sets the flag together with the last message only. -/
lemma Handled.flagKept (h : Handled cfg rx tx n e) : FlagKept n e := by
  cases h with
  | ssRequest => exact .of_eq (flag_send _ _ _)
  | ssT1 p =>
    unfold Rng.ssT1
    split
    case isTrue => exact .of_eq rfl
    case isFalse => exact .trans rfl (flag_sendLast p.final_isFinal)
  | ssFinal => exact .of_eq flag_ssFinal
  | dsRequest =>
    unfold Rng.dsRequest
    split
    case isTrue => exact .of_eq (flag_send _ _ _)
    case isFalse => exact .of_eq rfl
  | dsT1 =>
    unfold Rng.dsT1
    split
    case isTrue =>
      dsimp only
      split
      case isTrue => exact .of_eq rfl
      case isFalse => exact .of_eq (flag_send _ _ _)
    case isFalse => exact .of_eq rfl
  | dsT2 p =>
    unfold Rng.dsT2
    split
    case isTrue => exact .trans rfl (flag_sendLast p.final_isFinal)
    case isFalse => exact .of_eq rfl
  | dsFinal => exact .of_eq rfl
  | ackReceived => exact .of_eq rfl
  | ackRequest =>
    unfold TwrSsAck.onRequest
    split <;> exact .of_eq rfl
  | ackT1 =>
    unfold TwrSsAck.onT1
    split
    case isTrue => exact .of_eq rfl
    case isFalse =>
      dsimp only
      split
      case isTrue => exact .of_eq rfl
      case isFalse => exact .trans rfl (flag_sendLast rfl)
  | ackFinal => exact .of_eq flag_ssFinal

/-- The shared service does not change the flag. -/
lemma Shared.flag {r : Node S × Bool} (h : Shared cfg rx n r) :
    r.1.completeAfterTx = n.completeAfterTx := by
  cases h with
  | other => exact completeAfterTx_releaseIfZero n
  | ignored => rfl
  | unread => rfl
  | foreign => exact completeAfterTx_releaseIfZero (n.store cfg rx)
  | accepted => rfl

/-- A frame that is received. -/
lemma flagKept_rxComplete : FlagKept n (n.rxComplete cfg rx tx) := by
  have h : (UwbRng.rxComplete cfg rx { n with fctrl := rx.fctrl }).1.completeAfterTx =
      n.completeAfterTx := UwbRng.shared.flag
  unfold Node.rxComplete
  dsimp only
  split
  case isTrue => exact .of_eq h
  case isFalse =>
    refine .trans h (firstOf_rxComplete _ _ (fun _ => .of_eq rfl) (fun _ _ => Handled.flagKept) ?_)
    rintro n n' e ⟨_, _, _, _, rfl⟩ h'
    exact .trans rfl h'

variable (cfg tx) in
omit [Stamp S] in
/-- The packages neither complete an exchange nor touch the flag. -/
lemma Package.txComplete_flag (p : Package) (n : Node S) :
    (p.txComplete cfg tx n).1.issued = false ∧
      (p.txComplete cfg tx n).1.node.completeAfterTx = n.completeAfterTx := by
  cases p with
  | twrSsAck =>
    simp only [Package.txComplete, TwrSsAck.txComplete]
    split_ifs
    · exact ⟨rfl, rfl⟩
    · exact ⟨rfl, rfl⟩
    · refine ⟨?_, flag_send _ _ _⟩
      unfold Node.send
      split <;> rfl
    · exact ⟨rfl, rfl⟩
  | _ => exact ⟨rfl, rfl⟩

variable (cfg tx) in
omit [Stamp S] in
/-- The packages do not change the flag at a transmission that is complete. -/
lemma packages_txComplete_flag (ps : List Package) (n : Node S) :
    (firstOf (ps.map (Package.txComplete cfg tx)) n).issued = false ∧
      (firstOf (ps.map (Package.txComplete cfg tx)) n).node.completeAfterTx =
        n.completeAfterTx := by
  induction ps generalizing n with
  | nil => exact ⟨rfl, rfl⟩
  | cons p ps ih =>
    rw [List.map_cons, firstOf]
    have hp := p.txComplete_flag cfg tx n
    split
    case isTrue => exact hp
    case isFalse => exact ⟨(ih _).1, (ih _).2.trans hp.2⟩

omit [Stamp S] in
/-- A completed transmission completes an exchange when the flag is set, and never sets it. -/
lemma txComplete_flag (n : Node S) :
    ((n.txComplete cfg tx).issued = true → n.completeAfterTx = true) ∧
      ((n.txComplete cfg tx).node.completeAfterTx = true → n.completeAfterTx = true) := by
  unfold Node.txComplete
  rw [firstOf]
  cases UwbRng.txComplete_cases n with
  | inl h =>
    have hp := packages_txComplete_flag cfg tx cfg.packages n
    rw [h]
    refine ⟨fun hi => ?_, fun hf => hp.2.symm.trans hf⟩
    cases hp.1.symm.trans hi
  | inr h =>
    obtain ⟨_, n', _, h⟩ := h
    rw [h]
    exact ⟨id, fun h => by cases h⟩

variable (cfg) in
/-- No event but a received frame or a completed transmission touches the flag. -/
lemma Event.flagKept (e : Event S) (n : Node S) (ht : ∀ tx, e ≠ .txComplete tx) :
    FlagKept n (e.effect cfg n) := by
  cases e with
  | request => exact .of_eq flag_request
  | listen =>
    refine .of_eq ?_
    dsimp only [Event.effect, Node.quiet, Node.listen]
    split_ifs <;> rfl
  | pend => exact .of_eq rfl
  | giveBack => exact .of_eq rfl
  | giveBackIfZero => exact .of_eq (completeAfterTx_releaseIfZero n)
  | receive => exact flagKept_rxComplete
  | txComplete tx => exact absurd rfl (ht tx)
  | rxTimeout => exact .of_eq (completeAfterTx_releaseIfZero n)
  | reset =>
    refine .of_eq ?_
    dsimp only [Event.effect, Node.quiet, Node.reset]
    split <;> rfl
  | otherTx => exact .of_eq rfl

namespace Session

/-- Where the flag is set after an event, it was set before or comes with a last message. -/
lemma flag_after (e : Event S) (n : Node S) (h : (e.effect cfg n).node.completeAfterTx = true) :
    n.completeAfterTx = true ∨ ∃ m, (e.effect cfg n).sent = some m ∧
      m.frame.code.isFinal = true := by
  by_cases ht : ∃ tx, e = .txComplete tx
  case pos =>
    obtain ⟨tx, rfl⟩ := ht
    exact .inl ((txComplete_flag n).2 h)
  case neg =>
    cases e.flagKept cfg n fun tx he => ht ⟨tx, he⟩ with
    | inl h' => exact .inl (h'.symm.trans h)
    | inr h' => exact .inr h'.2

/-- What was sent is the last transmission. -/
lemma lastTxAfter_sent (s : Session S) {exchange : Nat} {e : Event S} {m : Msg S}
    (h : (e.effect cfg s.node).sent = some m) :
    s.lastTxAfter exchange e (e.effect cfg s.node).sent = some ⟨m.frame.code, exchange⟩ := by
  rw [h]
  cases e with
  | otherTx => cases h
  | _ => rfl

/-- Where nothing is sent the last transmission stays. -/
lemma lastTxAfter_quiet (s : Session S) {exchange : Nat} {e : Event S}
    (h : (e.effect cfg s.node).sent = none) (hne : e.isOther = false) :
    s.lastTxAfter exchange e (e.effect cfg s.node).sent = s.lastTx := by
  rw [h]
  cases e with
  | otherTx => cases hne
  | _ => rfl

/-- A completion that is new stands for the transmission started last. -/
lemma mem_completionsAfter {s : Session S} {e : Event S} {c : Completion}
    (h : c ∈ s.completionsAfter e (e.effect cfg s.node).issued) :
    c ∈ s.completions ∨ s.node.completeAfterTx = true ∧ c = ⟨s.lastTx, s.exchange⟩ := by
  cases e with
  | txComplete tx =>
    dsimp only [completionsAfter] at h
    split at h
    case isTrue hi =>
      cases List.mem_append.mp h with
      | inl h => exact .inl h
      | inr h => exact .inr ⟨(txComplete_flag s.node).1 hi, List.mem_singleton.mp h⟩
    case isFalse => exact .inl h
  | _ => exact .inl h

/-- One event under the guard keeps the invariant. -/
lemma Inv.step {s : Session S} {e : Event S} (h : s.Inv) (g : s.Guard cfg e) :
    (s.step cfg e).Inv := by
  constructor
  case pending =>
    intro hf
    cases flag_after e s.node hf with
    | inl hb =>
      obtain ⟨hx, ho, hm⟩ := g hb
      have hx : (s.step cfg e).exchange = s.exchange := by simp [Session.step, hx]
      rw [hx]
      cases hs : (e.effect cfg s.node).sent with
      | none =>
        have hl : (s.step cfg e).lastTx = s.lastTx := s.lastTxAfter_quiet hs ho
        rw [hl]
        exact h.pending hb
      | some m => exact ⟨_, (s.lastTxAfter_sent hs), hm m hs, hx⟩
    | inr hb =>
      obtain ⟨m, hs, hm⟩ := hb
      exact ⟨_, s.lastTxAfter_sent hs, hm, rfl⟩
  case own =>
    intro c hc
    cases mem_completionsAfter hc with
    | inl hc => exact h.own c hc
    | inr hc =>
      obtain ⟨hb, rfl⟩ := hc
      exact h.pending hb

/-- A node after `uwb_rng_init`. -/
def init (zero : S) : Session S where
  node := .init zero
  exchange := 0
  lastTx := none
  completions := []

omit [Stamp S] in
/-- The session that begins. -/
lemma init_inv (zero : S) : (init zero).Inv where
  pending h := by cases h
  own c hc := by cases hc

/-- In every run whose events meet the guard, `tx_complete_cb` completes an exchange on the
    transmission of its own last message only. -/
theorem completesOwn_of_guarded (cfg : Cfg) (zero : S) {s : Session S}
    (rch : Reach (step cfg) (Guard cfg) (init zero) s) : s.CompletesOwn :=
  (rch.invariant (init_inv zero) fun _ _ h g => h.step g).own

/-! ## A single-sided exchange, completed and reset -/

/-- A node with the packages `twr_ss` and `twr_ds`, 4 frames, and no filter in the radio. -/
def twrCfg (address : UInt16) : Cfg where
  myShortAddress := address
  panId := 0xDECA
  frameFilter := false
  ring := .four
  frameSize := 120
  frameSize_ge := twrExtFrameSize_le
  packages := [.twrSs, .twrDs]

/-- The response of node 2 to the request of node 1, as node 1 receives it. -/
def responseRx : Rx (BitVec 32) where
  msg := ⟨responseLen, { TwrFrame.init 0 with
    fctrl := fctrlRange16, seqNum := 1, dstAddress := 1, srcAddress := 2, code := .ssTwrT1 }⟩
  timestamp := 900
  timestampHigh := 0
  ldeError := false
  autoackTriggered := false
  carrierIntegrator := 0

def startedTx : Tx (BitVec 32) := ⟨0, false, 0⟩

/-- Node 1 has asked node 2, has received its response and has started the final message. -/
def finalStarted : List (Event (BitVec 32)) :=
  [.request 0 2 .ssTwr startedTx, .receive responseRx startedTx]

/-- The final message goes out, and with it the exchange is complete. -/
theorem completesOwn_exchange :
    ((finalStarted ++ [Event.txComplete startedTx]).foldl (step (twrCfg 1))
      (init 0)).CompletesOwn ∧
    ((finalStarted ++ [Event.txComplete startedTx]).foldl (step (twrCfg 1))
      (init 0)).completions.length = 1 := by
  have hall : Allowed (step (twrCfg 1)) (Guard (twrCfg 1)) (init 0)
      (finalStarted ++ [.txComplete startedTx]) := by decide +kernel
  exact ⟨completesOwn_of_guarded _ _ (Reach.of_allowed hall), by decide +kernel⟩

/-- A reset comes before the final message is out, the call returns and asks node 3: the request to
    node 3 completes as if it were a last message. -/
theorem completesOwn_fails :
    ¬ ∀ (cfg : Cfg) (es : List (Event (BitVec 32))),
      (es.foldl (step cfg) (init 0)).CompletesOwn := by
  intro h
  have hc := h (twrCfg 1) (finalStarted ++ [.reset, .pend, .giveBackIfZero,
    .request 1 3 .ssTwr startedTx, .txComplete startedTx])
  revert hc
  decide +kernel

end Session
end UwbCore.Rng
