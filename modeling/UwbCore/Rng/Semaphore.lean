import UwbCore.Rng.Complete

/-!
# The semaphore of the ranging service

`uwb_rng_request` and the blocking `uwb_rng_listen` pend on `rng->sem` twice: for the right to run
an exchange, and for its end, which a callback tells by a release. Between any two of their steps
the callbacks may run, and other calls. A callback releases where the count is 0 only. A call that
releases for itself, after a failed start or at its end, does so on the strength of a pend or of a
count that it saw before; if a callback has released the semaphore since, the count becomes 2. As
long as every call that releases still holds the token there is one token, it is held once, and it
is back when all calls have returned (`disciplined_of_guarded`).
-/

namespace UwbCore.Rng
open UwbCore.Lib

variable {S : Type}

/-- The blocking calls; a request has looked up the frame it will write. -/
inductive CallKind where
  | request (slot : Nat) (dst : UInt16) (code : Code)
  | listen

/-- The points of a call between which other code may run: before the first pend, before the request
    is written, before the start of the radio, before the release after a failed start, before the
    second pend, before the count is looked at, before the last release, and after the return. -/
inductive Point where
  | take | prepare | start | failed | wait | check | giveBack | done
  deriving DecidableEq

/-- A call. It holds the token from a pend on until it, or a callback, releases the semaphore. -/
structure Call where
  kind : CallKind
  point : Point
  holds : Bool

/-- A listen call has nothing to write. -/
def CallKind.afterTake : CallKind → Point
  | .request .. => .prepare
  | .listen => .start

/-- A listen call releases without looking at the count. -/
def CallKind.afterWait : CallKind → Point
  | .request .. => .check
  | .listen => .giveBack

/-- The part of `uwb_rng_request` that runs with `irq_sem` taken. -/
def Node.prepare (cfg : Cfg) (n : Node S) : CallKind → Node S
  | .request slot dst code =>
    let seqNum := n.seqNum + if code.oneSeq then 1 else 2
    { n.setFrame slot (requestFrame cfg code dst seqNum (n.frames slot)) with
      seqNum := seqNum
      rxAckExpected := cfg.reqAck code || n.rxAckExpected }
  | .listen => n

/-- The radio has started; a transmission gets its time. -/
def Node.started (txtime : S) (n : Node S) : CallKind → Node S
  | .request .. => { n with txtime := txtime }
  | .listen => n

/-- One step of a call: `startError` and `txtime` are what becomes of the start of the radio. -/
def Call.step (cfg : Cfg) (startError : Bool) (txtime : S) (n : Node S) (c : Call) :
    Node S × Call :=
  match c.point with
  | .take =>
    if n.sem = 0 then (n, c)
    else (n.pend, { c with point := c.kind.afterTake, holds := true })
  | .prepare => (n.prepare cfg c.kind, { c with point := .start })
  | .start =>
    if startError then (n, { c with point := .failed })
    else (n.started txtime c.kind, { c with point := .wait })
  | .failed => (n.release, { c with point := .wait, holds := false })
  | .wait =>
    if n.sem = 0 then (n, c)
    else (n.pend, { c with point := c.kind.afterWait, holds := true })
  | .check => (n, { c with point := if n.sem = 0 then .giveBack else .done })
  | .giveBack => (n.release, { c with point := .done, holds := false })
  | .done => (n, c)

/-- The next step of the call is a release. -/
def Call.releases (c : Call) : Prop := c.point = .failed ∨ c.point = .giveBack

instance decidableReleases (c : Call) : Decidable c.releases := inferInstanceAs (Decidable (_ ∨ _))

/-- The calls that are made, their steps, and the callbacks. -/
inductive ServiceEvent (S : Type) where
  | request (dst : UInt16) (code : Code)
  | listen
  | run (i : Nat) (startError : Bool) (txtime : S)
  | receive (rx : Rx S) (tx : Tx S)
  | txComplete (tx : Tx S)
  | rxTimeout
  | reset
  | otherTx (txtime : S)

/-- A node with the blocking calls, in the order in which they were made. -/
structure Service (S : Type) where
  node : Node S
  calls : List Call

namespace Service

/-- A new call. The frame of a request is looked up before the first pend. -/
def call (s : Service S) (kind : CallKind) : Service S :=
  { s with calls := s.calls ++ [⟨kind, .take, false⟩] }

/-- A step of one call. -/
def runCall (cfg : Cfg) (s : Service S) (i : Nat) (startError : Bool) (txtime : S) : Service S :=
  match s.calls[i]? with
  | none => s
  | some c =>
    let r := c.step cfg startError txtime s.node
    ⟨r.1, s.calls.set i r.2⟩

/-- A callback that releases the semaphore ends the exchange: its call holds the token no more. -/
def callback (s : Service S) (n : Node S) : Service S where
  node := n
  calls := if s.node.sem < n.sem then s.calls.map ({ · with holds := false }) else s.calls

def step [Stamp S] (cfg : Cfg) (s : Service S) : ServiceEvent S → Service S
  | .request dst code => s.call (.request (cfg.ring.next s.node.idx) dst code)
  | .listen => s.call .listen
  | .run i startError txtime => s.runCall cfg i startError txtime
  | .receive rx tx => s.callback (s.node.rxComplete cfg rx tx).node
  | .txComplete tx => s.callback (s.node.txComplete cfg tx).node
  | .rxTimeout => s.callback s.node.rxTimeout
  | .reset => s.callback s.node.reset
  | .otherTx txtime => { s with node := { s.node with txtime := txtime } }

/-- The number of calls that hold the token. -/
def holders (s : Service S) : Nat := s.calls.countP Call.holds

/-- There is at most one token and one holder, and the token is back when all calls have
    returned. -/
def Disciplined (s : Service S) : Prop :=
  s.node.sem ≤ 1 ∧ s.holders ≤ 1 ∧ ((∀ c ∈ s.calls, c.point = .done) → s.node.sem = 1)

/-- A call that releases the semaphore holds the token. -/
def Guard (s : Service S) : ServiceEvent S → Prop
  | .run i _ _ => ∀ c ∈ s.calls[i]?, c.releases → c.holds = true
  | _ => True

instance decidableDisciplined (s : Service S) : Decidable s.Disciplined :=
  inferInstanceAs (Decidable (_ ∧ _ ∧ ((∀ c ∈ s.calls, c.point = .done) → s.node.sem = 1)))

instance decidableGuard (s : Service S) : (e : ServiceEvent S) → Decidable (s.Guard e)
  | .run i _ _ => inferInstanceAs (Decidable (∀ c ∈ s.calls[i]?, c.releases → c.holds = true))
  | .request .. | .listen | .receive .. | .txComplete _ | .rxTimeout | .reset | .otherTx _ =>
    isTrue trivial

/-- A node after `uwb_rng_init`. -/
def init (zero : S) : Service S := ⟨.init zero, []⟩

end Service

/-! ## A call that nothing comes between -/

/-- The steps of a request up to its second pend, taken in a row, are `Node.request`. -/
theorem request_steps (cfg : Cfg) (slot : Nat) (dst : UInt16) (code : Code) (tx : Tx S)
    (n : Node S) (hs : n.sem ≠ 0) :
    (fun r : Node S × Call => r.2.step cfg tx.startTxError tx.txtime r.1)^[
        if tx.startTxError then 4 else 3] (n, ⟨.request slot dst code, .take, false⟩) =
      ((n.request cfg slot dst code tx).node,
        ⟨.request slot dst code, .wait, !tx.startTxError⟩) := by
  have htake : Call.step cfg tx.startTxError tx.txtime n ⟨.request slot dst code, .take, false⟩ =
      (n.pend, ⟨.request slot dst code, .prepare, true⟩) := if_neg hs
  unfold Node.request Node.send
  rw [if_neg hs]
  cases he : tx.startTxError with
  | true =>
    rw [he] at htake
    simp only [if_true, Function.iterate_succ_apply, Function.iterate_zero_apply, htake]
    rfl
  | false =>
    rw [he] at htake
    simp only [Bool.false_eq_true, if_false, Function.iterate_succ_apply,
      Function.iterate_zero_apply, htake]
    rfl

/-- The same for a listen call, up to the start of the receiver, and `Node.listen`. -/
theorem listen_steps (cfg : Cfg) (startRxError : Bool) (txtime : S) (n : Node S)
    (hs : n.sem ≠ 0) :
    (fun r : Node S × Call => r.2.step cfg startRxError txtime r.1)^[
        if startRxError then 3 else 2] (n, ⟨.listen, .take, false⟩) =
      (n.listen startRxError, ⟨.listen, .wait, !startRxError⟩) := by
  have htake : Call.step cfg startRxError txtime n ⟨.listen, .take, false⟩ =
      (n.pend, ⟨.listen, .start, true⟩) := if_neg hs
  unfold Node.listen
  rw [if_neg hs]
  cases startRxError with
  | true =>
    have hback : n.pend.release = n := by
      have hp : n.sem - 1 + 1 = n.sem := by omega
      unfold Node.pend Node.release
      rw [hp]
    simp only [if_true, Function.iterate_succ_apply, Function.iterate_zero_apply, htake]
    exact congrArg (·, _) hback
  | false =>
    simp only [Bool.false_eq_true, if_false, Function.iterate_succ_apply,
      Function.iterate_zero_apply, htake]
    rfl

/-! ## What the callbacks do to the semaphore -/

/-- The count is as before, or was 0 and is 1. -/
def Raised (n n' : Node S) : Prop := n'.sem = n.sem ∨ n.sem = 0 ∧ n'.sem = 1

section Callbacks
variable {cfg : Cfg} {rx : Rx S} {tx : Tx S} {n n' : Node S} {m : Msg S} {e : Effect S}

/-- Nothing changed. -/
lemma Raised.refl (n : Node S) : Raised n n := .inl rfl

/-- Two changes. -/
lemma Raised.trans {n'' : Node S} (h : Raised n n') (h' : Raised n' n'') : Raised n n'' := by
  unfold Raised at h h' ⊢
  omega

/-- The semaphore stays below two. -/
lemma Raised.le (h : Raised n n') (hs : n.sem ≤ 1) : n'.sem ≤ 1 := by
  unfold Raised at h
  omega

/-- The semaphore is released. -/
lemma Raised.release (hs : n.sem = 0) (h : n'.sem = n.sem) : Raised n n'.release :=
  .inr ⟨hs, by rw [Node.release, h, hs]⟩

/-- The semaphore is released if it is taken. -/
lemma Raised.releaseIfZero (n : Node S) : Raised n n.releaseIfZero := by
  unfold Node.releaseIfZero
  split
  case isTrue hs => exact .release hs rfl
  case isFalse => exact .refl n

/-- A reset. -/
lemma Raised.reset (n : Node S) : Raised n n.reset := by
  unfold Node.reset
  split
  case isTrue hs => exact Raised.release hs rfl
  case isFalse => exact .refl n

/-- A message. -/
lemma Raised.send (hs : n.sem = 0) (h : n'.sem = n.sem) : Raised n (n'.send m tx).node := by
  unfold Node.send
  split
  case isTrue => exact .release hs h
  case isFalse => exact .inl h

/-- The last message. -/
lemma Raised.sendLast (hs : n.sem = 0) (h : n'.sem = n.sem) :
    Raised n (n'.sendLast m tx).node := by
  unfold Node.sendLast
  split
  case isTrue => exact .release hs h
  case isFalse => exact .inl h

/-- The end of single-sided ranging. -/
lemma Raised.ssFinal (hs : n.sem = 0) (h : n'.sem = n.sem) :
    Raised n (ssFinal rx n').node := by
  unfold Rng.ssFinal
  split
  case isTrue => exact .inl h
  case isFalse => exact .release hs h

variable [Stamp S]

/-- One stage of a protocol releases the semaphore once at most. -/
lemma Handled.raised (h : Handled cfg rx tx n e) (hs : n.sem = 0) : Raised n e.node := by
  cases h with
  | ssRequest => exact .send hs rfl
  | ssT1 =>
    unfold Rng.ssT1
    split
    case isTrue => exact .refl n
    case isFalse => exact .sendLast hs rfl
  | ssFinal => exact .ssFinal hs rfl
  | dsRequest =>
    unfold Rng.dsRequest
    split
    case isTrue => exact .send hs rfl
    case isFalse => exact .refl n
  | dsT1 =>
    unfold Rng.dsT1
    split
    case isTrue =>
      dsimp only
      split
      case isTrue => exact .inl rfl
      case isFalse => exact .send hs rfl
    case isFalse => exact .refl n
  | dsT2 =>
    unfold Rng.dsT2
    split
    case isTrue => exact .sendLast hs rfl
    case isFalse => exact .refl n
  | dsFinal => exact .release hs rfl
  | ackReceived => exact .inl rfl
  | ackRequest =>
    unfold TwrSsAck.onRequest
    split
    case isTrue => exact .release hs rfl
    case isFalse => exact .inl rfl
  | ackT1 =>
    unfold TwrSsAck.onT1
    split
    case isTrue => exact .inl rfl
    case isFalse =>
      dsimp only
      split
      case isTrue => exact .inl rfl
      case isFalse => exact .sendLast hs rfl
  | ackFinal => exact .ssFinal hs rfl

/-- Where twr_ss_ack.c leaves a frame to the next, it may have released the semaphore: the ACK was
    not the one expected. -/
lemma TwrSsAck.passed_raised (h : (TwrSsAck.rxComplete cfg rx tx n).2 = false) (hs : n.sem ≤ 1) :
    Raised n (TwrSsAck.rxComplete cfg rx tx n).1.node := by
  unfold TwrSsAck.rxComplete at h ⊢
  dsimp only at h ⊢
  split_ifs at h ⊢ with hf h1
  · exact .refl n
  · exact .refl n
  · exact .release (by omega) rfl
  · unfold TwrSsAck.onFrame at h ⊢
    cases hc : n.clearAcks.code <;> rw [hc] at h <;> first | exact .inl rfl | cases h
  · exact .refl n

/-- A package releases the semaphore only where the count is 0. -/
lemma Package.raised (p : Package) (hs : n.sem ≤ 1) :
    Raised n (p.rxComplete cfg rx tx n).1.node := by
  cases h : (p.rxComplete cfg rx tx n).2 with
  | true =>
    have hh := p.handled h
    have h1 := hh.solicited.2
    exact hh.raised (by omega)
  | false =>
    cases p with
    | twrSsAck => exact TwrSsAck.passed_raised h hs
    | _ =>
      refine .inl (congrArg (fun e => e.node.sem) (whenSolicited_passed h fun hr => ?_))
      cases hc : n.code <;> rw [hc] at hr <;> first | rfl | cases hr

variable (cfg rx tx) in
/-- The packages. -/
lemma packages_raised (ps : List Package) (n : Node S) (hs : n.sem ≤ 1) :
    Raised n (firstOf (ps.map (Package.rxComplete cfg rx tx)) n).node := by
  induction ps generalizing n with
  | nil => exact .refl n
  | cons p ps ih =>
    have hp : Raised n (p.rxComplete cfg rx tx n).1.node := p.raised hs
    rw [List.map_cons, firstOf]
    split
    case isTrue => exact hp
    case isFalse => exact hp.trans (ih _ (hp.le hs))

/-- The shared service. -/
lemma Shared.raised {r : Node S × Bool} (h : Shared cfg rx n r) : Raised n r.1 := by
  cases h with
  | other => exact .releaseIfZero n
  | ignored => exact .refl n
  | unread => exact .inl rfl
  | foreign => exact Raised.releaseIfZero (n.store cfg rx)
  | accepted => exact .inl rfl

/-- A received frame. -/
lemma rxComplete_raised (hs : n.sem ≤ 1) : Raised n (n.rxComplete cfg rx tx).node := by
  have h : Raised n (UwbRng.rxComplete cfg rx { n with fctrl := rx.fctrl }).1 :=
    UwbRng.shared.raised
  unfold Node.rxComplete
  dsimp only
  split
  case isTrue => exact h
  case isFalse => exact h.trans (packages_raised cfg rx tx _ _ (h.le hs))

omit [Stamp S] in
/-- A package at a transmission that is complete. -/
lemma Package.txComplete_raised (p : Package) (hs : n.sem ≤ 1) :
    Raised n (p.txComplete cfg tx n).1.node := by
  cases p with
  | twrSsAck =>
    simp only [Package.txComplete, TwrSsAck.txComplete]
    split_ifs
    · exact .refl n
    · exact .refl n
    · exact .send (by omega) rfl
    · exact .inl rfl
  | _ => exact .refl n

variable (cfg tx) in
omit [Stamp S] in
/-- All packages at a transmission that is complete. -/
lemma packages_txComplete_raised (ps : List Package) (n : Node S) (hs : n.sem ≤ 1) :
    Raised n (firstOf (ps.map (Package.txComplete cfg tx)) n).node := by
  induction ps generalizing n with
  | nil => exact .refl n
  | cons p ps ih =>
    have hp : Raised n (p.txComplete cfg tx n).1.node := p.txComplete_raised hs
    rw [List.map_cons, firstOf]
    split
    case isTrue => exact hp
    case isFalse => exact hp.trans (ih _ (hp.le hs))

omit [Stamp S] in
/-- A completed transmission. -/
lemma txComplete_raised (hs : n.sem ≤ 1) : Raised n (n.txComplete cfg tx).node := by
  unfold Node.txComplete
  rw [firstOf]
  cases UwbRng.txComplete_cases n with
  | inl h =>
    rw [h]
    exact packages_txComplete_raised cfg tx cfg.packages n hs
  | inr h =>
    obtain ⟨h1, n', hn, h⟩ := h
    rw [h, if_pos rfl]
    cases hn with
    | inl hn =>
      rw [hn]
      exact .inl rfl
    | inr hn =>
      have h0 : n.sem = 0 := by omega
      rw [hn]
      exact .inr ⟨h0, congrArg (· + 1) h0⟩

end Callbacks

/-! ## The token -/

namespace Service
variable {cfg : Cfg} {s : Service S}

/-- The invariant: the token is with the semaphore or with one call, and no call that has returned
    has it. -/
structure Inv (s : Service S) : Prop where
  token : s.node.sem + s.holders = 1
  returned : ∀ c ∈ s.calls, c.point = .done → c.holds = false

/-- The semaphore is at most one. -/
lemma Inv.sem_le (h : s.Inv) : s.node.sem ≤ 1 := by
  have := h.token
  omega

/-- While the count is not 0 no call holds the token. -/
lemma Inv.free (h : s.Inv) (hs : s.node.sem ≠ 0) {c : Call} (hc : c ∈ s.calls) :
    c.holds = false := by
  have ht := h.token
  have h0 : s.holders = 0 := by omega
  simpa using List.countP_eq_zero.mp h0 c hc

/-- The invariant says that the semaphore is used in order. -/
lemma Inv.disciplined (h : s.Inv) : s.Disciplined := by
  have ht := h.token
  refine ⟨h.sem_le, by omega, fun hd => ?_⟩
  have h0 : s.holders = 0 := by
    refine List.countP_eq_zero.mpr fun c hc => ?_
    rw [h.returned c hc (hd c hc)]
    exact Bool.false_ne_true
  omega

/-- A call is made. -/
lemma Inv.call (h : s.Inv) (kind : CallKind) : (s.call kind).Inv where
  token := by
    have ht : (s.call kind).holders = s.holders := by simp [Service.call, holders]
    rw [ht]
    exact h.token
  returned c hc hd := by
    cases List.mem_append.mp hc with
    | inl hc => exact h.returned c hc hd
    | inr hc =>
      cases List.mem_singleton.mp hc
      cases hd

/-- A callback takes the token from the call that holds it when it releases the semaphore. -/
lemma Inv.callback (h : s.Inv) {n : Node S} (hn : Raised s.node n) : (s.callback n).Inv := by
  unfold Service.callback
  cases hn with
  | inl hn =>
    rw [if_neg (by omega)]
    exact ⟨by rw [hn]; exact h.token, h.returned⟩
  | inr hn =>
    rw [if_pos (by omega)]
    constructor
    case token =>
      have h0 : (s.calls.map ({ · with holds := false })).countP Call.holds = 0 := by
        rw [List.countP_map]
        exact List.countP_eq_zero.mpr fun c _ => Bool.false_ne_true
      rw [holders, h0, hn.2]
    case returned =>
      intro c hc _
      obtain ⟨c', -, rfl⟩ := List.mem_map.mp hc
      rfl

/-- The token, where one call is replaced. -/
lemma holders_set {i : Nat} {c : Call} (hc : s.calls[i]? = some c) (n : Node S) (c' : Call) :
    holders ⟨n, s.calls.set i c'⟩ + (if c.holds then 1 else 0) =
      s.holders + if c'.holds then 1 else 0 := by
  obtain ⟨hi, rfl⟩ := List.getElem?_eq_some_iff.mp hc
  have hle : (if s.calls[i].holds then 1 else 0) ≤ s.holders := by
    split
    case isTrue h => exact List.countP_pos_iff.mpr ⟨_, List.getElem_mem hi, h⟩
    case isFalse => exact Nat.zero_le _
  have hset := List.countP_set (p := Call.holds) (a := c') hi
  dsimp only [holders] at hle ⊢
  omega

variable (cfg) in
/-- What one step of a call does to the token, whether it takes it, gives it back or leaves it. -/
lemma Inv.call_step (h : s.Inv) {i : Nat} {c : Call} (hc : s.calls[i]? = some c)
    (g : c.releases → c.holds = true) (startError : Bool) (txtime : S) :
    ((c.step cfg startError txtime s.node).1.sem +
        if (c.step cfg startError txtime s.node).2.holds then 1 else 0) =
      (s.node.sem + if c.holds then 1 else 0) ∧
    ((c.step cfg startError txtime s.node).2.point = .done →
      (c.step cfg startError txtime s.node).2.holds = false) := by
  obtain ⟨kind, point, holds⟩ := c
  have hm : (⟨kind, point, holds⟩ : Call) ∈ s.calls := List.mem_of_getElem? hc
  have taken (hs : s.node.sem ≠ 0) : s.node.pend.sem + 1 = s.node.sem + if holds then 1 else 0 := by
    have hh : holds = false := h.free hs hm
    have hle := h.sem_le
    have hp : s.node.pend.sem = s.node.sem - 1 := rfl
    rw [hh, if_neg Bool.false_ne_true]
    omega
  cases point with
  | take =>
    dsimp only [Call.step]
    split
    case isTrue => exact ⟨rfl, fun hd => by cases hd⟩
    case isFalse hs =>
      refine ⟨taken hs, fun hd => ?_⟩
      cases kind <;> cases hd
  | prepare =>
    refine ⟨?_, fun hd => by cases hd⟩
    cases kind <;> rfl
  | start =>
    dsimp only [Call.step]
    split
    case isTrue => exact ⟨rfl, fun hd => by cases hd⟩
    case isFalse =>
      refine ⟨?_, fun hd => by cases hd⟩
      cases kind <;> rfl
  | failed =>
    have hh : holds = true := g (.inl rfl)
    refine ⟨?_, fun hd => by cases hd⟩
    rw [hh]
    rfl
  | wait =>
    dsimp only [Call.step]
    split
    case isTrue => exact ⟨rfl, fun hd => by cases hd⟩
    case isFalse hs =>
      refine ⟨taken hs, fun hd => ?_⟩
      cases kind <;> cases hd
  | check =>
    refine ⟨rfl, fun hd => ?_⟩
    by_cases hs : s.node.sem = 0
    case pos =>
      dsimp only [Call.step] at hd
      rw [if_pos hs] at hd
      cases hd
    case neg =>
      have hh : holds = false := h.free hs hm
      exact hh
  | giveBack =>
    have hh : holds = true := g (.inr rfl)
    refine ⟨?_, fun _ => rfl⟩
    rw [hh]
    rfl
  | done => exact ⟨rfl, fun _ => h.returned _ hm rfl⟩

/-- A call takes a step under the guard. -/
lemma Inv.runCall (h : s.Inv) {i : Nat} {startError : Bool} {txtime : S}
    (g : s.Guard (.run i startError txtime)) : (s.runCall cfg i startError txtime).Inv := by
  unfold Service.runCall
  cases hc : s.calls[i]? with
  | none => exact h
  | some c =>
    obtain ⟨ht, hd⟩ := h.call_step cfg hc (g c hc) startError txtime
    have hs := holders_set hc (c.step cfg startError txtime s.node).1
      (c.step cfg startError txtime s.node).2
    have htok := h.token
    constructor
    case token =>
      dsimp only
      omega
    case returned =>
      intro c' hc' hp
      cases List.mem_or_eq_of_mem_set hc' with
      | inl hc' => exact h.returned c' hc' hp
      | inr hc' =>
        rw [hc'] at hp ⊢
        exact hd hp

variable [Stamp S]

/-- One event under the guard keeps the invariant. -/
lemma Inv.step (h : s.Inv) {e : ServiceEvent S} (g : s.Guard e) : (s.step cfg e).Inv := by
  cases e with
  | request dst code => exact h.call _
  | listen => exact h.call _
  | run => exact h.runCall g
  | receive => exact h.callback (rxComplete_raised h.sem_le)
  | txComplete => exact h.callback (txComplete_raised h.sem_le)
  | rxTimeout => exact h.callback (.releaseIfZero s.node)
  | reset => exact h.callback (.reset s.node)
  | otherTx => exact ⟨h.token, h.returned⟩

omit [Stamp S] in
/-- The session that begins. -/
lemma init_inv (zero : S) : (init zero).Inv := ⟨rfl, fun c hc => by cases hc⟩

/-- In every run in which the calls that release the semaphore hold the token, the semaphore is
    disciplined. -/
theorem disciplined_of_guarded (cfg : Cfg) (zero : S) {s : Service S}
    (rch : Reach (step cfg) Guard (init zero) s) : s.Disciplined :=
  (rch.invariant (init_inv zero) fun _ _ h g => h.step g).disciplined

/-! ## Listen calls that are timed out and reset -/

/-- Steps of the first call. -/
def steps (k : Nat) : List (ServiceEvent (BitVec 32)) := List.replicate k (.run 0 false 0)

/-- Node 1 listens until the time is up, while a request waits, which then fails to start. -/
def timedOut : List (ServiceEvent (BitVec 32)) :=
  [.listen] ++ steps 2 ++ [.request 2 .ssTwr, .rxTimeout] ++ steps 2 ++
    [.run 1 false 0, .run 1 false 0, .run 1 true 0, .run 1 false 0, .run 1 false 0,
      .run 1 false 0, .run 1 false 0]

/-- Both calls have returned and the token is back. -/
theorem disciplined_timedOut :
    (timedOut.foldl (step (Session.twrCfg 1)) (init 0)).Disciplined ∧
    ∀ c ∈ (timedOut.foldl (step (Session.twrCfg 1)) (init 0)).calls, c.point = .done := by
  have hall : Allowed (step (Session.twrCfg 1)) Guard (init 0) timedOut := by decide +kernel
  exact ⟨disciplined_of_guarded _ _ (Reach.of_allowed hall), by decide +kernel⟩

/-- A reset comes between the second pend of a listen call and its release. -/
theorem disciplined_fails :
    ¬ ∀ (cfg : Cfg) (es : List (ServiceEvent (BitVec 32))),
      (es.foldl (step cfg) (init 0)).Disciplined := by
  intro h
  have hc := h (Session.twrCfg 1) ([.listen] ++ steps 2 ++ [.rxTimeout] ++ steps 1 ++ [.reset] ++
    steps 1)
  revert hc
  decide +kernel

end Service

end UwbCore.Rng
