import UwbCore.Rng.Outcomes

/-!
# Runs with marked stamps

Each exchange of a run has a number, and every stamp that is measured or received as a whole in it carries
that number. The invariant ties the stamps that the node holds to the progress of its exchange.
-/

namespace UwbCore.Rng
open UwbCore.Lib

/-! ## Runs -/

/-- The shared layer copies the frame into the next slot. -/
def Node.Stores {S T : Type} (cfg : Cfg) (rx : Rx S) (n : Node T) : Prop :=
  rx.Ranging ∧ n.sem ≠ 1 ∧ requestLen ≤ rx.msg.len ∧ rx.msg.frame.code.isTwr = true ∧
    rx.msg.len ≤ cfg.frameSize

instance Node.decidableStores {S T : Type} (cfg : Cfg) (rx : Rx S) (n : Node T) :
    Decidable (n.Stores cfg rx) :=
  inferInstanceAs (Decidable (_ ∧ _))

/-- What the next slot holds is of an older frame once another is copied there. -/
def Node.leave (cfg : Cfg) (n : Node Dated) : Node Dated :=
  n.setFrame (cfg.ring.next n.idx) ((n.frames (cfg.ring.next n.idx)).map Marked.leftOver)

/-- The node as an event finds it. -/
def Event.before (cfg : Cfg) (n : Node Dated) : Event Dated → Node Dated
  | .receive rx _ => if n.Stores cfg rx then n.leave cfg else n
  | _ => n

/-- A completion: its exchange and the time stamps of its result. -/
structure Result where
  exchange : Nat
  stamps : List Dated

/-- A node, the number of its exchanges, whether it has transmitted in the one in progress, the code
    of its answer to the current frame, and the completions. -/
structure FreshRun where
  node : Node Dated
  exchange : Nat
  sent : Bool
  answer : Option Code
  results : List Result

namespace FreshRun

/-- An event at a node with its stamps of exchange `exchange`. -/
def dated (exchange : Nat) (e : Event (BitVec 32)) : Event Dated := e.map (⟨·, some exchange⟩)

def begins (s : FreshRun) (e : Event (BitVec 32)) : Bool := (dated s.exchange e).begins s.node

/-- The exchange an event belongs to. -/
def exchangeOf (s : FreshRun) (e : Event (BitVec 32)) : Nat :=
  if s.begins e then s.exchange + 1 else s.exchange

def effect (cfg : Cfg) (s : FreshRun) (e : Event (BitVec 32)) : Effect Dated :=
  (dated (s.exchangeOf e) e).effect cfg ((dated (s.exchangeOf e) e).before cfg s.node)

def step (cfg : Cfg) (s : FreshRun) (e : Event (BitVec 32)) : FreshRun where
  node := (s.effect cfg e).node
  exchange := s.exchangeOf e
  sent := (s.effect cfg e).sent.isSome || e.isOther || !s.begins e && s.sent
  answer :=
    if s.begins e then none
    else if (s.effect cfg e).node.idx ≠ s.node.idx then (s.effect cfg e).sent.map (·.frame.code)
    else s.answer
  results :=
    if (s.effect cfg e).issued then
      s.results ++ [⟨s.exchangeOf e, usedStamps cfg (s.effect cfg e).node⟩]
    else s.results

/-- Every stamp of a result was measured or received in its exchange. -/
def FromReceived (s : FreshRun) : Prop :=
  ∀ r ∈ s.results, ∀ t ∈ r.stamps, t.mark = some r.exchange

/-- A node after `uwb_rng_init`, whatever its ring holds. -/
def start (frames : Table (TwrFrame (BitVec 32))) : FreshRun where
  node := { Node.init ⟨0, none⟩ with frames := fun i => (frames i).map (⟨·, none⟩) }
  exchange := 0
  sent := false
  answer := none
  results := []

/-- The codes of messages that are handled at every length, up to a completion. -/
def unsized : Code → Bool
  | .dsTwrExtT2 | .dsTwrFinal | .dsTwrExtFinal => true
  | _ => false

/-- The first 27 bytes of a frame hold its time stamps. -/
def stampsLen : Nat := 27

/-- The node has answered a request of a double-sided exchange with the current frame. -/
def Answered (s : FreshRun) : Prop := s.answer = some .dsTwrT1 ∨ s.answer = some .dsTwrExtT1

/-- The node has answered the response in the current frame. -/
def Confirmed (s : FreshRun) : Prop := s.answer = some .dsTwrT2 ∨ s.answer = some .dsTwrExtT2

/-- A message comes where its exchange has got to: a response after a transmission, the second
    message after the answer to a request, and the last one after the answer to a response, both
    with all time stamps. -/
structure InOrder (s : FreshRun) (m : Msg (BitVec 32)) (ldeError : Bool) : Prop where
  response : m.frame.code = .ssTwrT1 ∨ m.frame.code = .dsTwrT1 ∨ m.frame.code = .dsTwrExtT1 →
    m.len = responseLen → ldeError = false → s.sent = true
  second : m.frame.code = .dsTwrT2 → m.len = finalLen → ldeError = false → s.Answered
  secondExt : m.frame.code = .dsTwrExtT2 → stampsLen ≤ m.len ∧ s.Answered
  last : m.frame.code = .dsTwrFinal ∨ m.frame.code = .dsTwrExtFinal →
    stampsLen ≤ m.len ∧ s.Confirmed

/-- Frames that are copied come in order, and of those that are not none is handled at every length.
    No ranging frame is handled while `complete_after_tx` is set. -/
def Handles (cfg : Cfg) (s : FreshRun) : Event (BitVec 32) → Prop
  | .receive rx _ =>
    rx.Ranging → s.node.sem ≠ 1 →
      if rx.msg.len < requestLen then
        s.node.completeAfterTx = false ∧ unsized s.node.code = false
      else if cfg.frameSize < rx.msg.len then
        s.node.completeAfterTx = false ∧ unsized rx.msg.frame.code = false
      else
        cfg.frameFilter = true ∨ rx.msg.frame.dstAddress = cfg.myShortAddress →
          s.node.completeAfterTx = false ∧ s.InOrder rx.msg rx.ldeError
  | _ => True

/-- No call takes the semaphore while `complete_after_tx` is set, and frames are handled in order. -/
def Guard (cfg : Cfg) (s : FreshRun) (e : Event (BitVec 32)) : Prop :=
  (s.node.completeAfterTx = true → s.begins e = false) ∧ s.Handles cfg e

instance decidableAnswered (s : FreshRun) : Decidable s.Answered :=
  inferInstanceAs (Decidable (_ ∨ _))

instance decidableConfirmed (s : FreshRun) : Decidable s.Confirmed :=
  inferInstanceAs (Decidable (_ ∨ _))

instance decidableInOrder (s : FreshRun) (m : Msg (BitVec 32)) (ldeError : Bool) :
    Decidable (s.InOrder m ldeError) :=
  decidable_of_iff ((m.frame.code = .ssTwrT1 ∨ m.frame.code = .dsTwrT1 ∨
      m.frame.code = .dsTwrExtT1 → m.len = responseLen → ldeError = false → s.sent = true) ∧
    (m.frame.code = .dsTwrT2 → m.len = finalLen → ldeError = false → s.Answered) ∧
    (m.frame.code = .dsTwrExtT2 → stampsLen ≤ m.len ∧ s.Answered) ∧
    (m.frame.code = .dsTwrFinal ∨ m.frame.code = .dsTwrExtFinal →
      stampsLen ≤ m.len ∧ s.Confirmed))
    ⟨fun ⟨h1, h2, h3, h4⟩ => ⟨h1, h2, h3, h4⟩, fun h => ⟨h.1, h.2, h.3, h.4⟩⟩

instance decidableHandles (cfg : Cfg) (s : FreshRun) :
    (e : Event (BitVec 32)) → Decidable (s.Handles cfg e)
  | .receive rx _ =>
    inferInstanceAs (Decidable (rx.Ranging → s.node.sem ≠ 1 →
      if rx.msg.len < requestLen then
        s.node.completeAfterTx = false ∧ unsized s.node.code = false
      else if cfg.frameSize < rx.msg.len then
        s.node.completeAfterTx = false ∧ unsized rx.msg.frame.code = false
      else
        cfg.frameFilter = true ∨ rx.msg.frame.dstAddress = cfg.myShortAddress →
          s.node.completeAfterTx = false ∧ s.InOrder rx.msg rx.ldeError))
  | .request .. | .listen _ | .pend | .giveBack | .giveBackIfZero | .txComplete _ | .rxTimeout
  | .reset | .otherTx _ => isTrue trivial

instance decidableGuard (cfg : Cfg) (s : FreshRun) (e : Event (BitVec 32)) :
    Decidable (s.Guard cfg e) :=
  inferInstanceAs (Decidable ((_ → s.begins e = false) ∧ s.Handles cfg e))

instance decidableFromReceived (s : FreshRun) : Decidable s.FromReceived :=
  inferInstanceAs (Decidable (∀ r ∈ s.results, ∀ t ∈ r.stamps, _))

end FreshRun

/-! ## The invariant -/

namespace FreshRun

/-- The stamp was measured or received in the exchange. -/
def Of (exchange : Nat) (t : Dated) : Prop := t.mark = some exchange

/-- What the progress of the exchange says of the stamps that the node holds. -/
structure Inv (cfg : Cfg) (s : FreshRun) : Prop where
  txtime : s.sent = true → Of s.exchange s.node.txtime
  sent : s.answer.isSome = true → s.sent = true
  answered : s.Answered → (s.node.frame cfg).Half (Of s.exchange)
  confirmed : s.Confirmed → (s.node.frame cfg).Full (Of s.exchange)
  pending : s.node.completeAfterTx = true → s.sent = true ∧ s.node.Used (Of s.exchange) cfg
  results : s.FromReceived

variable {cfg : Cfg} {s : FreshRun} {e : Event (BitVec 32)} {rx : Rx Dated} {n : Node Dated}

/-- There was an answer. -/
lemma Answered.isSome (h : s.Answered) : s.answer.isSome = true := by
  cases h with
  | inl h => rw [h]; rfl
  | inr h => rw [h]; rfl

/-- There was an answer. -/
lemma Confirmed.isSome (h : s.Confirmed) : s.answer.isSome = true := by
  cases h with
  | inl h => rw [h]; rfl
  | inr h => rw [h]; rfl

/-- The same exchange goes on. -/
lemma exchangeOf_of_not_begins (hb : s.begins e = false) : s.exchangeOf e = s.exchange := by
  rw [exchangeOf, hb]
  rfl

variable (cfg) in
/-- What was sent in this exchange. -/
lemma step_sent (hb : s.begins e = false) (ho : e.isOther = false) :
    (s.step cfg e).sent = ((s.effect cfg e).sent.isSome || s.sent) := by
  rw [step, hb, ho, Bool.or_false, Bool.not_false, Bool.true_and]

/-- The answer is that to the current frame. -/
lemma step_answer (hb : s.begins e = false) (hi : (s.effect cfg e).node.idx = s.node.idx) :
    (s.step cfg e).answer = s.answer := by
  rw [step, hb]
  exact if_neg (not_not.mpr hi)

/-- New results are those of completions. -/
lemma Inv.results_step (h : s.Inv cfg) (hi : (s.effect cfg e).issued = true →
    (s.effect cfg e).node.Used (Of (s.exchangeOf e)) cfg) : (s.step cfg e).FromReceived := by
  intro r hr
  rw [step] at hr
  dsimp only at hr
  split at hr
  case isTrue his =>
    cases List.mem_append.mp hr with
    | inl hr => exact h.results r hr
    | inr hr =>
      cases List.mem_singleton.mp hr
      exact hi his
  case isFalse => exact h.results r hr

/-- An event in the exchange whose outcome is known, from a node that the shared layer has copied
    the frame into, or that has the frames and the stamps of before. -/
lemma Inv.of_outcome (h : s.Inv cfg) (hb : s.begins e = false) (ho : e.isOther = false)
    (o : Outcome (Of s.exchange) cfg rx n (s.effect cfg e)) (htx : n.txtime = s.node.txtime)
    (hkeep : n.idx = s.node.idx → Skipped cfg rx ∧ n.frame cfg = s.node.frame cfg) :
    (s.step cfg e).Inv cfg := by
  have hx : (s.step cfg e).exchange = s.exchange := exchangeOf_of_not_begins hb
  have hsent := step_sent cfg hb ho
  have hanswer : (s.step cfg e).answer = if n.idx ≠ s.node.idx then
      (s.effect cfg e).sent.map (·.frame.code) else s.answer := by
    rw [step, hb, ← o.idx]
    rfl
  have code {c c' : Code} (hne : n.idx ≠ s.node.idx)
      (ha : (s.step cfg e).answer = some c ∨ (s.step cfg e).answer = some c') :
      ∃ m, (s.effect cfg e).sent = some m ∧ (m.frame.code = c ∨ m.frame.code = c') := by
    rw [hanswer, if_pos hne, Option.map_eq_some_iff, Option.map_eq_some_iff] at ha
    obtain ⟨m, hm, hc⟩ | ⟨m, hm, hc⟩ := ha
    · exact ⟨m, hm, .inl hc⟩
    · exact ⟨m, hm, .inr hc⟩
  have same (heq : n.idx = s.node.idx) : (s.step cfg e).answer = s.answer := by
    rw [hanswer, if_neg (not_not.mpr heq)]
  refine ⟨fun hs => ?_, fun ha => ?_, fun ha => ?_, fun hc => ?_, fun hp => ?_, h.results_step ?_⟩
  · rw [hx]
    cases hes : (s.effect cfg e).sent with
    | some m => exact o.txtime (by rw [hes]; rfl)
    | none =>
      rw [hsent, hes] at hs
      have ht : (s.step cfg e).node.txtime = s.node.txtime := (o.kept hes).trans htx
      rw [ht]
      exact h.txtime hs
  · rw [hsent, Bool.or_eq_true]
    by_cases heq : n.idx = s.node.idx
    case pos =>
      rw [same heq] at ha
      exact .inr (h.sent ha)
    case neg =>
      rw [hanswer, if_pos heq, Option.isSome_map] at ha
      exact .inl ha
  · rw [hx]
    by_cases heq : n.idx = s.node.idx
    case pos =>
      obtain ⟨hskip, hcur⟩ := hkeep heq
      rw [Answered, same heq] at ha
      exact o.half hskip (by rw [hcur]; exact h.answered ha)
    case neg =>
      obtain ⟨m, hm, hcode⟩ := code heq ha
      exact o.answered m hm hcode
  · rw [hx]
    by_cases heq : n.idx = s.node.idx
    case pos =>
      obtain ⟨hskip, hcur⟩ := hkeep heq
      rw [Confirmed, same heq] at hc
      exact o.full hskip (by rw [hcur]; exact h.confirmed hc)
    case neg =>
      obtain ⟨m, hm, hcode⟩ := code heq hc
      exact o.confirmed m hm hcode
  · obtain ⟨hs, hu⟩ := o.pending hp
    rw [hx, hsent, hs]
    exact ⟨rfl, hu⟩
  · rw [exchangeOf_of_not_begins hb]
    exact o.issued

/-- An event in the exchange that changes nothing a result uses. -/
lemma Inv.of_same (h : s.Inv cfg) (hb : s.begins e = false) (ho : e.isOther = false)
    (hu : SameUse cfg s.node (s.effect cfg e).node) (hs : (s.effect cfg e).sent = none)
    (hi : (s.effect cfg e).issued = true → s.node.completeAfterTx = true) :
    (s.step cfg e).Inv cfg := by
  have hx : (s.step cfg e).exchange = s.exchange := exchangeOf_of_not_begins hb
  have hsent : (s.step cfg e).sent = s.sent := by
    rw [step_sent cfg hb ho, hs]
    rfl
  have hanswer : (s.step cfg e).answer = s.answer := step_answer hb hu.idx
  refine ⟨?_, ?_, ?_, ?_, ?_, h.results_step fun his => ?_⟩
  · rw [hx, hsent]
    exact fun hs => hu.txtime.symm ▸ h.txtime hs
  · rw [hanswer, hsent]
    exact h.sent
  · rw [hx, Answered, hanswer]
    exact fun ha => hu.cur.symm ▸ h.answered ha
  · rw [hx, Confirmed, hanswer]
    exact fun hc => hu.cur.symm ▸ h.confirmed hc
  · rw [hx, hsent]
    intro hp
    obtain ⟨hs, hused⟩ := h.pending (hu.flag hp)
    exact ⟨hs, hu.used hused⟩
  · rw [exchangeOf_of_not_begins hb]
    exact hu.used (h.pending (hi his)).2

variable (cfg) in
/-- What a call that gets the semaphore sends is of the new exchange. -/
lemma effect_begins (hb : s.begins e = true) :
    (s.effect cfg e).node.completeAfterTx = s.node.completeAfterTx ∧
      ((s.effect cfg e).sent.isSome = true → Of (s.exchangeOf e) (s.effect cfg e).node.txtime) ∧
      (s.effect cfg e).issued = false := by
  cases e with
  | request slot dst code tx =>
    have hsem : s.node.sem ≠ 0 := of_decide_eq_true hb
    have he : s.effect cfg (.request slot dst code tx) = s.node.request cfg slot dst code
        (tx.map (⟨·, some (s.exchangeOf (.request slot dst code tx))⟩)) := rfl
    refine ⟨flag_request, ?_⟩
    rw [he, Node.request, if_neg hsem, Node.send]
    split
    case isTrue => exact ⟨fun hs => absurd hs Bool.false_ne_true, rfl⟩
    case isFalse => exact ⟨fun _ => rfl, rfl⟩
  | listen startRxError =>
    have he : s.effect cfg (.listen startRxError) = (s.node.listen startRxError).quiet := rfl
    refine ⟨?_, fun hs => absurd hs Bool.false_ne_true, rfl⟩
    rw [he, Node.listen]
    dsimp only [Node.quiet]
    split_ifs <;> rfl
  | _ => cases hb

/-- A call that gets the semaphore begins an exchange, in which no stamp is used yet. -/
lemma Inv.of_begins (h : s.Inv cfg) (hb : s.begins e = true)
    (hf : s.node.completeAfterTx = false) : (s.step cfg e).Inv cfg := by
  have ha : (s.step cfg e).answer = none := by
    rw [step, hb]
    rfl
  have hsent : (s.step cfg e).sent = true → (s.effect cfg e).sent.isSome = true := by
    rw [step, hb, Bool.not_true, Bool.false_and, Bool.or_false]
    cases e <;> first | cases hb | exact fun hs => by simpa [Event.isOther] using hs
  obtain ⟨hflag, htime, hi⟩ := effect_begins cfg hb
  refine ⟨fun hs => htime (hsent hs), fun hs => ?_, fun hs => ?_, fun hs => ?_, fun hp => ?_,
    h.results_step fun his => ?_⟩
  · rw [ha] at hs
    cases hs
  · have hsome := hs.isSome
    rw [ha] at hsome
    cases hsome
  · have hsome := hs.isSome
    rw [ha] at hsome
    cases hsome
  · cases hf.symm.trans (hflag.symm.trans hp)
  · cases hi.symm.trans his

/-- A frame of another service leaves its own time of transmission. -/
lemma Inv.of_otherTx (h : s.Inv cfg) (txtime : BitVec 32) :
    (s.step cfg (.otherTx txtime)).Inv cfg := by
  have ha : (s.step cfg (.otherTx txtime)).answer = s.answer := step_answer rfl rfl
  refine ⟨fun _ => rfl, fun _ => rfl, ?_, ?_, fun hp => ⟨rfl, (h.pending hp).2⟩, h.results⟩
  · rw [Answered, ha]
    exact h.answered
  · rw [Confirmed, ha]
    exact h.confirmed

/-- A completed transmission that is left to twr_ss_ack.c. -/
lemma Inv.of_txDone (h : s.Inv cfg) (hb : s.begins e = false) (ho : e.isOther = false)
    (hd : TxDone (Of s.exchange) cfg s.node (s.effect cfg e)) : (s.step cfg e).Inv cfg := by
  have hx : (s.step cfg e).exchange = s.exchange := exchangeOf_of_not_begins hb
  have hsent := step_sent cfg hb ho
  have hanswer := step_answer hb hd.idx
  refine ⟨fun hs => ?_, fun ha => ?_, fun ha => ?_, fun hc => ?_, fun hp => ?_,
    h.results_step fun his => ?_⟩
  · rw [hx]
    cases hes : (s.effect cfg e).sent with
    | some m => exact hd.txtime (by rw [hes]; rfl)
    | none =>
      rw [hsent, hes] at hs
      have ht : (s.step cfg e).node.txtime = s.node.txtime := hd.kept hes
      rw [ht]
      exact h.txtime hs
  · rw [hanswer] at ha
    rw [hsent, h.sent ha, Bool.or_true]
  · rw [Answered, hanswer] at ha
    rw [hx]
    exact hd.half (h.txtime (h.sent (Answered.isSome ha))) (h.answered ha)
  · rw [Confirmed, hanswer] at hc
    rw [hx]
    exact hd.full (h.txtime (h.sent (Confirmed.isSome hc))) (h.confirmed hc)
  · obtain ⟨hs, hu⟩ := h.pending (hd.flag hp)
    rw [hx, hsent, hs, Bool.or_true]
    exact ⟨rfl, hd.used (h.txtime hs) hu⟩
  · cases hd.issued.symm.trans his

/-- A completed transmission completes an exchange with the stamps at hand. -/
lemma Inv.of_txComplete (h : s.Inv cfg) (tx : Tx (BitVec 32)) :
    (s.step cfg (.txComplete tx)).Inv cfg := by
  have hb : s.begins (.txComplete tx) = false := rfl
  have he : s.effect cfg (.txComplete tx) =
      s.node.txComplete cfg (tx.map (⟨·, some s.exchange⟩)) := rfl
  rw [Node.txComplete, firstOf] at he
  cases UwbRng.txComplete_cases s.node with
  | inl hp =>
    rw [hp] at he
    refine h.of_txDone hb rfl ?_
    rw [he]
    exact packages_txDone _ rfl
  | inr hp =>
    obtain ⟨-, n', hn', hp⟩ := hp
    rw [hp] at he
    have hu : SameUse cfg s.node { n' with completeAfterTx := false } := by
      cases hn' with
      | inl hn' =>
        rw [hn']
        exact ⟨rfl, rfl, fun hf => absurd hf Bool.false_ne_true, rfl, rfl⟩
      | inr hn' =>
        rw [hn']
        exact ⟨rfl, rfl, fun hf => absurd hf Bool.false_ne_true, rfl, rfl⟩
    refine h.of_same hb rfl ?_ ?_ ?_
    · rw [he]
      exact hu
    · rw [he]
      rfl
    · rw [he]
      exact id

end FreshRun

end UwbCore.Rng
