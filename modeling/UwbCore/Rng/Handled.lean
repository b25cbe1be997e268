import UwbCore.Rng.Handlers

/-!
# What a received frame can do to a node

The receive handlers of the five packages, inverted once: a package that takes a frame runs one
stage of its own protocol on it (`Handled`), and one that leaves the frame to the next changes
nothing but the semaphore and what is expected of ACKs (`AckOnly`). The later modules split on
these cases and unfold the handlers no more.
-/

namespace UwbCore.Rng
open UwbCore.Lib

variable {S : Type}

/-- The codes of a single-sided package, and the length of its response. -/
inductive SsPackage : Code → Code → Code → Nat → Prop where
  | twrSs : SsPackage .ssTwr .ssTwrT1 .ssTwrFinal responseLen
  | twrSsExt : SsPackage .ssTwrExt .ssTwrExtT1 .ssTwrExtFinal twrExtFrameSize

/-- The codes of a double-sided package, the length of its last two messages, and whether it checks
    the frames it answers. -/
inductive DsPackage : Code → Code → Code → Code → Nat → Bool → Prop where
  | twrDs : DsPackage .dsTwr .dsTwrT1 .dsTwrT2 .dsTwrFinal finalLen true
  | twrDsExt :
    DsPackage .dsTwrExt .dsTwrExtT1 .dsTwrExtT2 .dsTwrExtFinal twrExtFrameSize false

/-- The stages that a package runs on a frame it takes. -/
inductive Handled [Stamp S] (cfg : Cfg) (rx : Rx S) (tx : Tx S) (n : Node S) : Effect S → Prop where
  | ssRequest {request t1 final len} :
    SsPackage request t1 final len → n.code = request →
    rx.fctrl = fctrlRange16 → n.sem ≠ 1 →
    Handled cfg rx tx n (ssRequest t1 len cfg rx tx n)
  | ssT1 {request t1 final len} :
    SsPackage request t1 final len → n.code = t1 →
    rx.fctrl = fctrlRange16 → n.sem ≠ 1 →
    Handled cfg rx tx n (ssT1 final len cfg rx tx n)
  | ssFinal {request t1 final len} :
    SsPackage request t1 final len → n.code = final →
    rx.fctrl = fctrlRange16 → n.sem ≠ 1 →
    Handled cfg rx tx n (ssFinal rx n)
  | dsRequest {request t1 t2 final len strict} :
    DsPackage request t1 t2 final len strict → n.code = request →
    rx.fctrl = fctrlRange16 → n.sem ≠ 1 →
    Handled cfg rx tx n (dsRequest t1 (!strict || rx.msg.len = requestLen) cfg rx tx n)
  | dsT1 {request t1 t2 final len strict} :
    DsPackage request t1 t2 final len strict → n.code = t1 →
    rx.fctrl = fctrlRange16 → n.sem ≠ 1 →
    Handled cfg rx tx n
      (dsT1 t2 len (!(strict && rx.ldeError) && rx.msg.len = responseLen) cfg rx tx n)
  | dsT2 {request t1 t2 final len strict} :
    DsPackage request t1 t2 final len strict → n.code = t2 →
    rx.fctrl = fctrlRange16 → n.sem ≠ 1 →
    Handled cfg rx tx n
      (dsT2 final len (!strict || !rx.ldeError && rx.msg.len = finalLen) cfg rx tx n)
  | dsFinal {request t1 t2 final len strict} :
    DsPackage request t1 t2 final len strict → n.code = final →
    rx.fctrl = fctrlRange16 → n.sem ≠ 1 →
    Handled cfg rx tx n n.complete
  | ackReceived :
    rx.Ranging → n.sem ≠ 1 →
    Handled cfg rx tx n
      { n.clearAcks with ackRxTimestamp := rx.rxtimestamp }.quiet
  | ackRequest :
    n.code = .ssTwrAck → rx.Ranging → n.sem ≠ 1 →
    Handled cfg rx tx n (TwrSsAck.onRequest cfg rx n.clearAcks)
  | ackT1 :
    n.code = .ssTwrAckT1 → rx.Ranging → n.sem ≠ 1 →
    Handled cfg rx tx n (TwrSsAck.onT1 cfg rx tx n.clearAcks)
  | ackFinal :
    n.code = .ssTwrAckFinal → rx.Ranging → n.sem ≠ 1 →
    Handled cfg rx tx n (ssFinal rx n.clearAcks)

/-- The node with the frame copied to the slot after the current one. -/
def Node.store [Stamp S] (cfg : Cfg) (rx : Rx S) (n : Node S) : Node S :=
  { n with code := rx.msg.frame.code }.setFrame (cfg.ring.next n.idx)
    ((n.frames (cfg.ring.next n.idx)).receive rx.msg)

/-- What the shared service makes of a frame before the packages see it. -/
inductive Shared [Stamp S] (cfg : Cfg) (rx : Rx S) (n : Node S) : Node S × Bool → Prop where
  | other :
    ¬rx.Ranging →
    Shared cfg rx n (n.releaseIfZero, false)
  | ignored :
    n.sem = 1 ∨ rx.msg.len < requestLen →
    Shared cfg rx n (n, false)
  | unread :
    rx.msg.frame.code.isTwr = false ∨ cfg.frameSize < rx.msg.len →
    Shared cfg rx n ({ n with code := rx.msg.frame.code }, false)
  | foreign :
    Shared cfg rx n ((n.store cfg rx).releaseIfZero, true)
  | accepted :
    rx.Ranging → n.sem ≠ 1 → requestLen ≤ rx.msg.len → rx.msg.len ≤ cfg.frameSize →
    (cfg.frameFilter = false → rx.msg.frame.dstAddress = cfg.myShortAddress) →
    rx.msg.frame.code.isTwr = true →
    Shared cfg rx n ({ n.store cfg rx with idx := n.idx + 1 }, false)

/-- The second node differs from the first in a semaphore that was taken and in what is expected of
    ACKs. -/
def AckOnly (n n' : Node S) : Prop :=
  ∃ sem rxAck txAck, (n.sem = 1 → sem = 1) ∧
    n' = { n with sem := sem, rxAckExpected := rxAck, txAckExpected := txAck }

/-- Two changes. -/
lemma AckOnly.trans {n n' n'' : Node S} (h : AckOnly n n') (h' : AckOnly n' n'') :
    AckOnly n n'' := by
  obtain ⟨_, _, _, hs, rfl⟩ := h
  obtain ⟨_, _, _, hs', rfl⟩ := h'
  exact ⟨_, _, _, fun h => hs' (hs h), rfl⟩

/-- Nothing changed. -/
lemma AckOnly.refl (n : Node S) : AckOnly n n := ⟨_, _, _, id, rfl⟩

/-- The frame of the handlers is a ranging frame and the semaphore is taken. -/
lemma whenSolicited_taken {rx : Rx S} {n : Node S} {r : Effect S × Bool}
    (h : (whenSolicited rx n r).2 = true) :
    rx.fctrl = fctrlRange16 ∧ n.sem ≠ 1 ∧ r.2 = true ∧ whenSolicited rx n r = r := by
  unfold whenSolicited at h ⊢
  split at h
  case isTrue => cases h
  case isFalse hf =>
    split at h
    case isTrue => cases h
    case isFalse hs => exact ⟨not_not.mp hf, hs, h, by rw [if_neg hf, if_neg hs]⟩

/-- A message that is not taken. -/
lemma whenSolicited_passed {rx : Rx S} {n : Node S} {r : Effect S × Bool}
    (h : (whenSolicited rx n r).2 = false) (hr : r.2 = false → r.1 = n.quiet) :
    (whenSolicited rx n r).1 = n.quiet := by
  unfold whenSolicited at h ⊢
  split
  case isTrue => rfl
  case isFalse hf =>
    rw [if_neg hf] at h
    split
    case isTrue => rfl
    case isFalse hs =>
      rw [if_neg hs] at h
      exact hr h

variable [Stamp S] {cfg : Cfg} {rx : Rx S} {tx : Tx S} {n : Node S}

/-- What the shared service does. -/
theorem UwbRng.shared : Shared cfg rx n (UwbRng.rxComplete cfg rx n) := by
  unfold UwbRng.rxComplete
  dsimp only
  split_ifs with hf hs hl ht hz hd
  · exact .ignored (.inl hs)
  · exact .ignored (.inr hl)
  · exact .unread (.inl (by simpa using ht))
  · exact .unread (.inr hz)
  · exact .foreign
  · refine .accepted hf hs (Nat.le_of_not_lt hl) (Nat.le_of_not_lt hz)
      (fun h => ?_) (by simpa using ht)
    by_contra hne
    exact hd ⟨by simp [h], hne⟩
  · exact .other hf

/-- Single-sided ranging. -/
lemma TwrSs.handled (h : (TwrSs.rxComplete cfg rx tx n).2 = true) :
    Handled cfg rx tx n (TwrSs.rxComplete cfg rx tx n).1 := by
  unfold TwrSs.rxComplete at h ⊢
  obtain ⟨hf, hs, hr, e⟩ := whenSolicited_taken h
  rw [e]
  cases hc : n.code <;> rw [hc] at hr <;> try cases hr
  case ssTwr => exact .ssRequest .twrSs hc hf hs
  case ssTwrT1 => exact .ssT1 .twrSs hc hf hs
  case ssTwrFinal => exact .ssFinal .twrSs hc hf hs

/-- Single-sided ranging with positions. -/
lemma TwrSsExt.handled (h : (TwrSsExt.rxComplete cfg rx tx n).2 = true) :
    Handled cfg rx tx n (TwrSsExt.rxComplete cfg rx tx n).1 := by
  unfold TwrSsExt.rxComplete at h ⊢
  obtain ⟨hf, hs, hr, e⟩ := whenSolicited_taken h
  rw [e]
  cases hc : n.code <;> rw [hc] at hr <;> try cases hr
  case ssTwrExt => exact .ssRequest .twrSsExt hc hf hs
  case ssTwrExtT1 => exact .ssT1 .twrSsExt hc hf hs
  case ssTwrExtFinal => exact .ssFinal .twrSsExt hc hf hs

/-- Double-sided ranging. -/
lemma TwrDs.handled (h : (TwrDs.rxComplete cfg rx tx n).2 = true) :
    Handled cfg rx tx n (TwrDs.rxComplete cfg rx tx n).1 := by
  unfold TwrDs.rxComplete at h ⊢
  obtain ⟨hf, hs, hr, e⟩ := whenSolicited_taken h
  rw [e]
  cases hc : n.code <;> rw [hc] at hr <;> try cases hr
  case dsTwr => exact .dsRequest .twrDs hc hf hs
  case dsTwrT1 => exact .dsT1 .twrDs hc hf hs
  case dsTwrT2 => exact .dsT2 .twrDs hc hf hs
  case dsTwrFinal => exact .dsFinal .twrDs hc hf hs

/-- Double-sided ranging with positions. -/
lemma TwrDsExt.handled (h : (TwrDsExt.rxComplete cfg rx tx n).2 = true) :
    Handled cfg rx tx n (TwrDsExt.rxComplete cfg rx tx n).1 := by
  unfold TwrDsExt.rxComplete at h ⊢
  obtain ⟨hf, hs, hr, e⟩ := whenSolicited_taken h
  rw [e]
  cases hc : n.code <;> rw [hc] at hr <;> try cases hr
  case dsTwrExt => exact .dsRequest .twrDsExt hc hf hs
  case dsTwrExtT1 => exact .dsT1 .twrDsExt hc hf hs
  case dsTwrExtT2 => exact .dsT2 .twrDsExt hc hf hs
  case dsTwrExtFinal => exact .dsFinal .twrDsExt hc hf hs

/-- A frame for ranging with acknowledgments. -/
lemma TwrSsAck.handled_frame (h : (TwrSsAck.onFrame cfg rx tx n.clearAcks).2 = true)
    (hf : rx.Ranging) (hs : n.sem ≠ 1) :
    Handled cfg rx tx n (TwrSsAck.onFrame cfg rx tx n.clearAcks).1 := by
  have hn : n.clearAcks.code = n.code := rfl
  unfold TwrSsAck.onFrame at h ⊢
  cases hc : n.code <;> rw [hn, hc] at h <;> rw [hn, hc] <;> try cases h
  case ssTwrAck => exact .ackRequest hc hf hs
  case ssTwrAckT1 => exact .ackT1 hc hf hs
  case ssTwrAckFinal => exact .ackFinal hc hf hs

/-- Ranging with acknowledgments. -/
lemma TwrSsAck.handled (h : (TwrSsAck.rxComplete cfg rx tx n).2 = true) :
    Handled cfg rx tx n (TwrSsAck.rxComplete cfg rx tx n).1 := by
  unfold TwrSsAck.rxComplete at h ⊢
  dsimp only at h ⊢
  split_ifs at h ⊢ with hf hs
  · exact .ackReceived hf hs
  · exact TwrSsAck.handled_frame h hf hs

/-- A package that takes a frame runs one stage of its protocol. -/
theorem Package.handled (p : Package) (h : (p.rxComplete cfg rx tx n).2 = true) :
    Handled cfg rx tx n (p.rxComplete cfg rx tx n).1 := by
  cases p with
  | twrSs => exact TwrSs.handled h
  | twrSsAck => exact TwrSsAck.handled h
  | twrSsExt => exact TwrSsExt.handled h
  | twrDs => exact TwrDs.handled h
  | twrDsExt => exact TwrDsExt.handled h

/-- A frame that is not for it. -/
lemma TwrSsAck.passed_frame (h : (TwrSsAck.onFrame cfg rx tx n.clearAcks).2 = false) :
    AckOnly n (TwrSsAck.onFrame cfg rx tx n.clearAcks).1.node := by
  unfold TwrSsAck.onFrame at h ⊢
  have quiet : AckOnly n n.clearAcks.quiet.node := ⟨_, _, _, id, rfl⟩
  cases hc : n.clearAcks.code <;> rw [hc] at h <;> first | exact quiet | cases h

/-- What it does not take. -/
lemma TwrSsAck.passed (h : (TwrSsAck.rxComplete cfg rx tx n).2 = false) :
    AckOnly n (TwrSsAck.rxComplete cfg rx tx n).1.node := by
  unfold TwrSsAck.rxComplete at h ⊢
  dsimp only at h ⊢
  split_ifs at h ⊢ with hf hs
  · exact .refl n
  · exact .refl n
  · exact ⟨_, _, _, fun h => absurd h hs, rfl⟩
  · exact TwrSsAck.passed_frame h
  · exact .refl n

/-- A package that leaves a frame to the next changes hardly anything. -/
theorem Package.passed (p : Package) (h : (p.rxComplete cfg rx tx n).2 = false) :
    AckOnly n (p.rxComplete cfg rx tx n).1.node := by
  have quiet {e : Effect S} (he : e = n.quiet) : AckOnly n e.node := by
    rw [he]
    exact .refl n
  cases p with
  | twrSsAck => exact TwrSsAck.passed h
  | _ =>
    refine quiet (whenSolicited_passed h fun hr => ?_)
    cases hc : n.code <;> rw [hc] at hr <;> first | rfl | cases hr

/-- What holds of a node that nothing takes the frame from, of every stage, and whatever the packages
    before have left, holds of the packages together. -/
theorem firstOf_rxComplete {P : Node S → Effect S → Prop} (ps : List Package) (n : Node S)
    (quiet : ∀ n, P n n.quiet) (handled : ∀ n e, Handled cfg rx tx n e → P n e)
    (passed : ∀ n n' e, AckOnly n n' → P n' e → P n e) :
    P n (firstOf (ps.map (Package.rxComplete cfg rx tx)) n) := by
  induction ps generalizing n with
  | nil => exact quiet n
  | cons p ps ih =>
    rw [List.map_cons, firstOf]
    split
    case isTrue h => exact handled n _ (p.handled h)
    case isFalse h => exact passed n _ _ (p.passed (by simpa using h)) (ih _)

/-- A stage runs on a ranging frame only, and while the semaphore is taken. -/
lemma Handled.solicited {e : Effect S} (h : Handled cfg rx tx n e) : rx.Ranging ∧ n.sem ≠ 1 := by
  cases h with
  | ssRequest _ _ hf hs => exact ⟨.inl hf, hs⟩
  | ssT1 _ _ hf hs => exact ⟨.inl hf, hs⟩
  | ssFinal _ _ hf hs => exact ⟨.inl hf, hs⟩
  | dsRequest _ _ hf hs => exact ⟨.inl hf, hs⟩
  | dsT1 _ _ hf hs => exact ⟨.inl hf, hs⟩
  | dsT2 _ _ hf hs => exact ⟨.inl hf, hs⟩
  | dsFinal _ _ hf hs => exact ⟨.inl hf, hs⟩
  | ackReceived hf hs => exact ⟨hf, hs⟩
  | ackRequest _ hf hs => exact ⟨hf, hs⟩
  | ackT1 _ hf hs => exact ⟨hf, hs⟩
  | ackFinal _ hf hs => exact ⟨hf, hs⟩

variable (cfg tx) in
/-- A frame that is unsolicited, or no ranging frame, has no effect in the packages. -/
lemma firstOf_unsolicited (ps : List Package) (n : Node S) (h : n.sem = 1 ∨ ¬rx.Ranging) :
    AckOnly n (firstOf (ps.map (Package.rxComplete cfg rx tx)) n).node ∧
      (firstOf (ps.map (Package.rxComplete cfg rx tx)) n).sent = none ∧
      (firstOf (ps.map (Package.rxComplete cfg rx tx)) n).issued = false := by
  revert h
  refine firstOf_rxComplete (P := fun n e => n.sem = 1 ∨ ¬rx.Ranging →
    AckOnly n e.node ∧ e.sent = none ∧ e.issued = false) ps n ?_ ?_ ?_
  · exact fun n _ => ⟨.refl n, rfl, rfl⟩
  · intro n e h hn
    obtain ⟨hr, hs⟩ := h.solicited
    cases hn with
    | inl hn => exact absurd hn hs
    | inr hn => exact absurd hr hn
  · intro n n' e ha h hn
    have hn' : n'.sem = 1 ∨ ¬rx.Ranging := by
      refine hn.imp_left fun h1 => ?_
      obtain ⟨_, _, _, hs, rfl⟩ := ha
      exact hs h1
    exact ⟨ha.trans (h hn').1, (h hn').2⟩

variable (cfg rx) in
/-- A message that was copied is what the handlers find in the current frame. The slots after it and
    before it are as they were. -/
lemma accepted_frame (n : Node S) :
    Node.frame cfg { n.store cfg rx with idx := n.idx + 1 } =
        (n.frames (cfg.ring.next n.idx)).receive rx.msg ∧
      (n.store cfg rx).frames (cfg.ring.next (n.idx + 1)) =
        n.frames (cfg.ring.next (n.idx + 1)) ∧
      (n.store cfg rx).frames (cfg.ring.prev (n.idx + 1)) = n.frame cfg := by
  refine ⟨?_, ?_, ?_⟩
  · simp only [Node.frame, Node.store, cfg.ring.cur_succ, setFrame_self]
  · exact setFrame_of_ne _ _ (cfg.ring.next_succ_ne_next n.idx)
  · rw [cfg.ring.prev_succ]
    exact setFrame_of_ne _ _ (cfg.ring.next_ne_cur n.idx).symm

omit [Stamp S] in
/-- The shared service passes a completed transmission on, or takes it: then it clears the flag, and
    completes the exchange if the flag was set. -/
lemma UwbRng.txComplete_cases (n : Node S) :
    UwbRng.txComplete n = (n.quiet, false) ∨
      n.sem ≠ 1 ∧ ∃ n', (n' = n ∨ n' = n.release) ∧
        UwbRng.txComplete n =
          (⟨{ n' with completeAfterTx := false }, none, n.completeAfterTx⟩, true) := by
  unfold UwbRng.txComplete
  split
  case isTrue => exact .inl rfl
  case isFalse =>
    split
    case isTrue => exact .inl rfl
    case isFalse hs =>
      split
      case isFalse => exact .inl rfl
      case isTrue =>
        refine .inr ⟨hs, ?_⟩
        cases n.completeAfterTx with
        | true => exact ⟨n.release, .inr rfl, rfl⟩
        | false => exact ⟨n, .inl rfl, rfl⟩

end UwbCore.Rng
