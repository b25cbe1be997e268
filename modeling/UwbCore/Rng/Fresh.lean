import UwbCore.Rng.FreshRun

/-!
# Ranging results from received bytes

The shared layer copies a received frame over what its slot of the ring held, and each handler
checks the length of its own message or does not. Every time stamp carries the exchange in which it
was measured or received as a whole; what a frame leaves of the slot's older bytes carries none. A
completion of `twr_ss`, `twr_ds` or `twr_ds_ext` uses stamps of its own exchange as long as the
messages come in their order and the last ones in full length (`fromReceived_of_guarded`).
-/

namespace UwbCore.Rng
open UwbCore.Lib

namespace FreshRun

variable {cfg : Cfg} {s : FreshRun} {e : Event (BitVec 32)} {rx : Rx Dated} {n : Node Dated}

/-- A frame that was not copied is handled under the guard by stages that look at its length. -/
lemma ready_of_skipped (hf : n.completeAfterTx = false) (hs : Skipped cfg rx)
    (hu : unsized n.code = false) (F : Dated → Prop) : StampsReady F cfg rx n where
  flag := hf
  response _ hlen := absurd hs (not_skipped_of_len hlen (by decide) (by decide))
  single hlen := absurd hs (not_skipped_of_len hlen (by decide) (by decide))
  second _ hlen := absurd hs (not_skipped_of_len hlen (by decide) (by decide))
  secondExt hc := by
    rw [hc] at hu
    cases hu
  last hc := by
    cases hc with
    | inl hc => rw [hc] at hu; cases hu
    | inr hc => rw [hc] at hu; cases hu

variable (cfg s) in
/-- The node that receives has the frames in use and the semaphore of before. -/
lemma before_same (e : Event Dated) : SameUse cfg s.node (e.before cfg s.node) ∧
    (e.before cfg s.node).sem = s.node.sem ∧ (e.before cfg s.node).code = s.node.code ∧
    (e.before cfg s.node).completeAfterTx = s.node.completeAfterTx := by
  cases e with
  | receive rx tx =>
    rw [Event.before]
    split
    case isTrue => exact ⟨.next _, rfl, rfl, rfl⟩
    case isFalse => exact ⟨.refl _, rfl, rfl, rfl⟩
  | _ => exact ⟨.refl _, rfl, rfl, rfl⟩

/-- The next number is another. -/
lemma succ_ne_self (i : UInt16) : i + 1 ≠ i := by
  intro h
  have := congrArg UInt16.toNat h
  simp only [UInt16.toNat_add, UInt16.reduceToNat] at this
  have := i.toNat_lt
  omega

/-- A frame with all its time stamps, copied in an exchange. -/
lemma receive_full {x : Nat} (f : TwrFrame Dated) {m : Msg (BitVec 32)} (h : stampsLen ≤ m.len) :
    (f.receive (m.map (⟨·, some x⟩))).Full (Of x) := by
  have h27 : 27 ≤ m.len := h
  refine ⟨⟨?_, ?_⟩, ?_, ?_⟩
  · exact congrArg Marked.mark (Stamp.overlay_full _ _ _ (by change 4 ≤ m.len - 11; omega))
  · exact congrArg Marked.mark (Stamp.overlay_full _ _ _ (by change 4 ≤ m.len - 15; omega))
  · exact congrArg Marked.mark (Stamp.overlay_full _ _ _ (by change 4 ≤ m.len - 19; omega))
  · exact congrArg Marked.mark (Stamp.overlay_full _ _ _ (by change 4 ≤ m.len - 23; omega))

/-- A response has the stamps of the responder. -/
lemma receive_half {x : Nat} (f : TwrFrame Dated) {m : Msg (BitVec 32)} (h : m.len = responseLen) :
    (f.receive (m.map (⟨·, some x⟩))).Half (Of x) := by
  obtain ⟨h1, h2, -⟩ := receive_response f (m.map (Marked.mk · (some x))) h
  rw [TwrFrame.Half, h1, h2]
  exact ⟨rfl, rfl⟩

/-- A frame that was copied and comes in order is handled with stamps of the exchange. -/
lemma Inv.ready (h : s.Inv cfg) {rx : Rx (BitVec 32)} (hsame : SameUse cfg s.node n)
    (hf : n.completeAfterTx = false) (order : s.InOrder rx.msg rx.ldeError) :
    StampsReady (Of s.exchange) cfg (rx.map (⟨·, some s.exchange⟩))
      { Node.store cfg (rx.map (⟨·, some s.exchange⟩)) { n with fctrl := rx.fctrl } with
        idx := n.idx + 1 } := by
  obtain ⟨hcur, -, hprev⟩ := accepted_frame cfg (rx.map (Marked.mk · (some s.exchange)))
    { n with fctrl := rx.fctrl }
  have time (ha : s.Answered ∨ s.Confirmed ∨ s.sent = true) : Of s.exchange n.txtime := by
    rw [hsame.txtime]
    refine h.txtime ?_
    obtain ha | hc | hs := ha
    · exact h.sent ha.isSome
    · exact h.sent hc.isSome
    · exact hs
  have hprev : (Node.store cfg (rx.map (⟨·, some s.exchange⟩)) { n with fctrl := rx.fctrl }).frames
      (cfg.ring.prev (n.idx + 1)) = s.node.frame cfg := hprev.trans hsame.cur
  refine ⟨hf, fun hc hl hlde => ?_, fun hl _ => ?_, fun hc hl hlde => ?_, fun hc => ?_,
    fun hc => ?_⟩
  · rw [hcur]
    exact ⟨time (.inr (.inr (order.response hc hl hlde))), receive_half _ hl⟩
  · rw [hcur]
    refine ⟨rfl, receive_full _ ?_⟩
    rw [show rx.msg.len = finalLen from hl]
    decide
  · rw [hcur]
    refine ⟨time (.inl (order.second hc hl hlde)), receive_full _ ?_, ?_⟩
    · rw [show rx.msg.len = finalLen from hl]
      decide
    · exact hprev ▸ h.answered (order.second hc hl hlde)
  · rw [hcur]
    obtain ⟨hl, ha⟩ := order.secondExt hc
    exact ⟨time (.inl ha), receive_full _ hl, hprev ▸ h.answered ha⟩
  · rw [hcur]
    obtain ⟨hl, ha⟩ := order.last hc
    exact ⟨receive_full _ hl, hprev ▸ h.confirmed ha⟩

/-- A received frame under the guard. -/
lemma Inv.of_receive (h : s.Inv cfg) {rx : Rx (BitVec 32)} {tx : Tx (BitVec 32)}
    (g : s.Guard cfg (.receive rx tx)) : (s.step cfg (.receive rx tx)).Inv cfg := by
  have hb : s.begins (.receive rx tx) = false := rfl
  obtain ⟨hsame, hsem, hcode, hflag⟩ := before_same cfg s (dated s.exchange (.receive rx tx))
  have he : s.effect cfg (.receive rx tx) =
      ((dated s.exchange (.receive rx tx)).before cfg s.node).rxComplete cfg
        (rx.map (⟨·, some s.exchange⟩)) (tx.map (⟨·, some s.exchange⟩)) := rfl
  have quiet {n : Node Dated} (hu : SameUse cfg n (s.effect cfg (.receive rx tx)).node ∧
      (s.effect cfg (.receive rx tx)).sent = none ∧
      (s.effect cfg (.receive rx tx)).issued = false) (hn : SameUse cfg s.node n) :
      (s.step cfg (.receive rx tx)).Inv cfg :=
    h.of_same hb rfl (hn.trans hu.1) hu.2.1
      fun hi => absurd (hu.2.2.symm.trans hi) Bool.false_ne_true
  by_cases hn : s.node.sem = 1 ∨ ¬rx.Ranging
  case pos =>
    refine quiet ?_ hsame
    rw [he]
    refine rxComplete_unsolicited cfg _ ?_
    rw [hsem]
    exact hn
  case neg =>
    rw [not_or, not_not] at hn
    have handled := g.2 hn.2 hn.1
    have hcases := rxComplete_cases cfg (rx.map (Marked.mk · (some s.exchange)))
      (tx.map (Marked.mk · (some s.exchange)))
      (n := (dated s.exchange (.receive rx tx)).before cfg s.node) hn.2 (by rw [hsem]; exact hn.1)
    rw [← he] at hcases
    cases hcases with
    | inl hu => exact quiet hu hsame
    | inr hent =>
      obtain ⟨n', hent, he⟩ := hent
      have out (r : StampsReady (Of s.exchange) cfg (rx.map (Marked.mk · (some s.exchange))) n') :
          Outcome (Of s.exchange) cfg (rx.map (Marked.mk · (some s.exchange))) n'
            (s.effect cfg (.receive rx tx)) := by
        rw [he]
        exact packages_outcome _ r rfl rfl rfl
      cases hent with
      | short hl =>
        have hl : rx.msg.len < requestLen := hl
        rw [if_pos hl] at handled
        refine h.of_outcome hb rfl (out (ready_of_skipped ?_ (.inl hl) ?_ _)) hsame.txtime
          fun _ => ⟨.inl hl, hsame.cur⟩
        · exact hflag.trans handled.1
        · exact (congrArg unsized hcode).trans handled.2
      | long hge hl =>
        have hge : ¬rx.msg.len < requestLen := Nat.not_lt.mpr hge
        have hl : cfg.frameSize < rx.msg.len := hl
        rw [if_neg hge, if_pos hl] at handled
        refine h.of_outcome hb rfl (out (ready_of_skipped ?_ (.inr hl) ?_ _)) hsame.txtime
          fun _ => ⟨.inr hl, hsame.cur⟩
        · exact hflag.trans handled.1
        · exact handled.2
      | accepted hge hle hfor =>
        have hge : ¬rx.msg.len < requestLen := Nat.not_lt.mpr hge
        have hle : ¬cfg.frameSize < rx.msg.len := Nat.not_lt.mpr hle
        rw [if_neg hge, if_neg hle] at handled
        obtain ⟨hf, order⟩ := handled hfor
        refine h.of_outcome hb rfl (out (h.ready hsame (hflag.trans hf) order)) hsame.txtime
          fun heq => ?_
        rw [← hsame.idx] at heq
        exact absurd heq (succ_ne_self _)

/-- The other events, in the exchange or between two. -/
lemma effect_idle (cfg : Cfg) (hb : s.begins e = false) (hr : ∀ rx tx, e ≠ .receive rx tx)
    (ht : ∀ tx, e ≠ .txComplete tx) (ho : e.isOther = false) :
    SameUse cfg s.node (s.effect cfg e).node ∧ (s.effect cfg e).sent = none ∧
      (s.effect cfg e).issued = false := by
  cases e with
  | request slot dst code tx =>
    have hsem : s.node.sem = 0 := not_not.mp (of_decide_eq_false hb)
    have he : s.effect cfg (.request slot dst code tx) = s.node.quiet := if_pos hsem
    rw [he]
    exact ⟨.refl _, rfl, rfl⟩
  | listen startRxError =>
    have hsem : s.node.sem = 0 := not_not.mp (of_decide_eq_false hb)
    have hn : (s.effect cfg (.listen startRxError)).node = s.node := if_pos hsem
    rw [hn]
    exact ⟨.refl _, rfl, rfl⟩
  | pend => exact ⟨⟨rfl, rfl, id, rfl, rfl⟩, rfl, rfl⟩
  | giveBack => exact ⟨⟨rfl, rfl, id, rfl, rfl⟩, rfl, rfl⟩
  | giveBackIfZero => exact ⟨.releaseIfZero _, rfl, rfl⟩
  | rxTimeout => exact ⟨.releaseIfZero _, rfl, rfl⟩
  | reset =>
    refine ⟨?_, rfl, rfl⟩
    have hn : (s.effect cfg .reset).node = s.node.reset := rfl
    rw [hn, Node.reset]
    split <;> exact ⟨rfl, rfl, id, rfl, rfl⟩
  | receive rx tx => exact absurd rfl (hr rx tx)
  | txComplete tx => exact absurd rfl (ht tx)
  | otherTx => cases ho

/-- One event under the guard keeps the invariant. -/
lemma Inv.step (h : s.Inv cfg) (g : s.Guard cfg e) : (s.step cfg e).Inv cfg := by
  cases hb : s.begins e with
  | true =>
    refine h.of_begins hb (Bool.eq_false_iff.mpr fun hf => ?_)
    cases (g.1 hf).symm.trans hb
  | false =>
    cases e with
    | receive rx tx => exact h.of_receive g
    | txComplete tx => exact h.of_txComplete tx
    | otherTx txtime => exact h.of_otherTx txtime
    | request | listen | pend | giveBack | giveBackIfZero | rxTimeout | reset =>
      obtain ⟨hu, hs, hi⟩ := effect_idle cfg hb (fun _ _ h => by cases h) (fun _ h => by cases h) rfl
      exact h.of_same hb rfl hu hs fun h => absurd (hi.symm.trans h) Bool.false_ne_true

/-- The session that begins. -/
lemma start_inv (frames : Table (TwrFrame (BitVec 32))) : (start frames).Inv cfg := by
  refine ⟨?_, ?_, ?_, ?_, ?_, ?_⟩
  · intro h
    cases h
  · intro h
    cases h
  · rintro (h | h) <;> cases h
  · rintro (h | h) <;> cases h
  · intro h
    cases h
  · intro r hr
    cases hr

/-- Whatever the ring holds at first: in every run whose events meet the guard, the results of
    `twr_ss`, `twr_ds` and `twr_ds_ext` come from stamps that were measured, or received in full, in
    their own exchange. -/
theorem fromReceived_of_guarded (cfg : Cfg) (frames : Table (TwrFrame (BitVec 32))) {s : FreshRun}
    (rch : Reach (step cfg) (Guard cfg) (start frames) s) : s.FromReceived :=
  (rch.invariant (start_inv frames) fun _ _ h g => h.step g).results

/-- Node 1 asks node 2, answers its response and receives a last message of `len` bytes. -/
def dsExchange (len : Nat) : List (Event (BitVec 32)) :=
  DsRun.initiated 0 ++ [.receive (DsRun.dsRx len .dsTwrFinal) Session.startedTx]

/-- A double-sided exchange with a last message of full length. -/
theorem fromReceived_exchange :
    ((dsExchange finalLen).foldl (step (Session.twrCfg 1))
      (start fun _ => .init 0)).FromReceived ∧
    ((dsExchange finalLen).foldl (step (Session.twrCfg 1))
      (start fun _ => .init 0)).results.length = 1 := by
  have hall : Allowed (step (Session.twrCfg 1)) (Guard (Session.twrCfg 1)) (start fun _ => .init 0)
      (dsExchange finalLen) := by decide +kernel
  exact ⟨fromReceived_of_guarded _ _ (Reach.of_allowed hall), by decide +kernel⟩

/-- A last message that is a header only completes with what its slot held. -/
theorem fromReceived_fails :
    ¬ ∀ (cfg : Cfg) (frames : Table (TwrFrame (BitVec 32))) (es : List (Event (BitVec 32))),
      (es.foldl (step cfg) (start frames)).FromReceived := by
  intro h
  have hc := h (Session.twrCfg 1) (fun _ => .init 0) (dsExchange requestLen)
  revert hc
  decide +kernel

end FreshRun

end UwbCore.Rng
