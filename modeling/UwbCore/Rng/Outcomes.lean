import UwbCore.Rng.Stamps

/-!
# What the handlers do to the stamps

Every handler has an `Outcome` in terms of the stamps that it finds, a frame that is not handled changes no
frame in use (`SameUse`), and neither does a completed transmission but for its own time (`TxDone`).
-/

namespace UwbCore.Rng
open UwbCore.Lib

section Handlers
variable {S : Type} {F : S → Prop} {cfg : Cfg} {n : Node S}
variable {rx : Rx S} {tx : Tx S} {n' : Node S} {m : Msg S}
variable [Stamp S] {e : Effect S}

/-- The codes of the first response. -/
lemma DsPackage.response_code {request t1 t2 final len strict}
    (p : DsPackage request t1 t2 final len strict) :
    t1 = .ssTwrT1 ∨ t1 = .dsTwrT1 ∨ t1 = .dsTwrExtT1 := .inr p.t1_code

omit [Stamp S] in
/-- The answer is prepared in the current frame, with the local stamp of the request. -/
lemma ackRequest_outcome (r : StampsReady F cfg rx n) (hts : F rx.timestamp) :
    Outcome F cfg rx n (TwrSsAck.onRequest cfg rx n.clearAcks) := by
  unfold TwrSsAck.onRequest
  split
  case isTrue => exact Rewritten.quiet ⟨rfl, rfl, r.flag, fun _ h => h, fun _ h => h⟩
  case isFalse =>
    have hw : Rewritten F cfg rx n (n.setFrame (cfg.ring.cur n.idx)
        ({ n.frame cfg with
          fctrl := fctrlRange16
          reception := rx.timestamp
          carrierIntegrator := -rx.carrierIntegrator }.answer cfg .ssTwrAckT1)) :=
      .setFrame r.flag (fun _ h => ⟨hts, h.2⟩) fun _ h => ⟨⟨hts, h.1.2⟩, h.2⟩
    exact Rewritten.quiet ⟨hw.idx, hw.txtime, hw.flag, hw.half, hw.full⟩

/-- The stamps of twr_ss_ack.c are not those of a reported package. -/
lemma ackT1_outcome (r : StampsReady F cfg rx n) (htx : F tx.txtime) :
    Outcome F cfg rx n (TwrSsAck.onT1 cfg rx tx n.clearAcks) := by
  unfold TwrSsAck.onT1
  split
  case isTrue => exact Rewritten.quiet ⟨rfl, rfl, r.flag, fun _ h => h, fun _ h => h⟩
  case isFalse hok =>
    rw [not_or, not_not] at hok
    have hs : ¬Skipped cfg rx := not_skipped_of_len hok.1 (by decide) (by decide)
    dsimp only
    split
    case isTrue =>
      exact Rewritten.quiet ⟨rfl, rfl, r.flag, fun h => absurd h hs, fun h => absurd h hs⟩
    case isFalse =>
      refine Rewritten.sendLast ⟨rfl, rfl, r.flag, fun h => absurd h hs, fun h => absurd h hs⟩ htx
        rfl (.of_reported fun hrep => ?_)
      rw [Node.frame, setFrame_idx, setFrame_self] at hrep
      cases hrep

/-- One stage of a protocol. -/
lemma Handled.outcome (h : Handled cfg rx tx n e) (r : StampsReady F cfg rx n)
    (hts : F rx.timestamp) (hpl : F tx.planned) (htx : F tx.txtime) : Outcome F cfg rx n e := by
  cases h with
  | ssRequest p => exact ssRequest_outcome r hts hpl htx (by cases p <;> decide)
  | ssT1 p hc => exact ssT1_outcome p r hts htx hc
  | ssFinal p hc =>
    refine ssFinal_outcome r ?_ ?_
    · rw [hc]
      exact p.final_isTwr
    · rw [hc]
      exact p.not_doubleSided.2
  | dsRequest p => exact dsRequest_outcome r hts hpl htx (by cases p <;> decide)
  | dsT1 p hc =>
    refine dsT1_outcome r hts htx (by rw [hc]; exact p.response_code) fun hok => ?_
    simp only [Bool.and_eq_true, decide_eq_true_eq] at hok
    exact hok.2
  | dsT2 p hc =>
    refine dsT2_outcome r hts htx p.final_isFinal fun hok => ?_
    cases p with
    | twrDs =>
      obtain ⟨hlde, hlen⟩ : rx.ldeError = false ∧ rx.msg.len = finalLen := by simpa using hok
      exact r.second hc hlen hlde
    | twrDsExt => exact r.secondExt hc
  | dsFinal p hc =>
    obtain ⟨cur, prev⟩ := r.last (by cases p with
      | twrDs => exact .inl hc
      | twrDsExt => exact .inr hc)
    exact (Rewritten.refl r.flag).complete (.of_full cur prev)
  | ackReceived => exact Rewritten.quiet ⟨rfl, rfl, r.flag, fun _ h => h, fun _ h => h⟩
  | ackRequest => exact ackRequest_outcome r hts
  | ackT1 => exact ackT1_outcome r htx
  | ackFinal hc =>
    have h := ssFinal_outcome (n := n.clearAcks)
      ⟨r.flag, r.response, r.single, r.second, r.secondExt, r.last⟩ (by rw [Node.clearAcks, hc]; rfl)
      (by rw [Node.clearAcks, hc]; rfl)
    exact ⟨h.idx, h.txtime, h.kept, h.pending, h.issued, h.answered, h.confirmed, h.half, h.full⟩

/-- What the packages make of a frame. -/
lemma packages_outcome (ps : List Package) (r : StampsReady F cfg rx n) (hts : F rx.timestamp)
    (hpl : F tx.planned) (htx : F tx.txtime) :
    Outcome F cfg rx n (firstOf (ps.map (Package.rxComplete cfg rx tx)) n) := by
  revert r
  refine firstOf_rxComplete (P := fun n e => StampsReady F cfg rx n → Outcome F cfg rx n e) ps n
    ?_ ?_ ?_
  · exact fun n r => (Rewritten.refl r.flag).quiet
  · exact fun n e h r => h.outcome r hts hpl htx
  · rintro n n' e ⟨_, _, _, _, rfl⟩ h r
    have o := h ⟨r.flag, r.response, r.single, r.second, r.secondExt, r.last⟩
    exact ⟨o.idx, o.txtime, o.kept, o.pending, o.issued, o.answered, o.confirmed, o.half, o.full⟩

variable (cfg) in
/-- Neither the frames of a result nor the time of the last transmission have changed. -/
structure SameUse (n n' : Node S) : Prop where
  idx : n'.idx = n.idx
  txtime : n'.txtime = n.txtime
  flag : n'.completeAfterTx = true → n.completeAfterTx = true
  cur : n'.frame cfg = n.frame cfg
  prev : n'.frames (cfg.ring.prev n.idx) = n.frames (cfg.ring.prev n.idx)

omit [Stamp S] in
/-- Nothing changed. -/
lemma SameUse.refl (n : Node S) : SameUse cfg n n := ⟨rfl, rfl, id, rfl, rfl⟩

omit [Stamp S] in
/-- Frame control and code of the frame that was received last are no stamps. -/
lemma SameUse.header (n : Node S) (fctrl : UInt16) (code : Code) :
    SameUse cfg n { n with fctrl := fctrl, code := code } := ⟨rfl, rfl, id, rfl, rfl⟩

omit [Stamp S] in
/-- Two changes. -/
lemma SameUse.trans {n'' : Node S} (h : SameUse cfg n n') (h' : SameUse cfg n' n'') :
    SameUse cfg n n'' where
  idx := h'.idx.trans h.idx
  txtime := h'.txtime.trans h.txtime
  flag hf := h.flag (h'.flag hf)
  cur := h'.cur.trans h.cur
  prev := by
    have hp := h'.prev
    rw [h.idx] at hp
    exact hp.trans h.prev

omit [Stamp S] in
/-- The acknowledgment is of no matter. -/
lemma SameUse.of_ackOnly (h : AckOnly n n') : SameUse cfg n n' := by
  obtain ⟨_, _, _, _, rfl⟩ := h
  exact ⟨rfl, rfl, id, rfl, rfl⟩

omit [Stamp S] in
/-- A frame that is written into the next slot is out of use. -/
lemma SameUse.next (f : TwrFrame S) : SameUse cfg n (n.setFrame (cfg.ring.next n.idx) f) where
  idx := rfl
  txtime := rfl
  flag := id
  cur := setFrame_of_ne _ _ (cfg.ring.next_ne_cur n.idx).symm
  prev := setFrame_of_ne _ _ (cfg.ring.next_ne_prev n.idx).symm

omit [Stamp S] in
/-- The semaphore is of no matter. -/
lemma SameUse.releaseIfZero (n : Node S) : SameUse cfg n n.releaseIfZero := by
  unfold Node.releaseIfZero
  split <;> exact ⟨rfl, rfl, id, rfl, rfl⟩

omit [Stamp S] in
/-- What was used still is. -/
lemma SameUse.used (h : SameUse cfg n n') (hu : n.Used F cfg) : n'.Used F cfg := by
  intro t ht
  refine hu t ?_
  rw [usedStamps, tofStamps, h.cur, h.idx, h.prev] at ht
  exact ht

variable (cfg rx tx) in
/-- A frame that is no ranging message does nothing to the stamps. -/
lemma packages_other (ps : List Package) (n : Node S) (hc : n.code.isTwr = false) :
    SameUse cfg n (firstOf (ps.map (Package.rxComplete cfg rx tx)) n).node ∧
      (firstOf (ps.map (Package.rxComplete cfg rx tx)) n).sent = none ∧
      (firstOf (ps.map (Package.rxComplete cfg rx tx)) n).issued = false := by
  revert hc
  refine firstOf_rxComplete (P := fun n e => n.code.isTwr = false →
    SameUse cfg n e.node ∧ e.sent = none ∧ e.issued = false) ps n ?_ ?_ ?_
  · exact fun n _ => ⟨.refl n, rfl, rfl⟩
  · intro n e h hc
    cases h with
    | ackReceived => exact ⟨⟨rfl, rfl, id, rfl, rfl⟩, rfl, rfl⟩
    | ssRequest p h | ssT1 p h | ssFinal p h | dsRequest p h | dsT1 p h | dsT2 p h | dsFinal p h =>
      rw [h] at hc
      cases p <;> cases hc
    | ackRequest h | ackT1 h | ackFinal h =>
      rw [h] at hc
      cases hc
  · intro n n' e ha h hc
    obtain ⟨hu, hs, hi⟩ := h (by obtain ⟨_, _, _, _, rfl⟩ := ha; exact hc)
    exact ⟨(SameUse.of_ackOnly ha).trans hu, hs, hi⟩

variable (cfg tx) in
/-- A frame that is not for the ranging service, or comes when no exchange is in progress. -/
lemma rxComplete_unsolicited (hn : n.sem = 1 ∨ ¬rx.Ranging) :
    SameUse cfg n (n.rxComplete cfg rx tx).node ∧ (n.rxComplete cfg rx tx).sent = none ∧
      (n.rxComplete cfg rx tx).issued = false := by
  rw [Node.rxComplete, UwbRng.rxComplete]
  by_cases hr : rx.Ranging
  case pos =>
    have hs : n.sem = 1 := hn.resolve_right (not_not.mpr hr)
    rw [if_neg (not_not.mpr hr), if_pos hs]
    obtain ⟨ha, hsi⟩ := firstOf_unsolicited cfg tx cfg.packages { n with fctrl := rx.fctrl }
      (.inl hs : _ ∨ ¬rx.Ranging)
    exact ⟨(SameUse.header n rx.fctrl n.code).trans (.of_ackOnly ha), hsi⟩
  case neg =>
    rw [if_pos hr]
    obtain ⟨ha, hsi⟩ := firstOf_unsolicited cfg tx cfg.packages
      (Node.releaseIfZero { n with fctrl := rx.fctrl }) (.inr hr)
    exact ⟨(SameUse.header n rx.fctrl n.code).trans ((SameUse.releaseIfZero _).trans (.of_ackOnly ha)),
      hsi⟩

variable (cfg rx) in
/-- The node that the packages find, for a frame of the ranging service that may be handled. -/
inductive Entered (n : Node S) : Node S → Prop where
  | short :
    rx.msg.len < requestLen →
    Entered n { n with fctrl := rx.fctrl }
  | long :
    requestLen ≤ rx.msg.len → cfg.frameSize < rx.msg.len →
    Entered n { n with fctrl := rx.fctrl, code := rx.msg.frame.code }
  | accepted :
    requestLen ≤ rx.msg.len → rx.msg.len ≤ cfg.frameSize →
    cfg.frameFilter = true ∨ rx.msg.frame.dstAddress = cfg.myShortAddress →
    Entered n { Node.store cfg rx { n with fctrl := rx.fctrl } with idx := n.idx + 1 }

variable (cfg rx tx) in
/-- A ranging frame is handled, or nothing in use changes. -/
lemma rxComplete_cases (hr : rx.Ranging) (hn : n.sem ≠ 1) :
    (SameUse cfg n (n.rxComplete cfg rx tx).node ∧ (n.rxComplete cfg rx tx).sent = none ∧
      (n.rxComplete cfg rx tx).issued = false) ∨
    ∃ n', Entered cfg rx n n' ∧
      n.rxComplete cfg rx tx = firstOf (cfg.packages.map (Package.rxComplete cfg rx tx)) n' := by
  have size := cfg.frameSize_ge
  have shared : Shared cfg rx { n with fctrl := rx.fctrl }
    (UwbRng.rxComplete cfg rx { n with fctrl := rx.fctrl }) := UwbRng.shared
  unfold Node.rxComplete
  revert shared
  generalize UwbRng.rxComplete cfg rx { n with fctrl := rx.fctrl } = r
  intro shared
  cases shared with
  | other h => exact absurd hr h
  | ignored h => exact .inr ⟨_, .short (h.resolve_left hn), rfl⟩
  | unread h =>
    cases h with
    | inl h =>
      obtain ⟨hp, hs⟩ := packages_other cfg rx tx cfg.packages
        { n with fctrl := rx.fctrl, code := rx.msg.frame.code } h
      exact .inl ⟨(SameUse.header n _ _).trans hp, hs⟩
    | inr h =>
      have hge : requestLen ≤ rx.msg.len :=
        Nat.le_trans (Nat.le_trans (by decide) size) (Nat.le_of_lt h)
      exact .inr ⟨_, .long hge h, rfl⟩
  | foreign =>
    refine .inl ⟨?_, rfl, rfl⟩
    have hs : SameUse cfg n (Node.store cfg rx { n with fctrl := rx.fctrl }) :=
      (SameUse.header n rx.fctrl rx.msg.frame.code).trans (.next _)
    exact hs.trans (.releaseIfZero _)
  | accepted _ _ h1 h2 h =>
    refine .inr ⟨_, .accepted h1 h2 ?_, rfl⟩
    cases hf : cfg.frameFilter with
    | true => exact .inl rfl
    | false => exact .inr (h hf)

end Handlers

/-! ## What a completed transmission does to the stamps -/

section TxComplete
variable {S : Type} (F : S → Prop) (cfg : Cfg)

/-- Of the frames in use only the current one is written, with the time of the transmission. -/
structure TxDone (n : Node S) (e : Effect S) : Prop where
  idx : e.node.idx = n.idx
  flag : e.node.completeAfterTx = true → n.completeAfterTx = true
  issued : e.issued = false
  txtime : e.sent.isSome = true → F e.node.txtime
  kept : e.sent = none → e.node.txtime = n.txtime
  half : F n.txtime → (n.frame cfg).Half F → (e.node.frame cfg).Half F
  full : F n.txtime → (n.frame cfg).Full F → (e.node.frame cfg).Full F
  used : F n.txtime → n.Used F cfg → e.node.Used F cfg

variable {F cfg} {tx : Tx S} {n : Node S}

/-- The package does not act. -/
lemma TxDone.quiet {n' : Node S} (h : SameUse cfg n n') : TxDone F cfg n n'.quiet where
  idx := h.idx
  flag := h.flag
  issued := rfl
  txtime ht := by cases ht
  kept _ := h.txtime
  half _ hh := by
    rw [Node.quiet, h.cur]
    exact hh
  full _ hf := by
    rw [Node.quiet, h.cur]
    exact hf
  used _ hu := h.used hu

/-- With one stamp of the current frame replaced by one in `F`, a result is in `F` as before. -/
lemma Node.Used.transmission (ht : F n.txtime) (hu : n.Used F cfg) :
    (n.setFrame (cfg.ring.cur n.idx) { n.frame cfg with transmission := n.txtime }).Used F cfg := by
  intro t hmem
  rw [usedStamps, tofStamps, setFrame_idx, frames_prev_setFrame, Node.frame, setFrame_idx,
    setFrame_self] at hmem
  have hold (h : t ∈ usedStamps cfg n) : F t := hu t h
  rw [usedStamps, tofStamps] at hold
  dsimp only at hmem hold
  split_ifs at hmem hold with hr hs hd
  · simp only [List.mem_cons, List.not_mem_nil, or_false] at hmem hold
    rcases hmem with h | h | h | h
    · exact hold (.inl h)
    · exact hold (.inr (.inl h))
    · exact h ▸ ht
    · exact hold (.inr (.inr (.inr h)))
  · simp only [List.mem_cons, List.not_mem_nil, or_false] at hmem hold
    rcases hmem with h | h | h | h | h | h | h | h
    · exact hold (.inl h)
    · exact hold (.inr (.inl h))
    · exact hold (.inr (.inr (.inl h)))
    · exact hold (.inr (.inr (.inr (.inl h))))
    · exact hold (.inr (.inr (.inr (.inr (.inl h)))))
    · exact hold (.inr (.inr (.inr (.inr (.inr (.inl h))))))
    · exact h ▸ ht
    · exact hold (.inr (.inr (.inr (.inr (.inr (.inr (.inr h)))))))
  · cases hmem
  · cases hmem

variable (cfg n) in
/-- The answer of twr_ss_ack.c, which gets the time of the hardware ACK. -/
lemma TxDone.send (m : Msg S) (htx : F tx.txtime) : TxDone F cfg n ((n.setFrame
    (cfg.ring.cur n.idx) { n.frame cfg with transmission := n.txtime }).send m tx) := by
  have hcur : (n.setFrame (cfg.ring.cur n.idx)
      { n.frame cfg with transmission := n.txtime }).frame cfg =
      { n.frame cfg with transmission := n.txtime } := setFrame_self _ _ _
  unfold Node.send
  split
  case isTrue =>
    refine ⟨rfl, id, rfl, ?_, fun _ => rfl, fun ht hh => ?_, fun ht hf => ?_,
      fun ht hu => hu.transmission ht⟩
    · intro hs
      cases hs
    · exact (congrArg (TwrFrame.Half F) hcur).mpr ⟨hh.1, ht⟩
    · exact (congrArg (TwrFrame.Full F) hcur).mpr ⟨⟨hf.1.1, ht⟩, hf.2⟩
  case isFalse =>
    refine ⟨rfl, id, rfl, fun _ => htx, ?_, fun ht hh => ?_, fun ht hf => ?_,
      fun ht hu => hu.transmission ht⟩
    · intro hs
      cases hs
    · exact (congrArg (TwrFrame.Half F) hcur).mpr ⟨hh.1, ht⟩
    · exact (congrArg (TwrFrame.Full F) hcur).mpr ⟨⟨hf.1.1, ht⟩, hf.2⟩

/-- Ranging with acknowledgments. -/
lemma TwrSsAck.txDone (htx : F tx.txtime) : TxDone F cfg n (TwrSsAck.txComplete cfg tx n).1 := by
  unfold TwrSsAck.txComplete
  split
  case isTrue => exact .quiet (.refl n)
  case isFalse =>
    split
    case isTrue => exact .quiet (.refl n)
    case isFalse =>
      dsimp only
      split
      case isFalse => exact .quiet ⟨rfl, rfl, id, rfl, rfl⟩
      case isTrue =>
        have hd := TxDone.send cfg { n with txAckExpected := false }
          ⟨responseLen, { n.frame cfg with transmission := n.txtime }⟩ htx
        exact ⟨hd.idx, hd.flag, hd.issued, hd.txtime, hd.kept, hd.half, hd.full, hd.used⟩

/-- Any package. -/
lemma Package.txDone (p : Package) (htx : F tx.txtime) :
    TxDone F cfg n (p.txComplete cfg tx n).1 := by
  cases p with
  | twrSsAck => exact TwrSsAck.txDone htx
  | _ => exact .quiet (.refl n)

/-- A package that does not take the event leaves the node. -/
lemma Package.txComplete_passed (p : Package) (h : (p.txComplete cfg tx n).2 = false) :
    (p.txComplete cfg tx n).1 = n.quiet := by
  cases p with
  | twrSsAck =>
    revert h
    simp only [Package.txComplete, TwrSsAck.txComplete]
    split_ifs <;> simp
  | _ => rfl

/-- All packages. -/
lemma packages_txDone (ps : List Package) (htx : F tx.txtime) :
    TxDone F cfg n (firstOf (ps.map (Package.txComplete cfg tx)) n) := by
  induction ps with
  | nil => exact .quiet (.refl n)
  | cons p ps ih =>
    rw [List.map_cons, firstOf]
    split
    case isTrue => exact p.txDone htx
    case isFalse h =>
      rw [p.txComplete_passed (by simpa using h)]
      exact ih

end TxComplete

end UwbCore.Rng
