import UwbCore.Rng.Fresh

/-!
# What keeps the time of an ACK

No handler changes the sequence number or the time of the ACK (`Kept`) but that of twr_ss_ack.c when it takes
the ACK that it expects (`AckTaken`), and what gets the code `SS_TWR_ACK_FINAL` reports that time.
-/

namespace UwbCore.Rng
open UwbCore.Lib

/-! ## What twr_ss_ack.c takes -/

/-- `rx_complete_cb` of twr_ss_ack.c takes the frame for the ACK it expects. -/
def TakesAck {S T : Type} (cfg : Cfg) (n : Node S) (rx : Rx T) : Prop :=
  rx.fctrl = fctrlFrameTypeAck ∧ n.sem ≠ 1 ∧ n.rxAckExpected = true ∧
    rx.msg.frame.seqNum = n.seqNum.toUInt8 ∧ rx.msg.len < requestLen ∧
    Package.twrSsAck ∈ cfg.packages

/-- The frame is a response that `rx_complete_cb` of twr_ss_ack.c takes up. -/
def TakesResponse {S T : Type} (cfg : Cfg) (n : Node S) (rx : Rx T) : Prop :=
  rx.Ranging ∧ n.sem ≠ 1 ∧ rx.msg.frame.code = .ssTwrAckT1 ∧ rx.msg.len = responseLen ∧
    rx.ldeError = false ∧
    (cfg.frameFilter = true ∨ rx.msg.frame.dstAddress = cfg.myShortAddress)

instance decidableTakesAck {S T : Type} (cfg : Cfg) (n : Node S) (rx : Rx T) :
    Decidable (TakesAck cfg n rx) := inferInstanceAs (Decidable (_ ∧ _))

instance decidableTakesResponse {S T : Type} (cfg : Cfg) (n : Node S) (rx : Rx T) :
    Decidable (TakesResponse cfg n rx) := inferInstanceAs (Decidable (_ ∧ _))

/-! ## What keeps the time of the ACK -/

section Handlers
variable {S : Type} {cfg : Cfg} {rx : Rx S} {tx : Tx S} {n n' : Node S} {m : Msg S} {e : Effect S}

/-- Index and sequence number are as before, and the ACK time too. -/
structure Kept (n n' : Node S) : Prop where
  idx : n'.idx = n.idx
  seqNum : n'.seqNum = n.seqNum
  ackTime : n'.ackRxTimestamp = n.ackRxTimestamp

/-- Nothing changed. -/
lemma Kept.refl (n : Node S) : Kept n n := ⟨rfl, rfl, rfl⟩

/-- Two changes. -/
lemma Kept.trans {n'' : Node S} (h : Kept n n') (h' : Kept n' n'') : Kept n n'' :=
  ⟨h'.idx.trans h.idx, h'.seqNum.trans h.seqNum, h'.ackTime.trans h.ackTime⟩

/-- After a message that is sent. -/
lemma Kept.send (h : Kept n n') : Kept n (n'.send m tx).node := by
  unfold Node.send
  split <;> exact ⟨h.idx, h.seqNum, h.ackTime⟩

/-- After the last message. -/
lemma Kept.sendLast (h : Kept n n') : Kept n (n'.sendLast m tx).node := by
  unfold Node.sendLast
  split <;> exact ⟨h.idx, h.seqNum, h.ackTime⟩

/-- The acknowledgment is of no matter. -/
lemma Kept.of_ackOnly (h : AckOnly n n') : Kept n n' := by
  obtain ⟨_, _, _, _, rfl⟩ := h
  exact ⟨rfl, rfl, rfl⟩

/-- The semaphore is of no matter. -/
lemma Kept.releaseIfZero (n : Node S) : Kept n n.releaseIfZero := by
  unfold Node.releaseIfZero
  split <;> exact ⟨rfl, rfl, rfl⟩

/-- A single-sided request. -/
lemma ssRequest_kept {t1 : Code} {len : Nat} : Kept n (ssRequest t1 len cfg rx tx n).node := by
  unfold ssRequest
  exact Kept.send ⟨rfl, rfl, rfl⟩

/-- Its response. -/
lemma ssT1_kept {final : Code} {len : Nat} : Kept n (ssT1 final len cfg rx tx n).node := by
  unfold ssT1
  split
  case isTrue => exact .refl n
  case isFalse => exact Kept.sendLast ⟨rfl, rfl, rfl⟩

/-- Its end. -/
lemma ssFinal_kept : Kept n (ssFinal rx n).node := by
  unfold ssFinal
  split <;> exact ⟨rfl, rfl, rfl⟩

/-- A double-sided request. -/
lemma dsRequest_kept {t1 : Code} {ok : Bool} : Kept n (dsRequest t1 ok cfg rx tx n).node := by
  unfold dsRequest
  split
  case isTrue => exact Kept.send ⟨rfl, rfl, rfl⟩
  case isFalse => exact .refl n

/-- Its response. -/
lemma dsT1_kept {t2 : Code} {len : Nat} {ok : Bool} :
    Kept n (dsT1 t2 len ok cfg rx tx n).node := by
  unfold dsT1
  split
  case isFalse => exact .refl n
  case isTrue =>
    dsimp only
    split
    case isTrue => exact ⟨rfl, rfl, rfl⟩
    case isFalse => exact Kept.send ⟨rfl, rfl, rfl⟩

/-- Its second message. -/
lemma dsT2_kept {final : Code} {len : Nat} {ok : Bool} :
    Kept n (dsT2 final len ok cfg rx tx n).node := by
  unfold dsT2
  split
  case isTrue => exact Kept.sendLast ⟨rfl, rfl, rfl⟩
  case isFalse => exact .refl n

/-- A message that may be unsolicited. -/
lemma whenSolicited_kept {r : Effect S × Bool} (h : Kept n r.1.node) :
    Kept n (whenSolicited rx n r).1.node := by
  unfold whenSolicited
  split
  case isTrue => exact .refl n
  case isFalse =>
    split
    case isTrue => exact .refl n
    case isFalse => exact h

/-- Single-sided ranging. -/
lemma TwrSs.kept : Kept n (TwrSs.rxComplete cfg rx tx n).1.node := by
  refine whenSolicited_kept ?_
  split
  case h_1 => exact ssRequest_kept
  case h_2 => exact ssT1_kept
  case h_3 => exact ssFinal_kept
  case h_4 => exact .refl n

/-- Single-sided ranging with positions. -/
lemma TwrSsExt.kept : Kept n (TwrSsExt.rxComplete cfg rx tx n).1.node := by
  refine whenSolicited_kept ?_
  split
  case h_1 => exact ssRequest_kept
  case h_2 => exact ssT1_kept
  case h_3 => exact ssFinal_kept
  case h_4 => exact .refl n

/-- Double-sided ranging. -/
lemma TwrDs.kept : Kept n (TwrDs.rxComplete cfg rx tx n).1.node := by
  refine whenSolicited_kept ?_
  split
  case h_1 => exact dsRequest_kept
  case h_2 => exact dsT1_kept
  case h_3 => exact dsT2_kept
  case h_4 => exact ⟨rfl, rfl, rfl⟩
  case h_5 => exact .refl n

/-- Double-sided ranging with positions. -/
lemma TwrDsExt.kept : Kept n (TwrDsExt.rxComplete cfg rx tx n).1.node := by
  refine whenSolicited_kept ?_
  split
  case h_1 => exact dsRequest_kept
  case h_2 => exact dsT1_kept
  case h_3 => exact dsT2_kept
  case h_4 => exact ⟨rfl, rfl, rfl⟩
  case h_5 => exact .refl n

variable [Stamp S]

variable (cfg rx tx n) in
/-- A frame for ranging with acknowledgments. -/
lemma TwrSsAck.kept_frame : Kept n (TwrSsAck.onFrame cfg rx tx n).1.node := by
  unfold TwrSsAck.onFrame
  split
  case h_1 =>
    unfold TwrSsAck.onRequest
    split <;> exact ⟨rfl, rfl, rfl⟩
  case h_2 =>
    unfold TwrSsAck.onT1
    split
    case isTrue => exact .refl n
    case isFalse =>
      dsimp only
      split
      case isTrue => exact ⟨rfl, rfl, rfl⟩
      case isFalse => exact Kept.sendLast ⟨rfl, rfl, rfl⟩
  case h_3 => exact ssFinal_kept
  case h_4 => exact .refl n

/-- The ACK that is expected came: its time is taken. -/
structure AckTaken (rx : Rx S) (n n' : Node S) : Prop where
  fctrl : rx.fctrl = fctrlFrameTypeAck
  seq : rx.msg.frame.seqNum = n.seqNum.toUInt8
  idx : n'.idx = n.idx
  seqNum : n'.seqNum = n.seqNum
  ackTime : n'.ackRxTimestamp = rx.rxtimestamp

/-- Ranging with acknowledgments, which may take one. -/
lemma TwrSsAck.kept_or_taken : Kept n (TwrSsAck.rxComplete cfg rx tx n).1.node ∨
    AckTaken rx n (TwrSsAck.rxComplete cfg rx tx n).1.node := by
  unfold TwrSsAck.rxComplete
  dsimp only
  split
  case isTrue => exact .inl (.refl n)
  case isFalse =>
    split
    case isTrue => exact .inl (.refl n)
    case isFalse =>
      split
      case isTrue => exact .inl (.refl n)
      case isFalse =>
        split
        case isTrue hf =>
          split
          case isTrue => exact .inl ⟨rfl, rfl, rfl⟩
          case isFalse hq => exact .inr ⟨hf, not_not.mp hq, rfl, rfl, rfl⟩
        case isFalse =>
          have hk := TwrSsAck.kept_frame cfg rx tx n.clearAcks
          exact .inl ⟨hk.idx, hk.seqNum, hk.ackTime⟩

/-- Any package. -/
lemma Package.kept_or_taken (p : Package) : Kept n (p.rxComplete cfg rx tx n).1.node ∨
    AckTaken rx n (p.rxComplete cfg rx tx n).1.node := by
  cases p with
  | twrSs => exact .inl TwrSs.kept
  | twrSsAck => exact TwrSsAck.kept_or_taken
  | twrSsExt => exact .inl TwrSsExt.kept
  | twrDs => exact .inl TwrDs.kept
  | twrDsExt => exact .inl TwrDsExt.kept

variable (cfg rx tx) in
/-- Among the packages only an ACK that is expected gives another ACK time. -/
lemma packages_kept_or_taken (ps : List Package) (n : Node S) :
    Kept n (firstOf (ps.map (Package.rxComplete cfg rx tx)) n).node ∨
      AckTaken rx n (firstOf (ps.map (Package.rxComplete cfg rx tx)) n).node := by
  induction ps generalizing n with
  | nil => exact .inl (.refl n)
  | cons p ps ih =>
    rw [List.map_cons, firstOf]
    split
    case isTrue => exact p.kept_or_taken
    case isFalse h =>
      have hk : Kept n (p.rxComplete cfg rx tx n).1.node :=
        .of_ackOnly (p.passed (by simpa using h))
      cases ih (p.rxComplete cfg rx tx n).1.node with
      | inl ih => exact .inl (hk.trans ih)
      | inr ih =>
        exact .inr ⟨ih.fctrl, by rw [ih.seq, hk.seqNum], ih.idx.trans hk.idx,
          ih.seqNum.trans hk.seqNum, ih.ackTime⟩

variable (cfg rx tx) in
/-- The packages leave the index. -/
lemma packages_idx (ps : List Package) (n : Node S) :
    (firstOf (ps.map (Package.rxComplete cfg rx tx)) n).node.idx = n.idx := by
  cases packages_kept_or_taken cfg rx tx ps n with
  | inl hk => exact hk.idx
  | inr ht => exact ht.idx

/-- The other packages look at data frames only. -/
lemma Package.passed_ack (p : Package) (hp : p ≠ .twrSsAck) (hf : rx.fctrl = fctrlFrameTypeAck) :
    p.rxComplete cfg rx tx n = (n.quiet, false) := by
  have hr : rx.fctrl ≠ fctrlRange16 := by
    rw [hf]
    decide
  cases p with
  | twrSsAck => exact absurd rfl hp
  | twrSs => exact if_pos hr
  | twrSsExt => exact if_pos hr
  | twrDs => exact if_pos hr
  | twrDsExt => exact if_pos hr

/-- An acknowledgment that is taken. -/
lemma TwrSsAck.takes (hf : rx.fctrl = fctrlFrameTypeAck) (hs : n.sem ≠ 1)
    (he : n.rxAckExpected = true) (hq : rx.msg.frame.seqNum = n.seqNum.toUInt8) :
    TwrSsAck.rxComplete cfg rx tx n =
      ({ n.clearAcks with ackRxTimestamp := rx.rxtimestamp }.quiet, true) := by
  have hne : ¬(rx.fctrl = fctrlFrameTypeAck ∧ (!n.rxAckExpected) = true) := by
    rintro ⟨-, h⟩
    rw [he] at h
    cases h
  have hq' : ¬rx.msg.frame.seqNum ≠ n.clearAcks.seqNum.toUInt8 := not_not.mpr hq
  rw [TwrSsAck.rxComplete, if_neg (not_not.mpr (.inr (.inr hf))), if_neg hs, if_neg hne]
  dsimp only
  rw [if_pos hf, if_neg hq']

/-- The frame is taken for the ACK by the first twr_ss_ack.c on the list. -/
lemma packages_take (ps : List Package) (hf : rx.fctrl = fctrlFrameTypeAck) (hs : n.sem ≠ 1)
    (he : n.rxAckExpected = true) (hq : rx.msg.frame.seqNum = n.seqNum.toUInt8)
    (hp : Package.twrSsAck ∈ ps) :
    (firstOf (ps.map (Package.rxComplete cfg rx tx)) n).node.ackRxTimestamp = rx.rxtimestamp := by
  induction ps with
  | nil => cases hp
  | cons p ps ih =>
    rw [List.map_cons, firstOf]
    by_cases h : p = .twrSsAck
    case pos =>
      rw [h, Package.rxComplete, TwrSsAck.takes hf hs he hq]
      rfl
    case neg =>
      rw [p.passed_ack h hf]
      exact ih (List.mem_of_ne_of_mem (Ne.symm h) hp)

omit [Stamp S] in
@[simp] lemma frame_send : (n.send m tx).node.frame cfg = n.frame cfg := by
  unfold Node.send
  split <;> rfl

omit [Stamp S] in
@[simp] lemma frame_sendLast : (n.sendLast m tx).node.frame cfg = n.frame cfg := by
  unfold Node.sendLast
  split <;> rfl

omit [Stamp S] in
@[simp] lemma frame_setFrame_cur (f : TwrFrame S) :
    (n.setFrame (cfg.ring.cur n.idx) f).frame cfg = f := setFrame_self _ _ _

omit [Stamp S] in
/-- The response keeps its code in its frame. -/
lemma dsT1_code {t2 : Code} {len : Nat} {ok : Bool} :
    ((dsT1 t2 len ok cfg rx tx n).node.frame cfg).code = (n.frame cfg).code := by
  unfold dsT1
  split
  case isFalse => rfl
  case isTrue =>
    dsimp only
    split
    case isTrue =>
      have hne := (cfg.ring.next_ne_cur n.idx).symm
      refine (congrArg TwrFrame.code ((setFrame_of_ne _ _ hne).trans (setFrame_self _ _ _))).trans ?_
      rfl
    case isFalse =>
      rw [frame_send]
      refine (congrArg TwrFrame.code (dsT1_frame _ _)).trans ?_
      rfl

/-- The frame of a response became the report, with the ACK time of the node. -/
structure Reported (rx : Rx S) (n : Node S) (f : TwrFrame S) : Prop where
  code : n.code = .ssTwrAckT1
  len : rx.msg.len = responseLen
  ldeError : rx.ldeError = false
  ackTime : n.ackRxTimestamp.isZero = false
  response : f.response = n.ackRxTimestamp.low

/-- A stage that gives the code `SS_TWR_ACK_FINAL` to the current frame. -/
lemma Handled.reported (h : Handled cfg rx tx n e) (hn : (n.frame cfg).code ≠ .ssTwrAckFinal)
    (he : (e.node.frame cfg).code = .ssTwrAckFinal) : Reported rx n (e.node.frame cfg) := by
  cases h with
  | ssRequest p =>
    rw [Rng.ssRequest, frame_send, frame_setFrame_cur] at he
    cases p <;> cases he
  | ssT1 p =>
    unfold Rng.ssT1 at he
    split at he
    case isTrue => exact absurd he hn
    case isFalse =>
      rw [frame_sendLast, frame_setFrame_cur] at he
      cases p <;> cases he
  | ssFinal =>
    unfold Rng.ssFinal at he
    split at he <;> exact absurd he hn
  | dsRequest p =>
    unfold Rng.dsRequest at he
    split at he
    case isTrue =>
      rw [frame_send, frame_setFrame_cur] at he
      cases p <;> cases he
    case isFalse => exact absurd he hn
  | dsT1 =>
    rw [dsT1_code] at he
    exact absurd he hn
  | dsT2 p =>
    unfold Rng.dsT2 at he
    split at he
    case isTrue =>
      rw [frame_sendLast] at he
      have hc := (congrArg TwrFrame.code (setFrame_self _ _ _)).symm.trans he
      cases p <;> cases hc
    case isFalse => exact absurd he hn
  | dsFinal => exact absurd he hn
  | ackReceived => exact absurd he hn
  | ackRequest =>
    unfold TwrSsAck.onRequest at he
    split at he
    case isTrue => exact absurd he hn
    case isFalse => cases (congrArg TwrFrame.code (setFrame_self _ _ _)).symm.trans he
  | ackT1 hc =>
    unfold TwrSsAck.onT1 at he ⊢
    split at he
    case isTrue => exact absurd he hn
    case isFalse hok =>
      rw [if_neg hok]
      dsimp only at he ⊢
      split at he
      case isTrue =>
        exact absurd ((congrArg TwrFrame.code (setFrame_self _ _ _)).symm.trans he) hn
      case isFalse hz =>
        rw [not_or, not_not] at hok
        rw [if_neg hz, frame_sendLast, frame_setFrame_cur]
        exact ⟨hc, hok.1, Bool.eq_false_iff.mpr hok.2, Bool.eq_false_iff.mpr hz, rfl⟩
  | ackFinal =>
    unfold Rng.ssFinal at he
    split at he <;> exact absurd he hn

/-- The packages report the final message. -/
lemma packages_reported (ps : List Package) (n : Node S)
    (hn : (n.frame cfg).code ≠ .ssTwrAckFinal)
    (he : ((firstOf (ps.map (Package.rxComplete cfg rx tx)) n).node.frame cfg).code =
      .ssTwrAckFinal) :
    Reported rx n ((firstOf (ps.map (Package.rxComplete cfg rx tx)) n).node.frame cfg) := by
  revert hn he
  refine firstOf_rxComplete (P := fun n e => (n.frame cfg).code ≠ .ssTwrAckFinal →
    (e.node.frame cfg).code = .ssTwrAckFinal → Reported rx n (e.node.frame cfg)) ps n ?_ ?_ ?_
  · exact fun n hn he => absurd he hn
  · exact fun n e h hn he => h.reported hn he
  · rintro n n' e ⟨_, _, _, _, rfl⟩ h hn he
    obtain ⟨h1, h2, h3, h4, h5⟩ := h hn he
    exact ⟨h1, h2, h3, h4, h5⟩

end Handlers

/-! ## The shared service -/

section Receive
variable {S : Type} [Stamp S] {cfg : Cfg} {rx : Rx S} {tx : Tx S} {n : Node S}

/-- The shared service leaves the number and the time of the acknowledgment. -/
lemma Shared.seqNum {r : Node S × Bool} (h : Shared cfg rx n r) :
    r.1.seqNum = n.seqNum ∧ r.1.ackRxTimestamp = n.ackRxTimestamp := by
  cases h with
  | other => exact ⟨(Kept.releaseIfZero n).seqNum, (Kept.releaseIfZero n).ackTime⟩
  | ignored => exact ⟨rfl, rfl⟩
  | unread => exact ⟨rfl, rfl⟩
  | foreign =>
    have hk := Kept.releaseIfZero (n.store cfg rx)
    exact ⟨hk.seqNum, hk.ackTime⟩
  | accepted => exact ⟨rfl, rfl⟩

variable (cfg rx tx n) in
/-- A received frame keeps the sequence number, and the ACK time unless it is the expected ACK. -/
lemma rxComplete_ackTime : (n.rxComplete cfg rx tx).node.seqNum = n.seqNum ∧
    ((n.rxComplete cfg rx tx).node.ackRxTimestamp = n.ackRxTimestamp ∨
      rx.fctrl = fctrlFrameTypeAck ∧ rx.msg.frame.seqNum = n.seqNum.toUInt8 ∧
        (n.rxComplete cfg rx tx).node.ackRxTimestamp = rx.rxtimestamp) := by
  have shared : Shared cfg rx { n with fctrl := rx.fctrl }
    (UwbRng.rxComplete cfg rx { n with fctrl := rx.fctrl }) := UwbRng.shared
  obtain ⟨hq, ha⟩ := shared.seqNum
  unfold Node.rxComplete
  dsimp only
  split
  case isTrue => exact ⟨hq, .inl ha⟩
  case isFalse =>
    cases packages_kept_or_taken cfg rx tx cfg.packages
      (UwbRng.rxComplete cfg rx { n with fctrl := rx.fctrl }).1 with
    | inl hk => exact ⟨hk.seqNum.trans hq, .inl (hk.ackTime.trans ha)⟩
    | inr ht =>
      exact ⟨ht.seqNum.trans hq, .inr ⟨ht.fctrl, by rw [ht.seq, hq], ht.ackTime⟩⟩

/-- The ACK that is expected is taken. -/
lemma rxComplete_takes (rx : Rx S) (h : TakesAck cfg n rx) :
    (n.rxComplete cfg rx tx).node.ackRxTimestamp = rx.rxtimestamp := by
  obtain ⟨hf, hs, he, hq, hl, hp⟩ := h
  have hr : ¬¬rx.Ranging := not_not.mpr (.inr (.inr hf))
  have hu : UwbRng.rxComplete cfg rx { n with fctrl := rx.fctrl } =
      ({ n with fctrl := rx.fctrl }, false) := by
    have hs' : ¬({ n with fctrl := rx.fctrl } : Node S).sem = 1 := hs
    rw [UwbRng.rxComplete, if_neg hr, if_neg hs', if_pos hl]
  rw [Node.rxComplete, hu]
  exact packages_take cfg.packages hf hs he hq hp

/-- A received frame with another code that has the code `SS_TWR_ACK_FINAL` now. -/
lemma rxComplete_reported (rx : Rx S) (hc : rx.msg.frame.code ≠ .ssTwrAckFinal)
    (hi : (n.rxComplete cfg rx tx).node.idx ≠ n.idx)
    (he : ((n.rxComplete cfg rx tx).node.frame cfg).code = .ssTwrAckFinal) :
    TakesResponse cfg n rx ∧ n.ackRxTimestamp.isZero = false ∧
      ((n.rxComplete cfg rx tx).node.frame cfg).response = n.ackRxTimestamp.low := by
  by_cases hn : n.sem = 1 ∨ ¬rx.Ranging
  case pos => exact absurd (rxComplete_unsolicited cfg tx hn).1.idx hi
  case neg =>
    rw [not_or, not_not] at hn
    cases rxComplete_cases cfg rx tx hn.2 hn.1 with
    | inl hu => exact absurd hu.1.idx hi
    | inr hent =>
      obtain ⟨n', hent, h⟩ := hent
      rw [h] at hi he ⊢
      have hidx := packages_idx cfg rx tx cfg.packages n'
      cases hent with
      | short => exact absurd hidx hi
      | long => exact absurd hidx hi
      | accepted hge hle hfor =>
        obtain ⟨hcur, -⟩ := accepted_frame cfg rx { n with fctrl := rx.fctrl }
        have hne : (Node.frame cfg { Node.store cfg rx { n with fctrl := rx.fctrl } with
            idx := n.idx + 1 }).code ≠ .ssTwrAckFinal := by
          rw [hcur]
          exact hc
        obtain ⟨h1, h2, h3, h4, h5⟩ := packages_reported _ _ hne he
        exact ⟨⟨hn.2, hn.1, h1, h2, h3, hfor⟩, h4, h5⟩

end Receive

section Others
variable {S : Type} (cfg : Cfg) (tx : Tx S)

/-- A transmission that is complete. -/
lemma Package.txComplete_kept (p : Package) (n : Node S) :
    Kept n (p.txComplete cfg tx n).1.node := by
  cases p with
  | twrSsAck =>
    simp only [Package.txComplete, TwrSsAck.txComplete]
    split_ifs
    · exact .refl n
    · exact .refl n
    · exact Kept.send ⟨rfl, rfl, rfl⟩
    · exact ⟨rfl, rfl, rfl⟩
  | _ => exact .refl n

/-- All packages at a transmission that is complete. -/
lemma packages_txComplete_kept (ps : List Package) (n : Node S) :
    Kept n (firstOf (ps.map (Package.txComplete cfg tx)) n).node := by
  induction ps generalizing n with
  | nil => exact .refl n
  | cons p ps ih =>
    rw [List.map_cons, firstOf]
    have hp := p.txComplete_kept cfg tx n
    split
    case isTrue => exact hp
    case isFalse => exact hp.trans (ih _)

/-- The node at a transmission that is complete. -/
lemma txComplete_kept (n : Node S) : Kept n (n.txComplete cfg tx).node := by
  rw [Node.txComplete, firstOf]
  cases UwbRng.txComplete_cases n with
  | inl h =>
    rw [h]
    exact packages_txComplete_kept cfg tx cfg.packages n
  | inr h =>
    obtain ⟨-, n', hn', h⟩ := h
    rw [h]
    cases hn' with
    | inl hn' => rw [hn']; exact ⟨rfl, rfl, rfl⟩
    | inr hn' => rw [hn']; exact ⟨rfl, rfl, rfl⟩

variable {cfg tx}

/-- No event but a call that gets the semaphore, or a received frame, has an effect on them. -/
lemma Event.kept [Stamp S] {e : Event S} {n : Node S} (hb : e.begins n = false)
    (hr : ∀ rx tx, e ≠ .receive rx tx) : Kept n (e.effect cfg n).node := by
  cases e with
  | request slot dst code tx =>
    have hsem : n.sem = 0 := not_not.mp (of_decide_eq_false hb)
    have he : n.request cfg slot dst code tx = n.quiet := if_pos hsem
    rw [Event.effect, he]
    exact .refl n
  | listen startRxError =>
    have hsem : n.sem = 0 := not_not.mp (of_decide_eq_false hb)
    have hn : n.listen startRxError = n := if_pos hsem
    rw [Event.effect, hn]
    exact .refl n
  | pend => exact ⟨rfl, rfl, rfl⟩
  | giveBack => exact ⟨rfl, rfl, rfl⟩
  | giveBackIfZero => exact .releaseIfZero n
  | receive rx tx => exact absurd rfl (hr rx tx)
  | txComplete tx => exact txComplete_kept cfg tx n
  | rxTimeout => exact .releaseIfZero n
  | reset =>
    rw [Event.effect, Node.quiet, Node.reset]
    split <;> exact ⟨rfl, rfl, rfl⟩
  | otherTx => exact ⟨rfl, rfl, rfl⟩

end Others

end UwbCore.Rng
