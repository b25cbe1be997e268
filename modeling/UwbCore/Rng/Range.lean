import UwbCore.Rng.Handled
import UwbCore.Rng.Tof

/-!
# A double-sided exchange from end to end

The four messages of a DS-TWR exchange between two nodes whose clocks run at one rate. Each stage of
`twr_ds` is characterised by what it leaves in the two ring slots of the exchange and what it sends;
put together, both sides hold the same eight time stamps in the frames at `idx - 1` and `idx`, and
these give the time of flight (`dsExchange_tof`).
-/

namespace UwbCore.Rng
open UwbCore.Lib

/-- The codes of `twr_ds`. -/
def Code.isTwrDs : Code → Bool
  | .dsTwr | .dsTwrT1 | .dsTwrT2 | .dsTwrFinal => true
  | _ => false

section Dispatch
variable {S : Type} [Stamp S] {cfg : Cfg} {rx : Rx S} {tx : Tx S} {n : Node S}

variable (cfg tx) in
/-- The other packages leave the frames of `twr_ds` alone. -/
lemma passes_twrDs {p : Package} (hp : p ≠ .twrDs) (hf : rx.fctrl = fctrlRange16)
    (hc : n.code.isTwrDs = true) :
    (p.rxComplete cfg rx tx n).2 = false ∧
      ((p.rxComplete cfg rx tx n).1.node = n ∨ (p.rxComplete cfg rx tx n).1.node = n.clearAcks) := by
  have ha : fctrlRange16 ≠ fctrlFrameTypeAck := by decide
  have pass {r : Effect S × Bool} (hr : r = (n.quiet, false)) :
      (whenSolicited rx n r).2 = false ∧
        ((whenSolicited rx n r).1.node = n ∨ (whenSolicited rx n r).1.node = n.clearAcks) := by
    rw [hr]
    unfold whenSolicited
    split_ifs <;> exact ⟨rfl, .inl rfl⟩
  cases p with
  | twrDs => exact absurd rfl hp
  | twrSs =>
    refine pass ?_
    cases hn : n.code <;> rw [hn] at hc <;> cases hc
  | twrSsExt =>
    refine pass ?_
    cases hn : n.code <;> rw [hn] at hc <;> cases hc
  | twrDsExt =>
    refine pass ?_
    cases hn : n.code <;> rw [hn] at hc <;> cases hc
  | twrSsAck =>
    have quiet : TwrSsAck.onFrame cfg rx tx n.clearAcks = (n.clearAcks.quiet, false) := by
      have hn' : n.clearAcks.code = n.code := rfl
      unfold TwrSsAck.onFrame
      cases hn : n.code <;> rw [hn] at hc <;> rw [hn', hn] <;> cases hc
    simp only [Package.rxComplete, TwrSsAck.rxComplete]
    rw [if_neg (not_not.mpr (.inl hf)), hf, if_neg (c := fctrlRange16 = fctrlFrameTypeAck ∧ _) (by simp [ha]),
      if_neg ha, quiet]
    split
    case isTrue => exact ⟨rfl, .inl rfl⟩
    case isFalse => exact ⟨rfl, .inr rfl⟩

variable (rx tx) in
/-- With `twr_ds` among the packages it gets its frames. -/
lemma firstOf_twrDs (ps : List Package) (n : Node S) (hp : .twrDs ∈ ps)
    (hf : rx.fctrl = fctrlRange16) (hc : n.code.isTwrDs = true) (hs : n.sem ≠ 1) :
    ∃ n', (n' = n ∨ n' = n.clearAcks) ∧
      firstOf (ps.map (Package.rxComplete cfg rx tx)) n = (TwrDs.rxComplete cfg rx tx n').1 := by
  induction ps generalizing n with
  | nil => cases hp
  | cons p ps ih =>
    rw [List.map_cons, firstOf]
    by_cases hpd : p = .twrDs
    case pos =>
      subst hpd
      have ht : (TwrDs.rxComplete cfg rx tx n).2 = true := by
        unfold TwrDs.rxComplete whenSolicited
        rw [if_neg (not_not.mpr hf), if_neg hs]
        cases hn : n.code <;> rw [hn] at hc <;> first | rfl | cases hc
      exact ⟨n, .inl rfl, if_pos ht⟩
    case neg =>
      obtain ⟨h2, hn⟩ := passes_twrDs cfg tx hpd hf hc
      rw [h2, if_neg (by decide)]
      have hp' : .twrDs ∈ ps := (List.mem_cons.mp hp).resolve_left fun h => hpd h.symm
      cases hn with
      | inl hn => rw [hn]; exact ih n hp' hc hs
      | inr hn =>
        rw [hn]
        obtain ⟨n', hn', e⟩ := ih n.clearAcks hp' hc hs
        refine ⟨n', .inr ?_, e⟩
        cases hn' with
        | inl h => exact h
        | inr h => exact h

end Dispatch

variable {S : Type} [Stamp S] {cfg : Cfg} {rx : Rx S} {tx : Tx S} {n : Node S}

/-- A frame of `twr_ds` reaches the handler: it is a ranging frame, of a size that is copied, for
    this node, and the semaphore is taken. -/
structure Delivered (cfg : Cfg) (rx : Rx S) (n : Node S) : Prop where
  installed : .twrDs ∈ cfg.packages
  solicited : n.sem ≠ 1
  fctrl : rx.msg.frame.fctrl = fctrlRange16
  code : rx.msg.frame.code.isTwrDs = true
  len_ge : requestLen ≤ rx.msg.len
  len_le : rx.msg.len ≤ cfg.frameSize
  dst : rx.msg.frame.dstAddress = cfg.myShortAddress

/-- The node that the handler gets: the frame is in the slot that was next, and is the current
    one. -/
structure Accepted (cfg : Cfg) (rx : Rx S) (n n' : Node S) : Prop where
  frames : n'.frames =
    n.frames.modify (cfg.ring.next n.idx) fun _ => (n.frames (cfg.ring.next n.idx)).receive rx.msg
  idx : n'.idx = n.idx + 1
  txtime : n'.txtime = n.txtime
  sem : n'.sem = n.sem
  code : n'.code = rx.msg.frame.code

namespace Accepted
variable {n' : Node S} (h : Accepted cfg rx n n')
include h

/-- The current slot is the one that was next. -/
lemma cur : cfg.ring.cur n'.idx = cfg.ring.next n.idx := by rw [h.idx, cfg.ring.cur_succ]

/-- The previous slot is the one that was current. -/
lemma prev : cfg.ring.prev n'.idx = cfg.ring.cur n.idx := by rw [h.idx, cfg.ring.prev_succ]

/-- The current frame is what was received. -/
lemma frame : n'.frame cfg = (n.frames (cfg.ring.next n.idx)).receive rx.msg := by
  rw [Node.frame, h.cur, h.frames, Table.modify_self]

/-- The next slot is as it was. -/
lemma next_frame : n'.frames (cfg.ring.next n'.idx) = n.frames (cfg.ring.next (n.idx + 1)) := by
  rw [h.idx, h.frames]
  exact Table.modify_of_ne _ _ (cfg.ring.next_succ_ne_next n.idx)

/-- The previous frame is the one before. -/
lemma prev_frame : n'.frames (cfg.ring.prev n'.idx) = n.frames (cfg.ring.cur n.idx) := by
  rw [h.prev, h.frames]
  exact Table.modify_of_ne _ _ (cfg.ring.next_ne_cur n.idx).symm

end Accepted

variable (tx) in
/-- A frame goes to double-sided ranging. -/
lemma rxComplete_twrDs (d : Delivered cfg rx n) :
    ∃ n', Accepted cfg rx n n' ∧ n.rxComplete cfg rx tx = (TwrDs.rxComplete cfg rx tx n').1 := by
  have hd : UwbRng.rxComplete cfg rx { n with fctrl := rx.fctrl } =
      ({ Node.store cfg rx { n with fctrl := rx.fctrl } with idx := n.idx + 1 }, false) := by
    have htwr : rx.msg.frame.code.isTwr = true := by
      have := d.code
      cases hc : rx.msg.frame.code <;> rw [hc] at this <;> first | rfl | cases this
    unfold UwbRng.rxComplete
    rw [if_neg (not_not.mpr (.inl d.fctrl)), if_neg d.solicited, if_neg (Nat.not_lt.mpr d.len_ge)]
    dsimp only
    rw [if_neg (by simp [htwr]), if_neg (Nat.not_lt.mpr d.len_le), if_neg (by simp [d.dst])]
    rfl
  obtain ⟨n', hn', e⟩ := firstOf_twrDs rx tx cfg.packages
    { Node.store cfg rx { n with fctrl := rx.fctrl } with idx := n.idx + 1 } d.installed d.fctrl
    d.code d.solicited
  refine ⟨n', ?_, ?_⟩
  · cases hn' with
    | inl h => rw [h]; exact ⟨rfl, rfl, rfl, rfl, rfl⟩
    | inr h => rw [h]; exact ⟨rfl, rfl, rfl, rfl, rfl⟩
  · unfold Node.rxComplete
    rw [hd]
    exact e

/-! ## The stages of `twr_ds` -/

/-- A message was answered with the frame `f`. -/
structure Answered (cfg : Cfg) (rx : Rx S) (tx : Tx S) (n : Node S) (e : Effect S) (len : Nat)
    (f : TwrFrame S) : Prop where
  sent : e.sent = some ⟨len, f⟩
  idx : e.node.idx = n.idx + 1
  txtime : e.node.txtime = tx.txtime
  sem : e.node.sem = n.sem
  dst : f.dstAddress = rx.msg.frame.srcAddress
  src : f.srcAddress = cfg.myShortAddress

omit [Stamp S] in
/-- A message is sent. -/
lemma send_of_started {m : Msg S} (ht : tx.startTxError = false) :
    n.send m tx = ⟨{ n with txtime := tx.txtime }, some m, false⟩ := by
  rw [Node.send, if_neg (by simp [ht])]

omit [Stamp S] in
/-- The last message is sent. -/
lemma sendLast_of_started {m : Msg S} (ht : tx.startTxError = false) :
    n.sendLast m tx =
      ⟨{ n with txtime := tx.txtime, completeAfterTx := true }, some m, false⟩ := by
  rw [Node.sendLast, if_neg (by simp [ht])]

/-- The message was solicited. -/
lemma twrDs_handler {n' : Node S} (d : Delivered cfg rx n) (a : Accepted cfg rx n n')
    {r : Effect S × Bool} : whenSolicited rx n' r = r := by
  unfold whenSolicited
  have hf : ¬ rx.fctrl ≠ fctrlRange16 := not_not.mpr d.fctrl
  rw [if_neg hf, if_neg (by rw [a.sem]; exact d.solicited)]

variable (tx) in
/-- The request at the responder: one slot holds the first two time stamps, and is sent. -/
lemma answered_request (d : Delivered cfg rx n) (hc : rx.msg.frame.code = .dsTwr)
    (hl : rx.msg.len = requestLen) (ht : tx.startTxError = false) :
    ∃ f, Answered cfg rx tx n (n.rxComplete cfg rx tx) responseLen f ∧
      (n.rxComplete cfg rx tx).node.frames (cfg.ring.next n.idx) = f ∧
      f.fctrl = fctrlRange16 ∧ f.code = .dsTwrT1 ∧
      f.reception = rx.timestamp ∧ f.transmission = tx.planned := by
  obtain ⟨n', a, e⟩ := rxComplete_twrDs tx d
  rw [e, TwrDs.rxComplete, twrDs_handler d a]
  simp only [a.code, hc, dsRequest, hl, decide_true, if_true, send_of_started ht]
  refine ⟨_, ⟨rfl, a.idx, rfl, a.sem, ?_, rfl⟩, ?_, ?_, rfl, rfl, rfl⟩
  · simp only [TwrFrame.answer, a.frame, receive_srcAddress]
  · rw [← a.cur, setFrame_self]
  · simp only [TwrFrame.answer, a.frame, receive_fctrl, d.fctrl]

variable (tx) in
/-- The response at the initiator: the slot of the response holds the first round, and the slot after
    it the first half of the second, which is sent. -/
lemma answered_t1 (d : Delivered cfg rx n) (hc : rx.msg.frame.code = .dsTwrT1)
    (hl : rx.msg.len = responseLen) (hlde : rx.ldeError = false) (ht : tx.startTxError = false) :
    ∃ f, Answered cfg rx tx n (n.rxComplete cfg rx tx) finalLen f ∧
      (n.rxComplete cfg rx tx).node.frames (cfg.ring.next (n.idx + 1)) = f ∧
      f.fctrl = (n.frames (cfg.ring.next (n.idx + 1))).fctrl ∧ f.code = .dsTwrT2 ∧
      f.reception = rx.timestamp ∧ f.transmission = tx.planned ∧
      f.request = n.txtime ∧ f.response = rx.timestamp ∧
      (n.rxComplete cfg rx tx).node.frames (cfg.ring.next n.idx) =
        { (n.frames (cfg.ring.next n.idx)).receive rx.msg with
          request := n.txtime
          response := rx.timestamp
          carrierIntegrator := rx.carrierIntegrator } := by
  obtain ⟨n', a, e⟩ := rxComplete_twrDs tx d
  have hne : cfg.ring.cur n'.idx ≠ cfg.ring.next n'.idx := (cfg.ring.next_ne_cur n'.idx).symm
  rw [e, TwrDs.rxComplete, twrDs_handler d a]
  simp only [a.code, hc, dsT1, hl, hlde, decide_true, Bool.not_false, Bool.and_self, if_true,
    Bool.false_eq_true, if_false, send_of_started ht, setFrame_idx]
  refine ⟨_, ⟨rfl, a.idx, rfl, a.sem, ?_, rfl⟩, ?_, ?_, rfl, rfl, rfl, a.txtime, rfl, ?_⟩
  · simp only [t2Frame, a.frame, receive_srcAddress]
  · rw [← a.idx, setFrame_self]
  · simp only [t2Frame, a.next_frame]
  · rw [← a.frame, ← a.cur, ← a.txtime, setFrame_of_ne _ _ hne, setFrame_of_ne _ _ hne,
      setFrame_self]

variable (tx) in
/-- The second message at the responder: the slot of the request is completed by the first round of
    the initiator, and the slot of the message holds the second round, which is sent. -/
lemma answered_t2 (d : Delivered cfg rx n) (hc : rx.msg.frame.code = .dsTwrT2)
    (hl : rx.msg.len = finalLen) (hlde : rx.ldeError = false) (ht : tx.startTxError = false) :
    ∃ f, Answered cfg rx tx n (n.rxComplete cfg rx tx) finalLen f ∧
      (n.rxComplete cfg rx tx).node.frames (cfg.ring.next n.idx) = f ∧
      f.fctrl = fctrlRange16 ∧ f.code = .dsTwrFinal ∧
      f.reception = rx.msg.frame.reception ∧ f.transmission = rx.msg.frame.transmission ∧
      f.request = n.txtime ∧ f.response = rx.timestamp ∧
      (n.rxComplete cfg rx tx).node.frames (cfg.ring.cur n.idx) =
        { n.frames (cfg.ring.cur n.idx) with
          request := rx.msg.frame.request, response := rx.msg.frame.response } := by
  obtain ⟨n', a, e⟩ := rxComplete_twrDs tx d
  obtain ⟨hrec, htra, hreq, hres⟩ :=
    receive_final (n.frames (cfg.ring.next n.idx)) rx.msg (Nat.le_of_eq hl.symm)
  have hne : cfg.ring.cur n.idx ≠ cfg.ring.cur n'.idx := by
    rw [a.cur]
    exact (cfg.ring.next_ne_cur n.idx).symm
  rw [e, TwrDs.rxComplete, twrDs_handler d a]
  simp only [a.code, hc, dsT2, hl, hlde, decide_true, Bool.not_false, Bool.and_self, if_true,
    sendLast_of_started ht]
  refine ⟨_, ⟨rfl, a.idx, rfl, a.sem, ?_, rfl⟩, ?_, ?_, rfl, ?_, ?_, a.txtime, rfl, ?_⟩
  · simp only [TwrFrame.answer, a.frame, receive_srcAddress]
  · rw [← a.cur, setFrame_self]
  · simp only [TwrFrame.answer, a.frame, receive_fctrl, d.fctrl]
  · simp only [TwrFrame.answer, a.frame, hrec]
  · simp only [TwrFrame.answer, a.frame, htra]
  · rw [setFrame_of_ne _ _ hne, ← a.prev, setFrame_self]
    simp only [a.prev_frame, a.frame, hreq, hres]
    rw [a.prev]

variable (tx) in
/-- The last message at the initiator: the slot of the second round is completed, and the exchange
    is done. -/
lemma completed_final (d : Delivered cfg rx n) (hc : rx.msg.frame.code = .dsTwrFinal) :
    (n.rxComplete cfg rx tx).issued = true ∧ (n.rxComplete cfg rx tx).node.idx = n.idx + 1 ∧
      (n.rxComplete cfg rx tx).node.frames (cfg.ring.next n.idx) =
        (n.frames (cfg.ring.next n.idx)).receive rx.msg ∧
      (n.rxComplete cfg rx tx).node.frames (cfg.ring.cur n.idx) =
        n.frames (cfg.ring.cur n.idx) := by
  obtain ⟨n', a, e⟩ := rxComplete_twrDs tx d
  rw [e, TwrDs.rxComplete, twrDs_handler d a]
  simp only [a.code, hc]
  refine ⟨rfl, a.idx, ?_, ?_⟩
  · rw [← a.frame, ← a.cur]
    rfl
  · rw [← a.prev_frame, ← a.prev]
    rfl

variable (cfg tx) in
omit [Stamp S] in
/-- A request that starts: nothing but the slot it is built in and the registers change. -/
lemma request_started (hs : n.sem = 1) (slot : Nat) (dst : UInt16) (code : Code)
    (ht : tx.startTxError = false) :
    ∃ seqNum, (n.request cfg slot dst code tx).sent =
        some ⟨requestLen, requestFrame cfg code dst seqNum (n.frames slot)⟩ ∧
      (n.request cfg slot dst code tx).node.idx = n.idx ∧
      (n.request cfg slot dst code tx).node.sem = 0 ∧
      (n.request cfg slot dst code tx).node.txtime = tx.txtime ∧
      ∀ i, i ≠ slot → (n.request cfg slot dst code tx).node.frames i = n.frames i := by
  rw [Node.request, if_neg (by rw [hs]; decide), send_of_started ht]
  refine ⟨_, rfl, rfl, ?_, rfl, fun i hi => setFrame_of_ne _ _ hi⟩
  simp only [hs, Nat.sub_self]

/-! ## The exchange -/

/-- Two nodes and the times of an exchange, in ticks of their common rate: `t0` when the request is
    sent, the time of flight `tau`, the delays `d1`, `d2` and `d3` of the replies, and the offsets of
    both clocks. -/
structure DsExchange where
  cfgA : Cfg
  cfgB : Cfg
  a : Node (BitVec 32)
  b : Node (BitVec 32)
  offsetA : BitVec 32
  offsetB : BitVec 32
  t0 : Nat
  tau : Nat
  d1 : Nat
  d2 : Nat
  d3 : Nat
  skew : BitVec 32 → ℚ
  carrier : Nat → BitVec 32
  /-- every interval is below `2 ^ 31` -/
  round1_lt : 2 * tau + d1 < 2 ^ 31
  round2_lt : 2 * tau + d2 < 2 ^ 31
  /-- the initiator is about to ask, the responder listens, and both have `twr_ds` -/
  idleA : a.sem = 1
  listensB : b.sem = 0
  installedA : .twrDs ∈ cfgA.packages
  installedB : .twrDs ∈ cfgB.packages
  /-- the second message of the initiator is a ranging frame, so that it is delivered to the
      handler -/
  deliveredT2 : (a.frames (cfgA.ring.next (a.idx + 1))).fctrl = fctrlRange16

namespace DsExchange
variable (x : DsExchange)

/-- The counter of the initiator, `t` ticks after the request is sent. -/
def stampA (t : Nat) : BitVec 32 := x.offsetA + BitVec.ofNat 32 (x.t0 + t)

/-- The counter of the responder. -/
def stampB (t : Nat) : BitVec 32 := x.offsetB + BitVec.ofNat 32 (x.t0 + t)

/-- A transmission that starts and leaves at the time it was planned for. -/
def onTime (t : BitVec 32) : Tx (BitVec 32) := ⟨t, false, t⟩

/-- A message received at the counter value `t`. -/
def received (m : Msg (BitVec 32)) (t : BitVec 32) (i : Nat) : Rx (BitVec 32) :=
  ⟨m, t, 0, false, false, x.carrier i⟩

/-- The initiator sends its request. -/
def ask : Effect (BitVec 32) :=
  x.a.request x.cfgA (x.cfgA.ring.next x.a.idx) x.cfgB.myShortAddress .dsTwr (onTime (x.stampA 0))

/-- The responder gets the request. -/
def respond (m1 : Msg (BitVec 32)) : Effect (BitVec 32) :=
  x.b.rxComplete x.cfgB (x.received m1 (x.stampB x.tau) 1) (onTime (x.stampB (x.tau + x.d1)))

/-- The initiator gets the response. -/
def advance (m2 : Msg (BitVec 32)) : Effect (BitVec 32) :=
  x.ask.node.rxComplete x.cfgA (x.received m2 (x.stampA (2 * x.tau + x.d1)) 2)
    (onTime (x.stampA (2 * x.tau + x.d1 + x.d2)))

/-- The responder gets the second message of the initiator. -/
def report (m1 m3 : Msg (BitVec 32)) : Effect (BitVec 32) :=
  (x.respond m1).node.rxComplete x.cfgB
    (x.received m3 (x.stampB (3 * x.tau + x.d1 + x.d2)) 3)
    (onTime (x.stampB (3 * x.tau + x.d1 + x.d2 + x.d3)))

/-- The initiator gets the report. -/
def finish (m2 m4 : Msg (BitVec 32)) : Effect (BitVec 32) :=
  (x.advance m2).node.rxComplete x.cfgA
    (x.received m4 (x.stampA (4 * x.tau + x.d1 + x.d2 + x.d3)) 4) (onTime 0)

/-- The exchange, each message handled by the peer of its sender. What is left are the two nodes. -/
def run : Option (Node (BitVec 32) × Node (BitVec 32)) := do
  let m1 ← x.ask.sent
  let m2 ← (x.respond m1).sent
  let m3 ← (x.advance m2).sent
  let m4 ← (x.report m1 m3).sent
  some ((x.finish m2 m4).node, (x.report m1 m3).node)

/-- Both sides end with the two frames of the exchange at `idx - 1` and `idx`, and the time of
    flight they give is `tau`. -/
def Exact : Prop :=
  ∃ a b, x.run = some (a, b) ∧ a.idx = x.a.idx + 2 ∧ b.idx = x.b.idx + 2 ∧
    uwbRngTwrToTof x.cfgA x.skew a.frames a.idx = some (x.tau : ℚ) ∧
    uwbRngTwrToTof x.cfgB x.skew b.frames b.idx = some (x.tau : ℚ)

end DsExchange

/-- The two frames of an exchange with its eight time stamps. -/
structure Ranged (first second : TwrFrame (BitVec 32)) (s1 r2 p2 r3 p3 r4 : BitVec 32) : Prop where
  code : second.code.isDoubleSided = true ∧ second.code.isSingleSided = false
  first_request : first.request = s1
  first_reception : first.reception = r2
  first_transmission : first.transmission = p2
  first_response : first.response = r3
  request : second.request = p2
  reception : second.reception = r3
  transmission : second.transmission = p3
  response : second.response = r4

namespace DsExchange
variable {x : DsExchange}

/-- The difference of two times of one clock. -/
lemma stamp_sub (o : BitVec 32) (t0 a b : Nat) (h : b < 2 ^ 32) :
    (o + BitVec.ofNat 32 (t0 + (a + b)) - (o + BitVec.ofNat 32 (t0 + a))).toNat = b := by
  have hs : t0 + (a + b) = (t0 + a) + b := by ring
  rw [hs, BitVec.ofNat_add, ← BitVec.add_assoc, BitVec.add_comm _ (BitVec.ofNat 32 b),
    BitVec.add_sub_cancel, BitVec.toNat_ofNat, Nat.mod_eq_of_lt h]

/-- The time stamps of an exchange give its time of flight. -/
lemma tof_ranged {cfg : Cfg} {frames : Table (TwrFrame (BitVec 32))} {idx : UInt16}
    (h : Ranged (frames (cfg.ring.prev idx)) (frames (cfg.ring.cur idx)) (x.stampA 0)
      (x.stampB x.tau) (x.stampB (x.tau + x.d1)) (x.stampA (2 * x.tau + x.d1))
      (x.stampA (2 * x.tau + x.d1 + x.d2)) (x.stampB (3 * x.tau + x.d1 + x.d2))) :
    uwbRngTwrToTof cfg x.skew frames idx =
      if x.tau + x.d1 + x.d2 = 0 then none else some (x.tau : ℚ) := by
  have b1 := x.round1_lt
  have b2 := x.round2_lt
  unfold uwbRngTwrToTof
  dsimp only
  rw [h.code.2, h.code.1, h.first_request, h.first_reception, h.first_transmission,
    h.first_response, h.request, h.reception, h.transmission, h.response]
  simp only [Bool.false_eq_true, if_false, if_true]
  apply calcTofDs_eq _ _ _ _ b1 b2
  · have := stamp_sub x.offsetA x.t0 0 (2 * x.tau + x.d1) (by omega)
    rwa [Nat.zero_add] at this
  · exact stamp_sub x.offsetB x.t0 x.tau x.d1 (by omega)
  · have := stamp_sub x.offsetB x.t0 (x.tau + x.d1) (2 * x.tau + x.d2) (by omega)
    have he : x.tau + x.d1 + (2 * x.tau + x.d2) = 3 * x.tau + x.d1 + x.d2 := by ring
    rwa [he] at this
  · exact stamp_sub x.offsetA x.t0 (2 * x.tau + x.d1) x.d2 (by omega)

/-- The slots before and at an index that has moved by two. -/
lemma ring_slots (r : RingSize) {idx i : UInt16} (h : idx = i + 2) :
    r.prev idx = r.next i ∧ r.cur idx = r.next (i + 1) := by
  have h' : idx = i + 1 + 1 := by rw [h, UInt16.add_assoc]; rfl
  rw [h', r.prev_succ, r.cur_succ, r.cur_succ]
  exact ⟨rfl, rfl⟩

/-- The exchange runs to its end and leaves the same eight time stamps on both sides. -/
lemma run_ranged :
    ∃ a b, x.run = some (a, b) ∧ a.idx = x.a.idx + 2 ∧ b.idx = x.b.idx + 2 ∧
      Ranged (a.frames (x.cfgA.ring.prev a.idx)) (a.frames (x.cfgA.ring.cur a.idx)) (x.stampA 0)
        (x.stampB x.tau) (x.stampB (x.tau + x.d1)) (x.stampA (2 * x.tau + x.d1))
        (x.stampA (2 * x.tau + x.d1 + x.d2)) (x.stampB (3 * x.tau + x.d1 + x.d2)) ∧
      Ranged (b.frames (x.cfgB.ring.prev b.idx)) (b.frames (x.cfgB.ring.cur b.idx)) (x.stampA 0)
        (x.stampB x.tau) (x.stampB (x.tau + x.d1)) (x.stampA (2 * x.tau + x.d1))
        (x.stampA (2 * x.tau + x.d1 + x.d2)) (x.stampB (3 * x.tau + x.d1 + x.d2)) := by
  have len19 : requestLen ≤ responseLen := by decide
  have len31 : requestLen ≤ finalLen := by decide
  have len19A : responseLen ≤ x.cfgA.frameSize := Nat.le_trans (by decide) x.cfgA.frameSize_ge
  have len31A : finalLen ≤ x.cfgA.frameSize := Nat.le_trans (by decide) x.cfgA.frameSize_ge
  have len11B : requestLen ≤ x.cfgB.frameSize := Nat.le_trans (by decide) x.cfgB.frameSize_ge
  have len31B : finalLen ≤ x.cfgB.frameSize := Nat.le_trans (by decide) x.cfgB.frameSize_ge
  -- the request
  obtain ⟨q, sent1, idx1, sem1, txt1, frames1⟩ := request_started x.cfgA
    (onTime (x.stampA 0)) x.idleA (x.cfgA.ring.next x.a.idx) x.cfgB.myShortAddress .dsTwr rfl
  generalize hm1 : (⟨requestLen, requestFrame x.cfgA .dsTwr x.cfgB.myShortAddress q
    (x.a.frames (x.cfgA.ring.next x.a.idx))⟩ : Msg (BitVec 32)) = m1 at sent1
  change x.ask.sent = some m1 at sent1
  change x.ask.node.idx = x.a.idx at idx1
  change x.ask.node.sem = 0 at sem1
  change x.ask.node.txtime = x.stampA 0 at txt1
  change ∀ i, _ → x.ask.node.frames i = _ at frames1
  -- the response
  have del1 : Delivered x.cfgB (x.received m1 (x.stampB x.tau) 1) x.b := by
    subst hm1
    exact ⟨x.installedB, by rw [x.listensB]; decide, rfl, rfl, Nat.le_refl _, len11B, rfl⟩
  have src1 : m1.frame.srcAddress = x.cfgA.myShortAddress := by subst hm1; rfl
  obtain ⟨f2, ans2, slot2, fc2, code2, rec2, tra2⟩ := answered_request
    (onTime (x.stampB (x.tau + x.d1))) del1 (by subst hm1; rfl) (by subst hm1; rfl) rfl
  change Answered _ _ _ _ (x.respond m1) _ _ at ans2
  change (x.respond m1).node.frames _ = _ at slot2
  -- the second message of the initiator
  have del2 : Delivered x.cfgA (x.received ⟨responseLen, f2⟩ (x.stampA (2 * x.tau + x.d1)) 2)
      x.ask.node :=
    ⟨x.installedA, by rw [sem1]; decide, fc2, by simp [received, code2, Code.isTwrDs],
      len19, len19A, ans2.dst.trans src1⟩
  obtain ⟨f3, ans3, slot3, fc3, code3, rec3, tra3, req3, res3, first3⟩ := answered_t1
    (onTime (x.stampA (2 * x.tau + x.d1 + x.d2))) del2 code2 rfl rfl rfl
  change Answered _ _ _ _ (x.advance ⟨responseLen, f2⟩) _ _ at ans3
  change (x.advance ⟨responseLen, f2⟩).node.frames _ = _ at slot3 first3
  rw [idx1] at slot3 fc3 first3
  rw [frames1 _ (x.cfgA.ring.next_succ_ne_next x.a.idx), x.deliveredT2] at fc3
  -- the report
  have del3 : Delivered x.cfgB
      (x.received ⟨finalLen, f3⟩ (x.stampB (3 * x.tau + x.d1 + x.d2)) 3) (x.respond m1).node :=
    ⟨x.installedB, by rw [ans2.sem, x.listensB]; decide, fc3,
      by simp [received, code3, Code.isTwrDs], len31, len31B, ans3.dst.trans ans2.src⟩
  obtain ⟨f4, ans4, slot4, fc4, code4, rec4, tra4, req4, res4, prev4⟩ := answered_t2
    (onTime (x.stampB (3 * x.tau + x.d1 + x.d2 + x.d3))) del3 code3 rfl rfl rfl
  change Answered _ _ _ _ (x.report m1 ⟨finalLen, f3⟩) _ _ at ans4
  change (x.report m1 ⟨finalLen, f3⟩).node.frames _ = _ at slot4 prev4
  have idxB : (x.respond m1).node.idx = x.b.idx + 1 := ans2.idx
  rw [idxB] at slot4 prev4
  rw [x.cfgB.ring.cur_succ, slot2] at prev4
  -- the end of the exchange at the initiator
  have del4 : Delivered x.cfgA
      (x.received ⟨finalLen, f4⟩ (x.stampA (4 * x.tau + x.d1 + x.d2 + x.d3)) 4)
      (x.advance ⟨responseLen, f2⟩).node :=
    ⟨x.installedA, by rw [ans3.sem, sem1]; decide, fc4, by simp [received, code4, Code.isTwrDs],
      len31, len31A, ans4.dst.trans ans3.src⟩
  obtain ⟨_, idx5, slot5, prev5⟩ := completed_final (onTime 0) del4 code4
  change (x.finish ⟨responseLen, f2⟩ ⟨finalLen, f4⟩).node.frames _ = _ at slot5 prev5
  have idxA : (x.advance ⟨responseLen, f2⟩).node.idx = x.a.idx + 1 := by rw [ans3.idx, idx1]
  rw [idxA] at idx5 slot5 prev5
  rw [x.cfgA.ring.cur_succ, first3] at prev5
  obtain ⟨recA, traA, _, _⟩ := receive_response
    (x.ask.node.frames (x.cfgA.ring.next x.a.idx)) ⟨responseLen, f2⟩ rfl
  obtain ⟨rec5, tra5, req5, res5⟩ := receive_final
    ((x.advance ⟨responseLen, f2⟩).node.frames (x.cfgA.ring.next (x.a.idx + 1)))
    ⟨finalLen, f4⟩ (Nat.le_refl _)
  have two : (1 : UInt16) + 1 = 2 := rfl
  have endA : (x.finish ⟨responseLen, f2⟩ ⟨finalLen, f4⟩).node.idx = x.a.idx + 2 := by
    rw [← two, ← UInt16.add_assoc]
    exact idx5
  have endB : (x.report m1 ⟨finalLen, f3⟩).node.idx = x.b.idx + 2 := by
    rw [← two, ← UInt16.add_assoc, ← idxB]
    exact ans4.idx
  refine ⟨(x.finish ⟨responseLen, f2⟩ ⟨finalLen, f4⟩).node, (x.report m1 ⟨finalLen, f3⟩).node, ?_,
    endA, endB, ?_, ?_⟩
  · simp only [run, sent1, ans2.sent, ans3.sent, ans4.sent, Option.bind_eq_bind, Option.bind_some]
  · rw [(ring_slots _ endA).1, (ring_slots _ endA).2, prev5, slot5]
    refine ⟨?_, txt1, recA.trans rec2, traA.trans tra2, rfl, req5.trans (req4.trans ans2.txtime),
      rec5.trans (rec4.trans rec3), tra5.trans (tra4.trans tra3), res5.trans res4⟩
    have code5 : (x.received ⟨finalLen, f4⟩ (x.stampA (4 * x.tau + x.d1 + x.d2 + x.d3))
        4).msg.frame.code = .dsTwrFinal := code4
    rw [receive_code, code5]
    exact ⟨rfl, rfl⟩
  · rw [(ring_slots _ endB).1, (ring_slots _ endB).2, prev4, slot4]
    refine ⟨?_, req3.trans txt1, rec2, tra2, res3, req4.trans ans2.txtime, rec4.trans rec3,
      tra4.trans tra3, res4⟩
    rw [code4]
    exact ⟨rfl, rfl⟩

/-- The exchange gives the time of flight on both sides, except that where all intervals are zero
    the answer is not a number. -/
theorem dsExchange_tof (x : DsExchange) (h : 0 < x.tau + x.d1 + x.d2) : x.Exact := by
  obtain ⟨a, b, run, endA, endB, ranged_a, ranged_b⟩ := x.run_ranged
  refine ⟨a, b, run, endA, endB, ?_, ?_⟩
  · rw [tof_ranged ranged_a, if_neg (by omega)]
  · rw [tof_ranged ranged_b, if_neg (by omega)]

/-! ## Two nodes with one ring of four frames each -/

/-- A node with `twr_ds` and 4 frames, no filter in the radio. -/
def rangeCfg (address : UInt16) : Cfg where
  myShortAddress := address
  panId := 0xDECA
  frameFilter := false
  ring := .four
  frameSize := 120
  frameSize_ge := twrExtFrameSize_le
  packages := [.twrDs]

/-- Nodes 1 and 2, whose rings were in use, `tau` ticks apart and with replies after `d` ticks. The
    counter of the responder wraps during the exchange. -/
def between (tau d : Nat) (h : 2 * tau + d < 2 ^ 31) : DsExchange where
  cfgA := rangeCfg 1
  cfgB := rangeCfg 2
  a := { Node.init 0 with frames := fun _ => { TwrFrame.init 0 with fctrl := fctrlRange16 } }
  b := { Node.init 0 with sem := 0 }
  offsetA := 7
  offsetB := 0xFFFFFFF0
  t0 := 0
  tau := tau
  d1 := d
  d2 := d
  d3 := d
  skew _ := 0
  carrier _ := 0
  round1_lt := h
  round2_lt := h
  idleA := rfl
  listensB := rfl
  installedA := by decide
  installedB := by decide
  deliveredT2 := rfl

/-- An exchange over a thousand units. -/
theorem dsExchange_tof_between : (between 30 1000 (by decide)).Exact :=
  dsExchange_tof _ (by decide)

/-- With no distance and no delay all intervals are zero, and so is the denominator. -/
theorem dsExchange_tof_fails : ¬ ∀ x : DsExchange, x.Exact := by
  intro h
  obtain ⟨a, b, run, _, _, ha, _⟩ := h (between 0 0 (by decide))
  have hn : (between 0 0 (by decide)).run.map
      (fun p => (uwbRngTwrToTof (rangeCfg 1) (fun _ => 0) p.1.frames p.1.idx).isSome) =
      some false := by decide +kernel
  rw [run] at hn
  have hf : (uwbRngTwrToTof (rangeCfg 1) (fun _ => 0) a.frames a.idx).isSome = false :=
    Option.some.inj hn
  have hs : uwbRngTwrToTof (rangeCfg 1) (fun _ => 0) a.frames a.idx = some 0 := ha
  rw [hs] at hf
  cases hf

end DsExchange

end UwbCore.Rng
