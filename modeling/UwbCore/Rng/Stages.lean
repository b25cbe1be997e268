import UwbCore.Rng.Exchange

/-!
# The stages of an exchange, one by one

Every message on the air carries the time stamps of its own exchange (`AirOk`), and so does the
frame that a node took up last (`NodeOk`). Each stage of `twr_ss` and `twr_ds` keeps this
(`Orderly`), given what the message finds at the node (`Ready`).
-/

namespace UwbCore.Rng
open UwbCore.Lib

/-! ## The invariant -/

/-- The time stamps of the responder are of exchange `x`. -/
def HalfOf (x : Exch) (f : TwrFrame Tagged) : Prop := f.reception.Of x ∧ f.transmission.Of x

/-- All four time stamps are of exchange `x`. -/
def AllOf (x : Exch) (f : TwrFrame Tagged) : Prop :=
  HalfOf x f ∧ f.request.Of x ∧ f.response.Of x

/-- The codes of `twr_ss` and `twr_ds`. -/
def twrCodes : List Code :=
  [.ssTwr, .ssTwrT1, .ssTwrFinal, .dsTwr, .dsTwrT1, .dsTwrT2, .dsTwrFinal]

/-- They are codes of the ranging service. -/
lemma isTwr_of_mem : ∀ c ∈ twrCodes, c.isTwr = true := by decide

/-- The codes of a message that is no request. -/
def Code.IsAnswer (c : Code) : Prop := c ≠ .ssTwr ∧ c ≠ .dsTwr

/-- A message on the air carries the time stamps of its exchange. -/
structure AirOk (a : OnAir) : Prop where
  len_ge : requestLen ≤ a.msg.len
  len_le : a.msg.len ≤ finalLen
  code : a.msg.frame.code ∈ twrCodes
  request : a.msg.frame.code = .ssTwr ∨ a.msg.frame.code = .dsTwr →
    a.msg.len = requestLen ∧ a.exch.responder = none
  answer : a.msg.frame.code.IsAnswer → a.exch.responder.isSome = true
  half : a.msg.frame.code = .ssTwrT1 ∨ a.msg.frame.code = .dsTwrT1 →
    a.msg.len = responseLen ∧ HalfOf a.exch a.msg.frame
  all : a.msg.frame.code = .ssTwrFinal ∨ a.msg.frame.code = .dsTwrT2 ∨
      a.msg.frame.code = .dsTwrFinal →
    a.msg.len = finalLen ∧ AllOf a.exch a.msg.frame

/-- Node `i` with the exchange of its last transmission and the message it took up last: the frames
    of a last message are of one exchange, and so is what the two of them say. -/
structure NodeOk (cfg : Cfg) (i : Nat) (sent : Option Exch) (taken : Option Taken)
    (n : Node Tagged) : Prop where
  ss : (n.frame cfg).code = .ssTwrFinal → ∃ x, AllOf x (n.frame cfg)
  ds : (n.frame cfg).code = .dsTwrFinal →
    ∃ x, AllOf x (n.frame cfg) ∧ AllOf x (n.frames (cfg.ring.prev n.idx))
  sent : ∀ y ∈ sent, n.txtime.origin = some ⟨y, i⟩ ∧ y.Party i
  taken : ∀ t ∈ taken, HalfOf t.exch (n.frame cfg) ∧ (t.Full → AllOf t.exch (n.frame cfg))

structure World.Inv (net : Net) (w : World) : Prop where
  air : ∀ a ∈ w.air, AirOk a
  nodes : ∀ i, NodeOk (net.cfg i) i (w.sent i) (w.taken i) (w.nodes i)
  issued : w.Integrity

/-- An effect of exchange `x` at node `i` keeps nodes, messages and completions in order. -/
structure Orderly (cfg : Cfg) (i : Nat) (sent : Option Exch) (taken : Option Taken) (x : Exch)
    (e : Effect Tagged) : Prop where
  node : NodeOk cfg i (if e.sent.isSome then some x else sent) taken e.node
  air : ∀ m, e.sent = some m → AirOk ⟨x, m⟩
  issued : e.issued = true → OneExchange (tofStamps cfg e.node)

section Nodes
variable {cfg : Cfg} {i : Nat} {sent : Option Exch} {taken : Option Taken} {n n' : Node Tagged}
  {x : Exch} {tx : Tx Tagged} {m : Msg Tagged}

/-- The completion of an exchange whose last message is the current frame. -/
lemma NodeOk.oneExchange (h : NodeOk cfg i sent taken n)
    (hc : (n.frame cfg).code = .ssTwrFinal ∨ (n.frame cfg).code = .dsTwrFinal) :
    OneExchange (tofStamps cfg n) := by
  unfold tofStamps
  cases hc with
  | inl hc =>
    obtain ⟨x, ⟨hrec, htra⟩, hreq, hres⟩ := h.ss hc
    refine oneExchange_of (x := x) ?_
    simp [hc, Code.isSingleSided, hrec, htra, hreq, hres]
  | inr hc =>
    obtain ⟨x, ⟨⟨hrec, htra⟩, hreq, hres⟩, ⟨hrec', htra'⟩, hreq', hres'⟩ := h.ds hc
    refine oneExchange_of (x := x) ?_
    simp [hc, Code.isSingleSided, Code.isDoubleSided, hrec, htra, hreq, hres, hrec', htra', hreq',
      hres']

/-- Frames, index and the time of the last transmission are all that counts of a node. -/
lemma NodeOk.congr (h : NodeOk cfg i sent taken n) (hf : n'.frames = n.frames)
    (hi : n'.idx = n.idx) (ht : n'.txtime = n.txtime) : NodeOk cfg i sent taken n' := by
  have he : n'.frame cfg = n.frame cfg := by rw [Node.frame, Node.frame, hf, hi]
  constructor
  case ss => rw [he]; exact h.ss
  case ds => rw [he, hf, hi]; exact h.ds
  case sent => rw [ht]; exact h.sent
  case taken => rw [he]; exact h.taken

/-- The last transmission alone concerns the time of it alone. -/
lemma NodeOk.transmit (h : NodeOk cfg i sent taken n) {t : Tagged} {last : Option Exch}
    (hl : ∀ y ∈ last, t.origin = some ⟨y, i⟩ ∧ y.Party i) :
    NodeOk cfg i last taken { n with txtime := t } where
  ss := h.ss
  ds := h.ds
  sent := hl
  taken := h.taken

/-- The semaphore is released if it is taken. -/
lemma NodeOk.releaseIfZero (h : NodeOk cfg i sent taken n) :
    NodeOk cfg i sent taken n.releaseIfZero := by
  unfold Node.releaseIfZero
  split
  case isTrue => exact h.congr rfl rfl rfl
  case isFalse => exact h

/-- The acknowledgment is of no matter. -/
lemma NodeOk.ackOnly (h : NodeOk cfg i sent taken n) (ha : AckOnly n n') :
    NodeOk cfg i sent taken n' := by
  obtain ⟨_, _, _, _, rfl⟩ := ha
  exact h.congr rfl rfl rfl

/-- The slot that a message is copied to takes no part in a completion. -/
lemma NodeOk.store {rx : Rx Tagged} (h : NodeOk cfg i sent taken n) :
    NodeOk cfg i sent taken (n.store cfg rx) := by
  have hcur : (n.store cfg rx).frame cfg = n.frame cfg :=
    setFrame_of_ne _ _ (cfg.ring.next_ne_cur n.idx).symm
  have hprev : (n.store cfg rx).frames (cfg.ring.prev n.idx) =
      n.frames (cfg.ring.prev n.idx) := setFrame_of_ne _ _ (cfg.ring.next_ne_prev n.idx).symm
  constructor
  case ss => rw [hcur]; exact h.ss
  case ds => rw [hcur]; exact fun hc => hprev.symm ▸ h.ds hc
  case sent => exact h.sent
  case taken => rw [hcur]; exact h.taken

/-- Nothing is sent. -/
lemma Orderly.quiet (h : NodeOk cfg i sent taken n) : Orderly cfg i sent taken x n.quiet where
  node := h
  air _ hm := by cases hm
  issued hi := by cases hi

/-- A message leaves the node with the frame it was built in, and is its last transmission. -/
lemma Orderly.send (hn : NodeOk cfg i sent taken n) (hm : AirOk ⟨x, m⟩)
    (htx : tx.txtime.origin = some ⟨x, i⟩) (hp : x.Party i) :
    Orderly cfg i sent taken x (n.send m tx) := by
  unfold Node.send
  split
  case isTrue => exact .quiet (hn.congr rfl rfl rfl)
  case isFalse =>
    refine ⟨hn.transmit fun y hy => ?_, fun m' h => ?_, fun h => by cases h⟩
    · cases hy
      exact ⟨htx, hp⟩
    · cases h
      exact hm

/-- A last message completes the exchange at once where it cannot be sent. -/
lemma Orderly.sendLast (hn : NodeOk cfg i sent taken n)
    (hc : (n.frame cfg).code = .ssTwrFinal ∨ (n.frame cfg).code = .dsTwrFinal)
    (hm : AirOk ⟨x, m⟩) (htx : tx.txtime.origin = some ⟨x, i⟩) (hp : x.Party i) :
    Orderly cfg i sent taken x (n.sendLast m tx) := by
  unfold Node.sendLast
  split
  case isTrue =>
    exact ⟨hn.congr rfl rfl rfl, (fun m' h => by cases h), fun _ => hn.oneExchange hc⟩
  case isFalse =>
    have hl : ∀ y ∈ some x, tx.txtime.origin = some ⟨y, i⟩ ∧ y.Party i := by
      intro y hy
      cases hy
      exact ⟨htx, hp⟩
    have h := hn.transmit hl
    refine ⟨h.congr rfl rfl rfl, fun m' h => ?_, fun h => by cases h⟩
    cases h
    exact hm

/-- An exchange is complete. -/
lemma Orderly.complete (hn : NodeOk cfg i sent taken n)
    (hc : (n.frame cfg).code = .ssTwrFinal ∨ (n.frame cfg).code = .dsTwrFinal) :
    Orderly cfg i sent taken x n.complete where
  node := hn.congr rfl rfl rfl
  air m h := by cases h
  issued _ := hn.oneExchange hc

/-- A frame that nobody asked for. -/
lemma Orderly.unsolicited (h : NodeOk cfg i sent taken n) {rx : Rx Tagged}
    (hu : n.sem = 1 ∨ ¬rx.Ranging) :
    Orderly cfg i sent taken x
      (firstOf (cfg.packages.map (Package.rxComplete cfg rx tx)) n) := by
  obtain ⟨hn, hs, hi⟩ := firstOf_unsolicited cfg tx cfg.packages n hu
  refine ⟨?_, fun m hm => ?_, fun h => ?_⟩
  · rw [hs]
    exact h.ackOnly hn
  · cases hs.symm.trans hm
  · cases hi.symm.trans h

end Nodes

/-! ## The messages a node sends -/

section Messages
variable {f : TwrFrame Tagged} {x : Exch}

/-- A response with the time stamps of its exchange. -/
lemma airOk_t1 (hc : f.code = .ssTwrT1 ∨ f.code = .dsTwrT1) (hx : x.responder.isSome = true)
    (h : HalfOf x f) : AirOk ⟨x, ⟨responseLen, f⟩⟩ where
  len_ge := show requestLen ≤ responseLen by decide
  len_le := show responseLen ≤ finalLen by decide
  code := by cases hc with | inl hc => simp [hc, twrCodes] | inr hc => simp [hc, twrCodes]
  request hf := by cases hc with | inl hc => simp [hc] at hf | inr hc => simp [hc] at hf
  answer _ := hx
  half _ := ⟨rfl, h⟩
  all hf := by cases hc with | inl hc => simp [hc] at hf | inr hc => simp [hc] at hf

/-- A message with all time stamps of its exchange. -/
lemma airOk_all (hc : f.code = .ssTwrFinal ∨ f.code = .dsTwrT2 ∨ f.code = .dsTwrFinal)
    (hx : x.responder.isSome = true) (h : AllOf x f) : AirOk ⟨x, ⟨finalLen, f⟩⟩ where
  len_ge := show requestLen ≤ finalLen by decide
  len_le := Nat.le_refl _
  code := by rcases hc with hc | hc | hc <;> simp [hc, twrCodes]
  request hf := by rcases hc with hc | hc | hc <;> simp [hc] at hf
  answer _ := hx
  half hf := by rcases hc with hc | hc | hc <;> simp [hc] at hf
  all _ := ⟨rfl, h⟩

/-- A request, which has no responder yet. -/
lemma airOk_request (hc : f.code = .ssTwr ∨ f.code = .dsTwr) (hx : x.responder = none) :
    AirOk ⟨x, ⟨requestLen, f⟩⟩ where
  len_ge := Nat.le_refl _
  len_le := show requestLen ≤ finalLen by decide
  code := by cases hc with | inl hc => simp [hc, twrCodes] | inr hc => simp [hc, twrCodes]
  request _ := ⟨rfl, hx⟩
  answer hf := (hc.elim hf.1 hf.2).elim
  half hf := by cases hc with | inl hc => simp [hc] at hf | inr hc => simp [hc] at hf
  all hf := by cases hc with | inl hc => simp [hc] at hf | inr hc => simp [hc] at hf

end Messages

/-! ## The stages of the handlers -/

section Stages
variable {cfg : Cfg} {a : OnAir} {r : Radio} {i : Nat} {sent : Option Exch} {n : Node Tagged}

@[simp] lemma setFrame_cur (f : TwrFrame Tagged) :
    (n.setFrame (cfg.ring.cur n.idx) f).frame cfg = f := setFrame_self n _ f

/-- The current frame after the second message of the initiator is built. -/
lemma frame_dsT1 (f g g' : TwrFrame Tagged) :
    (((n.setFrame (cfg.ring.cur n.idx) f).setFrame (cfg.ring.next n.idx) g).setFrame
      (cfg.ring.next n.idx) g').frame cfg = f := by
  have hne : cfg.ring.cur n.idx ≠ cfg.ring.next n.idx := (cfg.ring.next_ne_cur n.idx).symm
  exact (setFrame_of_ne _ _ hne).trans ((setFrame_of_ne _ _ hne).trans (setFrame_self _ _ _))

/-- The two frames of the exchange after the report is built. -/
lemma frames_dsT2 (f g : TwrFrame Tagged) :
    ((n.setFrame (cfg.ring.prev n.idx) g).setFrame (cfg.ring.cur n.idx) f).frame cfg = f ∧
      ((n.setFrame (cfg.ring.prev n.idx) g).setFrame (cfg.ring.cur n.idx) f).frames
        (cfg.ring.prev n.idx) = g :=
  ⟨setFrame_self _ _ _,
    (setFrame_of_ne _ _ (cfg.ring.cur_ne_prev n.idx).symm).trans (setFrame_self _ _ _)⟩

/-- The node as the handlers of an accepted message find it. -/
structure Ready (cfg : Cfg) (i : Nat) (sent : Option Exch) (a : OnAir) (n : Node Tagged) : Prop where
  air : AirOk a
  code : n.code = a.msg.frame.code
  frame_code : (n.frame cfg).code = a.msg.frame.code
  half : a.msg.frame.code = .ssTwrT1 ∨ a.msg.frame.code = .dsTwrT1 → HalfOf a.exch (n.frame cfg)
  all : a.msg.frame.code = .ssTwrFinal ∨ a.msg.frame.code = .dsTwrT2 ∨
    a.msg.frame.code = .dsTwrFinal → AllOf a.exch (n.frame cfg)
  final : a.msg.frame.code = .dsTwrFinal → AllOf a.exch (n.frames (cfg.ring.prev n.idx))
  sent : ∀ y ∈ sent, n.txtime.origin = some ⟨y, i⟩ ∧ y.Party i

namespace Ready

/-- The last transmission was in the exchange: the node is one of its two, and the time is its. -/
lemma lastSent (h : Ready cfg i sent a n) (g : ∃ y ∈ sent, y.Joins a.exch) :
    n.txtime.Of a.exch ∧ a.exch.Party i := by
  obtain ⟨y, hy, j⟩ := g
  obtain ⟨ho, hp⟩ := h.sent y hy
  exact ⟨.intro ho j (hp.joins j), hp.joins j⟩

/-- An answer is of the exchange it names. -/
lemma at_eq (h : Ready cfg i sent a n) (hc : a.msg.frame.code.IsAnswer) : a.exch.at i = a.exch :=
  Exch.at_of_responder (h.air.answer hc) i

/-- Before a package has handled it, the message makes the frame only that it brings. -/
lemma nodeOk (h : Ready cfg i sent a n) {taken : Option Taken}
    (ht : ∀ t ∈ taken, HalfOf t.exch (n.frame cfg) ∧ (t.Full → AllOf t.exch (n.frame cfg))) :
    NodeOk cfg i sent taken n where
  ss hc := ⟨a.exch, h.all (.inl (h.frame_code.symm.trans hc))⟩
  ds hc :=
    have hc' := h.frame_code.symm.trans hc
    ⟨a.exch, h.all (.inr (.inr hc')), h.final hc'⟩
  sent := h.sent
  taken := ht

/-- A message with all time stamps is taken up as it is. -/
lemma nodeOk_all (h : Ready cfg i sent a n) (hc : a.msg.frame.code.IsAnswer)
    (hall : a.msg.frame.code = .ssTwrFinal ∨ a.msg.frame.code = .dsTwrT2 ∨
      a.msg.frame.code = .dsTwrFinal) (ldeError : Bool) :
    NodeOk cfg i sent (some ⟨a.exch.at i, a.msg.frame.code, ldeError⟩) n := by
  refine h.nodeOk fun t ht => ?_
  cases ht
  rw [h.at_eq hc]
  exact ⟨(h.all hall).1, fun _ => h.all hall⟩

end Ready

/-- A frame that has got its time stamps and its code, with the frame before it for a last
    message of a double-sided exchange. -/
lemma Ready.nodeOk_of (h : Ready cfg i sent a n) {n' : Node Tagged} {t : Taken}
    (htx : n'.txtime = n.txtime) (half : HalfOf t.exch (n'.frame cfg))
    (all : (t.Full ∨ (n'.frame cfg).code = .ssTwrFinal ∨ (n'.frame cfg).code = .dsTwrFinal) →
      AllOf t.exch (n'.frame cfg))
    (ds : (n'.frame cfg).code = .dsTwrFinal → AllOf t.exch (n'.frames (cfg.ring.prev n'.idx))) :
    NodeOk cfg i sent (some t) n' where
  ss hc := ⟨t.exch, all (.inr (.inl hc))⟩
  ds hc := ⟨t.exch, all (.inr (.inr hc)), ds hc⟩
  sent := by rw [htx]; exact h.sent
  taken t' ht := by
    cases ht
    exact ⟨half, fun hf => all (.inl hf)⟩

/-- What the radio measures on the message is of the exchange for one of its two nodes. -/
lemma rx_of (hp : (a.exch.at i).Party i) : (r.rx i a).timestamp.Of (a.exch.at i) :=
  .intro rfl (Exch.joins_at a.exch i) hp

/-- So is the time that the answer is planned for. -/
lemma tx_of {x : Exch} (hp : x.Party i) : (r.tx i x).planned.Of x := .intro rfl (.refl x) hp

/-- The answer to a request. -/
lemma orderly_ssRequest (h : Ready cfg i sent a n) {t1 : Code}
    (ht : t1 = .ssTwrT1 ∨ t1 = .dsTwrT1)
    (hc : a.msg.frame.code = .ssTwr ∨ a.msg.frame.code = .dsTwr) :
    Orderly cfg i sent (some ⟨a.exch.at i, a.msg.frame.code, r.ldeError⟩) (a.exch.at i)
      (ssRequest t1 responseLen cfg (r.rx i a) (r.tx i (a.exch.at i)) n) := by
  have hp : (a.exch.at i).Party i := .inr (Exch.at_of_request (h.air.request hc).2 i)
  refine .send (h.nodeOk_of rfl ?_ (fun hf => ?_) fun hf => ?_)
    (airOk_t1 ht (Exch.at_isSome _ _) ⟨rx_of hp, tx_of hp⟩) rfl hp
  · rw [setFrame_cur]
    exact ⟨rx_of hp, tx_of hp⟩
  · rw [setFrame_cur] at hf
    rcases hf with hf | hf | hf
    · cases hc with
      | inl hc => simp [Taken.Full, hc] at hf
      | inr hc => simp [Taken.Full, hc] at hf
    · cases ht with
      | inl ht => cases ht.symm.trans hf
      | inr ht => cases ht.symm.trans hf
    · cases ht with
      | inl ht => cases ht.symm.trans hf
      | inr ht => cases ht.symm.trans hf
  · rw [setFrame_cur] at hf
    cases ht with
    | inl ht => cases ht.symm.trans hf
    | inr ht => cases ht.symm.trans hf

/-- A response that is not answered for its leading edge error is in the frame as it came. -/
lemma orderly_unanswered (h : Ready cfg i sent a n) {ldeError : Bool}
    (hc : a.msg.frame.code = .ssTwrT1 ∨ a.msg.frame.code = .dsTwrT1) (hl : ldeError = true) :
    Orderly cfg i sent (some ⟨a.exch.at i, a.msg.frame.code, ldeError⟩) (a.exch.at i)
      n.quiet := by
  have ha : a.msg.frame.code.IsAnswer := by
    cases hc with
    | inl hc => simp [Code.IsAnswer, hc]
    | inr hc => simp [Code.IsAnswer, hc]
  refine .quiet (h.nodeOk fun t ht => ?_)
  cases ht
  rw [h.at_eq ha]
  refine ⟨h.half hc, fun hf => ?_⟩
  cases hc with
  | inl hc => simp [Taken.Full, hc, hl] at hf
  | inr hc => simp [Taken.Full, hc, hl] at hf

/-- The report of the initiator in a single-sided exchange. -/
lemma orderly_ssT1 (h : Ready cfg i sent a n) (hc : a.msg.frame.code = .ssTwrT1)
    (g : r.ldeError = false → ∃ y ∈ sent, y.Joins a.exch) :
    Orderly cfg i sent (some ⟨a.exch.at i, a.msg.frame.code, r.ldeError⟩) (a.exch.at i)
      (ssT1 .ssTwrFinal responseLen cfg (r.rx i a) (r.tx i (a.exch.at i)) n) := by
  have hx : a.exch.at i = a.exch := h.at_eq (by simp [Code.IsAnswer, hc])
  unfold Rng.ssT1
  split
  case isTrue hok =>
    cases hok with
    | inl hl => exact absurd (h.air.half (.inl hc)).1 hl
    | inr hl => exact orderly_unanswered h (.inl hc) hl
  case isFalse hok =>
    have hl : r.ldeError = false := Bool.eq_false_iff.mpr fun hl => hok (.inr hl)
    obtain ⟨htx, hp⟩ := h.lastSent (g hl)
    rw [← hx] at htx hp
    have hall : AllOf (a.exch.at i) ({ n.frame cfg with
        request := n.txtime
        response := (r.rx i a).timestamp
        carrierIntegrator := (r.rx i a).carrierIntegrator }.answer cfg .ssTwrFinal) :=
      ⟨hx.symm ▸ h.half (.inl hc), htx, rx_of hp⟩
    refine .sendLast (h.nodeOk_of rfl ?_ (fun _ => ?_) fun hf => ?_) (.inl ?_)
      (airOk_all (.inl rfl) (Exch.at_isSome _ _) hall) rfl hp
    · rw [setFrame_cur]
      exact hall.1
    · rw [setFrame_cur]
      exact hall
    · rw [setFrame_cur] at hf
      cases hf
    · rw [setFrame_cur]
      rfl

/-- The end of a single-sided exchange at the responder. -/
lemma orderly_ssFinal (h : Ready cfg i sent a n) (hc : a.msg.frame.code = .ssTwrFinal) :
    Orderly cfg i sent (some ⟨a.exch.at i, a.msg.frame.code, r.ldeError⟩) (a.exch.at i)
      (ssFinal (r.rx i a) n) := by
  have hn := h.nodeOk_all (by simp [Code.IsAnswer, hc]) (.inl hc) r.ldeError
  unfold Rng.ssFinal
  split
  case isTrue => exact .quiet hn
  case isFalse => exact .complete hn (.inl (h.frame_code.trans hc))

/-- The second message of the initiator in a double-sided exchange. -/
lemma orderly_dsT1 (h : Ready cfg i sent a n) (hc : a.msg.frame.code = .dsTwrT1)
    (g : r.ldeError = false → ∃ y ∈ sent, y.Joins a.exch) :
    Orderly cfg i sent (some ⟨a.exch.at i, a.msg.frame.code, r.ldeError⟩) (a.exch.at i)
      (dsT1 .dsTwrT2 finalLen (!(r.rx i a).ldeError && (r.rx i a).msg.len = responseLen) cfg
        (r.rx i a) (r.tx i (a.exch.at i)) n) := by
  have hx : a.exch.at i = a.exch := h.at_eq (by simp [Code.IsAnswer, hc])
  have hcode : (n.frame cfg).code = .dsTwrT1 := h.frame_code.trans hc
  have hlen : (r.rx i a).msg.len = responseLen := (h.air.half (.inr hc)).1
  have hlde : (r.rx i a).ldeError = r.ldeError := rfl
  unfold Rng.dsT1
  rw [hlde, hlen, decide_eq_true rfl, Bool.and_true]
  cases hl : r.ldeError with
  | true =>
    rw [if_neg (by decide)]
    exact orderly_unanswered h (.inr hc) rfl
  | false =>
    obtain ⟨htx, hp⟩ := h.lastSent (g hl)
    rw [← hx] at htx hp
    rw [Bool.not_false, if_pos rfl]
    dsimp only
    rw [if_neg Bool.false_ne_true]
    have hall : AllOf (a.exch.at i) { n.frame cfg with
        request := n.txtime
        response := (r.rx i a).timestamp
        carrierIntegrator := (r.rx i a).carrierIntegrator } :=
      ⟨hx.symm ▸ h.half (.inr hc), htx, rx_of hp⟩
    refine .send (h.nodeOk_of rfl ?_ (fun _ => ?_) fun hf => ?_)
      (airOk_all (.inr (.inl rfl)) (Exch.at_isSome _ _) ⟨⟨rx_of hp, tx_of hp⟩, htx, rx_of hp⟩) rfl hp
    · exact (congrArg (HalfOf (a.exch.at i)) (frame_dsT1 _ _ _)).mpr hall.1
    · exact (congrArg (AllOf (a.exch.at i)) (frame_dsT1 _ _ _)).mpr hall
    · exact absurd ((congrArg TwrFrame.code (frame_dsT1 _ _ _)).symm.trans hf) (by simp [hcode])

/-- The report of the responder in a double-sided exchange. -/
lemma orderly_dsT2 (h : Ready cfg i sent a n) (hc : a.msg.frame.code = .dsTwrT2)
    (g : r.ldeError = false →
      (∃ y ∈ sent, y.Joins a.exch) ∧ HalfOf a.exch (n.frames (cfg.ring.prev n.idx))) :
    Orderly cfg i sent (some ⟨a.exch.at i, a.msg.frame.code, r.ldeError⟩) (a.exch.at i)
      (dsT2 .dsTwrFinal finalLen (!(r.rx i a).ldeError && (r.rx i a).msg.len = finalLen) cfg
        (r.rx i a) (r.tx i (a.exch.at i)) n) := by
  have ha : a.msg.frame.code.IsAnswer := by simp [Code.IsAnswer, hc]
  have hx : a.exch.at i = a.exch := h.at_eq ha
  unfold Rng.dsT2
  split
  case isFalse => exact .quiet (h.nodeOk_all ha (.inr (.inl hc)) r.ldeError)
  case isTrue hok =>
    have hl : r.ldeError = false := by
      cases hl : r.ldeError with
      | false => rfl
      | true => simp [Radio.rx, hl] at hok
    obtain ⟨hsent, hprev⟩ := g hl
    obtain ⟨htx, hp⟩ := h.lastSent hsent
    obtain ⟨hhalf, hreq, hres⟩ := h.all (.inr (.inl hc))
    rw [← hx] at htx hp hprev hhalf hreq hres
    have hall : AllOf (a.exch.at i) ({ n.frame cfg with
        request := n.txtime
        response := (r.rx i a).timestamp
        carrierIntegrator := -(r.rx i a).carrierIntegrator }.answer cfg .dsTwrFinal) :=
      ⟨hhalf, htx, rx_of hp⟩
    have hpall : AllOf (a.exch.at i) { n.frames (cfg.ring.prev n.idx) with
        request := (n.frame cfg).request
        response := (n.frame cfg).response } := ⟨hprev, hreq, hres⟩
    refine .sendLast (h.nodeOk_of rfl ?_ (fun _ => ?_) fun _ => ?_) (.inr ?_)
      (airOk_all (.inr (.inr rfl)) (Exch.at_isSome _ _) hall) rfl hp
    · rw [(frames_dsT2 _ _).1]
      exact hall.1
    · rw [(frames_dsT2 _ _).1]
      exact hall
    · exact (frames_dsT2 _ _).2 ▸ hpall
    · exact congrArg TwrFrame.code (frames_dsT2 _ _).1

/-- The end of a double-sided exchange at the initiator. -/
lemma orderly_dsFinal (h : Ready cfg i sent a n) (hc : a.msg.frame.code = .dsTwrFinal) :
    Orderly cfg i sent (some ⟨a.exch.at i, a.msg.frame.code, r.ldeError⟩) (a.exch.at i)
      n.complete :=
  .complete (h.nodeOk_all (by simp [Code.IsAnswer, hc]) (.inr (.inr hc)) r.ldeError)
    (.inr (h.frame_code.trans hc))

end Stages

end UwbCore.Rng
