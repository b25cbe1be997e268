import UwbCore.Rng.Complete

/-!
# Any number of nodes that range

Nodes with `twr_ss` and `twr_ds` send messages over the air, where a message may be lost, delayed,
repeated or heard by others. An exchange is a request with its initiator and the node that answers
it, so a request to all nodes begins one exchange with each node that answers. A time stamp carries
the exchange of the message it was taken on and the node whose clock it was read from.

The handlers go by the code of a message alone. What they combine is of one exchange as long as an
answer is taken up only by a node whose last transmission, and where both rounds of a double-sided
exchange meet also the frame it took up last, were of that exchange (`World.Guard`).
-/

namespace UwbCore.Rng
open UwbCore.Lib

/-! ## Exchanges and time stamps -/

/-- The exchange of a message: the number of the request, the node that made it, and the node that
    answers it, which the request itself leaves open. -/
structure Exch where
  request : Nat
  initiator : Nat
  responder : Option Nat
  deriving DecidableEq

/-- The exchange that node `n` is in when it takes up a message of `x`. -/
def Exch.at (x : Exch) (n : Nat) : Exch := { x with responder := x.responder.or (some n) }

/-- A message of `y` is one of the exchange `x`: its request, or a later message of it. -/
def Exch.Joins (y x : Exch) : Prop :=
  y.request = x.request ∧ y.initiator = x.initiator ∧
    (y.responder = none ∨ y.responder = x.responder)

/-- The node is one of the two of the exchange. -/
def Exch.Party (x : Exch) (n : Nat) : Prop := x.initiator = n ∨ x.responder = some n

/-- Where a time stamp comes from: the exchange of the message, and the node that measured it. -/
structure Origin where
  exch : Exch
  clock : Nat
  deriving DecidableEq

/-- A time stamp and where it comes from. -/
structure Tagged where
  time : BitVec 32
  origin : Option Origin
  deriving DecidableEq

/-- A part of a stamp written over another leaves a stamp of no origin, unless both have the same. -/
def Tagged.overlay (k : Nat) (old new : Tagged) : Tagged :=
  ⟨overlayWord k old.time new.time,
    if k = 0 then old.origin else if 4 ≤ k then new.origin
    else if old.origin = new.origin then old.origin else none⟩

/-- No byte of the new stamp leaves the old one. -/
lemma Tagged.overlay_zero (old new : Tagged) : Tagged.overlay 0 old new = old := rfl

/-- All bytes of the new stamp give the new one. -/
lemma Tagged.overlay_full (k : Nat) (old new : Tagged) (h : 4 ≤ k) :
    Tagged.overlay k old new = new := by
  have h0 : k ≠ 0 := by omega
  simp [Tagged.overlay, overlayWord, h0, h]

instance : Stamp Tagged where
  overlay := Tagged.overlay
  isZero s := s.time = 0
  overlay_zero := Tagged.overlay_zero
  overlay_full := Tagged.overlay_full

/-- The stamp was taken on a message of the exchange, by one of its two nodes. -/
def Tagged.Of (x : Exch) (s : Tagged) : Prop := ∃ o ∈ s.origin, o.exch.Joins x ∧ x.Party o.clock

/-- The time stamps that `uwb_rng_twr_to_tof` combines. -/
def tofStamps {S : Type} (cfg : Cfg) (n : Node S) : List S :=
  let firstFrame := n.frames (cfg.ring.prev n.idx)
  let frame := n.frame cfg
  if frame.code.isSingleSided then
    [frame.response, frame.request, frame.transmission, frame.reception]
  else if frame.code.isDoubleSided then
    [firstFrame.response, firstFrame.request, firstFrame.transmission, firstFrame.reception,
      frame.response, frame.request, frame.transmission, frame.reception]
  else []

/-- All time stamps of one completion belong to messages of one exchange, with one initiator and one
    responder. -/
def OneExchange (l : List Tagged) : Prop :=
  ∃ request initiator responder, ∀ s ∈ l, s.Of ⟨request, initiator, some responder⟩

/-- The requests of the messages that the stamps were taken on. -/
def Tagged.request? (s : Tagged) : Option Nat := s.origin.map (·.exch.request)

/-- Stamps of one exchange were taken on messages of one request. -/
lemma OneExchange.request_eq {l : List Tagged} (h : OneExchange l) :
    ∀ s ∈ l, ∀ s' ∈ l, s.request? = s'.request? := by
  obtain ⟨k, a, b, h⟩ := h
  have hk : ∀ s ∈ l, s.request? = some k := by
    intro s hs
    obtain ⟨o, ho, ⟨hk, -, -⟩, -⟩ := h s hs
    rw [Tagged.request?, ho]
    exact congrArg some hk
  intro s hs s' hs'
  rw [hk s hs, hk s' hs']

/-! ## The network -/

/-- The nodes have the packages `twr_ss` and `twr_ds`. -/
structure Net where
  cfg : Nat → Cfg
  packages : ∀ n, ∀ p ∈ (cfg n).packages, p = .twrSs ∨ p = .twrDs

/-- A message on the air and its exchange. -/
structure OnAir where
  exch : Exch
  msg : Msg Tagged

/-- What the radio does with a received message and with the answer to it. -/
structure Radio where
  timestamp : BitVec 32
  timestampHigh : BitVec 32
  ldeError : Bool
  carrierIntegrator : BitVec 32
  planned : BitVec 32
  startTxError : Bool
  txtime : BitVec 32

/-- The message as node `n` receives it. -/
def Radio.rx (r : Radio) (n : Nat) (m : OnAir) : Rx Tagged :=
  ⟨m.msg, ⟨r.timestamp, some ⟨m.exch, n⟩⟩, r.timestampHigh, r.ldeError, false, r.carrierIntegrator⟩

/-- A transmission of node `n` for the exchange `x`. -/
def Radio.tx (r : Radio) (n : Nat) (x : Exch) : Tx Tagged :=
  ⟨⟨r.planned, some ⟨x, n⟩⟩, r.startTxError, ⟨r.txtime, some ⟨x, n⟩⟩⟩

/-- The shared layer takes the message up: it advances to the frame with the message. -/
def Accepts {S : Type} (cfg : Cfg) (n : Node S) (rx : Rx S) : Prop :=
  rx.Ranging ∧ n.sem ≠ 1 ∧ requestLen ≤ rx.msg.len ∧ rx.msg.frame.code.isTwr = true ∧
    rx.msg.len ≤ cfg.frameSize ∧
    (cfg.frameFilter = true ∨ rx.msg.frame.dstAddress = cfg.myShortAddress)

instance {S : Type} (cfg : Cfg) (n : Node S) (rx : Rx S) : Decidable (Accepts cfg n rx) :=
  inferInstanceAs (Decidable (_ ∧ _))

/-- Which of the two packages is for a code. -/
def Code.package : Code → Package
  | .ssTwr | .ssTwrT1 | .ssTwrFinal => .twrSs
  | _ => .twrDs

/-- The node has the package for the message, and the frame control is the one it looks for. -/
def Handles (cfg : Cfg) (m : Msg Tagged) : Prop :=
  m.frame.fctrl = fctrlRange16 ∧ m.frame.code.package ∈ cfg.packages

instance (cfg : Cfg) (m : Msg Tagged) : Decidable (Handles cfg m) :=
  inferInstanceAs (Decidable (_ ∧ _))

/-- A message that a package of the node has handled: the exchange, the code, and whether there was
    a leading edge error. -/
structure Taken where
  exch : Exch
  code : Code
  ldeError : Bool

/-- The frame of such a message has all four time stamps. -/
def Taken.Full (t : Taken) : Prop :=
  (t.code = .ssTwrT1 ∨ t.code = .dsTwrT1) ∧ t.ldeError = false ∨
    t.code = .ssTwrFinal ∨ t.code = .dsTwrT2 ∨ t.code = .dsTwrFinal

instance (t : Taken) : Decidable t.Full := inferInstanceAs (Decidable (_ ∨ _))

/-- What an accepted message is for the node: `none` where no package handles it. -/
def OnAir.taken (m : OnAir) (cfg : Cfg) (n : Nat) (ldeError : Bool) : Option Taken :=
  if Handles cfg m.msg then some ⟨m.exch.at n, m.msg.frame.code, ldeError⟩ else none

/-- The nodes, the messages that were ever sent, and of every node the exchange of its last
    transmission (`none` for another service) and the message it took up last. `issued` are the
    completions. -/
structure World where
  nodes : Table (Node Tagged)
  air : List OnAir
  sent : Table (Option Exch)
  taken : Table (Option Taken)
  exchanges : Nat
  issued : List (List Tagged)

/-- The steps of the network. `deliver` takes any message that was ever sent to any node, and
    `hearOther` is a frame of another service. -/
inductive NetEvent where
  | request (n slot : Nat) (dst : UInt16) (double : Bool) (r : Radio)
  | deliver (n i : Nat) (r : Radio)
  | hearOther (n : Nat) (m : Msg Tagged) (r : Radio)
  | listen (n : Nat) (startRxError : Bool)
  | pend (n : Nat)
  | giveBack (n : Nat)
  | giveBackIfZero (n : Nat)
  | txComplete (n : Nat)
  | rxTimeout (n : Nat)
  | reset (n : Nat)
  | otherTx (n : Nat) (txtime : BitVec 32)

namespace World

/-- The exchange that a request of node `n` would begin now. -/
def fresh (w : World) (n : Nat) : Exch := ⟨w.exchanges, n, none⟩

/-- An effect at node `n`, of which a message is one of the exchange `x`. -/
def apply (net : Net) (w : World) (n : Nat) (x : Exch) (taken : Option Taken) (e : Effect Tagged) :
    World :=
  { w with
    nodes := w.nodes.modify n fun _ => e.node
    air := w.air ++ (e.sent.map (OnAir.mk x)).toList
    sent := w.sent.modify n fun last => if e.sent.isSome then some x else last
    taken := w.taken.modify n fun _ => taken
    issued := if e.issued then w.issued ++ [tofStamps (net.cfg n) e.node] else w.issued }

/-- A call or callback that sends nothing. -/
def atNode (net : Net) (w : World) (n : Nat) (e : Effect Tagged) : World :=
  w.apply net n (w.fresh n) (w.taken n) e

def step (net : Net) (w : World) : NetEvent → World
  | .request n slot dst double r =>
    if (w.nodes n).sem = 0 then w
    else
      { w.apply net n (w.fresh n) (w.taken n) ((w.nodes n).request (net.cfg n) slot dst
          (if double then .dsTwr else .ssTwr) (r.tx n (w.fresh n))) with
        exchanges := w.exchanges + 1 }
  | .deliver n i r =>
    match w.air[i]? with
    | none => w
    | some m =>
      w.apply net n (m.exch.at n)
        (if Accepts (net.cfg n) (w.nodes n) (r.rx n m) then m.taken (net.cfg n) n r.ldeError
          else w.taken n)
        ((w.nodes n).rxComplete (net.cfg n) (r.rx n m) (r.tx n (m.exch.at n)))
  | .hearOther n m r =>
    if (r.rx n ⟨w.fresh n, m⟩).Ranging then w
    else w.atNode net n
      ((w.nodes n).rxComplete (net.cfg n) (r.rx n ⟨w.fresh n, m⟩) (r.tx n (w.fresh n)))
  | .listen n startRxError => w.atNode net n ((w.nodes n).listen startRxError).quiet
  | .pend n => w.atNode net n (w.nodes n).pend.quiet
  | .giveBack n => w.atNode net n (w.nodes n).release.quiet
  | .giveBackIfZero n => w.atNode net n (w.nodes n).releaseIfZero.quiet
  | .txComplete n =>
    w.atNode net n ((w.nodes n).txComplete (net.cfg n) ⟨⟨0, none⟩, true, ⟨0, none⟩⟩)
  | .rxTimeout n => w.atNode net n (w.nodes n).rxTimeout.quiet
  | .reset n => w.atNode net n (w.nodes n).reset.quiet
  | .otherTx n txtime =>
    { w.atNode net n { w.nodes n with txtime := ⟨txtime, none⟩ }.quiet with
      sent := w.sent.modify n fun _ => none }

def init : World where
  nodes := fun _ => .init ⟨0, none⟩
  air := []
  sent := fun _ => none
  taken := fun _ => none
  exchanges := 0
  issued := []

/-- The time stamps of every completion belong to one exchange. -/
def Integrity (w : World) : Prop := ∀ l ∈ w.issued, OneExchange l

/-! ## The condition -/

/-- The node's last transmission is a message of the exchange. -/
def LastSent (w : World) (n : Nat) (x : Exch) : Prop := ∃ y ∈ w.sent n, y.Joins x

/-- An accepted message comes in the order of its exchange. A response, and the report of the
    initiator in a double-sided exchange, answer the last transmission of the node; that report and
    the last message come when nothing else was taken up since the message before. -/
def InOrder (w : World) (cfg : Cfg) (n : Nat) (m : OnAir) (ldeError : Bool) : Prop :=
  (m.msg.frame.code = .ssTwrT1 ∨ m.msg.frame.code = .dsTwrT1 → ldeError = false →
    Handles cfg m.msg → w.LastSent n m.exch) ∧
  (m.msg.frame.code = .dsTwrT2 → ldeError = false → Handles cfg m.msg →
    w.LastSent n m.exch ∧ ∃ t ∈ w.taken n, t.exch = m.exch) ∧
  (m.msg.frame.code = .dsTwrFinal → ∃ t ∈ w.taken n, t.exch = m.exch ∧ t.Full)

/-- Messages are accepted in order, and an exchange is completed after a transmission only where the
    current frame is that of a last message. -/
def Guard (net : Net) (w : World) : NetEvent → Prop
  | .deliver n i r =>
    ∀ m ∈ w.air[i]?, Accepts (net.cfg n) (w.nodes n) (r.rx n m) →
      w.InOrder (net.cfg n) n m r.ldeError
  | .txComplete n =>
    (w.nodes n).completeAfterTx = true → (w.nodes n).sem ≠ 1 →
      ((w.nodes n).frame (net.cfg n)).code = .ssTwrFinal ∨
        ((w.nodes n).frame (net.cfg n)).code = .dsTwrFinal
  | _ => True

instance (y x : Exch) : Decidable (y.Joins x) := inferInstanceAs (Decidable (_ ∧ _))

instance (w : World) (n : Nat) (x : Exch) : Decidable (w.LastSent n x) :=
  inferInstanceAs (Decidable (∃ y ∈ w.sent n, y.Joins x))

instance (w : World) (cfg : Cfg) (n : Nat) (m : OnAir) (lde : Bool) :
    Decidable (w.InOrder cfg n m lde) :=
  inferInstanceAs (Decidable (_ ∧ (_ → _ → _ → _ ∧ ∃ t ∈ w.taken n, _) ∧ (_ → ∃ t ∈ w.taken n, _)))

instance decidableGuard (net : Net) (w : World) : (e : NetEvent) → Decidable (w.Guard net e)
  | .deliver n i r =>
    inferInstanceAs (Decidable (∀ m ∈ w.air[i]?, Accepts (net.cfg n) (w.nodes n) (r.rx n m) →
      w.InOrder (net.cfg n) n m r.ldeError))
  | .txComplete n =>
    inferInstanceAs (Decidable ((w.nodes n).completeAfterTx = true → (w.nodes n).sem ≠ 1 →
      ((w.nodes n).frame (net.cfg n)).code = .ssTwrFinal ∨
        ((w.nodes n).frame (net.cfg n)).code = .dsTwrFinal))
  | .request .. | .hearOther .. | .listen .. | .pend _ | .giveBack _ | .giveBackIfZero _
  | .rxTimeout _ | .reset _ | .otherTx .. => isTrue trivial

end World

/-! ## The laws of exchanges -/

/-- A message that already has a responder is of one exchange for every node. -/
lemma Exch.at_of_responder {x : Exch} (h : x.responder.isSome = true) (n : Nat) : x.at n = x := by
  obtain ⟨b, hb⟩ := Option.isSome_iff_exists.mp h
  rw [Exch.at, hb]
  cases x
  cases hb
  rfl

/-- The node that takes a request up is the responder. -/
lemma Exch.at_of_request {x : Exch} (h : x.responder = none) (n : Nat) :
    (x.at n).responder = some n := by
  rw [Exch.at, h]
  rfl

/-- Every exchange that a node takes a message up in has a responder. -/
lemma Exch.at_isSome (x : Exch) (n : Nat) : (x.at n).responder.isSome = true := by
  rw [Exch.at]
  cases x.responder <;> rfl

/-- An exchange joins itself. -/
lemma Exch.Joins.refl (x : Exch) : x.Joins x := ⟨rfl, rfl, .inr rfl⟩

/-- A message is one of the exchange that the node takes it up in. -/
lemma Exch.joins_at (x : Exch) (n : Nat) : x.Joins (x.at n) := by
  refine ⟨rfl, rfl, ?_⟩
  cases h : x.responder with
  | none => exact .inl rfl
  | some b => exact .inr (by rw [Exch.at, h]; rfl)

/-- A node of a message that joins an exchange is a node of it. -/
lemma Exch.Party.joins {x y : Exch} {n : Nat} (h : y.Party n) (j : y.Joins x) : x.Party n := by
  obtain ⟨-, ha, hb⟩ := j
  cases h with
  | inl h => exact .inl (ha.symm.trans h)
  | inr h =>
    cases hb with
    | inl hb => cases hb.symm.trans h
    | inr hb => exact .inr (hb.symm.trans h)

/-- A stamp that a node of the exchange took on a message of it. -/
lemma Tagged.Of.intro {x y : Exch} {n : Nat} {s : Tagged} (h : s.origin = some ⟨y, n⟩)
    (j : y.Joins x) (p : x.Party n) : s.Of x := ⟨_, h, j, p⟩

/-- Stamps that are all of one exchange. -/
lemma oneExchange_of {l : List Tagged} {x : Exch} (h : ∀ s ∈ l, s.Of x) : OneExchange l := by
  refine ⟨x.request, x.initiator, x.responder.getD x.initiator, fun s hs => ?_⟩
  obtain ⟨o, ho, ⟨hk, ha, hb⟩, hp⟩ := h s hs
  cases hx : x.responder with
  | none =>
    rw [hx] at hb
    refine ⟨o, ho, ⟨hk, ha, .inl (or_self_iff.mp hb)⟩, .inl ?_⟩
    exact hp.resolve_right fun h => by cases hx.symm.trans h
  | some b =>
    rw [hx] at hb
    refine ⟨o, ho, ⟨hk, ha, hb⟩, ?_⟩
    cases hp with
    | inl hp => exact .inl hp
    | inr hp => exact .inr (hx.symm.trans hp)

end UwbCore.Rng
