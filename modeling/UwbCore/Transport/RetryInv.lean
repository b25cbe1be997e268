import UwbCore.Transport.Dequeue
import UwbCore.Transport.Framing

/-!
# The invariant of the retry law

How packets leave `tx_q` (`RetryLaw`), the events that may not come in between (`TxGuard`), and what the
progress of a call says of `ack_sem` and of the first packet (`TxInv`).
-/

namespace UwbCore.Transport
open UwbCore.Lib

variable {D : Type}

/-- How packets leave, and what a queued packet carries. -/
structure RetryLaw (w : TxWorld D) : Prop where
  order : w.ledger.left.map Departure.id ++ w.node.txQ.map TxPacket.id =
    List.range w.ledger.enqueued.length
  delivered : ∀ d ∈ w.ledger.left, d.delivered = true → d.acked = true
  dropped : ∀ d ∈ w.ledger.left, d.delivered = false → d.acked = false ∧
    ∃ e, w.ledger.enqueued[d.id]? = some e ∧ d.started = e.retries.toNat + 1
  kept : ∀ p ∈ w.node.txQ, ∃ e, w.ledger.enqueued[p.id]? = some e ∧
    Carries p.om e.payload e.dst e.tspCode

/-- A call pends for the acknowledgement of a started transmission. -/
def Waits (w : TxWorld D) : Prop := ∃ c ∈ w.calls, c.pc = .pend .ack

/-- Calls do not overlap, and what sets `ack_seq_num` finds a call that waits for it. -/
def TxGuard (w : TxWorld D) : TxEvent → Prop
  | .call _ _ => w.node.txQ = [] ∨ w.calls = []
  | .rxComplete rx => rx.fctrl = fctrlFrameTypeAck → w.node.ackSem = 0 → Waits w
  | .rxTimeout => w.node.ackSem = 0 → Waits w
  | .reset => w.node.ackSem = 0 → Waits w
  | _ => True

instance (w : TxWorld D) : Decidable (Waits w) :=
  inferInstanceAs (Decidable (∃ c ∈ w.calls, c.pc = .pend .ack))

instance (w : TxWorld D) : (e : TxEvent) → Decidable (TxGuard w e)
  | .call _ _ => inferInstanceAs (Decidable (w.node.txQ = [] ∨ w.calls = []))
  | .rxComplete rx =>
    inferInstanceAs (Decidable (rx.fctrl = fctrlFrameTypeAck → w.node.ackSem = 0 → Waits w))
  | .rxTimeout => inferInstanceAs (Decidable (w.node.ackSem = 0 → Waits w))
  | .reset => inferInstanceAs (Decidable (w.node.ackSem = 0 → Waits w))
  | .enqueue .. => isTrue trivial
  | .step .. => isTrue trivial
  | .txBegins => isTrue trivial
  | .txComplete => isTrue trivial

/-! ## The invariant -/

/-- What `ack_sem` is to a call: not taken, taken without a transmission, taken while one waits, or
    taken with the answer there, until it is released. -/
inductive Phase where
  | free
  | held
  | flying
  | judged (released : Bool)
  deriving DecidableEq

def Pc.phase : Pc → Phase
  | .start => .held
  | .check .errSem | .check .errLock | .check .errAck => .held
  | .release .errSem | .release .errLock | .release .errAck => .held
  | .pend .ack => .flying
  | .check .acked | .release .acked => .judged false
  | .compare => .judged true
  | _ => .free

/-- A transmission of the call's packet has started and is not yet settled. -/
def Phase.inFlight : Phase → Bool
  | .flying | .judged _ => true
  | _ => false

/-- The call has its packet in the transmit buffer. -/
def Pc.written : Pc → Bool
  | .pend .overlap | .pend .ackFree => true
  | pc => pc.phase != .free

def phaseOf : Option Call → Phase
  | none => .free
  | some c => c.pc.phase

/-- The packet of a started transmission that is not yet settled. -/
def flyOf : Option Call → Option Nat
  | none => none
  | some c => if c.pc.phase.inFlight then c.mp else none

/-- A queued packet carries what it was enqueued with, and the retries that are left. -/
def PacketOk (l : Ledger) (fly : Option Nat) (p : TxPacket) : Prop :=
  ∃ e k, l.enqueued[p.id]? = some e ∧ p.om.flat = e.payload ++ trailer e.dst e.tspCode k ∧
    2 ≤ p.om.last.data.length ∧
    k.toNat + l.started p.id = e.retries.toNat + (if fly = some p.id then 1 else 0) ∧
    (fly ≠ some p.id → l.acked p.id = false)

def DepartureOk (l : Ledger) (d : Departure) : Prop :=
  (d.delivered = true → d.acked = true) ∧
  (d.delivered = false → d.acked = false ∧
    ∃ e, l.enqueued[d.id]? = some e ∧ d.started = e.retries.toNat + 1)

/-- The answer says whether the packet was acknowledged. -/
def Settled (s : Instance D) (l : Ledger) (fly : Option Nat) : Prop :=
  ∀ id, fly = some id → (l.acked id = true ↔ s.ackSeqNum = s.frameSeqNum.toNat)

/-- `ack_sem` and the wait, phase by phase. -/
def AckOk (s : Instance D) (l : Ledger) (fly : Option Nat) : Phase → Prop
  | .free => s.ackSem = 1 ∧ l.waiting = none
  | .held => s.ackSem = 0 ∧ l.waiting = none
  | .flying =>
    (s.ackSem = 0 ∧ l.waiting = fly ∧
      ∀ id, fly = some id → l.acked id = false ∧ l.wrote id = s.frameSeqNum) ∨
    (s.ackSem = 1 ∧ l.waiting = none ∧ Settled s l fly)
  | .judged released => s.ackSem = (if released then 1 else 0) ∧ l.waiting = none ∧ Settled s l fly

/-- The packet a call points to is the first of the queue, and where it is in the transmit buffer
    it is there under the sequence number in use. -/
structure CallOk (s : Instance D) (l : Ledger) (c : Call) : Prop where
  head : ∀ id, c.mp = some id → s.txQ.head?.map TxPacket.id = some id
  packet : c.pc = .pend .lock ∨ c.pc = .write → c.mp ≠ none
  written : c.pc.written = true → c.transferred = true
  transferred : c.transferred = true → ∃ id, c.mp = some id ∧ l.wrote id = s.frameSeqNum ∧
    c.nSent = if c.pc.phase.inFlight then 1 else 0
  not_sent : c.pc ≠ .sent

structure TxInv (s : Instance D) (l : Ledger) (oc : Option Call) : Prop where
  order : l.left.map Departure.id ++ s.txQ.map TxPacket.id = List.range l.enqueued.length
  left_ok : ∀ d ∈ l.left, DepartureOk l d
  packets : ∀ p ∈ s.txQ, PacketOk l (flyOf oc) p
  room : s.txQ ≠ [] → 2 ≤ s.pool.databufLen
  fresh : ∀ id, l.enqueued.length ≤ id → l.started id = 0 ∧ l.acked id = false
  call : ∀ c, oc = some c → CallOk s l c
  ack : AckOk s l (flyOf oc) (phaseOf oc)

/-- The invariant says what the law is. -/
lemma TxInv.retryLaw {w : TxWorld D} {oc : Option Call} (h : TxInv w.node w.ledger oc) :
    RetryLaw w := by
  refine ⟨h.order, fun d hd => (h.left_ok d hd).1, fun d hd => (h.left_ok d hd).2, fun p hp => ?_⟩
  obtain ⟨e, k, he, hflat, -⟩ := h.packets p hp
  exact ⟨e, he, k, hflat⟩

/-- The node that begins. -/
lemma TxInv.init (dev : D) (uid panId : UInt16) (pool : Pool) :
    TxInv (Instance.init dev uid panId pool) .empty none := by
  refine ⟨rfl, ?_, ?_, ?_, fun _ _ => ⟨rfl, rfl⟩, ?_, rfl, rfl⟩
  · intro d hd
    cases hd
  · intro p hp
    cases hp
  · intro hne
    exact absurd rfl hne
  · intro c hc
    cases hc

/-- The queue, the pool, `ack_sem` and the two sequence numbers are the same. -/
structure SameTx (s s' : Instance D) : Prop where
  txQ : s'.txQ = s.txQ
  databufLen : s'.pool.databufLen = s.pool.databufLen
  ackSem : s'.ackSem = s.ackSem
  ackSeqNum : s'.ackSeqNum = s.ackSeqNum
  frameSeqNum : s'.frameSeqNum = s.frameSeqNum

section
variable {s s' : Instance D} {l : Ledger} {oc oc' : Option Call} {c c' : Call}

/-- Nothing changed. -/
lemma SameTx.rfl' : SameTx s s := ⟨rfl, rfl, rfl, rfl, rfl⟩

/-- Only `ack_sem`, the sequence numbers, the wait and the acknowledgements matter. -/
lemma AckOk.congr {l' : Ledger} {fly : Option Nat} {ph : Phase} (ha : AckOk s l fly ph)
    (hsem : s'.ackSem = s.ackSem) (hack : s'.ackSeqNum = s.ackSeqNum)
    (hseq : s'.frameSeqNum = s.frameSeqNum) (hwait : l'.waiting = l.waiting)
    (hacked : l'.acked = l.acked) (hwrote : l'.wrote = l.wrote) : AckOk s' l' fly ph := by
  cases ph with
  | free =>
    rw [AckOk, hsem, hwait]
    exact ha
  | held =>
    rw [AckOk, hsem, hwait]
    exact ha
  | flying =>
    rw [AckOk, Settled, hsem, hack, hseq, hwait, hacked, hwrote]
    exact ha
  | judged =>
    rw [AckOk, Settled, hsem, hack, hseq, hwait, hacked]
    exact ha

/-- The call in progress is in order. -/
lemma SameTx.callOk (h : SameTx s s') (hc : CallOk s l c) : CallOk s' l c := by
  refine ⟨?_, hc.packet, hc.written, ?_, hc.not_sent⟩
  · rw [h.txQ]
    exact hc.head
  · rw [h.frameSeqNum]
    exact hc.transferred

/-- A step that changes neither the queue nor what `ack_sem` is to the call. -/
lemma TxInv.move (h : TxInv s l oc) (hs : SameTx s s') (hph : phaseOf oc' = phaseOf oc)
    (hfly : flyOf oc' = flyOf oc) (hcall : ∀ c', oc' = some c' → CallOk s l c') :
    TxInv s' l oc' := by
  refine ⟨?_, h.left_ok, ?_, ?_, h.fresh, fun c' hc' => hs.callOk (hcall c' hc'), ?_⟩
  · rw [hs.txQ]
    exact h.order
  · rw [hs.txQ, hfly]
    exact h.packets
  · rw [hs.txQ, hs.databufLen]
    exact h.room
  · rw [hph, hfly]
    exact h.ack.congr hs.ackSem hs.ackSeqNum hs.frameSeqNum rfl rfl rfl

/-- Between calls, and where a call does not hold `ack_sem`, a call may start, go on or return. -/
lemma TxInv.free (h : TxInv s l oc) (hs : SameTx s s') (hph : phaseOf oc = .free)
    (hph' : phaseOf oc' = .free) (hcall : ∀ c', oc' = some c' → CallOk s l c') :
    TxInv s' l oc' := by
  have hfly : ∀ o : Option Call, phaseOf o = .free → flyOf o = none := by
    intro o ho
    cases o with
    | none => rfl
    | some c =>
      rw [phaseOf] at ho
      rw [flyOf, ho]
      rfl
  exact h.move hs (hph'.trans hph.symm) ((hfly oc' hph').trans (hfly oc hph).symm) hcall

/-- The packet a call works on is the first of the queue. -/
lemma CallOk.target (hc : CallOk s l c) : target s c = s.txQ.head? := by
  rw [Transport.target]
  cases hmp : c.mp with
  | none => rfl
  | some id =>
    have hhead := hc.head id hmp
    cases hq : s.txQ with
    | nil => rfl
    | cons p rest =>
      rw [hq] at hhead
      have hid : p.id = id := Option.some.inj hhead
      simp [hid]

/-- Its packet where it has one. -/
lemma CallOk.head_eq (hc : CallOk s l c) {id : Nat} (hmp : c.mp = some id) :
    ∃ p rest, s.txQ = p :: rest ∧ p.id = id := by
  have hhead := hc.head id hmp
  cases hq : s.txQ with
  | nil =>
    rw [hq] at hhead
    cases hhead
  | cons p rest =>
    rw [hq] at hhead
    exact ⟨p, rest, rfl, Option.some.inj hhead⟩

end

/-! ## The steps of a call -/

section
variable {cfg : Config} {hw : TxBuffer D} {phy : Phy} {ans : Answer} {w : TxWorld D} {c : Call}

/-- A call that goes on without a step of its packet. -/
lemma CallOk.goto {s : Instance D} {l : Ledger} (hc : CallOk s l c) {pc : Pc}
    (hph : pc.phase = c.pc.phase) (hpacket : pc = .pend .lock ∨ pc = .write → c.mp ≠ none)
    (hwritten : pc.written = true → c.transferred = true) (hsent : pc ≠ .sent) :
    CallOk s l { c with pc := pc } := by
  refine ⟨hc.head, hpacket, hwritten, fun ht => ?_, hsent⟩
  obtain ⟨id, hmp, hw, hn⟩ := hc.transferred ht
  refine ⟨id, hmp, hw, ?_⟩
  dsimp only at hn ⊢
  rw [hph, hn]

/-- A call that has written its packet has one. -/
lemma CallOk.mp_some {s : Instance D} {l : Ledger} (hc : CallOk s l c)
    (hw : c.pc.written = true) : ∃ id, c.mp = some id ∧ l.wrote id = s.frameSeqNum ∧
      c.nSent = if c.pc.phase.inFlight then 1 else 0 :=
  hc.transferred (hc.written hw)

/-- The top of the loop. -/
lemma TxInv.loopTop (h : TxInv w.node w.ledger (some c)) (hpc : c.pc = .loopTop) :
    TxInv w.node w.ledger (some (loopTop phy w c)) := by
  have hc := h.call c rfl
  have hph : phaseOf (some c) = .free := by rw [phaseOf, hpc]; rfl
  have hlast : CallOk w.node w.ledger { c with pc := .pend .last } :=
    hc.goto (by rw [hpc]; rfl) (by simp) (by simp [Pc.written, Pc.phase]) (fun h => by cases h)
  have hstop : TxInv w.node w.ledger (some { c with pc := .pend .last }) :=
    h.free .rfl' hph rfl fun c' e => by
      cases e
      exact hlast
  rw [Transport.loopTop]
  split
  · exact hstop
  · rw [hc.target]
    cases hq : w.node.txQ with
    | nil => exact hstop
    | cons p rest =>
      dsimp only [List.head?_cons]
      generalize isLate phy c.dxTimeEnd _ _ = late
      have hpc' : (Pc.pend (if late = true then .last else .lock)).phase = .free := by
        cases late with
        | false => rfl
        | true => rfl
      refine h.free .rfl' hph hpc' fun c' e => ?_
      cases e
      refine ⟨fun id e => ?_, (fun _ h => by cases h), fun hw => ?_, fun ht => ?_,
        (fun h => by cases h)⟩
      · cases e
        rw [hq]
        rfl
      · cases late with
        | false => cases hw
        | true => cases hw
      · rw [Bool.and_eq_true] at ht
        obtain ⟨id, hmp, hwrote, hn⟩ := hc.transferred ht.1
        obtain ⟨p', rest', hq', rfl⟩ := hc.head_eq hmp
        rw [hq] at hq'
        cases hq'
        refine ⟨p.id, rfl, hwrote, ?_⟩
        dsimp only
        rw [hpc', hn, hpc]
        rfl

/-- Writing a packet leaves the queue and `ack_sem` alone. -/
lemma writeTx_some {s s' : Instance D} {om : Mbuf} {idx : Nat}
    (h : writeTx cfg hw om idx s = some s') :
    s'.txQ = s.txQ ∧ s'.pool = s.pool ∧ s'.ackSem = s.ackSem ∧ s'.ackSeqNum = s.ackSeqNum := by
  simp only [writeTx, Option.bind_eq_bind, Option.bind_eq_some_iff] at h
  obtain ⟨dst, -, tsp, -, he⟩ := h
  cases he
  exact ⟨rfl, rfl, rfl, rfl⟩

/-- The packet is written. -/
lemma TxInv.write (h : TxInv w.node w.ledger (some c)) (hpc : c.pc = .write) :
    TxInv (writePacket cfg hw w c).1.node (writePacket cfg hw w c).1.ledger
      (some (writePacket cfg hw w c).2) := by
  have hc := h.call c rfl
  have hph : phaseOf (some c) = .free := by rw [phaseOf, hpc]; rfl
  rw [writePacket]
  split
  case isTrue ht =>
    refine h.free .rfl' hph rfl fun c' e => ?_
    cases e
    exact hc.goto (by rw [hpc]; rfl) (by simp) (fun _ => ht) (fun h => by cases h)
  case isFalse =>
    obtain ⟨id, hmp⟩ := Option.ne_none_iff_exists'.mp (hc.packet (.inr hpc))
    obtain ⟨p, rest, hq, rfl⟩ := hc.head_eq hmp
    rw [hc.target, hq, List.head?_cons, Option.bind_some]
    cases hw' : writeTx cfg hw p.om (c.idx + 1) w.node with
    | none => exact h
    | some node =>
      obtain ⟨htx, hpool, hsem, hseq⟩ := writeTx_some hw'
      dsimp only [Option.map_some]
      refine ⟨?_, h.left_ok, ?_, ?_, h.fresh, fun c' e => ?_, ?_⟩
      · rw [htx]
        exact h.order
      · rw [htx]
        have hfly : flyOf (some c) = none := by rw [flyOf, hpc]; rfl
        have hp := h.packets
        rw [hfly] at hp
        exact hp
      · rw [htx, hpool]
        exact h.room
      · cases e
        refine ⟨fun id e => ?_, fun _ => by rw [hmp]; exact Option.some_ne_none _,
          fun _ => rfl, fun _ => ?_, (fun h => by cases h)⟩
        · rw [htx]
          exact hc.head id e
        · refine ⟨p.id, hmp, ?_, rfl⟩
          exact Table.modify_self w.ledger.wrote p.id fun _ => node.frameSeqNum
      · have ha := h.ack
        rw [hph] at ha
        exact ⟨hsem.trans ha.1, ha.2⟩

/-- The ids of the queue are all different. -/
lemma TxInv.ne_head {s : Instance D} {l : Ledger} {oc : Option Call} (h : TxInv s l oc)
    {p q : TxPacket} {rest : List TxPacket} (hq : s.txQ = p :: rest) (hmem : q ∈ rest) :
    q.id ≠ p.id := by
  have hnodup : (s.txQ.map TxPacket.id).Nodup := by
    have hrange := List.nodup_range (n := l.enqueued.length)
    rw [← h.order] at hrange
    exact (List.nodup_append.mp hrange).2.1
  rw [hq, List.map_cons, List.nodup_cons] at hnodup
  intro he
  exact hnodup.1 (List.mem_map.mpr ⟨q, hmem, he⟩)

end

end UwbCore.Transport
