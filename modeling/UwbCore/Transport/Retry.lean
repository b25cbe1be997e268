import UwbCore.Transport.RetryCall

/-!
# The retry law

With acknowledgements requested, a packet leaves `tx_q` as delivered after its acknowledgement, or
as dropped after one transmission more than its retries, none of them acknowledged, and packets
leave in the order they were enqueued. This holds as long as calls do not overlap and `ack_seq_num`
is set only while a started transmission is waited for (`retryLaw_of_guarded`): the count of
`ack_sem` is 0 for longer than that.
-/

namespace UwbCore.Transport
open UwbCore.Lib

variable {D : Type}

/-! ## The other events -/

section
variable {cfg : Config} {s s' : Instance D} {l : Ledger} {oc : Option Call}

/-- The packet of a transmission that is not settled is on the queue. -/
lemma TxInv.fly_lt (h : TxInv s l oc) {id : Nat} (hfly : flyOf oc = some id) :
    id < l.enqueued.length := by
  cases oc with
  | none => cases hfly
  | some c =>
    rw [flyOf] at hfly
    split at hfly
    · obtain ⟨p, rest, hq, rfl⟩ := (h.call c rfl).head_eq hfly
      have hmem : p.id ∈ List.range l.enqueued.length := by
        rw [← h.order, hq]
        simp
      exact List.mem_range.mp hmem
    · cases hfly

/-- What does not concern the transmission. -/
lemma TxInv.same (h : TxInv s l oc) (hs : SameTx s s') : TxInv s' l oc :=
  h.move hs rfl rfl h.call

/-- The wait ends, and the answer is there for the call that waits. -/
lemma TxInv.answer (h : TxInv s l oc) (hwait : s.ackSem = 0 → phaseOf oc = .flying)
    (o : Option UInt8) : TxInv (s.signalAck (o.elim (-1) fun b => b.toNat)) (l.answered o) oc := by
  have ha := h.ack
  by_cases h0 : s.ackSem = 0
  · rw [hwait h0] at ha
    rcases ha with ⟨-, hwaiting, hfly⟩ | ⟨h1, -⟩
    · rw [Instance.signalAck, if_pos h0, Ledger.answered, hwaiting]
      have hph := hwait h0
      cases hf : flyOf oc with
      | none =>
        refine ⟨h.order, h.left_ok, h.packets, h.room, h.fresh,
          fun c hc => ⟨(h.call c hc).head, (h.call c hc).packet, (h.call c hc).written,
            (h.call c hc).transferred, (h.call c hc).not_sent⟩, ?_⟩
        rw [hph, hf]
        exact .inr ⟨by rw [h0], hwaiting.trans hf, (fun _ h => by cases h)⟩
      | some id =>
        obtain ⟨hack, hwrote⟩ := hfly id hf
        have hother : ∀ j, j ≠ id →
            l.acked.modify id (fun a => a || o == some (l.wrote id)) j = l.acked j :=
          fun j hj => Table.modify_of_ne _ _ hj
        refine ⟨h.order, h.left_ok, fun p hp => ?_, h.room, fun j hj => ?_,
          fun c hc => ⟨(h.call c hc).head, (h.call c hc).packet, (h.call c hc).written,
            (h.call c hc).transferred, (h.call c hc).not_sent⟩, ?_⟩
        · obtain ⟨e, k, he, hflat, hlast, hcount, hpa⟩ := h.packets p hp
          refine ⟨e, k, he, hflat, hlast, hcount, fun hne => ?_⟩
          have hid : p.id ≠ id := fun he => hne (by rw [hf, he])
          exact (hother p.id hid).trans (hpa hne)
        · have hlt : id < j := Nat.lt_of_lt_of_le (h.fly_lt hf) hj
          exact ⟨(h.fresh j hj).1, (hother j hlt.ne').trans (h.fresh j hj).2⟩
        · rw [hph, hf]
          refine .inr ⟨by rw [h0], rfl, fun j hj => ?_⟩
          cases hj
          dsimp only
          rw [Table.modify_self, hack, Bool.false_or, beq_iff_eq, hwrote]
          cases o with
          | none => simp
          | some b => simp [UInt8.toNat_inj]
    · exact absurd (h0.symm.trans h1) (by decide)
  · have hw : l.waiting = none := by
      cases hph : phaseOf oc with
      | free =>
        rw [hph] at ha
        exact ha.2
      | held =>
        rw [hph] at ha
        exact absurd ha.1 h0
      | flying =>
        rw [hph] at ha
        rcases ha with ⟨h1, -⟩ | ⟨-, hw, -⟩
        · exact absurd h1 h0
        · exact hw
      | judged r =>
        rw [hph] at ha
        exact ha.2.1
    rw [Instance.signalAck, if_neg h0, Ledger.answered, hw]
    exact h

/-- A frame that is no acknowledgment. -/
lemma sameTx_rxCompleteCb {rx : RxInfo} (h : rx.fctrl ≠ fctrlFrameTypeAck) :
    SameTx s (rxCompleteCb cfg rx s).2 := by
  rw [rxCompleteCb, if_neg h]
  split
  · exact ⟨rfl, rfl, rfl, rfl, rfl⟩
  · dsimp only
    split
    · rw [acceptFrame]
      dsimp only
      split
      · exact ⟨rfl, rfl, rfl, rfl, rfl⟩
      case h_2 om pool hs =>
        exact ⟨rfl, storePayload_databufLen hs, rfl, rfl, rfl⟩
    · exact ⟨rfl, rfl, rfl, rfl, rfl⟩

/-- A timeout. -/
lemma sameTx_rxTimeoutCb : SameTx (s.signalAck (-1)) (rxTimeoutCb s).2 := by
  rw [rxTimeoutCb]
  split
  · exact .rfl'
  case isFalse h0 =>
    rw [Instance.signalAck, if_neg h0]
    split
    · exact ⟨rfl, rfl, rfl, rfl, rfl⟩
    · exact .rfl'

/-- A packet is put behind those that are queued. -/
lemma TxInv.enqueue (h : TxInv s l oc) {dst tspCode retries : UInt16} {om om' : Mbuf}
    {pool : Pool} (hext : dplMbufExtend s.pool om (trailer dst tspCode retries) = some (om', pool)) :
    TxInv { s with pool := pool, txQ := s.txQ ++ [⟨l.enqueued.length, om'⟩] }
      { l with enqueued := l.enqueued ++ [⟨om.flat, dst, tspCode, retries⟩] } oc := by
  obtain ⟨hflat, d, hlast⟩ := dplMbufExtend_some hext
  have hget : ∀ (i : Nat) (e : Enqueued), l.enqueued[i]? = some e →
      (l.enqueued ++ [(⟨om.flat, dst, tspCode, retries⟩ : Enqueued)])[i]? = some e := by
    intro i e he
    rw [List.getElem?_append_left (List.getElem?_eq_some_iff.mp he).1]
    exact he
  have hroom : 2 ≤ pool.databufLen := by
    rw [dplMbufExtend, trailer_length, trailerSize] at hext
    split at hext
    · cases hext
    · split at hext
      · split at hext
        · cases hext
        · cases hext
          dsimp only
          omega
      · cases hext
        omega
  refine ⟨?_, fun d hd => ?_, fun p hp => ?_, fun _ => hroom, fun id hid => ?_, fun c hc => ?_, ?_⟩
  · rw [List.map_append, ← List.append_assoc, h.order, List.length_append, List.length_singleton,
      List.range_succ]
    rfl
  · obtain ⟨hdel, hdrop⟩ := h.left_ok d hd
    refine ⟨hdel, fun hf => ?_⟩
    obtain ⟨hack, e, he, hs⟩ := hdrop hf
    exact ⟨hack, e, hget _ _ he, hs⟩
  · rcases List.mem_append.mp hp with hp | hp
    · obtain ⟨e, k, he, hrest⟩ := h.packets p hp
      exact ⟨e, k, hget _ _ he, hrest⟩
    · obtain rfl := List.mem_singleton.mp hp
      obtain ⟨hs, ha⟩ := h.fresh l.enqueued.length le_rfl
      have hne : flyOf oc ≠ some l.enqueued.length := fun he =>
        Nat.lt_irrefl _ (h.fly_lt he)
      refine ⟨⟨om.flat, dst, tspCode, retries⟩, retries, by simp, hflat, ?_, ?_, fun _ => ha⟩
      · rw [hlast, List.length_append, trailer_length, trailerSize]
        omega
      · show retries.toNat + l.started l.enqueued.length = _
        rw [hs, if_neg hne]
  · rw [List.length_append] at hid
    exact h.fresh id (by omega)
  · have hcall := h.call c hc
    refine ⟨fun id hmp => ?_, hcall.packet, hcall.written, hcall.transferred, hcall.not_sent⟩
    obtain ⟨p, rest, hq, rfl⟩ := hcall.head_eq hmp
    rw [hq]
    rfl
  · exact h.ack.congr rfl rfl rfl rfl rfl rfl

end

/-! ## Runs -/

section
variable {cfg : Config} {hw : TxBuffer D} {phy : Phy} {w : TxWorld D}

/-- At most one call is in progress, and the invariant holds with it. -/
def WorldInv (w : TxWorld D) : Prop :=
  ∃ oc : Option Call, w.calls = oc.toList ∧ TxInv w.node w.ledger oc

/-- A pend for the acknowledgement is what makes the count of `ack_sem` mean a wait. -/
lemma Waits.flying {oc : Option Call} (hcalls : w.calls = oc.toList) (h : Waits w) :
    phaseOf oc = .flying := by
  obtain ⟨c, hc, hpc⟩ := h
  rw [hcalls, Option.mem_toList] at hc
  rw [Option.mem_def.mp hc, phaseOf, hpc]
  rfl

/-- One step. -/
lemma WorldInv.step (hacks : cfg.requestAcks = true) (h : WorldInv w) {e : TxEvent}
    (g : TxGuard w e) : WorldInv (txStep cfg hw phy w e) := by
  obtain ⟨oc, hcalls, hi⟩ := h
  cases e with
  | enqueue dst tspCode retries om =>
    rw [txStep, enqueueTx]
    split
    case h_1 node he =>
      split at he
      · cases he
      · split at he
        · cases he
        case h_2 om' pool hext =>
          cases he
          exact ⟨oc, hcalls, hi.enqueue hext⟩
    case h_2 node he =>
      refine ⟨oc, hcalls, ?_⟩
      split at he
      · cases he
        exact hi
      · split at he
        · cases he
          exact hi.same ⟨rfl, rfl, rfl, rfl, rfl⟩
        · cases he
  | call argDxTime dxTimeEnd =>
    rw [txStep]
    split
    · exact ⟨oc, hcalls, hi⟩
    case isFalse hne =>
      have hnone : oc = none := by
        rw [g.resolve_left hne] at hcalls
        cases oc with
        | none => rfl
        | some c => cases hcalls
      subst hnone
      refine ⟨some (.begin argDxTime dxTimeEnd), by rw [hcalls]; rfl,
        hi.free .rfl' rfl rfl fun c e => ?_⟩
      cases e
      constructor
      case head => intro _ h; cases h
      case packet => simp [Call.begin]
      case written => intro h; cases h
      case transferred => intro h; cases h
      case not_sent => intro h; cases h
  | step i ans =>
    rw [txStep]
    cases oc with
    | none =>
      rw [hcalls, Option.toList_none, List.getElem?_nil]
      exact ⟨none, hcalls, hi⟩
    | some c =>
      rw [hcalls, Option.toList_some]
      cases i with
      | succ i => exact ⟨some c, hcalls, hi⟩
      | zero =>
        have hstep : TxInv (callStep cfg hw phy ans w c).1.node _
            (callStep cfg hw phy ans w c).2 := hi.callStep hacks
        rw [List.getElem?_cons_zero]
        dsimp only
        generalize callStep cfg hw phy ans w c = r at hstep ⊢
        obtain ⟨w', _ | c'⟩ := r
        · exact ⟨none, rfl, hstep⟩
        · exact ⟨some c', rfl, hstep⟩
  | rxComplete rx =>
    refine ⟨oc, hcalls, ?_⟩
    rw [txStep]
    by_cases hack : rx.fctrl = fctrlFrameTypeAck
    · have hans := hi.answer (fun h0 => (g hack h0).flying hcalls) (some (rx.rxbuf 2))
      dsimp only
      rw [if_pos hack, rxCompleteCb, if_pos hack]
      exact hans
    · dsimp only
      rw [if_neg hack]
      exact hi.same (sameTx_rxCompleteCb hack)
  | rxTimeout =>
    exact ⟨oc, hcalls, (hi.answer (fun h0 => (g h0).flying hcalls) none).same sameTx_rxTimeoutCb⟩
  | reset =>
    exact ⟨oc, hcalls, (hi.answer (fun h0 => (g h0).flying hcalls) none).same
      ⟨rfl, rfl, rfl, rfl, rfl⟩⟩
  | txBegins => exact ⟨oc, hcalls, hi.same ⟨rfl, rfl, rfl, rfl, rfl⟩⟩
  | txComplete => exact ⟨oc, hcalls, hi.same ⟨rfl, rfl, rfl, rfl, rfl⟩⟩

end

/-- In a run of guarded steps with acknowledgements requested, packets leave in their order, as
    delivered once acknowledged or as dropped after all their retries, and what is queued still
    carries its payload, address and code. -/
theorem retryLaw_of_guarded {cfg : Config} (hacks : cfg.requestAcks = true) (hw : TxBuffer D)
    (phy : Phy) (dev : D) (uid panId : UInt16) (pool : Pool) {w : TxWorld D}
    (rch : Reach (txStep cfg hw phy) TxGuard (.init dev uid panId pool) w) : RetryLaw w := by
  have h0 : WorldInv (TxWorld.init dev uid panId pool) := ⟨none, rfl, .init dev uid panId pool⟩
  obtain ⟨oc, -, hi⟩ := rch.invariant h0 fun _ _ h g => h.step hacks g
  exact hi.retryLaw

/-- Fixed durations, and answers that report no error. -/
def Phy.dflt : Phy := ⟨100, fun _ => 200, 400, 2000⟩

def Answer.ok : Answer := ⟨false, 0⟩

/-- An acknowledgement with a sequence number. -/
def ackFrame (seq : UInt8) : RxInfo := ⟨fctrlFrameTypeAck, 3, fun _ => seq, false, 0⟩

/-- A packet with one retry, enqueued, written and started. -/
def startOnce (retries : UInt16) : List TxEvent :=
  [.enqueue 0x20 0x44 retries twoBytes.om, .call 0 0] ++ .replicate 6 (.step 0 .ok)

/-- Its first transmission times out, the second is acknowledged. -/
def retryOnce : List TxEvent :=
  startOnce 1 ++ [.rxTimeout] ++ .replicate 5 (.step 0 .ok) ++ [.txBegins, .txComplete] ++
    .replicate 6 (.step 0 .ok) ++ [.rxComplete (ackFrame 1)] ++ .replicate 4 (.step 0 .ok)

/-- A packet is sent twice. -/
theorem retryLaw_retryOnce :
    RetryLaw (retryOnce.foldl (txStep .dflt plainMemory .dflt)
      (.init (fun _ => 0) 0x10 0xdeca .dflt)) := by
  have hall : Allowed (txStep .dflt plainMemory .dflt) TxGuard
      (.init (fun _ => 0) 0x10 0xdeca .dflt) retryOnce := by
    decide +kernel
  exact retryLaw_of_guarded rfl plainMemory .dflt (fun _ => 0) 0x10 0xdeca .dflt
    (Reach.of_allowed hall)

/-- A packet without retries is started and acknowledged, and the device is reset after the call
    has taken `ack_sem` and before it reads `ack_seq_num`. -/
def resetAfterAck : List TxEvent :=
  startOnce 0 ++ [.rxComplete (ackFrame 1), .step 0 .ok, .reset] ++ .replicate 2 (.step 0 .ok)

/-- The packet is dropped though it was acknowledged. -/
theorem retryLaw_fails :
    ¬ ∀ w, Reach (txStep .dflt plainMemory .dflt) anyEvent
      (.init (fun _ => 0) 0x10 0xdeca .dflt) w → RetryLaw w := by
  intro h
  have hlaw := h _ (Reach.of_events resetAfterAck)
  have hdrop := hlaw.dropped ⟨0, false, 1, true⟩ (by decide +kernel) rfl
  exact absurd hdrop.1 (by decide)

end UwbCore.Transport
