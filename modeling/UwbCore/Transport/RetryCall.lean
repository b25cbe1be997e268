import UwbCore.Transport.RetryInv

/-!
# The steps of a call

Every step of `uwb_transport_dequeue_tx` keeps the invariant of the retry law.
-/

namespace UwbCore.Transport
open UwbCore.Lib

variable {D : Type}

section
variable {cfg : Config} {hw : TxBuffer D} {phy : Phy} {ans : Answer} {w : TxWorld D} {c : Call}

/-- The transmission is started. -/
lemma TxInv.start (hacks : cfg.requestAcks = true) (h : TxInv w.node w.ledger (some c))
    (hpc : c.pc = .start) :
    TxInv (startTx cfg ans w c).1.node (startTx cfg ans w c).1.ledger
      (some (startTx cfg ans w c).2) := by
  have hc := h.call c rfl
  have hwritten : c.pc.written = true := by rw [hpc]; rfl
  rw [startTx, hacks, if_pos rfl]
  split
  · refine h.move .rfl' (by rw [phaseOf, phaseOf, hpc]; rfl) (by rw [flyOf, flyOf, hpc]; rfl)
      fun c' e => ?_
    cases e
    exact hc.goto (by rw [hpc]; rfl) (by simp) (fun _ => hc.written hwritten) (fun h => by cases h)
  · obtain ⟨id, hmp, hwrote, hn⟩ := hc.mp_some hwritten
    obtain ⟨p, rest, hq, rfl⟩ := hc.head_eq hmp
    have hn0 : c.nSent = 0 := by
      rw [hn, hpc]
      rfl
    have hfly : flyOf (some c) = none := by rw [flyOf, hpc]; rfl
    have hpk := h.packets
    rw [hfly] at hpk
    obtain ⟨hsem, hwait⟩ : w.node.ackSem = 0 ∧ w.ledger.waiting = none := by
      have ha := h.ack
      rw [phaseOf, hpc] at ha
      exact ha
    have hfly' : flyOf (some { c with nSent := c.nSent + 1, pc := .pend .ack }) = some p.id := hmp
    rw [hc.target, hq, List.head?_cons]
    refine ⟨h.order, h.left_ok, fun q hmem => ?_, h.room, fun id hid => ?_, fun c' e => ?_, ?_⟩
    · obtain ⟨e, k, he, hflat, hlast, hcount, hack⟩ := hpk q hmem
      rw [if_neg (fun h => by cases h)] at hcount
      refine ⟨e, k, he, hflat, hlast, ?_, fun _ => hack (fun h => by cases h)⟩
      rw [hfly']
      by_cases hqp : q.id = p.id
      · have hs : (w.ledger.start p.id c.delayStart).started q.id = w.ledger.started q.id + 1 := by
          rw [hqp]
          exact Table.modify_self _ _ _
        rw [hs, if_pos (by rw [hqp])]
        omega
      · have hs : (w.ledger.start p.id c.delayStart).started q.id = w.ledger.started q.id :=
          Table.modify_of_ne _ _ hqp
        rw [hs, if_neg fun h => hqp (Option.some.inj h).symm]
        exact hcount
    · have hlt : p.id < w.ledger.enqueued.length := by
        obtain ⟨e, k, he, -⟩ := hpk p (by rw [hq]; exact List.mem_cons_self)
        exact (List.getElem?_eq_some_iff.mp he).1
      have hs : (w.ledger.start p.id c.delayStart).started id = w.ledger.started id :=
        Table.modify_of_ne _ _ (Nat.ne_of_gt (Nat.lt_of_lt_of_le hlt hid))
      exact ⟨hs.trans (h.fresh id hid).1, (h.fresh id hid).2⟩
    · cases e
      refine ⟨hc.head, by simp, fun _ => hc.written hwritten, fun _ => ⟨p.id, hmp, hwrote, ?_⟩,
        (fun h => by cases h)⟩
      rw [hn0]
      rfl
    · refine .inl ⟨hsem, hfly'.symm, fun id e => ?_⟩
      obtain rfl : p.id = id := Option.some.inj (hfly'.symm.trans e)
      obtain ⟨e, k, -, -, -, -, hack⟩ := hpk p (by rw [hq]; exact List.mem_cons_self)
      exact ⟨hack (fun h => by cases h), hwrote⟩

/-- A change of a semaphore other than `ack_sem`. -/
lemma sameTx_setCount {s : Instance D} {i : SemId} (h : i ≠ .ackSem) (n : Nat) :
    SameTx s (s.setCount i n) := by
  cases i with
  | sem => exact ⟨rfl, rfl, rfl, rfl, rfl⟩
  | writeTxLock => exact ⟨rfl, rfl, rfl, rfl, rfl⟩
  | ackSem => exact absurd rfl h

/-- The same queue, and `ack_sem` as the phase the call goes to has it. -/
lemma TxInv.regrip {s : Instance D} {l : Ledger} {c' : Call} (h : TxInv s l (some c)) (n : Nat)
    (hfly : flyOf (some c') = flyOf (some c)) (hcall : CallOk s l c')
    (hack : AckOk (s.setCount .ackSem n) l (flyOf (some c)) c'.pc.phase) :
    TxInv (s.setCount .ackSem n) l (some c') := by
  refine ⟨h.order, h.left_ok, ?_, h.room, h.fresh, fun c'' e => ?_, ?_⟩
  · rw [hfly]
    exact h.packets
  · cases e
    exact ⟨hcall.head, hcall.packet, hcall.written, hcall.transferred, hcall.not_sent⟩
  · rw [hfly]
    exact hack

/-- A semaphore is taken. -/
lemma TxInv.pend (hacks : cfg.requestAcks = true) (h : TxInv w.node w.ledger (some c)) {p : Pend}
    (hpc : c.pc = .pend p) (h0 : w.node.count p.sem ≠ 0) :
    TxInv (w.node.setCount p.sem (w.node.count p.sem - 1)) w.ledger
      (some { c with pc := p.next cfg }) := by
  have hc := h.call c rfl
  have hph : phaseOf (some c) = (Pc.pend p).phase := by rw [phaseOf, hpc]
  have ha := h.ack
  rw [hph] at ha
  cases p with
  | lock =>
    refine h.free (sameTx_setCount (by decide) _) hph rfl fun c' e => ?_
    cases e
    exact hc.goto (by rw [hpc]; rfl) (fun _ => hc.packet (.inl hpc)) (fun h => by cases h)
      (fun h => by cases h)
  | overlap =>
    rw [Pend.next, hacks, if_pos rfl]
    refine h.free (sameTx_setCount (by decide) _) hph rfl fun c' e => ?_
    cases e
    exact hc.goto (by rw [hpc]; rfl) (by simp) (fun _ => hc.written (by rw [hpc]; rfl))
      (fun h => by cases h)
  | last =>
    refine h.free (sameTx_setCount (by decide) _) hph rfl fun c' e => ?_
    cases e
    exact hc.goto (by rw [hpc]; rfl) (by rw [Pend.next]; simp) (fun h => by cases h)
      (fun h => by cases h)
  | ackFree =>
    have hwritten : c.pc.written = true := by rw [hpc]; rfl
    obtain ⟨id, hmp, hwrote, hn⟩ := hc.mp_some hwritten
    refine h.regrip _ ?_ ⟨hc.head, by rw [Pend.next]; simp, fun _ => hc.written hwritten,
      fun _ => ⟨id, hmp, hwrote, ?_⟩, (fun h => by cases h)⟩ ⟨?_, ha.2⟩
    · rw [flyOf, flyOf, hpc]
      rfl
    · rw [hn, hpc]
      rfl
    · show w.node.ackSem - 1 = 0
      rw [ha.1]
  | ack =>
    have hwritten : c.pc.written = true := by rw [hpc]; rfl
    obtain ⟨id, hmp, hwrote, hn⟩ := hc.mp_some hwritten
    have h1 : w.node.ackSem ≠ 0 := h0
    rcases ha with ⟨h0', -⟩ | ⟨hsem, hwait, hset⟩
    · exact absurd h0' h1
    · refine h.regrip _ ?_ ⟨hc.head, by rw [Pend.next]; simp, fun _ => hc.written hwritten,
        fun _ => ⟨id, hmp, hwrote, ?_⟩, (fun h => by cases h)⟩ ⟨?_, hwait, hset⟩
      · rw [flyOf, flyOf, hpc]
        rfl
      · rw [hn, hpc]
        rfl
      · show w.node.ackSem - 1 = 0
        rw [hsem]

/-- A semaphore whose count is 0 is released, one whose count is not is passed by. -/
lemma TxInv.check (h : TxInv w.node w.ledger (some c)) {r : Release} (hpc : c.pc = .check r) :
    TxInv w.node w.ledger (if w.node.count r.sem = 0 then some { c with pc := .release r }
      else r.next.map fun pc => { c with pc := pc }) := by
  have hc := h.call c rfl
  have hph : phaseOf (some c) = (Pc.check r).phase := by rw [phaseOf, hpc]
  have ha := h.ack
  rw [hph] at ha
  -- the call stays in its phase
  have hgo : ∀ pc : Pc, pc.phase = (Pc.check r).phase → pc.written = (Pc.check r).written →
      pc ≠ .pend .lock → pc ≠ .write → pc ≠ .sent →
      TxInv w.node w.ledger (some { c with pc := pc }) := by
    intro pc hphase hwritten hlock hwrite hsent
    refine h.move .rfl' (by rw [hph, phaseOf, hphase]) ?_ fun c' e => ?_
    · rw [flyOf, flyOf, hpc, hphase]
    · cases e
      refine hc.goto (by rw [hphase, hpc]) (fun hp => ?_) (fun hw => ?_) hsent
      · exact (hp.elim hlock hwrite).elim
      · exact hc.written (by rw [hpc, ← hwritten, hw])
  split
  case isTrue => cases r with
    | errSem => exact hgo _ rfl rfl (by simp) (by simp) (by simp)
    | errLock => exact hgo _ rfl rfl (by simp) (by simp) (by simp)
    | errAck => exact hgo _ rfl rfl (by simp) (by simp) (by simp)
    | acked => exact hgo _ rfl rfl (by simp) (by simp) (by simp)
    | last => exact hgo _ rfl rfl (by simp) (by simp) (by simp)
  case isFalse h0 => cases r with
    | errSem => exact hgo _ rfl rfl (by simp) (by simp) (by simp)
    | errLock => exact hgo _ rfl rfl (by simp) (by simp) (by simp)
    | errAck => exact absurd ha.1 h0
    | acked => exact absurd ha.1 h0
    | last => exact h.free .rfl' hph rfl (fun _ h => by cases h)

/-- A semaphore is released. -/
lemma TxInv.release (h : TxInv w.node w.ledger (some c)) {r : Release} (hpc : c.pc = .release r) :
    TxInv (w.node.setCount r.sem (w.node.count r.sem + 1)) w.ledger
      (r.next.map fun pc => { c with pc := pc }) := by
  have hc := h.call c rfl
  have hph : phaseOf (some c) = (Pc.release r).phase := by rw [phaseOf, hpc]
  have ha := h.ack
  rw [hph] at ha
  have hgo : ∀ r' : Release, (Pc.check r').phase = (Pc.release r).phase → r.sem ≠ .ackSem →
      (Pc.check r').written = (Pc.release r).written →
      TxInv (w.node.setCount r.sem (w.node.count r.sem + 1)) w.ledger
        (some { c with pc := .check r' }) := by
    intro r' hphase hsem hwritten
    refine h.move (sameTx_setCount hsem _) (by rw [hph, phaseOf, hphase]) ?_ fun c' e => ?_
    · rw [flyOf, flyOf, hpc, hphase]
    · cases e
      refine hc.goto (by rw [hphase, hpc]) (by simp) (fun hw => ?_) (fun h => by cases h)
      exact hc.written (by rw [hpc, ← hwritten, hw])
  cases r with
  | errSem => exact hgo .errLock rfl (by decide) rfl
  | errLock => exact hgo .errAck rfl (by decide) rfl
  | errAck =>
    have hwritten : c.pc.written = true := by rw [hpc]; rfl
    obtain ⟨id, hmp, hwrote, hn⟩ := hc.mp_some hwritten
    refine h.regrip _ ?_ ⟨hc.head, by simp, (fun h => by cases h),
      fun _ => ⟨id, hmp, hwrote, ?_⟩, (fun h => by cases h)⟩ ⟨?_, ha.2⟩
    · rw [flyOf, flyOf, hpc]
      rfl
    · rw [hn, hpc]
      rfl
    · show w.node.ackSem + 1 = 1
      rw [ha.1]
  | acked =>
    have hwritten : c.pc.written = true := by rw [hpc]; rfl
    obtain ⟨id, hmp, hwrote, hn⟩ := hc.mp_some hwritten
    obtain ⟨hsem, hwait, hset⟩ := ha
    refine h.regrip _ ?_ ⟨hc.head, by simp, fun _ => hc.written hwritten,
      fun _ => ⟨id, hmp, hwrote, ?_⟩, (fun h => by cases h)⟩ ⟨?_, hwait, hset⟩
    · rw [flyOf, flyOf, hpc]
      rfl
    · rw [hn, hpc]
      rfl
    · show w.node.ackSem + 1 = 1
      rw [hsem]
      rfl
  | last => exact h.free (sameTx_setCount (by decide) _) hph rfl (fun _ h => by cases h)

/-- The first packet leaves the queue, for the reason the ledger notes. -/
lemma TxInv.dequeue (h : TxInv w.node w.ledger (some c)) (hpc : c.pc = .compare) {p : TxPacket}
    {rest : List TxPacket} (hq : w.node.txQ = p :: rest) (hmp : c.mp = some p.id) (delivered : Bool)
    (hok : DepartureOk w.ledger
      ⟨p.id, delivered, w.ledger.started p.id, w.ledger.acked p.id⟩) :
    TxInv (dequeueHead w delivered).node (dequeueHead w delivered).ledger (some c.done) := by
  have ha := h.ack
  rw [phaseOf, hpc] at ha
  have hfly : flyOf (some c) = some p.id := by rw [flyOf, hpc]; exact hmp
  rw [dequeueHead, hq]
  refine ⟨?_, fun d hd => ?_, fun q hmem => ?_, fun _ => ?_, h.fresh, fun c' e => ?_,
    ⟨ha.1, ha.2.1⟩⟩
  · have horder := h.order
    rw [hq] at horder
    simp only [List.map_append, List.map_cons, List.map_nil, List.append_assoc,
      List.singleton_append] at horder ⊢
    exact horder
  · rcases List.mem_append.mp hd with hd | hd
    · exact h.left_ok d hd
    · rw [List.mem_singleton.mp hd]
      exact hok
  · obtain ⟨e, k, he, hflat, hlast, hcount, hack⟩ := h.packets q (by rw [hq]; exact .tail _ hmem)
    have hne : flyOf (some c) ≠ some q.id := by
      rw [hfly]
      exact fun he => h.ne_head hq hmem (Option.some.inj he).symm
    rw [if_neg hne] at hcount
    exact ⟨e, k, he, hflat, hlast, hcount, fun _ => hack hne⟩
  · exact h.room (by rw [hq]; exact List.cons_ne_nil _ _)
  · cases e
    exact ⟨(fun _ h => by cases h), by simp [Call.done], (fun h => by cases h),
      (fun h => by cases h), (fun h => by cases h)⟩

/-- The retries are read from the end of the chain. -/
lemma copydata16_retries {om : Mbuf} {payload : List UInt8} {dst tspCode k : UInt16}
    (h : om.flat = payload ++ trailer dst tspCode k) : copydata16 om (om.pktlen - 2) = some k := by
  have hlen : om.pktlen = payload.length + 6 := by
    rw [Mbuf.pktlen, h, List.length_append, trailer_length, trailerSize]
  have h4 : om.pktlen - 2 = payload.length + 4 := by omega
  rw [copydata16, dplMbufCopydata_some (by omega), h4, h, List.drop_length_add_append]
  exact congrArg some (ofLe16_le16 k)

/-- With the retries rewritten the chain still carries its payload, address and code. -/
lemma rewriteRetries_some {pool : Pool} {om : Mbuf} {payload : List UInt8} {dst tspCode k : UInt16}
    (h : om.flat = payload ++ trailer dst tspCode k) (hlast : 2 ≤ om.last.data.length)
    (hpool : 2 ≤ pool.databufLen) (k' : UInt16) :
    ∃ om', dplMbufExtend (dplMbufAdj pool om 2).2 (dplMbufAdj pool om 2).1 (le16 k') =
        some (om', pool) ∧
      om'.flat = payload ++ trailer dst tspCode k' ∧ 2 ≤ om'.last.data.length := by
  have hlen : om.pktlen = payload.length + 6 := by
    rw [Mbuf.pktlen, h, List.length_append, trailer_length, trailerSize]
  have h4 : om.pktlen - (le16 k').length = payload.length + 4 := by
    rw [le16_length]
    omega
  obtain ⟨om', hext, hflat, hlast'⟩ := @dplMbufExtend_adj pool om (le16 k') hlast hpool
  refine ⟨om', hext, ?_, hlast'.symm ▸ hlast⟩
  rw [hflat, h4, h, List.take_length_add_append, List.append_assoc]
  rfl

/-- The first packet is kept, with one retry less. -/
lemma TxInv.retry (h : TxInv w.node w.ledger (some c)) (hpc : c.pc = .compare) {p : TxPacket}
    {rest : List TxPacket} (hq : w.node.txQ = p :: rest) (hmp : c.mp = some p.id)
    (hack : w.ledger.acked p.id = false) {k : UInt16} {e : Enqueued}
    (he : w.ledger.enqueued[p.id]? = some e) (hk : 1 ≤ k.toNat)
    (hcount : k.toNat + w.ledger.started p.id = e.retries.toNat + 1) {om : Mbuf}
    (hflat : om.flat = e.payload ++ trailer e.dst e.tspCode (k - 1))
    (hlast : 2 ≤ om.last.data.length) :
    TxInv { w.node with txQ := setOm w.node.txQ p.id om } w.ledger
      (some { c with pc := .loopCond, nSent := 0 }) := by
  have ha := h.ack
  rw [phaseOf, hpc] at ha
  have hc := h.call c rfl
  have hfly : flyOf (some c) = some p.id := by rw [flyOf, hpc]; exact hmp
  have hids : (setOm w.node.txQ p.id om).map TxPacket.id = w.node.txQ.map TxPacket.id := by
    rw [setOm, List.map_map]
    refine List.map_congr_left fun q _ => ?_
    rw [Function.comp_apply]
    split
    · rfl
    · rfl
  refine ⟨?_, h.left_ok, fun q hmem => ?_, fun _ => ?_, h.fresh, fun c' e => ?_, ⟨ha.1, ha.2.1⟩⟩
  · dsimp only
    rw [hids]
    exact h.order
  · obtain ⟨q', hmem', rfl⟩ := List.mem_map.mp hmem
    by_cases hid : q'.id = p.id
    · rw [if_pos hid]
      refine ⟨e, k - 1, hid ▸ he, hflat, hlast, ?_, fun _ => hid ▸ hack⟩
      have hsub : (k - 1).toNat = k.toNat - 1 :=
        UInt16.toNat_sub_of_le _ _ (UInt16.le_iff_toNat_le.mpr hk)
      show (k - 1).toNat + w.ledger.started q'.id = e.retries.toNat + 0
      rw [hsub, hid]
      omega
    · rw [if_neg hid]
      obtain ⟨e', k', he', hflat', hlast', hcount', hack'⟩ := h.packets q' hmem'
      have hne : flyOf (some c) ≠ some q'.id := by
        rw [hfly]
        exact fun he => hid (Option.some.inj he).symm
      rw [if_neg hne] at hcount'
      exact ⟨e', k', he', hflat', hlast', hcount', fun _ => hack' hne⟩
  · exact h.room (by rw [hq]; exact List.cons_ne_nil _ _)
  · cases e
    refine ⟨fun id hid => ?_, by simp, (fun h => by cases h), fun ht => ?_, (fun h => by cases h)⟩
    · rw [← List.head?_map, hids, List.head?_map]
      exact hc.head id hid
    · obtain ⟨id, hmp', hwrote, -⟩ := hc.transferred ht
      exact ⟨id, hmp', hwrote, rfl⟩

/-- The packet was not acknowledged. -/
lemma TxInv.retryOrDrop (h : TxInv w.node w.ledger (some c)) (hpc : c.pc = .compare)
    (hne : w.node.ackSeqNum ≠ w.node.frameSeqNum.toNat) :
    TxInv (retryOrDrop w c).1.node (retryOrDrop w c).1.ledger (some (retryOrDrop w c).2) := by
  have hc := h.call c rfl
  obtain ⟨id, hmp, hwrote, hn⟩ := hc.mp_some (by rw [hpc]; rfl)
  obtain ⟨p, rest, hq, rfl⟩ := hc.head_eq hmp
  have hfly : flyOf (some c) = some p.id := by rw [flyOf, hpc]; exact hmp
  have hn1 : c.nSent = 1 := by
    rw [hn, hpc]
    rfl
  obtain ⟨hsem, hwait, hset⟩ : AckOk w.node w.ledger (flyOf (some c)) (.judged true) := by
    have ha := h.ack
    rw [phaseOf, hpc] at ha
    exact ha
  have hack : w.ledger.acked p.id = false :=
    Bool.eq_false_of_not_eq_true fun ht => hne ((hset p.id hfly).mp ht)
  obtain ⟨e, k, he, hflat, hlast, hcount, -⟩ := h.packets p (by rw [hq]; exact List.mem_cons_self)
  rw [if_pos hfly] at hcount
  rw [Transport.retryOrDrop, hc.target, hq, List.head?_cons]
  dsimp only
  rw [copydata16_retries hflat]
  dsimp only
  rw [hn1]
  split
  case isTrue h0 =>
    have hstarted : w.ledger.started p.id = e.retries.toNat + 1 := by omega
    exact h.dequeue hpc hq hmp false ⟨(fun h => by cases h), fun _ => ⟨hack, e, he, hstarted⟩⟩
  case isFalse h0 =>
    have hroom : 2 ≤ w.node.pool.databufLen := h.room (by rw [hq]; exact List.cons_ne_nil _ _)
    obtain ⟨om, hext, hflat', hlast'⟩ := rewriteRetries_some hflat hlast hroom (k - 1)
    have hone : UInt16.ofNat 1 = 1 := rfl
    rw [hone, hext]
    have hkeep := h.retry hpc hq hmp hack he (by omega) hcount hflat' hlast'
    rw [hq] at hkeep
    exact hkeep

/-- The packet was acknowledged. -/
lemma TxInv.compare (h : TxInv w.node w.ledger (some c)) (hpc : c.pc = .compare)
    (heq : w.node.ackSeqNum = w.node.frameSeqNum.toNat) :
    TxInv (dequeueHead w true).node (dequeueHead w true).ledger (some c.done) := by
  have hc := h.call c rfl
  obtain ⟨id, hmp, -, -⟩ := hc.mp_some (by rw [hpc]; rfl)
  obtain ⟨p, rest, hq, rfl⟩ := hc.head_eq hmp
  have hfly : flyOf (some c) = some p.id := by rw [flyOf, hpc]; exact hmp
  obtain ⟨-, -, hset⟩ : AckOk w.node w.ledger (flyOf (some c)) (.judged true) := by
    have ha := h.ack
    rw [phaseOf, hpc] at ha
    exact ha
  exact h.dequeue hpc hq hmp true ⟨fun _ => (hset p.id hfly).mpr heq, (fun h => by cases h)⟩

/-- Every step of a call keeps the invariant. -/
lemma TxInv.callStep (hacks : cfg.requestAcks = true) (h : TxInv w.node w.ledger (some c)) :
    TxInv (callStep cfg hw phy ans w c).1.node (callStep cfg hw phy ans w c).1.ledger
      (callStep cfg hw phy ans w c).2 := by
  have hc := h.call c rfl
  rw [Transport.callStep]
  cases hpc : c.pc with
  | loopTop => exact h.loopTop hpc
  | pend p =>
    dsimp only
    split
    case isTrue => exact h
    case isFalse h0 => exact h.pend hacks hpc h0
  | write => exact h.write hpc
  | start => exact h.start hacks hpc
  | check r =>
    have hcheck := h.check hpc
    dsimp only
    split
    case isTrue h0 =>
      rw [if_pos h0] at hcheck
      exact hcheck
    case isFalse h0 =>
      rw [if_neg h0] at hcheck
      exact hcheck
  | release r => exact h.release hpc
  | slipped =>
    have hgo : CallOk w.node w.ledger { c with pc := .loopCond } :=
      hc.goto (by rw [hpc]; rfl) (by simp) (fun h => by cases h) (fun h => by cases h)
    refine h.free .rfl' (by rw [phaseOf, hpc]; rfl) rfl fun c' e => ?_
    cases e
    exact ⟨hgo.head, hgo.packet, hgo.written, hgo.transferred, hgo.not_sent⟩
  | compare =>
    dsimp only
    split
    case isTrue hne => exact h.retryOrDrop hpc hne
    case isFalse heq => exact h.compare hpc (Classical.not_not.mp heq)
  | sent => exact absurd hpc hc.not_sent
  | loopCond =>
    dsimp only
    split
    case isTrue =>
      refine h.free .rfl' (by rw [phaseOf, hpc]; rfl) rfl fun c' e => ?_
      cases e
      exact hc.goto (by rw [hpc]; rfl) (by simp) (fun h => by cases h) (fun h => by cases h)
    case isFalse =>
      refine h.free .rfl' (by rw [phaseOf, hpc]; rfl) rfl fun c' e => ?_
      cases e
      exact hc.goto (by rw [hpc]; rfl) (by simp) (fun h => by cases h) (fun h => by cases h)

end

end UwbCore.Transport
