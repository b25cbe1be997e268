import UwbCore.Ccp.Basic
import UwbCore.Lib.Run

/-!
# Coasting over missed blinks

With UWB_CCP_TOLERATE_MISSED_FRAMES above 0 a slave or relay that misses a blink moves its epochs on
by a period and calls the superframe callbacks without one, as long as it has not missed too many. The
misses are counted in `missed_frames`, which has 8 bits and is cleared by a good blink only.
-/

namespace UwbCore.Ccp
open UwbCore.Lib

/-- What can happen to a node that listens for blinks. -/
inductive CoastEvent where
  | start (systime : BitVec 64) (cputime : BitVec 32)
  | listen (startRxError : Bool)
  | listenEnd
  | receive (rx : Rx)
  | rxTimeout
  | error
  | reset

/-- A miss: how many there have been since the last good blink, this one included, whether the
    superframe callbacks were called, and how far the epochs were moved. -/
structure Miss where
  misses : Nat
  superframe : Bool
  period : BitVec 32
  masterAdvance : BitVec 64
  localAdvance : BitVec 64
  deriving DecidableEq

/-- A superframe without a blink comes with an advance of both epochs by a period, and only while the
    misses are tolerated; beyond that nothing moves. -/
def Miss.Bounded (tolerate : Nat) (m : Miss) : Prop :=
  (m.superframe = true → m.misses ≤ tolerate ∧ m.masterAdvance = m.period.setWidth 64 <<< 16 ∧
    m.localAdvance = m.period.setWidth 64 <<< 16) ∧
  (tolerate < m.misses → m.superframe = false ∧ m.masterAdvance = 0 ∧ m.localAdvance = 0)

/-- A node, its misses since the last good blink, and a record of each miss. -/
structure Coasting where
  ccp : Instance
  misses : Nat
  log : List Miss

namespace Coasting
variable (cfg : Cfg)

/-- A callback that counts a miss when the node is waiting for a blink. -/
def missed (w : Coasting) (e : Effect) : Coasting :=
  if w.ccp.sem = 0 then
    { ccp := e.ccp
      misses := w.misses + 1
      log := w.log ++ [⟨w.misses + 1, e.superframe, w.ccp.period,
        e.ccp.masterEpoch - w.ccp.masterEpoch, e.ccp.localEpoch - w.ccp.localEpoch⟩] }
  else { w with ccp := e.ccp }

def step (w : Coasting) : CoastEvent → Coasting
  | .start systime cputime => { w with ccp := w.ccp.start cfg systime cputime }
  | .listen startRxError => { w with ccp := w.ccp.listen startRxError }
  | .listenEnd => { w with ccp := w.ccp.listenEnd }
  | .receive rx =>
    let e := w.ccp.rxCompleteCb cfg rx
    { w with ccp := e.ccp, misses := if e.superframe then 0 else w.misses }
  | .rxTimeout => w.missed (w.ccp.rxTimeoutCb cfg)
  | .error => w.missed (w.ccp.errorCb cfg)
  | .reset => { w with ccp := w.ccp.resetCb.ccp }

/-- A node that has just been started. -/
def init (ccp : Instance) (systime : BitVec 64) (cputime : BitVec 32) : Coasting :=
  ⟨ccp.start cfg systime cputime, 0, []⟩

def Bounded (w : Coasting) : Prop := ∀ m ∈ w.log, m.Bounded cfg.tolerateMissedFrames

/-- A miss of a node with a valid clock, beyond what is tolerated, is one that the count of 8 bits
    shows to be so. -/
def Guard (w : Coasting) : CoastEvent → Prop
  | .rxTimeout | .error => w.ccp.sem = 0 → w.ccp.valid = true →
      cfg.tolerateMissedFrames < w.misses + 1 → cfg.tolerateMissedFrames < (w.misses + 1) % 2 ^ 8
  | _ => True

instance decidableGuard (w : Coasting) : (e : CoastEvent) → Decidable (w.Guard cfg e)
  | .rxTimeout | .error =>
    inferInstanceAs (Decidable (w.ccp.sem = 0 → w.ccp.valid = true →
      cfg.tolerateMissedFrames < w.misses + 1 → cfg.tolerateMissedFrames < (w.misses + 1) % 2 ^ 8))
  | .start .. | .listen _ | .listenEnd | .receive _ | .reset => isTrue trivial

instance (tolerate : Nat) (m : Miss) : Decidable (m.Bounded tolerate) :=
  inferInstanceAs (Decidable (_ ∧ _))

instance (w : Coasting) : Decidable (w.Bounded cfg) :=
  inferInstanceAs (Decidable (∀ m ∈ w.log, m.Bounded cfg.tolerateMissedFrames))

/-- Once the clock is valid, `missed_frames` is the number of misses, in 8 bits. -/
def Counts (w : Coasting) : Prop :=
  w.ccp.valid = true → w.ccp.missedFrames.toNat = w.misses % 2 ^ 8

end Coasting

/-! ## Counting -/

section
variable {cfg : Cfg} {w : Coasting}

/-- A miss at a node: a superframe and an advance by a period when the clock is valid and the count is
    within bounds, and nothing else. -/
lemma miss_effect (ccp : Instance) (hT : 0 < cfg.tolerateMissedFrames) :
    ((ccp.miss cfg).ccp.valid = ccp.valid ∧
      (ccp.miss cfg).ccp.missedFrames = ccp.missedFrames + 1) ∧
    if ccp.valid = true ∧ (ccp.missedFrames + 1).toNat ≤ cfg.tolerateMissedFrames then
      (ccp.miss cfg).superframe = true ∧
        (ccp.miss cfg).ccp.masterEpoch = ccp.masterEpoch + ccp.period.setWidth 64 <<< 16 ∧
        (ccp.miss cfg).ccp.localEpoch = ccp.localEpoch + ccp.period.setWidth 64 <<< 16
    else (ccp.miss cfg).superframe = false ∧
      (ccp.miss cfg).ccp.masterEpoch = ccp.masterEpoch ∧
      (ccp.miss cfg).ccp.localEpoch = ccp.localEpoch := by
  rw [Instance.miss, if_pos hT, Instance.issueSuperframe]
  dsimp only
  split_ifs
  · exact ⟨⟨rfl, rfl⟩, rfl, rfl, rfl⟩
  · exact ⟨⟨rfl, rfl⟩, rfl, rfl, rfl⟩

/-- A blink sets the count of missed frames to zero. -/
lemma takeEpochs_missedFrames (ccp : Instance) (rx : Rx) :
    (ccp.takeEpochs cfg rx).missedFrames = 0 := by
  simp only [Instance.takeEpochs, Instance.adjustForEpochToRm, Instance.checkValid]
  split <;> rfl

/-- The time of flight does not change the count. -/
lemma compensateTof_missedFrames (p : Instance × Frame) :
    (compensateTof cfg p).1.missedFrames = p.1.missedFrames := by
  obtain ⟨ccp, f⟩ := p
  rw [compensateTof]
  split <;> rfl

/-- Neither do the relays. -/
lemma compensateRelays_missedFrames (p : Instance × Frame) :
    (compensateRelays cfg p).1.missedFrames = p.1.missedFrames := by
  obtain ⟨ccp, f⟩ := p
  by_cases h : f.blink.rptCount ≠ 0
  case pos => simp only [compensateRelays, h, ne_eq, not_false_eq_true, if_true]
  case neg => simp only [compensateRelays, h, if_false]

variable (cfg) in
/-- A frame is a blink that is taken, or it changes the ring at most. -/
lemma rxCompleteCb_cases (ccp : Instance) (rx : Rx) :
    ccp.rxCompleteCb cfg rx = ccp.takeBlink cfg rx ∨
      ∃ frames b, ccp.rxCompleteCb cfg rx = { ccp with frames := frames }.returns b := by
  unfold Instance.rxCompleteCb
  split
  · exact .inr ⟨ccp.frames, _, rfl⟩
  split
  · exact .inr ⟨ccp.frames, _, rfl⟩
  split
  · exact .inr ⟨ccp.frames, _, rfl⟩
  split
  · exact .inr ⟨ccp.frames, _, rfl⟩
  split
  · exact .inr ⟨_, _, rfl⟩
  · exact .inl rfl

variable (cfg) in
/-- A good blink clears the count, a frame that is not taken leaves it and the validity alone. -/
lemma rxComplete_count (ccp : Instance) (rx : Rx) :
    if (ccp.rxCompleteCb cfg rx).superframe = true then
      (ccp.rxCompleteCb cfg rx).ccp.missedFrames = 0
    else (ccp.rxCompleteCb cfg rx).ccp.missedFrames = ccp.missedFrames ∧
      (ccp.rxCompleteCb cfg rx).ccp.valid = ccp.valid := by
  have hgood : (ccp.takeBlink cfg rx).ccp.missedFrames = 0 := by
    simp only [Instance.takeBlink, Instance.release, compensateRelays_missedFrames,
      compensateTof_missedFrames, takeEpochs_missedFrames]
  have htaken : (ccp.takeBlink cfg rx).superframe = true := rfl
  rcases rxCompleteCb_cases cfg ccp rx with h | ⟨frames, b, h⟩
  · rw [h, if_pos htaken]
    exact hgood
  · rw [h]
    exact ⟨rfl, rfl⟩

/-- The calls that take or give back the semaphore leave the count and the validity alone. -/
lemma listen_count (ccp : Instance) (startRxError : Bool) :
    (ccp.listen startRxError).missedFrames = ccp.missedFrames ∧
      (ccp.listen startRxError).valid = ccp.valid := by
  rw [Instance.listen]
  split_ifs <;> exact ⟨rfl, rfl⟩

/-- The end of a listen call changes neither the count nor the validity. -/
lemma listenEnd_count (ccp : Instance) :
    ccp.listenEnd.missedFrames = ccp.missedFrames ∧ ccp.listenEnd.valid = ccp.valid := by
  rw [Instance.listenEnd]
  split_ifs <;> exact ⟨rfl, rfl⟩

/-- A reset changes neither the count nor the validity. -/
lemma resetCb_count (ccp : Instance) :
    ccp.resetCb.ccp.missedFrames = ccp.missedFrames ∧ ccp.resetCb.ccp.valid = ccp.valid := by
  rw [Instance.resetCb]
  split_ifs <;> exact ⟨rfl, rfl⟩

end

/-! ## Misses -/

section
variable {cfg : Cfg} {w : Coasting}

/-- What both callbacks do with a miss, told by the number of misses before. -/
structure Missed (cfg : Cfg) (w : Coasting) (e : Effect) : Prop where
  idle : w.ccp.sem ≠ 0 → e.ccp = w.ccp ∧ e.superframe = false
  count : w.ccp.sem = 0 →
    e.ccp.missedFrames = w.ccp.missedFrames + 1 ∧ e.ccp.valid = w.ccp.valid
  effect : w.ccp.sem = 0 →
    if w.ccp.valid = true ∧ (w.ccp.missedFrames + 1).toNat ≤ cfg.tolerateMissedFrames then
      e.superframe = true ∧
        e.ccp.masterEpoch = w.ccp.masterEpoch + w.ccp.period.setWidth 64 <<< 16 ∧
        e.ccp.localEpoch = w.ccp.localEpoch + w.ccp.period.setWidth 64 <<< 16
    else e.superframe = false ∧ e.ccp.masterEpoch = w.ccp.masterEpoch ∧
      e.ccp.localEpoch = w.ccp.localEpoch

/-- A frame that is missed while the semaphore is taken. -/
lemma missed_of_miss {ccp : Instance} (hT : 0 < cfg.tolerateMissedFrames)
    (hf : ccp.missedFrames = w.ccp.missedFrames) (hv : ccp.valid = w.ccp.valid)
    (he : ccp.masterEpoch = w.ccp.masterEpoch ∧ ccp.localEpoch = w.ccp.localEpoch)
    (hp : ccp.period = w.ccp.period) (hs : w.ccp.sem = 0) :
    Missed cfg w { ccp.miss cfg with ccp := (ccp.miss cfg).ccp.release } := by
  obtain ⟨hcount, heffect⟩ := miss_effect ccp hT
  rw [hf, hv, he.1, he.2, hp] at heffect
  exact ⟨fun hne => absurd hs hne, fun _ => ⟨hcount.2.trans (by rw [hf]), hcount.1.trans hv⟩,
    fun _ => heffect⟩

/-- Nothing is missed while the semaphore is free. -/
lemma missed_idle (hs : w.ccp.sem ≠ 0) (handled : Bool) : Missed cfg w (w.ccp.returns handled) :=
  ⟨fun _ => ⟨rfl, rfl⟩, fun h => absurd h hs, fun h => absurd h hs⟩

/-- A timeout counts as one missed frame at most. -/
lemma missed_rxTimeoutCb (hT : 0 < cfg.tolerateMissedFrames) :
    Missed cfg w (w.ccp.rxTimeoutCb cfg) := by
  rw [Instance.rxTimeoutCb]
  split_ifs with h1 h0
  · exact missed_idle (by rw [h1]; decide) _
  · exact missed_of_miss hT rfl rfl ⟨rfl, rfl⟩ rfl h0
  · exact missed_idle h0 _

/-- So does an error of the receiver. -/
lemma missed_errorCb (hrole : cfg.role ≠ .master) (hT : 0 < cfg.tolerateMissedFrames) :
    Missed cfg w (w.ccp.errorCb cfg) := by
  rw [Instance.errorCb]
  split_ifs with h1 h0
  · exact missed_idle (by rw [h1]; decide) _
  · exact missed_of_miss hT rfl rfl ⟨rfl, rfl⟩ rfl h0
  · exact missed_idle h0 _

/-- The count goes on with each miss. -/
lemma Missed.counts {e : Effect} (hm : Missed cfg w e) (h : w.Counts) :
    (w.missed e).Counts := by
  rw [Coasting.missed]
  by_cases hs : w.ccp.sem = 0
  case pos =>
    obtain ⟨hframes, hvalid⟩ := hm.count hs
    rw [if_pos hs]
    intro hv
    have hn := h (hvalid ▸ hv)
    dsimp only
    rw [hframes, BitVec.toNat_add, hn]
    exact (Nat.add_mod _ _ _).symm
  case neg =>
    rw [if_neg hs, (hm.idle hs).1]
    exact h

/-- The record of a miss is right exactly when the count of 8 bits is not taken for a small one. -/
lemma Missed.bounded_iff {e : Effect} (hm : Missed cfg w e) (h : w.Counts)
    (hb : w.Bounded cfg) : (w.missed e).Bounded cfg ↔
      (w.ccp.sem = 0 → w.ccp.valid = true → cfg.tolerateMissedFrames < w.misses + 1 →
        cfg.tolerateMissedFrames < (w.misses + 1) % 2 ^ 8) := by
  rw [Coasting.missed]
  by_cases hs : w.ccp.sem = 0
  case neg =>
    rw [if_neg hs, (hm.idle hs).1]
    exact iff_of_true hb fun h => absurd h hs
  case pos =>
    rw [if_pos hs]
    have hlog : Coasting.Bounded cfg ⟨e.ccp, w.misses + 1, w.log ++ [⟨w.misses + 1, e.superframe,
        w.ccp.period, e.ccp.masterEpoch - w.ccp.masterEpoch,
        e.ccp.localEpoch - w.ccp.localEpoch⟩]⟩ ↔
        Miss.Bounded cfg.tolerateMissedFrames ⟨w.misses + 1, e.superframe, w.ccp.period,
          e.ccp.masterEpoch - w.ccp.masterEpoch, e.ccp.localEpoch - w.ccp.localEpoch⟩ := by
      rw [Coasting.Bounded, List.forall_mem_append, List.forall_mem_singleton]
      exact and_iff_right hb
    have hcount : w.ccp.valid = true →
        (w.ccp.missedFrames + 1).toNat = (w.misses + 1) % 2 ^ 8 := by
      intro hv
      rw [BitVec.toNat_add, h hv]
      exact (Nat.add_mod _ _ _).symm
    rw [hlog, Miss.Bounded]
    have heffect := hm.effect hs
    split at heffect
    case isTrue hc =>
      obtain ⟨hsuper, hmaster, hlocal⟩ := heffect
      rw [hcount hc.1] at hc
      rw [hsuper, hmaster, hlocal]
      constructor
      · rintro ⟨hle, -⟩ _ _ hlt
        exact absurd (hle rfl).1 (Nat.not_le.mpr hlt)
      · intro hg
        have hle : w.misses + 1 ≤ cfg.tolerateMissedFrames := by
          by_contra hlt
          exact absurd hc.2 (Nat.not_le.mpr (hg hs hc.1 (Nat.not_le.mp hlt)))
        refine ⟨fun _ => ⟨hle, ?_, ?_⟩, fun hlt => absurd hle (Nat.not_le.mpr hlt)⟩
        · dsimp only
          rw [BitVec.add_comm, BitVec.add_sub_cancel]
        · dsimp only
          rw [BitVec.add_comm, BitVec.add_sub_cancel]
    case isFalse hc =>
      obtain ⟨hsuper, hmaster, hlocal⟩ := heffect
      rw [hsuper, hmaster, hlocal, BitVec.sub_self, BitVec.sub_self]
      refine iff_of_true ⟨fun h => Bool.noConfusion h, fun _ => ⟨rfl, rfl, rfl⟩⟩ ?_
      intro _ hv _
      rw [← hcount hv]
      exact Nat.not_le.mp fun hle => hc ⟨hv, hle⟩

end

/-! ## Runs -/

namespace Coasting
variable {cfg : Cfg} {w : Coasting}

/-- The count goes on in step with the misses, whatever happens. -/
lemma Counts.step (hrole : cfg.role ≠ .master) (hT : 0 < cfg.tolerateMissedFrames)
    (h : w.Counts) (e : CoastEvent) : (w.step cfg e).Counts := by
  have same {ccp : Instance} (hc : ccp.missedFrames = w.ccp.missedFrames ∧
      ccp.valid = w.ccp.valid) : Counts { w with ccp := ccp } := by
    intro hv
    rw [hc.1]
    exact h (hc.2 ▸ hv)
  cases e with
  | start => exact fun hv => Bool.noConfusion hv
  | listen startRxError => exact same (listen_count _ _)
  | listenEnd => exact same (listenEnd_count _)
  | receive rx =>
    have hc := rxComplete_count cfg w.ccp rx
    simp only [Coasting.step]
    split at hc
    case isTrue hs =>
      rw [if_pos hs]
      intro _
      rw [hc]
      rfl
    case isFalse hs =>
      rw [if_neg hs]
      exact same hc
  | rxTimeout => exact (missed_rxTimeoutCb hT).counts h
  | error => exact (missed_errorCb hrole hT).counts h
  | reset => exact same (resetCb_count _)

/-- One step keeps the records right exactly under the guard. -/
lemma Bounded.step_iff (hrole : cfg.role ≠ .master) (hT : 0 < cfg.tolerateMissedFrames)
    (h : w.Counts) (hb : w.Bounded cfg) (e : CoastEvent) :
    (w.step cfg e).Bounded cfg ↔ w.Guard cfg e := by
  cases e with
  | rxTimeout => exact (missed_rxTimeoutCb hT).bounded_iff h hb
  | error => exact (missed_errorCb hrole hT).bounded_iff h hb
  | start => exact iff_of_true hb trivial
  | listen => exact iff_of_true hb trivial
  | listenEnd => exact iff_of_true hb trivial
  | receive => exact iff_of_true hb trivial
  | reset => exact iff_of_true hb trivial

/-- In every run of a slave or relay, superframes without a blink are issued for the tolerated misses
    only, as long as no miss beyond them is one that `missed_frames` shows as a tolerated one. -/
theorem coastBounded_iff (hrole : cfg.role ≠ .master) (hT : 0 < cfg.tolerateMissedFrames)
    (ccp : Instance) (systime : BitVec 64) (cputime : BitVec 32) (es : List CoastEvent) :
    (∀ n, ((es.take n).foldl (step cfg) (init cfg ccp systime cputime)).Bounded cfg) ↔
      Allowed (step cfg) (Guard cfg) (init cfg ccp systime cputime) es := by
  refine (allowed_iff_along (P := Bounded cfg) (I := Counts) (fun _ e h => h.step hrole hT e)
    (fun _ e h hb => hb.step_iff hrole hT h e) es ?_ ?_).symm
  · exact fun hv => Bool.noConfusion hv
  · exact fun _ hm => absurd hm List.not_mem_nil

/-- Two misses tolerated, and a valid clock from the second blink on. -/
def coastCfg : Cfg := { Cfg.dflt .slave 1 with tolerateMissedFrames := 2, validThreshold := 1 }

/-- A blink of the master, received at `rxtimestamp`. -/
def blinkRx (seqNum : UInt8) (transmissionTimestamp rxtimestamp : BitVec 64) : Rx where
  fctrl0 := fctrlBlinkCcp64
  frameLen := blinkLen
  blink := ⟨fctrlBlinkCcp64, seqNum, 0x11, 1, 0x1000000000, transmissionTimestamp, 0, 4, 64⟩
  ldeError := false
  rxtimestamp := rxtimestamp
  systime0 := 0
  cputime := 0
  systime1 := 0
  carrierIntegrator := 0
  rxttcko := 0
  startTxError := false

/-- Two blinks. -/
def locked : List CoastEvent :=
  [.listen false, .receive (blinkRx 1 0x1000000000 0x500000), .listen false,
    .receive (blinkRx 2 0x2000000000 0x1000500000)]

/-- Three misses in a row. -/
def threeMisses : List CoastEvent :=
  locked ++ [.listen false, .rxTimeout, .listen false, .error, .listen false, .rxTimeout]

/-- Two misses are bridged, the third is not. -/
theorem coastBounded_threeMisses :
    (∀ n, ((threeMisses.take n).foldl (step coastCfg)
        (init coastCfg (.init coastCfg 0x100000) 0 0)).Bounded coastCfg) ∧
      (threeMisses.foldl (step coastCfg) (init coastCfg (.init coastCfg 0x100000) 0 0)).log.map
        Miss.superframe = [true, true, false] :=
  ⟨(coastBounded_iff (by decide) (by decide) _ _ _ _).mpr (by decide +kernel), by decide +kernel⟩

/-- No blink for 256 periods. -/
def outage : List CoastEvent :=
  locked ++ (List.replicate 256 [CoastEvent.listen false, .rxTimeout]).flatten

/-- After 256 misses `missed_frames` is 0 again, and a superframe is issued. -/
theorem coastBounded_fails :
    ¬ ∀ (cfg : Cfg) (ccp : Instance) (systime : BitVec 64) (cputime : BitVec 32)
      (es : List CoastEvent), cfg.role ≠ .master → 0 < cfg.tolerateMissedFrames →
      (es.foldl (step cfg) (init cfg ccp systime cputime)).Bounded cfg := by
  intro h
  have hlost := h coastCfg (.init coastCfg 0x100000) 0 0 outage (by decide) (by decide)
  revert hlost
  decide +kernel

end Coasting
end UwbCore.Ccp
