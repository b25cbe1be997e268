import UwbCore.Ccp.Basic
import UwbCore.Lib.Run

/-!
# The timeline of the clock master

The master takes the time of its next blink from the time stamp of the last one. The stamp is cut to
the grain of the device and the antenna delay is added to it, so that a delay of a grain or more is
added again with every period. The epoch follows the stamps on success, and is moved by a period on
failure.
-/

namespace UwbCore.Ccp
open UwbCore.Lib

/-- A blink that was to be sent, whether it was, and the epoch of the master afterwards. -/
structure Sent where
  stamp : BitVec 64
  interval : BitVec 40
  epochToRmUs : BitVec 16
  transmitted : Bool
  masterEpoch : BitVec 64
  deriving DecidableEq

def BlinkFrame.sent (b : BlinkFrame) (transmitted : Bool) (masterEpoch : BitVec 64) : Sent :=
  ⟨b.transmissionTimestamp, b.transmissionInterval, b.epochToRmUs, transmitted, masterEpoch⟩

/-- Transmitted blinks are whole intervals apart, one more than there are failed ones between them,
    and after each blink the epoch of the master is where the blink puts it. -/
structure Timeline (sends : List Sent) : Prop where
  stamps : ∀ l a mid b r, sends = l ++ a :: (mid ++ b :: r) → a.transmitted = true →
    (∀ m ∈ mid, m.transmitted = false) → b.transmitted = true →
    b.stamp - a.stamp = BitVec.ofNat 64 (mid.length + 1) * b.interval.setWidth 64
  epochs : ∀ s ∈ sends, s.masterEpoch = s.stamp - s.epochToRmUs.setWidth 64 <<< 16

/-- What can happen at a clock master. -/
inductive MasterEvent where
  | send (startTxError : Bool) (systime : BitVec 64)
  | txComplete (systime0 cputime systime1 : BitVec 32)
  | error
  | reset

/-- A clock master and the blinks it was to send. -/
structure MasterRun where
  ccp : Instance
  sends : List Sent

namespace MasterRun
variable (cfg : Cfg)

/-- The blink that has been given to the device. -/
def pending (w : MasterRun) : BlinkFrame := (w.ccp.frames (cfg.ring.next w.ccp.idx)).blink

/-- A callback that ends the wait for the blink, if there is one. -/
def finish (w : MasterRun) (transmitted : Bool) (ccp : Instance) : MasterRun :=
  if w.ccp.sem = 0 then
    ⟨ccp, w.sends ++ [(w.pending cfg).sent transmitted ccp.masterEpoch]⟩
  else { w with ccp := ccp }

def step (w : MasterRun) : MasterEvent → MasterRun
  | .send startTxError systime =>
    let e := w.ccp.send cfg startTxError systime
    match e.tx with
    | some tx =>
      if tx.started then { w with ccp := e.ccp }
      else ⟨e.ccp, w.sends ++ [tx.blink.sent false e.ccp.masterEpoch]⟩
    | none => { w with ccp := e.ccp }
  | .txComplete systime0 cputime systime1 =>
    w.finish cfg true (w.ccp.txCompleteCb cfg systime0 cputime systime1).ccp
  | .error => w.finish cfg false (w.ccp.errorCb cfg).ccp
  | .reset => w.finish cfg false w.ccp.resetCb.ccp

/-- A master that has just been started. -/
def init (ccp : Instance) (systime : BitVec 64) (cputime : BitVec 32) : MasterRun :=
  ⟨ccp.start cfg systime cputime, []⟩

/-- The first send is not one that fails, from the second one on the antenna delay is below the grain
    of the device, and a blink that was started is not given up. -/
def Guard (w : MasterRun) : MasterEvent → Prop
  | .send startTxError _ =>
    (startTxError = true → w.sends ≠ []) ∧ (w.sends ≠ [] → cfg.txAntennaDelay.toNat < 2 ^ 9)
  | .txComplete .. => True
  | .error | .reset => w.ccp.sem ≠ 0

instance decidableGuard (w : MasterRun) : (e : MasterEvent) → Decidable (w.Guard cfg e)
  | .send startTxError _ => inferInstanceAs (Decidable
      ((startTxError = true → w.sends ≠ []) ∧ (w.sends ≠ [] → cfg.txAntennaDelay.toNat < 2 ^ 9)))
  | .txComplete .. => isTrue trivial
  | .error | .reset => inferInstanceAs (Decidable (w.ccp.sem ≠ 0))

/-- The period in device units. -/
def interval (w : MasterRun) : BitVec 64 := w.ccp.period.setWidth 64 <<< 16

/-- The time stamp of the last blink. -/
def last (w : MasterRun) : BitVec 64 :=
  (w.ccp.frames (cfg.ring.cur w.ccp.idx)).blink.transmissionTimestamp

/-- A blink as `ccp_send` builds it: on the grain of the device, after the antenna delay. -/
structure Built (w : MasterRun) (b : BlinkFrame) : Prop where
  aligned : b.transmissionTimestamp.toNat % 2 ^ 9 = cfg.txAntennaDelay.toNat % 2 ^ 9
  interval : b.transmissionInterval = w.interval.setWidth 40
  epoch : b.epochToRmUs = cfg.shrDuration
  follows : w.sends ≠ [] → b.transmissionTimestamp = w.last cfg + w.interval

/-- The invariant: the blinks so far are a period apart, and the state continues them. -/
structure Inv (w : MasterRun) : Prop where
  sem : w.ccp.sem = 0 ∨ w.ccp.sem = 1
  spaced : w.sends.IsChain fun s s' => s'.stamp = s.stamp + w.interval
  each : ∀ s ∈ w.sends, s.interval.setWidth 64 = w.interval ∧
    s.masterEpoch = s.stamp - s.epochToRmUs.setWidth 64 <<< 16
  last : ∀ s ∈ w.sends.getLast?, w.last cfg = s.stamp
  started : w.sends ≠ [] → w.ccp.period.toNat < 2 ^ 24 ∧
    (w.last cfg).toNat % 2 ^ 9 = cfg.txAntennaDelay.toNat % 2 ^ 9 ∧
    w.ccp.masterEpoch = w.last cfg - cfg.shrDuration.setWidth 64 <<< 16
  pending : w.ccp.sem = 0 → w.Built cfg (w.pending cfg)

end MasterRun

/-! ## Stamps -/

section
variable {cfg : Cfg}

/-- In a list of blinks a period apart, the distance between two of them. -/
lemma spaced_sub {p : BitVec 64} {a b : Sent} {mid r : List Sent}
    (h : (a :: (mid ++ b :: r)).IsChain fun s s' => s'.stamp = s.stamp + p) :
    b.stamp - a.stamp = BitVec.ofNat 64 (mid.length + 1) * p := by
  suffices hb : b.stamp = a.stamp + BitVec.ofNat 64 (mid.length + 1) * p by
    rw [hb, BitVec.add_comm, BitVec.add_sub_cancel]
  induction mid generalizing a with
  | nil =>
    rw [List.nil_append, List.isChain_cons_cons] at h
    rw [h.1]
    exact congrArg _ (BitVec.one_mul p).symm
  | cons c mid ih =>
    rw [List.cons_append, List.isChain_cons_cons] at h
    rw [ih h.2, h.1, List.length_cons, BitVec.ofNat_add (x := mid.length + 1) (y := 1)]
    grind

variable (cfg) in
/-- The time of the next blink is on the grain of the device. -/
lemma sendStart_toNat (ccp : Instance) :
    (ccp.sendStart cfg).toNat = ((ccp.frames (cfg.ring.cur ccp.idx)).blink.transmissionTimestamp +
      ccp.period.setWidth 64 <<< 16).toNat / 2 ^ 9 * 2 ^ 9 := by
  rw [Instance.sendStart, Word.toNat_and_window _ _ (k := 9) (m := 64) (by decide) (by decide),
    Nat.mod_eq_of_lt (BitVec.isLt _)]

/-- The interval in units of the clock. -/
lemma interval_toNat (w : MasterRun) : w.interval.toNat = w.ccp.period.toNat * 2 ^ 16 :=
  Word.toNat_widen_shiftLeft w.ccp.period (by decide)

end

namespace MasterRun
variable {cfg : Cfg} {w : MasterRun}

/-- What `ccp_send` builds follows the last blink, with an antenna delay below the grain. -/
lemma Inv.built (h : w.Inv cfg) (hant : w.sends ≠ [] → cfg.txAntennaDelay.toNat < 2 ^ 9) :
    w.Built cfg (w.ccp.nextBlink cfg (w.ccp.sendStart cfg)) := by
  have hstart := sendStart_toNat cfg w.ccp
  have ha := Word.toNat_widen cfg.txAntennaDelay (m := 64) (by decide)
  change (w.ccp.sendStart cfg).toNat = (w.last cfg + w.interval).toNat / 2 ^ 9 * 2 ^ 9 at hstart
  have hsum : (w.ccp.sendStart cfg + cfg.txAntennaDelay.setWidth 64).toNat =
      ((w.last cfg + w.interval).toNat / 2 ^ 9 * 2 ^ 9 + cfg.txAntennaDelay.toNat) % 2 ^ 64 := by
    rw [BitVec.toNat_add, hstart, ha]
  refine ⟨?_, rfl, rfl, fun hne => BitVec.eq_of_toNat_eq ?_⟩
  · change (w.ccp.sendStart cfg + cfg.txAntennaDelay.setWidth 64).toNat % 2 ^ 9 = _
    rw [hsum]
    omega
  · change (w.ccp.sendStart cfg + cfg.txAntennaDelay.setWidth 64).toNat = _
    have hlast := (h.started hne).2.1
    have hlt := hant hne
    have hi := interval_toNat w
    rw [hsum, BitVec.toNat_add]
    omega

/-- A blink has been given to the device, and nothing else has changed. -/
lemma Inv.wait {ccp : Instance} (h : w.Inv cfg) (hsem : ccp.sem = 0)
    (hperiod : ccp.period = w.ccp.period) (hepoch : ccp.masterEpoch = w.ccp.masterEpoch)
    (hlast : MasterRun.last cfg ⟨ccp, w.sends⟩ = w.last cfg)
    (hb : w.Built cfg (MasterRun.pending cfg ⟨ccp, w.sends⟩)) : Inv cfg ⟨ccp, w.sends⟩ := by
  have hi : interval ⟨ccp, w.sends⟩ = w.interval := by rw [interval, interval, hperiod]
  refine ⟨.inl hsem, by rw [hi]; exact h.spaced, by rw [hi]; exact h.each,
    by rw [hlast]; exact h.last, fun hne => ?_, fun _ => ⟨hb.aligned, by rw [hi]; exact hb.interval,
      hb.epoch, fun hne => by rw [hi, hlast]; exact hb.follows hne⟩⟩
  rw [hlast, hperiod, hepoch]
  exact h.started hne

/-- A blink is done with: it is the last one now, and the epoch is where it puts it. -/
lemma Inv.record {ccp : Instance} {b : BlinkFrame} (h : w.Inv cfg) (hsem : ccp.sem = 1)
    (hperiod : w.sends ≠ [] → ccp.period = w.ccp.period) (hlt : ccp.period.toNat < 2 ^ 24)
    (hlast : ∀ s, MasterRun.last cfg ⟨ccp, s⟩ = b.transmissionTimestamp) (hb : w.Built cfg b)
    (hi : b.transmissionInterval.setWidth 64 = ccp.period.setWidth 64 <<< 16)
    (hepoch : ccp.masterEpoch = b.transmissionTimestamp - cfg.shrDuration.setWidth 64 <<< 16)
    (transmitted : Bool) :
    Inv cfg ⟨ccp, w.sends ++ [b.sent transmitted ccp.masterEpoch]⟩ := by
  have hsame : w.sends ≠ [] →
      interval ⟨ccp, w.sends ++ [b.sent transmitted ccp.masterEpoch]⟩ = w.interval := by
    intro hne
    rw [interval, interval, hperiod hne]
  refine ⟨.inr hsem, ?_, ?_, ?_, fun _ => ⟨hlt, ?_, ?_⟩, fun h0 => absurd (hsem.symm.trans h0) ?_⟩
  · rw [List.isChain_append]
    refine ⟨?_, .singleton _, fun s hs s' hs' => ?_⟩
    · by_cases hne : w.sends = []
      case pos => rw [hne]; exact .nil
      case neg => rw [hsame hne]; exact h.spaced
    · cases hs'
      have hne : w.sends ≠ [] := by
        rintro hnil
        rw [hnil] at hs
        cases hs
      rw [hsame hne, ← h.last s hs]
      exact hb.follows hne
  · intro s hs
    rw [List.mem_append, List.mem_singleton] at hs
    cases hs with
    | inl hs =>
      rw [hsame (List.ne_nil_of_mem hs)]
      exact h.each s hs
    | inr hs =>
      subst hs
      refine ⟨hi, hepoch.trans ?_⟩
      rw [← hb.epoch]
      rfl
  · intro s hs
    rw [List.getLast?_concat] at hs
    cases hs
    exact hlast _
  · rw [hlast]
    exact hb.aligned
  · rw [hlast]
    exact hepoch
  · decide

end MasterRun

/-! ## The calls of the master -/

section
variable {cfg : Cfg} {ccp : Instance}

variable (cfg) in
/-- `ccp_send` when the transmission starts: the blink is in the next slot. -/
lemma send_started (hs : ccp.sem = 1) (systime : BitVec 64) :
    (ccp.send cfg false systime).ccp.sem = 0 ∧
      (ccp.send cfg false systime).ccp.period = ccp.period ∧
      (ccp.send cfg false systime).ccp.masterEpoch = ccp.masterEpoch ∧
      (ccp.send cfg false systime).ccp.idx = ccp.idx ∧
      ((ccp.send cfg false systime).ccp.frames (cfg.ring.cur ccp.idx)).blink =
        (ccp.frames (cfg.ring.cur ccp.idx)).blink ∧
      ((ccp.send cfg false systime).ccp.frames (cfg.ring.next ccp.idx)).blink =
        ccp.nextBlink cfg (ccp.sendStart cfg) ∧
      (ccp.send cfg false systime).tx =
        some ⟨ccp.sendStart cfg, ccp.nextBlink cfg (ccp.sendStart cfg), true⟩ := by
  rw [Instance.send, if_neg (by rw [hs]; decide)]
  dsimp only
  rw [if_neg Bool.false_ne_true]
  dsimp only
  refine ⟨by rw [hs], rfl, rfl, rfl, ?_, ?_, rfl⟩
  · rw [Table.modify_of_ne _ _ (cfg.ring.next_ne_cur ccp.idx).symm]
  · rw [Table.modify_self]

variable (cfg) in
/-- `ccp_send` when it does not: the index moves to the blink, and the epoch by a period. -/
lemma send_failed (hs : ccp.sem = 1) (systime : BitVec 64) :
    (ccp.send cfg true systime).ccp.sem = 1 ∧
      (ccp.send cfg true systime).ccp.period = ccp.period ∧
      (ccp.send cfg true systime).ccp.masterEpoch =
        ccp.masterEpoch + ccp.period.setWidth 64 <<< 16 ∧
      ((ccp.send cfg true systime).ccp.frames
        (cfg.ring.cur (ccp.send cfg true systime).ccp.idx)).blink =
        ccp.nextBlink cfg (ccp.sendStart cfg) ∧
      (ccp.send cfg true systime).tx =
        some ⟨ccp.sendStart cfg, ccp.nextBlink cfg (ccp.sendStart cfg), false⟩ := by
  rw [Instance.send, if_neg (by rw [hs]; decide)]
  dsimp only
  rw [if_pos rfl]
  dsimp only [Instance.sendFailed, Instance.release]
  refine ⟨by rw [hs], rfl, rfl, ?_, rfl⟩
  rw [IndexRing.cur_succ, Table.modify_of_ne _ _ (cfg.ring.next_ne_cur ccp.idx), Table.modify_self]

variable (cfg) in
/-- `tx_complete_cb` at the end of a blink: the epoch is taken from it. -/
lemma txComplete_spec (hrole : cfg.role = .master) (hs : ccp.sem = 0)
    (systime0 cputime systime1 : BitVec 32) :
    let c := (ccp.txCompleteCb cfg systime0 cputime systime1).ccp
    let b := (ccp.frames (cfg.ring.next ccp.idx)).blink
    c.sem = 1 ∧ c.period = (b.transmissionInterval >>> 16).setWidth 32 ∧
      c.masterEpoch = b.transmissionTimestamp - b.epochToRmUs.setWidth 64 <<< 16 ∧
      (c.frames (cfg.ring.cur c.idx)).blink = b := by
  have hcur := cfg.ring.cur_succ ccp.idx
  have hn : ¬(ccp.sem = 1 ∨ cfg.role ≠ .master) := by
    rw [hs, hrole]
    decide
  rw [Instance.txCompleteCb, if_neg hn]
  simp only [Instance.adjustForEpochToRm, hs, if_true, Instance.release, hcur]
  trivial

end
/-! ## Runs of the master -/

namespace MasterRun
variable {cfg : Cfg} {w : MasterRun}

/-- An advertised interval is that of the period without its upper 8 bits. -/
lemma setWidth_interval {p q : BitVec 32} (hq : q.toNat = p.toNat % 2 ^ 24) :
    ((p.setWidth 64 <<< 16).setWidth 40).setWidth 64 = q.setWidth 64 <<< 16 := by
  have hp := Word.toNat_widen p (m := 64) (by decide)
  have hq' := Word.toNat_widen q (m := 64) (by decide)
  apply BitVec.eq_of_toNat_eq
  rw [Word.toNat_widen _ (by decide), BitVec.toNat_setWidth, BitVec.toNat_shiftLeft,
    BitVec.toNat_shiftLeft, hp, hq', hq, Nat.shiftLeft_eq, Nat.shiftLeft_eq]
  omega

/-- The period that is taken from an advertised interval. -/
lemma setWidth_period (p : BitVec 32) :
    (((p.setWidth 64 <<< 16).setWidth 40 >>> 16).setWidth 32).toNat = p.toNat % 2 ^ 24 := by
  have hp := p.isLt
  rw [BitVec.toNat_setWidth, BitVec.toNat_ushiftRight, BitVec.toNat_setWidth,
    BitVec.toNat_shiftLeft, Word.toNat_widen _ (by decide), Nat.shiftLeft_eq,
    Nat.shiftRight_eq_div_pow]
  omega

/-- A blink that is sent. -/
lemma Inv.send (h : w.Inv cfg) {startTxError : Bool} {systime : BitVec 64}
    (g : w.Guard cfg (.send startTxError systime)) :
    (w.step cfg (.send startTxError systime)).Inv cfg := by
  cases h.sem with
  | inl hs =>
    have hnone : w.ccp.send cfg startTxError systime = w.ccp.returns false := by
      rw [Instance.send, if_pos hs]
    rw [step, hnone]
    exact h
  | inr hs =>
    have hb := h.built g.2
    cases startTxError with
    | false =>
      obtain ⟨hsem, hperiod, hepoch, hidx, hcur, hnext, htx⟩ :=
        send_started cfg hs systime
      simp only [step, htx]
      refine h.wait hsem hperiod hepoch ?_ ?_
      · rw [MasterRun.last, hidx, hcur]
        rfl
      · rw [MasterRun.pending, hidx, hnext]
        exact hb
    | true =>
      have hne := g.1 rfl
      obtain ⟨hp, halign, he⟩ := h.started hne
      obtain ⟨hsem, hperiod, hepoch, hcur, htx⟩ := send_failed cfg hs systime
      simp only [step, htx]
      refine h.record hsem (fun _ => hperiod) (hperiod ▸ hp) (fun s => ?_) hb ?_ ?_ false
      · rw [MasterRun.last, hcur]
      · rw [hb.interval, hperiod]
        exact setWidth_interval (Nat.mod_eq_of_lt hp).symm
      · rw [hepoch, hb.follows hne, he]
        change w.last cfg - _ + w.interval = _
        grind

/-- A transmission that is complete. -/
lemma Inv.txComplete (h : w.Inv cfg) (hrole : cfg.role = .master)
    (systime0 cputime systime1 : BitVec 32) :
    (w.step cfg (.txComplete systime0 cputime systime1)).Inv cfg := by
  rw [step, finish]
  by_cases hs : w.ccp.sem = 0
  case neg =>
    have hidle : w.ccp.txCompleteCb cfg systime0 cputime systime1 = w.ccp.returns false := by
      rw [Instance.txCompleteCb, if_pos (.inl (h.sem.resolve_left hs))]
    rw [if_neg hs, hidle]
    exact h
  case pos =>
    have hb := h.pending hs
    obtain ⟨hsem, hperiod, hepoch, hcur⟩ :=
      txComplete_spec cfg hrole hs systime0 cputime systime1
    change _ = ((w.pending cfg).transmissionInterval >>> 16).setWidth 32 at hperiod
    have hnat := setWidth_period w.ccp.period
    have hi := hb.interval
    rw [interval] at hi
    rw [hi] at hperiod
    rw [← hperiod] at hnat
    rw [if_pos hs]
    refine h.record hsem (fun hne => BitVec.eq_of_toNat_eq ?_) ?_ (fun s => ?_) hb ?_ ?_ true
    · rw [hnat]
      exact Nat.mod_eq_of_lt (h.started hne).1
    · rw [hnat]
      exact Nat.mod_lt _ (by decide)
    · rw [MasterRun.last, hcur]
      rfl
    · rw [hi]
      exact setWidth_interval hnat
    · rw [hepoch, ← hb.epoch]
      rfl

/-- One step. -/
lemma Inv.step (h : w.Inv cfg) (hrole : cfg.role = .master) {e : MasterEvent}
    (g : w.Guard cfg e) : (w.step cfg e).Inv cfg := by
  cases e with
  | send startTxError systime => exact h.send g
  | txComplete systime0 cputime systime1 => exact h.txComplete hrole systime0 cputime systime1
  | error =>
    have hidle : w.ccp.errorCb cfg = w.ccp.returns false := by
      rw [Instance.errorCb, if_pos (h.sem.resolve_left g)]
    rw [MasterRun.step, finish, if_neg g, hidle]
    exact h
  | reset =>
    have hidle : w.ccp.resetCb = w.ccp.returns false := by rw [Instance.resetCb, if_neg g]
    rw [MasterRun.step, finish, if_neg g, hidle]
    exact h

/-- The master that begins. -/
lemma Inv.init {ccp : Instance} (hs : ccp.sem = 1) (systime : BitVec 64) (cputime : BitVec 32) :
    (init cfg ccp systime cputime).Inv cfg := by
  have hsem : (ccp.start cfg systime cputime).sem = 1 := hs
  exact ⟨.inr hsem, .nil, fun s hm => absurd hm List.not_mem_nil, fun s hm => absurd hm (by rintro ⟨⟩),
    fun hne => absurd rfl hne, fun h0 => absurd (hsem.symm.trans h0) (by decide)⟩

/-- The invariant says what the timeline is. -/
lemma Inv.timeline (h : w.Inv cfg) : Timeline w.sends := by
  constructor
  case stamps =>
    intro l a mid b r hl ha hmid hb
    have hspaced := h.spaced
    have hmem : b ∈ w.sends := by
      rw [hl]
      simp
    rw [hl] at hspaced
    rw [(h.each b hmem).1]
    exact spaced_sub (List.isChain_append.mp hspaced).2.1
  case epochs => exact fun s hm => (h.each s hm).2

/-- In every run of a clock master whose sends meet the guard, the blinks keep the timeline. -/
theorem timeline_of_guarded (hrole : cfg.role = .master) {ccp : Instance} (hs : ccp.sem = 1)
    {systime : BitVec 64} {cputime : BitVec 32}
    (rch : Reach (MasterRun.step cfg) (Guard cfg) (MasterRun.init cfg ccp systime cputime) w) :
    Timeline w.sends :=
  (rch.invariant (P := Inv cfg) (.init hs systime cputime)
    fun _ _ h g => h.step hrole g).timeline

/-- A master with a small antenna delay. -/
def masterCfg : Cfg := { Cfg.dflt .master 0 with txAntennaDelay := 0x134 }

/-- A blink, one that is too late, and a blink. -/
def lateOnce : List MasterEvent :=
  [.send false 0, .txComplete 0 0 0, .send true 0, .send false 0, .txComplete 0 0 0]

/-- Three blinks, of which the second is late. -/
theorem timeline_lateOnce :
    Timeline (lateOnce.foldl (MasterRun.step masterCfg)
      (MasterRun.init masterCfg (.init masterCfg 0x100000) 0x123456789A 0)).sends ∧
    (lateOnce.foldl (MasterRun.step masterCfg)
      (MasterRun.init masterCfg (.init masterCfg 0x100000) 0x123456789A 0)).sends.map
        Sent.transmitted = [true, false, true] := by
  have hall : Allowed (MasterRun.step masterCfg) (Guard masterCfg)
      (MasterRun.init masterCfg (.init masterCfg 0x100000) 0x123456789A 0) lateOnce := by
    decide +kernel
  exact ⟨timeline_of_guarded rfl rfl (Reach.of_allowed hall), by decide +kernel⟩

/-- Two blinks with the default antenna delay: they are 0x4000 device units more than a period apart. -/
theorem timeline_fails :
    ¬ ∀ (cfg : Cfg) (ccp : Instance) (systime : BitVec 64) (cputime : BitVec 32) (w : MasterRun),
      cfg.role = .master → ccp.sem = 1 →
      Reach (MasterRun.step cfg) anyEvent (MasterRun.init cfg ccp systime cputime) w →
      Timeline w.sends := by
  intro h
  have ht := h (.dflt .master 0) (.init (.dflt .master 0) 0x100000) 0x123456789A 0 _ rfl rfl
    (Reach.of_events [.send false 0, .txComplete 0 0 0, .send false 0, .txComplete 0 0 0])
  have hb := ht.stamps [] ⟨0x123E16B834, 0x1000000000, 64, true, 0x123DD6B834⟩ []
    ⟨0x223E16F834, 0x1000000000, 64, true, 0x223DD6F834⟩ [] (by decide +kernel) rfl
    (fun _ hm => absurd hm List.not_mem_nil) rfl
  revert hb
  decide +kernel

end MasterRun
end UwbCore.Ccp
