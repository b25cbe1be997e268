import UwbCore.Ccp.Basic

/-!
# Chains of relays

A blink that reaches a node through relays carries a shortened interval, from which the node takes
the delay of the relays, and a transmission time that has been moved on by it. The nodes are looked at
from the time the master's blink is on the air: each has a clock of 40 bits that shows some time then,
all clocks run at one rate, and a frame is received when it is sent.
-/

namespace UwbCore.Ccp
open UwbCore.Lib

/-- A blink on the air, and the time since the blink of the master. -/
structure OnAir where
  blink : BlinkFrame
  delay : Nat
  deriving DecidableEq

/-- A node, its clock at the time of the blink of the master, and what its radio measures. -/
structure Station where
  cfg : Cfg
  ccp : Instance
  clock : BitVec 40
  radio : Rx

namespace Station
variable (s : Station) (a : OnAir)

/-- The local time at which the blink arrives. -/
def arrival : BitVec 40 := s.clock + BitVec.ofNat 40 a.delay

def rx : Rx :=
  { s.radio with
    fctrl0 := a.blink.fctrl
    frameLen := blinkLen
    blink := a.blink
    ldeError := false
    rxtimestamp := (s.arrival a).setWidth 64 }

def hear : Effect := s.ccp.rxCompleteCb s.cfg (s.rx a)

/-- What the node derives from the blink. -/
def derived : BitVec 64 × BitVec 40 × BitVec 32 :=
  ((s.hear a).ccp.masterEpoch, (s.hear a).ccp.localEpoch.setWidth 40, (s.hear a).ccp.period)

/-- The blink after the node has relayed it: the frame leaves the antenna a fixed delay after the time
    it is started for. -/
def hop : Option OnAir :=
  match (s.hear a).tx with
  | some tx =>
    if tx.started then
      some ⟨tx.blink, a.delay + ((tx.delayStart + s.cfg.txAntennaDelay.setWidth 64).setWidth 40 -
        s.arrival a).toNat⟩
    else none
  | none => none

/-- No skew, and no compensation for the time of flight. -/
structure Plain : Prop where
  skew : ∀ v, s.cfg.skew v = v
  tofComp : s.cfg.tofComp = none

/-- The node waits for a blink of the master, or of any of its relays. -/
structure Listens : Prop where
  role : s.cfg.role ≠ .master
  sem : s.ccp.sem = 0
  test : s.cfg.testCascadeRpts = 0

/-- The local time at which a relay of the master's own blink would send, were its clock not bounded. -/
def planned : Nat :=
  s.clock.toNat + s.cfg.txHoldoffDly.toNat * 2 ^ 16 +
    s.cfg.slotId.toNat % 4 * (s.ccp.blinkFrameDuration.toNat * 2 ^ 16)

end Station

/-- The blink after a chain of relays. -/
def relayed (chain : List Station) (a : OnAir) : Option OnAir := chain.foldlM (fun a s => s.hop a) a

/-- A blink as the master sends it, with a period that is a multiple of 2^16 dwt usec. -/
structure FromMaster (b : BlinkFrame) : Prop where
  fctrl : b.fctrl = fctrlBlinkCcp64
  rptCount : b.rptCount = 0
  interval : b.transmissionInterval.toNat % 2 ^ 32 = 0

/-- The chains that leave the epochs alone: none, or one relay that sends before its clock wraps and
    not at the very time of its reception, of a blink that advertises an interval. -/
def Transparent (master : BlinkFrame) (chain : List Station) : Prop :=
  chain = [] ∨ ∃ s, chain = [s] ∧ master.transmissionInterval ≠ 0 ∧ s.planned < 2 ^ 40 ∧
    s.planned / 2 ^ 9 * 2 ^ 9 + s.cfg.txAntennaDelay.toNat ≠ s.clock.toNat

/-! ## What a node takes from a blink -/

section
variable {cfg : Cfg} {ccp : Instance} {rx : Rx}

/-- A frame is sent on for a good blink only. -/
lemma rxCompleteCb_of_tx {tx : Tx} (h : (ccp.rxCompleteCb cfg rx).tx = some tx) :
    ccp.rxCompleteCb cfg rx = ccp.takeBlink cfg rx := by
  unfold Instance.rxCompleteCb at h ⊢
  split_ifs at h ⊢
  all_goals first | rfl | cases h

/-- The duration of a blink stays. -/
lemma takeEpochs_blinkFrameDuration :
    (ccp.takeEpochs cfg rx).blinkFrameDuration = ccp.blinkFrameDuration := by
  simp only [Instance.takeEpochs, Instance.adjustForEpochToRm, Instance.checkValid]
  split <;> rfl

/-- The delay that a node takes a relayed blink to have. -/
def repeatDly (b : BlinkFrame) : BitVec 64 :=
  masterInterval b.transmissionInterval - b.transmissionInterval.setWidth 64

/-- The reception time that a node calculates with. -/
def receptionOf (rx : Rx) : BitVec 64 :=
  if rx.blink.rptCount = 0 then rx.rxtimestamp
  else (rx.rxtimestamp - rx.blink.epochToRmUs.setWidth 64 <<< 16 - repeatDly rx.blink) &&& 0x0FFFFFFFFFF

variable (hs : ∀ v, cfg.skew v = v) (ht : cfg.tofComp = none)
include ht

variable (ccp rx) in
/-- The epochs from a blink of the master itself. -/
lemma takeBlink_direct (h0 : rx.blink.rptCount = 0) :
    (ccp.takeBlink cfg rx).ccp.masterEpoch =
        rx.blink.transmissionTimestamp - rx.blink.epochToRmUs.setWidth 64 <<< 16 ∧
      (ccp.takeBlink cfg rx).ccp.localEpoch =
        rx.rxtimestamp - rx.blink.epochToRmUs.setWidth 64 <<< 16 ∧
      (ccp.takeBlink cfg rx).ccp.period = (rx.blink.transmissionInterval >>> 16).setWidth 32 := by
  have hf : ((ccp.frames (cfg.ring.next ccp.idx)).received cfg rx).blink = rx.blink := rfl
  simp only [Instance.takeBlink, compensateTof, ht, compensateRelays, hf, h0, ne_eq,
    not_true_eq_false, if_false]
  exact ⟨rfl, rfl, rfl⟩

include hs

variable (ccp rx) in
/-- The epochs from a relayed blink. -/
lemma takeBlink_relayed (h0 : rx.blink.rptCount ≠ 0) :
    (ccp.takeBlink cfg rx).ccp.masterEpoch = rx.blink.transmissionTimestamp -
        rx.blink.epochToRmUs.setWidth 64 <<< 16 - repeatDly rx.blink ∧
      (ccp.takeBlink cfg rx).ccp.localEpoch = receptionOf rx ∧
      (ccp.takeBlink cfg rx).ccp.period =
        (masterInterval rx.blink.transmissionInterval >>> 16).setWidth 32 := by
  have hf : ((ccp.frames (cfg.ring.next ccp.idx)).received cfg rx).blink = rx.blink := rfl
  simp only [Instance.takeBlink, compensateTof, ht, compensateRelays, hf, h0, ne_eq,
    not_false_eq_true, if_true, hs, receptionOf, if_false]
  exact ⟨rfl, rfl, rfl⟩

/-- The frame that a relay sends on. -/
lemma takeBlink_tx {tx : Tx} (h : (ccp.takeBlink cfg rx).tx = some tx) :
    rx.blink.rptCount < rx.blink.rptMax ∧
      tx.delayStart = relayStart cfg ccp.blinkFrameDuration (rx.blink.rptCount + 1) (receptionOf rx) ∧
      tx.blink =
        { rx.blink with
          shortAddress := cfg.myShortAddress
          rptCount := rx.blink.rptCount + 1
          transmissionTimestamp := rx.blink.transmissionTimestamp +
            (tx.delayStart + cfg.txAntennaDelay.setWidth 64 - receptionOf rx)
          transmissionInterval := (rx.blink.transmissionInterval.setWidth 64 -
            (tx.delayStart + cfg.txAntennaDelay.setWidth 64 - receptionOf rx)).setWidth 40 } := by
  have hf : ((ccp.frames (cfg.ring.next ccp.idx)).received cfg rx).blink = rx.blink := rfl
  by_cases h0 : rx.blink.rptCount = 0
  case pos =>
    simp only [Instance.takeBlink, compensateTof, ht, compensateRelays, hf, h0, ne_eq,
      not_true_eq_false, if_false] at h
    split at h
    case isFalse => cases h
    case isTrue hr =>
      cases h
      simp only [Instance.relay, takeEpochs_blinkFrameDuration, hs, hf, receptionOf, h0, if_true]
      exact ⟨hr.2.2, rfl, rfl⟩
  case neg =>
    simp only [Instance.takeBlink, compensateTof, ht, compensateRelays, hf, h0, ne_eq,
      not_false_eq_true, if_true] at h
    split at h
    case isFalse => cases h
    case isTrue hr =>
      cases h
      simp only [Instance.relay, takeEpochs_blinkFrameDuration, hs, receptionOf, h0, if_false]
      exact ⟨hr.2.2, rfl, rfl⟩

end

/-! ## Delays on the clocks of the devices -/

/-- The interval of the master is a multiple of 2^32. -/
lemma masterInterval_toNat (i : BitVec 40) :
    (masterInterval i).toNat = (i.toNat / 2 ^ 32 + 1) * 2 ^ 32 := by
  have hq : i.toNat / 2 ^ 32 < 2 ^ 8 := Nat.div_lt_of_lt_mul i.isLt
  rw [masterInterval, BitVec.toNat_mul, BitVec.toNat_add, BitVec.toNat_udiv,
    Word.toNat_widen i (by decide)]
  change (i.toNat / 2 ^ 32 + 1) % 2 ^ 64 * 2 ^ 32 % 2 ^ 64 = _
  rw [Nat.mod_eq_of_lt (Nat.lt_trans (Nat.succ_lt_succ hq) (by decide)), Nat.mod_eq_of_lt]
  exact Nat.lt_of_lt_of_le (Nat.mul_lt_mul_of_pos_right (Nat.succ_lt_succ hq) (by decide))
    (by decide)

/-- The delay that is taken from an interval reaches to the next multiple of 2^32. -/
lemma repeatDly_toNat (b : BlinkFrame) :
    (repeatDly b).toNat = 2 ^ 32 - b.transmissionInterval.toNat % 2 ^ 32 := by
  have hm := masterInterval_toNat b.transmissionInterval
  have hi := Word.toNat_widen b.transmissionInterval (m := 64) (by decide)
  have hle : b.transmissionInterval.setWidth 64 ≤ masterInterval b.transmissionInterval := by
    rw [BitVec.le_def, hm, hi]
    omega
  rw [repeatDly, BitVec.toNat_sub_of_le hle, hm, hi]
  omega

/-- The delay of the epoch in device units. -/
def epochDly (b : BlinkFrame) : BitVec 64 := b.epochToRmUs.setWidth 64 <<< 16

/-- The delay of the epoch in units of the clock. -/
lemma epochDly_toNat (b : BlinkFrame) : (epochDly b).toNat = b.epochToRmUs.toNat * 2 ^ 16 :=
  Word.toNat_widen_shiftLeft b.epochToRmUs (by decide)

/-- The reception time that a node calculates with, on its clock. -/
lemma receptionOf_clock (s : Station) (a : OnAir) :
    (receptionOf (s.rx a)).setWidth 40 =
      if a.blink.rptCount = 0 then s.arrival a
      else s.arrival a - (epochDly a.blink).setWidth 40 - (repeatDly a.blink).setWidth 40 := by
  have harr : (s.rx a).rxtimestamp.setWidth 40 = s.arrival a :=
    Word.setWidth_widen (s.arrival a) (by decide)
  by_cases h0 : a.blink.rptCount = 0
  case pos =>
    rw [if_pos h0, receptionOf, if_pos (show (s.rx a).blink.rptCount = 0 from h0), harr]
  case neg =>
    rw [if_neg h0, receptionOf, if_neg (show ¬(s.rx a).blink.rptCount = 0 from h0),
      Word.setWidth_and_window _ _ (by decide), Word.setWidth_sub _ _ (by decide),
      Word.setWidth_sub _ _ (by decide), harr]
    rfl

/-! ## Chains of relays -/

section
variable {s : Station} {a a' : OnAir} {master : BlinkFrame} {k : Nat}

/-- A relay puts the frame it has built on the air. -/
lemma Station.hop_some (hs : s.Plain) (h : s.hop a = some a') :
    a.blink.rptCount < a.blink.rptMax ∧
    ∃ txDelay : BitVec 64,
      txDelay = relayStart s.cfg s.ccp.blinkFrameDuration (a.blink.rptCount + 1)
          (receptionOf (s.rx a)) + s.cfg.txAntennaDelay.setWidth 64 - receptionOf (s.rx a) ∧
      a'.blink =
        { a.blink with
          shortAddress := s.cfg.myShortAddress
          rptCount := a.blink.rptCount + 1
          transmissionTimestamp := a.blink.transmissionTimestamp + txDelay
          transmissionInterval := (a.blink.transmissionInterval.setWidth 64 - txDelay).setWidth 40 } ∧
      a'.delay = a.delay + (txDelay.setWidth 40 + (receptionOf (s.rx a)).setWidth 40 -
        s.arrival a).toNat := by
  rw [Station.hop] at h
  cases ht : (s.hear a).tx with
  | none =>
    rw [ht] at h
    cases h
  | some tx =>
    rw [ht] at h
    dsimp only at h
    split at h
    case isFalse => cases h
    case isTrue =>
      cases h
      rw [Station.hear, rxCompleteCb_of_tx ht] at ht
      obtain ⟨hlt, hstart, hblink⟩ := takeBlink_tx hs.skew hs.tofComp ht
      refine ⟨hlt, _, rfl, ?_, ?_⟩
      · rw [hblink, hstart]
        rfl
      · rw [hstart, Word.setWidth_sub _ _ (by decide), BitVec.sub_add_cancel]
        rfl

/-- A blink after `k` relays: its time stamp and its interval have moved by its delay and by an excess
    `x`, which is what the relays after the first have counted twice. -/
structure Carried (master : BlinkFrame) (k : Nat) (a : OnAir) (x : Nat) : Prop where
  rptCount : a.blink.rptCount.toNat = k
  fctrl : a.blink.fctrl = master.fctrl
  epoch : a.blink.epochToRmUs = master.epochToRmUs
  stamp : a.blink.transmissionTimestamp.setWidth 40 =
    master.transmissionTimestamp.setWidth 40 + BitVec.ofNat 40 (a.delay + x)
  interval : a.blink.transmissionInterval =
    master.transmissionInterval - BitVec.ofNat 40 (a.delay + x)
  excess_pos : 2 ≤ k → 0 < x
  excess_le : x ≤ (k - 1) * (2 ^ 33 - 2 ^ 16)

/-- What the master sends is carried by no relay. -/
lemma Carried.start (hm : FromMaster master) : Carried master 0 ⟨master, 0⟩ 0 := by
  refine ⟨by rw [hm.rptCount]; rfl, rfl, rfl, ?_, ?_, fun h => absurd h (by decide), Nat.zero_le _⟩
  · exact (BitVec.add_zero _).symm
  · exact (BitVec.sub_zero _).symm

/-- The count of repetitions is zero only at the master. -/
lemma Carried.rptCount_eq_zero {x : Nat} (h : Carried master k a x) :
    a.blink.rptCount = 0 ↔ k = 0 := by
  rw [← h.rptCount, ← BitVec.toNat_inj]
  rfl

/-- One relay: the first one adds the delay it makes, a later one also the epoch and the delay that it
    has taken off its own reception time before. -/
lemma Carried.hop {x : Nat} (hc : Carried master k a x) (hs : s.Plain) (h : s.hop a = some a') :
    ∃ x', Carried master (k + 1) a' x' := by
  obtain ⟨hlt, txDelay, -, hblink, hdelay⟩ := Station.hop_some hs h
  have hcount : (a.blink.rptCount + 1).toNat = k + 1 := by
    have hmax := a.blink.rptMax.isLt
    rw [BitVec.lt_def, hc.rptCount] at hlt
    rw [BitVec.toNat_add, hc.rptCount]
    exact Nat.mod_eq_of_lt (show k + 1 < 2 ^ 8 by omega)
  have hinterval : (a.blink.transmissionInterval.setWidth 64 - txDelay).setWidth 40 =
      a.blink.transmissionInterval - txDelay.setWidth 40 := by
    rw [Word.setWidth_sub _ _ (by decide), Word.setWidth_widen _ (by decide)]
  -- the clocks agree on what the relay adds
  have carry {x' : Nat} (hx : BitVec.ofNat 40 (a'.delay + x') =
      BitVec.ofNat 40 (a.delay + x) + txDelay.setWidth 40) (hpos : 2 ≤ k + 1 → 0 < x')
      (hle : x' ≤ k * (2 ^ 33 - 2 ^ 16)) : Carried master (k + 1) a' x' := by
    refine ⟨by rw [hblink]; exact hcount, by rw [hblink]; exact hc.fctrl,
      by rw [hblink]; exact hc.epoch, ?_, ?_, hpos, hle⟩
    · rw [hblink, hx, ← BitVec.add_assoc, ← hc.stamp]
      exact BitVec.setWidth_add _ _ (by decide)
    · rw [hblink, hx, ← BitVec.sub_sub, ← hc.interval]
      exact hinterval
  rw [receptionOf_clock] at hdelay
  by_cases h0 : k = 0
  case pos =>
    rw [if_pos (hc.rptCount_eq_zero.mpr h0), BitVec.add_sub_cancel] at hdelay
    refine ⟨x, carry ?_ (by omega) ?_⟩
    · rw [hdelay, Nat.add_right_comm, BitVec.ofNat_add, BitVec.ofNat_toNat, BitVec.setWidth_eq]
    · have := hc.excess_le
      subst h0
      exact this
  case neg =>
    rw [if_neg (mt hc.rptCount_eq_zero.mp h0)] at hdelay
    refine ⟨x + (epochDly a.blink).toNat + (repeatDly a.blink).toNat, carry ?_ ?_ ?_⟩
    · have hadd : a'.delay + (x + (epochDly a.blink).toNat + (repeatDly a.blink).toNat) =
          a.delay + x + (txDelay.setWidth 40 + (s.arrival a - (epochDly a.blink).setWidth 40 -
            (repeatDly a.blink).setWidth 40) - s.arrival a).toNat + (epochDly a.blink).toNat +
            (repeatDly a.blink).toNat := by
        rw [hdelay]
        omega
      rw [hadd]
      simp only [BitVec.ofNat_add, BitVec.ofNat_toNat, BitVec.setWidth_eq]
      grind
    · have hr := repeatDly_toNat a.blink
      omega
    · have hr := repeatDly_toNat a.blink
      have he := epochDly_toNat a.blink
      have hlt := a.blink.epochToRmUs.isLt
      have hle := hc.excess_le
      have hk : k = k - 1 + 1 := by omega
      rw [hk, Nat.add_mul, Nat.one_mul]
      omega

/-- Along a chain the epoch is carried. -/
lemma Carried.relayed {chain : List Station} {x : Nat} (hc : Carried master k a x)
    (hp : ∀ s ∈ chain, s.Plain) (h : relayed chain a = some a') :
    ∃ x', Carried master (k + chain.length) a' x' := by
  induction chain generalizing k a x with
  | nil =>
    cases h
    exact ⟨x, hc⟩
  | cons s chain ih =>
    rw [Ccp.relayed, List.foldlM_cons] at h
    obtain ⟨a1, h1, h⟩ := Option.bind_eq_some_iff.mp h
    obtain ⟨x1, hc1⟩ := hc.hop (hp s (.head _)) h1
    rw [List.length_cons, Nat.add_comm chain.length 1, ← Nat.add_assoc]
    exact ih hc1 (fun s hs => hp s (.tail _ hs)) h

end

end UwbCore.Ccp
