import UwbCore.Ccp.Basic
import UwbCore.Lib.Run

/-!
# The domain of the local epoch

`local_epoch` is a time of the device's clock of 40 bits, kept in 64. It is set from a reception, from
a transmission or at the start, moved on by a period when a blink is missed or cannot be sent, and
moved back by the compensations. Only the compensation for relays and the start cut it to 40 bits: it
stays in their range exactly when no other move leaves it (`epoch40_iff`).
-/

namespace UwbCore.Ccp
open UwbCore.Lib

/-- What can happen to a node; a time of reception has 40 bits. -/
inductive Event where
  | start (systime : BitVec 64) (cputime : BitVec 32)
  | listen (startRxError : Bool)
  | listenEnd
  | receive (rx : Rx) (clock : rx.rxtimestamp.toNat < 2 ^ 40)
  | rxTimeout
  | error
  | reset
  | send (startTxError : Bool) (systime : BitVec 64)
  | txComplete (systime0 cputime systime1 : BitVec 32)

namespace Instance
variable (cfg : Cfg) (ccp : Instance)

def step : Event → Instance
  | .start systime cputime => ccp.start cfg systime cputime
  | .listen startRxError => ccp.listen startRxError
  | .listenEnd => ccp.listenEnd
  | .receive rx _ => (ccp.rxCompleteCb cfg rx).ccp
  | .rxTimeout => (ccp.rxTimeoutCb cfg).ccp
  | .error => (ccp.errorCb cfg).ccp
  | .reset => ccp.resetCb.ccp
  | .send startTxError systime => (ccp.send cfg startTxError systime).ccp
  | .txComplete systime0 cputime systime1 => (ccp.txCompleteCb cfg systime0 cputime systime1).ccp

/-- The received frame is a good blink that the node waits for. -/
def Accepts (rx : Rx) : Prop :=
  cfg.role ≠ .master ∧ rx.fctrl0 = fctrlBlinkCcp64 ∧ ccp.sem = 0 ∧
    (blinkLen ≤ rx.frameLen ∧ rx.frameLen ≤ arrayLen) ∧
    ¬(rx.ldeError = true ∨ rx.blink.rptCount.toNat < cfg.testCascadeRpts)

instance decidableAccepts (rx : Rx) : Decidable (ccp.Accepts cfg rx) :=
  inferInstanceAs (Decidable (_ ∧ _ ∧ _ ∧ _ ∧ _))

/-- A miss that is bridged. -/
def Bridges : Prop :=
  ccp.sem = 0 ∧ 0 < cfg.tolerateMissedFrames ∧ ccp.valid = true ∧
    (ccp.missedFrames + 1).toNat ≤ cfg.tolerateMissedFrames

instance decidableBridges : Decidable (ccp.Bridges cfg) :=
  inferInstanceAs (Decidable (_ ∧ _ ∧ _ ∧ _))

/-- `local_epoch` is a time of the clock. -/
def Epoch40 : Prop := ccp.localEpoch.toNat < 2 ^ 40

instance decidableEpoch40 : Decidable ccp.Epoch40 := inferInstanceAs (Decidable (_ < _))

/-- The compensation for the time of flight of a blink. -/
def tofOf (b : BlinkFrame) : BitVec 32 :=
  match cfg.tofComp with
  | none => 0
  | some tof => (cfg.skew ((tof b.shortAddress).setWidth 64)).setWidth 32

/-- The clock has room for a period after the epoch. -/
def Room : Prop := ccp.localEpoch.toNat + ccp.period.toNat * 2 ^ 16 < 2 ^ 40

/-- The frame that the master has sent. -/
def sentBlink : BlinkFrame := (ccp.frames (cfg.ring.cur (ccp.idx + 1))).blink

/-- A direct blink is received late enough for its compensations, a sent one too, and a miss or a failed
    send leaves room for the period. -/
def EpochGuard : Event → Prop
  | .receive rx _ => ccp.Accepts cfg rx → rx.blink.rptCount = 0 →
      rx.blink.epochToRmUs.toNat * 2 ^ 16 + (tofOf cfg rx.blink).toNat ≤ rx.rxtimestamp.toNat
  | .rxTimeout => ccp.Bridges cfg → ccp.Room
  | .error => cfg.role ≠ .master → ccp.Bridges cfg → ccp.Room
  | .send startTxError _ => ccp.sem ≠ 0 → startTxError = true → ccp.Room
  | .txComplete .. => ccp.sem ≠ 1 → cfg.role = .master →
      (ccp.sentBlink cfg).epochToRmUs.toNat * 2 ^ 16 ≤
        (ccp.sentBlink cfg).transmissionTimestamp.toNat % 2 ^ 40
  | .start .. | .listen _ | .listenEnd | .reset => True

end Instance

/-! ## Times of the clock -/

/-- The mask is the remainder by 2^40. -/
lemma toNat_and_clock (x : BitVec 64) : (x &&& 0xFFFFFFFFFF).toNat = x.toNat % 2 ^ 40 := by
  have h := Word.toNat_and_window x 0xFFFFFFFFFF (k := 0) (m := 40) (by decide) (by decide)
  rw [h, Nat.pow_zero, Nat.div_one, Nat.mul_one]

section
variable {cfg : Cfg} {ccp : Instance} {rx : Rx}

variable (cfg) in
/-- The time of flight is taken from the local epoch. -/
lemma compensateTof_localEpoch (p : Instance × Frame) :
    (compensateTof cfg p).1.localEpoch =
        p.1.localEpoch - (Instance.tofOf cfg p.2.blink).setWidth 64 ∧
      (compensateTof cfg p).2.blink = p.2.blink := by
  obtain ⟨ccp, f⟩ := p
  unfold compensateTof Instance.tofOf
  dsimp only
  cases cfg.tofComp with
  | none => exact ⟨(BitVec.sub_zero _).symm, rfl⟩
  | some tof => exact ⟨rfl, rfl⟩

variable (cfg) in
/-- The compensation for relays cuts the epoch to the clock. -/
lemma compensateRelays_localEpoch (p : Instance × Frame) :
    (p.2.blink.rptCount ≠ 0 → (compensateRelays cfg p).1.localEpoch.toNat < 2 ^ 40) ∧
      (p.2.blink.rptCount = 0 → (compensateRelays cfg p).1.localEpoch = p.1.localEpoch) := by
  obtain ⟨ccp, f⟩ := p
  unfold compensateRelays
  dsimp only
  constructor
  · intro h
    rw [if_pos h]
    dsimp only
    rw [toNat_and_clock]
    exact Nat.mod_lt _ (by decide)
  · intro h
    rw [if_neg (not_not.mpr h)]

/-- A good blink leaves a time of the clock unless it is received too early for its compensations. -/
lemma takeBlink_epoch40 (clock : rx.rxtimestamp.toNat < 2 ^ 40) :
    (ccp.takeBlink cfg rx).ccp.Epoch40 ↔ (rx.blink.rptCount = 0 →
      rx.blink.epochToRmUs.toNat * 2 ^ 16 + (Instance.tofOf cfg rx.blink).toNat ≤
        rx.rxtimestamp.toNat) := by
  obtain ⟨htof, hblink⟩ := compensateTof_localEpoch cfg
    (ccp.takeEpochs cfg rx, (ccp.frames (cfg.ring.next ccp.idx)).received cfg rx)
  obtain ⟨hrelayed, hdirect⟩ := compensateRelays_localEpoch cfg (compensateTof cfg
    (ccp.takeEpochs cfg rx, (ccp.frames (cfg.ring.next ccp.idx)).received cfg rx))
  rw [hblink] at hrelayed hdirect
  rw [htof] at hdirect
  show (compensateRelays cfg (compensateTof cfg (ccp.takeEpochs cfg rx,
    (ccp.frames (cfg.ring.next ccp.idx)).received cfg rx))).1.localEpoch.toNat < 2 ^ 40 ↔ _
  by_cases hr : rx.blink.rptCount = 0
  case neg => exact iff_of_true (hrelayed hr) fun h => absurd h hr
  case pos =>
    have hrm := rx.blink.epochToRmUs.isLt
    have htofLt := (Instance.tofOf cfg rx.blink).isLt
    rw [hdirect hr, forall_prop_of_true hr]
    show (rx.rxtimestamp - rx.blink.epochToRmUs.setWidth 64 <<< 16 -
      (Instance.tofOf cfg rx.blink).setWidth 64).toNat < 2 ^ 40 ↔ _
    rw [BitVec.toNat_sub, BitVec.toNat_sub, Word.toNat_widen_shiftLeft _ (by decide),
      Word.toNat_widen _ (by decide)]
    omega

/-- An accepted frame is taken as a blink. -/
lemma rxCompleteCb_accepts (h : ccp.Accepts cfg rx) :
    ccp.rxCompleteCb cfg rx = ccp.takeBlink cfg rx := by
  obtain ⟨hrole, hf, hs, hlen, hgood⟩ := h
  unfold Instance.rxCompleteCb
  rw [if_neg hrole, if_neg (not_not.mpr hf), if_neg (not_not.mpr hs), if_neg (not_not.mpr hlen),
    if_neg hgood]

/-- Any other frame changes the ring at most. -/
lemma rxCompleteCb_not_accepts (h : ¬ccp.Accepts cfg rx) :
    ∃ frames, (ccp.rxCompleteCb cfg rx).ccp = { ccp with frames := frames } := by
  unfold Instance.rxCompleteCb
  split_ifs with h1 h2 h3 h4 h5
  case neg => exact absurd ⟨h1, not_not.mp h2, not_not.mp h3, h4, h5⟩ h
  all_goals exact ⟨_, rfl⟩

/-- A period added to a time of the clock. -/
lemma room_iff (h : ccp.Epoch40) :
    (ccp.localEpoch + ccp.period.setWidth 64 <<< 16).toNat < 2 ^ 40 ↔ ccp.Room := by
  have hp := ccp.period.isLt
  have he : ccp.localEpoch.toNat < 2 ^ 40 := h
  unfold Instance.Room
  rw [BitVec.toNat_add, Word.toNat_widen_shiftLeft _ (by decide)]
  omega

variable (cfg) in
/-- A miss moves the epoch on where it is bridged. -/
lemma miss_epoch40 (h : ccp.Epoch40) :
    (ccp.miss cfg).ccp.Epoch40 ↔ (0 < cfg.tolerateMissedFrames ∧ ccp.valid = true ∧
      (ccp.missedFrames + 1).toNat ≤ cfg.tolerateMissedFrames → ccp.Room) := by
  rw [← room_iff h]
  unfold Instance.miss
  by_cases ht : 0 < cfg.tolerateMissedFrames
  case neg => exact iff_of_true (by rw [if_neg ht]; exact h) fun hn => absurd hn.1 ht
  case pos =>
    rw [if_pos ht, Instance.issueSuperframe]
    dsimp only
    split
    case isTrue hb => exact ⟨fun he _ => he, fun he => he ⟨ht, hb⟩⟩
    case isFalse hb => exact iff_of_true h fun hn => absurd hn.2 hb

/-- A miss of a node that waits. -/
lemma missed_epoch40 {waiting : Instance} (hs : ccp.sem = 0) (h : ccp.Epoch40)
    (hw : waiting.localEpoch = ccp.localEpoch ∧ waiting.period = ccp.period ∧
      waiting.valid = ccp.valid ∧ waiting.missedFrames = ccp.missedFrames) :
    (waiting.miss cfg).ccp.release.Epoch40 ↔ (ccp.Bridges cfg → ccp.Room) := by
  obtain ⟨he, hp, hv, hm⟩ := hw
  have hwait : waiting.Epoch40 := by
    unfold Instance.Epoch40
    rw [he]
    exact h
  have hiff := miss_epoch40 cfg hwait
  unfold Instance.Room at hiff ⊢
  unfold Instance.Bridges
  rw [he, hp, hv, hm] at hiff
  rw [and_iff_right hs]
  exact hiff

/-- One step keeps the epoch in the domain of the clock exactly under the condition. -/
lemma epoch40_step (h : ccp.Epoch40) (e : Event) :
    (ccp.step cfg e).Epoch40 ↔ ccp.EpochGuard cfg e := by
  cases e with
  | start systime cputime =>
    refine iff_of_true ?_ trivial
    show (_ &&& 0xFFFFFFFFFF : BitVec 64).toNat < 2 ^ 40
    rw [toNat_and_clock]
    exact Nat.mod_lt _ (by decide)
  | listen startRxError =>
    refine iff_of_true ?_ trivial
    unfold Instance.step Instance.listen
    dsimp only
    split_ifs <;> exact h
  | listenEnd =>
    refine iff_of_true ?_ trivial
    unfold Instance.step Instance.listenEnd
    dsimp only
    split_ifs <;> exact h
  | receive rx clock =>
    unfold Instance.step Instance.EpochGuard
    dsimp only
    by_cases ha : ccp.Accepts cfg rx
    case pos => rw [rxCompleteCb_accepts ha, takeBlink_epoch40 clock, forall_prop_of_true ha]
    case neg =>
      obtain ⟨frames, hf⟩ := rxCompleteCb_not_accepts ha
      rw [hf]
      exact iff_of_true h fun hn => absurd hn ha
  | rxTimeout =>
    unfold Instance.step Instance.rxTimeoutCb Instance.EpochGuard
    dsimp only
    by_cases hs : ccp.sem = 0
    case pos =>
      rw [if_neg (by omega), if_pos hs]
      exact missed_epoch40 hs h ⟨rfl, rfl, rfl, rfl⟩
    case neg => exact iff_of_true (by split_ifs <;> exact h) fun hb => absurd hb.1 hs
  | error =>
    unfold Instance.step Instance.errorCb Instance.EpochGuard
    dsimp only
    by_cases hs : ccp.sem = 0
    case neg => exact iff_of_true (by split_ifs <;> exact h) fun _ hb => absurd hb.1 hs
    case pos =>
      rw [if_neg (by omega), if_pos hs]
      by_cases hr : cfg.role = .master
      case pos =>
        rw [if_pos hr]
        exact iff_of_true h fun hn => absurd hr hn
      case neg =>
        rw [if_neg hr, forall_prop_of_true hr]
        exact missed_epoch40 hs h ⟨rfl, rfl, rfl, rfl⟩
  | reset =>
    refine iff_of_true ?_ trivial
    unfold Instance.step Instance.resetCb
    dsimp only
    split_ifs <;> exact h
  | send startTxError systime =>
    unfold Instance.step Instance.send Instance.EpochGuard
    dsimp only
    by_cases hs : ccp.sem = 0
    case pos =>
      rw [if_pos hs]
      exact iff_of_true h fun hn => absurd hs hn
    case neg =>
      rw [if_neg hs, forall_prop_of_true hs]
      cases startTxError with
      | false => exact iff_of_true h fun hn => Bool.noConfusion hn
      | true => exact (room_iff h).trans ⟨fun hr _ => hr, fun hr => hr rfl⟩
  | txComplete systime0 cputime systime1 =>
    unfold Instance.step Instance.txCompleteCb Instance.EpochGuard
    dsimp only
    by_cases hn : ccp.sem = 1 ∨ cfg.role ≠ .master
    case pos =>
      rw [if_pos hn]
      exact iff_of_true h fun hs hr => absurd hn (not_or.mpr ⟨hs, not_not.mpr hr⟩)
    case neg =>
      obtain ⟨hs, hr⟩ := not_or.mp hn
      have hrm := (ccp.sentBlink cfg).epochToRmUs.isLt
      have hclock : (((ccp.sentBlink cfg).transmissionTimestamp &&& (0xFFFFFFFFFF : BitVec 64)) -
          (ccp.sentBlink cfg).epochToRmUs.setWidth 64 <<< 16).toNat < 2 ^ 40 ↔
          (ccp.sentBlink cfg).epochToRmUs.toNat * 2 ^ 16 ≤
            (ccp.sentBlink cfg).transmissionTimestamp.toNat % 2 ^ 40 := by
        rw [BitVec.toNat_sub, toNat_and_clock, Word.toNat_widen_shiftLeft _ (by decide)]
        omega
      rw [if_neg hn, forall_prop_of_true hs, forall_prop_of_true (not_not.mp hr)]
      split
      case isTrue => exact hclock
      case isFalse => exact hclock

end

/-- The epochs begin within 40 bits. -/
lemma epoch40_init (cfg : Cfg) (period : BitVec 32) : (Instance.init cfg period).Epoch40 :=
  Nat.two_pow_pos 40

/-- In every run the local epoch stays in the domain of the clock exactly when every step meets the
    condition. -/
theorem epoch40_iff (cfg : Cfg) (period : BitVec 32) (es : List Event) :
    (∀ n, ((es.take n).foldl (Instance.step cfg) (.init cfg period)).Epoch40) ↔
      Allowed (Instance.step cfg) (Instance.EpochGuard cfg) (.init cfg period) es :=
  (allowed_iff_along (P := Instance.Epoch40) (I := fun _ => True) (fun _ _ h => h)
    (fun _ e _ h => epoch40_step h e) es trivial (epoch40_init cfg period)).symm

/-- A slave whose first blink is received right after the clock has turned. -/
theorem epoch40_fails :
    ¬ ∀ (cfg : Cfg) (period : BitVec 32) (es : List Event),
      (es.foldl (Instance.step cfg) (.init cfg period)).Epoch40 := by
  intro h
  have he := h (.dflt .slave 1) 0x100000 [.listen false, .receive
    { fctrl0 := fctrlBlinkCcp64, frameLen := blinkLen
      blink := ⟨fctrlBlinkCcp64, 1, 0x11, 1, 0x1000000000, 0x1000000000, 0, 4, 64⟩
      ldeError := false, rxtimestamp := 100, systime0 := 0, cputime := 0, systime1 := 0
      carrierIntegrator := 0, rxttcko := 0, startTxError := false } (by decide)]
  revert he
  decide +kernel

end UwbCore.Ccp
