import UwbCore.Ccp.Epoch

/-!
# When a clock is valid

A slave or relay calls its clock valid after as many blinks in a row from one master, in the order of
the master's time, as UWB_CCP_VALID_THRESHOLD says, and at least two. The callback counts them in a
field of 3 bits, and takes a blink for one that goes back in time when it lies before `master_epoch`,
which is not the time of the blink before but what the compensations and the bridged misses have made
of it. As long as that test and the count tell the same as the blinks themselves, the validity is right
(`validRight_of_guarded`).
-/

namespace UwbCore.Ccp
open UwbCore.Lib

/-- A blink of the same master, not before the last one in the master's time. -/
def BlinkFrame.Follows (b last : BlinkFrame) : Prop :=
  b.euid = last.euid ∧ last.transmissionTimestamp ≤ b.transmissionTimestamp

instance decidableFollows (b last : BlinkFrame) : Decidable (b.Follows last) :=
  inferInstanceAs (Decidable (_ ∧ _))

/-- The number of blinks since the master changed or its time went back, newest blink first. -/
def streak : List BlinkFrame → Nat
  | [] => 0
  | [_] => 1
  | b :: last :: heard => if b.Follows last then streak (last :: heard) + 1 else 1

/-- A node, and the blinks it has accepted since it was started, newest first. -/
structure Listening where
  ccp : Instance
  heard : List BlinkFrame

namespace Listening
variable (cfg : Cfg)

def step (w : Listening) : Event → Listening
  | .start systime cputime => ⟨w.ccp.start cfg systime cputime, []⟩
  | .receive rx clock =>
    { ccp := w.ccp.step cfg (.receive rx clock)
      heard := if w.ccp.Accepts cfg rx then rx.blink :: w.heard else w.heard }
  | e => { w with ccp := w.ccp.step cfg e }

def init (period : BitVec 32) : Listening := ⟨.init cfg period, []⟩

/-- The clock is valid exactly after enough blinks in a row. -/
def ValidRight (w : Listening) : Prop :=
  w.ccp.valid = true ↔ max cfg.validThreshold 2 ≤ streak w.heard

instance decidableValidRight (w : Listening) : Decidable (w.ValidRight cfg) :=
  inferInstanceAs (Decidable (_ ↔ _))

/-- The blink goes on from the one accepted last. -/
def Continues (w : Listening) (b : BlinkFrame) : Prop := ∃ last ∈ w.heard.head?, b.Follows last

/-- The last blink continues in this one. -/
lemma any_head_iff {w : Listening} {b : BlinkFrame} :
    (w.heard.head?.any fun last => decide (b.Follows last)) = true ↔ w.Continues b := by
  simp [Continues, Option.any_eq_true]

instance decidableContinues (w : Listening) (b : BlinkFrame) : Decidable (w.Continues b) :=
  decidable_of_iff _ any_head_iff

/-- The test of the callback agrees with the blinks, and a threshold above 8 is not reached. -/
def Guard (w : Listening) : Event → Prop
  | .receive rx _ => w.ccp.Accepts cfg rx →
      (¬(rx.blink.transmissionTimestamp < w.ccp.masterEpoch ∨ rx.blink.euid ≠ w.ccp.masterEuid) ↔
        w.Continues rx.blink) ∧
      (8 < cfg.validThreshold → streak (rx.blink :: w.heard) < cfg.validThreshold)
  | _ => True

instance decidableGuard (w : Listening) : (e : Event) → Decidable (w.Guard cfg e)
  | .receive rx _ => inferInstanceAs (Decidable (w.ccp.Accepts cfg rx →
      (¬(rx.blink.transmissionTimestamp < w.ccp.masterEpoch ∨ rx.blink.euid ≠ w.ccp.masterEuid) ↔
        w.Continues rx.blink) ∧
      (8 < cfg.validThreshold → streak (rx.blink :: w.heard) < cfg.validThreshold)))
  | .start .. | .listen _ | .listenEnd | .rxTimeout | .error | .reset | .send .. | .txComplete .. =>
    isTrue trivial

end Listening

/-! ## The count -/

section
variable {cfg : Cfg} {ccp : Instance} {rx : Rx}

/-- The check of the validity looks at four fields. -/
lemma checkValid_congr {a : Instance} (b : BlinkFrame) (he : a.masterEpoch = ccp.masterEpoch)
    (hm : a.masterEuid = ccp.masterEuid) (hv : a.valid = ccp.valid)
    (hc : a.validCount = ccp.validCount) :
    (a.checkValid cfg b).valid = (ccp.checkValid cfg b).valid ∧
      (a.checkValid cfg b).validCount = (ccp.checkValid cfg b).validCount := by
  unfold Instance.checkValid
  rw [he, hm, hv, hc]
  split
  case isTrue => exact ⟨rfl, rfl⟩
  case isFalse => exact ⟨rfl, rfl⟩

variable (cfg ccp rx) in
/-- A blink changes the validity as `checkValid` does. -/
lemma takeEpochs_valid : (ccp.takeEpochs cfg rx).valid = (ccp.checkValid cfg rx.blink).valid ∧
    (ccp.takeEpochs cfg rx).validCount = (ccp.checkValid cfg rx.blink).validCount := by
  simp only [Instance.takeEpochs, Instance.adjustForEpochToRm]
  exact checkValid_congr _ rfl rfl rfl rfl

variable (cfg) in
/-- The time of flight does not change the validity. -/
lemma compensateTof_valid (p : Instance × Frame) :
    (compensateTof cfg p).1.valid = p.1.valid ∧
      (compensateTof cfg p).1.validCount = p.1.validCount := by
  obtain ⟨ccp, f⟩ := p
  unfold compensateTof
  dsimp only
  split <;> exact ⟨rfl, rfl⟩

variable (cfg) in
/-- Neither do the relays. -/
lemma compensateRelays_valid (p : Instance × Frame) :
    (compensateRelays cfg p).1.valid = p.1.valid ∧
      (compensateRelays cfg p).1.validCount = p.1.validCount := by
  obtain ⟨ccp, f⟩ := p
  by_cases h : f.blink.rptCount ≠ 0
  case pos => simp only [compensateRelays, h, ne_eq, not_false_eq_true, if_true, and_self]
  case neg => simp only [compensateRelays, h, if_false, and_self]

variable (cfg ccp rx) in
/-- The validity and the count after a good blink. -/
lemma takeBlink_valid :
    (ccp.takeBlink cfg rx).ccp.valid = (ccp.checkValid cfg rx.blink).valid ∧
      (ccp.takeBlink cfg rx).ccp.validCount = (ccp.checkValid cfg rx.blink).validCount := by
  obtain ⟨hr, hrc⟩ := compensateRelays_valid cfg (compensateTof cfg
    (ccp.takeEpochs cfg rx, (ccp.frames (cfg.ring.next ccp.idx)).received cfg rx))
  obtain ⟨ht, htc⟩ := compensateTof_valid cfg
    (ccp.takeEpochs cfg rx, (ccp.frames (cfg.ring.next ccp.idx)).received cfg rx)
  obtain ⟨he, hec⟩ := takeEpochs_valid cfg ccp rx
  exact ⟨hr.trans (ht.trans he), hrc.trans (htc.trans hec)⟩

variable (cfg ccp) in
/-- A miss leaves the validity and the count alone. -/
lemma miss_valid : (ccp.miss cfg).ccp.valid = ccp.valid ∧
    (ccp.miss cfg).ccp.validCount = ccp.validCount := by
  unfold Instance.miss Instance.issueSuperframe
  dsimp only
  split_ifs <;> exact ⟨rfl, rfl⟩

variable (ccp) in
/-- Besides a start and a good blink nothing changes the validity of a slave or relay. -/
lemma step_valid (hrole : cfg.role ≠ .master) (e : Event)
    (hstart : ∀ systime cputime, e ≠ .start systime cputime)
    (hrx : ∀ rx clock, e = .receive rx clock → ¬ccp.Accepts cfg rx) :
    (ccp.step cfg e).valid = ccp.valid ∧ (ccp.step cfg e).validCount = ccp.validCount := by
  cases e with
  | start systime cputime => exact absurd rfl (hstart systime cputime)
  | receive rx clock =>
    obtain ⟨frames, hf⟩ := rxCompleteCb_not_accepts (hrx rx clock rfl)
    unfold Instance.step
    dsimp only
    rw [hf]
    exact ⟨rfl, rfl⟩
  | rxTimeout =>
    unfold Instance.step Instance.rxTimeoutCb
    dsimp only
    split_ifs
    · exact ⟨rfl, rfl⟩
    · exact miss_valid cfg { ccp with rxTimeoutError := true }
    · exact ⟨rfl, rfl⟩
  | error =>
    unfold Instance.step Instance.errorCb
    dsimp only
    rw [if_neg hrole]
    split_ifs
    · exact ⟨rfl, rfl⟩
    · exact miss_valid cfg { ccp with rxError := true }
    · exact ⟨rfl, rfl⟩
  | txComplete systime0 cputime systime1 =>
    unfold Instance.step Instance.txCompleteCb
    dsimp only
    rw [if_pos (.inr hrole)]
    exact ⟨rfl, rfl⟩
  | listen startRxError =>
    unfold Instance.step Instance.listen
    dsimp only
    split_ifs <;> exact ⟨rfl, rfl⟩
  | listenEnd =>
    unfold Instance.step Instance.listenEnd
    dsimp only
    split_ifs <;> exact ⟨rfl, rfl⟩
  | reset =>
    unfold Instance.step Instance.resetCb
    dsimp only
    split_ifs <;> exact ⟨rfl, rfl⟩
  | send startTxError systime =>
    unfold Instance.step Instance.send
    dsimp only
    split_ifs <;> exact ⟨rfl, rfl⟩

end

/-! ## The streak -/

/-- A blink that was heard is a streak of one. -/
lemma streak_pos {heard : List BlinkFrame} (h : heard ≠ []) : 1 ≤ streak heard := by
  cases heard with
  | nil => exact absurd rfl h
  | cons b heard =>
    cases heard with
    | nil => exact le_rfl
    | cons last heard =>
      unfold streak
      split
      case isTrue => exact Nat.le_add_left 1 _
      case isFalse => exact le_rfl

namespace Listening
variable {cfg : Cfg} {w : Listening} {b : BlinkFrame}

/-- A blink that goes on makes the streak longer, another one begins it. -/
lemma streak_cons (w : Listening) (b : BlinkFrame) :
    (w.Continues b → w.heard ≠ [] ∧ streak (b :: w.heard) = streak w.heard + 1) ∧
      (¬w.Continues b → streak (b :: w.heard) = 1) := by
  obtain ⟨ccp, heard⟩ := w
  unfold Continues
  cases heard with
  | nil =>
    refine ⟨fun h => ?_, fun _ => rfl⟩
    obtain ⟨last, hm, -⟩ := h
    cases hm
  | cons last heard =>
    constructor
    · rintro ⟨last', hm, hf⟩
      cases hm
      refine ⟨List.cons_ne_nil _ _, ?_⟩
      rw [streak, if_pos hf]
    · intro h
      have hf : ¬b.Follows last := fun hf => h ⟨last, rfl, hf⟩
      rw [streak, if_neg hf]

/-- The count is that of the streak, as far as the threshold; a threshold above 8 is beyond it. -/
structure Inv (cfg : Cfg) (w : Listening) : Prop where
  valid : w.ValidRight cfg
  count : cfg.validThreshold ≤ 8 → w.heard ≠ [] →
    w.ccp.validCount.toNat = min (streak w.heard - 1) (cfg.validThreshold - 1)
  never : 8 < cfg.validThreshold → w.ccp.valid = false

/-- What leaves the validity leaves the invariant. -/
lemma Inv.same {ccp : Instance} (h : w.Inv cfg) (hv : ccp.valid = w.ccp.valid)
    (hc : ccp.validCount = w.ccp.validCount) : Inv cfg ⟨ccp, w.heard⟩ where
  valid := by
    unfold ValidRight
    rw [hv]
    exact h.valid
  count := by
    rw [hc]
    exact h.count
  never := by
    rw [hv]
    exact h.never

/-- A node that has just been started has no valid clock. -/
lemma Inv.start {ccp : Instance} (hv : ccp.valid = false) : Inv cfg ⟨ccp, []⟩ where
  valid := by
    unfold ValidRight streak
    rw [hv]
    exact iff_of_false Bool.false_ne_true (by omega)
  count := fun _ hn => absurd rfl hn
  never := fun _ => hv

/-- The next count of a blink that goes on, in 3 bits. -/
def nextCount (cfg : Cfg) (count : BitVec 3) : BitVec 3 :=
  if (count.toNat : Int) < cfg.validThreshold - 1 then count + 1 else count

/-- The count goes up to one below the threshold. -/
lemma nextCount_toNat (hT : 1 ≤ cfg.validThreshold) (h8 : cfg.validThreshold ≤ 8)
    {count : BitVec 3} {s : Nat} (hs : 1 ≤ s)
    (h : count.toNat = min (s - 1) (cfg.validThreshold - 1)) :
    (nextCount cfg count).toNat = min s (cfg.validThreshold - 1) := by
  have hone : (1 : BitVec 3).toNat = 1 := rfl
  unfold nextCount
  split
  case isTrue hlt =>
    rw [BitVec.toNat_add, hone]
    omega
  case isFalse hlt => omega

variable (cfg) in
/-- A blink that continues counts. -/
lemma checkValid_continues
    (h : ¬(b.transmissionTimestamp < w.ccp.masterEpoch ∨ b.euid ≠ w.ccp.masterEuid)) :
    (w.ccp.checkValid cfg b).validCount = nextCount cfg w.ccp.validCount ∧
      (w.ccp.checkValid cfg b).valid = (w.ccp.valid ||
        decide (((nextCount cfg w.ccp.validCount).toNat : Int) = cfg.validThreshold - 1)) := by
  unfold Instance.checkValid
  rw [if_neg h]
  exact ⟨rfl, rfl⟩

/-- Another one starts over. -/
lemma checkValid_over (hT : 1 ≤ cfg.validThreshold)
    (h : b.transmissionTimestamp < w.ccp.masterEpoch ∨ b.euid ≠ w.ccp.masterEuid) :
    (w.ccp.checkValid cfg b).validCount = 0 ∧ (w.ccp.checkValid cfg b).valid = false := by
  unfold Instance.checkValid
  rw [if_pos h]
  exact ⟨rfl, decide_eq_false (by omega)⟩

/-- The check of a blink that is judged as the blinks say. -/
lemma Inv.check (hT : 1 ≤ cfg.validThreshold) (h : w.Inv cfg)
    (hjudge : ¬(b.transmissionTimestamp < w.ccp.masterEpoch ∨ b.euid ≠ w.ccp.masterEuid) ↔
      w.Continues b)
    (hlong : 8 < cfg.validThreshold → streak (b :: w.heard) < cfg.validThreshold) :
    Inv cfg ⟨w.ccp.checkValid cfg b, b :: w.heard⟩ := by
  obtain ⟨hcont, hbegin⟩ := streak_cons w b
  by_cases hc : w.Continues b
  case neg =>
    obtain ⟨hcount, hvalid⟩ := checkValid_over hT (not_not.mp (mt hjudge.mp hc))
    refine ⟨?_, ?_, fun _ => hvalid⟩
    · unfold ValidRight
      rw [hvalid, hbegin hc]
      exact iff_of_false Bool.false_ne_true (by omega)
    · intro _ _
      rw [hcount, hbegin hc]
      exact (Nat.zero_min _).symm
  case pos =>
    obtain ⟨hne, hs⟩ := hcont hc
    obtain ⟨hcount, hvalid⟩ := checkValid_continues cfg (hjudge.mpr hc)
    have hpos := streak_pos hne
    have hold := h.valid
    unfold ValidRight at hold
    rcases Nat.lt_or_ge 8 cfg.validThreshold with h8 | h8
    · -- the field of 3 bits never holds a threshold above 8
      have hlt := (nextCount cfg w.ccp.validCount).isLt
      have hfalse : (w.ccp.checkValid cfg b).valid = false := by
        rw [hvalid, h.never h8, Bool.false_or]
        exact decide_eq_false (by omega)
      refine ⟨?_, fun hle => absurd h8 (Nat.not_lt.mpr hle), fun _ => hfalse⟩
      have hl := hlong h8
      unfold ValidRight
      rw [hfalse]
      refine iff_of_false Bool.false_ne_true (Nat.not_le.mpr ?_)
      exact hl.trans_le (le_max_left _ _)
    · have hnext := nextCount_toNat hT h8 hpos (h.count h8 hne)
      refine ⟨?_, fun _ _ => ?_, fun hgt => absurd h8 (Nat.not_le.mpr hgt)⟩
      · unfold ValidRight
        rw [hvalid, hs, Bool.or_eq_true, decide_eq_true_eq, hold, hnext]
        omega
      · rw [hcount, hnext, hs, Nat.add_sub_cancel]

/-- One step. -/
lemma Inv.step (hrole : cfg.role ≠ .master) (hT : 1 ≤ cfg.validThreshold) (h : w.Inv cfg)
    {e : Event} (g : w.Guard cfg e) : (w.step cfg e).Inv cfg := by
  have kept {e : Event} (hstart : ∀ systime cputime, e ≠ .start systime cputime)
      (hrx : ∀ rx clock, e = .receive rx clock → ¬w.ccp.Accepts cfg rx) :
      Inv cfg ⟨w.ccp.step cfg e, w.heard⟩ := by
    obtain ⟨hv, hc⟩ := step_valid w.ccp hrole e hstart hrx
    exact h.same hv hc
  cases e with
  | start systime cputime => exact .start rfl
  | receive rx clock =>
    unfold Listening.step
    dsimp only
    by_cases ha : w.ccp.Accepts cfg rx
    case neg =>
      rw [if_neg ha]
      refine kept (fun _ _ => Event.noConfusion) fun rx' clock' he => ?_
      cases he
      exact ha
    case pos =>
      obtain ⟨hjudge, hlong⟩ := g ha
      obtain ⟨hv, hc⟩ := takeBlink_valid cfg w.ccp rx
      have hcheck := h.check hT hjudge hlong
      rw [if_pos ha, Instance.step, rxCompleteCb_accepts ha]
      exact hcheck.same hv hc
  | listen startRxError => exact kept (fun _ _ => Event.noConfusion) fun _ _ => Event.noConfusion
  | listenEnd => exact kept (fun _ _ => Event.noConfusion) fun _ _ => Event.noConfusion
  | rxTimeout => exact kept (fun _ _ => Event.noConfusion) fun _ _ => Event.noConfusion
  | error => exact kept (fun _ _ => Event.noConfusion) fun _ _ => Event.noConfusion
  | reset => exact kept (fun _ _ => Event.noConfusion) fun _ _ => Event.noConfusion
  | send startTxError systime =>
    exact kept (fun _ _ => Event.noConfusion) fun _ _ => Event.noConfusion
  | txComplete systime0 cputime systime1 =>
    exact kept (fun _ _ => Event.noConfusion) fun _ _ => Event.noConfusion

/-- In every run of a slave or relay whose blinks are judged as they are, the clock is valid exactly
    after enough of them in a row. -/
theorem validRight_of_guarded (hrole : cfg.role ≠ .master) (hT : 1 ≤ cfg.validThreshold)
    (period : BitVec 32) (rch : Reach (step cfg) (Guard cfg) (init cfg period) w) :
    w.ValidRight cfg :=
  (rch.invariant (P := Inv cfg) (.start rfl) fun _ _ h g => h.step hrole hT g).valid

/-- A blink of master 0x11. -/
def blinkAt (transmissionTimestamp : BitVec 64) : Rx where
  fctrl0 := fctrlBlinkCcp64
  frameLen := blinkLen
  blink := ⟨fctrlBlinkCcp64, 1, 0x11, 1, 0x1000000000, transmissionTimestamp, 0, 4, 64⟩
  ldeError := false
  rxtimestamp := 0x10000000
  systime0 := 0
  cputime := 0
  systime1 := 0
  carrierIntegrator := 0
  rxttcko := 0
  startTxError := false

/-- The blinks of the example come within 40 bits. -/
lemma blinkAt_clock (transmissionTimestamp : BitVec 64) :
    (blinkAt transmissionTimestamp).rxtimestamp.toNat < 2 ^ 40 := by
  show (0x10000000 : BitVec 64).toNat < 2 ^ 40
  decide

/-- The node waits and receives a blink. -/
def blinked (transmissionTimestamp : BitVec 64) : List Event :=
  [.listen false, .receive (blinkAt transmissionTimestamp) (blinkAt_clock transmissionTimestamp)]

def threeBlinks : List Event :=
  .start 0 0 :: (blinked 0x1000000000 ++ blinked 0x2000000000 ++ blinked 0x3000000000)

def threeCfg : Cfg := { Cfg.dflt .slave 1 with validThreshold := 3 }

/-- Three blinks make the clock valid. -/
theorem validRight_threeBlinks :
    (threeBlinks.foldl (step threeCfg) (init threeCfg 0x100000)).ValidRight threeCfg ∧
      (threeBlinks.foldl (step threeCfg) (init threeCfg 0x100000)).ccp.valid = true := by
  have hall : Allowed (step threeCfg) (Guard threeCfg) (init threeCfg 0x100000) threeBlinks := by
    decide +kernel
  exact ⟨validRight_of_guarded (by decide) (by decide) _ (Reach.of_allowed hall), by decide +kernel⟩

/-- Nine blinks in a row, where nine are asked for. -/
def nineCfg : Cfg := { Cfg.dflt .slave 1 with validThreshold := 9 }

def nineBlinks : List Event :=
  .start 0 0 :: ((List.range 9).map fun i =>
    blinked (.ofNat 64 ((i + 1) * 0x1000000000))).flatten

/-- The clock is not valid. -/
theorem validRight_fails :
    ¬ ∀ (cfg : Cfg) (period : BitVec 32) (es : List Event), cfg.role ≠ .master →
      1 ≤ cfg.validThreshold → (es.foldl (step cfg) (init cfg period)).ValidRight cfg := by
  intro h
  have hv := h nineCfg 0x100000 nineBlinks (by decide) (by decide)
  revert hv
  decide +kernel

end Listening

end UwbCore.Ccp
