import UwbCore.Ccp.Stations

/-!
# Relayed blinks

What a node derives from a blink that came over relays, against what it derives from that of the master.
-/

namespace UwbCore.Ccp
open UwbCore.Lib

/-! ## What a listener derives -/

section
variable {l : Station} {a : OnAir} {master : BlinkFrame}

/-- A station that listens takes the blink. -/
lemma Station.hear_eq (hw : l.Listens) (hf : a.blink.fctrl = fctrlBlinkCcp64) :
    l.hear a = l.ccp.takeBlink l.cfg (l.rx a) := by
  have hfctrl : ¬(l.rx a).fctrl0 ≠ fctrlBlinkCcp64 := not_not.mpr hf
  have hlen : ¬¬(blinkLen ≤ (l.rx a).frameLen ∧ (l.rx a).frameLen ≤ arrayLen) :=
    not_not.mpr (show blinkLen ≤ blinkLen ∧ blinkLen ≤ arrayLen by decide)
  have htest : ¬((l.rx a).ldeError = true ∨
      (l.rx a).blink.rptCount.toNat < l.cfg.testCascadeRpts) := by
    rw [hw.test]
    rintro (h | h)
    · cases h
    · exact Nat.not_lt_zero _ h
  rw [Station.hear, Instance.rxCompleteCb, if_neg hw.role, if_neg hfctrl,
    if_neg (not_not.mpr hw.sem), if_neg hlen, if_neg htest]

/-- From the blink of the master itself. -/
lemma derived_direct (hl : l.Plain) (hw : l.Listens) (hm : FromMaster master) :
    l.derived ⟨master, 0⟩ = (master.transmissionTimestamp - epochDly master,
      l.clock - (epochDly master).setWidth 40, (master.transmissionInterval >>> 16).setWidth 32) := by
  obtain ⟨he, hlocal, hperiod⟩ := takeBlink_direct l.ccp (l.rx ⟨master, 0⟩)
    hl.tofComp hm.rptCount
  have harr : l.arrival ⟨master, 0⟩ = l.clock := BitVec.add_zero _
  rw [Station.derived, Station.hear_eq hw hm.fctrl, he, hlocal, hperiod,
    Word.setWidth_sub _ _ (by decide)]
  refine Prod.ext rfl (Prod.ext ?_ rfl)
  dsimp only [Station.rx]
  rw [Word.setWidth_widen _ (by decide), harr]
  rfl

/-- From a blink that has passed relays. -/
lemma derived_relayed (hl : l.Plain) (hw : l.Listens) (hf : a.blink.fctrl = fctrlBlinkCcp64)
    (h0 : a.blink.rptCount ≠ 0) :
    l.derived a = (a.blink.transmissionTimestamp - epochDly a.blink - repeatDly a.blink,
      l.arrival a - (epochDly a.blink).setWidth 40 - (repeatDly a.blink).setWidth 40,
      (masterInterval a.blink.transmissionInterval >>> 16).setWidth 32) := by
  obtain ⟨he, hlocal, hperiod⟩ := takeBlink_relayed l.ccp (l.rx a)
    hl.skew hl.tofComp h0
  rw [Station.derived, Station.hear_eq hw hf, he, hlocal, hperiod, receptionOf_clock, if_neg h0]
  rfl

/-- A listener that is not misled has taken off the delay of the relays, and there is no excess. -/
lemma Carried.no_excess {k x : Nat} (hc : Carried master (k + 1) a x) (hl : l.Plain)
    (hw : l.Listens) (hm : FromMaster master) (hd : a.delay < 2 ^ 32)
    (h : l.derived a = l.derived ⟨master, 0⟩) :
    (repeatDly a.blink).toNat = a.delay ∧ x % 2 ^ 40 = 0 := by
  have h0 : a.blink.rptCount ≠ 0 := mt hc.rptCount_eq_zero.mp k.succ_ne_zero
  rw [derived_direct hl hw hm, derived_relayed hl hw (hc.fctrl.trans hm.fctrl) h0] at h
  obtain ⟨he, h⟩ := Prod.mk.inj h
  obtain ⟨hlocal, -⟩ := Prod.mk.inj h
  have hepoch : epochDly a.blink = epochDly master := by rw [epochDly, epochDly, hc.epoch]
  rw [hepoch] at he hlocal
  have hr : (repeatDly a.blink).setWidth 40 = BitVec.ofNat 40 a.delay :=
    ((Word.add_sub_sub_eq _ _ _ _).mp hlocal).symm
  have hx : BitVec.ofNat 40 x = 0 := by
    have he40 := congrArg (BitVec.setWidth 40) he
    rw [Word.setWidth_sub _ _ (by decide), Word.setWidth_sub _ _ (by decide),
      Word.setWidth_sub _ _ (by decide), hc.stamp, hr, Word.add_sub_sub_eq, BitVec.ofNat_add] at he40
    exact BitVec.add_right_eq_self.mp he40
  constructor
  · have hrn := congrArg BitVec.toNat hr
    have hle := repeatDly_toNat a.blink
    rw [BitVec.toNat_setWidth, BitVec.toNat_ofNat] at hrn
    omega
  · have := congrArg BitVec.toNat hx
    rwa [BitVec.toNat_ofNat] at this

/-! ## One relay -/

/-- The first relay starts at the time it planned, without the low bits. -/
lemma relayStart_first (s : Station) :
    (relayStart s.cfg s.ccp.blinkFrameDuration 1 (s.clock.setWidth 64)).toNat =
      s.planned % 2 ^ 40 / 2 ^ 9 * 2 ^ 9 := by
  have hc := s.clock.isLt
  have hh := s.cfg.txHoldoffDly.isLt
  have hshift : s.cfg.slotId.toNat % 4 * (s.ccp.blinkFrameDuration.toNat * 2 ^ 16) ≤
      3 * (2 ^ 16 * 2 ^ 16) :=
    Nat.mul_le_mul (by omega) (Nat.mul_le_mul_right _ s.ccp.blinkFrameDuration.isLt.le)
  have hslot : ((s.cfg.slotId % 4).setWidth 64).toNat = s.cfg.slotId.toNat % 4 := by
    rw [Word.toNat_widen _ (by decide), BitVec.toNat_umod]
    rfl
  have hlevel : (BitVec.setWidth 64 (1 : BitVec 8) * s.cfg.txHoldoffDly.setWidth 64 <<< 16).toNat =
      s.cfg.txHoldoffDly.toNat * 2 ^ 16 := by
    rw [show BitVec.setWidth 64 (1 : BitVec 8) = 1#64 from rfl, BitVec.one_mul,
      Word.toNat_widen_shiftLeft _ (by decide)]
  have hsum : (s.clock.setWidth 64 +
      BitVec.setWidth 64 (1 : BitVec 8) * s.cfg.txHoldoffDly.setWidth 64 <<< 16 +
      (s.cfg.slotId % 4).setWidth 64 * (s.ccp.blinkFrameDuration.setWidth 64 <<< 16)).toNat =
      s.planned := by
    rw [BitVec.toNat_add, BitVec.toNat_add, hlevel, BitVec.toNat_mul, hslot,
      Word.toNat_widen_shiftLeft s.ccp.blinkFrameDuration (by decide),
      Word.toNat_widen _ (by decide), Station.planned]
    generalize s.cfg.slotId.toNat % 4 * (s.ccp.blinkFrameDuration.toNat * 2 ^ 16) = shift at *
    omega
  rw [relayStart, Word.toNat_and_window _ _ (k := 9) (m := 40) (by decide) (by decide), hsum]

variable {s : Station}

/-- A relay of the master's own blink: the delay that it writes into the frame is the time from its
    reception to its transmission, or is negative. -/
lemma hop_first (hs : s.Plain) (hm : FromMaster master) (h : s.hop ⟨master, 0⟩ = some a) :
    ∃ txDelay : BitVec 64,
      a.blink.transmissionTimestamp = master.transmissionTimestamp + txDelay ∧
      a.blink.transmissionInterval = master.transmissionInterval - txDelay.setWidth 40 ∧
      a.delay = txDelay.toNat % 2 ^ 40 ∧
      txDelay.toNat = (s.planned % 2 ^ 40 / 2 ^ 9 * 2 ^ 9 + s.cfg.txAntennaDelay.toNat +
        (2 ^ 64 - s.clock.toNat)) % 2 ^ 64 := by
  obtain ⟨-, txDelay, htx, hblink, hdelay⟩ := Station.hop_some hs h
  have harr : s.arrival ⟨master, 0⟩ = s.clock := BitVec.add_zero _
  have hrec : receptionOf (s.rx ⟨master, 0⟩) = s.clock.setWidth 64 := by
    rw [receptionOf, if_pos (show (s.rx ⟨master, 0⟩).blink.rptCount = 0 from hm.rptCount)]
    exact congrArg (BitVec.setWidth 64) harr
  rw [receptionOf_clock, if_pos hm.rptCount, harr, BitVec.add_sub_cancel, Nat.zero_add] at hdelay
  refine ⟨txDelay, by rw [hblink], ?_, by rw [hdelay, BitVec.toNat_setWidth], ?_⟩
  · rw [hblink]
    dsimp only
    rw [Word.setWidth_sub _ _ (by decide), Word.setWidth_widen _ (by decide)]
  · have hone : master.rptCount + 1 = 1 := by rw [hm.rptCount]; rfl
    have hc := Word.toNat_widen s.clock (m := 64) (by decide)
    have ha := Word.toNat_widen s.cfg.txAntennaDelay (m := 64) (by decide)
    have hstart := relayStart_first s
    have hlt := s.cfg.txAntennaDelay.isLt
    have hcl := s.clock.isLt
    rw [htx, hrec, hone, BitVec.toNat_sub, BitVec.toNat_add, hstart, hc, ha]
    omega

/-- The period is the interval without 16 bits. -/
lemma period_toNat (i : BitVec 40) : ((i >>> 16).setWidth 32).toNat = i.toNat / 2 ^ 16 := by
  have hi := i.isLt
  rw [BitVec.toNat_setWidth, BitVec.toNat_ushiftRight, Nat.shiftRight_eq_div_pow]
  omega

/-- The period of the master. -/
lemma masterPeriod_toNat (i : BitVec 40) :
    ((masterInterval i >>> 16).setWidth 32).toNat = (i.toNat / 2 ^ 32 + 1) * 2 ^ 16 := by
  have hi := i.isLt
  rw [BitVec.toNat_setWidth, BitVec.toNat_ushiftRight, Nat.shiftRight_eq_div_pow,
    masterInterval_toNat]
  omega

/-- What a listener derives from the blink of one relay is right when the delay in it is the one that
    the listener takes off, and the interval is rounded up to the one of the master. -/
lemma derived_first_iff {l : Station} (hl : l.Plain) (hw : l.Listens) (hm : FromMaster master)
    {txDelay : BitVec 64} (hf : a.blink.fctrl = master.fctrl) (h0 : a.blink.rptCount ≠ 0)
    (hepoch : a.blink.epochToRmUs = master.epochToRmUs)
    (hstamp : a.blink.transmissionTimestamp = master.transmissionTimestamp + txDelay)
    (hdelay : a.delay = txDelay.toNat % 2 ^ 40) :
    l.derived a = l.derived ⟨master, 0⟩ ↔ txDelay = repeatDly a.blink ∧
      (a.blink.transmissionInterval.toNat / 2 ^ 32 + 1) * 2 ^ 16 =
        master.transmissionInterval.toNat / 2 ^ 16 := by
  have he : epochDly a.blink = epochDly master := by rw [epochDly, epochDly, hepoch]
  have harr : l.arrival a = l.clock + txDelay.setWidth 40 := by
    refine congrArg (l.clock + ·) (BitVec.eq_of_toNat_eq ?_)
    rw [hdelay, BitVec.toNat_ofNat, Nat.mod_mod, BitVec.toNat_setWidth]
  rw [derived_direct hl hw hm, derived_relayed hl hw (hf.trans hm.fctrl) h0, he, harr, hstamp,
    Prod.mk.injEq, Prod.mk.injEq, ← BitVec.toNat_inj (x := BitVec.setWidth 32 _),
    masterPeriod_toNat, period_toNat]
  constructor
  · rintro ⟨h1, -, h3⟩
    exact ⟨(Word.add_sub_sub_eq _ _ _ _).mp h1, h3⟩
  · rintro ⟨h1, h3⟩
    exact ⟨(Word.add_sub_sub_eq _ _ _ _).mpr h1,
      (Word.add_sub_sub_eq _ _ _ _).mpr (congrArg _ h1), h3⟩

/-- A relay plans within 2^35 units of its clock. -/
lemma Station.planned_bounds (s : Station) :
    s.clock.toNat ≤ s.planned ∧ s.planned < s.clock.toNat + 2 ^ 35 := by
  have hh := s.cfg.txHoldoffDly.isLt
  have hshift : s.cfg.slotId.toNat % 4 * (s.ccp.blinkFrameDuration.toNat * 2 ^ 16) ≤
      3 * (2 ^ 16 * 2 ^ 16) :=
    Nat.mul_le_mul (by omega) (Nat.mul_le_mul_right _ s.ccp.blinkFrameDuration.isLt.le)
  rw [Station.planned]
  omega

/-- One relay: exactly when it sends before its clock wraps, after its reception, and the blink
    advertises an interval. -/
lemma one_relay_iff {l : Station} (hs : s.Plain) (hl : l.Plain) (hw : l.Listens)
    (hm : FromMaster master) (h : s.hop ⟨master, 0⟩ = some a) (hd : a.delay < 2 ^ 32) :
    l.derived a = l.derived ⟨master, 0⟩ ↔ Transparent master [s] := by
  obtain ⟨x, hc⟩ := (Carried.start hm).hop hs h
  obtain ⟨txDelay, hstamp, hinterval, hdelay, htx⟩ := hop_first hs hm h
  have hr := repeatDly_toNat a.blink
  have hi : a.blink.transmissionInterval.toNat =
      (2 ^ 40 - a.delay + master.transmissionInterval.toNat) % 2 ^ 40 := by
    rw [hinterval, BitVec.toNat_sub, BitVec.toNat_setWidth, hdelay]
  have hne : master.transmissionInterval ≠ 0 ↔ master.transmissionInterval.toNat ≠ 0 := by
    rw [ne_eq, ne_eq, ← BitVec.toNat_inj]
    rfl
  have hlt := master.transmissionInterval.isLt
  have hmul := hm.interval
  have hclock := s.clock.isLt
  have hant := s.cfg.txAntennaDelay.isLt
  obtain ⟨hlo, hhi⟩ := s.planned_bounds
  have hone : Transparent master [s] ↔ master.transmissionInterval.toNat ≠ 0 ∧
      s.planned < 2 ^ 40 ∧
      s.planned / 2 ^ 9 * 2 ^ 9 + s.cfg.txAntennaDelay.toNat ≠ s.clock.toNat := by
    rw [Transparent, ← hne]
    constructor
    · rintro (h | ⟨s', h, h'⟩)
      · cases h
      · cases h
        exact h'
    · exact fun h => .inr ⟨s, rfl, h⟩
  rw [derived_first_iff hl hw hm hc.fctrl (mt hc.rptCount_eq_zero.mp (by decide)) hc.epoch hstamp
    hdelay, hone, ← BitVec.toNat_inj, hr, hi]
  generalize txDelay.toNat = d at *
  generalize s.planned = p at *
  generalize a.delay = dly at *
  generalize master.transmissionInterval.toNat = i at *
  generalize s.clock.toNat = c at *
  generalize s.cfg.txAntennaDelay.toNat = ant at *
  clear hstamp hinterval hc hr hone hne h hs hl hw hm hi
  constructor
  · rintro ⟨h1, h2⟩
    have hpos : 0 < d ∧ d ≤ 2 ^ 32 := by omega
    have hnowrap : p < 2 ^ 40 := by
      by_contra hp
      omega
    refine ⟨?_, hnowrap, ?_⟩
    · rintro rfl
      omega
    · rw [Nat.mod_eq_of_lt hnowrap] at htx
      omega
  · rintro ⟨h1, h2, h3⟩
    rw [Nat.mod_eq_of_lt h2] at htx
    have hafter : c < p / 2 ^ 9 * 2 ^ 9 + ant := by
      by_contra hb
      omega
    have hdly : d = dly := by omega
    have hi : (2 ^ 40 - dly + i) % 2 ^ 40 = i - dly := by omega
    rw [hi]
    constructor
    · omega
    · omega

/-- With two relays or more there is an excess, which up to 129 relays cannot be a multiple of the
    range of the clock. -/
lemma Carried.misled {l : Station} {k x : Nat} (hc : Carried master (k + 1) a x) (hk : 1 ≤ k)
    (hk' : k ≤ 128) (hl : l.Plain) (hw : l.Listens) (hm : FromMaster master)
    (hd : a.delay < 2 ^ 32) : l.derived a ≠ l.derived ⟨master, 0⟩ := by
  intro h
  obtain ⟨-, hx⟩ := hc.no_excess hl hw hm hd h
  have hpos := hc.excess_pos (by omega)
  have hle := hc.excess_le
  rw [Nat.add_sub_cancel] at hle
  have : k * (2 ^ 33 - 2 ^ 16) ≤ 128 * (2 ^ 33 - 2 ^ 16) := Nat.mul_le_mul_right _ hk'
  omega

/-- The epochs and the period a listener derives from a blink that has passed a chain of relays are
    those it derives from the blink of the master when the chain is transparent, and, up to 129
    relays, for no other chain. -/
theorem relayed_transparent {chain : List Station} {l : Station} (hm : FromMaster master)
    (hp : ∀ s ∈ chain, s.Plain) (hl : l.Plain) (hw : l.Listens)
    (h : relayed chain ⟨master, 0⟩ = some a) (hd : a.delay < 2 ^ 32) :
    (Transparent master chain → l.derived a = l.derived ⟨master, 0⟩) ∧
      (chain.length ≤ 129 → l.derived a = l.derived ⟨master, 0⟩ → Transparent master chain) := by
  match chain with
  | [] =>
    cases h
    exact ⟨fun _ => rfl, fun _ _ => .inl rfl⟩
  | [s] =>
    rw [relayed, List.foldlM_cons] at h
    obtain ⟨a1, h1, h2⟩ := Option.bind_eq_some_iff.mp h
    cases h2
    have hone := one_relay_iff (hp s (.head _)) hl hw hm h1 hd
    exact ⟨hone.mpr, fun _ => hone.mp⟩
  | s1 :: s2 :: rest =>
    refine ⟨fun ht => ?_, fun hlen heq => ?_⟩
    · obtain ht | ⟨s, ht, -⟩ := ht
      · cases ht
      · cases ht
    · obtain ⟨x, hc⟩ := (Carried.start hm).relayed hp h
      rw [Nat.zero_add] at hc
      have hlen' : rest.length + 1 + 1 ≤ 129 := hlen
      exact absurd heq (hc.misled (k := rest.length + 1) (by omega) (by omega) hl hw hm hd)

end

/-! ## A blink of a master, and three nodes -/

/-- Period 0x100000, 64 dwt usec from the epoch to the time stamp. -/
def exampleBlink : BlinkFrame where
  fctrl := fctrlBlinkCcp64
  seqNum := 7
  euid := 0x11
  shortAddress := 0x1111
  transmissionInterval := 0x1000000000
  transmissionTimestamp := 0x345678901200
  rptCount := 0
  rptMax := 4
  epochToRmUs := 64

/-- A node in lock with the master. -/
def exampleStation (role : Role) (slotId : BitVec 16) (clock : BitVec 40) : Station where
  cfg := .dflt role slotId
  ccp := { Instance.init (.dflt role slotId) 0x100000 with
    masterEuid := 0x11, sem := 0, valid := true, validCount := 1, masterEpoch := 0x344678901200
    idx := 1, seqNum := 6, blinkFrameDuration := 160 }
  clock := clock
  radio := ⟨0, 0, exampleBlink, false, 0, 0, 0, 0, 0, 0, false⟩

/-- The station of the example is plain. -/
lemma exampleStation_plain (role : Role) (slotId : BitVec 16) (clock : BitVec 40) :
    (exampleStation role slotId clock).Plain := ⟨fun _ => rfl, rfl⟩

/-- The station of the example listens. -/
lemma exampleStation_listens (slotId : BitVec 16) (clock : BitVec 40) :
    (exampleStation .slave slotId clock).Listens := ⟨Role.noConfusion, rfl, rfl⟩

/-- The blink of the example is from its master. -/
lemma exampleBlink_fromMaster : FromMaster exampleBlink := ⟨rfl, rfl, by decide⟩

/-- The blink after one relay. -/
def relayedOnce : OnAir :=
  ⟨{ exampleBlink with
      shortAddress := 0x2222
      transmissionInterval := 0xFFBDFBFCC
      transmissionTimestamp := 0x34567CB05234
      rptCount := 1 }, 69222452⟩

/-- One relay between the master and a node. -/
theorem relayed_transparent_once :
    relayed [exampleStation .relay 1 0x1000000000] ⟨exampleBlink, 0⟩ = some relayedOnce ∧
      (exampleStation .slave 3 0x3000000000).derived relayedOnce =
        (exampleStation .slave 3 0x3000000000).derived ⟨exampleBlink, 0⟩ := by
  have hrun : relayed [exampleStation .relay 1 0x1000000000] ⟨exampleBlink, 0⟩ =
      some relayedOnce := by decide +kernel
  refine ⟨hrun, (relayed_transparent exampleBlink_fromMaster ?_ (exampleStation_plain _ _ _)
    (exampleStation_listens _ _) hrun (by decide)).1 ?_⟩
  · intro s hs
    rw [List.mem_singleton] at hs
    subst hs
    exact exampleStation_plain _ _ _
  · exact .inr ⟨_, rfl, by decide, by decide, by decide⟩

/-- With two relays the delay of the first one, and the epoch, are taken off the local epoch twice. -/
theorem relayed_transparent_fails :
    ¬ ∀ (master : BlinkFrame) (chain : List Station) (l : Station) (a : OnAir),
      FromMaster master → chain.length ≤ master.rptMax.toNat → (∀ s ∈ chain, s.Plain) →
      l.Plain → l.Listens → relayed chain ⟨master, 0⟩ = some a → a.delay < 2 ^ 32 →
      l.derived a = l.derived ⟨master, 0⟩ := by
  intro hall
  have h := hall exampleBlink
    [exampleStation .relay 1 0x1000000000, exampleStation .relay 2 0x2000000000]
    (exampleStation .slave 3 0x3000000000)
    ⟨{ exampleBlink with
        shortAddress := 0x2222
        transmissionInterval := 0xFF39F7F98
        transmissionTimestamp := 0x345684F09268
        rptCount := 2 }, 134234164⟩
    exampleBlink_fromMaster (by decide) ?_ (exampleStation_plain _ _ _)
    (exampleStation_listens _ _) (by decide +kernel) (by decide)
  · revert h
    decide +kernel
  · intro s hs
    rw [List.mem_cons, List.mem_singleton] at hs
    cases hs with
    | inl hs => subst hs; exact exampleStation_plain _ _ _
    | inr hs => subst hs; exact exampleStation_plain _ _ _

end UwbCore.Ccp
