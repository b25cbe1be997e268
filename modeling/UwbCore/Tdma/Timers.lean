import UwbCore.Tdma.Basic

/-!
# When the timers of a superframe fire

The latency of the operating system is taken off the offset of a slot in 32-bit microseconds, before
the offset becomes ticks. An offset that is less than the latency turns into one near 2^32
microseconds, and its ticks are those of the difference only if a microsecond is a whole number of
ticks (`near_usecsToTicks_iff`). So the timers are where the slots are, and in their order, exactly if
this is so or every assigned slot begins at least the latency after the epoch (`timely_iff`).
-/

namespace UwbCore.Tdma
open UwbCore.Lib

/-- Two times that are at most one tick apart. -/
def Near (x y : BitVec 32) : Prop := x = y ∨ x = y + 1 ∨ x + 1 = y

instance decidableNear (x y : BitVec 32) : Decidable (Near x y) :=
  inferInstanceAs (Decidable (_ ∨ _ ∨ _))

/-- The timer of every assigned slot is set to the epoch, and the offset of the slot less the latency,
    each in ticks; and no slot starts before an earlier one, where the offset of the later one takes
    less than half a turn of the timer. -/
structure Timely (cfg : Cfg) (period : BitVec 32) (tdma : Instance) : Prop where
  start : ∀ i s, i < tdma.nslots.toNat → (tdmaSuperframeSlotCb cfg period tdma).slot i = some s →
    s.timer = some s.cputimeSlotStart ∧ Near s.cputimeSlotStart (tdma.osEpoch +
      usecsToTicks cfg.rate (BitVec.ofNat 32 i * slotPeriodUs cfg period tdma) -
        usecsToTicks cfg.rate cfg.osLatency)
  order : ∀ i j s s', i < j → j < tdma.nslots.toNat →
    (tdmaSuperframeSlotCb cfg period tdma).slot i = some s →
    (tdmaSuperframeSlotCb cfg period tdma).slot j = some s' →
    j * (slotPeriodUs cfg period tdma).toNat < 2 ^ 32 →
    j * (slotPeriodUs cfg period tdma).toNat * cfg.rate / 1000000 < 2 ^ 31 →
    (s'.cputimeSlotStart - s.cputimeSlotStart).toNat < 2 ^ 31

/-! ## Ticks of a difference -/

/-- The same is added to both. -/
lemma Near.add_left {x y z : BitVec 32} (e : BitVec 32) :
    Near (e + x) (e + y - z) ↔ Near x (y - z) := by
  have hassoc : e + y - z = e + (y - z) := by grind
  simp only [hassoc, Near, BitVec.add_assoc, BitVec.add_right_inj]

/-- The quotient of a sum. -/
lemma div_add_of_eq {x y z : Nat} (h : x + y = z) :
    z / 1000000 = x / 1000000 + y / 1000000 ∨ z / 1000000 = x / 1000000 + y / 1000000 + 1 := by
  omega

/-- A turn of the microseconds that is no whole number of turns of the ticks moves the quotient by more
    than one. -/
lemma div_add_ne {x y z q p : Nat} (h0 : 0 < p) (hp : p < 1000000)
    (h : x + y = z + 1000000 * (2 ^ 32 * q) + 2 ^ 32 * p) :
    (x / 1000000 + y / 1000000) % 2 ^ 32 ≠ z / 1000000 % 2 ^ 32 ∧
      (x / 1000000 + y / 1000000) % 2 ^ 32 ≠ (z / 1000000 + 1) % 2 ^ 32 ∧
      (x / 1000000 + y / 1000000 + 1) % 2 ^ 32 ≠ z / 1000000 % 2 ^ 32 := by
  omega

/-- At a whole number of ticks in a microsecond the conversion is a multiplication. -/
lemma usecsToTicks_whole {rate q : Nat} (h : rate = 1000000 * q) (x : BitVec 32) :
    usecsToTicks rate x = x * BitVec.ofNat 32 q := by
  apply BitVec.eq_of_toNat_eq
  rw [usecsToTicks, BitVec.toNat_ofNat, BitVec.toNat_mul, BitVec.toNat_ofNat, h,
    Nat.mul_left_comm, Nat.mul_div_cancel_left _ (by decide), Nat.mul_mod_mod]

/-- Two numbers of ticks are near. -/
lemma near_sub_iff {a b c : Nat} :
    Near (BitVec.ofNat 32 a) (BitVec.ofNat 32 b - BitVec.ofNat 32 c) ↔
      (a + c) % 2 ^ 32 = b % 2 ^ 32 ∨ (a + c) % 2 ^ 32 = (b + 1) % 2 ^ 32 ∨
        (a + c + 1) % 2 ^ 32 = b % 2 ^ 32 := by
  have h1 : BitVec.toNat (1 : BitVec 32) = 1 := rfl
  simp only [Near, ← BitVec.toNat_inj, BitVec.toNat_add, BitVec.toNat_sub, BitVec.toNat_ofNat, h1]
  omega

/-- The ticks of a difference are within one of the difference of the ticks exactly if the difference
    does not wrap or a microsecond is a whole number of ticks. -/
theorem near_usecsToTicks_iff (rate : Nat) (x y : BitVec 32) :
    Near (usecsToTicks rate (x - y)) (usecsToTicks rate x - usecsToTicks rate y) ↔
      y ≤ x ∨ 1000000 ∣ rate := by
  have hy := y.isLt
  by_cases hle : y ≤ x
  case pos =>
    have hsub : (x - y).toNat + y.toNat = x.toNat := by
      rw [BitVec.toNat_sub_of_le hle, Nat.sub_add_cancel hle]
    have hsum : (x - y).toNat * rate + y.toNat * rate = x.toNat * rate := by
      rw [← Nat.add_mul, hsub]
    refine iff_of_true (near_sub_iff.mpr ?_) (.inl hle)
    cases div_add_of_eq hsum with
    | inl h => exact .inl (by rw [h])
    | inr h => exact .inr (.inr (by rw [h]))
  case neg =>
    rw [or_iff_right hle]
    constructor
    · intro h
      by_contra hdvd
      have hsub : (x - y).toNat + y.toNat = x.toNat + 2 ^ 32 := by
        have hlt : x.toNat < y.toNat := BitVec.not_le.mp hle
        rw [BitVec.toNat_sub]
        omega
      have hsum : (x - y).toNat * rate + y.toNat * rate = x.toNat * rate +
          1000000 * (2 ^ 32 * (rate / 1000000)) + 2 ^ 32 * (rate % 1000000) := by
        have hrate := Nat.div_add_mod rate 1000000
        rw [← Nat.add_mul, hsub, Nat.add_mul]
        omega
      have hne := div_add_ne (Nat.pos_of_ne_zero fun e => hdvd (Nat.dvd_of_mod_eq_zero e))
        (Nat.mod_lt _ (by decide)) hsum
      rcases near_sub_iff.mp h with h | h | h
      · exact hne.1 h
      · exact hne.2.1 h
      · exact hne.2.2 h
    · rintro ⟨q, hq⟩
      refine .inl ?_
      rw [usecsToTicks_whole hq, usecsToTicks_whole hq, usecsToTicks_whole hq]
      grind

/-! ## The slots -/

variable {cfg : Cfg} {period : BitVec 32} {tdma : Instance}

/-- The callback sets an assigned slot to its start. -/
lemma programmed {i : Nat} {s : Slot} (hi : i < tdma.nslots.toNat)
    (h : (tdmaSuperframeSlotCb cfg period tdma).slot i = some s) :
    (tdma.slot i).isSome ∧ s = ⟨slotStart cfg period tdma i, some (slotStart cfg period tdma i)⟩ := by
  rw [superframe_slot, if_pos hi] at h
  obtain ⟨old, hold, hs⟩ := Option.map_eq_some_iff.mp h
  exact ⟨by rw [hold]; rfl, hs.symm⟩

/-- The timer of a slot is near its time. -/
lemma near_slotStart_iff (i : Nat) : Near (slotStart cfg period tdma i) (tdma.osEpoch +
    usecsToTicks cfg.rate (BitVec.ofNat 32 i * slotPeriodUs cfg period tdma) -
      usecsToTicks cfg.rate cfg.osLatency) ↔
    cfg.osLatency ≤ BitVec.ofNat 32 i * slotPeriodUs cfg period tdma ∨ 1000000 ∣ cfg.rate := by
  rw [slotStart, Near.add_left, near_usecsToTicks_iff]

/-- A time of ticks after a base, and one that is less than half a turn later. -/
lemma toNat_sub_lt {e : BitVec 32} {x y : Nat} (hle : x ≤ y) (hy : y < 2 ^ 31) :
    (e + BitVec.ofNat 32 y - (e + BitVec.ofNat 32 x)).toNat < 2 ^ 31 := by
  have hsub : e + BitVec.ofNat 32 y - (e + BitVec.ofNat 32 x) =
      BitVec.ofNat 32 y - BitVec.ofNat 32 x := by grind
  rw [hsub, BitVec.toNat_sub, BitVec.toNat_ofNat, BitVec.toNat_ofNat]
  omega

/-- An offset of a slot within a turn of the microseconds. -/
lemma offset_toNat {i : Nat} {p : BitVec 32} (h : i * p.toNat < 2 ^ 32) :
    (BitVec.ofNat 32 i * p).toNat = i * p.toNat := by
  rw [BitVec.toNat_mul, BitVec.toNat_ofNat, Nat.mod_mul_mod, Nat.mod_eq_of_lt h]

/-- A later slot starts less than half a turn after an earlier one, if the ticks of both are those of
    their distance from the epoch. -/
lemma slotStart_order {i j : Nat} (hij : i < j)
    (hturn : j * (slotPeriodUs cfg period tdma).toNat < 2 ^ 32)
    (hhalf : j * (slotPeriodUs cfg period tdma).toNat * cfg.rate / 1000000 < 2 ^ 31)
    (h : 1000000 ∣ cfg.rate ∨
      cfg.osLatency ≤ BitVec.ofNat 32 i * slotPeriodUs cfg period tdma ∧
        cfg.osLatency ≤ BitVec.ofNat 32 j * slotPeriodUs cfg period tdma) :
    (slotStart cfg period tdma j - slotStart cfg period tdma i).toNat < 2 ^ 31 := by
  rw [slotStart, slotStart]
  generalize slotPeriodUs cfg period tdma = p at *
  have hmul : i * p.toNat ≤ j * p.toNat := Nat.mul_le_mul_right _ hij.le
  have hi := offset_toNat (hmul.trans_lt hturn)
  have hj := offset_toNat hturn
  cases h with
  | inl hdvd =>
    obtain ⟨q, hq⟩ := hdvd
    have hticks : ∀ k, usecsToTicks cfg.rate (BitVec.ofNat 32 k * p - cfg.osLatency) =
        BitVec.ofNat 32 (k * p.toNat * q) - cfg.osLatency * BitVec.ofNat 32 q := by
      intro k
      rw [usecsToTicks_whole hq, BitVec.ofNat_mul, BitVec.ofNat_mul, BitVec.ofNat_toNat,
        BitVec.setWidth_eq]
      grind
    have hhalf' : j * p.toNat * q < 2 ^ 31 := by
      rwa [hq, Nat.mul_left_comm, Nat.mul_div_cancel_left _ (by decide)] at hhalf
    have hlt := @toNat_sub_lt (tdma.osEpoch - cfg.osLatency * BitVec.ofNat 32 q) _ _
      (Nat.mul_le_mul_right q hmul) hhalf'
    rw [hticks, hticks]
    convert hlt using 2
    grind
  | inr hlat =>
    obtain ⟨hlati, hlatj⟩ := hlat
    rw [usecsToTicks, usecsToTicks, BitVec.toNat_sub_of_le hlati, BitVec.toNat_sub_of_le hlatj, hi, hj]
    have hdiv : ∀ {a b : Nat}, a ≤ b → a * cfg.rate / 1000000 ≤ b * cfg.rate / 1000000 := by
      intro a b hab
      exact Nat.div_le_div_right (Nat.mul_le_mul_right _ hab)
    exact toNat_sub_lt (hdiv (Nat.sub_le_sub_right hmul _))
      ((hdiv (Nat.sub_le _ _)).trans_lt hhalf)

/-- The timers are on time and in order exactly if a microsecond is a whole number of ticks or no
    assigned slot begins less than the latency after the epoch. -/
theorem timely_iff (cfg : Cfg) (period : BitVec 32) (tdma : Instance) : Timely cfg period tdma ↔
    1000000 ∣ cfg.rate ∨ ∀ i < tdma.nslots.toNat, (tdma.slot i).isSome →
      cfg.osLatency ≤ BitVec.ofNat 32 i * slotPeriodUs cfg period tdma := by
  constructor
  · intro h
    by_contra hno
    obtain ⟨hdvd, hlat⟩ := not_or.mp hno
    push Not at hlat
    obtain ⟨i, hi, hassigned, hlt⟩ := hlat
    obtain ⟨old, hold⟩ := Option.isSome_iff_exists.mp hassigned
    have hslot : (tdmaSuperframeSlotCb cfg period tdma).slot i =
        some ⟨slotStart cfg period tdma i, some (slotStart cfg period tdma i)⟩ := by
      rw [superframe_slot, if_pos hi, hold]
      rfl
    cases (near_slotStart_iff i).mp (h.start i _ hi hslot).2 with
    | inl hle => exact hlt hle
    | inr hd => exact hdvd hd
  · intro h
    refine ⟨fun i s hi hs => ?_, fun i j s s' hij hj hs hs' hturn hhalf => ?_⟩
    · obtain ⟨hassigned, rfl⟩ := programmed hi hs
      refine ⟨rfl, (near_slotStart_iff i).mpr ?_⟩
      exact h.symm.imp_left fun hlat => hlat i hi hassigned
    · obtain ⟨hi', rfl⟩ := programmed (hij.trans hj) hs
      obtain ⟨hj', rfl⟩ := programmed hj hs'
      apply slotStart_order hij hturn hhalf
      exact h.imp_right fun hlat => ⟨hlat i (hij.trans hj) hi', hlat j hj hj'⟩

/-- A timer of 32768 ticks in a second and a latency of 800 microseconds. -/
def slowTimer : Cfg := ⟨800, fun t => t, 32768⟩

/-- Slot 0 is assigned. -/
def firstSlot : Instance := ⟨16, 0, ⟨0, none⟩, fun i => if i = 0 then some ⟨0, none⟩ else none⟩

/-- Slot 0 is set to about 140 million ticks after the epoch, not to 26 before it. -/
theorem timely_fails :
    ¬∀ (cfg : Cfg) (period : BitVec 32) (tdma : Instance), Timely cfg period tdma := by
  intro h
  have hnear := ((h slowTimer 0x100000 firstSlot).start 0 _ (by decide) rfl).2
  exact absurd hnear (by decide +kernel)

end UwbCore.Tdma
