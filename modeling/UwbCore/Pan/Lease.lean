import UwbCore.Pan.Receive
import UwbCore.Panmaster.Lease

/-!
# Leases on both sides

A slave starts its timer with the lease granted less the time since the epoch of the clock
calibration. The seconds are made microseconds in 32 bits, the time since the epoch is a difference of
two times without the mask of 40 bits, and what it counts are units of 2^16 ticks. The master counts the
lease from the request, but sends the one in the response. `leaseAgreement_iff` says exactly when the
timer and `lease_ends` are right.
-/

namespace UwbCore.Pan
open UwbCore.Lib UwbCore.Lib.Scan

/-- The correction of the lease with CCP. -/
def sinceEpoch (rxtimestamp localEpoch : UInt64) : UInt32 :=
  ((rxtimestamp >>> 16) - (localEpoch >>> 16)).toUInt32

/-- The ticks of the device's clock in a millisecond; it runs at 128 times 499.2 MHz. -/
def ticksPerMs : Nat := 63897600

/-- The ticks from the epoch to the reception on the clock of 40 bits. -/
def elapsed (rxtimestamp localEpoch : UInt64) : Nat :=
  (rxtimestamp.toNat + 2 ^ 40 - localEpoch.toNat) % 2 ^ 40

/-- The timer runs for the lease less the time since the epoch, to within a millisecond; without a
    lease it is stopped. -/
def TimerRight (leaseTime : UInt16) (ticks : Nat) : Option UInt32 → Prop
  | none => leaseTime = 0
  | some ms => 0 < leaseTime ∧
      ms.toNat * ticksPerMs + ticks < (leaseTime.toNat * 1000 + 1) * ticksPerMs ∧
      leaseTime.toNat * 1000 * ticksPerMs < (ms.toNat + 1) * ticksPerMs + ticks

instance decidableTimerRight (leaseTime : UInt16) (ticks : Nat) :
    (timer : Option UInt32) → Decidable (TimerRight leaseTime ticks timer)
  | none => inferInstanceAs (Decidable (_ = _))
  | some _ => inferInstanceAs (Decidable (_ ∧ _ ∧ _))

/-- The units of 2^16 ticks between the two times, the later first. -/
def unitsSince (rxtimestamp localEpoch : UInt64) : Nat :=
  rxtimestamp.toNat / 2 ^ 16 - localEpoch.toNat / 2 ^ 16

/-- The clock has not turned since the epoch, the lease is not over, what is left of it fits 32 bits of
    microseconds, and the time since the epoch is so short that a unit of 2^16 ticks may be taken for a
    microsecond. -/
def TimerGuard (leaseTime : UInt16) (rxtimestamp localEpoch : UInt64) : Prop :=
  0 < leaseTime → localEpoch ≤ rxtimestamp ∧
    unitsSince rxtimestamp localEpoch ≤ leaseTime.toNat * 1000000 ∧
    leaseTime.toNat * 1000000 - unitsSince rxtimestamp localEpoch < 2 ^ 32 ∧
    rxtimestamp.toNat - localEpoch.toNat <
      ((unitsSince rxtimestamp localEpoch + 999) / 1000 + 1) * ticksPerMs

instance decidableTimerGuard (leaseTime : UInt16) (rxtimestamp localEpoch : UInt64) :
    Decidable (TimerGuard leaseTime rxtimestamp localEpoch) :=
  inferInstanceAs (Decidable (_ → _ ∧ _ ∧ _ ∧ _))

/-! ## The slave -/

section
variable {leaseTime : UInt16} {rxtimestamp localEpoch : UInt64}

/-- The milliseconds as a number. -/
lemma leaseMs_toNat (hr : rxtimestamp.toNat < 2 ^ 40) (he : localEpoch.toNat < 2 ^ 40) :
    (leaseMs leaseTime (sinceEpoch rxtimestamp localEpoch)).toNat =
      (leaseTime.toNat * 1000000 + localEpoch.toNat / 2 ^ 16 + 2 ^ 32 -
        rxtimestamp.toNat / 2 ^ 16) % 2 ^ 32 / 1000 := by
  have h16 : (16 : UInt64).toNat % 64 = 16 := rfl
  have hmillion : (1000000 : UInt32).toNat = 1000000 := rfl
  have hthousand : (1000 : UInt32).toNat = 1000 := rfl
  have hlease := leaseTime.toNat_lt
  unfold leaseMs sinceEpoch
  rw [UInt32.toNat_div, UInt32.toNat_sub, UInt32.toNat_mul, UInt64.toNat_toUInt32,
    UInt64.toNat_sub, UInt64.toNat_shiftRight, UInt64.toNat_shiftRight, h16, hmillion, hthousand,
    UInt16.toNat_toUInt32, Nat.shiftRight_eq_div_pow, Nat.shiftRight_eq_div_pow]
  omega

/-- After the clock has turned the timer is about 2^24 units late. -/
lemma timer_turned {l r e : Nat} (hl : l < 2 ^ 16) (hr : r < 2 ^ 40) (he : e < 2 ^ 40) (h : r < e) :
    ¬((l * 1000000 + e / 2 ^ 16 + 2 ^ 32 - r / 2 ^ 16) % 2 ^ 32 / 1000 * ticksPerMs +
          (r + 2 ^ 40 - e) % 2 ^ 40 < (l * 1000 + 1) * ticksPerMs ∧
      l * 1000 * ticksPerMs < ((l * 1000000 + e / 2 ^ 16 + 2 ^ 32 - r / 2 ^ 16) % 2 ^ 32 / 1000 + 1) *
          ticksPerMs + (r + 2 ^ 40 - e) % 2 ^ 40) := by
  have hd : (r + 2 ^ 40 - e) % 2 ^ 40 = r + 2 ^ 40 - e := Nat.mod_eq_of_lt (by omega)
  obtain ⟨w, hw⟩ : ∃ w, e / 2 ^ 16 = r / 2 ^ 16 + w := ⟨e / 2 ^ 16 - r / 2 ^ 16, by omega⟩
  have hlow : 2 ^ 40 < r + 2 ^ 40 - e + (w + 1) * 2 ^ 16 := by omega
  have hhigh : r + 2 ^ 40 - e < 2 ^ 40 := by omega
  have hw' : w < 2 ^ 24 := by omega
  have hleft : l * 1000000 + (r / 2 ^ 16 + w) + 2 ^ 32 - r / 2 ^ 16 = l * 1000000 + w + 2 ^ 32 := by
    omega
  rw [hd, hw, hleft, Nat.add_mod_right]
  generalize r + 2 ^ 40 - e = c at hlow hhigh ⊢
  clear hd hw hleft
  have hdiv := Nat.div_add_mod (l * 1000000 + w) (2 ^ 32)
  have hlt := Nat.mod_lt (l * 1000000 + w) (Nat.two_pow_pos 32)
  generalize (l * 1000000 + w) % 2 ^ 32 = v at hdiv hlt ⊢
  unfold ticksPerMs
  -- without an overflow it is late, with one much too early
  rcases Nat.eq_zero_or_pos ((l * 1000000 + w) / 2 ^ 32) with hq | hq
  · rw [hq] at hdiv
    omega
  · omega

/-- Before it the timer is right under the condition. -/
lemma timer_straight {l r e : Nat} (hl : l < 2 ^ 16) (hr : r < 2 ^ 40) (h : e ≤ r) :
    ((l * 1000000 + e / 2 ^ 16 + 2 ^ 32 - r / 2 ^ 16) % 2 ^ 32 / 1000 * ticksPerMs +
          (r + 2 ^ 40 - e) % 2 ^ 40 < (l * 1000 + 1) * ticksPerMs ∧
      l * 1000 * ticksPerMs < ((l * 1000000 + e / 2 ^ 16 + 2 ^ 32 - r / 2 ^ 16) % 2 ^ 32 / 1000 + 1) *
          ticksPerMs + (r + 2 ^ 40 - e) % 2 ^ 40) ↔
      r / 2 ^ 16 - e / 2 ^ 16 ≤ l * 1000000 ∧
      l * 1000000 - (r / 2 ^ 16 - e / 2 ^ 16) < 2 ^ 32 ∧
      r - e < ((r / 2 ^ 16 - e / 2 ^ 16 + 999) / 1000 + 1) * ticksPerMs := by
  obtain ⟨d, rfl⟩ : ∃ d, r = e + d := ⟨r - e, by omega⟩
  have hd : (e + d + 2 ^ 40 - e) % 2 ^ 40 = d := by omega
  have hsub : e + d - e = d := by omega
  obtain ⟨u, hu⟩ : ∃ u, (e + d) / 2 ^ 16 = e / 2 ^ 16 + u := ⟨(e + d) / 2 ^ 16 - e / 2 ^ 16, by omega⟩
  have hlow : u * 2 ^ 16 < d + 2 ^ 16 := by omega
  have hhigh : d < (u + 1) * 2 ^ 16 := by omega
  have hu' : u < 2 ^ 24 := by omega
  have hleft : (l * 1000000 + e / 2 ^ 16 + 2 ^ 32 - (e / 2 ^ 16 + u)) = l * 1000000 + 2 ^ 32 - u := by
    omega
  rw [hd, hsub, hu, Nat.add_sub_cancel_left, hleft]
  clear hu hsub hd hleft
  unfold ticksPerMs
  omega

/-- The timer that a lease is started with is right exactly under the condition. -/
lemma timerRight_iff (hpos : 0 < leaseTime) (hr : rxtimestamp.toNat < 2 ^ 40)
    (he : localEpoch.toNat < 2 ^ 40) :
    TimerRight leaseTime (elapsed rxtimestamp localEpoch)
        (some (leaseMs leaseTime (sinceEpoch rxtimestamp localEpoch))) ↔
      TimerGuard leaseTime rxtimestamp localEpoch := by
  have hlease := leaseTime.toNat_lt
  unfold TimerRight TimerGuard elapsed unitsSince
  dsimp only
  rw [leaseMs_toNat hr he, and_iff_right hpos, forall_prop_of_true hpos, UInt64.le_iff_toNat_le]
  rcases Nat.lt_or_ge rxtimestamp.toNat localEpoch.toNat with h | h
  · exact iff_of_false (timer_turned hlease hr he h) fun hg => absurd hg.1 (Nat.not_le.mpr h)
  · rw [and_iff_right h]
    exact timer_straight hlease hr h

end

/-- A response that grants a lease, taken by the node it is for, at times of 40 bits. -/
structure Granted (cfg : Config) (rx : RxInfo) (n : Instance) (leaseTime : UInt16)
    (rxtimestamp localEpoch : UInt64) : Prop where
  taken : Taken rx n
  response : ∃ uid panId slotId, action cfg rx n = .response uid panId slotId leaseTime
  correction : rx.sinceEpoch = sinceEpoch rxtimestamp localEpoch
  received : rxtimestamp.toNat < 2 ^ 40
  epoch : localEpoch.toNat < 2 ^ 40

/-- The timer after the response. -/
lemma Granted.timerRight_iff {cfg : Config} {rx : RxInfo} {n : Instance} {leaseTime : UInt16}
    {rxtimestamp localEpoch : UInt64} (h : Granted cfg rx n leaseTime rxtimestamp localEpoch) :
    TimerRight leaseTime (elapsed rxtimestamp localEpoch) (rxCompleteCb cfg rx n).node.device.lease ↔
      TimerGuard leaseTime rxtimestamp localEpoch := by
  obtain ⟨uid, panId, slotId, ha⟩ := h.response
  rw [(rxCompleteCb_taken cfg h.taken).1, ha, h.correction, Device.after]
  by_cases hpos : 0 < leaseTime
  case pos =>
    rw [if_pos hpos]
    exact Pan.timerRight_iff hpos h.received h.epoch
  case neg =>
    rw [if_neg hpos]
    refine iff_of_true ?_ fun hp => absurd hp hpos
    exact UInt16.le_antisymm (UInt16.not_lt.mp hpos) UInt16.zero_le

open Panmaster in
/-- The timer of a slave that is granted a lease, and the end of the lease that the master keeps for a
    request, are right exactly under their conditions. -/
theorem leaseAgreement_iff {σ : Type} {cfg : Config} {rx : RxInfo} {n : Instance} {leaseTime : UInt16}
    {rxtimestamp localEpoch : UInt64} (h : Granted cfg rx n leaseTime rxtimestamp localEpoch)
    {pan : Syscfg} {request : PanRequest} (hN : pan.maxnumNodes ≤ 2 ^ 8)
    (hdefault : pan.defaultLeaseTime < 2 ^ 16) (hlease : request.leaseTime < 2 ^ 16)
    (busy : Bool) (tv : Timeval) (utc : Int) (euid : Nat) (buf : ResponseBuf) (s : State σ) :
    (TimerRight leaseTime (elapsed rxtimestamp localEpoch)
        (rxCompleteCb cfg rx n).node.device.lease ↔ TimerGuard leaseTime rxtimestamp localEpoch) ∧
      (LeaseKept pan busy tv utc euid request buf s ↔
        (Answers pan busy euid s → LeaseGuard pan tv request buf)) :=
  ⟨h.timerRight_iff, leaseKept_iff hN hdefault hlease⟩

/-- A slave that waits for the response to its request. -/
def waitingSlave : Instance := { afterReset with frames := fun _ _ => 0 }

/-- The response with a lease, received at a time after an epoch. -/
def grantRx (leaseTime : UInt16) (rxtimestamp localEpoch : UInt64) : RxInfo where
  fctrl0 := blinkTag
  frameLen := 25
  rxbuf := fun i => ([blinkTag, 1, 0x55, 0, 0, 0, 0, 0, 0, 0, 0x40, 2, 0, 0, 0] ++ le16 leaseTime ++
    [0xCA, 0xDE, 0x34, 0x12, 1, 0, 0, 0]).getD i 0
  sinceEpoch := sinceEpoch rxtimestamp localEpoch
  startTxError := false

/-- The slave takes the lease. -/
lemma granted_grantRx (leaseTime : UInt16) (rxtimestamp localEpoch : UInt64)
    (hr : rxtimestamp.toNat < 2 ^ 40) (he : localEpoch.toNat < 2 ^ 40) :
    Granted ⟨2, none⟩ (grantRx leaseTime rxtimestamp localEpoch) waitingSlave leaseTime rxtimestamp
      localEpoch where
  taken := ⟨rfl, by decide, show 25 ≤ frameSize from le_rfl⟩
  response := by
    refine ⟨read16 (grantRx leaseTime rxtimestamp localEpoch).rxbuf 19,
      read16 (grantRx leaseTime rxtimestamp localEpoch).rxbuf 17,
      read16 (grantRx leaseTime rxtimestamp localEpoch).rxbuf 21, ?_⟩
    have hmem : ∀ i < 25, relayed ⟨2, none⟩ (grantRx leaseTime rxtimestamp localEpoch) waitingSlave i =
        (grantRx leaseTime rxtimestamp localEpoch).rxbuf i := fun i hi => if_pos hi
    have hread {i : Nat} (hi : i + 1 < 25) : read16 (relayed ⟨2, none⟩
        (grantRx leaseTime rxtimestamp localEpoch) waitingSlave) i =
        read16 (grantRx leaseTime rxtimestamp localEpoch).rxbuf i := by
      rw [read16, hmem i (by omega), hmem (i + 1) hi, read16]
    have haddr : ofLe64 (readBytes (relayed ⟨2, none⟩
        (grantRx leaseTime rxtimestamp localEpoch) waitingSlave) 2 8) = 0x55 := by
      have hbytes : readBytes (relayed ⟨2, none⟩
          (grantRx leaseTime rxtimestamp localEpoch) waitingSlave) 2 8 = [0x55, 0, 0, 0, 0, 0, 0, 0] :=
        List.map_congr_left fun i hi => hmem (2 + i) (by have := List.mem_range.mp hi; omega)
      rw [hbytes]
      decide
    have hcode : read16 (grantRx leaseTime rxtimestamp localEpoch).rxbuf 11 = panResp := by
      show ofLe16 2 0 = panResp
      decide
    have hlease : read16 (grantRx leaseTime rxtimestamp localEpoch).rxbuf 15 = leaseTime :=
      ofLe16_le16 leaseTime
    unfold action dispatchScan
    rw [run_bind, run_u16, hread (by decide), hcode, switchScan, if_neg (by decide), if_pos rfl]
    unfold responseScan
    rw [run_bind, run_u64, haddr, if_pos (by decide)]
    simp only [run_bind, run_u16, run_pure]
    rw [hread (by decide), hread (by decide), hread (by decide), hread (by decide), hlease]
  correction := rfl
  received := hr
  epoch := he

open Panmaster in
/-- A lease of 30 s, received ten units after the epoch, and the default lease for a first request. -/
theorem leaseAgreement_default :
    TimerRight 30 (elapsed 0x8000000000 0x7FFFF60000)
        (rxCompleteCb ⟨2, none⟩ (grantRx 30 0x8000000000 0x7FFFF60000) waitingSlave).node.device.lease ∧
      LeaseKept .dflt false (.ofUsecs 1000000) 0 0x29A ⟨1, 0, .zero⟩ .same (State.init () 0xDECA) := by
  have h := leaseAgreement_iff
    (granted_grantRx 30 0x8000000000 0x7FFFF60000 (by decide) (by decide))
    (show Syscfg.dflt.maxnumNodes ≤ 2 ^ 8 by decide) (by decide)
    (show (PanRequest.mk 1 0 .zero).leaseTime < 2 ^ 16 by decide) false
    (.ofUsecs 1000000) 0 0x29A .same (State.init () 0xDECA)
  exact ⟨h.1.mpr (by decide), h.2.mpr fun _ => by decide⟩

open Panmaster in
/-- A lease of 4295 s is received at the epoch, and a lease of 1 s is asked for while the buffer of the
    response is another one. -/
theorem leaseAgreement_fails :
    (¬ ∀ (cfg : Config) (rx : RxInfo) (n : Instance) (leaseTime : UInt16)
        (rxtimestamp localEpoch : UInt64), Granted cfg rx n leaseTime rxtimestamp localEpoch →
        elapsed rxtimestamp localEpoch < 2 ^ 36 →
        TimerRight leaseTime (elapsed rxtimestamp localEpoch)
          (rxCompleteCb cfg rx n).node.device.lease) ∧
      ¬ ∀ (pan : Syscfg) (tv : Timeval) (euid : Nat) (request : PanRequest) (buf : ResponseBuf)
        (s : State Unit), LeaseKept pan false tv 0 euid request buf s := by
  constructor
  · intro h
    have hg := granted_grantRx 4295 0x8000000000 0x8000000000 (by decide) (by decide)
    exact absurd (hg.timerRight_iff.mp (h _ _ _ _ _ _ hg (by decide))) (by decide)
  · intro h
    have hkept := h .dflt (.ofUsecs 1000000) 0x29A ⟨1, 1, .zero⟩ (.other 0) (State.init () 0xDECA)
    exact absurd ((leaseKept_iff (by decide) (by decide) (by decide)).mp hkept (by decide)) (by decide)

end UwbCore.Pan
