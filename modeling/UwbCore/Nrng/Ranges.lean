import UwbCore.Lib.Word
import UwbCore.Nrng.Basic
import UwbCore.Rng.Tof

/-!
# Ranges of a multi-responder request

The arithmetic of `nrng_twr_to_tof_frames` beside that of `rng_math.c`, and the two functions that
collect the answers of a request from the ring: `nrng_get_ranges` and `nrng_get_uids`. Floating point
values are rational numbers, infinities and the not-a-number value.
-/

namespace UwbCore.Nrng
open UwbCore.Lib

/-- A floating point value in exact arithmetic. -/
inductive FloatVal where
  | nan
  | inf (negative : Bool)
  | num (q : ℚ)
  deriving DecidableEq

/-- A quotient of two integers. -/
def FloatVal.div (a b : Int) : FloatVal :=
  if b ≠ 0 then .num (a / b) else if a = 0 then .nan else .inf (a < 0)

/-- A number, or `DPL_FLOAT64_NAN()`. -/
def FloatVal.ofOption : Option ℚ → FloatVal
  | none => .nan
  | some q => .num q

/-- `UWB_DATA_CODE_DS_TWR_NRNG ... UWB_DATA_CODE_DS_TWR_NRNG_EXT_END` -/
def isDoubleSided (code : UInt16) : Bool :=
  (codeDsTwrNrng ≤ code && code ≤ codeDsTwrNrngEnd) ||
    (codeDsTwrNrngExt ≤ code && code ≤ codeDsTwrNrngExtEnd)

/-- `UWB_DATA_CODE_SS_TWR_NRNG ... UWB_DATA_CODE_SS_TWR_NRNG_EXT_END` -/
def isSingleSided (code : UInt16) : Bool :=
  codeSsTwrNrng ≤ code && code ≤ codeSsTwrNrngExtEnd

/-- The case `UWB_DATA_CODE_SS_TWR_NRNG ... UWB_DATA_CODE_SS_TWR_NRNG_FINAL` -/
def isSsFinal (code : UInt16) : Bool :=
  codeSsTwrNrng ≤ code && code ≤ codeSsTwrNrngFinal

namespace Frame
variable (f : Frame)

def roundTrip : BitVec 32 := f.response - f.request
def replyTime : BitVec 32 := f.transmission - f.reception

end Frame

/-- `nrng_twr_to_tof_frames`, with the clock offset ratio of a carrier integrator value. -/
def nrngTwrToTofFrames (cfg : Cfg) (skew : BitVec 32 → ℚ) (firstFrame finalFrame : Frame) : FloatVal :=
  if isDoubleSided finalFrame.code then
    let t1R : BitVec 64 := firstFrame.roundTrip.setWidth 64
    let t1r : BitVec 64 := firstFrame.replyTime.setWidth 64
    let t2R : BitVec 64 := finalFrame.roundTrip.setWidth 64
    let t2r : BitVec 64 := finalFrame.replyTime.setWidth 64
    let nom := t1R * t2R - t1r * t2r
    let denom := t1R + t2R + t1r + t2r
    .div nom.toInt denom.toInt
  else if isSsFinal finalFrame.code then
    match cfg.wcs with
    | some _ => .num ((firstFrame.roundTrip - firstFrame.replyTime).toNat / 2)
    | none =>
      let skew := skew firstFrame.carrierIntegrator
      .num ((firstFrame.roundTrip.toNat - firstFrame.replyTime.toNat * (1 - skew)) / 2)
  else .num 0

/-- The ratio that `calc_tof_ss` is to be given for a frame: with the clocks of the network in step
    there is no offset left. -/
def skewOf (cfg : Cfg) (skew : BitVec 32 → ℚ) (f : Frame) : ℚ :=
  if cfg.wcs.isSome then 0 else skew f.carrierIntegrator

/-- `calc_tof_ss` on the time stamps of a frame. -/
def tofSs (f : Frame) (skew : ℚ) : ℚ :=
  Rng.calcTofSs f.response f.request (f.transmission.setWidth 64) (f.reception.setWidth 64) skew

/-- `calc_tof_ds` on the time stamps of two frames. -/
def tofDs (f g : Frame) : Option ℚ :=
  Rng.calcTofDs f.response f.request (f.transmission.setWidth 64) (f.reception.setWidth 64)
    g.response g.request (g.transmission.setWidth 64) (g.reception.setWidth 64)

/-- On the codes of each kind the value is that of `rng_math.c`. -/
def TofAgrees (cfg : Cfg) (skew : BitVec 32 → ℚ) (firstFrame finalFrame : Frame) : Prop :=
  (isDoubleSided finalFrame.code = true →
    nrngTwrToTofFrames cfg skew firstFrame finalFrame = .ofOption (tofDs firstFrame finalFrame)) ∧
  (isSingleSided finalFrame.code = true →
    nrngTwrToTofFrames cfg skew firstFrame finalFrame =
      .num (tofSs firstFrame (skewOf cfg skew firstFrame)))

/-- The time of flight from the two durations. -/
lemma tofSs_eq (f : Frame) (skew : ℚ) :
    tofSs f skew = (f.roundTrip.toNat - f.replyTime.toNat * (1 - skew)) / 2 := by
  simp only [tofSs, Rng.calcTofSs, Rng.mask32_sub, Frame.roundTrip, Frame.replyTime,
    Word.toNat_widen _ (show 32 ≤ 64 by decide)]

/-- A sum of four 32-bit intervals is no number below zero, and is zero when all of them are. -/
lemma sum_eq_zero {a b c d : BitVec 32}
    (h : a.setWidth 64 + b.setWidth 64 + c.setWidth 64 + d.setWidth 64 = (0 : BitVec 64)) :
    a = 0 ∧ b = 0 ∧ c = 0 ∧ d = 0 := by
  have hs := congrArg BitVec.toNat h
  simp only [BitVec.toNat_add, BitVec.toNat_setWidth] at hs
  have h0 : ∀ x : BitVec 32, x.toNat = 0 → x = 0 := fun x hx => BitVec.eq_of_toNat_eq hx
  have ha := a.isLt
  have hb := b.isLt
  have hc := c.isLt
  have hd := d.isLt
  have hz : (0 : BitVec 64).toNat = 0 := rfl
  rw [hz] at hs
  refine ⟨h0 a ?_, h0 b ?_, h0 c ?_, h0 d ?_⟩ <;> omega

/-- With double-sided codes the two functions agree, the division by zero included. -/
lemma tof_doubleSided (cfg : Cfg) (skew : BitVec 32 → ℚ) (f g : Frame)
    (h : isDoubleSided g.code = true) :
    nrngTwrToTofFrames cfg skew f g = .ofOption (tofDs f g) := by
  simp only [nrngTwrToTofFrames, h, if_true, tofDs, Rng.calcTofDs, Rng.mask32_sub]
  change FloatVal.div (_ * _ - _ * _ : BitVec 64).toInt (_ + _ + _ + _ : BitVec 64).toInt =
    FloatVal.ofOption (if f.roundTrip.setWidth 64 + g.roundTrip.setWidth 64 +
      f.replyTime.setWidth 64 + g.replyTime.setWidth 64 = 0 then none else some _)
  have hz : (0 : BitVec 64).toInt = 0 := by decide
  split
  case isTrue h0 =>
    obtain ⟨h1, h2, h3, h4⟩ := sum_eq_zero h0
    rw [h1, h2, h3, h4]
    decide
  case isFalse h0 =>
    have hd := fun h' => h0 (BitVec.toInt_inj.mp (Eq.trans h' hz.symm))
    rw [FloatVal.div, if_pos hd]
    rfl

/-- A wrapped difference is the difference when it does not wrap. -/
lemma toNat_sub_eq_iff (x y : BitVec 32) : ((x - y).toNat : ℚ) = x.toNat - y.toNat ↔ y ≤ x := by
  have hx := x.isLt
  have hy := y.isLt
  rw [BitVec.le_def, BitVec.toNat_sub, eq_sub_iff_add_eq]
  norm_cast
  omega

/-- With single-sided codes the synchronised build agrees where the reply is not longer than the round
    trip, and the other build always. The codes past `UWB_DATA_CODE_SS_TWR_NRNG_FINAL` have no
    case, and agree by chance only: where the range is zero. -/
theorem tofAgrees_iff (cfg : Cfg) (skew : BitVec 32 → ℚ) (f g : Frame) :
    TofAgrees cfg skew f g ↔
      (isSingleSided g.code = true →
        if isSsFinal g.code then cfg.wcs = none ∨ f.replyTime ≤ f.roundTrip
        else (f.roundTrip.toNat : ℚ) = f.replyTime.toNat * (1 - skewOf cfg skew f)) := by
  rw [TofAgrees]
  refine Iff.trans (and_iff_right (tof_doubleSided cfg skew f g)) (forall_congr' fun hs => ?_)
  have hd : isDoubleSided g.code = false := by
    simp only [isSingleSided, isDoubleSided, codeSsTwrNrng, codeSsTwrNrngExtEnd, codeDsTwrNrng,
      codeDsTwrNrngEnd, codeDsTwrNrngExt, codeDsTwrNrngExtEnd, Bool.and_eq_true,
      decide_eq_true_eq, UInt16.le_iff_toNat_le] at hs ⊢
    simp only [Bool.or_eq_false_iff, Bool.and_eq_false_iff, decide_eq_false_iff_not, not_le,
      UInt16.reduceToNat] at hs ⊢
    omega
  simp only [nrngTwrToTofFrames, hd, Bool.false_eq_true, if_false]
  split
  case isTrue =>
    cases hw : cfg.wcs with
    | none => simp [tofSs_eq, skewOf, hw]
    | some localToMaster =>
      have hr : (((f.roundTrip - f.replyTime).toNat : ℚ) / 2 =
          (f.roundTrip.toNat - f.replyTime.toNat * (1 - 0)) / 2) ↔
          f.replyTime ≤ f.roundTrip := by
        rw [← toNat_sub_eq_iff, sub_zero, mul_one, div_left_inj' (by norm_num)]
      simpa [tofSs_eq, skewOf, hw] using hr
  case isFalse =>
    rw [FloatVal.num.injEq, tofSs_eq, eq_comm, div_eq_zero_iff, or_iff_left (by norm_num), sub_eq_zero]

/-- With the clocks in step, a reply that is one tick longer than the round trip is taken for half the
    range of the counter. -/
theorem tofAgrees_fails :
    ¬ ∀ (cfg : Cfg) (skew : BitVec 32 → ℚ) (f g : Frame), TofAgrees cfg skew f g := by
  intro h
  obtain ⟨-, hs⟩ := h (.dflt .cell (some id)) (fun _ => 0)
    { Frame.init with transmission := 1 } { Frame.init with code := codeSsTwrNrngFinal }
  have hq := hs (by decide)
  rw [tofSs_eq, nrngTwrToTofFrames, if_neg (by decide), if_pos (by decide)] at hq
  simp only [Cfg.dflt, Frame.roundTrip, Frame.replyTime, Frame.init, skewOf, FloatVal.num.injEq]
    at hq
  norm_num at hq
  exact absurd hq (by decide)

/-- `uwb_rng_tof_to_meters` -/
def uwbRngTofToMeters : FloatVal → FloatVal
  | .num q => .num (q * ((299792458 / 1.000293) * (1 / 499.2e6 / 128)))
  | v => v

namespace Node
variable (cfg : Cfg) (skew : BitVec 32 → ℚ) (n : Node) (nranges : Nat) (base : UInt16)

/-- The frame of slot `i`, for a request that starts at `base`. -/
def slotFrame (i : Nat) : Frame :=
  n.frames ((base.toNat + bitIndex n.slotMask.toNat (2 ^ i) .position) % cfg.nframes)

/-- The slots that responded with a valid frame: the first loop of `nrng_get_ranges` and of
    `nrng_get_uids`. -/
def validMask : Nat :=
  (List.range nranges).foldl (fun mask i =>
    if n.slotMask.toNat &&& 2 ^ i ≠ 0 then
      let frame := n.slotFrame cfg base i
      if frame.code = codeSsTwrNrngFinal ∧ frame.seqNum = n.seqNum then mask ||| 2 ^ i else mask
    else mask) 0

/-- A slot counts when it was asked for and its frame is final and of this request. -/
lemma testBit_validMask (i : Nat) : (n.validMask cfg nranges base).testBit i =
    (decide (i < nranges) && n.slotMask.toNat.testBit i &&
      decide ((n.slotFrame cfg base i).code = codeSsTwrNrngFinal ∧
        (n.slotFrame cfg base i).seqNum = n.seqNum)) := by
  induction nranges with
  | zero => simp [validMask]
  | succ k ih =>
    rw [validMask, List.range_succ, List.foldl_append, ← validMask, List.foldl_cons,
      List.foldl_nil]
    simp only [Bits.and_two_pow_ne_zero]
    have hk : decide (i < k + 1) = (decide (i < k) || decide (i = k)) := by
      rw [← Bool.decide_or, decide_eq_decide]
      omega
    rw [hk]
    split_ifs with hb hv
    · rw [Nat.testBit_or, ih, Nat.testBit_two_pow]
      by_cases e : i = k
      case pos => simp [e, hb, hv]
      case neg => simp [e, Ne.symm e]
    · rw [ih]
      by_cases e : i = k
      case pos => simp [e, hv]
      case neg => simp [e]
    · rw [ih]
      by_cases e : i = k
      case pos => simp [e, hb]
      case neg => simp [e]

/-- The frames the second loop goes through. -/
def validFrames : List Frame :=
  ((List.range nranges).filter fun i => n.validMask cfg nranges base &&& 2 ^ i ≠ 0).map
    (n.slotFrame cfg base)

/-- The range of a frame. -/
def range (frame : Frame) : FloatVal :=
  uwbRngTofToMeters (nrngTwrToTofFrames cfg skew frame frame)

/-- `nrng_get_ranges`; `none` when `1UL << i` is shifted by more than its width. -/
def getRanges : Option (Nat × List FloatVal) :=
  if cfg.ulBits < nranges then none
  else some (n.validMask cfg nranges base, (n.validFrames cfg nranges base).map (range cfg skew))

/-- The conversion of a floating point value to `uint16_t`: its whole part, where that fits. -/
def toU16 : FloatVal → Option UInt16
  | .num q => if -1 < q ∧ q < 2 ^ 16 then some (.ofNat ⌊q⌋.toNat) else none
  | _ => none

/-- `nrng_get_uids`; `none` also when a conversion is not defined. -/
def getUids : Option (Nat × List UInt16) :=
  if cfg.ulBits < nranges then none
  else ((n.validFrames cfg nranges base).mapM fun frame => toU16 (range cfg skew frame)).map
    (Prod.mk (n.validMask cfg nranges base))

/-- Both report the same slots, and the addresses are those of the frames of the ranges. -/
def UidsAgree : Prop :=
  ∃ mask ranges uids, n.getRanges cfg skew nranges base = some (mask, ranges) ∧
    n.getUids cfg skew nranges base = some (mask, uids) ∧
    ∀ j : Nat, uids[j]? = (n.validFrames cfg nranges base)[j]?.map (·.dstAddress)

end Node

/-- Metres for a tick of the clock. -/
def metresPerTick : ℚ := (299792458 / 1.000293) * (1 / 499.2e6 / 128)

/-- The distance that the stamps of a final frame give: half of what the round trip takes longer than
    the reply, which is counted by the clock of the network, or by another clock and corrected. -/
def Frame.metres (cfg : Cfg) (skew : BitVec 32 → ℚ) (f : Frame) : ℚ :=
  metresPerTick / 2 *
    if cfg.wcs.isSome then ((f.roundTrip - f.replyTime).toNat : ℚ)
    else f.roundTrip.toNat - f.replyTime.toNat * (1 - skew f.carrierIntegrator)

/-- The stamps of a frame give just as many metres as its address is high. -/
def Frame.AtAddress (cfg : Cfg) (skew : BitVec 32 → ℚ) (f : Frame) : Prop :=
  ((f.dstAddress.toNat : ℚ) ≤ f.metres cfg skew ∨ f.dstAddress = 0 ∧ -1 < f.metres cfg skew) ∧
    f.metres cfg skew < f.dstAddress.toNat + 1

/-- The range of a final frame is the distance its stamps give. -/
lemma Node.range_final (cfg : Cfg) (skew : BitVec 32 → ℚ) {f : Frame} (h : f.code = codeSsTwrNrngFinal) :
    Node.range cfg skew f = .num (f.metres cfg skew) := by
  have hd : isDoubleSided f.code = false := by rw [h]; decide
  have hs : isSsFinal f.code = true := by rw [h]; decide
  have hc : ∀ q : ℚ, q / 2 * (299792458 / 1.000293 * (1 / 499.2e6 / 128)) = metresPerTick / 2 * q :=
    fun q => by
      rw [metresPerTick]
      ring
  rw [Node.range, nrngTwrToTofFrames, hd, hs, Frame.metres]
  cases hw : cfg.wcs with
  | none => exact congrArg FloatVal.num (hc _)
  | some localToMaster => exact congrArg FloatVal.num (hc _)

/-- A number is converted to `a` from `a` on and below the next one, to 0 also from -1 on. -/
lemma Node.toU16_eq_iff (q : ℚ) (a : UInt16) :
    Node.toU16 (.num q) = some a ↔ ((a.toNat : ℚ) ≤ q ∨ a = 0 ∧ -1 < q) ∧ q < a.toNat + 1 := by
  have ha : a.toNat < 2 ^ 16 := a.toNat_lt
  have ha' : (a.toNat : ℚ) + 1 ≤ 2 ^ 16 := by exact_mod_cast ha
  have h0 : (0 : ℚ) ≤ a.toNat := Nat.cast_nonneg _
  have hzero : a = 0 ↔ a.toNat = 0 := by
    rw [← UInt16.toNat_inj]
    rfl
  rw [Node.toU16]
  split
  case isTrue h =>
    obtain ⟨hlow, hhigh⟩ := h
    have hfloor : ⌊q⌋ < 2 ^ 16 := by
      rw [Int.floor_lt]
      exact_mod_cast hhigh
    have hval : some (UInt16.ofNat ⌊q⌋.toNat) = some a ↔ ⌊q⌋.toNat = a.toNat := by
      rw [Option.some.injEq, ← UInt16.toNat_inj, UInt16.toNat_ofNat', Nat.mod_eq_of_lt (by omega)]
    rw [hval]
    constructor
    · intro he
      refine ⟨?_, ?_⟩
      · rcases lt_or_ge q 0 with hneg | hpos
        · have : ⌊q⌋ < 0 := Int.floor_lt.mpr (by exact_mod_cast hneg)
          exact .inr ⟨hzero.mpr (by omega), hlow⟩
        · have hf := Int.floor_nonneg.mpr hpos
          have hz : (a.toNat : Int) = ⌊q⌋ := by omega
          refine .inl ?_
          have := Int.floor_le q
          rw [← hz] at this
          exact_mod_cast this
      · have hle : ⌊q⌋ ≤ a.toNat := by omega
        have := Int.lt_floor_add_one q
        have hc : ((⌊q⌋ : Int) : ℚ) ≤ a.toNat := by exact_mod_cast hle
        linarith
    · rintro ⟨hor, hlt⟩
      have hle : ⌊q⌋ < a.toNat + 1 := by
        rw [Int.floor_lt]
        exact_mod_cast hlt
      rcases hor with hge | ⟨rfl, -⟩
      · have : (a.toNat : Int) ≤ ⌊q⌋ := Int.le_floor.mpr (by exact_mod_cast hge)
        omega
      · rw [hzero.mp rfl] at hle ⊢
        omega
  case isFalse h =>
    refine iff_of_false (Option.some_ne_none _).symm ?_
    rintro ⟨hor, hlt⟩
    refine h ⟨?_, lt_of_lt_of_le hlt ha'⟩
    rcases hor with hge | ⟨-, hlow⟩
    · linarith
    · exact hlow

/-- A list is converted to given values exactly if each member is. -/
lemma mapM_eq_map_iff {α β : Type*} (f : α → Option β) (g : α → β) (l : List α) :
    l.mapM f = some (l.map g) ↔ ∀ x ∈ l, f x = some (g x) := by
  induction l with
  | nil => simp
  | cons x l ih =>
    rw [List.mapM_cons, List.forall_mem_cons, ← ih]
    cases hx : f x with
    | none => simp
    | some y =>
      cases hl : l.mapM f with
      | none => simp
      | some ys => simp

namespace Node
variable (cfg : Cfg) (skew : BitVec 32 → ℚ) (n : Node) (nranges : Nat) (base : UInt16)

/-- The frames of the second loop are those of the slots that were asked for, final and of this
    request. -/
lemma mem_validFrames {frame : Frame} :
    frame ∈ n.validFrames cfg nranges base ↔ ∃ i < nranges, n.slotMask.toNat.testBit i = true ∧
      frame = n.slotFrame cfg base i ∧ frame.code = codeSsTwrNrngFinal ∧ frame.seqNum = n.seqNum := by
  rw [validFrames, List.mem_map]
  constructor
  · rintro ⟨i, hi, rfl⟩
    obtain ⟨hlt, hbit⟩ := List.mem_filter.mp hi
    rw [decide_eq_true_eq, Bits.and_two_pow_ne_zero, testBit_validMask, Bool.and_eq_true,
      Bool.and_eq_true, decide_eq_true_eq, decide_eq_true_eq] at hbit
    exact ⟨i, hbit.1.1, hbit.1.2, rfl, hbit.2⟩
  · rintro ⟨i, hi, hbit, rfl, hv⟩
    refine ⟨i, List.mem_filter.mpr ⟨List.mem_range.mpr hi, ?_⟩, rfl⟩
    rw [decide_eq_true_eq, Bits.and_two_pow_ne_zero, testBit_validMask, Bool.and_eq_true,
      Bool.and_eq_true, decide_eq_true_eq, decide_eq_true_eq]
    exact ⟨⟨hi, hbit⟩, hv⟩

/-- One responder has answered, at a range of zero. -/
def answeredOnce : Node :=
  { Node.init with
    slotMask := 1
    frames := fun _ => { Frame.init with code := codeSsTwrNrngFinal, dstAddress := 0x1234 } }

end Node
end UwbCore.Nrng
