import UwbCore.Transport.Dequeue

/-!
# The transmit window

Before a packet is written, `uwb_transport_dequeue_tx` tests whether it still fits before the end of the
window. The end of the frame is a time of the 40-bit clock, and the end of the window is what the
caller gives: cut to 40 bits, or a sum that is not.
-/

namespace UwbCore.Transport
open UwbCore.Lib

/-- `a` does not lie after `b` on a clock of 40 bits: from `a` it is less than half a turn to `b`. -/
def NotAfter40 (a b : Nat) : Prop := (b + 2 ^ 40 - a % 2 ^ 40) % 2 ^ 40 < 2 ^ 39

/-- The durations are 16-bit numbers of usec, and the guard times shifted fit an `int`. -/
structure Phy.InRange (phy : Phy) : Prop where
  preamble : phy.preamble.toNat < 2 ^ 16
  data : ∀ n, (phy.data n).toNat < 2 ^ 16
  subslotGuard : phy.subslotGuard.toNat < 2 ^ 15
  periodEndGuard : phy.periodEndGuard.toNat < 2 ^ 15

/-- `dx_time` of the round that begins. -/
def Call.nextDxTime (c : Call) : Nat := (c.dxTime.toNat + c.lastDuration.toNat) % 2 ^ 40

/-- The computed duration of the frame for a packet. -/
def frameDuration (phy : Phy) (p : TxPacket) : Nat :=
  (phy.preamble.toNat + (phy.data (p.om.pktlen + headerSize)).toNat + phy.subslotGuard.toNat) * 2 ^ 16

/-- `UWB_TRANSPORT_PERIOD_END_GUARD << 16` -/
def endGuard (phy : Phy) : Nat := phy.periodEndGuard.toNat * 2 ^ 16

section
variable {D : Type} {phy : Phy} {w : TxWorld D} {c : Call} {p : TxPacket}

/-- The mask is the remainder by 2^40. -/
lemma toNat_and_dtu40bMask (x : UInt64) : (x &&& dtu40bMask).toNat = x.toNat % 2 ^ 40 := by
  have hm : dtu40bMask.toNat = 2 ^ 40 - 1 := by decide
  rw [UInt64.toNat_and, hm, Nat.and_two_pow_sub_one_eq_mod]

/-- Microseconds in units of the clock. -/
lemma toNat_shiftLeft_16 {x : UInt64} (h : x.toNat < 2 ^ 48) : (x <<< 16).toNat = x.toNat * 2 ^ 16 := by
  have h16 : (16 : UInt64).toNat % 64 = 16 := rfl
  rw [UInt64.toNat_shiftLeft, h16, Nat.shiftLeft_eq]
  omega

/-- The end of the frame does not lie after the end of the window when it is less than the length of
    the window away. -/
lemma notAfter40_iff {dx dur guard e W : Nat} (hdur : dur + guard < 2 ^ 39) (hW : W < 2 ^ 39)
    (he : e % 2 ^ 40 = (dx + W) % 2 ^ 40) : NotAfter40 (dx + dur + guard) e ↔ dur + guard ≤ W := by
  rw [NotAfter40]
  omega

/-- The test of the source takes the ends for plain numbers: it is right about a frame that does not
    fit, and about one that fits when both ends have lost the same number of turns. -/
lemma remaining_iff {dx dur guard e W : Nat} (hdur : dur + guard < 2 ^ 39) (hW : W < 2 ^ 39)
    (he : e % 2 ^ 40 = (dx + W) % 2 ^ 40) (h64 : e < 2 ^ 64) :
    ((2 ^ 64 - guard + (2 ^ 64 - (dx + dur) % 2 ^ 40 + e) % 2 ^ 64) % 2 ^ 64 ≤ 0x7fffffffff ↔
      dur + guard ≤ W) ↔
    W < dur + guard ∨ dx + W = e + 2 ^ 40 * ((dx + dur) / 2 ^ 40) := by
  omega

/-- A round that has a packet waits for the write lock, or for the end of the call when it is late. -/
lemma loopTop_pc (hinit : w.node.hasInit = true) (hp : target w.node c = some p) :
    (loopTop phy w c).pc = .pend .lock ↔
      isLate phy c.dxTimeEnd ((c.dxTime + c.lastDuration) &&& dtu40bMask)
        ((phy.preamble + phy.data (p.om.pktlen + headerSize) + phy.subslotGuard) <<< 16) = false := by
  simp only [loopTop, hinit, Bool.not_true, Bool.false_eq_true, if_false, hp]
  split
  case isTrue h => simp [h]
  case isFalse h => simp [h]

/-- The duration of a frame. -/
lemma toNat_frameDuration (hphy : phy.InRange) :
    ((phy.preamble + phy.data (p.om.pktlen + headerSize) + phy.subslotGuard) <<< 16).toNat =
      frameDuration phy p := by
  have h1 := hphy.preamble
  have h2 := hphy.data (p.om.pktlen + headerSize)
  have h3 := hphy.subslotGuard
  have hsum : (phy.preamble + phy.data (p.om.pktlen + headerSize) + phy.subslotGuard).toNat =
      phy.preamble.toNat + (phy.data (p.om.pktlen + headerSize)).toNat +
        phy.subslotGuard.toNat := by
    rw [UInt64.toNat_add, UInt64.toNat_add]
    omega
  rw [toNat_shiftLeft_16 (by omega), hsum, frameDuration]

/-- The time of the next frame. -/
lemma toNat_nextDxTime : ((c.dxTime + c.lastDuration) &&& dtu40bMask).toNat = c.nextDxTime := by
  rw [toNat_and_dtu40bMask, UInt64.toNat_add, Call.nextDxTime]
  omega

/-- The test, in numbers. -/
lemma isLate_eq_false (hphy : phy.InRange) :
    isLate phy c.dxTimeEnd ((c.dxTime + c.lastDuration) &&& dtu40bMask)
        ((phy.preamble + phy.data (p.om.pktlen + headerSize) + phy.subslotGuard) <<< 16) = false ↔
      c.dxTimeEnd = 0 ∨
        (2 ^ 64 - endGuard phy + (2 ^ 64 - (c.nextDxTime + frameDuration phy p) % 2 ^ 40 +
          c.dxTimeEnd.toNat) % 2 ^ 64) % 2 ^ 64 ≤ 0x7fffffffff := by
  have hg := hphy.periodEndGuard
  have hlt : (0x7fffffffff : UInt64).toNat = 0x7fffffffff := rfl
  have hguard : (phy.periodEndGuard <<< 16).toNat = endGuard phy := toNat_shiftLeft_16 (by omega)
  have hframe : ((((c.dxTime + c.lastDuration) &&& dtu40bMask) +
      ((phy.preamble + phy.data (p.om.pktlen + headerSize) + phy.subslotGuard) <<< 16)) &&&
      dtu40bMask).toNat = (c.nextDxTime + frameDuration phy p) % 2 ^ 40 := by
    rw [toNat_and_dtu40bMask, UInt64.toNat_add, toNat_nextDxTime, toNat_frameDuration hphy]
    omega
  simp only [isLate, Bool.and_eq_false_iff, bne_eq_false_iff_eq, decide_eq_false_iff_not,
    UInt64.lt_iff_toNat_lt, UInt64.toNat_sub, hguard, hframe, hlt, not_lt]

/-! ## From the test to the start -/

/-- The points of a round between the test of the window and the start of the transmission. -/
def Pc.Committed : Pc → Prop
  | .pend .lock | .write | .pend .overlap | .pend .ackFree | .start => True
  | _ => False

/-- The steps of a call up to the start of a transmission, each in the world it finds then. -/
def Call.toStart (cfg : Config) (hw : TxBuffer D) (phy : Phy) :
    List (TxWorld D × Answer) → Call → Option Call
  | [], c => some c
  | (w, ans) :: es, c =>
    if c.pc = .start then some c
    else (callStep cfg hw phy ans w c).2.bind (Call.toStart cfg hw phy es)

/-- The round starts its frame at `t`: whatever happens meanwhile, the call goes on to the start of a
    transmission, and one that the device starts is delayed until `t`. -/
def StartsAt (cfg : Config) (hw : TxBuffer D) (phy : Phy) (w : TxWorld D) (c : Call)
    (t : UInt64) : Prop :=
  ∀ es, ∃ c', Call.toStart cfg hw phy es (loopTop phy w c) = some c' ∧ c'.pc.Committed ∧
    ∀ (w' : TxWorld D) ans p', target w'.node c' = some p' → ans.startTxError = false →
      (startTx cfg ans w' c').1.ledger.starts = w'.ledger.starts ++ [(p'.id, some t)]

/-- A transmission that the device starts is delayed as the call says. -/
lemma startTx_starts {cfg : Config} {ans : Answer} (hp : target w.node c = some p)
    (ha : ans.startTxError = false) :
    (startTx cfg ans w c).1.ledger.starts = w.ledger.starts ++ [(p.id, c.delayStart)] := by
  rw [startTx, ha, if_neg Bool.false_ne_true, hp]
  rfl

/-- A round that passed the test goes on to the start of the transmission, at the time it tested. -/
lemma callStep_committed (cfg : Config) (hw : TxBuffer D) (ans : Answer) (hc : c.pc.Committed)
    (hs : c.pc ≠ .start) : ∃ c', (callStep cfg hw phy ans w c).2 = some c' ∧ c'.pc.Committed ∧
      c'.delayStart = c.delayStart := by
  rw [callStep]
  cases hpc : c.pc with
  | pend q =>
    simp only
    split
    case isTrue => exact ⟨c, rfl, hc, rfl⟩
    case isFalse =>
      refine ⟨{ c with pc := q.next cfg }, rfl, ?_, rfl⟩
      rw [hpc] at hc
      cases q with
      | lock => trivial
      | overlap =>
        rw [Pend.next]
        split <;> trivial
      | ackFree => trivial
      | ack => cases hc
      | last => cases hc
  | write =>
    simp only [writePacket]
    split
    case isTrue => exact ⟨{ c with pc := .pend .overlap }, rfl, trivial, rfl⟩
    case isFalse =>
      split
      case h_1 => exact ⟨c, rfl, hc, rfl⟩
      case h_2 => exact ⟨_, rfl, trivial, rfl⟩
  | start => exact absurd hpc hs
  | loopTop | check | release | slipped | compare | sent | loopCond =>
    rw [hpc] at hc
    cases hc

/-- So it does in all its steps. -/
lemma toStart_committed (cfg : Config) (hw : TxBuffer D) (es : List (TxWorld D × Answer))
    (hc : c.pc.Committed) : ∃ c', Call.toStart cfg hw phy es c = some c' ∧ c'.pc.Committed ∧
      c'.delayStart = c.delayStart := by
  induction es generalizing c with
  | nil => exact ⟨c, rfl, hc, rfl⟩
  | cons e es ih =>
    rw [Call.toStart]
    split
    case isTrue => exact ⟨c, rfl, hc, rfl⟩
    case isFalse hs =>
      obtain ⟨c', he, hc', hd⟩ := @callStep_committed D phy e.1 c cfg hw e.2 hc hs
      obtain ⟨c'', he', hc'', hd'⟩ := ih hc'
      exact ⟨c'', by rw [he]; exact he', hc'', hd'.trans hd⟩

/-- Among the points that a round goes to from the test, only the write lock leads to a start. -/
lemma loopTop_committed (hinit : w.node.hasInit = true) (hp : target w.node c = some p) :
    (loopTop phy w c).pc.Committed ↔ (loopTop phy w c).pc = .pend .lock := by
  simp only [loopTop, hinit, Bool.not_true, Bool.false_eq_true, if_false, hp]
  cases isLate phy c.dxTimeEnd ((c.dxTime + c.lastDuration) &&& dtu40bMask)
    ((phy.preamble + phy.data (p.om.pktlen + headerSize) + phy.subslotGuard) <<< 16) with
  | true => simp [Pc.Committed]
  | false => simp [Pc.Committed]

/-- The delay of the round is its `dx_time`, unless that is 0. -/
lemma loopTop_delayStart (harg : c.argDxTime ≠ 0) (hinit : w.node.hasInit = true)
    (hp : target w.node c = some p) :
    (loopTop phy w c).delayStart = some ((c.dxTime + c.lastDuration) &&& dtu40bMask) ↔
      c.nextDxTime ≠ 0 := by
  have hz : (c.dxTime + c.lastDuration) &&& dtu40bMask = 0 ↔ c.nextDxTime = 0 := by
    rw [← UInt64.toNat_inj, toNat_nextDxTime]
    rfl
  simp only [loopTop, hinit, Bool.not_true, Bool.false_eq_true, if_false, hp, Call.delayStart,
    if_pos harg]
  by_cases h0 : c.nextDxTime = 0
  case pos =>
    rw [if_neg (not_not.mpr (hz.mpr h0))]
    exact ⟨fun h => (by cases h), fun h => absurd h0 h⟩
  case neg =>
    rw [if_pos fun h => h0 (hz.mp h)]
    exact ⟨fun _ => h0, fun _ => rfl⟩

/-- The call keeps a packet that is on the queue. -/
lemma target_loopTop (hinit : w.node.hasInit = true) (hp : target w.node c = some p) :
    ∃ p', target w.node (loopTop phy w c) = some p' := by
  have hmem : p ∈ w.node.txQ := by
    unfold target at hp
    split at hp
    · exact List.mem_of_head? hp
    · exact List.mem_of_find?_eq_some hp
  have hmp : (loopTop phy w c).mp = some p.id := by
    simp only [loopTop, hinit, Bool.not_true, Bool.false_eq_true, if_false, hp]
  rw [target, hmp]
  exact Option.isSome_iff_exists.mp (List.find?_isSome.mpr ⟨p, hmem, beq_self_eq_true p.id⟩)

/-- A frame is started at `dx_time` if the test is passed and `dx_time` is not 0. -/
lemma startsAt_iff (cfg : Config) (hw : TxBuffer D) (harg : c.argDxTime ≠ 0)
    (hinit : w.node.hasInit = true) (hp : target w.node c = some p) :
    StartsAt cfg hw phy w c ((c.dxTime + c.lastDuration) &&& dtu40bMask) ↔
      c.nextDxTime ≠ 0 ∧ (loopTop phy w c).pc = .pend .lock := by
  rw [← @loopTop_delayStart D phy w c p harg hinit hp, ← @loopTop_committed D phy w c p hinit hp]
  constructor
  · intro h
    obtain ⟨c', he, hc', hd⟩ := h []
    cases he
    obtain ⟨p', hp'⟩ := @target_loopTop D phy w c p hinit hp
    have hs := hd w ⟨false, 0⟩ p' hp' rfl
    rw [startTx_starts hp' rfl, List.append_cancel_left_eq] at hs
    exact ⟨congrArg Prod.snd (List.singleton_inj.mp hs), hc'⟩
  · rintro ⟨hd, hc⟩ es
    obtain ⟨c', he, hc', hd'⟩ := @toStart_committed D phy _ cfg hw es hc
    refine ⟨c', he, hc', fun w' ans p' hp' ha => ?_⟩
    rw [startTx_starts hp' ha, hd', hd]

end

/-! ## Windows around the wrap of the clock -/

/-- A node with one packet to send. -/
def oneQueued : TxWorld (Nat → UInt8) :=
  { TxWorld.init (fun (_ : Nat) => (0 : UInt8)) 0x10 0xdeca ⟨8, 512, 8⟩ with
    node := { Instance.init (fun (_ : Nat) => (0 : UInt8)) 0x10 0xdeca ⟨8, 512, 8⟩ with
      txQ := [⟨0, ⟨[], ⟨[0x55, 0x56], 3⟩⟩⟩] } }

/-- Durations of 100, 200 and 400 usec, and a guard of 2000. -/
def phy200 : Phy := ⟨100, fun _ => 200, 400, 2000⟩

/-- They are in the range of their fields. -/
lemma phy200_inRange : phy200.InRange :=
  ⟨by decide, fun _ => by show (200 : UInt64).toNat < 2 ^ 16; decide, by decide, by decide⟩

end UwbCore.Transport
