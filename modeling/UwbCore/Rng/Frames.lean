import UwbCore.Lib.Ring
import UwbCore.Rng.Handled
import UwbCore.Ccp.Basic

/-!
# The frame rings of any size

The ranging service and the clock calibration keep their frames in a ring of `nframes` slots under a
16-bit index. A frame is received or built in the slot after the current one, and the index moves when
it is accepted. Nothing but `assert(nframes > 1)` restricts the size, so the ring is modelled here
without the assumption that the size divides 2^16, on which the models of the two services rest
(`Lib.IndexRing`).

At the wrap of the index the slot that was written ahead, counted as an `int`, is `65536 % nframes`, and
the one that is read is slot 0. What a step of the services does to their ring is told at the end.
-/

namespace UwbCore.Rng
open UwbCore.Lib

/-! ## The ring -/

/-- The number of frames that a service is configured with. -/
structure Nframes where
  count : UInt16
  gt_one : 1 < count.toNat

/-- The size and the index of the ring, and the slots whose frames were accepted, newest first. -/
structure FrameRing where
  nframes : Nat
  idx : UInt16
  accepted : List Nat
  deriving DecidableEq

namespace FrameRing
variable (r : FrameRing)

/-- `(idx+1)%nframes` -/
def ahead : Nat := (r.idx.toNat + 1) % r.nframes

/-- `(idx)%nframes` -/
def current : Nat := r.idx.toNat % r.nframes

/-- `(uint16_t)(idx-1)%nframes` -/
def previous : Nat := (r.idx - 1).toNat % r.nframes

/-- `idx++`, with the frame that was written ahead. -/
def accept : FrameRing where
  nframes := r.nframes
  idx := r.idx + 1
  accepted := r.ahead :: r.accepted

end FrameRing

/-! ## The services -/

/-- `uwb_rng_init` -/
def uwbRngInit (nframes : Nat) : FrameRing where
  nframes := nframes
  idx := 0xFFFF
  accepted := []

/-- What becomes of the frame that `rx_complete_cb` of uwb_rng.c has put into the slot ahead: it is
    confirmed, or the address filter drops it. A frame that is not put there moves nothing either. -/
inductive RngEvent where
  | rxComplete (confirmed : Bool)
  deriving DecidableEq, Repr

def RngEvent.advances : RngEvent → Bool
  | .rxComplete confirmed => confirmed

/-- `rx_complete_cb` of uwb_rng.c -/
def rngStep (r : FrameRing) (e : RngEvent) : FrameRing := if e.advances then r.accept else r

/-- `uwb_ccp_start`: the slot of the index gets the time of the start. -/
def uwbCcpStart (nframes : Nat) : FrameRing where
  nframes := nframes
  idx := 0
  accepted := [0 % nframes]

/-- The calls that put a blink into the slot ahead or confirm it: a slave receives it, good or not;
    the master builds it, and counts it as sent at once if it could not be started; the transmission
    is complete. -/
inductive CcpEvent where
  | rxComplete (good : Bool)
  | send (startTxError : Bool)
  | txComplete
  deriving DecidableEq, Repr

def CcpEvent.advances : CcpEvent → Bool
  | .rxComplete good => good
  | .send startTxError => startTxError
  | .txComplete => true

/-- `rx_complete_cb`, `ccp_send` and `tx_complete_cb` of uwb_ccp.c -/
def ccpStep (r : FrameRing) (e : CcpEvent) : FrameRing := if e.advances then r.accept else r

/-- The services with such a ring. -/
inductive RingOwner where
  | rng | ccp
  deriving DecidableEq, Repr

namespace RingOwner

def Event : RingOwner → Type
  | .rng => RngEvent
  | .ccp => CcpEvent

def step : (s : RingOwner) → FrameRing → s.Event → FrameRing
  | .rng => rngStep
  | .ccp => ccpStep

def start : RingOwner → Nat → FrameRing
  | .rng => uwbRngInit
  | .ccp => uwbCcpStart

def advances : (s : RingOwner) → s.Event → Bool
  | .rng => RngEvent.advances
  | .ccp => CcpEvent.advances

/-- The ring after the events of a run. -/
def run (s : RingOwner) (n : Nframes) (events : List s.Event) : FrameRing :=
  events.foldl s.step (s.start n.count.toNat)

/-- The number of times that the index has moved. -/
def moves (s : RingOwner) (events : List s.Event) : Nat := events.countP s.advances

/-- The index a service begins with. -/
def startIdx (s : RingOwner) : UInt16 := (s.start 0).idx

end RingOwner

/-! ## Slots in turn -/

/-- The slot written ahead is the one that is current next; the current slot is the one accepted last;
    the previous slot is another, and the one accepted before. -/
structure FrameRing.InTurn (r : FrameRing) : Prop where
  ahead : r.ahead = r.accept.current
  current : ∀ slot ∈ r.accepted.head?, r.current = slot
  previous : ∀ slot ∈ r.accepted.tail.head?, r.previous = slot ∧ r.current ≠ r.previous

/-- The index does not wrap with its next move, or the size lets it. -/
def FrameRing.Clear (r : FrameRing) : Prop := r.nframes ∣ 2 ^ 16 ∨ r.idx ≠ 0xFFFF

namespace FrameRing
variable {r : FrameRing}

/-- The slot ahead becomes the current one with the next frame, unless the index wraps. -/
lemma ahead_iff : r.ahead = r.accept.current ↔ r.Clear := succ_mod_eq_iff r.nframes r.idx

/-- The current slot becomes the previous one. -/
lemma accept_previous : r.accept.previous = r.current := by
  show (r.idx + 1 - 1).toNat % r.nframes = r.idx.toNat % r.nframes
  rw [UInt16.add_sub_cancel]

/-- With two slots the one ahead is not the current one. -/
lemma ahead_ne_current (h : 1 < r.nframes) : r.ahead ≠ r.current := by
  intro e
  have hzero := mod_add_inj (a := r.idx.toNat) (k := 1) (l := 0) h (by omega) e
  cases hzero

/-- A slot just accepted is the current one exactly if it was the one that is current next. -/
lemma accept_current_iff :
    (∀ slot ∈ r.accept.accepted.head?, r.accept.current = slot) ↔ r.Clear := by
  rw [← ahead_iff]
  constructor
  · intro h
    exact (h r.ahead rfl).symm
  · rintro h slot ⟨⟩
    exact h.symm

/-- The slots are in turn after a move exactly if neither that move nor the next one wraps the index,
    and the slot that was current before is the one accepted before. -/
lemma accept_inTurn (h : 1 < r.nframes) :
    r.accept.InTurn ↔
      r.accept.Clear ∧ r.Clear ∧ ∀ slot ∈ r.accepted.head?, r.current = slot := by
  constructor
  · intro ⟨hahead, hcur, hprev⟩
    refine ⟨ahead_iff.mp hahead, accept_current_iff.mp hcur, fun slot hs => ?_⟩
    exact accept_previous ▸ (hprev slot hs).1
  · rintro ⟨hahead, hcur, hlast⟩
    have hnow := accept_current_iff.mpr hcur
    refine ⟨ahead_iff.mpr hahead, hnow, fun slot hs => ?_⟩
    rw [accept_previous, hnow r.ahead rfl]
    exact ⟨hlast slot hs, ahead_ne_current h⟩

end FrameRing

/-! ## Runs -/

section Runs
variable {s : RingOwner}

/-- A step accepts a frame or does nothing. -/
lemma RingOwner.step_eq (r : FrameRing) (e : s.Event) :
    s.step r e = if s.advances e then r.accept else r := by
  cases s <;> rfl

/-- A run is as many moves of the index. -/
lemma RingOwner.foldl_step (r : FrameRing) (events : List s.Event) :
    events.foldl s.step r = FrameRing.accept^[s.moves events] r := by
  induction events generalizing r with
  | nil => rfl
  | cons e events ih =>
    rw [List.foldl_cons, ih, step_eq, moves, moves, List.countP_cons]
    cases s.advances e <;> rfl

/-- The size of the ring stays. -/
lemma FrameRing.iterate_nframes (r : FrameRing) (k : Nat) :
    (FrameRing.accept^[k] r).nframes = r.nframes := by
  induction k with
  | zero => rfl
  | succ k ih =>
    rw [Function.iterate_succ_apply']
    exact ih

/-- The index counts the frames. -/
lemma FrameRing.iterate_idx (r : FrameRing) (k : Nat) :
    (FrameRing.accept^[k] r).idx = r.idx + UInt16.ofNat k := by
  induction k with
  | zero => exact (UInt16.add_zero r.idx).symm
  | succ k ih =>
    rw [Function.iterate_succ_apply', UInt16.ofNat_add, ← UInt16.add_assoc, ← ih]
    rfl

/-- At its start a ring has accepted no slot, or the current one. -/
lemma RingOwner.start_current (s : RingOwner) (n : Nat) :
    ∀ slot ∈ (s.start n).accepted.head?, (s.start n).current = slot := by
  cases s with
  | rng => rintro slot ⟨⟩
  | ccp =>
    rintro slot ⟨⟩
    rfl

/-- At first one frame was accepted at most. -/
lemma RingOwner.start_tail (s : RingOwner) (n : Nat) : (s.start n).accepted.tail = [] := by
  cases s <;> rfl

/-- The index at the start. -/
lemma RingOwner.start_idx (s : RingOwner) (n : Nat) : (s.start n).idx = s.startIdx := by
  cases s <;> rfl

/-- The size at the start. -/
lemma RingOwner.start_nframes (s : RingOwner) (n : Nat) : (s.start n).nframes = n := by
  cases s <;> rfl

/-- From a ring that has accepted its current slot at most, the slots are in turn after `k` moves
    exactly if neither the last two of them nor the next one wraps the index. -/
lemma FrameRing.iterate_inTurn {r : FrameRing} (h : 1 < r.nframes)
    (hcur : ∀ slot ∈ r.accepted.head?, r.current = slot) (htail : r.accepted.tail = []) (k : Nat) :
    (FrameRing.accept^[k] r).InTurn ↔
      ∀ j ≤ k, k ≤ j + 2 → (FrameRing.accept^[j] r).Clear := by
  match k with
  | 0 =>
    constructor
    · intro hin j hj _
      rw [Nat.le_zero.mp hj]
      exact ahead_iff.mp hin.ahead
    · intro hclear
      refine ⟨ahead_iff.mpr (hclear 0 (Nat.le_refl 0) (Nat.zero_le 2)), hcur, ?_⟩
      rw [Function.iterate_zero, id, htail]
      rintro slot ⟨⟩
  | 1 =>
    rw [Function.iterate_one, accept_inTurn h]
    constructor
    · rintro ⟨h1, h0, -⟩ j hj -
      interval_cases j
      · exact h0
      · exact h1
    · intro hclear
      exact ⟨hclear 1 (by omega) (by omega), hclear 0 (by omega) (by omega), hcur⟩
  | k + 2 =>
    -- the slot current before the last move is the one accepted with the move before it
    rw [Function.iterate_succ_apply', Function.iterate_succ_apply',
      accept_inTurn (by rw [FrameRing.accept, iterate_nframes]; exact h), accept_current_iff]
    constructor
    · rintro ⟨h2, h1, h0⟩ j hj hk
      rcases (show j = k ∨ j = k + 1 ∨ j = k + 2 by omega) with rfl | rfl | rfl
      · exact h0
      · rwa [Function.iterate_succ_apply']
      · rwa [Function.iterate_succ_apply', Function.iterate_succ_apply']
    · intro hclear
      have h2 := hclear (k + 2) (by omega) (by omega)
      have h1 := hclear (k + 1) (by omega) (by omega)
      rw [Function.iterate_succ_apply', Function.iterate_succ_apply'] at h2
      rw [Function.iterate_succ_apply'] at h1
      exact ⟨h2, h1, hclear k (by omega) (by omega)⟩

/-- The index is not 0xFFFF after `k` moves from `start`, nor was it so before either of the last two. -/
def OffWrap (start : UInt16) (k : Nat) : Prop :=
  ∀ j ≤ k, k ≤ j + 2 → start + UInt16.ofNat j ≠ 0xFFFF

/-- The slots of either service are in turn after a run exactly if the number of frames divides 2^16,
    or the index is off its wrap. -/
theorem inTurn_iff (s : RingOwner) (n : Nframes) (events : List s.Event) :
    (s.run n events).InTurn ↔
      n.count.toNat ∣ 2 ^ 16 ∨ OffWrap s.startIdx (s.moves events) := by
  have hn : 1 < (s.start n.count.toNat).nframes := s.start_nframes _ ▸ n.gt_one
  rw [RingOwner.run, RingOwner.foldl_step, FrameRing.iterate_inTurn hn (s.start_current _)
    (s.start_tail _)]
  simp only [FrameRing.Clear, FrameRing.iterate_nframes, FrameRing.iterate_idx, s.start_nframes,
    s.start_idx]
  constructor
  · intro h
    by_cases hd : n.count.toNat ∣ 2 ^ 16
    case pos => exact .inl hd
    case neg => exact .inr fun j hj hk => (h j hj hk).resolve_left hd
  · rintro (hd | hoff) j hj hk
    · exact .inl hd
    · exact .inr (hoff j hj hk)

/-- A ranging service with three frames has its first frame in slot 65536 % 3, and reads slot 0. -/
theorem inTurn_fails :
    ¬∀ (s : RingOwner) (n : Nframes) (events : List s.Event), (s.run n events).InTurn := by
  intro h
  have hahead := (h .rng ⟨3, by decide⟩ []).ahead
  exact absurd hahead (by decide)

end Runs

/-! ## The models of the services -/

/-- The ring of a ranging node. -/
def Node.ring {S : Type} (cfg : Cfg) (n : Node S) (accepted : List Nat) : FrameRing where
  nframes := cfg.ring.size
  idx := n.idx
  accepted := accepted

/-- A frame that comes to the ranging service is an event of its ring, and changes no slot but the one
    ahead. -/
theorem rxComplete_ring {S : Type} [Stamp S] (cfg : Cfg) (rx : Rx S) (n : Node S)
    (accepted : List Nat) :
    (∃ e acc', rngStep (n.ring cfg accepted) e = (UwbRng.rxComplete cfg rx n).1.ring cfg acc') ∧
      ∀ i ≠ (n.ring cfg accepted).ahead,
        (UwbRng.rxComplete cfg rx n).1.frames i = n.frames i := by
  have hrelease : ∀ m : Node S, m.releaseIfZero.idx = m.idx ∧ m.releaseIfZero.frames = m.frames := by
    intro m
    rw [Node.releaseIfZero]
    split <;> exact ⟨rfl, rfl⟩
  have hstore : ∀ i ≠ (n.ring cfg accepted).ahead, (n.store cfg rx).frames i = n.frames i :=
    fun i hi => setFrame_of_ne _ _ hi
  have shared : Shared cfg rx n (UwbRng.rxComplete cfg rx n) := UwbRng.shared
  generalize UwbRng.rxComplete cfg rx n = r at shared ⊢
  cases shared with
  | other _ =>
    refine ⟨⟨.rxComplete false, accepted, ?_⟩, fun i _ => by rw [(hrelease n).2]⟩
    rw [Node.ring, Node.ring, (hrelease n).1]
    rfl
  | ignored _ => exact ⟨⟨.rxComplete false, accepted, rfl⟩, fun _ _ => rfl⟩
  | unread _ => exact ⟨⟨.rxComplete false, accepted, rfl⟩, fun _ _ => rfl⟩
  | foreign =>
    refine ⟨⟨.rxComplete false, accepted, ?_⟩, fun i hi => ?_⟩
    · rw [Node.ring, Node.ring, (hrelease _).1]
      rfl
    · rw [(hrelease _).2]
      exact hstore i hi
  | accepted => exact ⟨⟨.rxComplete true, _, rfl⟩, hstore⟩

/-- The ring of an instance of the clock calibration. -/
def ccpRing (cfg : Ccp.Cfg) (ccp : Ccp.Instance) (accepted : List Nat) : FrameRing where
  nframes := cfg.ring.size
  idx := ccp.idx
  accepted := accepted

section Ccp
variable (cfg : Ccp.Cfg) (ccp : Ccp.Instance) (accepted : List Nat)

/-- The slot ahead in the clock calibration. -/
lemma ccpRing_ahead : (ccpRing cfg ccp accepted).ahead = cfg.ring.next ccp.idx := rfl

/-- The current slot in the clock calibration. -/
lemma ccpRing_current : (ccpRing cfg ccp accepted).current = cfg.ring.cur ccp.idx := rfl

/-- The epochs go to the next slot. -/
lemma takeEpochs_idx (rx : Ccp.Rx) : (ccp.takeEpochs cfg rx).idx = ccp.idx + 1 ∧
    (ccp.takeEpochs cfg rx).frames = ccp.frames := by
  simp only [Ccp.Instance.takeEpochs, Ccp.Instance.adjustForEpochToRm, Ccp.Instance.checkValid]
  split <;> exact ⟨rfl, rfl⟩

/-- The compensations leave the slots. -/
lemma compensated_idx (p : Ccp.Instance × Ccp.Frame) :
    (Ccp.compensateRelays cfg (Ccp.compensateTof cfg p)).1.idx = p.1.idx ∧
      (Ccp.compensateRelays cfg (Ccp.compensateTof cfg p)).1.frames = p.1.frames := by
  obtain ⟨ccp, f⟩ := p
  have htof : (Ccp.compensateTof cfg (ccp, f)).1.idx = ccp.idx ∧
      (Ccp.compensateTof cfg (ccp, f)).1.frames = ccp.frames := by
    rw [Ccp.compensateTof]
    split <;> exact ⟨rfl, rfl⟩
  generalize Ccp.compensateTof cfg (ccp, f) = q at htof ⊢
  obtain ⟨ccp', f'⟩ := q
  by_cases h : f'.blink.rptCount ≠ 0
  case pos =>
    simp only [Ccp.compensateRelays, h, ne_eq, not_false_eq_true, if_true]
    exact htof
  case neg =>
    simp only [Ccp.compensateRelays, h, if_false]
    exact htof

/-- A blink that is taken moves the index, and changes the frame in the slot ahead. -/
lemma takeBlink_ring (rx : Ccp.Rx) :
    (ccp.takeBlink cfg rx).ccp.idx = ccp.idx + 1 ∧
      ∀ i ≠ (ccpRing cfg ccp accepted).ahead,
        (ccp.takeBlink cfg rx).ccp.frames i = ccp.frames i := by
  obtain ⟨hidx, hframes⟩ := compensated_idx cfg
    (ccp.takeEpochs cfg rx, (ccp.frames (cfg.ring.next ccp.idx)).received cfg rx)
  obtain ⟨hidx', hframes'⟩ := takeEpochs_idx cfg ccp rx
  constructor
  · exact hidx.trans hidx'
  · intro i hi
    simp only [Ccp.Instance.takeBlink, Ccp.Instance.release]
    rw [Table.modify_of_ne _ _ (ccpRing_ahead cfg ccp accepted ▸ hi), hframes, hframes']

/-- A frame that comes to the clock calibration is an event of its ring, and changes no slot but the
    one ahead. -/
theorem rxCompleteCb_ring (rx : Ccp.Rx) :
    (∃ e acc', ccpStep (ccpRing cfg ccp accepted) e =
        ccpRing cfg (ccp.rxCompleteCb cfg rx).ccp acc') ∧
      ∀ i ≠ (ccpRing cfg ccp accepted).ahead,
        (ccp.rxCompleteCb cfg rx).ccp.frames i = ccp.frames i := by
  unfold Ccp.Instance.rxCompleteCb
  split
  · exact ⟨⟨.rxComplete false, accepted, rfl⟩, fun _ _ => rfl⟩
  split
  · exact ⟨⟨.rxComplete false, accepted, rfl⟩, fun _ _ => rfl⟩
  split
  · exact ⟨⟨.rxComplete false, accepted, rfl⟩, fun _ _ => rfl⟩
  split
  · exact ⟨⟨.rxComplete false, accepted, rfl⟩, fun _ _ => rfl⟩
  split
  -- the blink is in the slot ahead, and the index stays
  · refine ⟨⟨.rxComplete false, accepted, rfl⟩, fun i hi => ?_⟩
    simp only [Ccp.Instance.returns]
    exact Table.modify_of_ne _ _ (ccpRing_ahead cfg ccp accepted ▸ hi)
  · obtain ⟨hidx, hframes⟩ := takeBlink_ring cfg ccp accepted rx
    refine ⟨⟨.rxComplete true, (ccpRing cfg ccp accepted).ahead :: accepted, ?_⟩, hframes⟩
    simp only [ccpRing, hidx]
    rfl

/-- The building of a blink is an event of the ring, and changes no slot but the one ahead, or the
    current one too when it could not be started. -/
theorem send_ring (startTxError : Bool) (systime : BitVec 64) :
    (∃ e acc', ccpStep (ccpRing cfg ccp accepted) e =
        ccpRing cfg (ccp.send cfg startTxError systime).ccp acc') ∧
      ∀ i ≠ (ccpRing cfg ccp accepted).ahead, i ≠ (ccpRing cfg ccp accepted).current →
        (ccp.send cfg startTxError systime).ccp.frames i = ccp.frames i := by
  unfold Ccp.Instance.send
  split
  case isTrue => exact ⟨⟨.send false, accepted, rfl⟩, fun _ _ _ => rfl⟩
  case isFalse =>
    cases startTxError with
    | true =>
      refine ⟨⟨.send true, (ccpRing cfg ccp accepted).ahead :: accepted, rfl⟩, ?_⟩
      intro i hahead hcur
      simp only [if_true, Ccp.Instance.sendFailed, Ccp.Instance.release]
      rw [Table.modify_of_ne _ _ (ccpRing_current cfg ccp accepted ▸ hcur),
        Table.modify_of_ne _ _ (ccpRing_ahead cfg ccp accepted ▸ hahead)]
    | false =>
      refine ⟨⟨.send false, accepted, rfl⟩, fun i hahead _ => ?_⟩
      simp only [Bool.false_eq_true, if_false]
      exact Table.modify_of_ne _ _ (ccpRing_ahead cfg ccp accepted ▸ hahead)

/-- A completed transmission is an event of the ring, and changes no slot. -/
theorem txCompleteCb_ring (systime0 cputime systime1 : BitVec 32) :
    (∃ e acc', ccpStep (ccpRing cfg ccp accepted) e =
        ccpRing cfg (ccp.txCompleteCb cfg systime0 cputime systime1).ccp acc') ∧
      (ccp.txCompleteCb cfg systime0 cputime systime1).ccp.frames = ccp.frames := by
  unfold Ccp.Instance.txCompleteCb
  split
  case isTrue => exact ⟨⟨.send false, accepted, rfl⟩, rfl⟩
  case isFalse =>
    refine ⟨⟨.txComplete, (ccpRing cfg ccp accepted).ahead :: accepted, ?_⟩, ?_⟩
    · dsimp only
      split <;> rfl
    · dsimp only
      split <;> rfl

end Ccp

end UwbCore.Rng
