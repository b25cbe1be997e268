import UwbCore.Rtdoa.Flood
import UwbCore.Rtdoa.Pair

/-!
# The window in which a tag listens

`rtdoa_listen` keeps the end of its window, cut to 40 bits. After each frame that the tag takes, the
callback gives the receiver a timeout for what is left, and after a request it has the receiver started
again for the responses. The time left is a difference of two numbers of 40 bits, so it is not what is
left where the counter turns in between. It is counted from the reception, but after a request the
receiver is on only from its restart. The restart takes the hold-offs of the repetitions and the
preamble off in microseconds where it adds in units of the counter.
-/

namespace UwbCore.Rtdoa
open UwbCore.Lib

/-- The timeout that a call sets for the receiver. -/
def DevCall.timeout : DevCall → Option UInt32
  | .setRxTimeout timeout | .adjRxTimeout timeout => some timeout
  | _ => none

/-- The time that a call sets for the start of the receiver. -/
def DevCall.delayStart : DevCall → Option UInt64
  | .setDelayStart dxTime => some dxTime
  | _ => none

/-- The time at which a delayed start is done: the device ignores the low 9 bits. -/
def startTime (dxTime : UInt64) : Nat := dxTime.toNat % 2 ^ 40 / 2 ^ 9 * 2 ^ 9

/-- A call of the application to listen. -/
def TagEvent.isListen : TagEvent → Bool
  | .listen .. => true
  | _ => false

/-- A tag that has been told to listen, and what has happened to it since. -/
structure Listening where
  cfg : TagCfg
  dev : Dev
  idle : Tag
  delay : UInt64
  timeout : UInt16
  startRxError : Bool
  since : List TagEvent
  waits : idle.sem ≠ 0
  once : ∀ e ∈ since, e.isListen = false

namespace Listening
variable (w : Listening)

/-- The tag as it is now. -/
def tag : Tag :=
  w.since.foldl (Tag.step w.cfg w.dev) (w.idle.rtdoaListen w.delay w.timeout w.startRxError).tag

/-- The end of the window, on a counter that does not turn. -/
def windowEnd : ℤ := w.delay.toNat + w.timeout.toNat * 2 ^ 16

/-- What the callback has the receiver do with a frame. -/
def calls (rx : TagRx) : List DevCall := (w.tag.rxCompleteCb w.cfg w.dev rx).calls

/-- The time from which the receiver is on after a frame: that of its restart, or of the reception. -/
def enabled (rx : TagRx) : Nat :=
  match (w.calls rx).findSome? DevCall.delayStart with
  | some dxTime => startTime dxTime
  | none => rx.rxtimestamp.toNat

/-- A request or a response that is taken, with a time of the counter inside of the window. -/
structure Receives (rx : TagRx) : Prop where
  takes : w.tag.Takes w.dev rx
  code : rx.frame.code = codeRequest ∨ rx.frame.code = codeResp
  stamp : rx.rxtimestamp.toNat < 2 ^ 40
  inside : ((rx.rxtimestamp.toNat : ℤ) - w.delay.toNat) % 2 ^ 40 ≤ w.timeout.toNat * 2 ^ 16

/-- The timeout, which runs from when the receiver is on, ends the window as it did, up to a unit; and
    the receiver is on before any response to the request that a node of the network sends. -/
structure Keeps (net : Node → Prop) (rx : TagRx) : Prop where
  ends : ∃ timeout : UInt32, (w.calls rx).findSome? DevCall.timeout = some timeout ∧
    timeout ≠ 0 ∧ ∃ m : ℤ,
      |w.enabled rx + timeout.toNat * 2 ^ 16 - w.windowEnd - m * 2 ^ 40| ≤ 2 ^ 16
  starts : ∀ rx0 waited, IsRequest rx0 → Hears net rx0 waited rx.toRx →
    ∀ n waited' copy r, net n → Hears net rx0 waited' copy → n.respond copy = some r →
      Circle.NotAfter (2 ^ 40) (w.enabled rx) r.dxTime.toNat

/-- What the tag adds to the time of a request for the start of its receiver. -/
def restartAfter (rx : Rx) : ℤ :=
  ((rx.frame.rptMax.toNat : ℤ) - rx.frame.rptCount.toNat + 1) * w.cfg.txHoldoffDelay.toNat % 2 ^ 16 *
    2 ^ 16 - (rx.frame.rptCount.toNat * w.cfg.txHoldoffDelay.toNat % 2 ^ 32 : Nat) -
      w.cfg.shrDuration.toNat

/-- From the reception of a request, cut to the grain of the delayed start, to the start itself. -/
def startsAfter (rx : Rx) : ℤ :=
  (rx.rxtimestamp.toNat % 2 ^ 9 + w.restartAfter rx) / 2 ^ 9 * 2 ^ 9

/-- A request that is long enough has the receiver started again. -/
def Restarts (rx : TagRx) : Prop := rx.frame.code = codeRequest ∧ ¬rx.frameLen < requestSize

instance decidableRestarts (rx : TagRx) : Decidable (Restarts rx) :=
  inferInstanceAs (Decidable (_ ∧ _))

/-- For how long the receiver is not on after a frame. -/
def off (rx : TagRx) : ℤ :=
  if Restarts rx then w.startsAfter rx.toRx - rx.rxtimestamp.toNat % 2 ^ 9 else 0

/-- What is left of the window, on the counter. -/
def left (rx : TagRx) : ℤ := (w.windowEnd - rx.rxtimestamp.toNat) % 2 ^ 40

/-- Where the counter does not turn in what is left of the window, the receiver is off for no longer than
    a unit and what the timeout leaves out, and no more than a unit less; where it turns, or less than
    a unit is left, two units are left at most beyond the time that it is off. For each copy of the
    request that a node takes, what its relays have waited for and what it counts to its slot is no less
    than what the relays of the tag have waited for and what the tag adds. -/
structure Fits (net : Node → Prop) (rx : TagRx) : Prop where
  ends :
    if rx.rxtimestamp.toNat ≤ w.windowEnd % 2 ^ 40 ∧ 2 ^ 16 ≤ w.left rx then
      (w.off rx - w.left rx % 2 ^ 16 + 2 ^ 16) % 2 ^ 40 ≤ 2 * 2 ^ 16
    else (w.left rx - w.off rx) % 2 ^ 40 ≤ 2 * 2 ^ 16
  starts : ∀ rx0 waited, IsRequest rx0 → Hears net rx0 waited rx.toRx →
    ∀ n waited' copy, net n → Hears net rx0 waited' copy → n.Takes copy →
      n.repeats copy ≤ copy.rxtimestamp.toNat →
      Circle.NotAfter (2 ^ 40) (waited + w.startsAfter rx.toRx)
        (waited' + n.toSlot copy - n.repeats copy)

end Listening

/-! ## The end of the window -/

namespace Tag
variable {cfg : TagCfg} {dev : Dev} {s : Tag} {e : TagEvent} {rx : TagRx}

/-- Nothing but another call to listen sets the end of the window. -/
lemma step_timeout (h : e.isListen = false) : (s.step cfg dev e).timeout = s.timeout := by
  cases e with
  | listen => cases h
  | tdoa req resp =>
    cases tdoa_frames cfg s resp req with
    | inl h => rw [step, h]
    | inr h => rw [step, h.2]
  | rx rx =>
    rw [step, rxCompleteCb]
    split
    · rfl
    · split
      · split
        · rfl
        · rw [takeRequest]
          dsimp only
          split <;> rfl
      · split
        · split <;> rfl
        · rfl
  | rxTimeout => rfl
  | rxError fctrl =>
    rw [step]
    split <;> rfl
  | reset => rfl

/-- So a run without such a call leaves it. -/
lemma run_timeout {es : List TagEvent} (h : ∀ e ∈ es, e.isListen = false) :
    (es.foldl (step cfg dev) s).timeout = s.timeout := by
  induction es generalizing s with
  | nil => rfl
  | cons e es ih =>
    obtain ⟨he, hes⟩ := List.forall_mem_cons.mp h
    exact (ih hes).trans (step_timeout he)

end Tag

namespace Listening
variable {w : Listening} {rx : TagRx}

/-- The tag keeps the end of its window, on the counter. -/
lemma timeout_toNat : (w.tag.timeout.toNat : ℤ) = w.windowEnd % 2 ^ 40 := by
  have hlt := w.timeout.toNat_lt
  have hshift : (w.timeout.toUInt64 <<< 16).toNat = w.timeout.toNat * 2 ^ 16 := by
    rw [toNat_shift16, UInt16.toNat_toUInt64]
    rw [UInt16.toNat_toUInt64]
    omega
  have hset : (w.idle.rtdoaListen w.delay w.timeout w.startRxError).tag.timeout =
      (w.delay + w.timeout.toUInt64 <<< 16) &&& 0xFFFFFFFFFF := by
    rw [Tag.rtdoaListen, if_neg w.waits]
    dsimp only
    split <;> rfl
  rw [tag, Tag.run_timeout w.once, hset, toNat_and_counter, UInt64.toNat_add, hshift, windowEnd]
  omega

/-- What is left of the window, for a reception on the counter. -/
lemma newTimeout_eq (h : rx.rxtimestamp.toNat < 2 ^ 40) : w.tag.newTimeout rx.rxtimestamp =
    max 1 ((w.windowEnd % 2 ^ 40 - rx.rxtimestamp.toNat) / 2 ^ 16) := by
  have hend := @timeout_toNat w
  have hpos : (w.tag.timeout.toBitVec.toInt : ℤ) = w.tag.timeout.toNat := by
    rw [BitVec.toInt_eq_toNat_of_lt]
    · rfl
    · show 2 * w.tag.timeout.toNat < 2 ^ 64
      omega
  have hrx : (rx.rxtimestamp.toBitVec.toInt : ℤ) = rx.rxtimestamp.toNat := by
    rw [BitVec.toInt_eq_toNat_of_lt]
    · rfl
    · show 2 * rx.rxtimestamp.toNat < 2 ^ 64
      omega
  rw [Tag.newTimeout, hpos, hrx, hend, Int.shiftRight_eq_div_pow]
  rfl

/-- What is left fits the timeout of the window. -/
lemma newTimeout_lt (h : w.Receives rx) : 1 ≤ w.tag.newTimeout rx.rxtimestamp ∧
    w.tag.newTimeout rx.rxtimestamp < 2 ^ 16 := by
  have hin := h.inside
  have hstamp := h.stamp
  have hlt := w.timeout.toNat_lt
  rw [newTimeout_eq h.stamp, windowEnd]
  omega

/-- A request that is long enough, as it is taken. -/
lemma calls_request (h : w.Receives rx) (hreq : Restarts rx) : w.calls rx =
    [.stopRx, .setDelayStart (Tag.restart w.cfg rx), .startRx,
      .setRxTimeout (UInt16.ofInt (w.tag.newTimeout rx.rxtimestamp)).toUInt32] := by
  rw [calls, Tag.rxCompleteCb, if_neg (not_not.mpr h.takes), if_pos hreq.1, if_neg hreq.2]
  rfl

/-- All else that is received adjusts the timeout. -/
lemma calls_adjust (h : w.Receives rx) (hother : ¬Restarts rx) : w.calls rx =
    [.adjRxTimeout (UInt32.ofInt (w.tag.newTimeout rx.rxtimestamp))] := by
  rw [calls, Tag.rxCompleteCb, if_neg (not_not.mpr h.takes)]
  by_cases hcode : rx.frame.code = codeRequest
  case pos =>
    have hlen : rx.frameLen < requestSize := by
      by_contra hlen
      exact hother ⟨hcode, hlen⟩
    rw [if_pos hcode, if_pos hlen]
    rfl
  case neg =>
    rw [if_neg hcode, if_pos (h.code.resolve_left hcode)]
    split <;> rfl

/-- The timeout that is set is what is left of the window. -/
lemma calls_timeout (h : w.Receives rx) : ∃ timeout : UInt32,
    (w.calls rx).findSome? DevCall.timeout = some timeout ∧
      (timeout.toNat : ℤ) = w.tag.newTimeout rx.rxtimestamp := by
  obtain ⟨hpos, hlt⟩ := newTimeout_lt h
  by_cases hreq : Restarts rx
  case pos =>
    rw [calls_request h hreq]
    refine ⟨_, rfl, ?_⟩
    rw [UInt16.toNat_toUInt32, UInt16.ofInt, UInt16.toNat_ofNat']
    omega
  case neg =>
    rw [calls_adjust h hreq]
    refine ⟨_, rfl, ?_⟩
    rw [UInt32.ofInt, UInt32.toNat_ofNat']
    omega

/-! ## The restart -/

/-- The delay of the repetitions, in microseconds. -/
lemma repeatDly_toNat : (Tag.repeatDly w.cfg rx).toNat =
    rx.frame.rptCount.toNat * w.cfg.txHoldoffDelay.toNat % 2 ^ 32 := by
  rw [Tag.repeatDly]
  split
  case isTrue => rw [UInt32.toNat_mul, UInt8.toNat_toUInt32]
  case isFalse h =>
    rw [not_not.mp h]
    simp

/-- The time that is set for the restart, on the counter. -/
lemma restart_modEq (w : Listening) (rx : TagRx) : ((Tag.restart w.cfg rx).toNat : ℤ) ≡
    rx.rxtimestamp.toNat + w.restartAfter rx.toRx [ZMOD 2 ^ 40] := by
  have hrep := @repeatDly_toNat w rx
  have husecs := @usecsToResponse_toInt w.cfg.toConfig rx.frame 0 w.cfg.responseDuration
  have hzero : (0 : UInt16).toNat = 0 := rfl
  rw [hzero, Nat.cast_zero, Int.zero_mul, Int.add_zero] at husecs
  have hsub := (Tag.repeatDly w.cfg rx).toNat_lt
  have hshr := w.cfg.shrDuration.toNat_lt
  rw [Tag.restart, UInt64.toNat_sub, UInt64.toNat_add, UInt64.toNat_sub,
    UInt32.toNat_toUInt64 (Tag.repeatDly w.cfg rx), UInt16.toNat_toUInt64, restartAfter, Int.ModEq,
    ← husecs, hrep]
  rw [hrep] at hsub
  omega

/-- The restart itself, in the grain of the delayed start. -/
lemma startTime_modEq (w : Listening) (rx : TagRx) : (startTime (Tag.restart w.cfg rx) : ℤ) ≡
    (rx.rxtimestamp.toNat / 2 ^ 9 * 2 ^ 9 : Nat) + w.startsAfter rx.toRx [ZMOD 2 ^ 40] := by
  have hrestart := restart_modEq w rx
  rw [startTime, startsAfter]
  generalize w.restartAfter rx.toRx = after at hrestart ⊢
  rw [Int.ModEq] at hrestart ⊢
  push_cast
  omega

/-- The receiver is started again at the restart. -/
lemma enabled_request (h : w.Receives rx) (hreq : Restarts rx) :
    w.enabled rx = startTime (Tag.restart w.cfg rx) := by
  rw [enabled, calls_request h hreq]
  rfl

/-- From the reception on, the receiver is off for as long as the tag has it. -/
lemma enabled_modEq (h : w.Receives rx) :
    (w.enabled rx : ℤ) ≡ rx.rxtimestamp.toNat + w.off rx [ZMOD 2 ^ 40] := by
  by_cases hreq : Restarts rx
  case pos =>
    have hstart := startTime_modEq w rx
    rw [enabled_request h hreq, off, if_pos hreq]
    generalize w.startsAfter rx.toRx = after at hstart ⊢
    rw [Int.ModEq] at hstart ⊢
    push_cast at hstart
    omega
  case neg =>
    rw [enabled, calls_adjust h hreq, off, if_neg hreq, Int.add_zero]
    rfl

/-- The window ends as it did exactly if the receiver is off for as long as `Fits` says. -/
lemma ends_iff (h : w.Receives rx) :
    (∃ timeout : UInt32, (w.calls rx).findSome? DevCall.timeout = some timeout ∧
      timeout ≠ 0 ∧ ∃ m : ℤ,
        |w.enabled rx + timeout.toNat * 2 ^ 16 - w.windowEnd - m * 2 ^ 40| ≤ 2 ^ 16) ↔
    if rx.rxtimestamp.toNat ≤ w.windowEnd % 2 ^ 40 ∧ 2 ^ 16 ≤ w.left rx then
      (w.off rx - w.left rx % 2 ^ 16 + 2 ^ 16) % 2 ^ 40 ≤ 2 * 2 ^ 16
    else (w.left rx - w.off rx) % 2 ^ 40 ≤ 2 * 2 ^ 16 := by
  obtain ⟨timeout, hset, htimeout⟩ := calls_timeout h
  have hpos := (newTimeout_lt h).1
  have hne : timeout ≠ 0 := by
    intro h0
    rw [← htimeout, h0] at hpos
    exact absurd hpos (by decide)
  have henabled := enabled_modEq h
  have hstamp := h.stamp
  rw [newTimeout_eq h.stamp] at htimeout
  simp only [hset, Option.some.injEq, exists_eq_left', hne, ne_eq, not_false_eq_true, true_and,
    Circle.exists_near_iff (show (0 : ℤ) < 2 ^ 40 by decide)]
  rw [Int.ModEq] at henabled
  by_cases hin : rx.rxtimestamp.toNat ≤ w.windowEnd % 2 ^ 40 ∧ 2 ^ 16 ≤ w.left rx
  case pos =>
    rw [if_pos hin]
    rw [left] at hin ⊢
    generalize w.off rx = off at henabled ⊢
    generalize w.windowEnd = windowEnd at htimeout hin ⊢
    omega
  case neg =>
    -- the timeout is the shortest one
    rw [if_neg hin]
    rw [left] at hin ⊢
    generalize w.off rx = off at henabled ⊢
    generalize w.windowEnd = windowEnd at htimeout hin ⊢
    omega

variable {net : Node → Prop} {rx0 copy : Rx} {waited waited' : Nat} {n : Node}

/-- The receiver is started before a response exactly if the tag waits no longer than the node does. -/
lemma restart_notAfter_iff (h0 : IsRequest rx0) (htag : Hears net rx0 waited rx.toRx)
    (hnode : Hears net rx0 waited' copy) {r : Response}
    (hr : r.dxTime.toNat + n.repeats copy ≡
      copy.rxtimestamp.toNat / 2 ^ 9 * 2 ^ 9 + n.toSlot copy [MOD 2 ^ 40]) :
    Circle.NotAfter (2 ^ 40) (startTime (Tag.restart w.cfg rx)) r.dxTime.toNat ↔
      Circle.NotAfter (2 ^ 40) (waited + w.startsAfter rx.toRx)
        (waited' + n.toSlot copy - n.repeats copy) := by
  have htime := htag.grain h0
  have hcopy := hnode.grain h0
  have hstart := startTime_modEq w rx
  apply Circle.notAfter_congr
  generalize w.startsAfter rx.toRx = after at hstart ⊢
  generalize n.repeats copy = repeats at hr ⊢
  generalize n.toSlot copy = slot at hr ⊢
  rw [Int.ModEq] at hstart ⊢
  rw [Nat.ModEq] at htime hcopy hr
  push_cast at hstart ⊢
  omega

/-- The receiver is on before every response exactly if the tag waits no longer than each node that
    responds. -/
lemma restarts_iff (h : w.Receives rx) :
    (∀ rx0 waited, IsRequest rx0 → Hears net rx0 waited rx.toRx →
      ∀ n waited' copy r, net n → Hears net rx0 waited' copy → n.respond copy = some r →
        Circle.NotAfter (2 ^ 40) (w.enabled rx) r.dxTime.toNat) ↔
    ∀ rx0 waited, IsRequest rx0 → Hears net rx0 waited rx.toRx →
      ∀ n waited' copy, net n → Hears net rx0 waited' copy → n.Takes copy →
        n.repeats copy ≤ copy.rxtimestamp.toNat →
        Circle.NotAfter (2 ^ 40) (waited + w.startsAfter rx.toRx)
          (waited' + n.toSlot copy - n.repeats copy) := by
  have hstart : ∀ rx0 waited, IsRequest rx0 → Hears net rx0 waited rx.toRx →
      w.enabled rx = startTime (Tag.restart w.cfg rx) := by
    intro rx0 waited h0 htag
    have hreq := htag.isRequest h0
    exact enabled_request h ⟨hreq.code, hreq.frameLen⟩
  constructor
  · intro hall rx0 waited h0 htag n waited' copy hn hnode htakes hle
    obtain ⟨r, hr, htime⟩ := (Node.respond_spec (hnode.isRequest h0) htakes).1 hle
    rw [← restart_notAfter_iff h0 htag hnode htime, ← hstart rx0 waited h0 htag]
    exact hall rx0 waited h0 htag n waited' copy r hn hnode hr
  · intro hall rx0 waited h0 htag n waited' copy r hn hnode hr
    have htakes : n.Takes copy := by
      by_contra hnot
      rw [Node.respond_of_not_takes hnot] at hr
      cases hr
    obtain ⟨hsome, hnone⟩ := Node.respond_spec (hnode.isRequest h0) htakes
    have hle : n.repeats copy ≤ copy.rxtimestamp.toNat := by
      by_contra hnot
      rw [hnone hnot] at hr
      cases hr
    obtain ⟨r', hr', htime⟩ := hsome hle
    obtain rfl := Option.some.inj (hr'.symm.trans hr)
    rw [hstart rx0 waited h0 htag, restart_notAfter_iff h0 htag hnode htime]
    exact hall rx0 waited h0 htag n waited' copy hn hnode htakes hle

/-- The callback keeps the window and starts the receiver in time exactly for receptions that fit. -/
theorem keeps_iff (h : w.Receives rx) : w.Keeps net rx ↔ w.Fits net rx := by
  constructor
  · rintro ⟨hends, hstarts⟩
    exact ⟨(ends_iff h).mp hends, (restarts_iff h).mp hstarts⟩
  · rintro ⟨hends, hstarts⟩
    exact ⟨(ends_iff h).mpr hends, (restarts_iff h).mpr hstarts⟩

/-- After a request whose receiver is off for three units or more, the window never ends as it did, as
    long as the counter does not turn and a unit is left. -/
theorem ends_late (h : w.Receives rx) (hle : rx.rxtimestamp.toNat ≤ w.windowEnd % 2 ^ 40)
    (hleft : 2 ^ 16 ≤ w.left rx) (hoff : 3 * 2 ^ 16 ≤ w.off rx) (hlt : w.off rx < 2 ^ 32) :
    ¬w.Keeps net rx := by
  intro hkeeps
  have hends := (ends_iff h).mp hkeeps.ends
  rw [if_pos ⟨hle, hleft⟩] at hends
  omega

/-- A request without repetitions, in a network with the delays of the tag, whose slots begin within
    65536 microseconds of it: the receiver is started in time. -/
lemma starts_of_single (hmax : rx.frame.rptMax = 0) (hnet : ∀ n, net n → n.cfg = w.cfg.toConfig)
    (hframe : 1 ≤ w.cfg.responseDuration.toNat + w.cfg.txGuardDelay.toNat)
    (hend : w.cfg.txHoldoffDelay.toNat + rx.frame.slotModulus.toNat *
      (w.cfg.responseDuration.toNat + w.cfg.txGuardDelay.toNat) < 2 ^ 16) :
    ∀ rx0 waited, IsRequest rx0 → Hears net rx0 waited rx.toRx →
      ∀ n waited' copy, net n → Hears net rx0 waited' copy → n.Takes copy →
        n.repeats copy ≤ copy.rxtimestamp.toNat →
        Circle.NotAfter (2 ^ 40) (waited + w.startsAfter rx.toRx)
          (waited' + n.toSlot copy - n.repeats copy) := by
  intro rx0 waited h0 htag n waited' copy hn hnode _ _
  have hmax0 : rx0.frame.rptMax = 0 := (htag.rptMax h0).symm.trans hmax
  obtain ⟨rfl, rfl⟩ := htag.of_rptMax_zero h0 hmax0
  obtain ⟨rfl, rfl⟩ := hnode.of_rptMax_zero h0 hmax0
  have hmaxn : rx.frame.rptMax.toNat = 0 := by
    rw [hmax]
    rfl
  have hcount : rx.frame.rptCount.toNat = 0 := by
    have hlevel := h0.level
    omega
  have hmod : 0 < rx.frame.slotModulus.toNat :=
    Nat.pos_of_ne_zero fun h => h0.slotModulus (UInt8.toNat_inj.mp h)
  have hslot := Nat.mod_lt n.dev.slotId.toNat hmod
  have hshr := w.cfg.shrDuration.toNat_lt
  rw [startsAfter, restartAfter, Node.toSlot, Node.repeats, hnet n hn, hmaxn, hcount]
  generalize n.dev.slotId.toNat % rx.frame.slotModulus.toNat = slot at hslot ⊢
  generalize w.cfg.responseDuration.toNat + w.cfg.txGuardDelay.toNat = frame at hframe hend ⊢
  have hfirst : frame ≤ (slot + 1) * frame := Nat.le_mul_of_pos_left frame (Nat.succ_pos slot)
  have hlast : (slot + 1) * frame ≤ rx.frame.slotModulus.toNat * frame :=
    Nat.mul_le_mul_right frame hslot
  generalize (slot + 1) * frame = after at hfirst hlast ⊢
  generalize rx.frame.slotModulus.toNat * frame = all at hlast hend
  push_cast
  apply Circle.notAfter_of_le
  · omega
  · omega

/-! ## A window that wraps -/

/-- A tag that has not heard anything. -/
def idleTag : Tag := ⟨1, 0, 0, none, fun _ => ⟨⟨0, 0, 0, 0, 0, 0⟩, 0, 0⟩⟩

/-- A window of 100 units from `delay` on. -/
def listening (delay : UInt64) : Listening where
  cfg := Tag.tagCfg
  dev := Tag.tagDev
  idle := idleTag
  delay := delay
  timeout := 100
  startRxError := false
  since := []
  waits := by decide
  once := List.forall_mem_nil _

/-- A frame for all, with a code and a time. -/
def frameAt (code : UInt16) (rxtimestamp : UInt64) : TagRx :=
  ⟨⟨fctrlRange16, requestSize, ⟨broadcastAddress, 2, code, 4, 0, 0⟩, rxtimestamp⟩, 0, false⟩

/-- The same with another delay between a request and what follows it. -/
def heldOff (txHoldoffDelay : UInt32) (delay : UInt64) : Listening :=
  { listening delay with
    cfg := { Tag.tagCfg with txHoldoffDelay := txHoldoffDelay } }

/-- A response five units after the start, and a request there with no relays and four slots, whose
    responses come at once. -/
theorem keeps_frames :
    (listening 0x1000000).Keeps (fun n => n.cfg = Tag.tagCfg.toConfig) (frameAt codeResp 0x1050000) ∧
    (heldOff 1 0x1000000).Keeps (fun n => n.cfg = (heldOff 1 0x1000000).cfg.toConfig)
      (frameAt codeRequest 0x1050000) := by
  have hresp : (listening 0x1000000).Receives (frameAt codeResp 0x1050000) :=
    ⟨by decide, .inr rfl, by decide, by decide⟩
  have hreq : (heldOff 1 0x1000000).Receives (frameAt codeRequest 0x1050000) :=
    ⟨by decide, .inl rfl, by decide, by decide⟩
  refine ⟨(keeps_iff hresp).mpr ⟨by decide, ?_⟩, (keeps_iff hreq).mpr ⟨by decide, ?_⟩⟩
  · intro rx0 waited h0 htag
    exact absurd (htag.isRequest h0).code (by decide)
  · exact starts_of_single rfl (fun _ hn => hn) (by decide) (by decide)

/-- The window ends 94 units early when the counter turns after the response. -/
theorem keeps_fails : ¬∀ (net : Node → Prop) (w : Listening) (rx : TagRx),
    w.Receives rx → w.Keeps net rx := by
  intro h
  have hreceives : (listening 0xFFFFF60000).Receives (frameAt codeResp 0xFFFFFB0000) :=
    ⟨by decide, .inr rfl, by decide, by decide⟩
  have hends := (ends_iff hreceives).mp (h (fun _ => False) _ _ hreceives).ends
  exact absurd hends (by decide)

/-! ## A response from behind a relay -/

/-- A request with one repetition, heard itself. -/
def repeated : TagRx :=
  ⟨⟨fctrlRange16, requestSize, ⟨broadcastAddress, 2, codeRequest, 4, 0, 1⟩, 0x1050000⟩, 0, false⟩

/-- A node with the delays of the tag. -/
def nodeAt (shortAddress : UInt16) : Node :=
  ⟨⟨⟨shortAddress, 0, 0⟩, ⟨0, 0, repeated.frame, none⟩, by decide⟩, Tag.tagCfg.toConfig⟩

/-- A node that hears the repetition responds 800 units before the receiver is started again. -/
theorem starts_late : ¬(listening 0x1000000).Keeps (fun _ => True) repeated := by
  intro h
  have h0 : IsRequest repeated.toRx := ⟨rfl, by decide, rfl, by decide, by decide, by decide⟩
  have hcopy : Hears (fun _ => True) repeated.toRx (0 + (nodeAt 4).wait repeated.toRx)
      ⟨fctrlRange16, requestSize, (cascade Tag.tagCfg.toConfig (nodeAt 4).dev repeated.toRx).frame,
        (cascade Tag.tagCfg.toConfig (nodeAt 4).dev repeated.toRx).txTimestamp &&& 0xFFFFFFFFFF⟩ :=
    .relayed (nodeAt 4) trivial .direct rfl
  have hreceives : (listening 0x1000000).Receives repeated :=
    ⟨by decide, .inl rfl, by decide, by decide⟩
  have hlate := (restarts_iff hreceives).mp h.starts _ _ h0 .direct (nodeAt 5) _ _ trivial hcopy
    (.inr rfl) (by decide)
  exact absurd hlate (by decide)

end Listening

end UwbCore.Rtdoa
