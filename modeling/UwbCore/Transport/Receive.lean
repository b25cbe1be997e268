import UwbCore.Lib.Run
import UwbCore.Lib.Table
import UwbCore.Transport.Framing

/-!
# Repeated frames

`rx_complete_cb` keeps the header of the frame it accepted last and the time, and discards a frame
with the same header less than 10 ms later. Run over the frames of any number of senders, with
buffers coming and going, this puts each frame on `rx_q` at most once and discards only copies of
frames that are there as long as every frame meets one condition on the frame accepted before it
(`noDupNoLoss_iff`).
-/

namespace UwbCore.Transport
open UwbCore.Lib

variable {D : Type} {cfg : Config}

/-- A frame on the air: its length and the memory it is received into. -/
structure AirFrame where
  len : UInt16
  bytes : Nat → UInt8

def AirFrame.header (f : AirFrame) : FrameHeader := readHeader f.bytes

/-- What the device reports of a frame received at a time. -/
def AirFrame.heard (f : AirFrame) (time : Nat) (autoack : Bool) : RxInfo :=
  ⟨f.header.fctrl, f.len, f.bytes, autoack, .ofNat time⟩

/-- A node and what became of the frames it heard. -/
structure RxWorld (D : Type) where
  node : Instance D
  now : Nat
  /-- when a frame was last heard -/
  copied : Table (Option Nat)
  /-- header and time of the frame accepted last -/
  last : Option (FrameHeader × Nat)
  /-- frames put on `rx_q` -/
  put : List Nat
  /-- frames discarded as repeated -/
  discarded : List Nat

/-- A frame is heard, or the node goes on in any other way: buffers are taken and freed, `rx_q` is
    emptied, packets are sent. -/
inductive RxEvent (D : Type) where
  | rx (id time : Nat) (autoack : Bool)
  | other (node : Instance D)

def RxWorld.init (dev : D) (uid panId : UInt16) (pool : Pool) : RxWorld D where
  node := .init dev uid panId pool
  now := 0
  copied := fun _ => none
  last := none
  put := []
  discarded := []

/-- A frame that `rx_complete_cb` takes unless it is repeated. -/
def isData (node : Instance D) (f : AirFrame) : Bool :=
  isTransportFctrl f.header.fctrl && isForUs node f.header

/-- A frame that it discards as repeated. -/
def isRepeated (cfg : Config) (node : Instance D) (f : AirFrame) (time : Nat) : Bool :=
  isData node f && isDuplicate cfg node (.ofNat time) f.header

def rxStep (cfg : Config) (frames : Nat → AirFrame) (w : RxWorld D) : RxEvent D → RxWorld D
  | .rx id time autoack =>
    let f := frames id
    let node := (rxCompleteCb cfg (f.heard time autoack) w.node).2
    let repeated := isRepeated cfg w.node f time
    { node := node
      now := time
      copied := w.copied.modify id fun _ => some time
      last := if isData w.node f && !repeated then some (f.header, time) else w.last
      put := if node.rxQ = w.node.rxQ then w.put else w.put ++ [id]
      discarded := if repeated then w.discarded ++ [id] else w.discarded }
  | .other node =>
    { w with node := { node with
        uid := w.node.uid, lastFrame := w.node.lastFrame, lastFrameTime := w.node.lastFrameTime } }

/-- No frame is put on `rx_q` twice, and none is discarded that is not there. -/
structure NoDupNoLoss (w : RxWorld D) : Prop where
  once : w.put.Nodup
  stored : ∀ id ∈ w.discarded, id ∈ w.put

/-- Time goes on, and a sender repeats a frame within 10 ms of its previous copy. -/
def SenderGuard (cfg : Config) (w : RxWorld D) : RxEvent D → Prop
  | .rx id time _ => w.now ≤ time ∧ ∀ t ∈ w.copied id, time < t + cfg.dupTicks.toNat
  | .other _ => True

/-- The frame accepted last has this header and was accepted less than 10 ms ago. -/
def Repeats (cfg : Config) (w : RxWorld D) (header : FrameHeader) (time : Nat) : Prop :=
  ∃ t, w.last = some (header, t) ∧ UInt32.ofNat time - UInt32.ofNat t < cfg.dupTicks

/-- The bytes of a frame that are stored. -/
def AirFrame.payloadLen (f : AirFrame) : Nat := (f.len - 13).toNat

/-- A frame that was put on `rx_q` repeats the one accepted last, or meets with no memory; one that
    was not does not repeat it. -/
def RxGuard (cfg : Config) (frames : Nat → AirFrame) (w : RxWorld D) : RxEvent D → Prop
  | .rx id time _ =>
    isData w.node (frames id) = true →
      (id ∈ w.put → Repeats cfg w (frames id).header time ∨
        ¬ HasMemory w.node.pool (frames id).payloadLen) ∧
      (id ∉ w.put → ¬ Repeats cfg w (frames id).header time)
  | .other _ => True

/-! ## What a reception does -/

variable {frames : Nat → AirFrame} {w : RxWorld D}

/-- A frame that is not taken leaves `rx_q` and the record of the last frame alone. -/
lemma rxCompleteCb_dropped {node : Instance D} {f : AirFrame} {time : Nat} (autoack : Bool)
    (h : isData node f = true → isRepeated cfg node f time = true) :
    let node' := (rxCompleteCb cfg (f.heard time autoack) node).2
    node'.rxQ = node.rxQ ∧ node'.lastFrame = node.lastFrame ∧
      node'.lastFrameTime = node.lastFrameTime ∧ node'.uid = node.uid := by
  dsimp only
  rw [rxCompleteCb]
  split
  · rw [Instance.signalAck]
    split
    · exact ⟨rfl, rfl, rfl, rfl⟩
    · exact ⟨rfl, rfl, rfl, rfl⟩
  · split
    · exact ⟨rfl, rfl, rfl, rfl⟩
    case isFalse hfctrl =>
      dsimp only
      split
      case isTrue htake =>
        exfalso
        simp only [Bool.and_eq_true, Bool.not_eq_true'] at htake
        have hdata : isData node f = true := by
          rw [isData, Bool.and_eq_true]
          exact ⟨Bool.of_not_eq_false fun he => hfctrl (by rw [AirFrame.heard, he]; rfl), htake.1⟩
        have hrep := h hdata
        rw [isRepeated, Bool.and_eq_true] at hrep
        exact absurd (hrep.2.symm.trans htake.2) (by decide)
      case isFalse => exact ⟨rfl, rfl, rfl, rfl⟩

/-- A frame that is taken is the last one accepted, and is put on `rx_q` if there is memory. -/
lemma rxCompleteCb_accepted {node : Instance D} {f : AirFrame} {time : Nat} (autoack : Bool)
    (h : isData node f = true) (hrep : isRepeated cfg node f time = false) :
    let node' := (rxCompleteCb cfg (f.heard time autoack) node).2
    (node'.rxQ = node.rxQ ↔ ¬ HasMemory node.pool f.payloadLen) ∧ node'.lastFrame = f.header ∧
      node'.lastFrameTime = .ofNat time ∧ node'.uid = node.uid := by
  have hdup : isDuplicate cfg node (.ofNat time) f.header = false := by
    rwa [isRepeated, h, Bool.true_and] at hrep
  rw [isData, Bool.and_eq_true] at h
  dsimp only
  have hlen : (f.heard time autoack).payload.length = f.payloadLen := by
    rw [RxInfo.payload, readBytes, List.length_map, List.length_range]
    rfl
  have htaken : rxCompleteCb cfg (f.heard time autoack) node = (true, _) :=
    rxCompleteCb_taken h.1 h.2 hdup
  rw [htaken, acceptFrame, ← hlen, ← storePayload_isSome]
  dsimp only
  cases storePayload node.pool (f.heard time autoack).payload with
  | none => exact ⟨by simp, rfl, rfl, rfl⟩
  | some mp => exact ⟨by simp, rfl, rfl, rfl⟩

/-! ## The record of the last frame -/

/-- The node remembers the frame accepted last, or none yet. -/
def RemembersLast (w : RxWorld D) : Prop :=
  match w.last with
  | none => isTransportFctrl w.node.lastFrame.fctrl = false
  | some (header, t) => w.node.lastFrame = header ∧ w.node.lastFrameTime = .ofNat t

/-- A frame for the node is discarded if and only if it repeats the one accepted last. -/
lemma RemembersLast.repeated_iff (h : RemembersLast w) {f : AirFrame} {time : Nat}
    (hd : isData w.node f = true) :
    isRepeated cfg w.node f time = true ↔ Repeats cfg w f.header time := by
  rw [isRepeated, hd, Bool.true_and, isDuplicate, Bool.and_eq_true, decide_eq_true_eq,
    beq_iff_eq, Repeats]
  rw [RemembersLast] at h
  cases hl : w.last with
  | none =>
    rw [hl] at h
    rw [isData, Bool.and_eq_true] at hd
    constructor
    · rintro ⟨-, he⟩
      exact absurd (h.symm.trans (he ▸ hd.1)) (by decide)
    · rintro ⟨t, ht, -⟩
      cases ht
  | some last =>
    rw [hl] at h
    obtain ⟨header, t⟩ := last
    obtain ⟨hh, ht⟩ := h
    rw [hh, ht]
    constructor
    · rintro ⟨hlt, rfl⟩
      exact ⟨t, rfl, hlt⟩
    · rintro ⟨t', he, hlt⟩
      cases he
      exact ⟨hlt, rfl⟩

/-- One step. -/
lemma RemembersLast.step (h : RemembersLast w) (e : RxEvent D) :
    RemembersLast (rxStep cfg frames w e) := by
  cases e with
  | other node => exact h
  | rx id time autoack =>
    rw [rxStep]
    by_cases htake : isData w.node (frames id) = true ∧
        isRepeated cfg w.node (frames id) time = false
    · obtain ⟨hd, hrep⟩ := htake
      obtain ⟨-, hlast, htime, -⟩ := rxCompleteCb_accepted autoack hd hrep
      rw [RemembersLast, hd, hrep]
      exact ⟨hlast, htime⟩
    · have hdrop : isData w.node (frames id) = true →
          isRepeated cfg w.node (frames id) time = true := fun hd =>
        Bool.of_not_eq_false fun hrep => htake ⟨hd, hrep⟩
      obtain ⟨-, hlast, htime, -⟩ := rxCompleteCb_dropped autoack hdrop
      rw [RemembersLast] at h ⊢
      have hcond : (isData w.node (frames id) && !isRepeated cfg w.node (frames id) time) = false := by
        rw [Bool.and_eq_false_iff, Bool.not_eq_false']
        exact (Bool.eq_false_or_eq_true _).symm.imp_right hdrop
      dsimp only
      rw [hcond, if_neg Bool.false_ne_true, hlast, htime]
      exact h

/-! ## The condition -/

/-- A step keeps the frames once each and without loss exactly under the condition. -/
lemma noDupNoLoss_step (hlink : RemembersLast w) (h : NoDupNoLoss w) (e : RxEvent D) :
    NoDupNoLoss (rxStep cfg frames w e) ↔ RxGuard cfg frames w e := by
  cases e with
  | other node => exact ⟨fun _ => trivial, fun _ => ⟨h.once, h.stored⟩⟩
  | rx id time autoack =>
    rw [RxGuard]
    by_cases hd : isData w.node (frames id) = true
    · rw [forall_prop_of_true hd, ← hlink.repeated_iff hd]
      cases hrep : isRepeated cfg w.node (frames id) time with
      | true =>
        obtain ⟨hq, -⟩ := rxCompleteCb_dropped autoack fun _ => hrep
        have hput : (rxStep cfg frames w (.rx id time autoack)).put = w.put := if_pos hq
        have hdisc : (rxStep cfg frames w (.rx id time autoack)).discarded = w.discarded ++ [id] :=
          if_pos hrep
        constructor
        · intro h'
          have hid : id ∈ w.put := by
            rw [← hput]
            exact h'.stored id (by rw [hdisc]; simp)
          exact ⟨fun _ => .inl rfl, fun hnot => absurd hid hnot⟩
        · rintro ⟨-, hnot⟩
          refine ⟨hput ▸ h.once, fun j hj => ?_⟩
          rw [hdisc, List.mem_append, List.mem_singleton] at hj
          rw [hput]
          rcases hj with hj | rfl
          · exact h.stored j hj
          · exact Classical.not_not.mp fun hj => hnot hj rfl
      | false =>
        obtain ⟨hq, -⟩ := rxCompleteCb_accepted autoack hd hrep
        have hdisc : (rxStep cfg frames w (.rx id time autoack)).discarded = w.discarded :=
          if_neg (by rw [hrep]; exact Bool.false_ne_true)
        by_cases hmem : HasMemory w.node.pool (frames id).payloadLen
        · have hput : (rxStep cfg frames w (.rx id time autoack)).put = w.put ++ [id] :=
            if_neg fun he => hq.mp he hmem
          constructor
          · intro h'
            have honce := h'.once
            rw [hput, List.nodup_append] at honce
            refine ⟨fun hid => absurd rfl (honce.2.2 id hid id (by simp)), fun _ => nofun⟩
          · rintro ⟨hnot, -⟩
            have hid : id ∉ w.put := fun hid => by
              rcases hnot hid with he | he
              · cases he
              · exact he hmem
            refine ⟨?_, fun j hj => ?_⟩
            · rw [hput]
              exact List.nodup_append.mpr ⟨h.once, by simp, fun a ha b hb => by
                rw [List.mem_singleton.mp hb]
                rintro rfl
                exact hid ha⟩
            · rw [hdisc] at hj
              rw [hput]
              exact List.mem_append_left _ (h.stored j hj)
        · have hput : (rxStep cfg frames w (.rx id time autoack)).put = w.put := if_pos (hq.mpr hmem)
          refine iff_of_true ⟨hput ▸ h.once, fun j hj => ?_⟩ ⟨fun _ => .inr hmem, fun _ => nofun⟩
          rw [hdisc] at hj
          exact hput ▸ h.stored j hj
    · have hrep : isRepeated cfg w.node (frames id) time = false := by
        rw [isRepeated, Bool.eq_false_of_not_eq_true hd, Bool.false_and]
      obtain ⟨hq, -⟩ := rxCompleteCb_dropped (f := frames id) autoack fun hd' => absurd hd' hd
      have hput : (rxStep cfg frames w (.rx id time autoack)).put = w.put := if_pos hq
      have hdisc : (rxStep cfg frames w (.rx id time autoack)).discarded = w.discarded :=
        if_neg (by rw [hrep]; exact Bool.false_ne_true)
      refine iff_of_true ⟨hput ▸ h.once, fun j hj => ?_⟩ fun hd' => absurd hd' hd
      rw [hdisc] at hj
      exact hput ▸ h.stored j hj

/-- A list of events keeps frames once each and without loss, all the way, if and only if every
    event meets the condition. -/
theorem noDupNoLoss_iff (cfg : Config) (frames : Nat → AirFrame) (dev : D) (uid panId : UInt16)
    (pool : Pool) (es : List (RxEvent D)) :
    (∀ n, NoDupNoLoss ((es.take n).foldl (rxStep cfg frames) (.init dev uid panId pool))) ↔
      Allowed (rxStep cfg frames) (RxGuard cfg frames) (.init dev uid panId pool) es := by
  refine (allowed_iff_along (P := NoDupNoLoss) (I := RemembersLast) (fun _ e h => h.step e)
    (fun _ e hi h => noDupNoLoss_step hi h e) es ?_ ?_).symm
  · show isTransportFctrl 0 = false
    decide
  · exact ⟨List.nodup_nil, nofun⟩

/-- A node without buffers. -/
def noMemoryNode : RxWorld (Nat → UInt8) := .init (fun _ => 0) 0x20 0xdeca ⟨0, 560, 48⟩

/-- A frame is heard while there are no buffers, and again 1 ms later when there are. -/
def lateMemory : List (RxEvent (Nat → UInt8)) :=
  [.rx 0 1000 true, .other (freshNode 0x20), .rx 0 2000 true]

/-- The second copy is discarded though the frame was not stored. -/
theorem noDupNoLoss_fails :
    ¬ ∀ w, Reach (rxStep .dflt fun _ => ⟨15, twoBytesWritten.dev⟩) (SenderGuard .dflt)
      noMemoryNode w → NoDupNoLoss w := by
  intro h
  have hall : Allowed (rxStep .dflt fun _ => ⟨15, twoBytesWritten.dev⟩) (SenderGuard .dflt)
      noMemoryNode lateMemory := by
    refine ⟨⟨by decide +kernel, by decide +kernel⟩, trivial, ⟨by decide +kernel, ?_⟩, trivial⟩
    decide +kernel
  have hloss := h _ (Reach.of_allowed hall)
  exact absurd (hloss.stored 0 (by decide +kernel)) (by decide +kernel)

end UwbCore.Transport
