import UwbCore.Lib.Scan
import UwbCore.Lib.Table

/-!
# Reception of PAN frames

`rx_complete_cb` and `handle_pan_request` of `uwb_pan.c`. A received frame is copied over the frame
that is in the ring, and looked at there. Its length is bounded from above only, so the fields of a
short frame are those of the frame that was there before. What a frame brings about rests on the
bytes received exactly when the frame is long enough for the fields that are used
(`receivedOnly_iff`); then it does not depend on what was in the ring.
-/

namespace UwbCore.Pan
open UwbCore.Lib UwbCore.Lib.Scan

/-- C `enum uwb_pan_role_t`. -/
inductive Role where
  | invalid | master | slave | relay
  deriving DecidableEq, Repr

/-- `FCNTL_IEEE_BLINK_TAG_64`. -/
def blinkTag : UInt8 := 0x56

/-- `DWT_PAN_REQ`, `DWT_PAN_RESP` and `DWT_PAN_RESET`. -/
def panReq : UInt16 := 1
def panResp : UInt16 := 2
def panReset : UInt16 := 3

/-- `sizeof(union pan_frame_t)`: the blink in bytes 0 to 9, `rpt_count` and `rpt_max` in byte 10, the
    code from 11 on, and from 13 on `struct pan_req_resp`. -/
def frameSize : Nat := 25

/-- C `struct pan_req_resp` as a request. -/
structure PanReq where
  role : UInt16
  leaseTime : UInt16
  fwVer : List UInt8

/-- C `struct pan_req_resp` as a response. -/
structure PanResp where
  role : UInt16
  leaseTime : UInt16
  panId : UInt16
  shortAddress : UInt16
  slotId : UInt16

/-- The number of frames in the ring, and `pan->request_cb`, which fills the response or returns
    false. -/
structure Config where
  nframes : Nat
  requestCb : Option (UInt64 → PanReq → Option PanResp)

/-- What the callbacks change of the device: its address and slot, the status, and the time in
    milliseconds that the lease timer was started with. -/
structure Device where
  uid : UInt16
  panId : UInt16
  slotId : UInt16
  valid : Bool
  leaseExpired : Bool
  lease : Option UInt32
  deriving DecidableEq, Repr

/-- C `struct uwb_pan_instance`. -/
structure Instance where
  role : Role
  myLongAddress : UInt64
  device : Device
  startTxError : Bool
  sem : Nat
  idx : UInt16
  frames : Table (Nat → UInt8)

/-- What the device reports of the frame received; `sinceEpoch` is the correction of the lease in
    microseconds, 0 without CCP. -/
structure RxInfo where
  fctrl0 : UInt8
  frameLen : UInt16
  rxbuf : Nat → UInt8
  sinceEpoch : UInt32
  startTxError : Bool

/-- What is done about a frame in the ring. -/
inductive Action where
  /-- return at once -/
  | leave (ret : Bool)
  /-- a request, but no callback to serve it -/
  | pass
  | request (reply : Option (List UInt8))
  | response (uid panId slotId leaseTime : UInt16)
  | reset

/-- The action is one that a frame must bring all its fields for. -/
def Action.acts : Action → Bool
  | .leave _ | .pass => false
  | .request _ | .response .. | .reset => true

/-- What a reception leaves behind. -/
structure Effect where
  node : Instance
  ret : Bool
  relayed : Option (List UInt8)
  reply : Option (List UInt8)

/-- The first 4 bits of byte 10. -/
def rptCount (b : UInt8) : UInt8 := b &&& 0x0f
def rptMax (b : UInt8) : UInt8 := b >>> 4

/-- The condition for the relay. -/
def relayScan (n : Instance) : Scan Bool := do
  if n.role = .relay then
    let b ← u8 10
    if rptCount b < rptMax b then
      let longAddress ← u64 2
      return longAddress ≠ n.myLongAddress
    else return false
  else return false

def scanReq : Scan PanReq := do
  let role ← u16 13
  let leaseTime ← u16 15
  let fwVer ← bytes 17 8
  return ⟨role, leaseTime, fwVer⟩

/-- C `handle_pan_request`: the response is written over the request, and the frame is sent as it is
    then. -/
def handleRequestScan (cb : UInt64 → PanReq → Option PanResp) : Scan Action := do
  let longAddress ← u64 2
  let req ← scanReq
  match cb longAddress req with
  | none => return .request none
  | some resp =>
    let head ← bytes 0 11
    let padding ← bytes 23 2
    return .request (some (head ++ le16 panResp ++ le16 resp.role ++ le16 resp.leaseTime ++
      le16 resp.panId ++ le16 resp.shortAddress ++ le16 resp.slotId ++ padding))

def responseScan (n : Instance) : Scan Action := do
  let longAddress ← u64 2
  if longAddress = n.myLongAddress then
    let uid ← u16 19
    let panId ← u16 17
    let slotId ← u16 21
    let leaseTime ← u16 15
    return .response uid panId slotId leaseTime
  else return .leave true

/-- The `switch` on the code of the frame. -/
def switchScan (cfg : Config) (n : Instance) (code : UInt16) : Scan Action :=
  if code = panReq then
    if n.role = .master then
      match cfg.requestCb with
      | none => return .pass
      | some cb => handleRequestScan cb
    else return .leave true
  else if code = panResp then responseScan n
  else if code = panReset ∧ n.role ≠ .master then return .reset
  else return .leave false

def dispatchScan (cfg : Config) (n : Instance) : Scan Action := do
  let code ← u16 11
  switchScan cfg n code

/-- The milliseconds of a lease. -/
def leaseMs (leaseTime : UInt16) (sinceEpoch : UInt32) : UInt32 :=
  (leaseTime.toUInt32 * 1000000 - sinceEpoch) / 1000

/-- The device after an action. -/
def Device.after (d : Device) (sinceEpoch : UInt32) : Action → Device
  | .response uid panId slotId leaseTime =>
    { uid := uid, panId := panId, slotId := slotId, valid := true, leaseExpired := false
      lease := if 0 < leaseTime then some (leaseMs leaseTime sinceEpoch) else none }
  | .reset => { d with valid := false, leaseExpired := true, slotId := 0xffff, lease := none }
  | .leave _ | .pass | .request _ => d

/-- The count of the semaphore after an action, and what the callback returns. A reset leaves the
    semaphore as it is: it runs into the default case. -/
def Action.finish (sem : Nat) : Action → Nat × Bool
  | .leave ret => (sem, ret)
  | .reset => (sem, false)
  | .pass | .request _ | .response .. => (if sem = 0 then sem + 1 else sem, true)

/-- The index of the frame in use. -/
def slot (cfg : Config) (n : Instance) : Nat := n.idx.toNat % cfg.nframes

/-- A frame that is copied into the ring. -/
def Taken (rx : RxInfo) (n : Instance) : Prop :=
  rx.fctrl0 = blinkTag ∧ n.sem ≠ 1 ∧ rx.frameLen.toNat ≤ frameSize

instance decidableTaken (rx : RxInfo) (n : Instance) : Decidable (Taken rx n) :=
  inferInstanceAs (Decidable (_ ∧ _ ∧ _))

/-- The frame in the ring after the copy. -/
def copied (cfg : Config) (rx : RxInfo) (n : Instance) : Nat → UInt8 :=
  overlay (n.frames (slot cfg n)) rx.rxbuf rx.frameLen.toNat

def relays (cfg : Config) (rx : RxInfo) (n : Instance) : Bool :=
  (relayScan n).run (copied cfg rx n)

/-- The frame in the ring after the relay, which counts itself. -/
def relayed (cfg : Config) (rx : RxInfo) (n : Instance) : Nat → UInt8 := fun i =>
  if relays cfg rx n ∧ i = 10 then copied cfg rx n 10 + 1 else copied cfg rx n i

def action (cfg : Config) (rx : RxInfo) (n : Instance) : Action :=
  (dispatchScan cfg n).run (relayed cfg rx n)

def Action.reply : Action → Option (List UInt8)
  | .request reply => reply
  | _ => none

/-- What a reply leaves in the ring. -/
def Action.written (mem : Nat → UInt8) : Action → Nat → UInt8
  | .request (some reply) => fun i => reply[i]?.getD (mem i)
  | .request none => fun i => (if i = 11 ∨ i = 12 then (le16 panResp)[i - 11]? else none).getD (mem i)
  | _ => mem

/-- C `rx_complete_cb`. -/
def rxCompleteCb (cfg : Config) (rx : RxInfo) (n : Instance) : Effect :=
  if rx.fctrl0 ≠ blinkTag then
    ⟨{ n with sem := if n.sem = 0 then n.sem + 1 else n.sem }, false, none, none⟩
  else if n.sem = 1 then ⟨n, false, none, none⟩
  else if frameSize < rx.frameLen.toNat then ⟨n, false, none, none⟩
  else
    let a := action cfg rx n
    { node := { n with
        frames := n.frames.modify (slot cfg n) fun _ => a.written (relayed cfg rx n)
        device := n.device.after rx.sinceEpoch a
        sem := (a.finish n.sem).1
        startTxError :=
          if relays cfg rx n || a.reply.isSome then rx.startTxError else n.startTxError }
      ret := (a.finish n.sem).2
      relayed :=
        if relays cfg rx n then some (readBytes (relayed cfg rx n) 0 rx.frameLen.toNat) else none
      reply := a.reply }

/-! ## What rests on the bytes received -/

def code (mem : Nat → UInt8) : UInt16 := read16 mem 11
def longAddress (mem : Nat → UInt8) : UInt64 := ofLe64 (readBytes mem 2 8)

/-- A relay and an action read nothing behind the bytes received; the device and the reply after an
    action are the same for every former content of the ring. -/
def ReceivedOnly (cfg : Config) (rx : RxInfo) (n : Instance) : Prop :=
  Taken rx n →
    (relays cfg rx n = true → (relayScan n).Within (copied cfg rx n) rx.frameLen.toNat) ∧
    ((action cfg rx n).acts = true →
      (dispatchScan cfg n).Within (relayed cfg rx n) rx.frameLen.toNat ∧
      ∀ frames,
        (rxCompleteCb cfg rx { n with frames := frames }).node.device =
            (rxCompleteCb cfg rx n).node.device ∧
          (rxCompleteCb cfg rx { n with frames := frames }).reply = (rxCompleteCb cfg rx n).reply)

/-- The frame has the fields that a relay, a request that is served, a response for this node and a
    reset use. -/
def LongEnough (cfg : Config) (rx : RxInfo) (n : Instance) : Prop :=
  Taken rx n →
    (n.role = .relay ∧ rptCount (copied cfg rx n 10) < rptMax (copied cfg rx n 10) ∧
      longAddress (copied cfg rx n) ≠ n.myLongAddress → 11 ≤ rx.frameLen.toNat) ∧
    (code (copied cfg rx n) = panReq ∧ n.role = .master ∧ cfg.requestCb.isSome = true →
      frameSize ≤ rx.frameLen.toNat) ∧
    (code (copied cfg rx n) = panResp ∧ longAddress (copied cfg rx n) = n.myLongAddress →
      23 ≤ rx.frameLen.toNat) ∧
    (code (copied cfg rx n) = panReset ∧ n.role ≠ .master → 13 ≤ rx.frameLen.toNat)

instance decidableLongEnough (cfg : Config) (rx : RxInfo) (n : Instance) :
    Decidable (LongEnough cfg rx n) :=
  inferInstanceAs (Decidable (_ → (_ ∧ _ ∧ _ → _) ∧ (_ ∧ _ ∧ _ → _) ∧ (_ ∧ _ → _) ∧ (_ ∧ _ → _)))

section
variable {cfg : Config} {rx : RxInfo} {n : Instance} {mem : Nat → UInt8} {len : Nat}

/-- When a frame is relayed. -/
lemma run_relayScan :
    (relayScan n).run mem = true ↔ n.role = .relay ∧ rptCount (mem 10) < rptMax (mem 10) ∧
      longAddress mem ≠ n.myLongAddress := by
  unfold relayScan longAddress
  by_cases hr : n.role = .relay
  case neg => simp [hr]
  case pos =>
    rw [if_pos hr, run_bind, run_u8]
    by_cases hc : rptCount (mem 10) < rptMax (mem 10)
    case neg => simp [hc]
    case pos => simp [hr, hc]

/-- The condition for a relay reads the first 11 bytes at most. -/
lemma within_relayScan (h : 11 ≤ len) : (relayScan n).Within mem len := by
  unfold relayScan
  split
  case isFalse => exact within_pure _
  case isTrue =>
    rw [within_bind, within_u8]
    refine ⟨by omega, ?_⟩
    split
    case isFalse => exact within_pure _
    case isTrue =>
      rw [within_bind, within_u64]
      exact ⟨by omega, within_pure _⟩

/-- A relay has read them all. -/
lemma relay_iff :
    ((relayScan n).run mem = true → (relayScan n).Within mem len) ↔
      (n.role = .relay ∧ rptCount (mem 10) < rptMax (mem 10) ∧
        longAddress mem ≠ n.myLongAddress → 11 ≤ len) := by
  rw [run_relayScan]
  refine imp_congr_right fun ⟨hr, _⟩ => ⟨fun h => ?_, within_relayScan⟩
  unfold relayScan at h
  rw [if_pos hr, within_bind, within_u8] at h
  omega

/-- A request has the size of a frame. -/
lemma within_scanReq : Within mem len scanReq ↔ frameSize ≤ len := by
  simp only [scanReq, within_bind, within_u16, within_bytes, within_pure, frameSize, and_true]
  omega

/-- A request that is served is read to its end. -/
lemma within_handleRequestScan {cb : UInt64 → PanReq → Option PanResp} :
    (handleRequestScan cb).Within mem len ↔ frameSize ≤ len := by
  unfold handleRequestScan
  rw [within_bind, within_bind, within_u64, within_scanReq]
  unfold frameSize
  refine ⟨fun h => h.2.1, fun h => ⟨by omega, h, ?_⟩⟩
  split
  case h_1 => exact within_pure _
  case h_2 =>
    simp only [within_bind, within_bytes, within_pure, and_true]
    omega

/-- A request is always answered. -/
lemma handleRequestScan_acts {cb : UInt64 → PanReq → Option PanResp} :
    ((handleRequestScan cb).run mem).acts = true := by
  unfold handleRequestScan
  rw [run_bind, run_bind]
  split <;> rfl

/-- A response is for the node with its address, and read as far as the slot. -/
lemma response_iff :
    (((responseScan n).run mem).acts = true → 13 ≤ len ∧ (responseScan n).Within mem len) ↔
      (longAddress mem = n.myLongAddress → 23 ≤ len) := by
  have ha : ofLe64 (readBytes mem 2 8) = longAddress mem := rfl
  unfold responseScan
  rw [run_bind, within_bind, run_u64, within_u64, ha]
  by_cases hm : longAddress mem = n.myLongAddress
  case neg =>
    rw [if_neg hm]
    exact iff_of_true (fun h => absurd h Bool.false_ne_true) fun h => absurd h hm
  case pos =>
    rw [if_pos hm, forall_prop_of_true hm]
    simp only [run_bind, run_pure, within_bind, within_u16, within_pure, and_true, Action.acts,
      true_imp_iff]
    omega

/-- A request is read within its bytes exactly if it has the size of a frame. -/
lemma request_iff :
    (((switchScan cfg n panReq).run mem).acts = true →
        13 ≤ len ∧ (switchScan cfg n panReq).Within mem len) ↔
      (n.role = .master ∧ cfg.requestCb.isSome = true → frameSize ≤ len) := by
  unfold switchScan
  rw [if_pos rfl]
  by_cases hr : n.role = .master
  case neg =>
    rw [if_neg hr]
    exact iff_of_true (fun h => absurd h Bool.false_ne_true) fun h => absurd h.1 hr
  case pos =>
    rw [if_pos hr]
    cases cfg.requestCb with
    | none =>
      exact iff_of_true (fun h => absurd h Bool.false_ne_true)
        fun h => absurd h.2 Bool.false_ne_true
    | some cb =>
      dsimp only
      rw [handleRequestScan_acts, within_handleRequestScan, forall_prop_of_true rfl,
        forall_prop_of_true ⟨hr, rfl⟩]
      unfold frameSize
      omega

/-- An action has read the fields it uses. -/
lemma dispatch_iff :
    (((dispatchScan cfg n).run mem).acts = true → (dispatchScan cfg n).Within mem len) ↔
      (code mem = panReq ∧ n.role = .master ∧ cfg.requestCb.isSome = true → frameSize ≤ len) ∧
      (code mem = panResp ∧ longAddress mem = n.myLongAddress → 23 ≤ len) ∧
      (code mem = panReset ∧ n.role ≠ .master → 13 ≤ len) := by
  have hc : read16 mem 11 = code mem := rfl
  have hne : panReq ≠ panResp ∧ panReq ≠ panReset ∧ panResp ≠ panReset := by decide
  unfold dispatchScan
  rw [run_bind, within_bind, run_u16, within_u16, hc]
  by_cases hreq : code mem = panReq
  case pos =>
    rw [hreq]
    refine request_iff.trans ⟨fun h => ⟨fun h' => h h'.2, ?_, ?_⟩, fun h h' => h.1 ⟨rfl, h'⟩⟩
    · exact fun h' => absurd h'.1 hne.1
    · exact fun h' => absurd h'.1 hne.2.1
  case neg =>
    rw [and_iff_right (b := _ ∧ _) fun h => absurd h.1 hreq, switchScan, if_neg hreq]
    by_cases hresp : code mem = panResp
    case pos =>
      rw [if_pos hresp, hresp]
      refine response_iff.trans ⟨fun h => ⟨fun h' => h h'.2, ?_⟩, fun h h' => h.1 ⟨rfl, h'⟩⟩
      exact fun h' => absurd h'.1 hne.2.2
    case neg =>
      rw [if_neg hresp, and_iff_right (b := _ → _) fun h => absurd h.1 hresp]
      by_cases hreset : code mem = panReset ∧ n.role ≠ .master
      case pos =>
        rw [if_pos hreset, forall_prop_of_true hreset]
        exact ⟨fun h => (h rfl).1, fun h _ => ⟨h, within_pure _⟩⟩
      case neg =>
        rw [if_neg hreset]
        exact iff_of_true (fun h => absurd h Bool.false_ne_true) fun h => absurd h hreset

/-! ## What was in the ring before -/

variable (cfg rx n) in
/-- The relay changes the count only. -/
lemma relayed_of_ne {i : Nat} (h : i ≠ 10) : relayed cfg rx n i = copied cfg rx n i :=
  if_neg fun hi => h hi.2

variable (cfg rx n) in
/-- A relayed frame keeps its code and its address. -/
lemma relayed_fields : code (relayed cfg rx n) = code (copied cfg rx n) ∧
    longAddress (relayed cfg rx n) = longAddress (copied cfg rx n) := by
  have h {i : Nat} (hi : i ≠ 10) := relayed_of_ne cfg rx n hi
  refine ⟨?_, ?_⟩
  · unfold code read16
    rw [h (by decide), h (by decide)]
  · unfold longAddress readBytes
    refine congrArg ofLe64 (List.map_congr_left fun i hi => h ?_)
    have := List.mem_range.mp hi
    omega

/-- With the code among the bytes received, the frame in the ring has the same bytes below the length
    whatever was there before. -/
lemma relayed_eq (h : 13 ≤ rx.frameLen.toNat) (frames : Table (Nat → UInt8)) {i : Nat}
    (hi : i < rx.frameLen.toNat) :
    relayed cfg rx { n with frames := frames } i = relayed cfg rx n i := by
  have hcopied {i : Nat} (hi : i < rx.frameLen.toNat) :
      copied cfg rx { n with frames := frames } i = copied cfg rx n i :=
    (if_pos hi).trans (if_pos hi).symm
  have hrelays : relays cfg rx { n with frames := frames } = relays cfg rx n :=
    (run_congr fun j hj => hcopied (within_relayScan (by omega) j hj)).1
  unfold relayed
  rw [hrelays, hcopied hi, hcopied (by omega)]

/-- An action that has read within the bytes received is the same whatever was in the ring. -/
lemma action_eq (h : 13 ≤ rx.frameLen.toNat)
    (hw : (dispatchScan cfg n).Within (relayed cfg rx n) rx.frameLen.toNat)
    (frames : Table (Nat → UInt8)) : action cfg rx { n with frames := frames } = action cfg rx n :=
  (run_congr fun i hi => relayed_eq h frames (hw i hi)).1

variable (cfg) in
/-- A frame that is taken changes the device by the action only. -/
lemma rxCompleteCb_taken (h : Taken rx n) :
    (rxCompleteCb cfg rx n).node.device = n.device.after rx.sinceEpoch (action cfg rx n) ∧
      (rxCompleteCb cfg rx n).reply = (action cfg rx n).reply := by
  obtain ⟨hf, hs, hl⟩ := h
  unfold rxCompleteCb
  rw [if_neg (not_not.mpr hf), if_neg hs, if_neg (by omega)]
  exact ⟨rfl, rfl⟩

end

/-- What a reception brings about rests on the bytes received alone exactly when the frame is long
    enough. -/
theorem receivedOnly_iff (cfg : Config) (rx : RxInfo) (n : Instance) :
    ReceivedOnly cfg rx n ↔ LongEnough cfg rx n := by
  obtain ⟨hcode, haddr⟩ := relayed_fields cfg rx n
  unfold ReceivedOnly LongEnough
  refine imp_congr_right fun ht => and_congr relay_iff ?_
  rw [← hcode, ← haddr, ← dispatch_iff]
  refine ⟨fun h ha => (h ha).1, fun h ha => ⟨h ha, fun frames => ?_⟩⟩
  have hw := h ha
  have h13 : 13 ≤ rx.frameLen.toNat := by
    unfold dispatchScan at hw
    rw [within_bind, within_u16] at hw
    exact hw.1
  have ht' : Taken rx { n with frames := frames } := ht
  obtain ⟨hdev, hrep⟩ := rxCompleteCb_taken cfg ht
  obtain ⟨hdev', hrep'⟩ := rxCompleteCb_taken cfg ht'
  rw [hdev, hrep, hdev', hrep', action_eq h13 hw]
  exact ⟨rfl, rfl⟩

/-- A slave whose frame in the ring is a reset. -/
def afterReset : Instance where
  role := .slave
  myLongAddress := 0x55
  device := ⟨0x1234, 0xDECA, 3, true, false, some 3600000⟩
  startTxError := false
  sem := 0
  idx := 0
  frames := fun _ i => if i = 0 then blinkTag else if i = 11 then 3 else 0

/-- The blink of a tag, ten bytes. -/
def blinkRx : RxInfo where
  fctrl0 := blinkTag
  frameLen := 10
  rxbuf := fun i => [blinkTag, 1, 0x77, 0, 0, 0, 0, 0, 0, 0].getD i 0
  sinceEpoch := 0
  startTxError := false

/-- The blink is taken for another reset, and the slave loses its slot. -/
theorem receivedOnly_fails :
    ¬ (∀ (cfg : Config) (rx : RxInfo) (n : Instance), ReceivedOnly cfg rx n) ∧
      (rxCompleteCb ⟨2, none⟩ blinkRx afterReset).node.device.slotId = 0xffff := by
  refine ⟨fun h => ?_, by decide +kernel⟩
  obtain ⟨-, ha⟩ := h ⟨2, none⟩ blinkRx afterReset (by decide)
  obtain ⟨-, -, hlen⟩ := dispatch_iff.mp fun hacts => (ha hacts).1
  exact absurd (hlen (by decide +kernel)) (by decide)

end UwbCore.Pan
