import UwbCore.Lib.Log
import UwbCore.Lib.Ring
import UwbCore.Nrng.Address
import UwbCore.Nrng.Ranges

/-!
# Rounds of requests and answers

A requester of a cell goes through rounds: a request, the answers of some of the responders it
selects, and the timeout. After each round the ranges are read from the ring. A frame counts as an
answer by its code and its 8-bit sequence number, and the places of the responders that stay silent
keep what they had before.
-/

namespace UwbCore.Nrng
open UwbCore.Lib

/-- The answer of a selected responder: when it hears the request, and what the radio of the requester
    reports with the response. -/
structure Answer (cfg : Cfg) (slotMask dstAddress cellId : UInt16) where
  responder : Responder cfg dstAddress cellId
  selected : slotMask.toNat.testBit responder.slot = true
  heard : BitVec 40
  timestamp : BitVec 40
  ldeError : Bool
  carrierIntegrator : BitVec 32

/-- What the requester receives of an answer. -/
def Answer.rx {cfg : Cfg} {slotMask dstAddress cellId : UInt16}
    (a : Answer cfg slotMask dstAddress cellId) (req : Frame) : Option Rx :=
  (a.responder.reply req a.heard).map fun p =>
    ⟨responseLen, p.frame, a.timestamp, a.ldeError, a.carrierIntegrator⟩

/-- A request to at most as many responders as the ring has frames, the answers to it, and the size of
    the vector for the ranges. -/
structure Round (cfg : Cfg) where
  slotMask : UInt16
  dstAddress : UInt16
  cellId : UInt16
  cellId_lt : cellId.toNat < 2 ^ 14
  fits : numberOfBits slotMask.toNat ≤ cfg.nframes
  txtime : BitVec 40
  answers : List (Answer cfg slotMask dstAddress cellId)
  nranges : Nat
  nranges_ge : 16 ≤ nranges

namespace Round
variable {cfg : Cfg} (dev : Dev) (r : Round cfg) (n : Node)

/-- The request of the round. -/
def request : Frame :=
  (n.request cfg dev r.dstAddress codeSsTwrNrng r.slotMask r.cellId).2.frame

/-- What is received in the round. -/
def received : List Rx := r.answers.filterMap (·.rx (r.request dev n))

/-- What happens at the requester. -/
def events : List Event :=
  .request r.dstAddress codeSsTwrNrng r.slotMask r.cellId false r.txtime ::
    (r.received dev n).map .receive ++ [.timeout]

def run : Node := (r.events dev n).foldl (Node.step cfg dev) n

/-- The last answer of slot `i`. -/
def answerOf (req : Frame) (i : Nat) : Option Rx :=
  lastWrite (fun a => if a.responder.slot = i then a.rx req else none) r.answers

/-- The requester during the round, before any answer. -/
def opened : Node :=
  { (n.request cfg dev r.dstAddress codeSsTwrNrng r.slotMask r.cellId).1 with txtime := r.txtime }

/-- Whether the frame of slot `i` before the round passes for an answer in it. -/
def Stale (i : Nat) : Prop :=
  let idx := n.idx + .ofNat (numberOfBits r.slotMask.toNat)
  let frame := n.frames ((idx.toNat + rank r.slotMask.toNat i) % cfg.nframes)
  frame.code = codeSsTwrNrngFinal ∧ frame.seqNum = n.seqNum + 1

/-- Every selected slot that is not answered, but the first, has a place in the ring that does not pass
    for an answer. -/
def Fresh : Prop :=
  ∀ i < 16, r.slotMask.toNat.testBit i = true → (∀ a ∈ r.answers, a.responder.slot ≠ i) →
    0 < rank r.slotMask.toNat i → ¬r.Stale n i

/-- What `nrng_get_ranges` is to return after the round, called with `nrng->idx`: the mask of the slots
    that were answered, and the ranges of the answers in the order of the slots. -/
def Reported (m : Node) (req : Frame) (skew : BitVec 32 → ℚ) : Prop :=
  ∃ mask ranges, m.getRanges cfg skew r.nranges m.idx = some (mask, ranges) ∧
    (∀ i, mask.testBit i = true ↔ ∃ a ∈ r.answers, a.responder.slot = i) ∧
    ranges = (List.range 16).filterMap fun i => (r.answerOf req i).map fun rx =>
      Node.range cfg skew (Node.finalFrame cfg dev r.txtime .init rx)

end Round

/-- The members of a list that pass a test, mapped, are those that a partial map is defined on. -/
lemma filter_map_eq_filterMap {α β : Type*} {p : α → Bool} {f : α → β} {g : α → Option β}
    {l : List α} (h : ∀ x ∈ l, g x = if p x = true then some (f x) else none) :
    (l.filter p).map f = l.filterMap g := by
  induction l with
  | nil => rfl
  | cons x l ih =>
    have hx := h x (by simp)
    have hl := ih fun y hy => h y (by simp [hy])
    cases hp : p x <;> simp [hp, hx, hl]

/-- A partial map that is not defined past `k` needs to be taken up to `k` only. -/
lemma filterMap_range_of_le {β : Type*} {g : Nat → Option β} {k n : Nat} (hk : k ≤ n)
    (h : ∀ i, k ≤ i → g i = none) : (List.range n).filterMap g = (List.range k).filterMap g := by
  induction n, hk using Nat.le_induction with
  | base => rfl
  | succ n hn ih => simp [List.range_succ, List.filterMap_append, ih, h n hn]

/-- A response to the request of a node, as its handler wants it. -/
structure Rx.Answers (rx : Rx) (dev : Dev) (seqNum : UInt8) : Prop where
  len : rx.len = responseLen
  fctrl : rx.frame.fctrl = fctrlRange16
  seqNum : rx.frame.seqNum = seqNum
  dstAddress : rx.frame.dstAddress = dev.myShortAddress
  code : rx.frame.code = codeSsTwrNrngT1

/-- The responses of a round, stored one after another. -/
def Node.store (cfg : Cfg) (dev : Dev) (n : Node) (rxs : List Rx) : Table Frame :=
  rxs.foldl (fun t rx => t.modify (n.place cfg rx.frame.slotId.toNat)
    (Node.finalFrame cfg dev n.txtime · rx)) n.frames

section Store
variable (cfg : Cfg) (dev : Dev)

/-- An answer is stored in its slot. -/
lemma step_receive {n : Node} {rx : Rx} (hs : n.sem = 0) (h : rx.Answers dev n.seqNum) :
    n.step cfg dev (.receive rx) = { n with frames := n.store cfg dev [rx] } := by
  have h0 : n.sem ≠ 1 := by
    rw [hs]
    decide
  have hne : codeSsTwrNrngT1 ≠ codeSsTwrNrng := by decide
  rw [Node.step, Node.rxComplete, if_neg (not_not.mpr h.fctrl), if_neg h0,
    if_neg fun hd => hd.1 h.dstAddress, h.code, if_neg hne, if_pos rfl, Node.rxResponse,
    if_neg (by rw [h.len]; exact Nat.lt_irrefl _), if_neg (not_not.mpr h.seqNum.symm)]
  rfl

/-- The answers of a round change the ring only. -/
lemma foldl_receive {n : Node} (hs : n.sem = 0) {rxs : List Rx}
    (h : ∀ rx ∈ rxs, rx.Answers dev n.seqNum) :
    (rxs.map .receive).foldl (Node.step cfg dev) n = { n with frames := n.store cfg dev rxs } := by
  induction rxs using List.reverseRecOn with
  | nil => rfl
  | append_singleton l rx ih =>
    have hl := ih fun x hx => h x (List.mem_append_left _ hx)
    rw [List.map_append, List.foldl_append, hl, List.map_singleton, List.foldl_cons,
      List.foldl_nil, step_receive]
    · simp only [Node.store, List.foldl_append]
      rfl
    · exact hs
    · exact h rx (by simp)

/-- What is found at a place: the last response stored there, or the frame from before. -/
lemma store_apply (n : Node) (rxs : List Rx) (j : Nat) :
    n.store cfg dev rxs j =
      ((lastWrite (fun rx => if n.place cfg rx.frame.slotId.toNat = j then some rx else none)
        rxs).map (Node.finalFrame cfg dev n.txtime .init)).getD (n.frames j) := by
  induction rxs using List.reverseRecOn with
  | nil => rfl
  | append_singleton l rx ih =>
    rw [lastWrite_concat, Node.store, List.foldl_append, List.foldl_cons, List.foldl_nil,
      Table.modify_apply]
    by_cases h : n.place cfg rx.frame.slotId.toNat = j
    case pos =>
      rw [if_pos h, if_pos h.symm]
      rfl
    case neg =>
      rw [if_neg h, if_neg (Ne.symm h), Option.none_or, ← ih]
      rfl

end Store

namespace Round
variable {cfg : Cfg} (dev : Dev) {n : Node} (hb : cfg.build = .cell)
include hb

/-- What a request leaves behind before any answer. -/
lemma opened_spec (r : Round cfg) :
    (r.opened dev n).sem = 0 ∧ (r.opened dev n).seqNum = n.seqNum + 1 ∧
      (r.opened dev n).slotMask = r.slotMask ∧ (r.opened dev n).txtime = r.txtime ∧
      (r.opened dev n).idx = n.idx + .ofNat (numberOfBits r.slotMask.toNat) ∧
      (r.opened dev n).frames =
        n.frames.modify ((r.opened dev n).place cfg 0) fun _ => r.request dev n := by
  have ho : n.openRequest cfg r.slotMask r.cellId =
      { n with
        sem := 0, nnodes := .ofNat (numberOfBits r.slotMask.toNat)
        idx := n.idx + .ofNat (numberOfBits r.slotMask.toNat), seqNum := n.seqNum + 1
        cellId := r.cellId, slotMask := r.slotMask } := by
    rw [Node.openRequest, hb]
  rw [opened, request, Node.request, ho]
  exact ⟨rfl, rfl, rfl, rfl, rfl, rfl⟩

/-- What a request sends. -/
lemma request_spec (r : Round cfg) :
    (r.request dev n).seqNum = n.seqNum + 1 ∧ (r.request dev n).srcAddress = dev.myShortAddress ∧
      (r.request dev n).code = codeSsTwrNrng := by
  simp only [request, Node.request, Node.openRequest, Node.requestFrame, hb]
  exact ⟨rfl, rfl, rfl⟩

/-- Every answer is received, in the slot of its responder. -/
lemma rx_spec (hn : n.Formed) (r : Round cfg)
    (a : Answer cfg r.slotMask r.dstAddress r.cellId) :
    ∃ rx, a.rx (r.request dev n) = some rx ∧ rx.Answers dev (n.seqNum + 1) ∧
      rx.frame.slotId.toNat = rank r.slotMask.toNat a.responder.slot := by
  have hm : seenMask cfg r.slotMask r.cellId = r.slotMask.toNat := by
    simp only [seenMask, hb, r.cellId_lt, if_true]
  have hlt : rank r.slotMask.toNat a.responder.slot < 16 :=
    Nat.lt_of_le_of_lt (Bits.rank_le _ _) a.responder.slot_lt
  obtain ⟨p, hp, hf, hq, hd, hc, hi⟩ :=
    reply_frame cfg dev hn a.responder a.heard (hm.symm ▸ a.selected)
  obtain ⟨hseq, hsrc, -⟩ := request_spec dev (n := n) hb r
  refine ⟨_, congrArg (Option.map _) hp, ⟨rfl, hf, hq.trans hseq, hd.trans hsrc, hc⟩, ?_⟩
  rw [hi, hm, UInt8.toNat_ofNat']
  exact Nat.mod_eq_of_lt (by omega)

/-- What is received in a round are its answers. -/
lemma received_answers (hn : n.Formed) (r : Round cfg) :
    ∀ rx ∈ r.received dev n, rx.Answers dev (n.seqNum + 1) := by
  intro rx h
  obtain ⟨a, -, ha⟩ := List.mem_filterMap.mp h
  obtain ⟨rx', hr, hans, -⟩ := rx_spec dev hb hn r a
  rw [hr] at ha
  cases ha
  exact hans

/-- A round ends with its answers stored and the semaphore free. -/
lemma run_eq (hs : n.sem = 1) (hn : n.Formed) (r : Round cfg) :
    r.run dev n = { r.opened dev n with
      frames := (r.opened dev n).store cfg dev (r.received dev n), sem := 1 } := by
  obtain ⟨h0, hq, -⟩ := opened_spec dev (n := n) hb r
  have hne : n.sem ≠ 0 := by
    rw [hs]
    decide
  have hreq : n.step cfg dev (.request r.dstAddress codeSsTwrNrng r.slotMask r.cellId false
      r.txtime) = r.opened dev n := by
    rw [Node.step, if_neg hne]
    rfl
  have hans : ∀ rx ∈ r.received dev n, rx.Answers dev (r.opened dev n).seqNum := by
    rw [hq]
    exact received_answers dev hb hn r
  rw [run, events, List.cons_append, List.foldl_cons, hreq, List.foldl_append,
    foldl_receive cfg dev h0 hans, List.foldl_cons, List.foldl_nil, Node.step, if_pos h0]
  rfl

/-- The frame of a selected slot after the round: the last answer of its responder, or what the
    request left there. -/
lemma slotFrame_run (hs : n.sem = 1) (hn : n.Formed) (r : Round cfg) {i : Nat} (hi : i < 16)
    (hbit : r.slotMask.toNat.testBit i = true) :
    (r.run dev n).slotFrame cfg (r.run dev n).idx i =
      ((r.answerOf (r.request dev n) i).map (Node.finalFrame cfg dev r.txtime .init)).getD
        ((r.opened dev n).frames ((r.opened dev n).place cfg (rank r.slotMask.toNat i))) := by
  obtain ⟨-, -, hm, ht, -⟩ := opened_spec dev (n := n) hb r
  have hlt : r.slotMask.toNat < 2 ^ 16 := r.slotMask.toNat_lt
  have hfits := r.fits
  rw [numberOfBits_slots] at hfits
  have hq : lastWrite (fun rx : Rx =>
        if (r.opened dev n).place cfg rx.frame.slotId.toNat =
          (r.opened dev n).place cfg (rank r.slotMask.toNat i) then some rx else none)
      (r.received dev n) = r.answerOf (r.request dev n) i := by
    rw [received, lastWrite_filterMap, answerOf]
    apply lastWrite_congr
    intro a _
    obtain ⟨rx, hrx, -, hslot⟩ := rx_spec dev (n := n) hb hn r a
    rw [hrx, Option.bind_some, hslot]
    by_cases h : a.responder.slot = i
    case pos => rw [if_pos h, if_pos (by rw [h])]
    case neg =>
      rw [if_neg h, if_neg]
      intro hp
      have ha := Bits.rank_lt a.selected (show a.responder.slot < 16 from a.responder.slot_lt)
      have hi' := Bits.rank_lt hbit hi
      exact h (Bits.rank_inj a.selected hbit (mod_add_inj (by omega) (by omega) hp))
  rw [run_eq dev hb hs hn, Node.slotFrame]
  simp only [hm, bitIndex_position hbit (show i < 32 by omega) (show r.slotMask.toNat < 2 ^ 32 by omega)]
  have happ := store_apply cfg dev (r.opened dev n) (r.received dev n)
    ((r.opened dev n).place cfg (rank r.slotMask.toNat i))
  rw [hq, ht] at happ
  exact happ

/-- A slot without an answer. -/
lemma answerOf_eq_none (hn : n.Formed) (r : Round cfg) (i : Nat) :
    r.answerOf (r.request dev n) i = none ↔ ∀ a ∈ r.answers, a.responder.slot ≠ i := by
  rw [answerOf, lastWrite_eq_none]
  refine forall_congr' fun a => forall_congr' fun _ => ?_
  obtain ⟨rx, hrx, -⟩ := rx_spec dev (n := n) hb hn r a
  rw [hrx]
  by_cases h : a.responder.slot = i <;> simp [h]

/-- The answer of a slot is one to this request. -/
lemma answers_of_answerOf (hn : n.Formed) (r : Round cfg) {i : Nat} {rx : Rx}
    (h : r.answerOf (r.request dev n) i = some rx) : rx.Answers dev (n.seqNum + 1) := by
  obtain ⟨a, -, ha⟩ := lastWrite_mem h
  obtain ⟨rx', hrx, hans, -⟩ := rx_spec dev (n := n) hb hn r a
  split at ha
  case isTrue =>
    rw [hrx] at ha
    cases ha
    exact hans
  case isFalse => cases ha

/-- Which selected slots are taken for answered. The request is written over the frame of the
    first. -/
lemma valid_run (hs : n.sem = 1) (hn : n.Formed) (r : Round cfg) {i : Nat} (hi : i < 16)
    (hbit : r.slotMask.toNat.testBit i = true) :
    ((r.run dev n).slotFrame cfg (r.run dev n).idx i).code = codeSsTwrNrngFinal ∧
        ((r.run dev n).slotFrame cfg (r.run dev n).idx i).seqNum = (r.run dev n).seqNum ↔
      (r.answerOf (r.request dev n) i).isSome = true ∨ 0 < rank r.slotMask.toNat i ∧ r.Stale n i := by
  obtain ⟨-, hq, -, -, hidx, hf⟩ := opened_spec dev (n := n) hb r
  obtain ⟨-, -, hcode⟩ := request_spec dev (n := n) hb r
  have hrank := Bits.rank_lt hbit hi
  have hfits := r.fits
  rw [numberOfBits_slots] at hfits
  have hseq : (r.run dev n).seqNum = n.seqNum + 1 := by
    rw [run_eq dev hb hs hn]
    exact hq
  rw [hseq, slotFrame_run dev hb hs hn r hi hbit]
  cases ha : r.answerOf (r.request dev n) i with
  | some rx => exact iff_of_true ⟨rfl, (answers_of_answerOf dev hb hn r ha).seqNum⟩ (.inl rfl)
  | none =>
    rw [Option.map_none, Option.getD_none, hf, Table.modify_apply]
    split
    case isTrue h0 =>
      have hz : rank r.slotMask.toNat i = 0 := mod_add_inj (by omega) (by omega) h0
      rw [hcode, hz]
      simp [codeSsTwrNrng, codeSsTwrNrngFinal]
    case isFalse h0 =>
      have hpos : 0 < rank r.slotMask.toNat i := by
        apply Nat.pos_of_ne_zero
        intro hz
        exact h0 (by rw [hz])
      rw [Stale, Node.place, hidx]
      simp [hpos]

omit hb in
/-- Who answered has a slot that was asked for. -/
lemma slot_lt_of_answered {r : Round cfg} {i : Nat} (h : ∃ a ∈ r.answers, a.responder.slot = i) :
    i < 16 ∧ r.slotMask.toNat.testBit i = true := by
  obtain ⟨a, -, rfl⟩ := h
  exact ⟨a.responder.slot_lt, a.selected⟩

/-- There is an answer for a slot exactly if its responder answered. -/
lemma isSome_answerOf (hn : n.Formed) (r : Round cfg) (i : Nat) :
    (r.answerOf (r.request dev n) i).isSome = true ↔ ∃ a ∈ r.answers, a.responder.slot = i := by
  rw [← not_iff_not, Bool.not_eq_true, Option.isSome_eq_false_iff, Option.isNone_iff_eq_none,
    answerOf_eq_none dev hb hn]
  simp

/-- Which bits the reported mask has. -/
lemma testBit_run (hs : n.sem = 1) (hn : n.Formed) (r : Round cfg) {nranges : Nat}
    (h16 : 16 ≤ nranges) (i : Nat) :
    ((r.run dev n).validMask cfg nranges (r.run dev n).idx).testBit i = true ↔
      (∃ a ∈ r.answers, a.responder.slot = i) ∨
        i < 16 ∧ r.slotMask.toNat.testBit i = true ∧ 0 < rank r.slotMask.toNat i ∧ r.Stale n i := by
  have hm : (r.run dev n).slotMask = r.slotMask := by
    rw [run_eq dev hb hs hn]
    exact (opened_spec dev hb r).2.2.1
  have hlt : r.slotMask.toNat < 2 ^ 16 := r.slotMask.toNat_lt
  rw [Node.testBit_validMask, hm, Bool.and_eq_true, Bool.and_eq_true, decide_eq_true_eq,
    decide_eq_true_eq]
  constructor
  · rintro ⟨⟨-, hbit⟩, hv⟩
    have hi : i < 16 := by
      by_contra h
      have hle : 2 ^ 16 ≤ 2 ^ i := Nat.pow_le_pow_right (by decide) (not_lt.mp h)
      rw [Nat.testBit_lt_two_pow (Nat.lt_of_lt_of_le hlt hle)] at hbit
      cases hbit
    rcases (valid_run dev hb hs hn r hi hbit).mp hv with h | h
    · exact .inl ((isSome_answerOf dev hb hn r i).mp h)
    · exact .inr ⟨hi, hbit, h⟩
  · rintro (h | ⟨hi, hbit, h⟩)
    · obtain ⟨hi, hbit⟩ := slot_lt_of_answered h
      refine ⟨⟨by omega, hbit⟩, (valid_run dev hb hs hn r hi hbit).mpr (.inl ?_)⟩
      exact (isSome_answerOf dev hb hn r i).mpr h
    · exact ⟨⟨by omega, hbit⟩, (valid_run dev hb hs hn r hi hbit).mpr (.inr h)⟩

/-- A round is reported as it was exactly when the vector is not longer than a word has bits and the
    places of the silent slots are fresh. -/
lemma reported_iff (hs : n.sem = 1) (hn : n.Formed) (r : Round cfg) :
    (∀ skew, r.Reported dev (r.run dev n) (r.request dev n) skew) ↔
      r.nranges ≤ cfg.ulBits ∧ r.Fresh n := by
  constructor
  · intro h
    obtain ⟨mask, ranges, hget, hbits, -⟩ := h fun _ => 0
    rw [Node.getRanges] at hget
    by_cases hlong : cfg.ulBits < r.nranges
    · rw [if_pos hlong] at hget
      cases hget
    · rw [if_neg hlong] at hget
      cases hget
      refine ⟨Nat.le_of_not_lt hlong, fun i hi hbit hno hrank hst => ?_⟩
      obtain ⟨a, ha, e⟩ := (hbits i).mp
        ((testBit_run dev hb hs hn r r.nranges_ge i).mpr (.inr ⟨hi, hbit, hrank, hst⟩))
      exact hno a ha e
  · rintro ⟨hlong, h⟩ skew
    have hbits : ∀ i, ((r.run dev n).validMask cfg r.nranges (r.run dev n).idx).testBit i = true ↔
        ∃ a ∈ r.answers, a.responder.slot = i := by
      intro i
      rw [testBit_run dev hb hs hn r r.nranges_ge]
      refine or_iff_left_of_imp ?_
      rintro ⟨hi, hbit, hrank, hst⟩
      by_contra he
      exact h i hi hbit (fun a ha e => he ⟨a, ha, e⟩) hrank hst
    refine ⟨_, _, if_neg (Nat.not_lt.mpr hlong), hbits, ?_⟩
    rw [Node.validFrames, List.map_map]
    have hsome : ∀ i, r.answerOf (r.request dev n) i = none ∨ i < 16 := by
      intro i
      rw [or_iff_not_imp_left, ← ne_eq, ← Option.isSome_iff_ne_none, isSome_answerOf dev hb hn]
      exact fun hi => (slot_lt_of_answered hi).1
    rw [filter_map_eq_filterMap (g := fun i => (r.answerOf (r.request dev n) i).map fun rx =>
      Node.range cfg skew (Node.finalFrame cfg dev r.txtime .init rx))]
    · exact filterMap_range_of_le r.nranges_ge fun i hi => by
        rw [(hsome i).resolve_right (not_lt.mpr hi), Option.map_none]
    · intro i _
      simp only [decide_eq_true_eq, Bits.and_two_pow_ne_zero, hbits i, ← isSome_answerOf dev hb hn]
      cases ha : r.answerOf (r.request dev n) i with
      | none => simp
      | some rx =>
        obtain ⟨hi, hbit⟩ := slot_lt_of_answered ((isSome_answerOf dev hb hn r i).mp (by rw [ha]; rfl))
        simp only [Option.isSome_some, if_true, Option.map_some, Function.comp_apply,
          slotFrame_run dev hb hs hn r hi hbit, ha, Option.getD_some]

omit hb in
/-- A round. -/
lemma run_formed (hn : n.Formed) (r : Round cfg) : (r.run dev n).Formed := by
  have hl : ∀ (es : List Event) {m : Node}, m.Formed → (es.foldl (Node.step cfg dev) m).Formed := by
    intro es
    induction es with
    | nil => exact fun hm => hm
    | cons e es ih => exact fun hm => ih (hm.step cfg dev e)
  exact hl _ hn

end Round

/-- A requester after some rounds, with the last of them and its request. -/
structure Session (cfg : Cfg) where
  node : Node
  last : Option (Round cfg × Frame)

namespace Session
variable {cfg : Cfg} (dev : Dev)

def init : Session cfg := ⟨.init, none⟩

def step (s : Session cfg) (r : Round cfg) : Session cfg :=
  ⟨r.run dev s.node, some (r, r.request dev s.node)⟩

/-- The ranges read after the last round are those of the round. -/
def Correct (s : Session cfg) : Prop :=
  ∀ r req, s.last = some (r, req) → ∀ skew, r.Reported dev s.node req skew

/-- One more round is reported as it was when it is fresh and its vector not too long. -/
lemma correct_step (hb : cfg.build = .cell) {s : Session cfg} (hs : s.node.sem = 1)
    (hn : s.node.Formed) (r : Round cfg) : (step dev s r).Correct dev ↔
      r.nranges ≤ cfg.ulBits ∧ r.Fresh s.node := by
  rw [← Round.reported_iff dev hb hs hn]
  constructor
  · intro h
    exact h r _ rfl
  · rintro h r' req' e
    cases e
    exact h

/-- Whatever the rounds before, a round is reported as it was: as long as the vector is not longer than a
    word has bits and no silent responder finds a final frame with the sequence number of the request at
    its place, and no longer. -/
theorem correct_iff (hb : cfg.build = .cell) (rs : List (Round cfg)) :
    Allowed (step dev) (fun s r => r.nranges ≤ cfg.ulBits ∧ r.Fresh s.node) init rs ↔
      ∀ k, ((rs.take k).foldl (step dev) init).Correct dev := by
  apply allowed_iff_along (I := fun s : Session cfg => s.node.sem = 1 ∧ s.node.Formed)
  · rintro s r ⟨hs, hn⟩
    refine ⟨?_, Round.run_formed dev hn r⟩
    rw [step, Round.run_eq dev hb hs hn]
  · rintro s r ⟨hs, hn⟩ -
    exact correct_step dev hb hs hn r
  · exact ⟨rfl, fun _ => rfl⟩
  · rintro r req e
    cases e

/-! Two responders, of which the second answers once and never again. -/

/-- The node of the example has a short address. -/
lemma five_lt : (5 : UInt16).toNat < 2 ^ 14 := by decide
/-- Two responders fit into the frames. -/
lemma pair_fits : numberOfBits (3 : UInt16).toNat ≤ (Cfg.dflt .cell none).nframes := by decide
/-- The slot of the example. -/
lemma one_lt : 1 < 16 := by decide
/-- It was asked for. -/
lemma pair_selected : (3 : UInt16).toNat.testBit
    (Responder.atSlot (.dflt .cell none) broadcastAddress 5 1 one_lt 0).slot = true := by decide

def pairRound (answers : List (Answer (.dflt .cell none) 3 broadcastAddress 5)) :
    Round (.dflt .cell none) where
  slotMask := 3
  dstAddress := broadcastAddress
  cellId := 5
  cellId_lt := five_lt
  fits := pair_fits
  txtime := 0
  answers := answers
  nranges := 16
  nranges_ge := Nat.le_refl 16

def secondAnswers : Round (.dflt .cell none) :=
  pairRound [⟨.atSlot (.dflt .cell none) broadcastAddress 5 1 one_lt 0, pair_selected, 0, 0, false, 0⟩]

def silent : Round (.dflt .cell none) := pairRound []

def tag : Dev := ⟨1, 0, 5, 0⟩

/-- The first round is reported as it was. -/
theorem correct_once :
    (([secondAnswers].take 1).foldl (step tag) init).Correct tag := by
  refine (correct_iff tag rfl [secondAnswers]).mp ⟨⟨by decide, ?_⟩, trivial⟩ 1
  rintro i - - - - ⟨hc, -⟩
  have : Frame.init.code ≠ codeSsTwrNrngFinal := by decide
  exact this hc

/-- A silent round leaves the frames at even places alone. -/
lemma run_silent {n : Node} (hs : n.sem = 1) (hn : n.Formed) (hodd : n.idx.toNat % 2 = 1) :
    (silent.run tag n).sem = 1 ∧ (silent.run tag n).idx = n.idx + 2 ∧
      (silent.run tag n).seqNum = n.seqNum + 1 ∧
      ∀ j, j % 2 = 0 → (silent.run tag n).frames j = n.frames j := by
  obtain ⟨-, hq, -, -, hidx, hf⟩ := Round.opened_spec tag (n := n) rfl silent
  have h2 : UInt16.ofNat (numberOfBits silent.slotMask.toNat) = 2 := by decide
  rw [h2] at hidx
  rw [Round.run_eq tag rfl hs hn]
  refine ⟨rfl, hidx, hq, fun j hj => ?_⟩
  have hne : j ≠ (silent.opened tag n).place (.dflt .cell none) 0 := by
    have h32 : (Cfg.dflt .cell none).nframes = 32 := rfl
    rw [Node.place, hidx, UInt16.toNat_add, h32]
    have : (2 : UInt16).toNat = 2 := rfl
    omega
  change (silent.opened tag n).frames j = n.frames j
  rw [hf, Table.modify_of_ne _ _ hne]

/-- After any number of silent rounds the even places are as they were. -/
lemma silent_rounds (k : Nat) {s : Session (.dflt .cell none)} (hs : s.node.sem = 1)
    (hn : s.node.Formed) (hodd : s.node.idx.toNat % 2 = 1) :
    let t := (List.replicate k silent).foldl (step tag) s
    t.node.sem = 1 ∧ t.node.Formed ∧ t.node.idx = s.node.idx + .ofNat (2 * k) ∧
      t.node.seqNum = s.node.seqNum + .ofNat k ∧
      ∀ j, j % 2 = 0 → t.node.frames j = s.node.frames j := by
  induction k with
  | zero => exact ⟨hs, hn, by simp, by simp, fun _ _ => rfl⟩
  | succ k ih =>
    obtain ⟨hs', hn', hi, hq, hf⟩ := ih
    rw [List.replicate_succ', List.foldl_append]
    have hodd' : ((List.replicate k silent).foldl (step tag) s).node.idx.toNat % 2 = 1 := by
      rw [hi, UInt16.toNat_add, UInt16.toNat_ofNat']
      omega
    obtain ⟨h1, h2, h3, h4⟩ := run_silent hs' hn' hodd'
    refine ⟨h1, Round.run_formed tag hn' silent, ?_, ?_, fun j hj => (h4 j hj).trans (hf j hj)⟩
    · refine h2.trans ?_
      rw [hi]
      apply UInt16.toNat_inj.mp
      simp only [UInt16.toNat_add, UInt16.toNat_ofNat', UInt16.reduceToNat]
      omega
    · refine h3.trans ?_
      rw [hq]
      apply UInt8.toNat_inj.mp
      simp only [UInt8.toNat_add, UInt8.toNat_ofNat', UInt8.reduceToNat]
      omega

/-- After 256 rounds without an answer the old one is reported once more. -/
theorem correct_fails :
    ¬ ∀ (cfg : Cfg) (dev : Dev) (rs : List (Round cfg)), cfg.build = .cell →
      ∀ k, ((rs.take k).foldl (step dev) init).Correct dev := by
  intro h
  have hc := h (.dflt .cell none) tag (secondAnswers :: List.replicate 256 silent) rfl 257
  have h1 : (step tag init secondAnswers).node.sem = 1 := by decide
  have hn1 : (step tag init secondAnswers).node.Formed :=
    Round.run_formed tag (fun _ => rfl) secondAnswers
  obtain ⟨hs, hn, hi, hq, hf⟩ := silent_rounds 255 h1 hn1 (by decide)
  have ht : (secondAnswers :: List.replicate 256 silent).take 257 =
      secondAnswers :: List.replicate 256 silent := by
    apply List.take_of_length_le
    rw [List.length_cons, List.length_replicate]
  rw [ht, List.foldl_cons, List.replicate_succ' (n := 255), List.foldl_append] at hc
  have hr := ((correct_step tag rfl hs hn silent).mp hc).2
  refine hr 1 (by decide) (by decide) (fun a ha => by cases ha) (by decide) ?_
  have hplace : (((List.replicate 255 silent).foldl (step tag)
      (step tag init secondAnswers)).node.idx + .ofNat (numberOfBits silent.slotMask.toNat)).toNat =
      513 := by
    rw [hi]
    decide
  rw [Round.Stale, hplace, hf _ (by decide), hq]
  decide

end Session

end UwbCore.Nrng
