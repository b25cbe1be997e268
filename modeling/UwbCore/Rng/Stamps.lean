import UwbCore.Rng.Header
import UwbCore.Rng.Exchange

/-!
# Stamps and where they come from

A time stamp with a mark, which left over bytes take away, and what the stages of single- and double-sided
ranging do to the stamps of the frames in use (`Outcome`).
-/

namespace UwbCore.Rng
open UwbCore.Lib

/-! ## Stamps and where they come from -/

/-- A time stamp with a mark of where it comes from, none where left over bytes take part. -/
structure Marked (α : Type) where
  time : BitVec 32
  mark : Option α
  deriving DecidableEq

namespace Marked
variable {α : Type}

/-- A stamp of which only a part was received has no mark. -/
def overlay (k : Nat) (old new : Marked α) : Marked α :=
  ⟨overlayWord k old.time new.time,
    if k = 0 then old.mark else if 4 ≤ k then new.mark else none⟩

/-- No bytes are new. -/
lemma overlay_zero (old new : Marked α) : overlay 0 old new = old := rfl

/-- All bytes are new. -/
lemma overlay_full (k : Nat) (old new : Marked α) (h : 4 ≤ k) : overlay k old new = new := by
  have h0 : k ≠ 0 := by omega
  simp [overlay, overlayWord, h0, h]

instance stamp : Stamp (Marked α) where
  overlay := overlay
  isZero s := s.time = 0
  overlay_zero := overlay_zero
  overlay_full := overlay_full

def leftOver (s : Marked α) : Marked α := { s with mark := none }

end Marked

/-- A time stamp and the exchange it was measured or received in. -/
abbrev Dated := Marked Nat

section Map
variable {S T : Type} (g : S → T)

def TwrFrame.map (f : TwrFrame S) : TwrFrame T where
  fctrl := f.fctrl
  seqNum := f.seqNum
  panId := f.panId
  dstAddress := f.dstAddress
  srcAddress := f.srcAddress
  code := f.code
  reception := g f.reception
  transmission := g f.transmission
  request := g f.request
  response := g f.response
  carrierIntegrator := f.carrierIntegrator

def Msg.map (m : Msg S) : Msg T := ⟨m.len, m.frame.map g⟩

def Rx.map (rx : Rx S) : Rx T :=
  ⟨rx.msg.map g, g rx.timestamp, rx.timestampHigh, rx.ldeError, rx.autoackTriggered, rx.carrierIntegrator⟩

def Tx.map (tx : Tx S) : Tx T := ⟨g tx.planned, tx.startTxError, g tx.txtime⟩

def Event.map : Event S → Event T
  | .request slot dst code tx => .request slot dst code (tx.map g)
  | .listen startRxError => .listen startRxError
  | .pend => .pend
  | .giveBack => .giveBack
  | .giveBackIfZero => .giveBackIfZero
  | .receive rx tx => .receive (rx.map g) (tx.map g)
  | .txComplete tx => .txComplete (tx.map g)
  | .rxTimeout => .rxTimeout
  | .reset => .reset
  | .otherTx txtime => .otherTx (g txtime)

end Map

/-- The codes of `twr_ss`, `twr_ds` and `twr_ds_ext`. -/
def Code.isReported : Code → Bool
  | .ssTwr | .ssTwrT1 | .ssTwrFinal | .ssTwrEnd => true
  | c => c.isDoubleSided

/-- The time stamps that `uwb_rng_twr_to_tof` uses for an exchange of these packages. -/
def usedStamps {S : Type} (cfg : Cfg) (n : Node S) : List S :=
  if (n.frame cfg).code.isReported then tofStamps cfg n else []

/-! ## What the handlers do to the stamps -/

section Handlers
variable {S : Type} (F : S → Prop) (cfg : Cfg) (n : Node S)

/-- The two stamps of a response are in `F`. -/
def TwrFrame.Half (f : TwrFrame S) : Prop := F f.reception ∧ F f.transmission

/-- All four stamps are in `F`. -/
def TwrFrame.Full (f : TwrFrame S) : Prop := f.Half F ∧ F f.request ∧ F f.response

/-- Every stamp of the result is in `F`. -/
def Node.Used : Prop := ∀ t ∈ usedStamps cfg n, F t

variable {F cfg n}

/-- Only a reported frame is used. -/
lemma Node.Used.of_reported (h : (n.frame cfg).code.isReported = true → n.Used F cfg) :
    n.Used F cfg := by
  cases hc : (n.frame cfg).code.isReported with
  | true => exact h hc
  | false =>
    intro t ht
    rw [usedStamps, hc] at ht
    cases ht

/-- A result of two frames. -/
lemma Node.Used.of_full (hcur : (n.frame cfg).Full F)
    (hprev : (n.frames (cfg.ring.prev n.idx)).Full F) : n.Used F cfg := by
  obtain ⟨⟨h1, h2⟩, h3, h4⟩ := hcur
  obtain ⟨⟨h5, h6⟩, h7, h8⟩ := hprev
  intro t ht
  rw [usedStamps, tofStamps] at ht
  split_ifs at ht
  · simp only [List.mem_cons, List.not_mem_nil, or_false] at ht
    rcases ht with rfl | rfl | rfl | rfl
    exacts [h4, h3, h2, h1]
  · simp only [List.mem_cons, List.not_mem_nil, or_false] at ht
    rcases ht with rfl | rfl | rfl | rfl | rfl | rfl | rfl | rfl
    exacts [h8, h7, h6, h5, h4, h3, h2, h1]
  · cases ht
  · cases ht

/-- A result of one frame. -/
lemma Node.Used.of_single (hc : (n.frame cfg).code.isDoubleSided = false)
    (hcur : (n.frame cfg).Full F) : n.Used F cfg := by
  obtain ⟨⟨h1, h2⟩, h3, h4⟩ := hcur
  intro t ht
  rw [usedStamps, tofStamps] at ht
  split_ifs at ht with _ _ hd
  · simp only [List.mem_cons, List.not_mem_nil, or_false] at ht
    rcases ht with rfl | rfl | rfl | rfl
    exacts [h4, h3, h2, h1]
  · rw [hc] at hd
    cases hd
  · cases ht
  · cases ht

/-- The message was not copied: it is shorter than a header, or longer than a frame. -/
def Skipped (cfg : Cfg) (rx : Rx S) : Prop :=
  rx.msg.len < requestLen ∨ cfg.frameSize < rx.msg.len

variable (F cfg) in
/-- What the stages need of the node as they find it. -/
structure StampsReady (rx : Rx S) (n : Node S) : Prop where
  flag : n.completeAfterTx = false
  response : n.code = .ssTwrT1 ∨ n.code = .dsTwrT1 ∨ n.code = .dsTwrExtT1 →
    rx.msg.len = responseLen → rx.ldeError = false → F n.txtime ∧ (n.frame cfg).Half F
  single : rx.msg.len = finalLen → n.code.isTwr = true →
    (n.frame cfg).code = n.code ∧ (n.frame cfg).Full F
  second : n.code = .dsTwrT2 → rx.msg.len = finalLen → rx.ldeError = false →
    F n.txtime ∧ (n.frame cfg).Full F ∧ (n.frames (cfg.ring.prev n.idx)).Half F
  secondExt : n.code = .dsTwrExtT2 →
    F n.txtime ∧ (n.frame cfg).Full F ∧ (n.frames (cfg.ring.prev n.idx)).Half F
  last : n.code = .dsTwrFinal ∨ n.code = .dsTwrExtFinal →
    (n.frame cfg).Full F ∧ (n.frames (cfg.ring.prev n.idx)).Full F

variable (F cfg) in
/-- What a stage leaves behind. -/
structure Outcome (rx : Rx S) (n : Node S) (e : Effect S) : Prop where
  idx : e.node.idx = n.idx
  txtime : e.sent.isSome = true → F e.node.txtime
  kept : e.sent = none → e.node.txtime = n.txtime
  pending : e.node.completeAfterTx = true → e.sent.isSome = true ∧ e.node.Used F cfg
  issued : e.issued = true → e.node.Used F cfg
  answered : ∀ m, e.sent = some m → m.frame.code = .dsTwrT1 ∨ m.frame.code = .dsTwrExtT1 →
    (e.node.frame cfg).Half F
  confirmed : ∀ m, e.sent = some m → m.frame.code = .dsTwrT2 ∨ m.frame.code = .dsTwrExtT2 →
    (e.node.frame cfg).Full F
  half : Skipped cfg rx → (n.frame cfg).Half F → (e.node.frame cfg).Half F
  full : Skipped cfg rx → (n.frame cfg).Full F → (e.node.frame cfg).Full F

variable {rx : Rx S} {tx : Tx S} {n' : Node S} {m : Msg S}

variable (F cfg) in
/-- The node was rewritten in a way that keeps the stamps of the current frame in `F`. -/
structure Rewritten (rx : Rx S) (n n' : Node S) : Prop where
  idx : n'.idx = n.idx
  txtime : n'.txtime = n.txtime
  flag : n'.completeAfterTx = false
  half : Skipped cfg rx → (n.frame cfg).Half F → (n'.frame cfg).Half F
  full : Skipped cfg rx → (n.frame cfg).Full F → (n'.frame cfg).Full F

/-- Nothing changed. -/
lemma Rewritten.refl (h : n.completeAfterTx = false) : Rewritten F cfg rx n n :=
  ⟨rfl, rfl, h, fun _ h => h, fun _ h => h⟩

/-- Where nothing is sent or completed. -/
lemma Rewritten.quiet (h : Rewritten F cfg rx n n') : Outcome F cfg rx n n'.quiet where
  idx := h.idx
  txtime ht := by cases ht
  kept _ := h.txtime
  pending hp := by cases h.flag.symm.trans hp
  issued hi := by cases hi
  answered _ hm := by cases hm
  confirmed _ hm := by cases hm
  half := h.half
  full := h.full

/-- Where the exchange completes. -/
lemma Rewritten.complete (h : Rewritten F cfg rx n n') (hu : n'.Used F cfg) :
    Outcome F cfg rx n n'.complete where
  idx := h.idx
  txtime ht := by cases ht
  kept _ := h.txtime
  pending hp := by cases h.flag.symm.trans hp
  issued _ := hu
  answered _ hm := by cases hm
  confirmed _ hm := by cases hm
  half := h.half
  full := h.full

/-- Where a message is sent. -/
lemma Rewritten.send (h : Rewritten F cfg rx n n') (htx : F tx.txtime)
    (ha : m.frame.code = .dsTwrT1 ∨ m.frame.code = .dsTwrExtT1 → (n'.frame cfg).Half F)
    (hc : m.frame.code = .dsTwrT2 ∨ m.frame.code = .dsTwrExtT2 → (n'.frame cfg).Full F) :
    Outcome F cfg rx n (n'.send m tx) := by
  unfold Node.send
  split
  case isTrue =>
    have hr : Rewritten F cfg rx n n'.release := ⟨h.idx, h.txtime, h.flag, h.half, h.full⟩
    exact hr.quiet
  case isFalse =>
    refine ⟨h.idx, fun _ => htx, ?_, ?_, ?_, ?_, ?_, h.half, h.full⟩
    · intro hs
      cases hs
    · intro hp
      cases h.flag.symm.trans hp
    · intro hi
      cases hi
    · rintro m' ⟨⟩ hm
      exact ha hm
    · rintro m' ⟨⟩ hm
      exact hc hm

/-- Where the last message is sent. -/
lemma Rewritten.sendLast (h : Rewritten F cfg rx n n') (htx : F tx.txtime)
    (hm : m.frame.code.isFinal = true) (hu : n'.Used F cfg) :
    Outcome F cfg rx n (n'.sendLast m tx) := by
  unfold Node.sendLast
  split
  case isTrue => exact h.complete hu
  case isFalse =>
    refine ⟨h.idx, fun _ => htx, ?_, fun _ => ⟨rfl, hu⟩, ?_, ?_, ?_, h.half, h.full⟩
    · intro hs
      cases hs
    · intro hi
      cases hi
    · rintro m' ⟨⟩ (hc | hc) <;> rw [hc] at hm <;> cases hm
    · rintro m' ⟨⟩ (hc | hc) <;> rw [hc] at hm <;> cases hm

/-- A node whose current frame was rewritten. -/
lemma Rewritten.setFrame {f : TwrFrame S} (h : n.completeAfterTx = false)
    (hh : Skipped cfg rx → (n.frame cfg).Half F → f.Half F)
    (hf : Skipped cfg rx → (n.frame cfg).Full F → f.Full F) :
    Rewritten F cfg rx n (n.setFrame (cfg.ring.cur n.idx) f) := by
  have e : (n.setFrame (cfg.ring.cur n.idx) f).frame cfg = f := setFrame_self _ _ _
  refine ⟨rfl, rfl, h, ?_, ?_⟩
  · rw [e]
    exact hh
  · rw [e]
    exact hf

/-- A frame of a length between the two is not skipped. -/
lemma not_skipped_of_len {k : Nat} (h : rx.msg.len = k) (h1 : requestLen ≤ k)
    (h2 : k ≤ twrExtFrameSize) : ¬Skipped cfg rx := by
  have size := cfg.frameSize_ge
  rintro (hs | hs) <;> omega

/-- The frame before the current one is another slot. -/
lemma frames_prev_setFrame (f : TwrFrame S) :
    (n.setFrame (cfg.ring.cur n.idx) f).frames (cfg.ring.prev n.idx) =
      n.frames (cfg.ring.prev n.idx) :=
  setFrame_of_ne _ _ (cfg.ring.cur_ne_prev n.idx).symm

/-- The lengths of single-sided ranging. -/
lemma SsPackage.len_le {request t1 final len} (p : SsPackage request t1 final len) :
    requestLen ≤ len ∧ len ≤ twrExtFrameSize := by cases p <;> decide

/-- Its final message is one of ranging. -/
lemma SsPackage.final_isTwr {request t1 final len} (p : SsPackage request t1 final len) :
    final.isTwr = true := by cases p <;> rfl

/-- The answer to a request has the local stamps of the request and of the answer. -/
lemma ssRequest_outcome {t1 len} (r : StampsReady F cfg rx n) (hts : F rx.timestamp)
    (hpl : F tx.planned) (htx : F tx.txtime) (hc : ¬(t1 = .dsTwrT2 ∨ t1 = .dsTwrExtT2)) :
    Outcome F cfg rx n (ssRequest t1 len cfg rx tx n) := by
  unfold ssRequest
  refine Rewritten.send (.setFrame r.flag (fun _ _ => ⟨hts, hpl⟩)
    fun _ hf => ⟨⟨hts, hpl⟩, hf.2⟩) htx (fun _ => ?_) fun h => absurd h hc
  rw [Node.frame, setFrame_idx, setFrame_self]
  exact ⟨hts, hpl⟩

/-- A double-sided request. -/
lemma dsRequest_outcome {t1 ok} (r : StampsReady F cfg rx n) (hts : F rx.timestamp)
    (hpl : F tx.planned) (htx : F tx.txtime) (hc : ¬(t1 = .dsTwrT2 ∨ t1 = .dsTwrExtT2)) :
    Outcome F cfg rx n (dsRequest t1 ok cfg rx tx n) := by
  unfold dsRequest
  split
  case isTrue => exact ssRequest_outcome r hts hpl htx hc
  case isFalse => exact (Rewritten.refl r.flag).quiet

/-- The frame of the final message of a single-sided exchange. -/
lemma ssT1_outcome {request t1 final len} (p : SsPackage request t1 final len)
    (r : StampsReady F cfg rx n) (hts : F rx.timestamp) (htx : F tx.txtime) (hc : n.code = t1) :
    Outcome F cfg rx n (ssT1 final len cfg rx tx n) := by
  unfold ssT1
  split
  case isTrue => exact (Rewritten.refl r.flag).quiet
  case isFalse hok =>
    rw [not_or, not_not] at hok
    obtain ⟨hlen, hlde⟩ := hok
    have hs : ¬Skipped cfg rx := not_skipped_of_len hlen p.len_le.1 p.len_le.2
    refine (Rewritten.setFrame r.flag (fun h => absurd h hs) fun h => absurd h hs).sendLast htx
      p.final_isFinal (.of_reported fun hrep => ?_)
    rw [Node.frame, setFrame_idx, setFrame_self] at hrep
    refine .of_single ?_ ?_
    · rw [Node.frame, setFrame_idx, setFrame_self]
      exact p.not_doubleSided.2
    · rw [Node.frame, setFrame_idx, setFrame_self]
      cases p with
      | twrSs =>
        obtain ⟨htime, half⟩ := r.response (.inl hc) hlen (by simpa using hlde)
        exact ⟨half, htime, hts⟩
      | twrSsExt => cases hrep

/-- The end of single-sided ranging. -/
lemma ssFinal_outcome (r : StampsReady F cfg rx n) (hc : n.code.isTwr = true)
    (hd : n.code.isDoubleSided = false) : Outcome F cfg rx n (ssFinal rx n) := by
  unfold ssFinal
  split
  case isTrue => exact (Rewritten.refl r.flag).quiet
  case isFalse hlen =>
    obtain ⟨hcode, full⟩ := r.single (not_not.mp hlen) hc
    exact (Rewritten.refl r.flag).complete (.of_single (by rw [hcode]; exact hd) full)

/-- The current frame after the response was taken up. -/
def dsT1Frame (cfg : Cfg) (rx : Rx S) (n : Node S) : TwrFrame S :=
  { n.frame cfg with
    request := n.txtime
    response := rx.timestamp
    carrierIntegrator := rx.carrierIntegrator }

/-- The second message is built in another slot. -/
lemma dsT1_frame (g g' : TwrFrame S) :
    (((n.setFrame (cfg.ring.cur n.idx) (dsT1Frame cfg rx n)).setFrame (cfg.ring.next n.idx)
      g).setFrame (cfg.ring.next n.idx) g').frame cfg = dsT1Frame cfg rx n := by
  have hne := (cfg.ring.next_ne_cur n.idx).symm
  rw [Node.frame, setFrame_idx, setFrame_idx, setFrame_idx, setFrame_of_ne _ _ hne,
    setFrame_of_ne _ _ hne, setFrame_self]

/-- The second message of the initiator leaves the first round in the current frame. -/
lemma dsT1_outcome {t2 len ok} (r : StampsReady F cfg rx n) (hts : F rx.timestamp)
    (htx : F tx.txtime) (hc : n.code = .ssTwrT1 ∨ n.code = .dsTwrT1 ∨ n.code = .dsTwrExtT1)
    (hok : ok = true → rx.msg.len = responseLen) :
    Outcome F cfg rx n (dsT1 t2 len ok cfg rx tx n) := by
  unfold dsT1
  split
  case isFalse => exact (Rewritten.refl r.flag).quiet
  case isTrue h =>
    have hlen := hok h
    have hs : ¬Skipped cfg rx := not_skipped_of_len hlen (by decide) (by decide)
    dsimp only
    split
    case isTrue =>
      exact Rewritten.quiet ⟨rfl, rfl, r.flag, fun h => absurd h hs, fun h => absurd h hs⟩
    case isFalse hlde =>
      obtain ⟨htime, half⟩ := r.response hc hlen (by simpa using hlde)
      have full : TwrFrame.Full F (dsT1Frame cfg rx n) := ⟨half, htime, hts⟩
      refine Rewritten.send ⟨rfl, rfl, r.flag, fun h => absurd h hs, fun h => absurd h hs⟩ htx
        (fun _ => ?_) fun _ => ?_
      · exact (congrArg (TwrFrame.Half F) (dsT1_frame _ _)).mpr full.1
      · exact (congrArg (TwrFrame.Full F) (dsT1_frame _ _)).mpr full

/-- The final message of the responder leaves both rounds behind. -/
lemma dsT2_outcome {final len ok} (r : StampsReady F cfg rx n) (hts : F rx.timestamp)
    (htx : F tx.txtime) (hf : final.isFinal = true)
    (hok : ok = true → F n.txtime ∧ (n.frame cfg).Full F ∧
      (n.frames (cfg.ring.prev n.idx)).Half F) :
    Outcome F cfg rx n (dsT2 final len ok cfg rx tx n) := by
  unfold dsT2
  split
  case isFalse => exact (Rewritten.refl r.flag).quiet
  case isTrue h =>
    obtain ⟨htime, ⟨half, hreq, hres⟩, hprev⟩ := hok h
    dsimp only
    set n1 := n.setFrame (cfg.ring.prev n.idx) { n.frames (cfg.ring.prev n.idx) with
      request := (n.frame cfg).request
      response := (n.frame cfg).response } with hn1
    set frame := TwrFrame.answer { n.frame cfg with
      request := n.txtime
      response := rx.timestamp
      carrierIntegrator := -rx.carrierIntegrator } cfg final with hframe
    have full : frame.Full F := ⟨half, htime, hts⟩
    have hcur : (n1.setFrame (cfg.ring.cur n1.idx) frame).frame cfg = frame := setFrame_self _ _ _
    have hw : Rewritten F cfg rx n (n1.setFrame (cfg.ring.cur n1.idx) frame) := by
      refine ⟨rfl, rfl, r.flag, ?_, ?_⟩
      · rw [hcur]
        exact fun _ _ => full.1
      · rw [hcur]
        exact fun _ _ => full
    refine hw.sendLast htx hf (.of_full ?_ ?_)
    · rw [hcur]
      exact full
    · have hp : (n1.setFrame (cfg.ring.cur n1.idx) frame).frames (cfg.ring.prev n1.idx) =
          n1.frames (cfg.ring.prev n1.idx) := frames_prev_setFrame frame
      change TwrFrame.Full F ((n1.setFrame (cfg.ring.cur n1.idx) frame).frames
        (cfg.ring.prev n1.idx))
      rw [hp, hn1, setFrame_idx, setFrame_self]
      exact ⟨hprev, hreq, hres⟩

end Handlers

end UwbCore.Rng
