import UwbCore.Lib.Run
import UwbCore.Rtdoa.Tag

/-!
# The result of a request and a response

`rtdoa_tdoa_between_frames` is told which request and which response to compare, but takes the time of
the response through the request that the tag heard last, be it the one of the pair, a relayed copy of
it or another. So the result of a pair stays what it was exactly as long as the frames that take the
place of that request are on its time scale. That a response is used once does not depend on it.
-/

namespace UwbCore.Rtdoa
open UwbCore.Lib
open UwbCore.Nrng (uwbRngTofToMeters)

/-- The time since the reception of a frame, for a later time of the tag, in units of the reference. -/
def elapsed (cfg : TagCfg) (dtuTime : UInt64) (f : RingFrame) : UInt64 :=
  let delta := lo40 (lo40 dtuTime - lo40 f.rxTimestamp)
  if cfg.valid then UInt64.ofInt (roundAway ((1 - cfg.fractionalSkew) * delta.toNat)) else delta

/-- Two frames give the reception of a third one the same time of the reference: as much time passed
    between their transmissions as between their receptions. -/
def SameScale (cfg : TagCfg) (dtuTime : UInt64) (f g : RingFrame) : Prop :=
  g.txTimestamp - f.txTimestamp = elapsed cfg dtuTime f - elapsed cfg dtuTime g

instance decidableSameScale (cfg : TagCfg) (dtuTime : UInt64) (f g : RingFrame) :
    Decidable (SameScale cfg dtuTime f g) :=
  inferInstanceAs (Decidable (_ = _))

/-- What can happen to a tag: the calls of the application, and the callbacks. -/
inductive TagEvent where
  | listen (delay : UInt64) (timeout : UInt16) (startRxError : Bool)
  | tdoa (req : Option Nat) (resp : Nat)
  | rx (rx : TagRx)
  | rxTimeout
  | rxError (fctrl : UInt16)
  | reset

namespace Tag
variable (cfg : TagCfg) (dev : Dev)

/-- One call or callback. -/
def step (s : Tag) : TagEvent → Tag
  | .listen delay timeout startRxError => (s.rtdoaListen delay timeout startRxError).tag
  | .tdoa req resp => (s.rtdoaTdoaBetweenFrames cfg req resp).2
  | .rx rx => (s.rxCompleteCb cfg dev rx).tag
  | .rxTimeout | .reset => s.release
  | .rxError fctrl => if fctrl = fctrlRange16 then s.release else s

/-- The frame that a reception leaves in the ring, if it is one the tag keeps. -/
def kept (s : Tag) (rx : TagRx) : Option RingFrame :=
  if ¬s.Takes dev rx then none
  else if rx.frame.code = codeRequest then
    if rx.frameLen < requestSize then none else some (requestFrame cfg rx)
  else if rx.frame.code = codeResp then
    if rx.frameLen < responseSize then none
    else some ⟨rx.frame, rx.txTimestamp, rx.rxtimestamp⟩
  else none

/-- The frame at `i` is left in the ring. -/
def Leaves (i : Nat) (s : Tag) : TagEvent → Prop
  | .rx rx => s.kept cfg dev rx ≠ none → s.slot cfg ≠ i
  | _ => True

/-- The response at `j` is not used. -/
def Unused (j : Nat) : TagEvent → Prop
  | .tdoa _ resp => resp ≠ j
  | _ => True

/-- A request and a response in the ring, and the request that the tag heard last. -/
structure Pair (s : Tag) (i j last : Nat) : Prop where
  request : (s.frames i).code = codeRequest
  response : (s.frames j).code = codeResp
  last : s.reqFrame = some last

/-- Other frames come and go, but those of the pair stay. -/
def LeavesPair (i j : Nat) (s : Tag) (e : TagEvent) : Prop :=
  s.Leaves cfg dev i e ∧ s.Leaves cfg dev j e ∧ Unused j e

/-- A frame that takes the place of the last request, as every request does, and a response that is
    put where that request was, is on the time scale of the request that was the last one for the time
    of `resp`, unless there is no result of the two in any case. -/
def OnScale (req resp last : RingFrame) (s : Tag) : TagEvent → Prop
  | .rx rx => ∀ f, s.kept cfg dev rx = some f →
      rx.frame.code = codeRequest ∨ s.reqFrame = some (s.slot cfg) →
      resp.txTimestamp < req.txTimestamp ∨ SameScale cfg resp.rxTimestamp last f
  | _ => True

/-- The result of a pair depends on the pair only, and there is one at most for each response. -/
structure OwnResult (s : Tag) (i j : Nat) (es : List TagEvent) : Prop where
  same : ∀ n, (((es.take n).foldl (step cfg dev) s).rtdoaTdoaBetweenFrames cfg (some i) j).1 =
    (s.rtdoaTdoaBetweenFrames cfg (some i) j).1
  once : ∀ n req es', let used := ((es.take n).foldl (step cfg dev) s).step cfg dev (.tdoa (some req) j)
    Allowed (step cfg dev) (Leaves cfg dev j) used es' →
    ∀ req', ((es'.foldl (step cfg dev) used).rtdoaTdoaBetweenFrames cfg req' j).1 = .nan

end Tag

/-! ## Conversion -/

section
variable {cfg : TagCfg} {t : UInt64} {f g : RingFrame}

/-- The upper bits of the transmission and its lower ones, put together again. -/
lemma rtdoaLocalToMaster64_eq : rtdoaLocalToMaster64 cfg t f = f.txTimestamp + elapsed cfg t f := by
  have hsplit : (f.txTimestamp &&& 0xFFFFFF0000000000) + lo40 f.txTimestamp = f.txTimestamp :=
    UInt64.toBitVec_inj.mp (Word.and_add_and (k := 40) _ _ _ (by decide) rfl rfl)
  rw [rtdoaLocalToMaster64, ← UInt64.add_assoc, hsplit]
  rfl

/-- Being on one scale, through the conversion of the source. -/
lemma sameScale_iff :
    SameScale cfg t f g ↔ rtdoaLocalToMaster64 cfg t g = rtdoaLocalToMaster64 cfg t f := by
  rw [rtdoaLocalToMaster64_eq, rtdoaLocalToMaster64_eq, SameScale]
  grind

/-- A signed difference tells the time that it is of. -/
lemma tofOf_inj {a b x : UInt64} (h : tofOf a x = tofOf b x) : a = b := by
  have hsub : a - x = b - x := UInt64.toBitVec_inj.mp (BitVec.eq_of_toInt_eq h)
  grind

/-- A distance tells its time of flight. -/
lemma uwbRngTofToMeters_num_inj {p q : ℚ}
    (h : uwbRngTofToMeters (.num p) = uwbRngTofToMeters (.num q)) : p = q := by
  have hpos : ((299792458 / 1.000293) * (1 / 499.2e6 / 128) : ℚ) ≠ 0 := by norm_num
  rw [uwbRngTofToMeters, uwbRngTofToMeters, Nrng.FloatVal.num.injEq] at h
  exact mul_right_cancel₀ hpos h

end

namespace Tag

/-! ## Results -/

section
variable {cfg : TagCfg} {dev : Dev} {s s' : Tag} {i j : Nat} {e : TagEvent}

/-- A response that is not one any more has no result. -/
lemma tdoa_of_code_ne {req : Option Nat} (h : (s.frames j).code ≠ codeResp) :
    (s.rtdoaTdoaBetweenFrames cfg req j).1 = .nan := by
  cases req with
  | none => rfl
  | some req => rw [rtdoaTdoaBetweenFrames, if_neg h]

/-- The result of a request and a response, by the request that the tag heard last. -/
lemma tdoa_of_code {current : Nat} (hcode : (s.frames j).code = codeResp)
    (hcur : s.reqFrame = some current) : (s.rtdoaTdoaBetweenFrames cfg (some i) j).1 =
      if (s.frames j).txTimestamp < (s.frames i).txTimestamp then .nan
      else uwbRngTofToMeters (.num (tofOf
        (rtdoaLocalToMaster64 cfg (s.frames j).rxTimestamp (s.frames current))
        (s.frames j).txTimestamp)) := by
  rw [rtdoaTdoaBetweenFrames]
  dsimp only
  rw [if_pos hcode, hcur]
  split <;> rfl

variable (cfg s j) in
/-- What a query does to the ring: a response that it uses is marked. -/
lemma tdoa_frames (req : Option Nat) : (s.rtdoaTdoaBetweenFrames cfg req j).2 = s ∨
    (s.frames j).code = codeResp ∧ (s.rtdoaTdoaBetweenFrames cfg req j).2 =
      { s with frames := s.frames.modify j fun f => { f with code := codeTwrInvalid } } := by
  cases req with
  | none => exact .inl rfl
  | some req =>
    rw [rtdoaTdoaBetweenFrames]
    split
    case isTrue h =>
      refine .inr ⟨h, ?_⟩
      split
      · rfl
      · split <;> rfl
    case isFalse => exact .inl rfl

/-- After a query with a request the response has no result. -/
lemma tdoa_used (req : Nat) :
    ((s.rtdoaTdoaBetweenFrames cfg (some req) j).2.frames j).code ≠ codeResp := by
  rw [rtdoaTdoaBetweenFrames]
  dsimp only
  have hmark : ((s.frames.modify j fun f => { f with code := codeTwrInvalid }) j).code ≠
      codeResp := by
    rw [Table.modify_self]
    show codeTwrInvalid ≠ codeResp
    decide
  split
  case isTrue =>
    split
    · exact hmark
    · split <;> exact hmark
  case isFalse h => exact h

/-! ## Steps -/

variable (cfg dev s) in
/-- What a reception does to the ring: nothing, or it keeps a frame at the next place, and a request
    becomes the last one. -/
lemma rx_frames (rx : TagRx) :
    (s.kept cfg dev rx = none ∧ (s.step cfg dev (.rx rx)).frames = s.frames ∧
      (s.step cfg dev (.rx rx)).reqFrame = s.reqFrame) ∨
    ∃ f, s.kept cfg dev rx = some f ∧
      (s.step cfg dev (.rx rx)).frames = s.frames.modify (s.slot cfg) (fun _ => f) ∧
      (s.step cfg dev (.rx rx)).reqFrame =
        if rx.frame.code = codeRequest then some (s.slot cfg) else s.reqFrame := by
  simp only [step, kept, rxCompleteCb]
  split
  · exact .inl ⟨rfl, rfl, rfl⟩
  · split
    case isTrue =>
      split
      · exact .inl ⟨rfl, rfl, rfl⟩
      · refine .inr ⟨_, rfl, ?_, ?_⟩
        · rw [takeRequest]
          dsimp only
          split <;> rfl
        · rw [takeRequest]
          dsimp only
          split <;> rfl
    case isFalse =>
      split
      · split
        · exact .inl ⟨rfl, rfl, rfl⟩
        · exact .inr ⟨_, rfl, rfl, rfl⟩
      · exact .inl ⟨rfl, rfl, rfl⟩

variable (cfg dev s e) in
/-- What a step can do to the ring: nothing, mark a response that is used, or keep a frame. -/
lemma step_cases :
    ((∀ rx, e = .rx rx → s.kept cfg dev rx = none) ∧ (s.step cfg dev e).frames = s.frames ∧
      (s.step cfg dev e).reqFrame = s.reqFrame) ∨
    (∃ req resp, e = .tdoa req resp ∧ (s.frames resp).code = codeResp ∧
      (s.step cfg dev e).frames = s.frames.modify resp (fun f => { f with code := codeTwrInvalid }) ∧
      (s.step cfg dev e).reqFrame = s.reqFrame) ∨
    ∃ rx f, e = .rx rx ∧ s.kept cfg dev rx = some f ∧
      (s.step cfg dev e).frames = s.frames.modify (s.slot cfg) (fun _ => f) ∧
      (s.step cfg dev e).reqFrame =
        if rx.frame.code = codeRequest then some (s.slot cfg) else s.reqFrame := by
  cases e with
  | listen delay timeout startRxError =>
    refine .inl ⟨(by rintro _ ⟨⟩), ?_⟩
    rw [step, rtdoaListen]
    split
    · exact ⟨rfl, rfl⟩
    · dsimp only
      split <;> exact ⟨rfl, rfl⟩
  | tdoa req resp =>
    cases tdoa_frames cfg s resp req with
    | inl h =>
      refine .inl ⟨(by rintro _ ⟨⟩), ?_⟩
      rw [step, h]
      exact ⟨rfl, rfl⟩
    | inr h =>
      refine .inr (.inl ⟨req, resp, rfl, h.1, ?_⟩)
      rw [step, h.2]
      exact ⟨rfl, rfl⟩
  | rx rx =>
    cases rx_frames cfg dev s rx with
    | inl h =>
      refine .inl ⟨fun rx' e => ?_, h.2⟩
      cases e
      exact h.1
    | inr h =>
      obtain ⟨f, h⟩ := h
      exact .inr (.inr ⟨rx, f, rfl, h⟩)
  | rxTimeout => exact .inl ⟨(by rintro _ ⟨⟩), rfl, rfl⟩
  | rxError fctrl =>
    refine .inl ⟨(by rintro _ ⟨⟩), ?_⟩
    rw [step]
    split <;> exact ⟨rfl, rfl⟩
  | reset => exact .inl ⟨(by rintro _ ⟨⟩), rfl, rfl⟩

/-- A frame that keeps its times, and its code unless it is used; a response that was used before does
    not become one again. -/
structure Stays (unused : Prop) (f g : RingFrame) : Prop where
  tx : g.txTimestamp = f.txTimestamp
  rx : g.rxTimestamp = f.rxTimestamp
  code : unused → g.code = f.code
  spent : f.code ≠ codeResp → g.code ≠ codeResp

/-- A frame that nothing happens to stays. -/
lemma Stays.refl (unused : Prop) (f : RingFrame) : Stays unused f f :=
  ⟨rfl, rfl, fun _ => rfl, fun h => h⟩

/-- A frame that a step leaves in the ring stays. -/
lemma stays_of_leaves (hl : s.Leaves cfg dev i e) :
    Stays (Unused i e) (s.frames i) ((s.step cfg dev e).frames i) := by
  rcases step_cases cfg dev s e with ⟨-, hframes, -⟩ | ⟨req, resp, rfl, hcode, hframes, -⟩ |
    ⟨rx, f, rfl, hf, hframes, -⟩
  · rw [hframes]
    exact Stays.refl _ _
  · rw [hframes]
    by_cases hi : i = resp
    case pos =>
      subst hi
      rw [Table.modify_self]
      exact ⟨rfl, rfl, fun hne => absurd rfl hne, fun hne => absurd hcode hne⟩
    case neg =>
      rw [Table.modify_of_ne _ _ hi]
      exact Stays.refl _ _
  · have hkept : s.kept cfg dev rx ≠ none := by
      rw [hf]
      exact Option.some_ne_none f
    rw [hframes, Table.modify_of_ne _ _ (hl hkept).symm]
    exact Stays.refl _ _

/-- There is a last request after a step if there was one before. -/
lemma current_step {c : Nat} (hc : s.reqFrame = some c) :
    ∃ c', (s.step cfg dev e).reqFrame = some c' := by
  rcases step_cases cfg dev s e with ⟨-, -, hreq⟩ | ⟨req, resp, rfl, -, -, hreq⟩ |
    ⟨rx, f, rfl, -, -, hreq⟩
  · exact ⟨c, hreq.trans hc⟩
  · exact ⟨c, hreq.trans hc⟩
  · rw [hreq]
    split
    · exact ⟨_, rfl⟩
    · exact ⟨c, hc⟩

/-! ## Runs -/

/-- A response that was used is never one again while its place is left. -/
lemma spent_run {es : List TagEvent} (h : (s.frames j).code ≠ codeResp)
    (hl : Allowed (step cfg dev) (Leaves cfg dev j) s es) :
    ((es.foldl (step cfg dev) s).frames j).code ≠ codeResp := by
  induction es generalizing s with
  | nil => exact h
  | cons e es ih => exact ih ((stays_of_leaves hl.1).spent h) hl.2

/-- What stays of a tag while the pair is left: both frames, and that there is a last request. -/
structure Holds (req resp : RingFrame) (i j : Nat) (s : Tag) : Prop where
  reqTx : (s.frames i).txTimestamp = req.txTimestamp
  respTx : (s.frames j).txTimestamp = resp.txTimestamp
  respRx : (s.frames j).rxTimestamp = resp.rxTimestamp
  code : (s.frames j).code = codeResp
  current : ∃ c, s.reqFrame = some c

/-- The time of the response, through the request that the tag heard last. -/
def respTime (cfg : TagCfg) (resp : RingFrame) (s : Tag) : Option UInt64 :=
  s.reqFrame.map fun c => rtdoaLocalToMaster64 cfg resp.rxTimestamp (s.frames c)

variable {req resp : RingFrame} {last : Nat}

/-- What holds of the pair is kept by a step that leaves it. -/
lemma Holds.step (h : Holds req resp i j s) (hl : s.LeavesPair cfg dev i j e) :
    Holds req resp i j (s.step cfg dev e) := by
  obtain ⟨hi, hj, hu⟩ := hl
  obtain ⟨c, hc⟩ := h.current
  have si := stays_of_leaves hi
  have sj := stays_of_leaves hj
  exact ⟨si.tx.trans h.reqTx, sj.tx.trans h.respTx, sj.rx.trans h.respRx,
    (sj.code hu).trans h.code, current_step hc⟩

/-- The result of the pair is the same as long as the time of the response is, or there is none. -/
lemma Holds.tdoa_eq_iff (h : Holds req resp i j s) (h' : Holds req resp i j s') :
    (s'.rtdoaTdoaBetweenFrames cfg (some i) j).1 = (s.rtdoaTdoaBetweenFrames cfg (some i) j).1 ↔
      resp.txTimestamp < req.txTimestamp ∨ respTime cfg resp s' = respTime cfg resp s := by
  obtain ⟨c, hc⟩ := h.current
  obtain ⟨c', hc'⟩ := h'.current
  rw [tdoa_of_code h.code hc, tdoa_of_code h'.code hc', h.reqTx, h.respTx, h.respRx, h'.reqTx,
    h'.respTx, h'.respRx, respTime, respTime, hc, hc', Option.map_some, Option.map_some,
    Option.some.injEq]
  by_cases hlt : resp.txTimestamp < req.txTimestamp
  case pos => simp only [hlt, true_or, if_true]
  case neg =>
    rw [if_neg hlt, if_neg hlt]
    constructor
    · intro heq
      right
      have htof := uwbRngTofToMeters_num_inj heq
      exact tofOf_inj (by exact_mod_cast htof)
    · rintro (hlt' | heq)
      · exact absurd hlt' hlt
      · rw [heq]

variable (cfg dev req resp e) in
/-- A step takes the time of the response through another frame exactly if it keeps one that takes the
    place of the last request. -/
lemma respTime_step (last : RingFrame) {c : Nat} (hc : s.reqFrame = some c) :
    (s.OnScale cfg dev req resp last e ∧ respTime cfg resp (s.step cfg dev e) = respTime cfg resp s) ∨
    ∃ rx f, e = .rx rx ∧ s.kept cfg dev rx = some f ∧
      (rx.frame.code = codeRequest ∨ s.reqFrame = some (s.slot cfg)) ∧
      respTime cfg resp (s.step cfg dev e) =
        some (rtdoaLocalToMaster64 cfg resp.rxTimestamp f) := by
  rcases step_cases cfg dev s e with ⟨hnone, hframes, hreq⟩ | ⟨req', resp', rfl, -, hframes, hreq⟩ |
    ⟨rx, f, rfl, hf, hframes, hreq⟩
  · left
    refine ⟨?_, by rw [respTime, respTime, hreq, hframes]⟩
    cases e with
    | rx rx =>
      intro f hf
      rw [hnone rx rfl] at hf
      cases hf
    | _ => trivial
  · refine .inl ⟨trivial, ?_⟩
    rw [respTime, respTime, hreq, hframes, hc, Option.map_some, Option.map_some]
    congr 1
    exact Table.modify_proj (rtdoaLocalToMaster64 cfg resp.rxTimestamp) _ _ _ rfl
  · by_cases hreqCode : rx.frame.code = codeRequest
    case pos =>
      refine .inr ⟨rx, f, rfl, hf, .inl hreqCode, ?_⟩
      rw [respTime, hreq, hframes, if_pos hreqCode, Option.map_some, Table.modify_self]
    case neg =>
      rw [if_neg hreqCode] at hreq
      by_cases hslot : c = s.slot cfg
      case pos =>
        refine .inr ⟨rx, f, rfl, hf, .inr (hc.trans (congrArg some hslot)), ?_⟩
        rw [respTime, hreq, hc, hframes, Option.map_some, hslot, Table.modify_self]
      case neg =>
        refine .inl ⟨?_, ?_⟩
        · rintro f' - (h | h)
          · exact absurd h hreqCode
          · exact absurd (Option.some.inj (hc.symm.trans h)) hslot
        · rw [respTime, respTime, hreq, hframes, hc, Option.map_some, Option.map_some,
            Table.modify_of_ne _ _ hslot]

/-- A step keeps the result of the pair exactly if what it puts in the place of the last request is on
    the scale of the pair. -/
lemma tdoa_step_iff {s₀ : Tag} (hp : s₀.Pair i j last)
    (h : Holds (s₀.frames i) (s₀.frames j) i j s) (hl : s.LeavesPair cfg dev i j e)
    (hsame : (s.rtdoaTdoaBetweenFrames cfg (some i) j).1 =
      (s₀.rtdoaTdoaBetweenFrames cfg (some i) j).1) :
    ((s.step cfg dev e).rtdoaTdoaBetweenFrames cfg (some i) j).1 =
        (s₀.rtdoaTdoaBetweenFrames cfg (some i) j).1 ↔
      s.OnScale cfg dev (s₀.frames i) (s₀.frames j) (s₀.frames last) e := by
  have h₀ : Holds (s₀.frames i) (s₀.frames j) i j s₀ := ⟨rfl, rfl, rfl, hp.response, last, hp.last⟩
  obtain ⟨c, hc⟩ := h.current
  rw [h₀.tdoa_eq_iff (h.step hl)]
  rw [h₀.tdoa_eq_iff h] at hsame
  cases respTime_step cfg dev e (s₀.frames i) (s₀.frames j) (s₀.frames last) hc with
  | inl hstep =>
    rw [hstep.2]
    exact iff_of_true hsame hstep.1
  | inr hstep =>
    obtain ⟨rx, f, rfl, hf, hplace, htime⟩ := hstep
    rw [htime, respTime, hp.last, Option.map_some, Option.some.injEq, ← sameScale_iff]
    constructor
    · intro hscale f' hf' _
      rw [hf] at hf'
      cases hf'
      exact hscale
    · intro hscale
      exact hscale f hf hplace

/-- A result depends on its own pair exactly as long as every frame that takes the place of the last
    request is on the time scale of it. -/
theorem ownResult_iff {es : List TagEvent} (hp : s.Pair i j last)
    (hl : Allowed (step cfg dev) (LeavesPair cfg dev i j) s es) :
    s.OwnResult cfg dev i j es ↔
      Allowed (step cfg dev) (OnScale cfg dev (s.frames i) (s.frames j) (s.frames last)) s es := by
  have halong := allowed_iff_along_of (I := Holds (s.frames i) (s.frames j) i j)
    (fun _ _ h hl => h.step hl) (fun _ _ h hl hsame => tdoa_step_iff hp h hl hsame) es
    ⟨rfl, rfl, rfl, hp.response, last, hp.last⟩ rfl hl
  rw [halong]
  constructor
  · intro h
    exact h.same
  · intro h
    refine ⟨h, fun n req es' => ?_⟩
    intro used hleaves req'
    exact tdoa_of_code_ne (spent_run (tdoa_used req) hleaves)

end

/-! ## A later request -/

/-- A tag with a valid clock and four frames in its ring. -/
def tagCfg : TagCfg := ⟨⟨1000, 20, 1000, 180⟩, 4, true, 0, 100⟩

/-- A tag with the address 1. -/
def tagDev : Dev := ⟨1, 0, 0⟩

/-- A request sent at 1000 and a response sent at 5000, heard at 2000 and 6000. -/
def heardPair : Tag where
  sem := 0
  timeout := 0xFFFFFFFF
  idx := 1
  reqFrame := some 0
  frames i :=
    if i = 0 then ⟨⟨broadcastAddress, 2, codeRequest, 4, 0, 0⟩, 1000, 2000⟩
    else ⟨⟨broadcastAddress, 3, codeResp, 4, 0, 0⟩, 5000, 6000⟩

/-- A request sent at 1000 and heard at 2000, a relayed copy of it that a node sent on, and a response
    that is heard after both. -/
def heardCopy : Tag where
  sem := 0
  timeout := 0xFFFFFFFF
  idx := 2
  reqFrame := some 1
  frames i :=
    if i = 0 then ⟨⟨broadcastAddress, 2, codeRequest, 4, 0, 2⟩, 1000, 2000⟩
    else if i = 1 then ⟨⟨broadcastAddress, 4, codeRequest, 4, 1, 2⟩, 1000, 2000⟩
    else ⟨⟨broadcastAddress, 3, codeResp, 4, 0, 0⟩, 200000000, 200001000⟩

/-- A request heard at `rxtimestamp`, after `rptCount` repetitions. -/
def laterRequest (rptCount : UInt8) (txTimestamp rxtimestamp : UInt64) : TagRx :=
  ⟨⟨fctrlRange16, requestSize, ⟨broadcastAddress, 2, codeRequest, 4, rptCount, 2⟩, rxtimestamp⟩,
    txTimestamp, false⟩

/-- One reception leaves the frames that are not at its place. -/
lemma leaves_rx {s : Tag} {i j : Nat} (rx : TagRx) (hi : s.slot tagCfg ≠ i) (hj : s.slot tagCfg ≠ j) :
    Allowed (step tagCfg tagDev) (LeavesPair tagCfg tagDev i j) s [.rx rx] :=
  ⟨⟨fun _ => hi, fun _ => hj, trivial⟩, trivial⟩

/-- The pair of a request that has been heard from a relay too, when the copy of a second relay comes
    after the response. -/
theorem ownResult_relay :
    heardCopy.OwnResult tagCfg tagDev 0 2 [.rx (laterRequest 2 1000 131074000)] :=
  have hp : heardCopy.Pair 0 2 1 := ⟨rfl, rfl, rfl⟩
  (ownResult_iff hp (leaves_rx _ (by decide) (by decide))).mpr <| by
    refine ⟨?_, trivial⟩
    intro f hf _
    right
    have hkept : heardCopy.kept tagCfg tagDev (laterRequest 2 1000 131074000) =
        some (requestFrame tagCfg (laterRequest 2 1000 131074000)) := by
      rfl
    rw [hkept] at hf
    cases hf
    decide +kernel

/-- The request of the next round changes the result. -/
theorem ownResult_fails : ¬∀ (cfg : TagCfg) (dev : Dev) (s : Tag) (i j last : Nat)
    (es : List TagEvent), s.Pair i j last → Allowed (step cfg dev) (LeavesPair cfg dev i j) s es →
      s.OwnResult cfg dev i j es := by
  intro h
  have hp : heardPair.Pair 0 1 0 := ⟨rfl, rfl, rfl⟩
  have hsame := (h tagCfg tagDev heardPair 0 1 0 [.rx (laterRequest 0 99000 100000)] hp
    (leaves_rx _ (by decide) (by decide))).same 1
  exact absurd hsame (by decide +kernel)

end Tag

end UwbCore.Rtdoa
