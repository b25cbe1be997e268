import UwbCore.Rng.Stages

/-!
# Exchange integrity of two-way ranging

One step of the network keeps every message and every node in order, given the condition on the
messages that are accepted. So the time stamps that are combined at a completion belong to one
exchange in every run under the condition (`integrity_of_guarded`).
-/

namespace UwbCore.Rng
open UwbCore.Lib

/-! ## A message that is delivered -/

section Deliver
variable {cfg : Cfg} {a : OnAir} {r : Radio} {i : Nat} {sent : Option Exch}
  {taken : Option Taken} {n : Node Tagged} {x : Exch} {tx : Tx Tagged} {rx : Rx Tagged}

/-- A package leaves a message with another frame control, or for the other package. -/
lemma package_passes {p : Package} (hp : p = .twrSs ∨ p = .twrDs) (hc : n.code ∈ twrCodes)
    (h : ¬(rx.fctrl = fctrlRange16 ∧ n.code.package = p)) :
    p.rxComplete cfg rx tx n = (n.quiet, false) := by
  by_cases hf : rx.fctrl = fctrlRange16
  case neg =>
    cases hp with
    | inl hp => rw [hp]; exact if_pos hf
    | inr hp => rw [hp]; exact if_pos hf
  case pos =>
    have hne : n.code.package ≠ p := fun he => h ⟨hf, he⟩
    cases hp with
    | inl hp =>
      rw [hp] at hne ⊢
      change TwrSs.rxComplete cfg rx tx n = _
      rw [TwrSs.rxComplete, whenSolicited, if_neg (not_not.mpr hf)]
      revert hc hne
      cases n.code <;> simp [twrCodes, Code.package]
    | inr hp =>
      rw [hp] at hne ⊢
      change TwrDs.rxComplete cfg rx tx n = _
      rw [TwrDs.rxComplete, whenSolicited, if_neg (not_not.mpr hf)]
      revert hc hne
      cases n.code <;> simp [twrCodes, Code.package]

/-- The package for the code takes the message. -/
lemma package_takes (hf : rx.fctrl = fctrlRange16) (hs : n.sem ≠ 1) (hc : n.code ∈ twrCodes) :
    (n.code.package.rxComplete cfg rx tx n).2 = true := by
  have hw {c : Effect Tagged × Bool} : whenSolicited rx n c = c := by
    rw [whenSolicited, if_neg (not_not.mpr hf), if_neg hs]
  revert hc
  cases he : n.code <;>
    simp [twrCodes, Code.package, Package.rxComplete, TwrSs.rxComplete, TwrDs.rxComplete, hw, he]

/-- Where the package is missing the message has no effect. -/
lemma packages_unhandled {ps : List Package} (hp : ∀ p ∈ ps, p = .twrSs ∨ p = .twrDs)
    (hc : n.code ∈ twrCodes) (h : ¬(rx.fctrl = fctrlRange16 ∧ n.code.package ∈ ps)) :
    firstOf (ps.map (Package.rxComplete cfg rx tx)) n = n.quiet := by
  induction ps with
  | nil => rfl
  | cons p ps ih =>
    have hpass : p.rxComplete cfg rx tx n = (n.quiet, false) :=
      package_passes (hp p List.mem_cons_self) hc
        fun hown => h ⟨hown.1, hown.2 ▸ List.mem_cons_self⟩
    rw [List.map_cons, firstOf, hpass]
    exact ih (fun q hq => hp q (List.mem_cons_of_mem _ hq))
      fun hown => h ⟨hown.1, List.mem_cons_of_mem _ hown.2⟩

/-- Of the two packages the one for the code runs. -/
lemma packages_handled {ps : List Package} (hp : ∀ p ∈ ps, p = .twrSs ∨ p = .twrDs)
    (hf : rx.fctrl = fctrlRange16) (hs : n.sem ≠ 1) (hc : n.code ∈ twrCodes)
    (hm : n.code.package ∈ ps) :
    firstOf (ps.map (Package.rxComplete cfg rx tx)) n =
      (n.code.package.rxComplete cfg rx tx n).1 := by
  induction ps with
  | nil => exact absurd hm List.not_mem_nil
  | cons p ps ih =>
    rw [List.map_cons, firstOf]
    by_cases he : n.code.package = p
    case pos => rw [← he, if_pos (package_takes hf hs hc)]
    case neg =>
      rw [package_passes (hp p List.mem_cons_self) hc fun hown => he hown.2]
      exact ih (fun q hq => hp q (List.mem_cons_of_mem _ hq)) (List.mem_of_ne_of_mem he hm)

/-- The stage for the code of the message keeps everything in order. -/
lemma orderly_handled (h : Ready cfg i sent a n) (hf : (r.rx i a).fctrl = fctrlRange16)
    (hs : n.sem ≠ 1)
    (g1 : a.msg.frame.code = .ssTwrT1 ∨ a.msg.frame.code = .dsTwrT1 → r.ldeError = false →
      ∃ y ∈ sent, y.Joins a.exch)
    (g2 : a.msg.frame.code = .dsTwrT2 → r.ldeError = false →
      (∃ y ∈ sent, y.Joins a.exch) ∧ HalfOf a.exch (n.frames (cfg.ring.prev n.idx))) :
    Orderly cfg i sent (some ⟨a.exch.at i, a.msg.frame.code, r.ldeError⟩) (a.exch.at i)
      (n.code.package.rxComplete cfg (r.rx i a) (r.tx i (a.exch.at i)) n).1 := by
  have hw {c : Effect Tagged × Bool} : whenSolicited (r.rx i a) n c = c := by
    rw [whenSolicited, if_neg (not_not.mpr hf), if_neg hs]
  have hm := h.air.code
  rw [← h.code] at hm
  simp only [twrCodes, List.mem_cons, List.not_mem_nil, or_false] at hm
  rcases hm with hc | hc | hc | hc | hc | hc | hc
  all_goals
    have hc' := h.code.symm.trans hc
    rw [hc]
    simp only [Code.package, Package.rxComplete, TwrSs.rxComplete, TwrDs.rxComplete, hw, hc]
  case inl => exact orderly_ssRequest h (.inl rfl) (.inl hc')
  case inr.inl => exact orderly_ssT1 h hc' (g1 (.inl hc'))
  case inr.inr.inl => exact orderly_ssFinal h hc'
  case inr.inr.inr.inl =>
    have hlen : (r.rx i a).msg.len = requestLen := (h.air.request (.inr hc')).1
    rw [dsRequest, decide_eq_true hlen, if_pos rfl]
    exact orderly_ssRequest h (.inr rfl) (.inr hc')
  case inr.inr.inr.inr.inl => exact orderly_dsT1 h hc' (g1 (.inr hc'))
  case inr.inr.inr.inr.inr.inl => exact orderly_dsT2 h hc' (g2 hc')
  case inr.inr.inr.inr.inr.inr => exact orderly_dsFinal h hc'

/-- The packages keep everything in order, whether or not one of them handles the message. -/
lemma orderly_packages (hp : ∀ p ∈ cfg.packages, p = .twrSs ∨ p = .twrDs)
    (h : Ready cfg i sent a n) (hs : n.sem ≠ 1)
    (g1 : a.msg.frame.code = .ssTwrT1 ∨ a.msg.frame.code = .dsTwrT1 → r.ldeError = false →
      Handles cfg a.msg → ∃ y ∈ sent, y.Joins a.exch)
    (g2 : a.msg.frame.code = .dsTwrT2 → r.ldeError = false → Handles cfg a.msg →
      (∃ y ∈ sent, y.Joins a.exch) ∧ HalfOf a.exch (n.frames (cfg.ring.prev n.idx))) :
    Orderly cfg i sent (a.taken cfg i r.ldeError) (a.exch.at i)
      (firstOf (cfg.packages.map (Package.rxComplete cfg (r.rx i a) (r.tx i (a.exch.at i)))) n) := by
  have hc : n.code ∈ twrCodes := h.code ▸ h.air.code
  unfold OnAir.taken
  split
  case isTrue hh =>
    have hf : (r.rx i a).fctrl = fctrlRange16 := hh.1
    rw [packages_handled hp hf hs hc (h.code ▸ hh.2)]
    exact orderly_handled h hf hs (fun hc hl => g1 hc hl hh) fun hc hl => g2 hc hl hh
  case isFalse hh =>
    have hn : ¬((r.rx i a).fctrl = fctrlRange16 ∧ n.code.package ∈ cfg.packages) := by
      rw [h.code]
      exact hh
    rw [packages_unhandled hp hc hn]
    exact .quiet (h.nodeOk fun t ht => absurd ht (Option.not_mem_none t))

/-- An accepted message, in order, is ready for its handler. -/
lemma ready_of_accepted (ha : AirOk a) (hn : NodeOk cfg i sent taken n)
    (g : a.msg.frame.code = .dsTwrFinal → ∃ t ∈ taken, t.exch = a.exch ∧ t.Full) :
    Ready cfg i sent a { n.store cfg (r.rx i a) with idx := n.idx + 1 } := by
  obtain ⟨hcur, _, hprev⟩ := accepted_frame cfg (r.rx i a) n
  refine ⟨ha, rfl, ?_, fun hc => ?_, fun hc => ?_, fun hc => ?_, hn.sent⟩
  · rw [hcur]
    rfl
  · obtain ⟨hlen, hrec, htra⟩ := ha.half hc
    obtain ⟨hr, ht, _, _⟩ := receive_response (n.frames (cfg.ring.next n.idx)) a.msg hlen
    rw [hcur]
    exact ⟨hr.symm ▸ hrec, ht.symm ▸ htra⟩
  · obtain ⟨hlen, ⟨hrec, htra⟩, hreq, hres⟩ := ha.all hc
    obtain ⟨h1, h2, h3, h4⟩ := receive_final (n.frames (cfg.ring.next n.idx)) a.msg
      (Nat.le_of_eq hlen.symm)
    rw [hcur]
    exact ⟨⟨h1.symm ▸ hrec, h2.symm ▸ htra⟩, h3.symm ▸ hreq, h4.symm ▸ hres⟩
  · obtain ⟨t, ht, hx, hfull⟩ := g hc
    rw [← hx]
    exact hprev.symm ▸ (hn.taken t ht).2 hfull

/-- The shared layer advances to the frame with an accepted message. -/
lemma shared_of_accepts {n : Node Tagged} (h : Accepts cfg n rx) :
    UwbRng.rxComplete cfg rx n = ({ n.store cfg rx with idx := n.idx + 1 }, false) := by
  obtain ⟨hf, hs, hl, ht, hz, hd⟩ := h
  have ht' : ¬(!rx.msg.frame.code.isTwr) = true := by simp [ht]
  unfold UwbRng.rxComplete
  rw [if_neg (not_not.mpr hf), if_neg hs, if_neg (Nat.not_lt.mpr hl)]
  dsimp only
  rw [if_neg ht', if_neg (Nat.not_lt.mpr hz), if_neg]
  · rfl
  · rintro ⟨hff, hne⟩
    cases hd with
    | inl hd => simp [hd] at hff
    | inr hd => exact hne hd

/-- A message that is not accepted leaves the frame the node took up last. -/
lemma orderly_ignored (ha : AirOk a) (hn : NodeOk cfg i sent taken n)
    (h : ¬Accepts cfg n (r.rx i a)) :
    Orderly cfg i sent taken x (n.rxComplete cfg (r.rx i a) tx) := by
  have shared : Shared cfg (r.rx i a) { n with fctrl := (r.rx i a).fctrl }
      (UwbRng.rxComplete cfg (r.rx i a) { n with fctrl := (r.rx i a).fctrl }) := UwbRng.shared
  have hn' : NodeOk cfg i sent taken { n with fctrl := (r.rx i a).fctrl } := hn.congr rfl rfl rfl
  unfold Node.rxComplete
  revert shared
  generalize UwbRng.rxComplete cfg (r.rx i a) { n with fctrl := (r.rx i a).fctrl } = s
  intro shared
  cases shared with
  | other hf => exact .unsolicited hn'.releaseIfZero (.inr hf)
  | ignored hi =>
    cases hi with
    | inl hs => exact .unsolicited hn' (.inl hs)
    | inr hl => exact absurd ha.len_ge (Nat.not_le.mpr hl)
  | unread hu =>
    cases hu with
    | inl hu =>
      have htwr : (r.rx i a).msg.frame.code.isTwr = true := isTwr_of_mem _ ha.code
      cases htwr.symm.trans hu
    | inr hu =>
      have hz : finalLen ≤ cfg.frameSize := Nat.le_trans (by decide) cfg.frameSize_ge
      exact absurd (Nat.le_trans ha.len_le hz) (Nat.not_le.mpr hu)
  | foreign => exact .quiet hn'.store.releaseIfZero
  | accepted hf hs hl hz hd ht =>
    refine absurd ⟨hf, hs, hl, ht, hz, ?_⟩ h
    cases hff : cfg.frameFilter with
    | true => exact .inl rfl
    | false => exact .inr (hd hff)

/-- A message that is accepted in order keeps the exchanges apart. -/
lemma orderly_accepted (hp : ∀ p ∈ cfg.packages, p = .twrSs ∨ p = .twrDs) (ha : AirOk a)
    (hn : NodeOk cfg i sent taken n) (h : Accepts cfg n (r.rx i a))
    (g1 : a.msg.frame.code = .ssTwrT1 ∨ a.msg.frame.code = .dsTwrT1 → r.ldeError = false →
      Handles cfg a.msg → ∃ y ∈ sent, y.Joins a.exch)
    (g2 : a.msg.frame.code = .dsTwrT2 → r.ldeError = false → Handles cfg a.msg →
      (∃ y ∈ sent, y.Joins a.exch) ∧ ∃ t ∈ taken, t.exch = a.exch)
    (g3 : a.msg.frame.code = .dsTwrFinal → ∃ t ∈ taken, t.exch = a.exch ∧ t.Full) :
    Orderly cfg i sent (a.taken cfg i r.ldeError) (a.exch.at i)
      (n.rxComplete cfg (r.rx i a) (r.tx i (a.exch.at i))) := by
  have hn' : NodeOk cfg i sent taken { n with fctrl := (r.rx i a).fctrl } := hn.congr rfl rfl rfl
  have hacc : Accepts cfg { n with fctrl := (r.rx i a).fctrl } (r.rx i a) := h
  obtain ⟨_, _, hprev⟩ := accepted_frame cfg (r.rx i a) { n with fctrl := (r.rx i a).fctrl }
  rw [Node.rxComplete, shared_of_accepts hacc]
  dsimp only
  rw [if_neg Bool.false_ne_true]
  refine orderly_packages hp (ready_of_accepted ha hn' g3) h.2.1 g1 fun hc hl hh => ?_
  obtain ⟨hsent, t, ht, hx⟩ := g2 hc hl hh
  refine ⟨hsent, ?_⟩
  rw [← hx]
  exact hprev.symm ▸ (hn'.taken t ht).1

end Deliver

/-! ## The other events -/

section Events
variable {cfg : Cfg} {i : Nat} {sent : Option Exch} {taken : Option Taken} {n : Node Tagged}
  {x : Exch}

/-- A header that is written over a frame leaves the time stamps, and makes no last message. -/
lemma NodeOk.setHeader (hn : NodeOk cfg i sent taken n) (slot : Nat) (f : TwrFrame Tagged)
    (hc : f.code ≠ .ssTwrFinal ∧ f.code ≠ .dsTwrFinal)
    (half : ∀ x, HalfOf x (n.frames slot) → HalfOf x f)
    (all : ∀ x, AllOf x (n.frames slot) → AllOf x f) :
    NodeOk cfg i sent taken (n.setFrame slot f) := by
  by_cases hs : slot = cfg.ring.cur n.idx
  case pos =>
    subst hs
    constructor
    case ss => rw [setFrame_cur]; exact fun h => absurd h hc.1
    case ds => rw [setFrame_cur]; exact fun h => absurd h hc.2
    case sent => exact hn.sent
    case taken =>
      rw [setFrame_cur]
      exact fun t ht => ⟨half _ (hn.taken t ht).1, fun hf => all _ ((hn.taken t ht).2 hf)⟩
  case neg =>
    have hcur : (n.setFrame slot f).frame cfg = n.frame cfg :=
      setFrame_of_ne n f fun h => hs h.symm
    have hprev : ∀ x, AllOf x (n.frames (cfg.ring.prev n.idx)) →
        AllOf x ((n.setFrame slot f).frames (cfg.ring.prev n.idx)) := by
      intro x hx
      by_cases hp : slot = cfg.ring.prev n.idx
      case pos =>
        subst hp
        rw [setFrame_self]
        exact all x hx
      case neg =>
        rw [setFrame_of_ne n f fun h => hp h.symm]
        exact hx
    constructor
    case ss => rw [hcur]; exact hn.ss
    case ds =>
      rw [hcur]
      intro h
      obtain ⟨x, hx, hx'⟩ := hn.ds h
      exact ⟨x, hx, hprev x hx'⟩
    case sent => exact hn.sent
    case taken => rw [hcur]; exact hn.taken

/-- A request begins an exchange without a responder. -/
lemma orderly_request (hn : NodeOk cfg i sent taken n) (slot : Nat) (dst : UInt16) {code : Code}
    (hc : code = .ssTwr ∨ code = .dsTwr) {tx : Tx Tagged} (hx : x.responder = none)
    (hi : x.initiator = i) (htx : tx.txtime.origin = some ⟨x, i⟩) :
    Orderly cfg i sent taken x (n.request cfg slot dst code tx) := by
  unfold Node.request
  split
  case isTrue => exact .quiet hn
  case isFalse =>
    refine .send ?_ (airOk_request hc hx) htx (.inl hi)
    have hne : code ≠ .ssTwrFinal ∧ code ≠ .dsTwrFinal := by
      cases hc with
      | inl hc => rw [hc]; exact ⟨Code.noConfusion, Code.noConfusion⟩
      | inr hc => rw [hc]; exact ⟨Code.noConfusion, Code.noConfusion⟩
    exact (hn.setHeader slot (requestFrame cfg code dst _ (n.frames slot)) hne (fun _ h => h)
      fun _ h => h).congr rfl rfl rfl

/-- The two packages have nothing to do at the end of a transmission. -/
lemma packages_txComplete {ps : List Package} (hp : ∀ p ∈ ps, p = .twrSs ∨ p = .twrDs)
    (tx : Tx Tagged) : firstOf (ps.map (Package.txComplete cfg tx)) n = n.quiet := by
  induction ps with
  | nil => rfl
  | cons p ps ih =>
    rw [List.map_cons, firstOf]
    cases hp p List.mem_cons_self with
    | inl h => rw [h]; exact ih fun q hq => hp q (List.mem_cons_of_mem _ hq)
    | inr h => rw [h]; exact ih fun q hq => hp q (List.mem_cons_of_mem _ hq)

/-- A transmission that is complete. -/
lemma orderly_txComplete (hn : NodeOk cfg i sent taken n)
    (hp : ∀ p ∈ cfg.packages, p = .twrSs ∨ p = .twrDs)
    (g : n.completeAfterTx = true → n.sem ≠ 1 →
      (n.frame cfg).code = .ssTwrFinal ∨ (n.frame cfg).code = .dsTwrFinal)
    (tx : Tx Tagged) : Orderly cfg i sent taken x (n.txComplete cfg tx) := by
  unfold Node.txComplete
  rw [firstOf]
  cases UwbRng.txComplete_cases n with
  | inl h =>
    rw [h, if_neg Bool.false_ne_true]
    change Orderly cfg i sent taken x (firstOf _ n)
    rw [packages_txComplete hp]
    exact .quiet hn
  | inr h =>
    obtain ⟨hs, n', hn', h⟩ := h
    have hn'' : NodeOk cfg i sent taken { n' with completeAfterTx := false } := by
      cases hn' with
      | inl e => rw [e]; exact hn.congr rfl rfl rfl
      | inr e => rw [e]; exact hn.congr rfl rfl rfl
    have hf : Node.frame cfg { n' with completeAfterTx := false } = n.frame cfg := by
      cases hn' with
      | inl e => rw [e]; rfl
      | inr e => rw [e]; rfl
    rw [h, if_pos rfl]
    refine ⟨hn'', fun m hm => (by cases hm), fun hi => hn''.oneExchange ?_⟩
    rw [hf]
    exact g hi hs

/-- A frame of another service changes the semaphore only. -/
lemma orderly_hearOther (hn : NodeOk cfg i sent taken n) {rx : Rx Tagged} (tx : Tx Tagged)
    (hf : ¬rx.Ranging) : Orderly cfg i sent taken x (n.rxComplete cfg rx tx) := by
  unfold Node.rxComplete UwbRng.rxComplete
  rw [if_pos hf]
  have hn' : NodeOk cfg i sent taken { n with fctrl := rx.fctrl } := hn.congr rfl rfl rfl
  exact .unsolicited hn'.releaseIfZero (.inr hf)

/-- A listen call. -/
lemma NodeOk.listen (hn : NodeOk cfg i sent taken n) (startRxError : Bool) :
    NodeOk cfg i sent taken (n.listen startRxError) := by
  unfold Node.listen
  split_ifs
  · exact hn
  · exact hn
  · exact hn.congr rfl rfl rfl

/-- A reset. -/
lemma NodeOk.reset (hn : NodeOk cfg i sent taken n) : NodeOk cfg i sent taken n.reset := by
  unfold Node.reset
  split
  case isTrue => exact hn.congr rfl rfl rfl
  case isFalse => exact hn

end Events

/-! ## Runs of the network -/

namespace World
variable {net : Net} {w : World}

/-- An orderly effect at one node keeps the invariant. -/
lemma Inv.apply (h : w.Inv net) {n : Nat} {x : Exch} {taken : Option Taken} {e : Effect Tagged}
    (o : Orderly (net.cfg n) n (w.sent n) taken x e) : (w.apply net n x taken e).Inv net := by
  constructor
  case air =>
    intro a ha
    cases List.mem_append.mp ha with
    | inl ha => exact h.air a ha
    | inr ha =>
      cases hs : e.sent with
      | none => simp [hs] at ha
      | some m =>
        have ha : a = ⟨x, m⟩ := by simpa [hs] using ha
        rw [ha]
        exact o.air m hs
  case nodes =>
    intro i
    by_cases hi : i = n
    case pos =>
      subst hi
      simp only [World.apply, Table.modify_self]
      exact o.node
    case neg =>
      simp only [World.apply, Table.modify_of_ne _ _ hi]
      exact h.nodes i
  case issued =>
    intro l hl
    dsimp only [World.apply] at hl
    split at hl
    case isTrue hi =>
      cases List.mem_append.mp hl with
      | inl hl => exact h.issued l hl
      | inr hl =>
        cases List.mem_singleton.mp hl
        exact o.issued hi
    case isFalse => exact h.issued l hl

/-- So does a call or callback that sends nothing. -/
lemma Inv.quietly (h : w.Inv net) {n : Nat} {n' : Node Tagged}
    (hn : NodeOk (net.cfg n) n (w.sent n) (w.taken n) n') : (w.atNode net n n'.quiet).Inv net :=
  h.apply (.quiet hn)

/-- The transmission of another service takes the place of the last one. -/
lemma Inv.otherTx (h : w.Inv net) (n : Nat) (txtime : BitVec 32) :
    (w.step net (.otherTx n txtime)).Inv net := by
  have h' : (w.atNode net n (w.nodes n).quiet).Inv net := h.quietly (h.nodes n)
  refine ⟨h'.air, fun i => ?_, h'.issued⟩
  by_cases hi : i = n
  case pos =>
    subst hi
    simp only [World.step, World.atNode, World.apply, Table.modify_self]
    exact (h.nodes i).transmit fun y hy => absurd hy (Option.not_mem_none y)
  case neg =>
    simp only [World.step, World.atNode, World.apply, Table.modify_of_ne _ _ hi]
    exact h.nodes i

/-- The net that begins. -/
lemma init_inv : init.Inv net where
  air a ha := by cases ha
  nodes i :=
    { ss := fun h => absurd h Code.noConfusion
      ds := fun h => absurd h Code.noConfusion
      sent := fun y hy => absurd hy (Option.not_mem_none y)
      taken := fun t ht => absurd ht (Option.not_mem_none t) }
  issued l hl := by cases hl

/-- One step under the guard keeps the invariant. -/
lemma Inv.step {e : NetEvent} (h : w.Inv net) (g : w.Guard net e) : (w.step net e).Inv net := by
  cases e with
  | request n slot dst double r =>
    dsimp only [World.step]
    split
    case isTrue => exact h
    case isFalse =>
      have hc : (if double then Code.dsTwr else .ssTwr) = .ssTwr ∨
          (if double then Code.dsTwr else .ssTwr) = .dsTwr := by
        cases double with
        | true => exact .inr rfl
        | false => exact .inl rfl
      have htx : (r.tx n (w.fresh n)).txtime.origin = some ⟨w.fresh n, n⟩ := rfl
      have h' := h.apply (orderly_request (h.nodes n) slot dst hc rfl rfl htx)
      exact ⟨h'.air, h'.nodes, h'.issued⟩
  | deliver n i r =>
    dsimp only [World.step]
    cases hi : w.air[i]? with
    | none => exact h
    | some m =>
      have ha := h.air m (List.mem_of_getElem? hi)
      dsimp only
      split
      case isTrue hacc =>
        obtain ⟨g1, g2, g3⟩ := g m hi hacc
        exact h.apply (orderly_accepted (net.packages n) ha (h.nodes n) hacc g1 g2 g3)
      case isFalse hacc => exact h.apply (orderly_ignored ha (h.nodes n) hacc)
  | hearOther n m r =>
    dsimp only [World.step]
    split
    case isTrue => exact h
    case isFalse hf => exact h.apply (orderly_hearOther (h.nodes n) _ hf)
  | listen n startRxError => exact h.quietly ((h.nodes n).listen startRxError)
  | pend n => exact h.quietly ((h.nodes n).congr rfl rfl rfl)
  | giveBack n => exact h.quietly ((h.nodes n).congr rfl rfl rfl)
  | giveBackIfZero n => exact h.quietly (h.nodes n).releaseIfZero
  | txComplete n => exact h.apply (orderly_txComplete (h.nodes n) (net.packages n) g _)
  | rxTimeout n => exact h.quietly (h.nodes n).releaseIfZero
  | reset n => exact h.quietly (h.nodes n).reset
  | otherTx n txtime => exact h.otherTx n txtime

/-- In every run whose steps meet the guard, the time stamps combined at each completion belong to
    one exchange. -/
theorem integrity_of_guarded (net : Net) {w : World}
    (rch : Reach (step net) (Guard net) init w) : w.Integrity :=
  (rch.invariant init_inv fun _ _ h g => h.step g).issued

/-! ## An exchange in each protocol, and a late response -/

/-- Nodes whose numbers are their addresses. -/
def twrNet : Net where
  cfg n := Session.twrCfg (UInt16.ofNat n)
  packages n p hp := by
    simpa [Session.twrCfg] using hp

/-- A radio at time `t` without errors. -/
def radio (t : Nat) : Radio := ⟨BitVec.ofNat 32 t, 0, false, 0, BitVec.ofNat 32 (t + 10), false,
  BitVec.ofNat 32 (t + 10)⟩

/-- Node 1 asks node 2, which listens: both complete. -/
def ssExchange : List NetEvent :=
  [.listen 2 false, .request 1 0 2 false (radio 0), .deliver 2 0 (radio 5), .deliver 1 1 (radio 20),
    .txComplete 1, .deliver 2 2 (radio 40)]

/-- The call at node 1 has returned. Node 1 listens three times and answers requests that are not
    pursued, so that its ring holds headers. -/
def ringFilled : List NetEvent :=
  [.pend 1, .giveBackIfZero 1,
    .listen 1 false, .request 2 1 1 false (radio 100), .deliver 1 3 (radio 105), .rxTimeout 1,
    .rxTimeout 2, .listen 1 false, .request 2 1 1 false (radio 200), .deliver 1 5 (radio 205),
    .rxTimeout 1, .rxTimeout 2, .listen 1 false, .request 2 1 1 false (radio 300),
    .deliver 1 7 (radio 305), .rxTimeout 1, .rxTimeout 2]

/-- Node 1 asks node 2 for a double-sided exchange. -/
def dsExchange : List NetEvent :=
  [.listen 2 false, .request 1 0 2 true (radio 400), .deliver 2 9 (radio 405),
    .deliver 1 10 (radio 420), .deliver 2 11 (radio 440), .txComplete 2, .deliver 1 12 (radio 460)]

/-- Exchanges of both kinds between two nodes. -/
theorem integrity_exchanges :
    ((ssExchange ++ ringFilled ++ dsExchange).foldl (step twrNet) init).Integrity ∧
    ((ssExchange ++ ringFilled ++ dsExchange).foldl (step twrNet) init).issued.map List.length =
      [4, 4, 8, 8] := by
  have hall : Allowed (step twrNet) (Guard twrNet) init
      (ssExchange ++ ringFilled ++ dsExchange) := by decide +kernel
  exact ⟨integrity_of_guarded _ (Reach.of_allowed hall), by decide +kernel⟩

/-- The response of node 2 comes after node 1 has given up and asked node 3: node 1 combines it with
    the time of its request to node 3. -/
theorem integrity_fails :
    ¬ ∀ (net : Net) (es : List NetEvent), (es.foldl (step net) init).Integrity := by
  intro h
  have hi := h twrNet [.listen 2 false, .request 1 0 2 false (radio 0), .deliver 2 0 (radio 5),
    .rxTimeout 1, .pend 1, .giveBackIfZero 1, .request 1 0 3 false (radio 100),
    .deliver 1 1 (radio 120), .txComplete 1]
  have hr := fun l hl => (hi l hl).request_eq
  revert hr
  clear hi
  decide +kernel

end World

end UwbCore.Rng
