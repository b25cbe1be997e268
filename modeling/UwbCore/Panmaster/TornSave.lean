import UwbCore.Panmaster.RequestSteps

/-!
# No torn or lost save

The steps of a run of `panmaster_postprocess` keep the invariant beside a request, and with those of the request
no record is handed over before it is complete, and the newest one of a node is saved last
(`noTornSave_of_guarded`).
-/

namespace UwbCore.Panmaster
open UwbCore.Lib

variable {cfg : Syscfg} {ns : NodeStore Fcb} {w : TaskWorld}

/-! ## The steps of a run -/

/-- A run starts. -/
lemma TaskInv.start (h : TaskInv cfg w) : TaskInv cfg (taskStep cfg ns w .start) := by
  rw [taskStep, runStep]
  cases hrun : w.run with
  | scanning => exact h
  | copied => exact h
  | saved => exact h
  | idle =>
    dsimp only
    have hpos : w.run.pos = 0 := by rw [hrun]; rfl
    have hs : SameWaiting cfg w { w with run := .scanning 0, atStart := w.last } := by
      refine ⟨fun j => ?_, fun _ _ => rfl, fun a b _ _ hb => ?_, rfl⟩
      · simp only [TaskWorld.Waiting, hrun, ne_eq, reduceCtorEq, not_false_eq_true]
      · rw [hpos] at hb
        exact hb
    refine ⟨h.handed, hs.complete h.complete rfl, h.packed.congr hpos.symm fun _ => rfl, trivial,
      hs.requestOk h.req_ok rfl fun _ _ => rfl, fun e q r hl => hs.newest (h.newest e q r hl),
      h.last_lt, h.last_lt, fun _ e _ _ j _ _ => Nat.zero_le j, fun e r hd => ?_⟩
    obtain ⟨hq, hno⟩ := h.due e r hd
    exact ⟨hq, hs.absent hno⟩

/-- The run is over: the order starts anew. -/
lemma TaskInv.scan_end (h : TaskInv cfg w) {i : Nat} (hrun : w.run = .scanning i)
    (hend : cfg.nodesToSave ≤ i) : TaskInv cfg { w with run := .idle, due := dueAfter w } := by
  have hpos : w.run.pos = i := by rw [hrun]; rfl
  have hreq : ∀ k, w.req.idx = some k → k < cfg.nodesToSave := by
    intro k hk
    have hq := h.req_ok
    rw [RequestOk] at hq
    cases hr : w.req with
    | idle =>
      rw [hr] at hk
      cases hk
    | reserved =>
      rw [hr] at hq hk
      cases hk
      exact hq.1
    | filled =>
      rw [hr] at hq hk
      cases hk
      exact hq.1
  have hs : SameWaiting cfg w { w with run := .idle, due := dueAfter w } := by
    refine ⟨fun j => ?_, fun _ _ => rfl, fun a b ha hb hab => ?_, rfl⟩
    · simp only [TaskWorld.Waiting, hrun, ne_eq, reduceCtorEq, not_false_eq_true]
    · have han := ha.1
      have hbn : b < cfg.nodesToSave := hb.elim (fun hb => hb.1) (hreq b)
      rw [hpos] at hab
      rcases hab with ⟨hia, -⟩ | ⟨-, hlt⟩
      · omega
      · exact .inr ⟨Iff.intro (fun _ => Nat.zero_le b) (fun _ => Nat.zero_le a), hlt⟩
  refine ⟨h.handed, hs.complete h.complete rfl, ⟨fun j hj => absurd hj (Nat.not_lt_zero j), ?_⟩,
    trivial, hs.requestOk h.req_ok rfl fun _ _ => rfl,
    fun e q r hl => hs.newest (h.newest e q r hl), h.start_lt, h.last_lt,
    fun hne => absurd rfl hne, fun e r hd => ?_⟩
  · intro j hj hne a _ ha
    exact h.packed.below j (by omega) hne a ha
  · dsimp only [dueAfter] at hd
    split at hd
    case isTrue hse =>
      obtain ⟨⟨q, r'⟩, hl, rfl⟩ := Option.map_eq_some_iff.mp hd
      refine ⟨⟨q, hl⟩, hs.absent fun j hj hje => ?_⟩
      -- whatever waits for this euid is at or behind the end
      have hle := h.since (by simp [hrun]) e (by simp [hl]) hse j hj hje
      have := hj.1
      omega
    case isFalse =>
      obtain ⟨hq, hno⟩ := h.due e r hd
      exact ⟨hq, hs.absent hno⟩

/-- An unused entry is passed: nothing waits from here on. -/
lemma TaskInv.scan_skip (h : TaskInv cfg w) {i : Nat} (hrun : w.run = .scanning i)
    (hi : i < cfg.nodesToSave) (h0 : (w.st.nodesToSave i).euid = 0) :
    TaskInv cfg { w with run := .scanning (i + 1) } := by
  have hpos : w.run.pos = i := by rw [hrun]; rfl
  have hlow : ∀ j < cfg.nodesToSave, (w.st.nodesToSave j).euid ≠ 0 → j < i := by
    intro j hj hne
    by_contra hge
    rcases Nat.lt_or_eq_of_le (Nat.le_of_not_lt hge) with hlt | rfl
    · exact h.packed.above j hj hne i hpos.le hlt h0
    · exact hne h0
  have hreq : ∀ k, w.req.idx = some k → k < i := by
    intro k hk
    have hq := h.req_ok
    rw [RequestOk] at hq
    cases hr : w.req with
    | idle =>
      rw [hr] at hk
      cases hk
    | reserved =>
      rw [hr] at hq hk
      cases hk
      exact hlow k hq.1 (hq.2.2.1.symm ▸ hq.2.1)
    | filled k' rec request buf =>
      rw [hr] at hq hk
      cases hk
      refine hlow k hq.1 ?_
      have he : (w.st.nodesToSave k).euid = rec.euid := by
        rw [← hq.2.2.1]
        rfl
      rw [he]
      exact hq.2.1
  have hs : SameWaiting cfg w { w with run := .scanning (i + 1) } := by
    refine ⟨fun j => ?_, fun _ _ => rfl, fun a b ha hb hab => ?_, rfl⟩
    · simp only [TaskWorld.Waiting, hrun, ne_eq, reduceCtorEq, not_false_eq_true]
    · have hai := hlow a ha.1 ha.2.1
      have hbi : b < i := hb.elim (fun hb => hlow b hb.1 hb.2.1) (hreq b)
      rw [hpos] at hab
      simp only [Before, RunStep.pos] at hab ⊢
      omega
  refine ⟨h.handed, hs.complete h.complete rfl, ⟨fun j hj hne a ha => ?_, fun j hj hne a hpa ha => ?_⟩,
    trivial, hs.requestOk h.req_ok rfl fun _ _ => rfl,
    fun e q r hl => hs.newest (h.newest e q r hl), h.start_lt, h.last_lt,
    fun _ e hl hse j hj hje => ?_, fun e r hd => ?_⟩
  · have hji : j < i := hlow j (by simp only [RunStep.pos] at hj; omega) hne
    exact h.packed.below j (hpos ▸ hji) hne a ha
  · exact h.packed.above j hj hne a (by simp only [RunStep.pos] at hpa; omega) ha
  · have hj := (hs.waiting j).mp hj
    have hle := h.since (by simp [hrun]) e hl hse j hj hje
    have := hlow j hj.1 hj.2.1
    omega
  · obtain ⟨hq, hno⟩ := h.due e r hd
    exact ⟨hq, hs.absent hno⟩

/-- An entry in use is copied. -/
lemma TaskInv.scan_copy (h : TaskInv cfg w) {i : Nat} (hrun : w.run = .scanning i)
    (hi : i < cfg.nodesToSave) (h0 : (w.st.nodesToSave i).euid ≠ 0) (hreq : w.req.idx ≠ some i) :
    TaskInv cfg { w with run := .copied i (w.st.nodesToSave i) } := by
  have hpos : w.run.pos = i := by rw [hrun]; rfl
  have hs : SameWaiting cfg w { w with run := .copied i (w.st.nodesToSave i) } := by
    refine ⟨fun j => ?_, fun _ _ => rfl, fun a b _ _ hb => ?_, rfl⟩
    · simp only [TaskWorld.Waiting, hrun, ne_eq, reduceCtorEq, not_false_eq_true]
    · rw [hpos] at hb
      exact hb
  refine ⟨h.handed, hs.complete h.complete rfl, h.packed.congr hpos.symm fun _ => rfl,
    ⟨⟨hi, h0, hreq, fun h => by cases h⟩, rfl⟩, hs.requestOk h.req_ok rfl fun _ _ => rfl,
    fun e q r hl => hs.newest (h.newest e q r hl), h.start_lt, h.last_lt,
    fun _ e hl hse j hj hje => ?_, fun e r hd => ?_⟩
  · have hle := h.since (by simp [hrun]) e hl hse j ((hs.waiting j).mp hj) hje
    rw [hpos] at hle
    exact hle
  · obtain ⟨hq, hno⟩ := h.due e r hd
    exact ⟨hq, hs.absent hno⟩

/-- A run looks at the next entry. -/
lemma TaskInv.scan (h : TaskInv cfg w) (g : TaskGuard cfg ns w .scan) :
    TaskInv cfg (taskStep cfg ns w .scan) := by
  rw [taskStep, runStep]
  rw [TaskGuard] at g
  cases hrun : w.run with
  | idle => exact h
  | copied => exact h
  | saved => exact h
  | scanning i =>
    rw [hrun] at g
    dsimp only at g ⊢
    by_cases hend : cfg.nodesToSave ≤ i
    · rw [if_pos hend]
      exact h.scan_end hrun hend
    · have hi := Nat.lt_of_not_le hend
      rw [if_neg hend]
      by_cases h0 : (w.st.nodesToSave i).euid = 0
      · rw [if_pos h0]
        exact h.scan_skip hrun hi h0
      · rw [if_neg h0]
        exact h.scan_copy hrun hi h0 (g hi)

section
variable {lib : FcbLib} {stale : ImageVersion}

/-- A record that need not be saved is stored already, as far as it is compared. -/
lemma storedAs_of_same {f : Fcb} {n : Node}
    (h : saveIsNeeded (panmFcb lib stale) n.euid n f = false) : StoredAs f n.euid n.record := by
  rw [saveIsNeeded] at h
  cases hf : (panmFcb lib stale).findNode f (findEuid n.euid) with
  | none =>
    rw [hf] at h
    cases h
  | some m =>
    rw [hf] at h
    have hfind : panmFcbFindNode f (findEuid n.euid) = some m := hf
    have he : m.euid = n.euid := by
      rw [panmFcbFindNode_findEuid] at hfind
      obtain ⟨x, -, hx⟩ := lastWrite_mem hfind
      rw [byEuid] at hx
      split at hx
      case isTrue hq =>
        cases hx
        simp only [Bool.and_eq_true, beq_iff_eq] at hq
        exact hq.2.symm
      case isFalse => cases hx
    simp only [recordDiffers, Bool.or_eq_false_iff, bne_eq_false_iff_eq] at h
    obtain ⟨⟨⟨⟨hver, -⟩, haddr⟩, hflags⟩, hindex⟩ := h
    refine ⟨m, hfind, ?_⟩
    rw [Node.record, Node.record, he, haddr, hindex, hver, Node.role_of_flags hflags]

/-- After an update the store answers for the euid with the record, and for others as before. -/
lemma update_storedAs {s : State Fcb} {n : Node} (h0 : n.euid ≠ 0)
    (happ : saveIsNeeded (panmFcb lib stale) n.euid n s.store = true →
      ((panmFcb lib stale).save s.store n).records = s.store.records ++ [n]) :
    StoredAs (panmasterUpdateNode (panmFcb lib stale) n.euid n s).store n.euid n.record ∧
      ∀ euid ≠ n.euid, ∀ rec, StoredAs s.store euid rec →
        StoredAs (panmasterUpdateNode (panmFcb lib stale) n.euid n s).store euid rec := by
  rcases panmasterUpdateNode_cases (panmFcb lib stale) n.euid n s with ⟨hneed, e⟩ | ⟨hno, e⟩
  · have happ := happ hneed
    rw [e, panmasterSaveNode_store]
    constructor
    · refine ⟨n, ?_, rfl⟩
      rw [panmFcbFindNode_findEuid, happ, lastWrite_concat, byEuid, if_pos (by simp [h0])]
      rfl
    · rintro euid hne rec ⟨m, hm, hr⟩
      refine ⟨m, ?_, hr⟩
      rw [panmFcbFindNode_findEuid] at hm ⊢
      rw [happ, lastWrite_concat, byEuid, if_neg (by simp [hne]), Option.none_or, hm]
  · rw [e]
    exact ⟨storedAs_of_same hno, fun _ _ _ h => h⟩

/-- An update leaves the entries that wait. -/
lemma panmasterUpdateNode_nodesToSave (ns : NodeStore Fcb) (euid : Nat) (n : Node) (s : State Fcb) :
    (panmasterUpdateNode ns euid n s).nodesToSave = s.nodesToSave := by
  rcases panmasterUpdateNode_cases ns euid n s with ⟨-, e⟩ | ⟨-, e⟩
  · rw [e, panmasterSaveNode_nodesToSave]
  · rw [e]

/-- A run updates an entry. -/
lemma TaskInv.update (h : TaskInv cfg w) (g : TaskGuard cfg (panmFcb lib stale) w .update) :
    TaskInv cfg (taskStep cfg (panmFcb lib stale) w .update) := by
  rw [taskStep, runStep]
  rw [TaskGuard] at g
  cases hrun : w.run with
  | idle => exact h
  | scanning => exact h
  | saved => exact h
  | copied i n =>
    rw [hrun] at g
    have hr := h.run_ok
    rw [RunOk, hrun] at hr
    obtain ⟨hwi, rfl⟩ := hr
    dsimp only at g ⊢
    have hpos : w.run.pos = i := by rw [hrun]; rfl
    obtain ⟨hstored, hkept⟩ := update_storedAs hwi.2.1 g
    have hsave := panmasterUpdateNode_nodesToSave (panmFcb lib stale) (w.st.nodesToSave i).euid
      (w.st.nodesToSave i) w.st
    generalize panmasterUpdateNode (panmFcb lib stale) (w.st.nodesToSave i).euid
      (w.st.nodesToSave i) w.st = st at hstored hkept hsave ⊢
    -- all but entry `i` wait as before
    have hwait : ∀ j, TaskWorld.Waiting cfg { w with
        st := st, handed := w.handed ++ [(w.st.nodesToSave i).record], run := .saved i } j ↔
        j ≠ i ∧ w.Waiting cfg j := by
      intro j
      simp only [TaskWorld.Waiting, hsave, hrun, ne_eq, RunStep.saved.injEq, reduceCtorEq,
        not_false_eq_true, and_true, eq_comm (a := i)]
      tauto
    refine ⟨fun r hr => ?_, fun j hj => ?_, h.packed.congr hpos.symm fun j => by rw [hsave],
      ⟨hwi.1, hsave ▸ hwi.2.1, hwi.2.2.1⟩, ?_, fun e q r hl => ?_, h.start_lt, h.last_lt,
      fun _ e hl hse j hj hje => ?_, fun e r hd => ?_⟩
    · rcases List.mem_append.mp hr with hr | hr
      · exact h.handed r hr
      · rw [List.mem_singleton.mp hr]
        exact h.complete i hwi
    · simp only [hsave]
      exact h.complete j ((hwait j).mp hj).2
    · have hq := h.req_ok
      rw [RequestOk] at hq ⊢
      dsimp only
      rw [hpos] at hq
      cases hreq : w.req with
      | idle => trivial
      | reserved k euid request buf =>
        rw [hreq] at hq
        obtain ⟨hkn, h0, hke, hb⟩ := hq
        refine ⟨hkn, h0, hsave ▸ hke, fun j hj hje => hb j ?_ ?_⟩
        · rw [← hreq] at hj
          exact ((hwait j).mp hj).2
        · rw [← hje]
          exact congrArg Node.euid (congrFun hsave j).symm
      | filled k rec request buf =>
        rw [hreq] at hq
        obtain ⟨hkn, h0, hke, hb⟩ := hq
        refine ⟨hkn, h0, by rw [filledRecord, hsave]; exact hke, fun j hj hje => hb j ?_ ?_⟩
        · rw [← hreq] at hj
          exact ((hwait j).mp hj).2
        · rw [← hje]
          exact congrArg Node.euid (congrFun hsave j).symm
    · have hgone : ∀ j, w.Waiting cfg j → j ≠ i → TaskWorld.Waiting cfg { w with
          st := st, handed := w.handed ++ [(w.st.nodesToSave i).record], run := .saved i } j :=
        fun j hj hji => (hwait j).mpr ⟨hji, hj⟩
      rcases h.newest e q r hl with ⟨j, hj, hje, hjr, hjb⟩ | ⟨hno, hst⟩
      · by_cases hji : j = i
        · -- the newest record of the euid is the one just saved
          subst hji
          refine .inr ⟨fun a ha hae => ?_, ?_⟩
          · obtain ⟨haj, ha⟩ := (hwait a).mp ha
            simp only [hsave] at hae
            have hb := (hjb a ha hae).resolve_left haj
            rw [hpos] at hb
            simp only [Before] at hb
            omega
          · rw [← hje, ← hjr]
            exact hstored
        · refine .inl ⟨j, hgone j hj hji, ?_, ?_, fun a ha hae => ?_⟩
          · simp only [hsave]
            exact hje
          · simp only [hsave]
            exact hjr
          · simp only [hsave] at hae
            have hb := hjb a ((hwait a).mp ha).2 hae
            rw [hpos] at hb
            exact hb
      · refine .inr ⟨fun j hj hje => ?_, hkept e ?_ r hst⟩
        · simp only [hsave] at hje
          exact hno j ((hwait j).mp hj).2 hje
        · rintro rfl
          exact hno i hwi rfl
    · simp only [hsave] at hje
      have hle := h.since (by simp [hrun]) e hl hse j ((hwait j).mp hj).2 hje
      rw [hpos] at hle
      exact hle
    · obtain ⟨hq, hno⟩ := h.due e r hd
      refine ⟨hq, fun j hj hje => ?_⟩
      simp only [hsave] at hje
      exact hno j ((hwait j).mp hj).2 hje

end

/-- A run clears an entry. -/
lemma TaskInv.clear (h : TaskInv cfg w) : TaskInv cfg (taskStep cfg ns w .clear) := by
  rw [taskStep, runStep]
  cases hrun : w.run with
  | idle => exact h
  | scanning => exact h
  | copied => exact h
  | saved i =>
    dsimp only
    have hr := h.run_ok
    rw [RunOk, hrun] at hr
    obtain ⟨hi, hi0, hireq⟩ := hr
    have hpos : w.run.pos = i := by rw [hrun]; rfl
    have hother : ∀ j ≠ i, (w.st.clearSave i).nodesToSave j = w.st.nodesToSave j := fun j hj =>
      if_neg hj
    have hself : ((w.st.clearSave i).nodesToSave i).euid = 0 := by
      rw [State.clearSave_nodesToSave, if_pos rfl]
      rfl
    have hnot : ∀ j, ((w.st.clearSave i).nodesToSave j).euid ≠ 0 → j ≠ i := by
      rintro j hj rfl
      exact hj hself
    have hwi : ∀ j, w.Waiting cfg j → j ≠ i := by
      rintro j hj rfl
      exact hj.2.2.2 hrun
    have hs : SameWaiting cfg w { w with st := w.st.clearSave i, run := .scanning (i + 1) } := by
      refine ⟨fun j => ?_, fun j hj => hother j (hwi j hj), fun a b ha hb hab => ?_, rfl⟩
      · by_cases hj : j = i
        · subst hj
          exact ⟨fun hw => absurd hself hw.2.1, fun hw => absurd rfl (hwi j hw)⟩
        · simp only [TaskWorld.Waiting, hother j hj, hrun, ne_eq, RunStep.saved.injEq,
            Ne.symm hj, reduceCtorEq, not_false_eq_true]
      · have hai := hwi a ha
        have hbi : b ≠ i := by
          rcases hb with hb | hb
          · exact hwi b hb
          · rintro rfl
            exact hireq hb
        rw [hpos] at hab
        simp only [Before, RunStep.pos] at hab ⊢
        omega
    refine ⟨h.handed, hs.complete h.complete rfl, ⟨fun j hj hne a ha => ?_,
      fun j hj hne a hpa ha => ?_⟩, trivial, hs.requestOk h.req_ok rfl fun k hk => hother k ?_,
      fun e q r hl => hs.newest (h.newest e q r hl), h.start_lt, h.last_lt,
      fun _ e hl hse j hj hje => ?_, fun e r hd => ?_⟩
    · have hji := hnot j hne
      simp only [RunStep.pos] at hj
      dsimp only at hne ⊢
      rw [hother j hji] at hne
      rw [hother a (by omega)]
      exact h.packed.below j (by omega) hne a ha
    · have hji := hnot j hne
      simp only [RunStep.pos] at hpa
      dsimp only at hne ⊢
      rw [hother j hji] at hne
      rw [hother a (by omega)]
      exact h.packed.above j hj hne a (by omega) ha
    · rintro rfl
      exact hireq hk
    · have hj := (hs.waiting j).mp hj
      rw [hs.entry j hj] at hje
      have hle := h.since (by simp [hrun]) e hl hse j hj hje
      have hji := hwi j hj
      simp only [RunStep.pos]
      omega
    · obtain ⟨hq, hno⟩ := h.due e r hd
      exact ⟨hq, hs.absent hno⟩

/-! ## No torn or lost save -/

/-- In a run of guarded steps every record handed over is that of an accepted request, and a
    finished run leaves the last accepted record of each euid in the store. -/
theorem noTornSave_of_guarded {lib : FcbLib} {stale : ImageVersion} (store : Fcb) (panId : Nat)
    (rch : Reach (taskStep cfg (panmFcb lib stale)) (TaskGuard cfg (panmFcb lib stale))
      (.init store panId) w) : NoTornSave w := by
  refine (rch.invariant (P := TaskInv cfg) (.init store panId) fun w e h g => ?_).noTornSave
  cases e with
  | reserve => exact h.reserve g
  | fill => exact h.fill g
  | finish tv => exact h.finish tv
  | start => exact h.start
  | scan => exact h.scan g
  | update => exact h.update g
  | clear => exact h.clear

/-- A second node asks while the record of the first is being saved, and is saved by the same run. -/
def requestDuringRun : List TaskEvent :=
  [.reserve 0x101 ⟨1, 20, .zero⟩ .same, .fill ⟨1, 0⟩ 0, .finish ⟨1, 0⟩, .start, .scan, .update,
    .reserve 0x102 ⟨1, 20, .zero⟩ .same, .clear, .fill ⟨1, 0⟩ 0, .finish ⟨1, 0⟩, .scan, .update,
    .clear]

/-- A request comes while a run goes on. -/
theorem noTornSave_requestDuringRun :
    NoTornSave (requestDuringRun.foldl (taskStep .dflt (panmFcb .roomy .zero))
      (.init .empty 0x1234)) := by
  have hall : Allowed (taskStep .dflt (panmFcb .roomy .zero))
      (TaskGuard .dflt (panmFcb .roomy .zero)) (.init .empty 0x1234) requestDuringRun := by
    decide +kernel
  exact noTornSave_of_guarded .empty 0x1234 (Reach.of_allowed hall)

/-- An entry that is reserved but not yet filled is copied and handed over. -/
theorem noTornSave_fails :
    ¬ ∀ w, Reach (taskStep .dflt (panmFcb .roomy .zero)) anyEvent (.init .empty 0x1234) w →
      NoTornSave w := by
  intro h
  have hsave := h _ (Reach.of_events
    [.reserve 0x101 ⟨1, 20, .zero⟩ .same, .start, .scan, .update])
  exact absurd (hsave.handed ⟨0x101, 0, 0, 0, .zero⟩ (by decide +kernel)) (by decide +kernel)

end UwbCore.Panmaster
