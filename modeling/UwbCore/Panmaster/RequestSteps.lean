import UwbCore.Panmaster.Interleave

/-!
# The steps of a request

A request that is reserved, filled and finished beside a run of `panmaster_postprocess` keeps the invariant of
both.
-/

namespace UwbCore.Panmaster
open UwbCore.Lib

variable {cfg : Syscfg} {ns : NodeStore Fcb} {w : TaskWorld}

/-- No entry behind the first free one is in use on the same side of the run. -/
lemma Packed.before_free (h : Packed cfg w) {k j : Nat} (hk : (w.st.nodesToSave k).euid = 0)
    (hj : j < cfg.nodesToSave) (hne : (w.st.nodesToSave j).euid ≠ 0)
    (hside : w.run.pos ≤ k → w.run.pos ≤ j) : Before w.run.pos j k := by
  rcases Nat.lt_or_ge j w.run.pos with hlow | hhigh
  · have hklow : k < w.run.pos := Nat.lt_of_not_le fun hle => absurd (hside hle) (by omega)
    have hjk : j < k := by
      by_contra hjk
      rcases Nat.lt_or_eq_of_le (Nat.le_of_not_lt hjk) with hlt | rfl
      · exact h.below j hlow hne k hlt hk
      · exact hne hk
    exact .inr ⟨by omega, hjk⟩
  · rcases Nat.lt_or_ge k w.run.pos with hklow | hkhigh
    · exact .inl ⟨hhigh, hklow⟩
    · have hjk : j < k := by
        by_contra hjk
        rcases Nat.lt_or_eq_of_le (Nat.le_of_not_lt hjk) with hlt | rfl
        · exact h.above j hj hne k hkhigh hlt hk
        · exact hne hk
      exact .inr ⟨by omega, hjk⟩

/-- The first free entry may be filled. -/
lemma Packed.fill (h : Packed cfg w) {w' : TaskWorld} {k : Nat} (hrun : w'.run = w.run)
    (hlt : ∀ j < k, (w.st.nodesToSave j).euid ≠ 0)
    (huse : ∀ j, (w'.st.nodesToSave j).euid ≠ 0 ↔ j = k ∨ (w.st.nodesToSave j).euid ≠ 0) :
    Packed cfg w' := by
  refine ⟨fun j hj hne a ha => ?_, fun j hj hne a hpa ha => ?_⟩
  · rw [hrun] at hj
    rcases (huse j).mp hne with rfl | hne
    · exact (huse a).mpr (.inr (hlt a ha))
    · exact (huse a).mpr (.inr (h.below j hj hne a ha))
  · rw [hrun] at hpa
    rcases (huse j).mp hne with rfl | hne
    · exact (huse a).mpr (.inr (hlt a ha))
    · exact (huse a).mpr (.inr (h.above j hj hne a hpa ha))

/-- Entries in use stay in use. -/
lemma Packed.congr (h : Packed cfg w) {w' : TaskWorld} (hrun : w'.run.pos = w.run.pos)
    (huse : ∀ j, (w'.st.nodesToSave j).euid = (w.st.nodesToSave j).euid) : Packed cfg w' := by
  refine ⟨fun j hj hne a ha => ?_, fun j hj hne a hpa ha => ?_⟩
  · rw [huse] at hne ⊢
    exact h.below j (hrun ▸ hj) hne a ha
  · rw [huse] at hne ⊢
    exact h.above j hj hne a (hrun ▸ hpa) ha

/-- An entry is reserved. -/
lemma TaskInv.reserve (h : TaskInv cfg w) {euid : Nat} {request : PanRequest} {buf : ResponseBuf}
    (g : TaskGuard cfg ns w (.reserve euid request buf)) :
    TaskInv cfg (taskStep cfg ns w (.reserve euid request buf)) := by
  obtain ⟨h0, hg⟩ := g
  rw [taskStep, requestStep]
  cases hreq : w.req with
  | reserved => exact h
  | filled => exact h
  | idle =>
    rw [findFirstEmptyNodesToSave]
    cases hm : w.run.holdsMutex with
    | true => exact h
    | false =>
      cases hk : emptySaveEntry cfg w.st with
      | none => exact h
      | some k =>
        obtain ⟨hkn, hk0, hlt⟩ := emptySaveEntry_some hk
        simp only [Bool.false_eq_true, if_false]
        have hother : ∀ j ≠ k, (w.st.reserve k euid).nodesToSave j = w.st.nodesToSave j :=
          fun j hj => if_neg hj
        have hself : ((w.st.reserve k euid).nodesToSave k).euid = euid := by
          rw [State.reserve_nodesToSave, if_pos rfl]
        have hne : ∀ j, (w.st.nodesToSave j).euid ≠ 0 → j ≠ k := by
          rintro j hj rfl
          exact hj hk0
        have huse : ∀ j, ((w.st.reserve k euid).nodesToSave j).euid ≠ 0 ↔
            j = k ∨ (w.st.nodesToSave j).euid ≠ 0 := by
          intro j
          by_cases hj : j = k
          · subst hj
            simp [hself, h0]
          · simp [hother j hj, hj]
        -- the new entry is in progress, the waiting ones are as before
        have hs : SameWaiting cfg w { w with
            st := w.st.reserve k euid, req := .reserved k euid request buf } := by
          refine ⟨fun j => ?_, fun j hj => hother j (hne j hj.2.1), fun _ _ _ _ hb => hb, rfl⟩
          by_cases hj : j = k
          · subst hj
            exact ⟨fun hw => absurd rfl hw.2.2.1, fun hw => absurd hk0 hw.2.1⟩
          · simp only [TaskWorld.Waiting, RequestStep.idx_reserved, RequestStep.idx_idle, hreq,
              hother j hj, ne_eq, Option.some.injEq, Ne.symm hj, not_false_eq_true, reduceCtorEq]
        refine ⟨h.handed, hs.complete h.complete rfl, h.packed.fill rfl hlt huse, ?_, ?_,
          fun e q rec hl => hs.newest (h.newest e q rec hl), h.start_lt, h.last_lt, ?_, ?_⟩
        · refine hs.runOk h.run_ok rfl fun i _ hi0 _ => ⟨(huse i).mpr (.inr hi0), ?_⟩
          simpa using (hne i hi0).symm
        · refine ⟨hkn, h0, hself, fun j hj hje => ?_⟩
          have hj := (hs.waiting j).mp hj
          rw [hs.entry j hj] at hje
          refine h.packed.before_free hk0 hj.1 hj.2.1 fun hpos => ?_
          by_contra hlow
          exact hg k hk hpos j (Nat.lt_of_not_le hlow) hje
        · intro hrun e hl hse j hj hje
          have hj := (hs.waiting j).mp hj
          rw [hs.entry j hj] at hje
          exact h.since hrun e hl hse j hj hje
        · intro e rec hd
          obtain ⟨hq, hno⟩ := h.due e rec hd
          exact ⟨hq, hs.absent hno⟩

/-- Filling writes the entry of the request, and its euid there. -/
lemma fillNode_entry (tv : Timeval) (utc : Int) {k euid : Nat} (role : Nat) {s : State Fcb}
    (hk : (s.nodesToSave k).euid = euid) :
    (∀ j ≠ k, (fillNode cfg tv utc k euid role s).2.nodesToSave j = s.nodesToSave j) ∧
      ((fillNode cfg tv utc k euid role s).2.nodesToSave k).euid = euid ∧
      (fillNode cfg tv utc k euid role s).2.store = s.store := by
  rw [fillNode]
  cases hf : findByEuid cfg s.nodeIdx euid with
  | some i =>
    refine ⟨fun j hj => if_neg hj, ?_, rfl⟩
    simp only [fillKnown, Table.modify_self]
    exact (findByEuid_some hf).2.2
  | none =>
    simp only
    cases findFreeIdx cfg s.nodeIdx with
    | some i =>
      refine ⟨fun j hj => if_neg hj, ?_, rfl⟩
      simp only [fillNew, Table.modify_self]
    | none => exact ⟨fun _ _ => rfl, hk, rfl⟩

/-- A request that finds a place is filled into its entry. -/
lemma fillNode_some (tv : Timeval) (utc : Int) (k : Nat) {euid : Nat} (role : Nat) {s : State Fcb}
    (h : findByEuid cfg s.nodeIdx euid ≠ none ∨ findFreeIdx cfg s.nodeIdx ≠ none) :
    (fillNode cfg tv utc k euid role s).1 = some k := by
  rw [fillNode]
  cases hf : findByEuid cfg s.nodeIdx euid with
  | some i => rfl
  | none =>
    rw [hf] at h
    obtain ⟨i, hi⟩ := Option.ne_none_iff_exists'.mp (h.resolve_left (absurd rfl))
    simp only [hi]

/-- It is filled. -/
lemma TaskInv.fill (h : TaskInv cfg w) {tv : Timeval} {utc : Int}
    (g : TaskGuard cfg ns w (.fill tv utc)) :
    TaskInv cfg (taskStep cfg ns w (.fill tv utc)) := by
  rw [taskStep, requestStep]
  rw [TaskGuard] at g
  cases hreq : w.req with
  | idle => exact h
  | filled => exact h
  | reserved k euid request buf =>
    rw [hreq] at g
    have hq := h.req_ok
    rw [RequestOk, hreq] at hq
    obtain ⟨hkn, h0, hke, hb⟩ := hq
    obtain ⟨hother, hself, hstore⟩ := fillNode_entry tv utc request.role hke
    have hsome := fillNode_some tv utc k request.role g
    dsimp only
    generalize fillNode cfg tv utc k euid request.role w.st = r at hother hself hstore hsome ⊢
    obtain ⟨r, st⟩ := r
    obtain rfl : r = some k := hsome
    simp only at hother hself hstore ⊢
    have huse : ∀ j, (st.nodesToSave j).euid = (w.st.nodesToSave j).euid := by
      intro j
      by_cases hj : j = k
      · rw [hj, hself, hke]
      · rw [hother j hj]
    have hidx : w.req.idx = some k := by rw [hreq]; rfl
    have hs : SameWaiting cfg w { w with
        st := st, req := .filled k (filledRecord st k request) request buf } := by
      refine ⟨fun j => ?_, fun j hj => hother j ?_, fun _ _ _ _ hb => hb, hstore⟩
      · simp only [TaskWorld.Waiting, huse, hidx, RequestStep.idx_filled]
      · rintro rfl
        exact hj.2.2.1 hidx
    refine ⟨h.handed, hs.complete h.complete rfl, h.packed.congr rfl huse,
      hs.runOk h.run_ok rfl fun i _ hi0 hi => ⟨(huse i).symm ▸ hi0, by rwa [hidx] at hi⟩, ?_,
      fun e q rec hl => hs.newest (h.newest e q rec hl), h.start_lt, h.last_lt, ?_, ?_⟩
    · refine ⟨hkn, ?_, rfl, fun j hj hje => ?_⟩
      · rw [show (filledRecord st k request).euid = euid from hself]
        exact h0
      · have hj := (hs.waiting j).mp hj
        rw [hs.entry j hj, show (filledRecord st k request).euid = euid from hself] at hje
        exact hb j hj hje
    · intro hrun e hl hse j hj hje
      have hj := (hs.waiting j).mp hj
      rw [hs.entry j hj] at hje
      exact h.since hrun e hl hse j hj hje
    · intro e rec hd
      obtain ⟨hq, hno⟩ := h.due e rec hd
      exact ⟨hq, hs.absent hno⟩

/-- It is finished. -/
lemma TaskInv.finish (h : TaskInv cfg w) (tv : Timeval) :
    TaskInv cfg (taskStep cfg ns w (.finish tv)) := by
  rw [taskStep, requestStep]
  cases hreq : w.req with
  | idle => exact h
  | reserved => exact h
  | filled k rec request buf =>
    have hq := h.req_ok
    rw [RequestOk, hreq] at hq
    obtain ⟨hkn, h0, hke, hb⟩ := hq
    have hidx : w.req.idx = some k := by rw [hreq]; rfl
    dsimp only
    have hother : ∀ j ≠ k,
        (panrequestFinish cfg tv request buf k w.st).2.nodesToSave j = w.st.nodesToSave j :=
      fun j hj => if_neg hj
    have hself : ((panrequestFinish cfg tv request buf k w.st).2.nodesToSave k).record = rec := by
      rw [← hke]
      simp only [panrequestFinish, Table.modify_self]
      rfl
    have hstore : (panrequestFinish cfg tv request buf k w.st).2.store = w.st.store := rfl
    generalize (panrequestFinish cfg tv request buf k w.st).2 = st at hother hself hstore ⊢
    have heuid : (st.nodesToSave k).euid = rec.euid := by
      rw [← hself]
      rfl
    have huse : ∀ j, (st.nodesToSave j).euid = (w.st.nodesToSave j).euid := by
      intro j
      by_cases hj : j = k
      · rw [hj, heuid, ← hke]
        rfl
      · rw [hother j hj]
    have hnotsaved : w.run ≠ .saved k := by
      intro hrun
      have hr := h.run_ok
      rw [RunOk, hrun] at hr
      exact hr.2.2 hidx
    -- the entry of the request waits from here on
    have hwait : ∀ j, TaskWorld.Waiting cfg { w with
        st := st, req := .idle, accepted := w.accepted ++ [rec]
        last := w.last.modify rec.euid fun _ => some (w.accepted.length, rec)
        due := w.due.modify rec.euid fun _ => none } j ↔ j = k ∨ w.Waiting cfg j := by
      intro j
      simp only [TaskWorld.Waiting, huse, hidx, RequestStep.idx_idle]
      by_cases hj : j = k
      · subst hj
        have h0' : (w.st.nodesToSave j).euid ≠ 0 := by rw [← huse, heuid]; exact h0
        simp [hkn, h0', hnotsaved]
      · simp [hj, Ne.symm hj]
    have hne : ∀ j, w.Waiting cfg j → j ≠ k := by
      rintro j hj rfl
      exact hj.2.2.1 hidx
    refine ⟨fun r hr => List.mem_append_left _ (h.handed r hr), fun j hj => ?_,
      h.packed.congr rfl huse, ?_, trivial, fun e q r hl => ?_, fun e q r hl => ?_,
      fun e q r hl => ?_, fun hrun e hl hse j hj hje => ?_, fun e r hd => ?_⟩
    · rcases (hwait j).mp hj with rfl | hj
      · exact List.mem_append_right _ (by simp [hself])
      · rw [hother j (hne j hj)]
        exact List.mem_append_left _ (h.complete j hj)
    · have hr := h.run_ok
      rw [RunOk] at hr ⊢
      dsimp only
      cases hrun : w.run with
      | idle => trivial
      | scanning => trivial
      | copied i node =>
        rw [hrun] at hr
        obtain ⟨hw, hn⟩ := hr
        refine ⟨?_, hn.trans (hother i (hne i hw)).symm⟩
        rw [← hrun]
        exact (hwait i).mpr (.inr hw)
      | saved i =>
        rw [hrun] at hr
        obtain ⟨hin, hi0, -⟩ := hr
        exact ⟨hin, (huse i).symm ▸ hi0, fun h => by cases h⟩
    · dsimp only at hl
      by_cases he : e = rec.euid
      · subst he
        rw [Table.modify_self] at hl
        cases hl
        refine .inl ⟨k, (hwait k).mpr (.inl rfl), heuid, hself, fun a ha hae => ?_⟩
        refine ((hwait a).mp ha).imp_right fun ha => ?_
        dsimp only at hae
        rw [hother a (hne a ha)] at hae
        exact hb a ha hae
      · rw [Table.modify_of_ne _ _ he] at hl
        rcases h.newest e q r hl with ⟨j, hj, hje, hjr, hjb⟩ | ⟨hno, hst⟩
        · refine .inl ⟨j, (hwait j).mpr (.inr hj), ?_, ?_, fun a ha hae => ?_⟩
          · rw [← hje]
            exact huse j
          · rw [← hjr]
            exact congrArg Node.record (hother j (hne j hj))
          · rcases (hwait a).mp ha with rfl | ha
            · exact absurd (hae.symm.trans heuid) he
            · exact hjb a ha ((huse a).symm.trans hae)
        · refine .inr ⟨fun j hj hje => ?_, ?_⟩
          · rcases (hwait j).mp hj with rfl | hj
            · exact he (hje.symm.trans heuid)
            · exact hno j hj ((huse j).symm.trans hje)
          · rw [StoredAs, hstore]
            exact hst
    · exact (h.start_lt e q r hl).trans_le (by simp)
    · dsimp only at hl
      by_cases he : e = rec.euid
      · subst he
        rw [Table.modify_self] at hl
        cases hl
        simp
      · rw [Table.modify_of_ne _ _ he] at hl
        exact (h.last_lt e q r hl).trans_le (by simp)
    · dsimp only at hl hse hje
      by_cases he : e = rec.euid
      · -- the snapshot was taken before this request was accepted
        subst he
        rw [Table.modify_self] at hse
        exact absurd (h.start_lt _ _ _ hse) (lt_irrefl _)
      · rw [Table.modify_of_ne _ _ he] at hl hse
        rcases (hwait j).mp hj with rfl | hj
        · exact absurd (hje.symm.trans heuid) he
        · exact h.since hrun e hl hse j hj ((huse j).symm.trans hje)
    · dsimp only at hd ⊢
      by_cases he : e = rec.euid
      · subst he
        rw [Table.modify_self] at hd
        cases hd
      · rw [Table.modify_of_ne _ _ he] at hd ⊢
        obtain ⟨hq, hno⟩ := h.due e r hd
        refine ⟨hq, fun j hj hje => ?_⟩
        rcases (hwait j).mp hj with rfl | hj
        · exact he (hje.symm.trans heuid)
        · exact hno j hj ((huse j).symm.trans hje)

end UwbCore.Panmaster
