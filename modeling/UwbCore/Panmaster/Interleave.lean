import UwbCore.Lib.Run
import UwbCore.Panmaster.Load

/-!
# Requests against `panmaster_postprocess`

A request reserves a `nodes_to_save` entry under the mutex and fills it outside, in two steps; a run
of `panmaster_postprocess` copies an entry under the mutex, updates the store without it and clears
the entry under it again. Interleaved step by step, what is handed to the store is complete and the
newest record of each node is saved last as long as no entry is copied while it is being filled and
none is reserved out of order. Here are the steps, the guard and the invariant.
-/

namespace UwbCore.Panmaster
open UwbCore.Lib

/-- The fields that make a record complete. -/
structure Record where
  euid : Nat
  addr : Nat
  index : Nat
  role : Nat
  fwVer : ImageVersion
  deriving DecidableEq, Repr

def Node.record (n : Node) : Record := ⟨n.euid, n.addr, n.index, n.role, n.fwVer⟩

/-- How far a request has come: nothing in progress, entry `k` reserved, or entry `k` filled up to
    its `fw_ver`, to become `rec`. -/
inductive RequestStep where
  | idle
  | reserved (k euid : Nat) (request : PanRequest) (buf : ResponseBuf)
  | filled (k : Nat) (rec : Record) (request : PanRequest) (buf : ResponseBuf)
  deriving DecidableEq, Repr

/-- How far a run of `panmaster_postprocess` has come: none, at entry `i` with the mutex held, or
    without it between the copy of entry `i` and its clearing. -/
inductive RunStep where
  | idle
  | scanning (i : Nat)
  | copied (i : Nat) (node : Node)
  | saved (i : Nat)
  deriving DecidableEq, Repr

structure TaskWorld where
  st : State Fcb
  req : RequestStep
  run : RunStep
  /-- records handed to `panmaster_update_node` -/
  handed : List Record
  /-- records of accepted requests -/
  accepted : List Record
  /-- number and record of the last accepted request of an euid -/
  last : Table (Option (Nat × Record))
  /-- the same when the run in progress was started -/
  atStart : Table (Option (Nat × Record))
  /-- record that a finished run must have left in the store -/
  due : Table (Option Record)

inductive TaskEvent where
  | reserve (euid : Nat) (request : PanRequest) (buf : ResponseBuf)
  | fill (tv : Timeval) (utc : Int)
  | finish (tv : Timeval)
  | start
  | scan
  | update
  | clear
  deriving DecidableEq, Repr

def TaskWorld.init (store : Fcb) (panId : Nat) : TaskWorld where
  st := .init store panId
  req := .idle
  run := .idle
  handed := []
  accepted := []
  last := fun _ => none
  atStart := fun _ => none
  due := fun _ => none

/-- The mutex is held by the run. -/
def RunStep.holdsMutex : RunStep → Bool
  | .scanning _ => true
  | _ => false

/-- The record a request with entry `k` filled will hand over. -/
def filledRecord (s : State Fcb) (k : Nat) (request : PanRequest) : Record :=
  { (s.nodesToSave k).record with fwVer := request.fwVer }

/-- What a finished run must have left in the store: the last accepted record of every euid, if
    that was accepted before the run. -/
def dueAfter (w : TaskWorld) : Table (Option Record) := fun euid =>
  if w.atStart euid = w.last euid then (w.last euid).map Prod.snd else w.due euid

/-- The steps of `panrequest_cb`. -/
def requestStep (cfg : Syscfg) (w : TaskWorld) : TaskEvent → TaskWorld
  | .reserve euid request buf =>
    match w.req, findFirstEmptyNodesToSave cfg w.run.holdsMutex euid w.st with
    | .idle, (some k, st) => { w with st := st, req := .reserved k euid request buf }
    | _, _ => w
  | .fill tv utc =>
    match w.req with
    | .reserved k euid request buf =>
      match fillNode cfg tv utc k euid request.role w.st with
      | (some k, st) =>
        { w with st := st, req := .filled k (filledRecord st k request) request buf }
      | (none, st) => { w with st := st, req := .idle }
    | _ => w
  | .finish tv =>
    match w.req with
    | .filled k rec request buf =>
      { w with
        st := (panrequestFinish cfg tv request buf k w.st).2
        req := .idle
        accepted := w.accepted ++ [rec]
        last := w.last.modify rec.euid fun _ => some (w.accepted.length, rec)
        due := w.due.modify rec.euid fun _ => none }
    | _ => w
  | _ => w

/-- The steps of `panmaster_postprocess`. -/
def runStep (cfg : Syscfg) (ns : NodeStore Fcb) (w : TaskWorld) : TaskEvent → TaskWorld
  | .start =>
    match w.run with
    | .idle => { w with run := .scanning 0, atStart := w.last }
    | _ => w
  | .scan =>
    match w.run with
    | .scanning i =>
      if cfg.nodesToSave ≤ i then { w with run := .idle, due := dueAfter w }
      else if (w.st.nodesToSave i).euid = 0 then { w with run := .scanning (i + 1) }
      else { w with run := .copied i (w.st.nodesToSave i) }
    | _ => w
  | .update =>
    match w.run with
    | .copied i node =>
      { w with
        st := panmasterUpdateNode ns node.euid node w.st
        handed := w.handed ++ [node.record]
        run := .saved i }
    | _ => w
  | .clear =>
    match w.run with
    | .saved i => { w with st := w.st.clearSave i, run := .scanning (i + 1) }
    | _ => w
  | _ => w

def taskStep (cfg : Syscfg) (ns : NodeStore Fcb) (w : TaskWorld) (e : TaskEvent) : TaskWorld :=
  match e with
  | .reserve .. | .fill .. | .finish .. => requestStep cfg w e
  | .start | .scan | .update | .clear => runStep cfg ns w e

/-- The store answers for an euid with this record. -/
def StoredAs (f : Fcb) (euid : Nat) (rec : Record) : Prop :=
  ∃ n, panmFcbFindNode f (findEuid euid) = some n ∧ n.record = rec

/-- No record is handed over incomplete, and none that is due is missing from the store. -/
structure NoTornSave (w : TaskWorld) : Prop where
  handed : ∀ rec ∈ w.handed, rec ∈ w.accepted
  due : ∀ euid rec, w.due euid = some rec → StoredAs w.st.store euid rec

/-! ## Without interruption -/

section
variable {cfg : Syscfg} {ns : NodeStore Fcb} {w : TaskWorld}

/-- The steps of a request taken at once are `panrequest_cb`. -/
lemma request_uninterrupted (h : w.req = .idle) (tv : Timeval) (utc : Int) (euid : Nat)
    (request : PanRequest) (buf : ResponseBuf) :
    ([.reserve euid request buf, .fill tv utc, .finish tv].foldl (taskStep cfg ns) w).st =
      (panrequestCb cfg w.run.holdsMutex tv utc euid request buf w.st).2 := by
  rw [List.foldl_cons, List.foldl_cons, List.foldl_cons, List.foldl_nil, panrequestCb,
    panmasterIdxFindNode]
  rcases hf : findFirstEmptyNodesToSave cfg w.run.holdsMutex euid w.st with ⟨_ | k, st⟩
  · have e : taskStep cfg ns w (.reserve euid request buf) = w := by
      simp only [taskStep, requestStep, h, hf]
    have hst : w.st = st := by
      rw [findFirstEmptyNodesToSave] at hf
      split at hf
      · exact (Prod.mk.inj hf).2
      · split at hf
        · exact (Prod.mk.inj hf).2
        · cases hf
    rw [e]
    simp only [taskStep, requestStep, h]
    exact hst
  · have e : taskStep cfg ns w (.reserve euid request buf) =
        { w with st := st, req := .reserved k euid request buf } := by
      simp only [taskStep, requestStep, h, hf]
    rw [e]
    dsimp only [taskStep, requestStep]
    rcases fillNode cfg tv utc k euid request.role st with ⟨_ | k', st'⟩
    · rfl
    · rfl

/-- The steps of one round taken at once are `postprocessEntry`. -/
lemma round_uninterrupted {i : Nat} (h : w.run = .scanning i) (hi : i < cfg.nodesToSave) :
    ([.scan, .update, .clear].foldl (taskStep cfg ns) w).run = .scanning (i + 1) ∧
      ([.scan, .update, .clear].foldl (taskStep cfg ns) w).st = postprocessEntry ns w.st i := by
  simp only [List.foldl_cons, List.foldl_nil, taskStep, runStep, h, if_neg (Nat.not_le.mpr hi)]
  rw [postprocessEntry]
  by_cases h0 : (w.st.nodesToSave i).euid = 0
  · simp [h0]
  · simp [h0]

/-- The steps of a run, `n` rounds of it. -/
def runEvents (n : Nat) : List TaskEvent :=
  .start :: (List.range n).flatMap fun _ => [.scan, .update, .clear]

/-- The steps of a run taken at once are `panmaster_postprocess`. -/
theorem run_uninterrupted (h : w.run = .idle) :
    ((runEvents cfg.nodesToSave ++ [TaskEvent.scan]).foldl (taskStep cfg ns) w).st =
        panmasterPostprocess cfg ns w.st ∧
      ((runEvents cfg.nodesToSave ++ [TaskEvent.scan]).foldl (taskStep cfg ns) w).run = .idle := by
  have hrounds : ∀ n ≤ cfg.nodesToSave,
      ((runEvents n).foldl (taskStep cfg ns) w).run = .scanning n ∧
        ((runEvents n).foldl (taskStep cfg ns) w).st =
          (List.range n).foldl (postprocessEntry ns) w.st := by
    intro n hn
    induction n with
    | zero => simp [runEvents, taskStep, runStep, h]
    | succ n ih =>
      obtain ⟨hrun, hst⟩ := ih (by omega)
      have e : runEvents (n + 1) = runEvents n ++ [.scan, .update, .clear] := by
        simp [runEvents, List.range_succ]
      obtain ⟨hrun', hst'⟩ := round_uninterrupted hrun (Nat.lt_of_succ_le hn)
      rw [e, List.foldl_append, hrun', hst', hst, List.range_succ, List.foldl_append]
      exact ⟨rfl, rfl⟩
  obtain ⟨hrun, hst⟩ := hrounds cfg.nodesToSave le_rfl
  rw [List.foldl_append, List.foldl_cons, List.foldl_nil]
  simp only [taskStep, runStep, hrun, if_pos le_rfl]
  exact ⟨hst, trivial⟩

end

/-! ## When the steps do not disturb each other -/

/-- The entry the run is at. -/
def RunStep.pos : RunStep → Nat
  | .idle => 0
  | .scanning i => i
  | .copied i _ => i
  | .saved i => i

/-- The entry the request in progress writes to. -/
def RequestStep.idx : RequestStep → Option Nat
  | .idle => none
  | .reserved k _ _ _ => some k
  | .filled k _ _ _ => some k

@[simp] lemma RequestStep.idx_idle : RequestStep.idle.idx = none := rfl
@[simp] lemma RequestStep.idx_reserved (k euid request buf) :
    (RequestStep.reserved k euid request buf).idx = some k := rfl
@[simp] lemma RequestStep.idx_filled (k rec request buf) :
    (RequestStep.filled k rec request buf).idx = some k := rfl

/-- An entry is reserved behind those of its euid, a request finds a place in the table, the run
    does not copy an entry that is being filled, and the log takes a record that is to be saved
    without compression. -/
def TaskGuard (cfg : Syscfg) (ns : NodeStore Fcb) (w : TaskWorld) : TaskEvent → Prop
  | .reserve euid _ _ =>
    euid ≠ 0 ∧ ∀ k ∈ emptySaveEntry cfg w.st, w.run.pos ≤ k →
      ∀ j < w.run.pos, (w.st.nodesToSave j).euid ≠ euid
  | .fill _ _ =>
    match w.req with
    | .reserved _ euid _ _ =>
      findByEuid cfg w.st.nodeIdx euid ≠ none ∨ findFreeIdx cfg w.st.nodeIdx ≠ none
    | _ => True
  | .scan =>
    match w.run with
    | .scanning i => i < cfg.nodesToSave → w.req.idx ≠ some i
    | _ => True
  | .update =>
    match w.run with
    | .copied _ node =>
      saveIsNeeded ns node.euid node w.st.store = true →
        (ns.save w.st.store node).records = w.st.store.records ++ [node]
    | _ => True
  | _ => True

instance (cfg : Syscfg) (ns : NodeStore Fcb) (w : TaskWorld) :
    (e : TaskEvent) → Decidable (TaskGuard cfg ns w e)
  | .reserve euid _ _ =>
    inferInstanceAs (Decidable (euid ≠ 0 ∧ ∀ k ∈ emptySaveEntry cfg w.st, w.run.pos ≤ k →
      ∀ j < w.run.pos, (w.st.nodesToSave j).euid ≠ euid))
  | .fill _ _ =>
    match h : w.req with
    | .reserved _ euid _ _ =>
      decidable_of_iff (findByEuid cfg w.st.nodeIdx euid ≠ none ∨
        findFreeIdx cfg w.st.nodeIdx ≠ none) (by simp [TaskGuard, h])
    | .idle => isTrue (by simp [TaskGuard, h])
    | .filled .. => isTrue (by simp [TaskGuard, h])
  | .scan =>
    match h : w.run with
    | .scanning i =>
      decidable_of_iff (i < cfg.nodesToSave → w.req.idx ≠ some i) (by simp [TaskGuard, h])
    | .idle => isTrue (by simp [TaskGuard, h])
    | .copied .. => isTrue (by simp [TaskGuard, h])
    | .saved .. => isTrue (by simp [TaskGuard, h])
  | .update =>
    match h : w.run with
    | .copied _ node =>
      decidable_of_iff (saveIsNeeded ns node.euid node w.st.store = true →
        (ns.save w.st.store node).records = w.st.store.records ++ [node]) (by simp [TaskGuard, h])
    | .idle => isTrue (by simp [TaskGuard, h])
    | .scanning .. => isTrue (by simp [TaskGuard, h])
    | .saved .. => isTrue (by simp [TaskGuard, h])
  | .finish _ => isTrue trivial
  | .start => isTrue trivial
  | .clear => isTrue trivial

/-! ## The invariant -/

variable {cfg : Syscfg} {ns : NodeStore Fcb} {w : TaskWorld}

/-- Entry `j` holds a record that the run has not handed over. -/
def TaskWorld.Waiting (cfg : Syscfg) (w : TaskWorld) (j : Nat) : Prop :=
  j < cfg.nodesToSave ∧ (w.st.nodesToSave j).euid ≠ 0 ∧ w.req.idx ≠ some j ∧ w.run ≠ .saved j

/-- From position `p` on and then round, entry `a` is handed over before entry `b`. -/
def Before (p a b : Nat) : Prop := (p ≤ a ∧ b < p) ∨ ((p ≤ a ↔ p ≤ b) ∧ a < b)

/-- `rec` is what the store will say of `euid` once the waiting entries are saved in their order. -/
def Newest (cfg : Syscfg) (w : TaskWorld) (euid : Nat) (rec : Record) : Prop :=
  (∃ j, w.Waiting cfg j ∧ (w.st.nodesToSave j).euid = euid ∧ (w.st.nodesToSave j).record = rec ∧
    ∀ a, w.Waiting cfg a → (w.st.nodesToSave a).euid = euid → a = j ∨ Before w.run.pos a j) ∨
  ((∀ j, w.Waiting cfg j → (w.st.nodesToSave j).euid ≠ euid) ∧ StoredAs w.st.store euid rec)

/-- The entry the run is at is in use, and not by the request in progress. -/
def RunOk (cfg : Syscfg) (w : TaskWorld) : Prop :=
  match w.run with
  | .idle => True
  | .scanning _ => True
  | .copied i node => w.Waiting cfg i ∧ node = w.st.nodesToSave i
  | .saved i => i < cfg.nodesToSave ∧ (w.st.nodesToSave i).euid ≠ 0 ∧ w.req.idx ≠ some i

/-- The entry of the request in progress is its own, and behind those of its euid. -/
def RequestOk (cfg : Syscfg) (w : TaskWorld) : Prop :=
  match w.req with
  | .idle => True
  | .reserved k euid _ _ => k < cfg.nodesToSave ∧ euid ≠ 0 ∧ (w.st.nodesToSave k).euid = euid ∧
      ∀ j, w.Waiting cfg j → (w.st.nodesToSave j).euid = euid → Before w.run.pos j k
  | .filled k rec request _ => k < cfg.nodesToSave ∧ rec.euid ≠ 0 ∧
      filledRecord w.st k request = rec ∧
      ∀ j, w.Waiting cfg j → (w.st.nodesToSave j).euid = rec.euid → Before w.run.pos j k

/-- The entries in use come first, before the position of the run and from there on. -/
structure Packed (cfg : Syscfg) (w : TaskWorld) : Prop where
  below : ∀ j < w.run.pos, (w.st.nodesToSave j).euid ≠ 0 →
    ∀ a < j, (w.st.nodesToSave a).euid ≠ 0
  above : ∀ j < cfg.nodesToSave, (w.st.nodesToSave j).euid ≠ 0 →
    ∀ a, w.run.pos ≤ a → a < j → (w.st.nodesToSave a).euid ≠ 0

structure TaskInv (cfg : Syscfg) (w : TaskWorld) : Prop where
  handed : ∀ rec ∈ w.handed, rec ∈ w.accepted
  complete : ∀ j, w.Waiting cfg j → (w.st.nodesToSave j).record ∈ w.accepted
  packed : Packed cfg w
  run_ok : RunOk cfg w
  req_ok : RequestOk cfg w
  newest : ∀ euid q rec, w.last euid = some (q, rec) → Newest cfg w euid rec
  start_lt : ∀ euid q rec, w.atStart euid = some (q, rec) → q < w.accepted.length
  last_lt : ∀ euid q rec, w.last euid = some (q, rec) → q < w.accepted.length
  since : w.run ≠ .idle → ∀ euid, w.last euid ≠ none → w.atStart euid = w.last euid →
    ∀ j, w.Waiting cfg j → (w.st.nodesToSave j).euid = euid → w.run.pos ≤ j
  due : ∀ euid rec, w.due euid = some rec → (∃ q, w.last euid = some (q, rec)) ∧
    ∀ j, w.Waiting cfg j → (w.st.nodesToSave j).euid ≠ euid

/-- The invariant says that no save is torn. -/
lemma TaskInv.noTornSave (h : TaskInv cfg w) : NoTornSave w := by
  refine ⟨h.handed, fun euid rec hd => ?_⟩
  obtain ⟨⟨q, hq⟩, hno⟩ := h.due euid rec hd
  rcases h.newest euid q rec hq with ⟨j, hj, he, -, -⟩ | ⟨-, hs⟩
  · exact absurd he (hno j hj)
  · exact hs

/-- The empty table. -/
lemma TaskInv.init (store : Fcb) (panId : Nat) : TaskInv cfg (TaskWorld.init store panId) := by
  have hno : ∀ j, ¬ (TaskWorld.init store panId).Waiting cfg j := fun j hj => hj.2.1 rfl
  refine ⟨?_, ?_, ⟨?_, ?_⟩, trivial, trivial, ?_, ?_, ?_, ?_, ?_⟩
  · intro rec h
    cases h
  · intro j hj
    exact absurd hj (hno j)
  · intro j hj
    cases hj
  · intro j _ hj
    exact absurd rfl hj
  · intro euid q rec h
    cases h
  · intro euid q rec h
    cases h
  · intro euid q rec h
    cases h
  · intro h
    exact absurd rfl h
  · intro euid rec h
    cases h

/-- The same entries wait in the same order, over the same store. -/
structure SameWaiting (cfg : Syscfg) (w w' : TaskWorld) : Prop where
  waiting : ∀ j, w'.Waiting cfg j ↔ w.Waiting cfg j
  entry : ∀ j, w.Waiting cfg j → w'.st.nodesToSave j = w.st.nodesToSave j
  before : ∀ a b, w.Waiting cfg a → w.Waiting cfg b ∨ w.req.idx = some b →
    Before w.run.pos a b → Before w'.run.pos a b
  store : w'.st.store = w.st.store

section
variable {w' : TaskWorld}

/-- The newest record stays. -/
lemma SameWaiting.newest (hs : SameWaiting cfg w w') {euid : Nat} {rec : Record}
    (h : Newest cfg w euid rec) : Newest cfg w' euid rec := by
  rcases h with ⟨j, hj, he, hr, hb⟩ | ⟨hno, hst⟩
  · refine .inl ⟨j, (hs.waiting j).mpr hj, ?_, ?_, fun a ha hae => ?_⟩
    · rw [hs.entry j hj, he]
    · rw [hs.entry j hj, hr]
    · have ha := (hs.waiting a).mp ha
      rw [hs.entry a ha] at hae
      exact (hb a ha hae).imp_right (hs.before a j ha (.inl hj))
  · refine .inr ⟨fun j hj => ?_, hs.store ▸ hst⟩
    have hj := (hs.waiting j).mp hj
    rw [hs.entry j hj]
    exact hno j hj

/-- Who does not wait still does not. -/
lemma SameWaiting.absent (hs : SameWaiting cfg w w') {euid : Nat}
    (h : ∀ j, w.Waiting cfg j → (w.st.nodesToSave j).euid ≠ euid) :
    ∀ j, w'.Waiting cfg j → (w'.st.nodesToSave j).euid ≠ euid := by
  intro j hj
  have hj := (hs.waiting j).mp hj
  rw [hs.entry j hj]
  exact h j hj

/-- Those who wait are complete. -/
lemma SameWaiting.complete (hs : SameWaiting cfg w w')
    (h : ∀ j, w.Waiting cfg j → (w.st.nodesToSave j).record ∈ w.accepted)
    (ha : w'.accepted = w.accepted) :
    ∀ j, w'.Waiting cfg j → (w'.st.nodesToSave j).record ∈ w'.accepted := by
  intro j hj
  have hj := (hs.waiting j).mp hj
  rw [hs.entry j hj, ha]
  exact h j hj

/-- The run goes on. -/
lemma SameWaiting.runOk (hs : SameWaiting cfg w w') (h : RunOk cfg w) (hrun : w'.run = w.run)
    (hi : ∀ i, i < cfg.nodesToSave → (w.st.nodesToSave i).euid ≠ 0 → w.req.idx ≠ some i →
      (w'.st.nodesToSave i).euid ≠ 0 ∧ w'.req.idx ≠ some i) : RunOk cfg w' := by
  rw [RunOk] at h ⊢
  rw [hrun]
  cases hr : w.run with
  | idle => trivial
  | scanning => trivial
  | copied i node =>
    rw [hr] at h
    obtain ⟨hw, hn⟩ := h
    exact ⟨(hs.waiting i).mpr hw, hn.trans (hs.entry i hw).symm⟩
  | saved i =>
    rw [hr] at h
    obtain ⟨hin, hi0, hreq⟩ := h
    exact ⟨hin, hi i hin hi0 hreq⟩

/-- The request goes on. -/
lemma SameWaiting.requestOk (hs : SameWaiting cfg w w') (h : RequestOk cfg w)
    (hreq : w'.req = w.req)
    (hk : ∀ k, w.req.idx = some k → w'.st.nodesToSave k = w.st.nodesToSave k) :
    RequestOk cfg w' := by
  rw [RequestOk] at h ⊢
  rw [hreq]
  cases hr : w.req with
  | idle => trivial
  | reserved k euid request buf =>
    rw [hr] at h
    obtain ⟨hkn, h0, he, hb⟩ := h
    have hidx : w.req.idx = some k := by rw [hr]; rfl
    refine ⟨hkn, h0, by rw [hk k hidx, he], fun j hj hje => ?_⟩
    have hj := (hs.waiting j).mp hj
    rw [hs.entry j hj] at hje
    exact hs.before j k hj (.inr hidx) (hb j hj hje)
  | filled k rec request buf =>
    rw [hr] at h
    obtain ⟨hkn, h0, he, hb⟩ := h
    have hidx : w.req.idx = some k := by rw [hr]; rfl
    refine ⟨hkn, h0, by rw [filledRecord, hk k hidx, ← he]; rfl, fun j hj hje => ?_⟩
    have hj := (hs.waiting j).mp hj
    rw [hs.entry j hj] at hje
    exact hs.before j k hj (.inr hidx) (hb j hj hje)

end

end UwbCore.Panmaster
