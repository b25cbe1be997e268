import UwbCore.Panmaster.Compress
import UwbCore.Panmaster.Ident

/-!
# When a node was first seen

A request of an unknown node is saved with the wall-clock time, one of a known node with whatever is in
the save entry it is put into; a run of `panmaster_postprocess` leaves zeros there, and saves the record
when any field differs from the stored one. The store keeps the time of the first accepted request as
long as no accepted request of a known node meets another time in its save entry
(`firstSeenKept_of_guarded`).
-/

namespace UwbCore.Panmaster
open UwbCore.Lib

/-- The PAN master, and the time at which the first request of each euid was accepted. -/
structure SeenWorld where
  st : State Fcb
  first : Table (Option Int)

inductive SeenEvent where
  | request (busy : Bool) (tv : Timeval) (utc : Int) (euid : Nat) (request : PanRequest)
      (buf : ResponseBuf)
  | postprocess

def SeenWorld.init (panId : Nat) : SeenWorld := ⟨.init .empty panId, fun _ => none⟩

section
variable (cfg : Syscfg) (ns : NodeStore Fcb) (w : SeenWorld)

def seenStep : SeenEvent → SeenWorld
  | .request busy tv utc euid request buf =>
    let r := panrequestCb cfg busy tv utc euid request buf w.st
    { st := r.2
      first := if r.1.isSome then w.first.modify euid fun u => u.or (some utc) else w.first }
  | .postprocess => { w with st := panmasterPostprocess cfg ns w.st }

/-- What is stored of a node is the time of its first accepted request. -/
def FirstSeenKept : Prop :=
  ∀ euid, ∀ u ∈ w.first euid, ∀ n ∈ ns.findNode w.st.store (findEuid euid), n.firstSeenUtc = u

/-- An accepted request of a known node finds the time of the first one in its save entry. -/
def SeenGuard : SeenEvent → Prop
  | .request busy _ _ euid _ _ => busy = false → ∀ u ∈ w.first euid,
      ∀ k ∈ emptySaveEntry cfg w.st, (w.st.nodesToSave k).firstSeenUtc = u
  | .postprocess => True

end

instance decidableSeenGuard (cfg : Syscfg) (w : SeenWorld) : (e : SeenEvent) →
    Decidable (SeenGuard cfg w e)
  | .request busy _ _ euid _ _ => inferInstanceAs (Decidable (busy = false → ∀ u ∈ w.first euid,
      ∀ k ∈ emptySaveEntry cfg w.st, (w.st.nodesToSave k).firstSeenUtc = u))
  | .postprocess => isTrue trivial

/-! ## What a save keeps of all records -/

section
variable {P : Node → Prop} {stale : ImageVersion} {f : Fcb}

/-- The first ones are some of all. -/
lemma mem_of_firstsBy {key : Node → Nat} {n : Node} {l : List Node} {seen : List Nat}
    (h : n ∈ firstsBy key seen l) : n ∈ l := by
  induction l generalizing seen with
  | nil => cases h
  | cons x l ih =>
    rw [firstsBy] at h
    split at h
    case isTrue => exact List.mem_cons_of_mem x (ih h)
    case isFalse =>
      rcases List.mem_cons.mp h with rfl | h
      · exact List.mem_cons_self
      · exact List.mem_cons_of_mem x (ih h)

/-- A record read over another version is the stored one but for that. -/
lemma readOver_of_load (hP : ∀ n ver, P n → P { n with fwVer := ver }) {e : FcbEntry} (h : P e.load)
    (ver : ImageVersion) : P (e.readOver ver) := by
  have hver := hP e.load ver h
  unfold FcbEntry.load FcbEntry.readOver at h hver
  unfold FcbEntry.readOver
  split
  case isTrue hv =>
    rw [if_pos hv] at h
    exact h
  case isFalse hv =>
    rw [if_neg hv] at hver
    exact hver

/-- What holds of the records holds of what is read over the one before. -/
lemma buf1Reads_all (hP : ∀ n ver, P n → P { n with fwVer := ver }) {es : List FcbEntry}
    (h : ∀ e ∈ es, P e.load) (ver : ImageVersion) : ∀ n ∈ buf1Reads ver es, P n := by
  induction es generalizing ver with
  | nil =>
    intro n hn
    cases hn
  | cons e es ih =>
    intro n hn
    rw [buf1Reads] at hn
    rcases List.mem_cons.mp hn with rfl | hn
    · exact readOver_of_load hP (h e List.mem_cons_self) ver
    · exact ih (fun e' he => h e' (List.mem_cons_of_mem e he)) _ n hn

/-- A compression makes up no record. -/
lemma panmFcbCompress_all (hP : ∀ n ver, P n → P { n with fwVer := ver })
    (h : ∀ n ∈ f.records, P n) : ∀ n ∈ (panmFcbCompress stale f).records, P n := by
  have hload : ∀ e ∈ f.compressed ++ f.kept, P e.load := by
    intro e he
    refine h _ ?_
    rw [f.records_split, ← List.map_append]
    exact List.mem_map_of_mem he
  intro n hn
  rw [panmFcbCompress_records] at hn
  rcases List.mem_append.mp hn with hn | hn
  · obtain ⟨e, he, rfl⟩ := List.mem_map.mp hn
    exact hload e (List.mem_append_right _ he)
  · exact buf1Reads_all hP (fun e he => hload e (List.mem_append_left _ he)) stale n
      (mem_of_firstsBy hn)

/-- Neither does a save, besides the one it is called with. -/
lemma panmFcbSave_all (hP : ∀ n ver, P n → P { n with fwVer := ver }) {lib : FcbLib} {node : Node}
    (hnode : P node) (h : ∀ n ∈ f.records, P n) :
    ∀ n ∈ (panmFcbSave lib stale f node).records, P n := by
  rw [panmFcbSave]
  generalize 10 = attempts
  induction attempts generalizing f with
  | zero => exact h
  | succ attempts ih =>
    rw [panmFcbAppend]
    cases ha : fcbAppend lib f ⟨node, true⟩ with
    | none => exact ih (panmFcbCompress_all hP h)
    | some f' =>
      have hf : f'.records = f.records ++ [node] := by
        rw [fcbAppend] at ha
        split at ha
        case isTrue =>
          cases ha
          simp [Fcb.records, Fcb.entries]
        case isFalse =>
          split at ha
          case isTrue =>
            cases ha
            simp [Fcb.records, Fcb.entries]
          case isFalse => cases ha
      intro n hn
      rw [hf] at hn
      rcases List.mem_append.mp hn with hn | hn
      · exact h n hn
      · rwa [List.mem_singleton.mp hn]

end

/-! ## The invariant -/

/-- A record carries the time of its node's first accepted request. One whose node was never accepted
    comes from a request that was turned away, and the index is full. -/
def Timed (first : Table (Option Int)) (free : Option Nat) (n : Node) : Prop :=
  first n.euid = some n.firstSeenUtc ∨ (first n.euid = none ∧ free = none)

structure SeenInv (cfg : Syscfg) (w : SeenWorld) : Prop where
  /-- the nodes accepted are those of the index -/
  listed : ∀ euid, w.first euid ≠ none ↔ findByEuid cfg w.st.nodeIdx euid ≠ none
  pending : ∀ j < cfg.nodesToSave, (w.st.nodesToSave j).euid ≠ 0 →
    Timed w.first (findFreeIdx cfg w.st.nodeIdx) (w.st.nodesToSave j)
  stored : ∀ n ∈ w.st.store.records, Timed w.first (findFreeIdx cfg w.st.nodeIdx) n

section
variable {cfg : Syscfg} {lib : FcbLib} {stale : ImageVersion} {w : SeenWorld}

/-- The stored record of a node is one of the log. -/
lemma SeenInv.kept (h : SeenInv cfg w) : FirstSeenKept (panmFcb lib stale) w := by
  intro euid u hu n hn
  have hfind : panmFcbFindNode w.st.store (findEuid euid) = some n := hn
  rw [panmFcbFindNode_findEuid] at hfind
  obtain ⟨m, hm, hq⟩ := lastWrite_mem hfind
  rw [byEuid] at hq
  split at hq
  case isFalse => cases hq
  case isTrue he =>
    cases hq
    obtain ⟨-, he⟩ := Bool.and_eq_true_iff.mp he
    rw [beq_iff_eq] at he
    subst he
    have hu : w.first n.euid = some u := hu
    rcases h.stored n hm with ht | ⟨ht, -⟩
    · exact Option.some.inj (ht.symm.trans hu)
    · rw [ht] at hu
      cases hu

/-- The empty table. -/
lemma SeenInv.init (panId : Nat) : SeenInv cfg (.init panId) where
  listed euid := by
    refine iff_of_false (fun h => h rfl) (not_not.mpr ?_)
    exact firstIdx_none.mpr fun i _ => rfl
  pending j _ h := absurd rfl h
  stored n hn := by cases hn

/-- Addresses and euids of the index decide which nodes are found, and whether it is full. -/
lemma findByEuid_congr (cfg : Syscfg) (t t' : Table NodeIdx)
    (h : ∀ i < cfg.maxnumNodes, (t' i).addr = (t i).addr ∧ (t' i).euid = (t i).euid) (euid : Nat) :
    findByEuid cfg t' euid = findByEuid cfg t euid ∧ findFreeIdx cfg t' = findFreeIdx cfg t := by
  constructor
  · refine firstIdx_congr fun i hi => ?_
    rw [NodeIdx.occupied, (h i hi).1, (h i hi).2, NodeIdx.occupied]
  · refine firstIdx_congr fun i hi => ?_
    rw [NodeIdx.occupied, (h i hi).1, NodeIdx.occupied]

/-- The other entries still wait. -/
lemma State.clearSave_pending {s : State Fcb} {Q : Node → Prop} {i : Nat}
    (h : ∀ j < cfg.nodesToSave, (s.nodesToSave j).euid ≠ 0 → Q (s.nodesToSave j)) :
    ∀ j < cfg.nodesToSave, ((s.clearSave i).nodesToSave j).euid ≠ 0 →
      Q ((s.clearSave i).nodesToSave j) := by
  intro j hj h0
  rw [State.clearSave_nodesToSave] at h0 ⊢
  split
  case isTrue hji =>
    rw [if_pos hji] at h0
    exact absurd rfl h0
  case isFalse hji =>
    rw [if_neg hji] at h0
    exact h j hj h0

/-- A round of `panmaster_postprocess`. -/
lemma SeenInv.round {st : State Fcb} {first : Table (Option Int)} (h : SeenInv cfg ⟨st, first⟩) {i : Nat}
    (hi : i < cfg.nodesToSave) : SeenInv cfg ⟨postprocessEntry (panmFcb lib stale) st i, first⟩ := by
  rcases postprocessEntry_cases (panmFcb lib stale) st i with ⟨-, e⟩ | ⟨-, e⟩ | ⟨h0, e⟩
  · rw [e]
    exact h
  · rw [e]
    exact ⟨h.listed, State.clearSave_pending h.pending, h.stored⟩
  · -- the record that is saved was pending
    have hkeep := findByEuid_congr cfg st.nodeIdx
      (panmasterSaveNode (panmFcb lib stale) (st.nodesToSave i) st).nodeIdx fun j _ =>
      panmasterSaveNode_sameIdent (panmFcb lib stale) (st.nodesToSave i) st j
    rw [e]
    refine ⟨fun euid => ?_, State.clearSave_pending ?_, ?_⟩
    · show first euid ≠ none ↔ _
      rw [State.clearSave_nodeIdx, (hkeep euid).1]
      exact h.listed euid
    · show ∀ j < cfg.nodesToSave, _ →
        Timed first (findFreeIdx cfg (panmasterSaveNode (panmFcb lib stale) _ st).nodeIdx) _
      rw [(hkeep 0).2]
      exact h.pending
    · show ∀ n ∈ _, Timed first
        (findFreeIdx cfg (panmasterSaveNode (panmFcb lib stale) _ st).nodeIdx) n
      rw [(hkeep 0).2]
      exact panmFcbSave_all (fun _ _ hn => hn) (h.pending i hi h0) h.stored

/-- A run. -/
lemma SeenInv.postprocess (h : SeenInv cfg w) :
    SeenInv cfg (seenStep cfg (panmFcb lib stale) w .postprocess) :=
  panmasterPostprocess_induction (P := fun st => SeenInv cfg ⟨st, w.first⟩) h
    fun _ _ hi h => h.round hi

/-! ## A request -/

variable {busy : Bool} {tv : Timeval} {utc : Int} {euid k i : Nat} {request : PanRequest}
  {buf : ResponseBuf}

/-- A request that is turned away for want of an index entry. -/
lemma SeenInv.full (h : SeenInv cfg w) (hf : findByEuid cfg w.st.nodeIdx euid = none)
    (hfree : findFreeIdx cfg w.st.nodeIdx = none) :
    SeenInv cfg ⟨w.st.reserve k euid, w.first⟩ := by
  have hnone : w.first euid = none := by
    by_contra hne
    exact (h.listed euid).mp hne hf
  refine ⟨h.listed, fun j hj h0 => ?_, h.stored⟩
  show Timed w.first (findFreeIdx cfg w.st.nodeIdx) _
  rw [State.reserve_nodesToSave] at h0 ⊢
  split
  case isTrue => exact .inr ⟨hnone, hfree⟩
  case isFalse hjk =>
    rw [if_neg hjk] at h0
    exact h.pending j hj h0

/-- A request of a known node. -/
lemma SeenInv.known (h : SeenInv cfg w) (hk : emptySaveEntry cfg w.st = some k)
    (hf : findByEuid cfg w.st.nodeIdx euid = some i)
    (g : ∀ u ∈ w.first euid, ∀ k ∈ emptySaveEntry cfg w.st, (w.st.nodesToSave k).firstSeenUtc = u) :
    SeenInv cfg ⟨w.st.put k (knownNode cfg w.st.nodeIdx tv i request (w.st.nodesToSave k)) i
      (knownIdx cfg w.st.nodeIdx tv i request buf), w.first⟩ := by
  obtain ⟨u, hu⟩ : ∃ u, w.first euid = some u :=
    Option.ne_none_iff_exists'.mp ((h.listed euid).mpr (hf ▸ Option.some_ne_none i))
  have hkeep := findByEuid_congr cfg w.st.nodeIdx
    (w.st.put k (knownNode cfg w.st.nodeIdx tv i request (w.st.nodesToSave k)) i
      (knownIdx cfg w.st.nodeIdx tv i request buf)).nodeIdx fun j _ => by
      rw [State.put_nodeIdx]
      split
      case isTrue hj =>
        subst hj
        exact ⟨rfl, rfl⟩
      case isFalse => exact ⟨rfl, rfl⟩
  refine ⟨fun e => ?_, fun j hj h0 => ?_, ?_⟩
  · show w.first e ≠ none ↔ _
    rw [(hkeep e).1]
    exact h.listed e
  · show Timed w.first (findFreeIdx cfg (w.st.put _ _ _ _).nodeIdx) _
    rw [(hkeep 0).2]
    rw [State.put_nodesToSave] at h0 ⊢
    split
    case isTrue =>
      left
      show w.first (w.st.nodeIdx i).euid = some (w.st.nodesToSave k).firstSeenUtc
      rw [(findByEuid_some hf).2.2, hu, g u hu k hk]
    case isFalse hjk =>
      rw [if_neg hjk] at h0
      exact h.pending j hj h0
  · show ∀ n ∈ _, Timed w.first (findFreeIdx cfg (w.st.put _ _ _ _).nodeIdx) n
    rw [(hkeep 0).2]
    exact h.stored

/-- A request of an unknown node that is accepted. -/
lemma SeenInv.fresh (h : SeenInv cfg w) (hf : findByEuid cfg w.st.nodeIdx euid = none)
    (hfree : findFreeIdx cfg w.st.nodeIdx = some i) :
    SeenInv cfg ⟨w.st.put k (newNode cfg w.st.nodeIdx tv utc i euid request) i
      (newIdx cfg w.st.nodeIdx tv i euid request buf),
      w.first.modify euid fun u => u.or (some utc)⟩ := by
  have hnone : w.first euid = none := by
    by_contra hne
    exact (h.listed euid).mp hne hf
  have hself : w.first.modify euid (fun u => u.or (some utc)) euid = some utc := by
    rw [Table.modify_self, hnone]
    rfl
  -- no record was turned away before, so the records there are those of other nodes
  have htimed : ∀ {n free}, Timed w.first (findFreeIdx cfg w.st.nodeIdx) n →
      Timed (w.first.modify euid fun u => u.or (some utc)) free n := by
    rintro n free (ht | ⟨-, ht⟩)
    · left
      rw [Table.modify_of_ne _ _ fun he => ?_]
      · exact ht
      · rw [he, hnone] at ht
        cases ht
    · rw [hfree] at ht
      cases ht
  refine ⟨fun e => ?_, fun j hj h0 => ?_, fun n hn => htimed (h.stored n hn)⟩
  · by_cases he : e = euid
    case pos =>
      subst he
      refine iff_of_true ?_ ?_
      · show (w.first.modify e fun u => u.or (some utc)) e ≠ none
        rw [hself]
        exact Option.some_ne_none utc
      · show findByEuid cfg (w.st.put _ _ _ _).nodeIdx e ≠ none
        rw [findByEuid_fresh hf hfree]
        exact Option.some_ne_none i
    case neg =>
      have hoff := (findFreeIdx_some hfree).2.1
      have hsame : findByEuid cfg (w.st.put k (newNode cfg w.st.nodeIdx tv utc i euid request) i
          (newIdx cfg w.st.nodeIdx tv i euid request buf)).nodeIdx e =
          findByEuid cfg w.st.nodeIdx e := by
        refine firstIdx_congr fun j _ => ?_
        rw [State.put_nodeIdx]
        split
        case isTrue hj =>
          have hne : (e == euid) = false := beq_eq_false_iff_ne.mpr he
          show (_ && e == euid) = _
          rw [hj, hoff, hne, Bool.and_false, Bool.false_and]
        case isFalse => rfl
      show (w.first.modify euid fun u => u.or (some utc)) e ≠ none ↔ findByEuid cfg _ e ≠ none
      rw [Table.modify_of_ne _ _ he, hsame]
      exact h.listed e
  · show Timed _ (findFreeIdx cfg (w.st.put _ _ _ _).nodeIdx) _
    rw [State.put_nodesToSave] at h0 ⊢
    split
    case isTrue => exact .inl hself
    case isFalse hjk =>
      rw [if_neg hjk] at h0
      exact htimed (h.pending j hj h0)

/-- One step. -/
lemma SeenInv.step (hN : cfg.maxnumNodes ≤ 2 ^ 8) (h : SeenInv cfg w) {e : SeenEvent}
    (g : SeenGuard cfg w e) : SeenInv cfg (seenStep cfg (panmFcb lib stale) w e) := by
  cases e with
  | postprocess => exact h.postprocess
  | request busy tv utc euid request buf =>
    have sv := panrequestCb_served hN busy tv utc euid request buf w.st
    simp only [seenStep]
    generalize panrequestCb cfg busy tv utc euid request buf w.st = r at sv
    cases sv with
    | noEntry => exact h
    | full hb hk hf hfree => exact h.full hf hfree
    | @known k i hb hk hf =>
      -- the node was accepted before, and its first time stays
      have hfirst : w.first.modify euid (fun u => u.or (some utc)) = w.first := by
        obtain ⟨u, hu⟩ : ∃ u, w.first euid = some u :=
          Option.ne_none_iff_exists'.mp ((h.listed euid).mpr (hf ▸ Option.some_ne_none i))
        funext e
        rw [Table.modify_apply]
        split
        case isTrue he =>
          subst he
          rw [hu]
          rfl
        case isFalse => rfl
      simp only [Option.isSome_some, if_true, hfirst]
      exact h.known hk hf (g hb)
    | fresh hb hk hf hfree =>
      simp only [Option.isSome_some, if_true]
      exact h.fresh hf hfree

/-- In every run of requests and postprocess runs that meet the condition, the store keeps the time of
    the first accepted request of every node. -/
theorem firstSeenKept_of_guarded (hN : cfg.maxnumNodes ≤ 2 ^ 8) (panId : Nat)
    (rch : Reach (seenStep cfg (panmFcb lib stale)) (SeenGuard cfg) (.init panId) w) :
    FirstSeenKept (panmFcb lib stale) w :=
  (rch.invariant (P := SeenInv cfg) (.init panId) fun _ _ h g => h.step hN g).kept

end

/-- Two nodes ask at different times, and are saved. -/
def twoNodes : List SeenEvent :=
  [.request false ⟨1, 0⟩ 1000 0x101 ⟨1, 20, .zero⟩ .same, .postprocess,
    .request false ⟨2, 0⟩ 2000 0x102 ⟨1, 20, .zero⟩ .same, .postprocess]

/-- Two nodes. -/
theorem firstSeenKept_twoNodes :
    FirstSeenKept (panmFcb .roomy .zero)
      (twoNodes.foldl (seenStep .dflt (panmFcb .roomy .zero)) (.init 0xDECA)) := by
  have hall : Allowed (seenStep .dflt (panmFcb .roomy .zero)) (SeenGuard .dflt) (.init 0xDECA)
      twoNodes := by decide +kernel
  exact firstSeenKept_of_guarded (by decide) 0xDECA (Reach.of_allowed hall)

/-- A node that asks again is stored with the time 0. -/
theorem firstSeenKept_fails :
    ¬ ∀ es : List SeenEvent, FirstSeenKept (panmFcb .roomy .zero)
      (es.foldl (seenStep .dflt (panmFcb .roomy .zero)) (.init 0xDECA)) := by
  intro h
  have hu := h [.request false ⟨1, 0⟩ 1000 0x101 ⟨1, 20, .zero⟩ .same, .postprocess,
    .request false ⟨2, 0⟩ 2000 0x101 ⟨1, 20, .zero⟩ .same, .postprocess] 0x101 1000 rfl
  revert hu
  decide +kernel

end UwbCore.Panmaster
