import UwbCore.Lib.Run
import UwbCore.Panmaster.Compress
import UwbCore.Panmaster.Sort

/-!
# Store and table, event by event

Accepted requests, each followed by `panmaster_postprocess`, additions, deletions, sorts and
compressions, over a log that is only appended to. A load of the log gives back the table as long
as each step writes to both what it writes to one.
-/

namespace UwbCore.Panmaster
open UwbCore.Lib

inductive StoreEvent where
  | request (tv : Timeval) (utc : Int) (euid : Nat) (request : PanRequest) (buf : ResponseBuf)
  | addNode (utc : Int) (shortAddr : Fin (2 ^ 16)) (euid : Nat)
  | deleteNode (euid : Nat)
  | sort
  | compress
  deriving DecidableEq, Repr

variable {cfg : Syscfg} {lib : FcbLib} {stale : ImageVersion} {s s' : State Fcb}

/-- Only accepted requests are taken. -/
def storeStep (cfg : Syscfg) (lib : FcbLib) (stale : ImageVersion) (s : State Fcb) :
    StoreEvent → State Fcb
  | .request tv utc euid request buf =>
    match panrequestCb cfg false tv utc euid request buf s with
    | (some _, s') => panmasterPostprocess cfg (panmFcb lib stale) s'
    | (none, _) => s
  | .addNode utc shortAddr euid => panmasterAddNode cfg (panmFcb lib stale) utc shortAddr euid s
  | .deleteNode euid => panmasterDeleteNode cfg (panmFcb lib stale) euid s
  | .sort => panmasterSort cfg lib stale s
  | .compress => panmasterCompress stale s

/-- Loading the store into a default table gives the occupied entries of the live table. -/
def StoreAgrees (cfg : Syscfg) (s : State Fcb) : Prop :=
  ∀ i < cfg.maxnumNodes, (s.store.table cfg i).occupied = (s.nodeIdx i).occupied ∧
    ((s.nodeIdx i).occupied = true → (s.store.table cfg i).ident = (s.nodeIdx i).ident)

/-- The occupied entries come first. -/
def OccupiedFirst (cfg : Syscfg) (t : Table NodeIdx) : Prop :=
  ∀ j < cfg.maxnumNodes, (t j).occupied = true → ∀ i < j, (t i).occupied = true

/-- Where store and table are written alike. -/
def StoreGuard (cfg : Syscfg) (stale : ImageVersion) (s : State Fcb) : StoreEvent → Prop
  | .request _ _ euid _ _ => euid = 0 → findByEuid cfg s.nodeIdx euid ≠ none
  | .addNode _ shortAddr euid =>
    shortAddr.val ≠ 0 → euid ≠ resetEuid →
      match panmFcbFindNode s.store (findEuid euid) with
      | some node => node.addr = shortAddr
      | none => shortAddr.val = 0xffff ∨ ∀ i ∈ findFreeIdx cfg s.nodeIdx, (s.nodeIdx i).euid = euid
  | .deleteNode _ => True
  | .sort => OccupiedFirst cfg s.nodeIdx
  | .compress => CompressSafe cfg stale s.store

/-! ## The invariant -/

/-- Table and log agree entry by entry, and the most recent record of an euid is the one its entry
    was loaded from. -/
structure TableInv (cfg : Syscfg) (t : Table NodeIdx) (f : Fcb) : Prop where
  agree : ∀ i < cfg.maxnumNodes, (t i).occupied = true → (f.table cfg i).ident = (t i).ident
  free : ∀ i < cfg.maxnumNodes, (t i).occupied = false → (f.table cfg i).occupied = false
  latest : ∀ i < cfg.maxnumNodes, (t i).occupied = true → (t i).euid ≠ 0 →
    ∃ n, f.latest (t i).euid = some n ∧ n.index = i ∧ n.addr = (t i).addr
  gone : ∀ euid ≠ 0, ∀ n, f.latest euid = some n → n.addr = 0xffff ∨
    n.index < cfg.maxnumNodes ∧ (t n.index).occupied = true ∧ (t n.index).euid = euid
  addr_le : ∀ i < cfg.maxnumNodes, (t i).addr ≤ 0xffff

/-- Between two events nothing is pending. -/
structure StoreInv (cfg : Syscfg) (s : State Fcb) : Prop where
  idle : ∀ k < cfg.nodesToSave, (s.nodesToSave k).euid = 0
  table : TableInv cfg s.nodeIdx s.store

section
variable {t t' : Table NodeIdx} {f f' : Fcb}

/-- The invariant says that the store agrees. -/
lemma TableInv.agrees (h : TableInv cfg s.nodeIdx s.store) : StoreAgrees cfg s := by
  intro i hi
  refine ⟨?_, h.agree i hi⟩
  cases ho : (s.nodeIdx i).occupied with
  | true => rw [NodeIdx.occupied_congr (h.agree i hi ho), ho]
  | false => exact h.free i hi ho

/-- An euid other than 0 is listed once. -/
lemma TableInv.euid_inj (h : TableInv cfg t f) {i j : Nat} (hi : i < cfg.maxnumNodes)
    (hj : j < cfg.maxnumNodes) (oi : (t i).occupied = true) (oj : (t j).occupied = true)
    (he : (t i).euid = (t j).euid) (h0 : (t i).euid ≠ 0) : i = j := by
  obtain ⟨n, hn, rfl, -⟩ := h.latest i hi oi h0
  obtain ⟨m, hm, rfl, -⟩ := h.latest j hj oj (he ▸ h0)
  rw [he, hm] at hn
  cases hn
  rfl

/-- The table may change in other fields than the identities. -/
lemma TableInv.congr (h : TableInv cfg t f) (ht : ∀ i < cfg.maxnumNodes, (t' i).ident = (t i).ident) :
    TableInv cfg t' f := by
  have hocc : ∀ i < cfg.maxnumNodes, (t' i).occupied = (t i).occupied := fun i hi =>
    NodeIdx.occupied_congr (ht i hi)
  have heuid : ∀ i < cfg.maxnumNodes, (t' i).euid = (t i).euid := fun i hi =>
    (Prod.mk.inj (Prod.mk.inj (ht i hi)).2).1
  have haddr : ∀ i < cfg.maxnumNodes, (t' i).addr = (t i).addr := fun i hi =>
    (Prod.mk.inj (ht i hi)).1
  refine ⟨fun i hi oi => ?_, fun i hi oi => ?_, fun i hi oi h0 => ?_, fun euid h0 n hn => ?_,
    fun i hi => ?_⟩
  · rw [ht i hi]
    exact h.agree i hi (hocc i hi ▸ oi)
  · exact h.free i hi (hocc i hi ▸ oi)
  · rw [heuid i hi] at h0 ⊢
    rw [haddr i hi]
    exact h.latest i hi (hocc i hi ▸ oi) h0
  · refine (h.gone euid h0 n hn).imp_right fun ⟨hi, oi, he⟩ => ⟨hi, ?_, ?_⟩
    · rw [hocc _ hi]
      exact oi
    · rw [heuid _ hi]
      exact he
  · rw [haddr i hi]
    exact h.addr_le i hi

/-- A compression that loses nothing. -/
lemma TableInv.keeps (h : TableInv cfg t f) (hk : CompressKeeps cfg f f') : TableInv cfg t f' := by
  refine ⟨fun i hi oi => ?_, fun i hi oi => ?_, fun i hi oi h0 => ?_, fun euid h0 n hn => ?_,
    h.addr_le⟩
  · rw [hk.table i hi]
    exact h.agree i hi oi
  · rw [hk.table i hi]
    exact h.free i hi oi
  · rw [hk.latest]
    exact h.latest i hi oi h0
  · rw [hk.latest] at hn
    exact h.gone euid h0 n hn

/-- A record is appended and the table entry it names takes its identity, or both are freed. -/
lemma TableInv.save (h : TableInv cfg t f) {n : Node} (hf : f'.records = f.records ++ [n])
    (hn : n.index < cfg.maxnumNodes) (ht : ∀ j ≠ n.index, (t' j).ident = (t j).ident)
    (hself : (t' n.index).ident = n.ident ∨
      n.addr = 0xffff ∧ (t' n.index).occupied = false)
    (hold : (t n.index).occupied = true → (t n.index).euid = n.euid)
    (hnew : ∀ j < cfg.maxnumNodes, j ≠ n.index → (t j).occupied = true → (t j).euid = n.euid →
      n.euid = 0)
    (haddr : n.addr ≤ 0xffff) : TableInv cfg t' f' := by
  have hocc : ∀ j ≠ n.index, (t' j).occupied = (t j).occupied := fun j hj =>
    NodeIdx.occupied_congr (ht j hj)
  have heuid : ∀ j ≠ n.index, (t' j).euid = (t j).euid := fun j hj =>
    (Prod.mk.inj (Prod.mk.inj (ht j hj)).2).1
  have hlast : (f'.table cfg n.index).ident = n.ident := by
    rw [Fcb.table_ident cfg f' hn.le, hf, lastWrite_concat, identOf, if_pos rfl]
    rfl
  have hrest : ∀ j < cfg.maxnumNodes, j ≠ n.index →
      (f'.table cfg j).ident = (f.table cfg j).ident := by
    intro j hj hne
    rw [Fcb.table_ident cfg f' hj.le, Fcb.table_ident cfg f hj.le, hf, lastWrite_concat, identOf,
      if_neg hne.symm, Option.none_or]
  have hlatest : ∀ euid ≠ n.euid, f'.latest euid = f.latest euid := by
    intro euid hne
    rw [Fcb.latest, Fcb.latest, hf, lastWrite_concat, ofKey, if_neg hne.symm, Option.none_or]
  have hnewest : f'.latest n.euid = some n := by
    rw [Fcb.latest, hf, lastWrite_concat, ofKey, if_pos rfl]
    rfl
  refine ⟨fun i hi oi => ?_, fun i hi oi => ?_, fun i hi oi h0 => ?_, fun euid h0 m hm => ?_,
    fun i hi => ?_⟩
  · by_cases hin : i = n.index
    · subst hin
      rcases hself with hself | ⟨-, hfree⟩
      · rw [hlast, hself]
      · rw [hfree] at oi
        cases oi
    · rw [hrest i hi hin, ht i hin]
      exact h.agree i hi (hocc i hin ▸ oi)
  · by_cases hin : i = n.index
    · subst hin
      rw [← Bool.not_eq_true, NodeIdx.occupied_of_ident hlast, not_not]
      rcases hself with hself | ⟨hfree, -⟩
      · rw [← Bool.not_eq_true, NodeIdx.occupied_of_ident hself, not_not] at oi
        exact oi
      · exact hfree
    · rw [NodeIdx.occupied_congr (hrest i hi hin)]
      exact h.free i hi (hocc i hin ▸ oi)
  · by_cases hin : i = n.index
    · subst hin
      rcases hself with hself | ⟨-, hfree⟩
      · obtain ⟨ha, hb⟩ := Prod.mk.inj hself
        have he : (t' n.index).euid = n.euid := (Prod.mk.inj hb).1
        rw [he]
        exact ⟨n, hnewest, rfl, ha.symm⟩
      · rw [hfree] at oi
        cases oi
    · rw [heuid i hin] at h0 ⊢
      have oi' : (t i).occupied = true := hocc i hin ▸ oi
      have hne : (t i).euid ≠ n.euid := by
        intro he
        exact h0 (he.trans (hnew i hi hin oi' he))
      rw [hlatest _ hne, (Prod.mk.inj (ht i hin)).1]
      exact h.latest i hi oi' h0
  · by_cases he : euid = n.euid
    · subst he
      rw [hnewest] at hm
      cases hm
      rcases hself with hself | ⟨hfree, -⟩
      · by_cases ha : n.addr = 0xffff
        · exact .inl ha
        · exact .inr ⟨hn, (NodeIdx.occupied_of_ident hself).mpr ha,
            (Prod.mk.inj (Prod.mk.inj hself).2).1⟩
      · exact .inl hfree
    · rw [hlatest _ he] at hm
      refine (h.gone euid h0 m hm).imp_right ?_
      rintro ⟨hi, oi, hme⟩
      have hin : m.index ≠ n.index := by
        intro hin
        rw [hin] at oi hme
        exact he (hme.symm.trans (hold oi))
      refine ⟨hi, ?_, ?_⟩
      · rw [hocc _ hin]
        exact oi
      · rw [heuid _ hin]
        exact hme
  · by_cases hin : i = n.index
    · subst hin
      rcases hself with hself | ⟨-, hfree⟩
      · rw [(Prod.mk.inj hself).1]
        exact haddr
      · rw [NodeIdx.occupied_false.mp hfree]
    · rw [(Prod.mk.inj (ht i hin)).1]
      exact h.addr_le i hi

end

/-! ## Each event keeps it -/

/-- What is found is the last record. -/
lemma findEuid_latest {euid : Nat} {n : Node}
    (h : panmFcbFindNode s.store (findEuid euid) = some n) :
    euid ≠ 0 ∧ s.store.latest euid = some n ∧ n.euid = euid := by
  have h0 : euid ≠ 0 := by
    rintro rfl
    rw [panmFcbFindNode_zero] at h
    cases h
  rw [panmFcbFindNode_latest _ h0] at h
  obtain ⟨m, -, hm⟩ := lastWrite_mem h
  rw [ofKey] at hm
  split at hm
  case isTrue he =>
    cases hm
    exact ⟨h0, h, he⟩
  case isFalse => cases hm

/-- An euid that no search finds is not listed, unless it is 0. -/
lemma TableInv.unlisted (h : TableInv cfg s.nodeIdx s.store) {euid : Nat}
    (hf : panmFcbFindNode s.store (findEuid euid) = none) {j : Nat} (hj : j < cfg.maxnumNodes)
    (oj : (s.nodeIdx j).occupied = true) (he : (s.nodeIdx j).euid = euid) : euid = 0 := by
  by_contra h0
  obtain ⟨n, hn, -⟩ := h.latest j hj oj (he ▸ h0)
  rw [panmFcbFindNode_latest _ h0, ← he, hn] at hf
  cases hf

/-- A record for a node that is not listed differs from every stored one. -/
lemma TableInv.saveIsNeeded (h : TableInv cfg s.nodeIdx s.store) {euid : Nat} {n : Node}
    (hnew : ∀ j < cfg.maxnumNodes, (s.nodeIdx j).occupied = true → (s.nodeIdx j).euid ≠ euid)
    (ha : n.addr ≠ 0xffff) : saveIsNeeded (panmFcb lib stale) euid n s.store = true := by
  rw [Panmaster.saveIsNeeded]
  cases hf : (panmFcb lib stale).findNode s.store (findEuid euid) with
  | none => rfl
  | some m =>
    obtain ⟨h0, hm, -⟩ := findEuid_latest hf
    rcases h.gone _ h0 m hm with hma | ⟨hi, oi, he⟩
    · have hne : n.addr ≠ m.addr := hma ▸ ha
      simp [recordDiffers, hne]
    · exact absurd he (hnew _ hi oi)

/-- Only one entry waits to be saved. -/
lemma StoreInv.put_only {k i : Nat} {n : Node} {e : NodeIdx} (h : StoreInv cfg s)
    (hk : k < cfg.nodesToSave) :
    panmasterPostprocess cfg (panmFcb lib stale) (s.put k n i e) =
      postprocessEntry (panmFcb lib stale) (s.put k n i e) k := by
  refine panmasterPostprocess_only hk fun j hj hne => ?_
  rw [State.put_nodesToSave, if_neg hne]
  exact h.idle j hj

/-- After its round none does. -/
lemma StoreInv.idle_round {k i : Nat} {n : Node} {e : NodeIdx} (h : StoreInv cfg s) :
    ∀ j < cfg.nodesToSave,
      ((postprocessEntry (panmFcb lib stale) (s.put k n i e) k).nodesToSave j).euid = 0 := by
  intro j hj
  by_cases hjk : j = k
  · rw [hjk]
    exact postprocessEntry_self _ k
  · rw [postprocessEntry_other _ hjk, State.put_nodesToSave, if_neg hjk]
    exact h.idle j hj

/-- A save of the pending record, after its entry was served. -/
lemma TableInv.put_save (happ : AppendOnly lib stale) (h : TableInv cfg s.nodeIdx s.store)
    {k i : Nat} {n : Node} {e : NodeIdx} (hi : i < cfg.maxnumNodes) (hni : n.index = i)
    (hident : e.addr = n.addr ∧ e.euid = n.euid)
    (hold : (s.nodeIdx i).occupied = true → (s.nodeIdx i).euid = n.euid)
    (hnew : ∀ j < cfg.maxnumNodes, j ≠ i → (s.nodeIdx j).occupied = true →
      (s.nodeIdx j).euid = n.euid → n.euid = 0)
    (haddr : n.addr ≤ 0xffff) :
    TableInv cfg (panmasterSaveNode (panmFcb lib stale) n (s.put k n i e)).nodeIdx
      (panmasterSaveNode (panmFcb lib stale) n (s.put k n i e)).store := by
  subst hni
  refine h.save (happ _ n) hi (fun j hj => ?_) (.inl ?_) hold hnew haddr
  · rw [panmasterSaveNode_nodeIdx, if_neg hj, State.put_nodeIdx_of_ne _ _ _ _ _ hj]
  · rw [panmasterSaveNode_nodeIdx, if_pos rfl, State.put_nodeIdx_self]
    simp only [NodeIdx.ident, Node.ident, hident.1, hident.2]

/-- A request. -/
lemma StoreInv.request (hN : cfg.maxnumNodes ≤ 255) (happ : AppendOnly lib stale)
    (h : StoreInv cfg s) {tv utc euid request buf}
    (g : StoreGuard cfg stale s (.request tv utc euid request buf)) :
    StoreInv cfg (storeStep cfg lib stale s (.request tv utc euid request buf)) := by
  have sv := panrequestCb_served (by omega : cfg.maxnumNodes ≤ 2 ^ 8) false tv utc euid request
    buf s
  rw [storeStep]
  generalize panrequestCb cfg false tv utc euid request buf s = r at sv ⊢
  cases sv with
  | noEntry => exact h
  | full => exact h
  | @known k i _ hk hf =>
    obtain ⟨hi, oi, he⟩ := findByEuid_some hf
    simp only [h.put_only (emptySaveEntry_some hk).1]
    refine ⟨h.idle_round, ?_⟩
    have hcongr : TableInv cfg (s.put k (knownNode cfg s.nodeIdx tv i request (s.nodesToSave k)) i
        (knownIdx cfg s.nodeIdx tv i request buf)).nodeIdx s.store := by
      refine h.table.congr fun j _ => ?_
      by_cases hj : j = i
      · subst hj
        rw [State.put_nodeIdx_self]
        rfl
      · rw [State.put_nodeIdx_of_ne _ _ _ _ _ hj]
    rcases postprocessEntry_cases (panmFcb lib stale) (s.put k _ i _) k
      with ⟨-, e⟩ | ⟨-, e⟩ | ⟨-, e⟩
    · rw [e]
      exact hcongr
    · rw [e]
      exact hcongr
    · rw [e, State.put_nodesToSave, if_pos rfl]
      refine h.table.put_save happ hi rfl ⟨rfl, rfl⟩ (fun _ => rfl) (fun j hj hji oj hje => ?_)
        (h.table.addr_le i hi)
      -- the euid is listed once
      by_contra h0
      exact hji (h.table.euid_inj hj hi oj oi hje (hje ▸ h0))
  | @fresh k i _ hk hf hfree =>
    obtain ⟨hi, oi, -⟩ := findFreeIdx_some hfree
    have hnew : ∀ j < cfg.maxnumNodes, (s.nodeIdx j).occupied = true →
        (s.nodeIdx j).euid ≠ euid := fun j hj oj => findByEuid_none hf hj oj
    have h0 : euid ≠ 0 := fun he => g he hf
    have hpend : (((s.put k (newNode cfg s.nodeIdx tv utc i euid request) i
        (newIdx cfg s.nodeIdx tv i euid request buf)).nodesToSave k)).euid ≠ 0 := by
      rw [State.put_nodesToSave, if_pos rfl]
      exact h0
    have hneed : saveIsNeeded (panmFcb lib stale)
        (newNode cfg s.nodeIdx tv utc i euid request).euid
        (newNode cfg s.nodeIdx tv utc i euid request) s.store = true :=
      h.table.saveIsNeeded hnew (firstFreeShortAddr_ne hi oi)
    simp only [h.put_only (emptySaveEntry_some hk).1]
    refine ⟨h.idle_round, ?_⟩
    rw [postprocessEntry_pending _ hpend, State.put_nodesToSave, if_pos rfl, panmasterUpdateNode,
      State.put_store, if_pos hneed]
    refine h.table.put_save happ hi rfl ⟨rfl, rfl⟩ (fun o => ?_) (fun j hj _ oj hje => ?_)
      (firstFreeShortAddr_le euid)
    · rw [oi] at o
      cases o
    · exact absurd hje (hnew j hj oj)

/-- A node that is added. -/
lemma StoreInv.addNode (hN : cfg.maxnumNodes ≤ 255) (happ : AppendOnly lib stale)
    (h : StoreInv cfg s) {utc shortAddr euid}
    (g : StoreGuard cfg stale s (.addNode utc shortAddr euid)) :
    StoreInv cfg (storeStep cfg lib stale s (.addNode utc shortAddr euid)) := by
  have ha := panmasterAddNode_added cfg (panmFcb lib stale) utc shortAddr euid s
  rw [storeStep]
  generalize panmasterAddNode cfg (panmFcb lib stale) utc shortAddr euid s = s' at ha ⊢
  cases ha with
  | none => exact h
  | @known node e hf =>
    obtain ⟨h0, hr, hne⟩ := addTakesEffect_some e hf
    have g := g h0 hr
    rw [show panmFcbFindNode s.store (findEuid euid) = some node from hf] at g
    exact absurd g hne
  | @fresh i e hf hfree =>
    obtain ⟨hi, oi, -⟩ := findFreeIdx_some hfree
    obtain ⟨h0, hr⟩ := addTakesEffect_args e
    have g := g h0 hr
    rw [show panmFcbFindNode s.store (findEuid euid) = none from hf] at g
    have hmod : (addedNode utc i euid shortAddr).index = i := Nat.mod_eq_of_lt (by omega)
    refine ⟨h.idle, h.table.save (happ _ _) (by rwa [hmod]) (fun j hj => ?_) ?_ (fun o => ?_)
      (fun j hj _ oj hje => h.table.unlisted hf hj oj hje) (Nat.le_of_lt_succ shortAddr.isLt)⟩
    · rw [panmasterSaveNode_nodeIdx, if_neg hj]
      rw [hmod] at hj
      rw [State.setAddr_nodeIdx_of_ne _ _ hj]
    · rw [panmasterSaveNode_nodeIdx, if_pos rfl, hmod, State.setAddr_nodeIdx_self]
      rcases g with g | g
      · refine .inr ⟨g, ?_⟩
        rw [NodeIdx.occupied_false]
        exact g
      · refine .inl ?_
        simp only [NodeIdx.ident, Node.ident, g i hfree]
        rfl
    · rw [hmod, oi] at o
      cases o

/-- A node that is deleted. -/
lemma StoreInv.deleteNode (happ : AppendOnly lib stale) (h : StoreInv cfg s) (euid : Nat) :
    StoreInv cfg (storeStep cfg lib stale s (.deleteNode euid)) := by
  have hd := panmasterDeleteNode_deleted cfg (panmFcb lib stale) euid s
  rw [storeStep]
  generalize panmasterDeleteNode cfg (panmFcb lib stale) euid s = s' at hd ⊢
  cases hd with
  | none => exact h
  | @freed node hf hi haddr =>
    obtain ⟨h0, hlatest, he⟩ := findEuid_latest hf
    refine ⟨h.idle, h.table.save (n := { node with addr := 0xffff }) (happ _ _) hi
      (fun j hj => ?_) (.inr ⟨rfl, ?_⟩) (fun o => ?_) (fun j hj hne oj hje => ?_) le_rfl⟩
    · rw [panmasterSaveNode_nodeIdx, if_neg hj, State.freeIdx_nodeIdx_of_ne _ hj]
    · rw [panmasterSaveNode_nodeIdx, if_pos rfl, State.freeIdx_nodeIdx_self]
      rfl
    · rcases h.table.gone euid h0 node hlatest with hg | ⟨-, -, hg⟩
      · rw [NodeIdx.occupied_iff, haddr] at o
        exact absurd hg o
      · exact hg.trans he.symm
    · -- the euid is listed at the index of its record only
      rw [he] at hje
      obtain ⟨n, hn, hnj, -⟩ := h.table.latest j hj oj (hje ▸ h0)
      rw [hje, hlatest] at hn
      cases hn
      exact absurd hnj.symm hne

end UwbCore.Panmaster
