import UwbCore.Panmaster.Served

/-!
# Saving, adding and deleting nodes

The writers of `panmaster.c` behind the request path: `panmaster_update_node`, which hands a record
to the store when it differs from the stored one, `panmaster_postprocess`, which does so for every
entry of `nodes_to_save`, and `panmaster_add_node` and `panmaster_delete_node`. The back end is a
`NodeStore`.
-/

namespace UwbCore.Panmaster
open UwbCore.Lib

variable {σ : Type}

/-- The search record for an euid (C `PANMASTER_NODE_DEFAULT(fns.find); fns.find.euid = euid`). -/
def findEuid (euid : Nat) : Node := { Node.default with euid := euid }

/-- C `panmaster_save_node`. -/
def panmasterSaveNode (ns : NodeStore σ) (node : Node) (s : State σ) : State σ :=
  { s with
    nodeIdx := s.nodeIdx.modify node.index fun e =>
      { e with role := node.role, hasPermSlot := node.hasPermSlot }
    store := ns.save s.store node }

/-- The comparison of `panmaster_update_node` with the stored record. -/
def recordDiffers (upd stored : Node) : Bool :=
  upd.fwVer != stored.fwVer || upd.firstSeenUtc != stored.firstSeenUtc ||
    upd.addr != stored.addr || upd.flags != stored.flags || upd.index != stored.index

/-- The record has to be saved: none is stored for its euid, or another one is. -/
def saveIsNeeded (ns : NodeStore σ) (euid : Nat) (upd : Node) (store : σ) : Bool :=
  match ns.findNode store (findEuid euid) with
  | some stored => recordDiffers upd stored
  | none => true

/-- C `panmaster_update_node`. -/
def panmasterUpdateNode (ns : NodeStore σ) (euid : Nat) (upd : Node) (s : State σ) : State σ :=
  if saveIsNeeded ns euid upd s.store then panmasterSaveNode ns upd s else s

/-- The `memset` of a save entry. -/
def State.clearSave (s : State σ) (i : Nat) : State σ :=
  { s with nodesToSave := s.nodesToSave.modify i fun _ => .zero }

/-- One round of `panmaster_postprocess`. -/
def postprocessEntry (ns : NodeStore σ) (s : State σ) (i : Nat) : State σ :=
  if (s.nodesToSave i).euid != 0 then
    (panmasterUpdateNode ns (s.nodesToSave i).euid (s.nodesToSave i) s).clearSave i
  else s

/-- C `panmaster_postprocess`, not interrupted by a request. -/
def panmasterPostprocess (cfg : Syscfg) (ns : NodeStore σ) (s : State σ) : State σ :=
  (List.range cfg.nodesToSave).foldl (postprocessEntry ns) s

/-- An euid of eight bytes 0xff, the one of a reset package. -/
def resetEuid : Nat := 0xffffffffffffffff

/-- The record `panmaster_add_node` saves for an unknown node. -/
def addedNode (utc : Int) (i euid shortAddr : Nat) : Node :=
  { Node.default with euid := euid, addr := shortAddr, firstSeenUtc := utc, index := i % 2 ^ 8 }

/-- The address of index entry `i` overwritten. -/
def State.setAddr (s : State σ) (i addr : Nat) : State σ :=
  { s with nodeIdx := s.nodeIdx.modify i fun e => { e with addr := addr } }

/-- C `panmaster_add_node`; the role is not used. A known node is changed in the store only, and a
    duplicate address is only logged. -/
def panmasterAddNode (cfg : Syscfg) (ns : NodeStore σ) (utc : Int) (shortAddr euid : Nat)
    (s : State σ) : State σ :=
  if shortAddr = 0 ∨ euid = resetEuid then s
  else match ns.findNode s.store (findEuid euid) with
    | some node =>
      if node.addr = shortAddr then s
      else { s with store := ns.save s.store { node with addr := shortAddr } }
    | none =>
      match findFreeIdx cfg s.nodeIdx with
      | none => s
      | some i =>
        panmasterSaveNode ns (addedNode utc i euid shortAddr) (s.setAddr i shortAddr)

/-- The index entry of a deleted node. -/
def NodeIdx.deleted (e : NodeIdx) : NodeIdx :=
  { e with addr := 0xffff, euid := 0xffffffffffffffff, slotId := 0xffff, hasPermSlot := false }

/-- Index entry `i` freed. -/
def State.freeIdx (s : State σ) (i : Nat) : State σ :=
  { s with nodeIdx := s.nodeIdx.modify i NodeIdx.deleted }

/-- C `panmaster_delete_node`. -/
def panmasterDeleteNode (cfg : Syscfg) (ns : NodeStore σ) (euid : Nat) (s : State σ) : State σ :=
  match ns.findNode s.store (findEuid euid) with
  | none => s
  | some node =>
    if cfg.maxnumNodes ≤ node.index then s
    else if (s.nodeIdx node.index).addr ≠ node.addr then s
    else panmasterSaveNode ns { node with addr := 0xffff } (s.freeIdx node.index)

/-! ## What the writers change -/

section
variable {cfg : Syscfg} {ns : NodeStore σ}

@[simp] lemma panmasterSaveNode_nodesToSave (node : Node) (s : State σ) :
    (panmasterSaveNode ns node s).nodesToSave = s.nodesToSave := rfl
@[simp] lemma panmasterSaveNode_store (node : Node) (s : State σ) :
    (panmasterSaveNode ns node s).store = ns.save s.store node := rfl
@[simp] lemma State.clearSave_nodeIdx (s : State σ) (i : Nat) :
    (s.clearSave i).nodeIdx = s.nodeIdx := rfl
/-- One entry is cleared. -/
lemma State.clearSave_nodesToSave (s : State σ) (i j : Nat) :
    (s.clearSave i).nodesToSave j = if j = i then .zero else s.nodesToSave j := rfl

/-- The entry that gets an address. -/
lemma State.setAddr_nodeIdx_self (s : State σ) (i addr : Nat) :
    (s.setAddr i addr).nodeIdx i = { s.nodeIdx i with addr := addr } := if_pos rfl
/-- The others. -/
lemma State.setAddr_nodeIdx_of_ne (s : State σ) {i j : Nat} (addr : Nat) (h : j ≠ i) :
    (s.setAddr i addr).nodeIdx j = s.nodeIdx j := if_neg h
/-- The entry that is deleted. -/
lemma State.freeIdx_nodeIdx_self (s : State σ) (i : Nat) :
    (s.freeIdx i).nodeIdx i = (s.nodeIdx i).deleted := if_pos rfl
/-- The others. -/
lemma State.freeIdx_nodeIdx_of_ne (s : State σ) {i j : Nat} (h : j ≠ i) :
    (s.freeIdx i).nodeIdx j = s.nodeIdx j := if_neg h

/-- A save sets the role of its entry. -/
lemma panmasterSaveNode_nodeIdx (node : Node) (s : State σ) (j : Nat) :
    (panmasterSaveNode ns node s).nodeIdx j =
      if j = node.index then
        { s.nodeIdx j with role := node.role, hasPermSlot := node.hasPermSlot }
      else s.nodeIdx j := by
  simp only [panmasterSaveNode, Table.modify_apply]
  split
  case isTrue e => rw [e]
  case isFalse => rfl

/-- An update saves the record or changes nothing. -/
lemma panmasterUpdateNode_cases (ns : NodeStore σ) (euid : Nat) (upd : Node) (s : State σ) :
    (saveIsNeeded ns euid upd s.store = true ∧
      panmasterUpdateNode ns euid upd s = panmasterSaveNode ns upd s) ∨
    (saveIsNeeded ns euid upd s.store = false ∧ panmasterUpdateNode ns euid upd s = s) := by
  rw [panmasterUpdateNode]
  cases h : saveIsNeeded ns euid upd s.store with
  | true => exact .inl ⟨rfl, rfl⟩
  | false => exact .inr ⟨rfl, rfl⟩

/-- A round on an entry in use. -/
lemma postprocessEntry_pending (ns : NodeStore σ) {s : State σ} {i : Nat}
    (h : (s.nodesToSave i).euid ≠ 0) :
    postprocessEntry ns s i =
      (panmasterUpdateNode ns (s.nodesToSave i).euid (s.nodesToSave i) s).clearSave i :=
  if_pos (by simpa using h)

/-- A round does nothing, clears the entry, or saves and clears it. -/
lemma postprocessEntry_cases (ns : NodeStore σ) (s : State σ) (i : Nat) :
    ((s.nodesToSave i).euid = 0 ∧ postprocessEntry ns s i = s) ∨
    ((s.nodesToSave i).euid ≠ 0 ∧ postprocessEntry ns s i = s.clearSave i) ∨
    ((s.nodesToSave i).euid ≠ 0 ∧
      postprocessEntry ns s i = (panmasterSaveNode ns (s.nodesToSave i) s).clearSave i) := by
  rw [postprocessEntry]
  by_cases h : (s.nodesToSave i).euid = 0
  · exact .inl ⟨h, by simp [h]⟩
  · right
    rw [← postprocessEntry, postprocessEntry_pending ns h]
    rcases panmasterUpdateNode_cases ns (s.nodesToSave i).euid (s.nodesToSave i) s
      with ⟨-, e⟩ | ⟨-, e⟩
    · exact .inr ⟨h, by rw [e]⟩
    · exact .inl ⟨h, by rw [e]⟩

/-- What every round of `panmaster_postprocess` keeps, the whole run keeps. -/
lemma panmasterPostprocess_induction {P : State σ → Prop} {s : State σ} (h0 : P s)
    (hround : ∀ s i, i < cfg.nodesToSave → P s → P (postprocessEntry ns s i)) :
    P (panmasterPostprocess cfg ns s) := by
  rw [panmasterPostprocess]
  exact List.foldlRecOn _ _ h0 fun s h i hi => hround s i (List.mem_range.mp hi) h

/-- Saving a record leaves address, euid, slot and lease of every index entry alone. -/
lemma panmasterSaveNode_keeps {β : Type*} (p : NodeIdx → β)
    (hp : ∀ e r b, p { e with role := r, hasPermSlot := b } = p e) (node : Node) (s : State σ)
    (j : Nat) : p ((panmasterSaveNode ns node s).nodeIdx j) = p (s.nodeIdx j) := by
  rw [panmasterSaveNode_nodeIdx]
  split
  · exact hp _ _ _
  · rfl

/-- So does the whole of `panmaster_postprocess`. -/
lemma panmasterPostprocess_keeps (cfg : Syscfg) (ns : NodeStore σ) {β : Type*} (p : NodeIdx → β)
    (hp : ∀ e r b, p { e with role := r, hasPermSlot := b } = p e) (s : State σ) (j : Nat) :
    p ((panmasterPostprocess cfg ns s).nodeIdx j) = p (s.nodeIdx j) := by
  apply panmasterPostprocess_induction (P := fun s' => p (s'.nodeIdx j) = p (s.nodeIdx j)) rfl
  intro s' i _ h
  rcases postprocessEntry_cases ns s' i with ⟨-, e⟩ | ⟨-, e⟩ | ⟨-, e⟩
  · rw [e, h]
  · rw [e, State.clearSave_nodeIdx, h]
  · rw [e, State.clearSave_nodeIdx, panmasterSaveNode_keeps p hp, h]

/-! ## Which entries are left -/

/-- A round leaves the other entries alone. -/
lemma postprocessEntry_other (s : State σ) {i j : Nat} (h : j ≠ i) :
    (postprocessEntry ns s i).nodesToSave j = s.nodesToSave j := by
  rcases postprocessEntry_cases ns s i with ⟨-, e⟩ | ⟨-, e⟩ | ⟨-, e⟩
  · rw [e]
  · rw [e, State.clearSave_nodesToSave, if_neg h]
  · rw [e, State.clearSave_nodesToSave, if_neg h, panmasterSaveNode_nodesToSave]

/-- A round leaves its own entry unused. -/
lemma postprocessEntry_self (s : State σ) (i : Nat) :
    ((postprocessEntry ns s i).nodesToSave i).euid = 0 := by
  rcases postprocessEntry_cases ns s i with ⟨h, e⟩ | ⟨-, e⟩ | ⟨-, e⟩
  · rw [e, h]
  · rw [e, State.clearSave_nodesToSave, if_pos rfl]
    rfl
  · rw [e, State.clearSave_nodesToSave, if_pos rfl]
    rfl

/-- Rounds for other entries. -/
lemma postprocess_foldl_other (l : List Nat) (s : State σ) {j : Nat} (h : j ∉ l) :
    (l.foldl (postprocessEntry ns) s).nodesToSave j = s.nodesToSave j := by
  induction l generalizing s with
  | nil => rfl
  | cons i l ih =>
    rw [List.mem_cons, not_or] at h
    rw [List.foldl_cons, ih _ h.2, postprocessEntry_other s h.1]

/-- Rounds over unused entries do nothing. -/
lemma postprocess_unused {s : State σ} {l : List Nat} (h : ∀ i ∈ l, (s.nodesToSave i).euid = 0) :
    l.foldl (postprocessEntry ns) s = s := by
  induction l with
  | nil => rfl
  | cons i l ih =>
    have hi : postprocessEntry ns s i = s := by
      rw [postprocessEntry, h i (by simp)]
      rfl
    rw [List.foldl_cons, hi]
    exact ih fun j hj => h j (List.mem_cons_of_mem i hj)

/-- After its round an entry does not wait. -/
lemma postprocess_foldl_unused (l : List Nat) (s : State σ) :
    ∀ i ∈ l, ((l.foldl (postprocessEntry ns) s).nodesToSave i).euid = 0 := by
  induction l using List.reverseRecOn with
  | nil => simp
  | append_singleton l i ih =>
    intro j hj
    rw [List.foldl_append, List.foldl_cons, List.foldl_nil]
    by_cases hji : j = i
    · rw [hji]
      exact postprocessEntry_self _ i
    · rw [postprocessEntry_other _ hji]
      exact ih j ((List.mem_append.mp hj).resolve_right (by simpa using hji))

/-- `panmaster_postprocess` leaves no entry in use. -/
lemma panmasterPostprocess_unused (cfg : Syscfg) (ns : NodeStore σ) (s : State σ) {i : Nat}
    (hi : i < cfg.nodesToSave) : ((panmasterPostprocess cfg ns s).nodesToSave i).euid = 0 :=
  postprocess_foldl_unused _ s i (List.mem_range.mpr hi)

/-- A second run right after the first does nothing. -/
lemma panmasterPostprocess_twice (cfg : Syscfg) (ns : NodeStore σ) (s : State σ) :
    panmasterPostprocess cfg ns (panmasterPostprocess cfg ns s) = panmasterPostprocess cfg ns s :=
  postprocess_unused fun _ hi => panmasterPostprocess_unused cfg ns s (List.mem_range.mp hi)

/-- When nothing is pending behind entry `k`, the run ends with the round of `k`. -/
lemma panmasterPostprocess_upto {s : State σ} {k : Nat} (hk : k < cfg.nodesToSave)
    (hrest : ∀ j, k < j → j < cfg.nodesToSave → (s.nodesToSave j).euid = 0) :
    panmasterPostprocess cfg ns s =
      postprocessEntry ns ((List.range k).foldl (postprocessEntry ns) s) k := by
  have hrange : List.range cfg.nodesToSave =
      List.range k ++ k :: (List.range (cfg.nodesToSave - (k + 1))).map (k + 1 + ·) := by
    rw [← List.singleton_append, ← List.append_assoc, ← List.range_succ, ← List.range_add]
    congr 1
    omega
  have hlt : ∀ i ∈ List.range k, i < k := fun i hi => List.mem_range.mp hi
  rw [panmasterPostprocess, hrange, List.foldl_append, List.foldl_cons]
  refine postprocess_unused fun j hj => ?_
  obtain ⟨i, hi, rfl⟩ := List.mem_map.mp hj
  have hi := List.mem_range.mp hi
  rw [postprocessEntry_other _ (by omega : k + 1 + i ≠ k)]
  have hne : ∀ a ∈ List.range k, a ≠ k + 1 + i := by
    intro a ha
    have := hlt a ha
    omega
  rw [postprocess_foldl_other _ s fun h => hne _ h rfl]
  exact hrest _ (by omega) (by omega)

/-- With one entry in use the run is the round of that entry. -/
lemma panmasterPostprocess_only {s : State σ} {k : Nat} (hk : k < cfg.nodesToSave)
    (h : ∀ j < cfg.nodesToSave, j ≠ k → (s.nodesToSave j).euid = 0) :
    panmasterPostprocess cfg ns s = postprocessEntry ns s k := by
  rw [panmasterPostprocess_upto hk fun j hj hj' => h j hj' hj.ne']
  congr 1
  refine postprocess_unused fun i hi => ?_
  have hi := List.mem_range.mp hi
  exact h i (hi.trans hk) hi.ne

/-! ## Adding and deleting -/

/-- `panmaster_add_node` takes effect: it saves a record under the new address. -/
def addTakesEffect (cfg : Syscfg) (ns : NodeStore σ) (s : State σ) (shortAddr euid : Nat) : Bool :=
  shortAddr != 0 && euid != resetEuid &&
    match ns.findNode s.store (findEuid euid) with
    | some node => node.addr != shortAddr
    | none => (findFreeIdx cfg s.nodeIdx).isSome

/-- A node that is added has an address and an EUID. -/
lemma addTakesEffect_args {s : State σ} {shortAddr euid : Nat}
    (h : addTakesEffect cfg ns s shortAddr euid = true) : shortAddr ≠ 0 ∧ euid ≠ resetEuid := by
  simp only [addTakesEffect, Bool.and_eq_true, bne_iff_ne] at h
  exact h.1

/-- A node that is known gets another address. -/
lemma addTakesEffect_some {s : State σ} {shortAddr euid : Nat} {node : Node}
    (h : addTakesEffect cfg ns s shortAddr euid = true)
    (hf : ns.findNode s.store (findEuid euid) = some node) :
    shortAddr ≠ 0 ∧ euid ≠ resetEuid ∧ node.addr ≠ shortAddr := by
  simp only [addTakesEffect, hf, Bool.and_eq_true, bne_iff_ne] at h
  exact ⟨h.1.1, h.1.2, h.2⟩

/-- What `panmaster_add_node` can do. -/
inductive Added (cfg : Syscfg) (ns : NodeStore σ) (utc : Int) (shortAddr euid : Nat) (s : State σ) :
    State σ → Prop
  | none :
    addTakesEffect cfg ns s shortAddr euid = false →
    Added cfg ns utc shortAddr euid s s
  | known {node} :
    addTakesEffect cfg ns s shortAddr euid = true →
    ns.findNode s.store (findEuid euid) = some node →
    Added cfg ns utc shortAddr euid s
      { s with store := ns.save s.store { node with addr := shortAddr } }
  | fresh {i} :
    addTakesEffect cfg ns s shortAddr euid = true →
    ns.findNode s.store (findEuid euid) = none →
    findFreeIdx cfg s.nodeIdx = some i →
    Added cfg ns utc shortAddr euid s
      (panmasterSaveNode ns (addedNode utc i euid shortAddr) (s.setAddr i shortAddr))

/-- The inversion of `panmaster_add_node`. -/
lemma panmasterAddNode_added (cfg : Syscfg) (ns : NodeStore σ) (utc : Int) (shortAddr euid : Nat) (s : State σ) :
    Added cfg ns utc shortAddr euid s (panmasterAddNode cfg ns utc shortAddr euid s) := by
  rw [panmasterAddNode]
  by_cases h : shortAddr = 0 ∨ euid = resetEuid
  · rw [if_pos h]
    refine .none ?_
    rcases h with h | h <;> simp [addTakesEffect, h]
  · rw [if_neg h]
    obtain ⟨h0, hr⟩ := not_or.mp h
    cases hf : ns.findNode s.store (findEuid euid) with
    | some node =>
      simp only
      by_cases ha : node.addr = shortAddr
      · rw [if_pos ha]
        exact .none (by simp [addTakesEffect, hf, ha])
      · rw [if_neg ha]
        exact .known (by simp [addTakesEffect, hf, ha, h0, hr]) hf
    | none =>
      simp only
      cases hfree : findFreeIdx cfg s.nodeIdx with
      | none => exact .none (by simp [addTakesEffect, hf, hfree])
      | some i => exact .fresh (by simp [addTakesEffect, hf, hfree, h0, hr]) hf hfree

/-- The entry `panmaster_delete_node` frees, when that was in use. -/
def deletedIdx (cfg : Syscfg) (ns : NodeStore σ) (s : State σ) (euid : Nat) : Option Nat :=
  match ns.findNode s.store (findEuid euid) with
  | none => none
  | some node =>
    if node.index < cfg.maxnumNodes ∧ (s.nodeIdx node.index).addr = node.addr ∧
        (s.nodeIdx node.index).occupied = true then some node.index
    else none

/-- What `panmaster_delete_node` can do. -/
inductive Deleted (cfg : Syscfg) (ns : NodeStore σ) (euid : Nat) (s : State σ) : State σ → Prop
  | none :
    deletedIdx cfg ns s euid = none →
    Deleted cfg ns euid s s
  | freed {node} :
    ns.findNode s.store (findEuid euid) = some node →
    node.index < cfg.maxnumNodes →
    (s.nodeIdx node.index).addr = node.addr →
    Deleted cfg ns euid s
      (panmasterSaveNode ns { node with addr := 0xffff } (s.freeIdx node.index))

/-- The inversion of `panmaster_delete_node`. -/
lemma panmasterDeleteNode_deleted (cfg : Syscfg) (ns : NodeStore σ) (euid : Nat) (s : State σ) :
    Deleted cfg ns euid s (panmasterDeleteNode cfg ns euid s) := by
  rw [panmasterDeleteNode]
  cases hf : ns.findNode s.store (findEuid euid) with
  | none => exact .none (by simp [deletedIdx, hf])
  | some node =>
    simp only
    by_cases hi : cfg.maxnumNodes ≤ node.index
    · rw [if_pos hi]
      exact .none (by simp [deletedIdx, hf, Nat.not_lt.mpr hi])
    · rw [if_neg hi]
      by_cases ha : (s.nodeIdx node.index).addr = node.addr
      · rw [if_neg (not_not.mpr ha)]
        exact .freed hf (Nat.lt_of_not_le hi) ha
      · rw [if_pos ha]
        exact .none (by simp [deletedIdx, hf, ha])

end

end UwbCore.Panmaster
