import Mathlib.Data.Finset.Card
import UwbCore.Panmaster.Request

/-!
# What serving a request does

What the searches find (`firstFreeSlotId_free`, `firstFreeShortAddr_free`) and the inversion of
`panrequestCb` (`panrequestCb_served`): a request fails without a trace, fails after reserving a
save entry, or replaces one index entry and one save entry by values given here in full.
-/

namespace UwbCore.Panmaster
open UwbCore.Lib

variable {σ : Type} {cfg : Syscfg} {t : Table NodeIdx} {tv : Timeval}

/-! ## Searches -/

/-- No entry has the address. -/
lemma addrInUse_false {addr : Nat} (h : addrInUse cfg t addr = false) {j : Nat}
    (hj : j < cfg.maxnumNodes) : (t j).addr ≠ addr := by
  intro e
  rw [addrInUse, List.any_eq_false] at h
  exact h j (List.mem_range.mpr hj) (by simp [e])

/-- Some round of the address search offers a usable address. -/
def HasFreeAddr (cfg : Syscfg) (t : Table NodeIdx) (euid : Nat) : Prop :=
  ∃ i < cfg.maxnumNodes, shortAddrCandidate euid i ≠ 0 ∧
    ∀ j < cfg.maxnumNodes, (t j).addr ≠ shortAddrCandidate euid i

instance (t : Table NodeIdx) (euid : Nat) : Decidable (HasFreeAddr cfg t euid) :=
  inferInstanceAs (Decidable (∃ i < cfg.maxnumNodes, _))

/-- With a usable address on offer the search returns one (C `first_free_short_addr`). -/
lemma firstFreeShortAddr_free {euid : Nat} (h : HasFreeAddr cfg t euid) :
    firstFreeShortAddr cfg t euid ≠ 0 ∧
      ∀ j < cfg.maxnumNodes, (t j).addr ≠ firstFreeShortAddr cfg t euid := by
  obtain ⟨i, hi, h0, hfree⟩ := h
  have hcand : addrInUse cfg t (shortAddrCandidate euid i) = false := by
    rw [addrInUse, List.any_eq_false]
    intro j hj
    have := (hfree j (List.mem_range.mp hj)).symm
    simpa using this
  obtain ⟨a, ha⟩ : ∃ a, ((List.range cfg.maxnumNodes).map (shortAddrCandidate euid)).find? (fun a =>
      !addrInUse cfg t a && a != 0) = some a := by
    apply Option.isSome_iff_exists.mp
    rw [List.find?_isSome]
    exact ⟨_, List.mem_map_of_mem (List.mem_range.mpr hi), by simp [hcand, h0]⟩
  have hp := List.find?_some ha
  simp only [Bool.and_eq_true, Bool.not_eq_true', bne_iff_ne, ne_eq] at hp
  rw [firstFreeShortAddr, ha, Option.getD_some]
  exact ⟨hp.2, fun j hj => addrInUse_false hp.1 hj⟩

/-- Without one it falls through to 0. -/
lemma firstFreeShortAddr_zero {euid : Nat} (h : ¬ HasFreeAddr cfg t euid) :
    firstFreeShortAddr cfg t euid = 0 := by
  rw [firstFreeShortAddr]
  cases e : ((List.range cfg.maxnumNodes).map (shortAddrCandidate euid)).find? (fun a =>
      !addrInUse cfg t a && a != 0) with
  | none => rfl
  | some a =>
    exfalso
    apply h
    obtain ⟨i, hi, rfl⟩ := List.mem_map.mp (List.mem_of_find?_eq_some e)
    have hp := List.find?_some e
    simp only [Bool.and_eq_true, Bool.not_eq_true', bne_iff_ne, ne_eq] at hp
    exact ⟨i, List.mem_range.mp hi, hp.2, fun j hj => addrInUse_false hp.1 hj⟩

/-- The address found is not that of a free entry. -/
lemma firstFreeShortAddr_ne {euid i : Nat} (hi : i < cfg.maxnumNodes)
    (hfree : (t i).occupied = false) : firstFreeShortAddr cfg t euid ≠ 0xffff := by
  by_cases h : HasFreeAddr cfg t euid
  · rw [← NodeIdx.occupied_false.mp hfree]
    exact ((firstFreeShortAddr_free h).2 i hi).symm
  · rw [firstFreeShortAddr_zero h]
    decide

/-- A candidate has 16 bits. -/
lemma shortAddrCandidate_le (euid i : Nat) : shortAddrCandidate euid i ≤ 0xffff := by
  rw [shortAddrCandidate]
  split
  · omega
  · exact Nat.and_le_right

/-- The address found fits 16 bits. -/
lemma firstFreeShortAddr_le (euid : Nat) : firstFreeShortAddr cfg t euid ≤ 0xffff := by
  rw [firstFreeShortAddr]
  cases h : ((List.range cfg.maxnumNodes).map (shortAddrCandidate euid)).find? fun a =>
      !addrInUse cfg t a && a != 0 with
  | none => exact Nat.zero_le _
  | some a =>
    obtain ⟨i, -, rfl⟩ := List.mem_map.mp (List.mem_of_find?_eq_some h)
    exact shortAddrCandidate_le euid i

/-- An entry that keeps a slot from another node. -/
lemma slotTaken_of {nodeAddr role j : Nat} (hj : j < cfg.maxnumNodes)
    (hocc : (t j).occupied = true) (hrole : (t j).role = role) (haddr : (t j).addr ≠ nodeAddr)
    (hlive : slotLeaseExpired t tv j = false ∨ (t j).hasPermSlot = true) :
    slotTaken cfg t tv nodeAddr role (t j).slotId = true := by
  rw [slotTaken, List.any_eq_true]
  refine ⟨j, List.mem_range.mpr hj, ?_⟩
  have haddr := haddr.symm
  rcases hlive with h | h <;> simp [hocc, hrole, haddr, h]

/-- A taken slot is the slot of some entry. -/
lemma slotTaken_slot {nodeAddr role slotId : Nat}
    (h : slotTaken cfg t tv nodeAddr role slotId = true) :
    ∃ j < cfg.maxnumNodes, (t j).slotId = slotId := by
  rw [slotTaken, List.any_eq_true] at h
  obtain ⟨j, hj, h⟩ := h
  simp only [Bool.and_eq_true, beq_iff_eq] at h
  exact ⟨j, List.mem_range.mp hj, h.1.1.2.symm⟩

/-- The slot that is found is free, or all are taken. -/
lemma firstFreeSlotIdFrom_cases (cfg : Syscfg) (t : Table NodeIdx) (tv : Timeval) (nodeAddr role n slotId : Nat) :
    slotTaken cfg t tv nodeAddr role (firstFreeSlotIdFrom cfg t tv nodeAddr role n slotId) = false ∨
      ∀ s, slotId ≤ s → s < slotId + n → slotTaken cfg t tv nodeAddr role s = true := by
  induction n generalizing slotId with
  | zero => right; intro s h1 h2; omega
  | succ n ih =>
    rw [firstFreeSlotIdFrom]
    split
    case isTrue h =>
      rcases ih (slotId + 1) with hf | hall
      · exact .inl hf
      · right
        intro s h1 h2
        rcases Nat.eq_or_lt_of_le h1 with rfl | h1
        · exact h
        · exact hall s h1 (by omega)
    case isFalse h => exact .inl (by simpa using h)

/-- Fewer entries than slots: the search ends at a slot nobody holds (C `first_free_slot_id`). -/
lemma firstFreeSlotId_free (hN : cfg.maxnumNodes < 0xffff) (nodeAddr role : Nat) :
    slotTaken cfg t tv nodeAddr role (firstFreeSlotId cfg t tv nodeAddr role) = false := by
  rcases firstFreeSlotIdFrom_cases cfg t tv nodeAddr role 0xffff 0
    with h | hall
  · exact h
  · -- every slot would be the slot of one of fewer entries
    have hsub : Finset.range 0xffff ⊆ (Finset.range cfg.maxnumNodes).image fun j => (t j).slotId := by
      intro s hs
      obtain ⟨j, hj, e⟩ := slotTaken_slot (hall s (Nat.zero_le _) (by simpa using hs))
      exact Finset.mem_image.mpr ⟨j, Finset.mem_range.mpr hj, e⟩
    have hcard := (Finset.card_le_card hsub).trans Finset.card_image_le
    rw [Finset.card_range, Finset.card_range] at hcard
    omega

/-- A slot that an entry keeps from a node is not the one the search gives that node. -/
lemma firstFreeSlotId_ne (hN : cfg.maxnumNodes < 0xffff) {nodeAddr role j : Nat}
    (hj : j < cfg.maxnumNodes) (hocc : (t j).occupied = true) (hrole : (t j).role = role)
    (haddr : (t j).addr ≠ nodeAddr)
    (hlive : slotLeaseExpired t tv j = false ∨ (t j).hasPermSlot = true) :
    (t j).slotId ≠ firstFreeSlotId cfg t tv nodeAddr role := by
  intro e
  have h := slotTaken_of hj hocc hrole haddr hlive
  rw [e, firstFreeSlotId_free hN] at h
  cases h

/-- What is found has the EUID. -/
lemma findByEuid_some {euid i : Nat} (h : findByEuid cfg t euid = some i) :
    i < cfg.maxnumNodes ∧ (t i).occupied = true ∧ (t i).euid = euid := by
  obtain ⟨hi, hp, _⟩ := firstIdx_some h
  simp only [Bool.and_eq_true, beq_iff_eq] at hp
  exact ⟨hi, hp.1, hp.2.symm⟩

/-- No entry has the EUID. -/
lemma findByEuid_none {euid j : Nat} (h : findByEuid cfg t euid = none) (hj : j < cfg.maxnumNodes)
    (hocc : (t j).occupied = true) : (t j).euid ≠ euid := by
  have := firstIdx_none.mp h j hj
  simp only [hocc, Bool.true_and, beq_eq_false_iff_ne] at this
  exact this.symm

/-- The occupied entry with an euid is found when there is only one. -/
lemma findByEuid_eq {euid i : Nat} (hi : i < cfg.maxnumNodes) (hocc : (t i).occupied = true)
    (he : (t i).euid = euid)
    (huniq : ∀ j < cfg.maxnumNodes, (t j).occupied = true → (t j).euid = euid → j = i) :
    findByEuid cfg t euid = some i := by
  obtain ⟨k, hk⟩ := firstIdx_isSome (p := fun i => (t i).occupied && euid == (t i).euid) hi
    (by simp [hocc, he])
  obtain ⟨hk1, hk2, hk3⟩ := findByEuid_some hk
  rw [← huniq k hk1 hk2 hk3]
  exact hk

/-- What is found is the first that is free. -/
lemma findFreeIdx_some {i : Nat} (h : findFreeIdx cfg t = some i) :
    i < cfg.maxnumNodes ∧ (t i).occupied = false ∧ ∀ j < i, (t j).occupied = true := by
  obtain ⟨hi, hp, hlt⟩ := firstIdx_some h
  exact ⟨hi, by simpa using hp, fun j hj => by simpa using hlt j hj⟩

/-- What is found is the first that is empty. -/
lemma emptySaveEntry_some {s : State σ} {k : Nat} (h : emptySaveEntry cfg s = some k) :
    k < cfg.nodesToSave ∧ (s.nodesToSave k).euid = 0 ∧ ∀ j < k, (s.nodesToSave j).euid ≠ 0 := by
  obtain ⟨hk, hp, hlt⟩ := firstIdx_some h
  exact ⟨hk, by simpa using hp, fun j hj => by simpa using hlt j hj⟩

/-! ## The request as a whole -/

/-- The state with save entry `k` and index entry `i` replaced. -/
def State.put (s : State σ) (k : Nat) (n : Node) (i : Nat) (e : NodeIdx) : State σ :=
  { s with
    nodesToSave := s.nodesToSave.modify k fun _ => n
    nodeIdx := s.nodeIdx.modify i fun _ => e }

@[simp] lemma State.put_store (s : State σ) (k n i e) : (s.put k n i e).store = s.store := rfl

/-- One entry is written. -/
lemma State.put_nodeIdx (s : State σ) (k n i e j) :
    (s.put k n i e).nodeIdx j = if j = i then e else s.nodeIdx j := rfl

/-- The entry that is written. -/
lemma State.put_nodeIdx_self (s : State σ) (k n i e) : (s.put k n i e).nodeIdx i = e := if_pos rfl

/-- The others. -/
lemma State.put_nodeIdx_of_ne (s : State σ) (k n i e) {j : Nat} (h : j ≠ i) :
    (s.put k n i e).nodeIdx j = s.nodeIdx j := if_neg h

/-- One entry waits to be saved. -/
lemma State.put_nodesToSave (s : State σ) (k n i e j) :
    (s.put k n i e).nodesToSave j = if j = k then n else s.nodesToSave j := rfl

@[simp] lemma State.reserve_nodeIdx (s : State σ) (k euid) :
    (s.reserve k euid).nodeIdx = s.nodeIdx := rfl
/-- One entry is reserved. -/
lemma State.reserve_nodesToSave (s : State σ) (k euid j) :
    (s.reserve k euid).nodesToSave j =
      if j = k then { s.nodesToSave k with euid := euid } else s.nodesToSave j := rfl
@[simp] lemma State.reserve_store (s : State σ) (k euid) : (s.reserve k euid).store = s.store := rfl

/-- The index entry of a known node once its request is served. -/
def knownIdx (cfg : Syscfg) (t : Table NodeIdx) (tv : Timeval) (i : Nat) (request : PanRequest)
    (buf : ResponseBuf) : NodeIdx :=
  { t i with
    slotId := knownSlotId cfg t tv i request.role
    saveNeeded := (t i).saveNeeded || roleChanges (t i).role request.role
    leaseEnds := leaseEndsOf cfg tv request buf }

/-- The save entry of a known node; `n` is what the entry held before. -/
def knownNode (cfg : Syscfg) (t : Table NodeIdx) (tv : Timeval) (i : Nat) (request : PanRequest)
    (n : Node) : Node :=
  { n with
    index := i, addr := (t i).addr, euid := (t i).euid
    role := grantedRole (t i).role request.role, hasPermSlot := (t i).hasPermSlot
    slotId := knownSlotId cfg t tv i request.role, fwVer := request.fwVer }

/-- The slot an unknown node is given at entry `i`. -/
def newSlotId (cfg : Syscfg) (t : Table NodeIdx) (tv : Timeval) (i euid role : Nat) : Nat :=
  firstFreeSlotId cfg (claimIdx cfg t i euid role) tv (firstFreeShortAddr cfg t euid) role

/-- The index entry of an unknown node once its request is served. -/
def newIdx (cfg : Syscfg) (t : Table NodeIdx) (tv : Timeval) (i euid : Nat) (request : PanRequest)
    (buf : ResponseBuf) : NodeIdx :=
  { t i with
    addr := firstFreeShortAddr cfg t euid, euid := euid, role := request.role % 2 ^ 8
    slotId := newSlotId cfg t tv i euid request.role, saveNeeded := true
    leaseEnds := leaseEndsOf cfg tv request buf }

/-- The save entry of an unknown node. -/
def newNode (cfg : Syscfg) (t : Table NodeIdx) (tv : Timeval) (utc : Int) (i euid : Nat)
    (request : PanRequest) : Node :=
  { Node.default with
    euid := euid, addr := firstFreeShortAddr cfg t euid, role := request.role % 2 ^ 4
    slotId := newSlotId cfg t tv i euid request.role, firstSeenUtc := utc, index := i
    fwVer := request.fwVer }

/-- The response that announces a filled save entry. -/
def responseOf (cfg : Syscfg) (panId : Nat) (n : Node) (request : PanRequest) (buf : ResponseBuf) :
    PanResponse :=
  { role := n.role, leaseTime := responseLease cfg request buf, panId := panId
    shortAddress := n.addr, slotId := n.slotId }

/-- What `panrequest_cb` can do. -/
inductive Served (cfg : Syscfg) (busy : Bool) (tv : Timeval) (utc : Int) (euid : Nat)
    (request : PanRequest) (buf : ResponseBuf) (s : State σ) : Option PanResponse × State σ → Prop
  | noEntry :
    busy = true ∨ emptySaveEntry cfg s = none →
    Served cfg busy tv utc euid request buf s (none, s)
  | full {k} :
    busy = false →
    emptySaveEntry cfg s = some k →
    findByEuid cfg s.nodeIdx euid = none →
    findFreeIdx cfg s.nodeIdx = none →
    Served cfg busy tv utc euid request buf s (none, s.reserve k euid)
  | known {k i} :
    busy = false →
    emptySaveEntry cfg s = some k →
    findByEuid cfg s.nodeIdx euid = some i →
    Served cfg busy tv utc euid request buf s
      (some (responseOf cfg s.panId
          (knownNode cfg s.nodeIdx tv i request (s.nodesToSave k)) request buf),
        s.put k (knownNode cfg s.nodeIdx tv i request (s.nodesToSave k)) i
          (knownIdx cfg s.nodeIdx tv i request buf))
  | fresh {k i} :
    busy = false →
    emptySaveEntry cfg s = some k →
    findByEuid cfg s.nodeIdx euid = none →
    findFreeIdx cfg s.nodeIdx = some i →
    Served cfg busy tv utc euid request buf s
      (some (responseOf cfg s.panId (newNode cfg s.nodeIdx tv utc i euid request) request buf),
        s.put k (newNode cfg s.nodeIdx tv utc i euid request) i
          (newIdx cfg s.nodeIdx tv i euid request buf))

/-- A node that is known, filled and finished. -/
lemma fillKnown_finish {s : State σ} {i k euid : Nat} {request : PanRequest} {buf : ResponseBuf}
    (hi : i < 2 ^ 8) :
    panrequestFinish cfg tv request buf k (fillKnown cfg tv i k request.role (s.reserve k euid)) =
      (responseOf cfg s.panId (knownNode cfg s.nodeIdx tv i request (s.nodesToSave k)) request buf,
        s.put k (knownNode cfg s.nodeIdx tv i request (s.nodesToSave k)) i
          (knownIdx cfg s.nodeIdx tv i request buf)) := by
  have hmod : i % 2 ^ 8 = i := Nat.mod_eq_of_lt hi
  simp only [panrequestFinish, fillKnown, State.reserve, hmod, Table.modify_modify,
    Table.modify_self, State.put, responseOf, knownNode, knownIdx, Prod.mk.injEq,
    State.mk.injEq, and_true]
  -- a permanent slot is read back from the entry, any other is written to it
  rcases Bool.eq_false_or_eq_true (s.nodeIdx i).hasPermSlot with hp | hp
  · have hslot : knownSlotId cfg s.nodeIdx tv i request.role = (s.nodeIdx i).slotId := by
      rw [knownSlotId, if_pos hp, hmod]
    exact ⟨by simp [hp, hslot], Table.modify_congr (by simp [hp, hslot])⟩
  · exact ⟨by simp [hp], Table.modify_congr (by simp [hp])⟩

/-- A node that is new, filled and finished. -/
lemma fillNew_finish {s : State σ} {i k euid : Nat} {utc : Int} {request : PanRequest}
    {buf : ResponseBuf} (hi : i < 2 ^ 8) :
    panrequestFinish cfg tv request buf k
        (fillNew cfg tv utc i k euid request.role (s.reserve k euid)) =
      (responseOf cfg s.panId (newNode cfg s.nodeIdx tv utc i euid request) request buf,
        s.put k (newNode cfg s.nodeIdx tv utc i euid request) i
          (newIdx cfg s.nodeIdx tv i euid request buf)) := by
  have hmod : i % 2 ^ 8 = i := Nat.mod_eq_of_lt hi
  simp only [panrequestFinish, fillNew, State.reserve, hmod, claimIdx, Table.modify_modify,
    Table.modify_self, State.put, responseOf, newNode, newIdx, newSlotId, Prod.mk.injEq,
    State.mk.injEq, true_and, and_true]
  exact Table.modify_congr rfl

/-- The inversion of a request (C `panrequest_cb`). -/
theorem panrequestCb_served (hN : cfg.maxnumNodes ≤ 2 ^ 8) (busy : Bool) (tv : Timeval) (utc : Int) (euid : Nat)
    (request : PanRequest) (buf : ResponseBuf) (s : State σ) :
    Served cfg busy tv utc euid request buf s
      (panrequestCb cfg busy tv utc euid request buf s) := by
  rw [panrequestCb, panmasterIdxFindNode, findFirstEmptyNodesToSave]
  cases busy with
  | true => exact .noEntry (.inl rfl)
  | false =>
    cases hk : emptySaveEntry cfg s with
    | none => exact .noEntry (.inr hk)
    | some k =>
      simp only [Bool.false_eq_true, if_false, fillNode, State.reserve_nodeIdx]
      cases hf : findByEuid cfg s.nodeIdx euid with
      | some i =>
        have hi := (findByEuid_some hf).1
        simp only [fillKnown_finish (lt_of_lt_of_le hi hN)]
        exact .known rfl hk hf
      | none =>
        cases hfree : findFreeIdx cfg s.nodeIdx with
        | none => exact .full rfl hk hf hfree
        | some i =>
          have hi := (findFreeIdx_some hfree).1
          simp only [fillNew_finish (lt_of_lt_of_le hi hN)]
          exact .fresh rfl hk hf hfree

section
variable {s : State σ} {request : PanRequest} {buf : ResponseBuf} {utc : Int} {euid k i : Nat}

/-- A known node keeps its entry. -/
lemma findByEuid_known (hf : findByEuid cfg s.nodeIdx euid = some i) :
    findByEuid cfg (s.put k (knownNode cfg s.nodeIdx tv i request (s.nodesToSave k)) i
      (knownIdx cfg s.nodeIdx tv i request buf)).nodeIdx euid = some i := by
  rw [← hf]
  unfold findByEuid
  congr 1
  funext j
  rw [State.put_nodeIdx]
  split
  case isTrue hj =>
    subst hj
    rfl
  case isFalse => rfl

/-- An unknown node is found in the entry it was given. -/
lemma findByEuid_fresh (hf : findByEuid cfg s.nodeIdx euid = none)
    (hfree : findFreeIdx cfg s.nodeIdx = some i) :
    findByEuid cfg (s.put k (newNode cfg s.nodeIdx tv utc i euid request) i
      (newIdx cfg s.nodeIdx tv i euid request buf)).nodeIdx euid = some i := by
  obtain ⟨hi, hoff, -⟩ := findFreeIdx_some hfree
  refine findByEuid_eq hi ?_ ?_ fun j hj hocc he => ?_
  · rw [State.put_nodeIdx_self, NodeIdx.occupied_iff]
    exact firstFreeShortAddr_ne hi hoff
  · rw [State.put_nodeIdx_self]
    rfl
  · by_contra hne
    rw [State.put_nodeIdx_of_ne _ _ _ _ _ hne] at hocc he
    exact findByEuid_none hf hj hocc he

end

end UwbCore.Panmaster
