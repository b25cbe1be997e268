import UwbCore.Lib.Run
import UwbCore.Panmaster.Served
import UwbCore.Panmaster.Fcb

/-!
# Slots of the PAN master

Requests, runs of `panmaster_postprocess` and the passing of time, with a record of what the last
response granted at each index entry. `first_free_slot_id` sees a slot as taken when an entry of
the same role still holds it; two nodes of one role share a slot only when the search looked under
another role than the granted one, or past an entry that still holds its slot
(`slotUnique_of_guarded`).
-/

namespace UwbCore.Panmaster
open UwbCore.Lib

/-- What a response grants: a role, and a slot until a time in microseconds. -/
structure Grant where
  role : Nat
  ends : Nat
  deriving DecidableEq, Repr

/-- The PAN master with its clock and the last grant of each index entry. -/
structure SlotWorld (σ : Type) where
  st : State σ
  /-- uptime in microseconds -/
  now : Nat
  grant : Table (Option Grant)

inductive SlotEvent where
  | request (busy : Bool) (utc : Int) (euid : Nat) (request : PanRequest) (buf : ResponseBuf)
  | postprocess
  | advance (us : Nat)
  deriving DecidableEq, Repr

variable {σ : Type} {cfg : Syscfg}

/-- The default table, before any response. -/
def SlotWorld.init (store : σ) (panId now : Nat) : SlotWorld σ :=
  ⟨.init store panId, now, fun _ => none⟩

/-- The reading of the clock. -/
def SlotWorld.tv (w : SlotWorld σ) : Timeval := .ofUsecs w.now

/-- The entry an accepted request of `euid` is served at. -/
def servedIdx (cfg : Syscfg) (t : Table NodeIdx) (euid : Nat) : Option Nat :=
  (findByEuid cfg t euid).or (findFreeIdx cfg t)

/-- The grant a response sent at `now` makes. -/
def grantOf (now : Nat) (response : PanResponse) : Grant :=
  ⟨response.role, now + response.leaseTime * 1000000⟩

/-- The grants after a request: a response replaces the one of the entry served. -/
def grantAfter (cfg : Syscfg) (w : SlotWorld σ) (euid : Nat) (response : Option PanResponse) :
    Table (Option Grant) :=
  match response, servedIdx cfg w.st.nodeIdx euid with
  | some response, some i => w.grant.modify i fun _ => some (grantOf w.now response)
  | _, _ => w.grant

/-- The world after a request that ended in `r`. -/
def SlotWorld.answered (cfg : Syscfg) (w : SlotWorld σ) (euid : Nat)
    (r : Option PanResponse × State σ) : SlotWorld σ :=
  { w with st := r.2, grant := grantAfter cfg w euid r.1 }

def slotStep (cfg : Syscfg) (ns : NodeStore σ) (w : SlotWorld σ) : SlotEvent → SlotWorld σ
  | .request busy utc euid request buf =>
    w.answered cfg euid (panrequestCb cfg busy w.tv utc euid request buf w.st)
  | .postprocess => { w with st := panmasterPostprocess cfg ns w.st }
  | .advance us => { w with now := w.now + us }

/-- Entry `i` was last granted `role` and still holds its slot. -/
def SlotWorld.Holds (w : SlotWorld σ) (i role : Nat) : Prop :=
  ∃ g ∈ w.grant i, g.role = role ∧ (w.now < g.ends ∨ (w.st.nodeIdx i).hasPermSlot = true)

instance (w : SlotWorld σ) (i role : Nat) : Decidable (w.Holds i role) :=
  inferInstanceAs (Decidable (∃ g ∈ w.grant i, _))

/-- No two nodes hold one slot under one role. -/
def SlotUnique (cfg : Syscfg) (w : SlotWorld σ) : Prop :=
  ∀ i < cfg.maxnumNodes, ∀ j < cfg.maxnumNodes, i ≠ j →
    (w.st.nodeIdx i).occupied = true → (w.st.nodeIdx j).occupied = true →
    ∀ role, w.Holds i role → w.Holds j role →
      (w.st.nodeIdx i).slotId ≠ (w.st.nodeIdx j).slotId

/-! ## When the search sees what it must -/

/-- The role of the request is the one that will be granted: it fits the four bits of a record,
    and a known node gives a role unless its stored role is 0. -/
def RoleGiven (cfg : Syscfg) (t : Table NodeIdx) (euid role : Nat) : Prop :=
  role < 2 ^ 4 ∧ ∀ i ∈ findByEuid cfg t euid, 0 < role ∨ (t i).role % 2 ^ 4 = 0

/-- Entry `j` has another address than the one the node of `euid` has or will be given. -/
def AddrApart (cfg : Syscfg) (t : Table NodeIdx) (euid j : Nat) : Prop :=
  match findByEuid cfg t euid with
  | some i => (t j).addr ≠ (t i).addr
  | none => HasFreeAddr cfg t euid ∨ (t j).addr ≠ 0

/-- The search for a slot for entry `i` does not pass over entry `j`. -/
def Seen (cfg : Syscfg) (w : SlotWorld σ) (euid role j : Nat) : Prop :=
  (w.st.nodeIdx j).role = role ∧
    (slotLeaseExpired w.st.nodeIdx w.tv j = false ∨ (w.st.nodeIdx j).hasPermSlot = true) ∧
    AddrApart cfg w.st.nodeIdx euid j

/-- A request that is accepted: the mutex is free, and so are a save entry and a place in the table. -/
def Accepted (cfg : Syscfg) (s : State σ) (busy : Bool) (euid : Nat) : Prop :=
  busy = false ∧ emptySaveEntry cfg s ≠ none ∧ servedIdx cfg s.nodeIdx euid ≠ none

/-- A request that is accepted gives its role, and the search sees every other node that holds a slot
    under it. -/
def SlotGuard (cfg : Syscfg) (w : SlotWorld σ) : SlotEvent → Prop
  | .request busy _ euid request _ =>
    Accepted cfg w.st busy euid →
      RoleGiven cfg w.st.nodeIdx euid request.role ∧
      ∀ j < cfg.maxnumNodes, servedIdx cfg w.st.nodeIdx euid ≠ some j →
        (w.st.nodeIdx j).occupied = true → w.Holds j request.role →
        Seen cfg w euid request.role j
  | _ => True

instance (t : Table NodeIdx) (euid role : Nat) : Decidable (RoleGiven cfg t euid role) :=
  inferInstanceAs (Decidable (_ ∧ _))

instance (t : Table NodeIdx) (euid j : Nat) : Decidable (AddrApart cfg t euid j) :=
  match h : findByEuid cfg t euid with
  | some i => decidable_of_iff ((t j).addr ≠ (t i).addr) (by simp [AddrApart, h])
  | none => decidable_of_iff (HasFreeAddr cfg t euid ∨ (t j).addr ≠ 0) (by simp [AddrApart, h])

instance (w : SlotWorld σ) (euid role j : Nat) : Decidable (Seen cfg w euid role j) :=
  inferInstanceAs (Decidable (_ ∧ _))

instance (s : State σ) (busy : Bool) (euid : Nat) : Decidable (Accepted cfg s busy euid) :=
  inferInstanceAs (Decidable (_ ∧ _ ≠ none ∧ _ ≠ none))

instance (w : SlotWorld σ) : (e : SlotEvent) → Decidable (SlotGuard cfg w e)
  | .request .. => inferInstanceAs (Decidable (_ → _ ∧ _))
  | .postprocess => isTrue trivial
  | .advance _ => isTrue trivial

/-! ## The invariant -/

/-- Nothing on these paths makes a slot permanent. -/
structure NoPerm (s : State σ) : Prop where
  idx : ∀ i, (s.nodeIdx i).hasPermSlot = false
  save : ∀ k, (s.nodesToSave k).hasPermSlot = false

/-- The empty table. -/
lemma NoPerm.init (store : σ) (panId : Nat) : NoPerm (State.init store panId) :=
  ⟨fun _ => rfl, fun _ => rfl⟩

/-- An entry that is written. -/
lemma NoPerm.put {s : State σ} (h : NoPerm s) {k i : Nat} {n : Node} {e : NodeIdx}
    (hn : n.hasPermSlot = false) (he : e.hasPermSlot = false) : NoPerm (s.put k n i e) := by
  refine ⟨fun j => ?_, fun j => ?_⟩
  · rw [State.put_nodeIdx]
    split
    · exact he
    · exact h.idx j
  · rw [State.put_nodesToSave]
    split
    · exact hn
    · exact h.save j

/-- An entry that is reserved. -/
lemma NoPerm.reserve {s : State σ} (h : NoPerm s) (k euid : Nat) : NoPerm (s.reserve k euid) := by
  refine ⟨h.idx, fun j => ?_⟩
  rw [State.reserve_nodesToSave]
  split
  · exact h.save k
  · exact h.save j

/-- An entry that is cleared. -/
lemma NoPerm.clearSave {s : State σ} (h : NoPerm s) (i : Nat) : NoPerm (s.clearSave i) := by
  refine ⟨h.idx, fun j => ?_⟩
  rw [State.clearSave_nodesToSave]
  split
  · rfl
  · exact h.save j

/-- A node that is saved. -/
lemma NoPerm.saveNode {s : State σ} (h : NoPerm s) (ns : NodeStore σ) {n : Node}
    (hn : n.hasPermSlot = false) : NoPerm (panmasterSaveNode ns n s) := by
  refine ⟨fun j => ?_, h.save⟩
  rw [panmasterSaveNode_nodeIdx]
  split
  · exact hn
  · exact h.idx j

/-- A run. -/
lemma NoPerm.postprocess {s : State σ} (h : NoPerm s) (cfg : Syscfg) (ns : NodeStore σ) :
    NoPerm (panmasterPostprocess cfg ns s) := by
  refine panmasterPostprocess_induction h fun s i _ h => ?_
  rcases postprocessEntry_cases ns s i with ⟨-, e⟩ | ⟨-, e⟩ | ⟨-, e⟩
  · rw [e]
    exact h
  · rw [e]
    exact h.clearSave i
  · rw [e]
    exact (h.saveNode ns (h.save i)).clearSave i

/-- A request that is served. -/
lemma NoPerm.served {s : State σ} (h : NoPerm s) {busy tv utc euid request buf r}
    (sv : Served cfg busy tv utc euid request buf s r) : NoPerm r.2 := by
  cases sv with
  | noEntry => exact h
  | full => exact h.reserve _ _
  | known => exact h.put (h.idx _) (h.idx _)
  | fresh => exact h.put rfl (h.idx _)

/-- Serving an entry keeps slots unique when nobody else holds its new slot under the role that
    is granted. -/
lemma SlotUnique.put {w : SlotWorld σ} (h : SlotUnique cfg w) {k i euid : Nat} {n : Node}
    {e : NodeIdx} {response : PanResponse} (hi : servedIdx cfg w.st.nodeIdx euid = some i)
    (hnew : ∀ j < cfg.maxnumNodes, j ≠ i → (w.st.nodeIdx j).occupied = true →
      w.Holds j response.role → (w.st.nodeIdx j).slotId ≠ e.slotId) :
    SlotUnique cfg (w.answered cfg euid (some response, w.st.put k n i e)) := by
  have hgrant : (w.answered cfg euid (some response, w.st.put k n i e)).grant =
      w.grant.modify i fun _ => some (grantOf w.now response) := by
    simp only [SlotWorld.answered, grantAfter, hi]
  have hback : ∀ j ≠ i, ∀ role,
      (w.answered cfg euid (some response, w.st.put k n i e)).Holds j role → w.Holds j role := by
    rintro j hj role ⟨g, hg, hr, ht⟩
    rw [hgrant, Table.modify_of_ne _ _ hj] at hg
    simp only [SlotWorld.answered, State.put_nodeIdx_of_ne _ _ _ _ _ hj] at ht
    exact ⟨g, hg, hr, ht⟩
  have hrole : ∀ role, (w.answered cfg euid (some response, w.st.put k n i e)).Holds i role →
      role = response.role := by
    rintro role ⟨g, hg, hr, -⟩
    rw [hgrant, Table.modify_self] at hg
    cases hg
    exact hr.symm
  intro a ha b hb hab oa ob role ga gb
  simp only [SlotWorld.answered] at oa ob ⊢
  by_cases hai : a = i
  · subst hai
    have hba : b ≠ a := fun e => hab e.symm
    rw [State.put_nodeIdx_of_ne _ _ _ _ _ hba] at ob ⊢
    rw [State.put_nodeIdx_self]
    exact (hnew b hb hba ob (hrole role ga ▸ hback b hba role gb)).symm
  · rw [State.put_nodeIdx_of_ne _ _ _ _ _ hai] at oa ⊢
    by_cases hbi : b = i
    · subst hbi
      rw [State.put_nodeIdx_self]
      exact hnew a ha hai oa (hrole role gb ▸ hback a hai role ga)
    · rw [State.put_nodeIdx_of_ne _ _ _ _ _ hbi] at ob ⊢
      exact h a ha b hb hab oa ob role (hback a hai role ga) (hback b hbi role gb)

/-- A role that was given is the role granted. -/
lemma grantedRole_eq {stored role : Nat} (h : role < 2 ^ 4) (h' : 0 < role ∨ stored % 2 ^ 4 = 0) :
    grantedRole stored role = role := by
  have hmod : role % 2 ^ 4 = role := Nat.mod_eq_of_lt h
  rw [grantedRole]
  by_cases e : roleChanges stored role = true
  · rw [if_pos e, hmod]
  · rw [if_neg e]
    simp only [roleChanges, Bool.and_eq_true, bne_iff_ne, ne_eq, decide_eq_true_eq, not_and] at e
    rcases h' with h' | h'
    · by_contra hne
      exact e hne h'
    · by_contra hne
      have := e hne
      omega

/-- What the run keeps: no permanent slot, and no slot shared under a role. -/
structure SlotInv (cfg : Syscfg) (w : SlotWorld σ) : Prop where
  noPerm : NoPerm w.st
  unique : SlotUnique cfg w

/-- The empty table. -/
lemma SlotInv.init (store : σ) (panId now : Nat) :
    SlotInv cfg (SlotWorld.init store panId now) := by
  refine ⟨.init store panId, ?_⟩
  intro i _ j _ _ oi
  cases oi

/-- A request. -/
lemma SlotInv.request {w : SlotWorld σ} (ns : NodeStore σ) (hN : cfg.maxnumNodes ≤ 255)
    (h : SlotInv cfg w) {busy utc euid request buf}
    (g : SlotGuard cfg w (.request busy utc euid request buf)) :
    SlotInv cfg (slotStep cfg ns w (.request busy utc euid request buf)) := by
  have hN' : cfg.maxnumNodes < 0xffff := by omega
  have sv := panrequestCb_served (by omega : cfg.maxnumNodes ≤ 2 ^ 8) busy w.tv utc euid
    request buf w.st
  rw [slotStep]
  generalize panrequestCb cfg busy w.tv utc euid request buf w.st = r at sv ⊢
  refine ⟨h.noPerm.served sv, ?_⟩
  cases sv with
  | noEntry => exact h.unique
  | full => exact h.unique
  | @known k i hbusy hk hf =>
    have hserved : servedIdx cfg w.st.nodeIdx euid = some i := by rw [servedIdx, hf]; rfl
    obtain ⟨⟨hrole, hgiven⟩, hseen⟩ := g ⟨hbusy, by simp [hk], by simp [hserved]⟩
    have hgr : grantedRole (w.st.nodeIdx i).role request.role = request.role :=
      grantedRole_eq hrole (hgiven i hf)
    refine h.unique.put hserved fun j hj hji oj hold => ?_
    simp only [responseOf, knownNode, hgr] at hold
    obtain ⟨hjr, hlive, hapart⟩ := hseen j hj (by rw [hserved]; simpa using hji.symm) oj hold
    rw [AddrApart, hf] at hapart
    -- no permanent slot: the node's slot is searched for
    have hslot : (knownIdx cfg w.st.nodeIdx w.tv i request buf).slotId =
        firstFreeSlotId cfg w.st.nodeIdx w.tv (w.st.nodeIdx i).addr request.role := by
      simp [knownIdx, knownSlotId, h.noPerm.idx i]
    rw [hslot]
    exact firstFreeSlotId_ne hN' hj oj hjr hapart hlive
  | @fresh k i hbusy hk hf hfree =>
    have hserved : servedIdx cfg w.st.nodeIdx euid = some i := by rw [servedIdx, hf, hfree]; rfl
    obtain ⟨⟨hrole, hgiven⟩, hseen⟩ := g ⟨hbusy, by simp [hk], by simp [hserved]⟩
    have hmod : request.role % 2 ^ 4 = request.role := Nat.mod_eq_of_lt hrole
    refine h.unique.put hserved fun j hj hji oj hold => ?_
    simp only [responseOf, newNode, hmod] at hold
    obtain ⟨hjr, hlive, hapart⟩ := hseen j hj (by rw [hserved]; simpa using hji.symm) oj hold
    rw [AddrApart, hf] at hapart
    have hne : (w.st.nodeIdx j).addr ≠ firstFreeShortAddr cfg w.st.nodeIdx euid := by
      by_cases hex : HasFreeAddr cfg w.st.nodeIdx euid
      · exact (firstFreeShortAddr_free hex).2 j hj
      · rw [firstFreeShortAddr_zero hex]
        exact hapart.resolve_left hex
    -- the search already sees the new node's own entry; entry `j` is another one
    have hclaim : claimIdx cfg w.st.nodeIdx i euid request.role j = w.st.nodeIdx j :=
      Table.modify_of_ne _ _ hji
    have hlive' : slotLeaseExpired (claimIdx cfg w.st.nodeIdx i euid request.role) w.tv j =
        slotLeaseExpired w.st.nodeIdx w.tv j := by
      rw [slotLeaseExpired, slotLeaseExpired, hclaim]
    rw [← hclaim] at oj hjr hne ⊢
    rw [← hlive', ← hclaim] at hlive
    exact firstFreeSlotId_ne hN' hj oj hjr hne hlive

/-- One step. -/
lemma SlotInv.step {w : SlotWorld σ} (ns : NodeStore σ) (hN : cfg.maxnumNodes ≤ 255)
    (h : SlotInv cfg w) {e : SlotEvent} (g : SlotGuard cfg w e) :
    SlotInv cfg (slotStep cfg ns w e) := by
  cases e with
  | request busy utc euid request buf => exact h.request ns hN g
  | postprocess =>
    have np := h.noPerm.postprocess cfg ns
    refine ⟨np, ?_⟩
    have hslot := panmasterPostprocess_keeps cfg ns NodeIdx.slotId
      (fun _ _ _ => rfl) w.st
    have hocc := panmasterPostprocess_keeps cfg ns NodeIdx.occupied
      (fun _ _ _ => rfl) w.st
    have hperm : ∀ i role, (slotStep cfg ns w .postprocess).Holds i role → w.Holds i role := by
      rintro i role ⟨g, hg, hr, ht | hp⟩
      · exact ⟨g, hg, hr, .inl ht⟩
      · cases (np.idx i).symm.trans hp
    intro i hi j hj hij oi oj role gi gj
    simp only [slotStep] at oi oj ⊢
    rw [hocc] at oi oj
    rw [hslot, hslot]
    exact h.unique i hi j hj hij oi oj role (hperm i role gi) (hperm j role gj)
  | advance us =>
    refine ⟨h.noPerm, ?_⟩
    have hback : ∀ i role, (slotStep cfg ns w (.advance us)).Holds i role → w.Holds i role := by
      rintro i role ⟨g, hg, hr, ht | hp⟩
      · exact ⟨g, hg, hr, .inl (lt_of_le_of_lt (Nat.le_add_right _ _) ht)⟩
      · exact ⟨g, hg, hr, .inr hp⟩
    intro i hi j hj hij oi oj role gi gj
    exact h.unique i hi j hj hij oi oj role (hback i role gi) (hback j role gj)

/-! ## Slot uniqueness -/

/-- In a run whose accepted requests give their role and whose searches see every holder of a slot, no
    two nodes hold one slot under one role. -/
theorem slotUnique_of_guarded (hN : cfg.maxnumNodes ≤ 255)
    (ns : NodeStore σ) (store : σ) (panId now : Nat) {w : SlotWorld σ}
    (rch : Reach (slotStep cfg ns) (SlotGuard cfg) (.init store panId now) w) :
    SlotUnique cfg w :=
  (rch.invariant (P := SlotInv cfg) (.init store panId now) fun _ _ h g => h.step ns hN g).unique

/-- Two nodes of role 1, the first renewed after ten seconds. -/
def twoAnchors : List SlotEvent :=
  [.request false 0 0x101 ⟨1, 20, .zero⟩ .same, .request false 0 0x102 ⟨1, 20, .zero⟩ .same,
    .postprocess, .advance 10000000, .request false 10 0x101 ⟨1, 20, .zero⟩ .same]

/-- Two anchors. -/
theorem slotUnique_twoAnchors :
    SlotUnique .dflt
      (twoAnchors.foldl (slotStep .dflt (panmFcb .roomy .zero)) (.init .empty 0x1234 0)) := by
  have hall : Allowed (slotStep .dflt (panmFcb .roomy .zero)) (SlotGuard .dflt)
      (.init .empty 0x1234 0) twoAnchors := by
    decide +kernel
  exact slotUnique_of_guarded (by decide) (panmFcb .roomy .zero) .empty 0x1234 0
    (Reach.of_allowed hall)

/-- Two nodes of role 1, the second of which then asks without giving a role. -/
def rolelessRenewal : List SlotEvent :=
  [.request false 0 0x101 ⟨1, 20, .zero⟩ .same, .request false 0 0x102 ⟨1, 20, .zero⟩ .same,
    .request false 1 0x102 ⟨0, 20, .zero⟩ .same]

/-- The search under role 0 gives the second node the slot of the first. -/
theorem slotUnique_fails :
    ¬ ∀ w, Reach (slotStep .dflt (panmFcb .roomy .zero)) anyEvent (.init .empty 0x1234 0) w →
      SlotUnique .dflt w := by
  intro h
  have huniq := h _ (Reach.of_events rolelessRenewal)
  have hslot := huniq 0 (by decide) 1 (by decide) (by decide) (by decide +kernel)
    (by decide +kernel) 1 (by decide +kernel) (by decide +kernel)
  exact hslot (by decide +kernel)

end UwbCore.Panmaster
