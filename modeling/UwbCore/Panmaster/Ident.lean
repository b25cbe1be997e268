import UwbCore.Lib.Run
import UwbCore.Panmaster.Served
import UwbCore.Panmaster.Fcb

/-!
# Identities of the PAN master

Requests, runs of `panmaster_postprocess`, `panmaster_add_node` and `panmaster_delete_node`, with a
record of the address each euid was given. Occupied entries have distinct euids and distinct,
nonzero addresses, and a node keeps its address, as long as an address is found for every new node,
`panmaster_add_node` meets an entry that already carries the euid it does not write, and
`panmaster_delete_node` meets the entry of the euid it was called for (`identified_of_guarded`).
-/

namespace UwbCore.Panmaster
open UwbCore.Lib

/-- The PAN master with the address each euid was given and still has. -/
structure IdentWorld (σ : Type) where
  st : State σ
  given : Table (Option Nat)

inductive IdentEvent where
  | request (busy : Bool) (tv : Timeval) (utc : Int) (euid : Nat) (request : PanRequest)
      (buf : ResponseBuf)
  | postprocess
  | addNode (utc : Int) (shortAddr euid : Nat)
  | deleteNode (euid : Nat)
  deriving DecidableEq, Repr

variable {σ : Type} {cfg : Syscfg} {ns : NodeStore σ}

def IdentWorld.init (store : σ) (panId : Nat) : IdentWorld σ := ⟨.init store panId, fun _ => none⟩

/-- The address 0xffff is none. -/
def identStep (cfg : Syscfg) (ns : NodeStore σ) (w : IdentWorld σ) : IdentEvent → IdentWorld σ
  | .request busy tv utc euid request buf =>
    let r := panrequestCb cfg busy tv utc euid request buf w.st
    { st := r.2
      given := w.given.modify euid fun a => (r.1.map PanResponse.shortAddress).or a }
  | .postprocess => { w with st := panmasterPostprocess cfg ns w.st }
  | .addNode utc shortAddr euid =>
    { st := panmasterAddNode cfg ns utc shortAddr euid w.st
      given := w.given.modify euid fun a =>
        if addTakesEffect cfg ns w.st shortAddr euid && shortAddr != 0xffff then some shortAddr
        else a }
  | .deleteNode euid =>
    { st := panmasterDeleteNode cfg ns euid w.st
      given := w.given.modify euid fun a =>
        if (deletedIdx cfg ns w.st euid).isSome then none else a }

/-- Occupied entries differ in `p`. -/
def Distinct (cfg : Syscfg) (t : Table NodeIdx) (p : NodeIdx → Nat) : Prop :=
  ∀ i < cfg.maxnumNodes, ∀ j < cfg.maxnumNodes, i ≠ j →
    (t i).occupied = true → (t j).occupied = true → p (t i) ≠ p (t j)

/-- Identities are unique, and a node is answered with the address it was given. -/
structure Identified (cfg : Syscfg) (w : IdentWorld σ) : Prop where
  addr_ne : Distinct cfg w.st.nodeIdx NodeIdx.addr
  addr_pos : ∀ i < cfg.maxnumNodes, (w.st.nodeIdx i).occupied = true → (w.st.nodeIdx i).addr ≠ 0
  euid_ne : Distinct cfg w.st.nodeIdx NodeIdx.euid
  same_addr : ∀ busy tv utc euid request buf response,
    (panrequestCb cfg busy tv utc euid request buf w.st).1 = some response →
    ∀ a ∈ w.given euid, response.shortAddress = a

/-- Some occupied entry has this euid and address. -/
def Listed (cfg : Syscfg) (t : Table NodeIdx) (euid addr : Nat) : Prop :=
  ∃ i < cfg.maxnumNodes, (t i).occupied = true ∧ (t i).euid = euid ∧ (t i).addr = addr

/-- Entry `i` can take a node that `panmaster_add_node` puts there: its euid is the stale one of
    the entry, and neither euid nor address is in use. -/
def CanAdd (cfg : Syscfg) (t : Table NodeIdx) (i euid shortAddr : Nat) : Prop :=
  (t i).euid = euid ∧
    ∀ j < cfg.maxnumNodes, (t j).occupied = true → (t j).euid ≠ euid ∧ (t j).addr ≠ shortAddr

/-- Where identities are kept. -/
def IdentGuard (cfg : Syscfg) (ns : NodeStore σ) (w : IdentWorld σ) : IdentEvent → Prop
  | .request _ _ _ euid _ _ =>
    findByEuid cfg w.st.nodeIdx euid = none → HasFreeAddr cfg w.st.nodeIdx euid
  | .postprocess => True
  | .addNode _ shortAddr euid =>
    addTakesEffect cfg ns w.st shortAddr euid = true → shortAddr ≠ 0xffff →
      if (ns.findNode w.st.store (findEuid euid)).isSome then
        Listed cfg w.st.nodeIdx euid shortAddr
      else ∀ i ∈ findFreeIdx cfg w.st.nodeIdx, CanAdd cfg w.st.nodeIdx i euid shortAddr
  | .deleteNode euid => ∀ i ∈ deletedIdx cfg ns w.st euid, (w.st.nodeIdx i).euid = euid

instance (t : Table NodeIdx) (euid addr : Nat) : Decidable (Listed cfg t euid addr) :=
  inferInstanceAs (Decidable (∃ i < cfg.maxnumNodes, _))

instance (t : Table NodeIdx) (i euid addr : Nat) : Decidable (CanAdd cfg t i euid addr) :=
  inferInstanceAs (Decidable (_ ∧ _))

instance (w : IdentWorld σ) : (e : IdentEvent) → Decidable (IdentGuard cfg ns w e)
  | .request .. => inferInstanceAs (Decidable (_ → _))
  | .postprocess => isTrue trivial
  | .addNode .. => inferInstanceAs (Decidable (_ → _ → _))
  | .deleteNode _ => inferInstanceAs (Decidable (∀ i ∈ deletedIdx cfg ns w.st _, _))

/-! ## The invariant -/

/-- Two entries name the same node at the same address. -/
def NodeIdx.SameIdent (e e' : NodeIdx) : Prop := e.addr = e'.addr ∧ e.euid = e'.euid

/-- The same identity is as much occupied. -/
lemma NodeIdx.SameIdent.occupied {e e' : NodeIdx} (h : e.SameIdent e') :
    e.occupied = e'.occupied := by
  rw [NodeIdx.occupied, NodeIdx.occupied, h.1]

/-- Saving a record leaves identities alone. -/
lemma panmasterSaveNode_sameIdent (ns : NodeStore σ) (node : Node) (s : State σ) (j : Nat) :
    ((panmasterSaveNode ns node s).nodeIdx j).SameIdent (s.nodeIdx j) :=
  ⟨panmasterSaveNode_keeps NodeIdx.addr (fun _ _ _ => rfl) node s j,
    panmasterSaveNode_keeps NodeIdx.euid (fun _ _ _ => rfl) node s j⟩

/-- Identities are unique, and every address given is listed. -/
structure IdentInv (cfg : Syscfg) (t : Table NodeIdx) (given : Table (Option Nat)) : Prop where
  addr_ne : Distinct cfg t NodeIdx.addr
  addr_pos : ∀ i < cfg.maxnumNodes, (t i).occupied = true → (t i).addr ≠ 0
  euid_ne : Distinct cfg t NodeIdx.euid
  listed : ∀ euid, ∀ a ∈ given euid, Listed cfg t euid a

section
variable {t t' : Table NodeIdx} {given : Table (Option Nat)} {i : Nat}

/-- The empty table. -/
lemma Distinct.init (store : σ) (panId : Nat) (p : NodeIdx → Nat) :
    Distinct cfg (State.init store panId).nodeIdx p := by
  intro i _ j _ _ hi
  cases hi

/-- Entries may be freed. -/
lemma Distinct.restrict {p : NodeIdx → Nat} (h : Distinct cfg t p)
    (hs : ∀ j, (t' j).occupied = true → (t j).occupied = true ∧ p (t' j) = p (t j)) :
    Distinct cfg t' p := by
  intro a ha b hb hab oa ob
  rw [(hs a oa).2, (hs b ob).2]
  exact h a ha b hb hab (hs a oa).1 (hs b ob).1

/-- An entry may be filled with a value nobody has. -/
lemma Distinct.insert {p : NodeIdx → Nat} (h : Distinct cfg t p)
    (hs : ∀ j ≠ i, (t' j).occupied = (t j).occupied ∧ p (t' j) = p (t j))
    (hnew : ∀ j < cfg.maxnumNodes, (t j).occupied = true → p (t j) ≠ p (t' i)) :
    Distinct cfg t' p := by
  intro a ha b hb hab oa ob
  by_cases hai : a = i
  · subst hai
    have hba : b ≠ a := fun e => hab e.symm
    rw [(hs b hba).1] at ob
    rw [(hs b hba).2]
    exact (hnew b hb ob).symm
  · rw [(hs a hai).1] at oa
    rw [(hs a hai).2]
    by_cases hbi : b = i
    · subst hbi
      exact hnew a ha oa
    · rw [(hs b hbi).1] at ob
      rw [(hs b hbi).2]
      exact h a ha b hb hab oa ob

/-- The empty table. -/
lemma IdentInv.init (store : σ) (panId : Nat) :
    IdentInv cfg (State.init store panId).nodeIdx fun _ => none := by
  refine ⟨.init store panId _, fun i _ hi => ?_, .init store panId _, fun _ _ h => ?_⟩
  · cases hi
  · cases h

/-- The invariant sees addresses and euids of occupied entries only. -/
lemma IdentInv.congr (h : IdentInv cfg t given)
    (hs : ∀ j, (t j).occupied = true ∨ (t' j).occupied = true → (t' j).SameIdent (t j)) :
    IdentInv cfg t' given := by
  have hsub : ∀ j, (t' j).occupied = true → (t j).occupied = true ∧ (t' j).SameIdent (t j) :=
    fun j oj => ⟨(hs j (.inr oj)).occupied.symm.trans oj, hs j (.inr oj)⟩
  refine ⟨h.addr_ne.restrict fun j oj => ⟨(hsub j oj).1, (hsub j oj).2.1⟩, fun j hj oj => ?_,
    h.euid_ne.restrict fun j oj => ⟨(hsub j oj).1, (hsub j oj).2.2⟩, fun euid a ha => ?_⟩
  · rw [(hsub j oj).2.1]
    exact h.addr_pos j hj (hsub j oj).1
  · obtain ⟨j, hj, oj, he, haddr⟩ := h.listed euid a ha
    have hsj := hs j (.inl oj)
    exact ⟨j, hj, hsj.occupied.trans oj, hsj.2.trans he, hsj.1.trans haddr⟩

/-- An address that is listed may be given. -/
lemma IdentInv.give (h : IdentInv cfg t given) {euid : Nat} {f : Option Nat → Option Nat}
    (hf : ∀ a ∈ f (given euid), Listed cfg t euid a) : IdentInv cfg t (given.modify euid f) := by
  refine ⟨h.addr_ne, h.addr_pos, h.euid_ne, fun e a ha => ?_⟩
  rw [Table.modify_apply] at ha
  split at ha
  case isTrue he =>
    rw [he]
    exact hf a ha
  case isFalse => exact h.listed e a ha

/-- An unused address may be listed for an unused euid at a free entry. -/
lemma IdentInv.insert (h : IdentInv cfg t given) (hi : (t i).occupied = false)
    (hs : ∀ j ≠ i, (t' j).SameIdent (t j)) (h0 : (t' i).addr ≠ 0)
    (hnew : ∀ j < cfg.maxnumNodes, (t j).occupied = true →
      (t j).euid ≠ (t' i).euid ∧ (t j).addr ≠ (t' i).addr) : IdentInv cfg t' given := by
  refine ⟨h.addr_ne.insert (fun j hj => ⟨(hs j hj).occupied, (hs j hj).1⟩) fun j hj oj =>
      (hnew j hj oj).2, fun j hj oj => ?_,
    h.euid_ne.insert (fun j hj => ⟨(hs j hj).occupied, (hs j hj).2⟩) fun j hj oj =>
      (hnew j hj oj).1, fun euid a ha => ?_⟩
  · by_cases hji : j = i
    · rw [hji]
      exact h0
    · rw [(hs j hji).occupied] at oj
      rw [(hs j hji).1]
      exact h.addr_pos j hj oj
  · obtain ⟨j, hj, oj, he, haddr⟩ := h.listed euid a ha
    have hji : j ≠ i := by
      rintro rfl
      rw [hi] at oj
      cases oj
    exact ⟨j, hj, (hs j hji).occupied.trans oj, (hs j hji).2.trans he, (hs j hji).1.trans haddr⟩

/-- An entry may be freed together with what its euid was given. -/
lemma IdentInv.free (h : IdentInv cfg t given) (hi : (t' i).occupied = false)
    (hs : ∀ j ≠ i, (t' j).SameIdent (t j)) :
    IdentInv cfg t' (given.modify (t i).euid fun _ => none) := by
  have hsub : ∀ j, (t' j).occupied = true → (t j).occupied = true ∧ (t' j).SameIdent (t j) := by
    intro j oj
    have hji : j ≠ i := by
      rintro rfl
      rw [hi] at oj
      cases oj
    exact ⟨(hs j hji).occupied.symm.trans oj, hs j hji⟩
  refine ⟨h.addr_ne.restrict fun j oj => ⟨(hsub j oj).1, (hsub j oj).2.1⟩, fun j hj oj => ?_,
    h.euid_ne.restrict fun j oj => ⟨(hsub j oj).1, (hsub j oj).2.2⟩, fun euid a ha => ?_⟩
  · rw [(hsub j oj).2.1]
    exact h.addr_pos j hj (hsub j oj).1
  · rw [Table.modify_apply] at ha
    split at ha
    case isTrue => cases ha
    case isFalse hne =>
      obtain ⟨j, hj, oj, he, haddr⟩ := h.listed euid a ha
      have hji : j ≠ i := by
        rintro rfl
        exact hne he.symm
      exact ⟨j, hj, (hs j hji).occupied.trans oj, (hs j hji).2.trans he, (hs j hji).1.trans haddr⟩

/-- A listed euid is found, at the address it is listed with. -/
lemma IdentInv.found (h : IdentInv cfg t given) {euid a : Nat} (hl : Listed cfg t euid a) :
    ∃ i, findByEuid cfg t euid = some i ∧ (t i).addr = a := by
  obtain ⟨i, hi, oi, he, haddr⟩ := hl
  refine ⟨i, findByEuid_eq hi oi he fun j hj oj hej => ?_, haddr⟩
  by_contra hji
  exact h.euid_ne j hj i hi hji oj oi (hej.trans he.symm)

end

/-! ## Each event keeps it -/

/-- The invariant says that nodes are told apart. -/
lemma IdentInv.identified {w : IdentWorld σ} (hN : cfg.maxnumNodes ≤ 255)
    (h : IdentInv cfg w.st.nodeIdx w.given) : Identified cfg w := by
  refine ⟨h.addr_ne, h.addr_pos, h.euid_ne, ?_⟩
  intro busy tv utc euid request buf response hr a ha
  obtain ⟨i, hf, haddr⟩ := h.found (h.listed euid a ha)
  have sv := panrequestCb_served (by omega : cfg.maxnumNodes ≤ 2 ^ 8) busy tv utc euid
    request buf w.st
  generalize panrequestCb cfg busy tv utc euid request buf w.st = r at sv hr
  cases sv with
  | noEntry => cases hr
  | full => cases hr
  | @known k j _ _ hf' =>
    rw [hf] at hf'
    cases hf'
    cases hr
    exact haddr
  | fresh _ _ hf' =>
    rw [hf] at hf'
    cases hf'

/-- A request. -/
lemma IdentInv.request {w : IdentWorld σ} (hN : cfg.maxnumNodes ≤ 255)
    (h : IdentInv cfg w.st.nodeIdx w.given) {busy tv utc euid request buf}
    (g : IdentGuard cfg ns w (.request busy tv utc euid request buf)) :
    let w' := identStep cfg ns w (.request busy tv utc euid request buf)
    IdentInv cfg w'.st.nodeIdx w'.given := by
  have sv := panrequestCb_served (by omega : cfg.maxnumNodes ≤ 2 ^ 8) busy tv utc euid
    request buf w.st
  intro w'
  simp only [w', identStep]
  generalize panrequestCb cfg busy tv utc euid request buf w.st = r at sv ⊢
  cases sv with
  | noEntry => exact h.give fun a ha => h.listed euid a ha
  | full => exact h.give fun a ha => h.listed euid a ha
  | @known k i _ _ hf =>
    obtain ⟨hi, oi, he⟩ := findByEuid_some hf
    have hs : ∀ j, ((w.st.put k (knownNode cfg w.st.nodeIdx tv i request (w.st.nodesToSave k)) i
        (knownIdx cfg w.st.nodeIdx tv i request buf)).nodeIdx j).SameIdent (w.st.nodeIdx j) := by
      intro j
      rw [State.put_nodeIdx]
      split
      case isTrue e => exact e ▸ ⟨rfl, rfl⟩
      case isFalse => exact ⟨rfl, rfl⟩
    refine (h.congr fun j _ => hs j).give fun a ha => ?_
    cases ha
    exact ⟨i, hi, (hs i).occupied.trans oi, (hs i).2.trans he, (hs i).1⟩
  | @fresh k i _ _ hf hfree =>
    obtain ⟨hi, oi, -⟩ := findFreeIdx_some hfree
    obtain ⟨h0, hnew⟩ := firstFreeShortAddr_free (g hf)
    have hself := State.put_nodeIdx_self w.st k (newNode cfg w.st.nodeIdx tv utc i euid request) i
      (newIdx cfg w.st.nodeIdx tv i euid request buf)
    -- a free entry has address 0xffff, so the new address is another one
    have hocc : (newIdx cfg w.st.nodeIdx tv i euid request buf).occupied = true := by
      rw [NodeIdx.occupied_iff]
      have := hnew i hi
      rw [NodeIdx.occupied_false.mp oi] at this
      exact this.symm
    have hins : IdentInv cfg (w.st.put k (newNode cfg w.st.nodeIdx tv utc i euid request) i
        (newIdx cfg w.st.nodeIdx tv i euid request buf)).nodeIdx w.given := by
      refine h.insert oi (fun j hj => ?_) ?_ fun j hj oj => ?_
      · rw [State.put_nodeIdx_of_ne _ _ _ _ _ hj]
        exact ⟨rfl, rfl⟩
      · rw [hself]
        exact h0
      · rw [hself]
        exact ⟨findByEuid_none hf hj oj, hnew j hj⟩
    refine hins.give fun a ha => ?_
    cases ha
    exact ⟨i, hi, by rw [hself]; exact hocc, by rw [hself]; rfl, by rw [hself]; rfl⟩

/-- A node that is added. -/
lemma IdentInv.addNode {w : IdentWorld σ} (h : IdentInv cfg w.st.nodeIdx w.given)
    {utc shortAddr euid}
    (g : IdentGuard cfg ns w (.addNode utc shortAddr euid)) :
    let w' := identStep cfg ns w (.addNode utc shortAddr euid)
    IdentInv cfg w'.st.nodeIdx w'.given := by
  intro w'
  have ha := panmasterAddNode_added cfg ns utc shortAddr euid w.st
  simp only [w', identStep]
  generalize panmasterAddNode cfg ns utc shortAddr euid w.st = s' at ha ⊢
  cases ha with
  | none e =>
    refine h.give fun a ha => ?_
    rw [e] at ha
    exact h.listed euid a ha
  | @known node e hf =>
    refine h.give fun a ha => ?_
    by_cases hd : shortAddr = 0xffff
    · simp only [hd, bne_self_eq_false, Bool.and_false] at ha
      exact h.listed euid a ha
    · have hl := g e hd
      rw [hf, Option.isSome_some, if_pos rfl] at hl
      simp only [e, Bool.true_and, bne_iff_ne, ne_eq, hd, not_false_eq_true, if_true,
        Option.mem_def, Option.some.injEq] at ha
      exact ha ▸ hl
  | @fresh i e hf hfree =>
    obtain ⟨hi, oi, -⟩ := findFreeIdx_some hfree
    have hself := panmasterSaveNode_sameIdent ns (addedNode utc i euid shortAddr)
      (w.st.setAddr i shortAddr) i
    rw [State.setAddr_nodeIdx_self] at hself
    have hother : ∀ j ≠ i, ((panmasterSaveNode ns (addedNode utc i euid shortAddr)
        (w.st.setAddr i shortAddr)).nodeIdx j).SameIdent (w.st.nodeIdx j) := by
      intro j hj
      rw [← State.setAddr_nodeIdx_of_ne w.st shortAddr hj]
      exact panmasterSaveNode_sameIdent ns _ _ j
    by_cases hd : shortAddr = 0xffff
    · -- the entry stays free
      have hsub : IdentInv cfg (panmasterSaveNode ns (addedNode utc i euid shortAddr)
          (w.st.setAddr i shortAddr)).nodeIdx w.given := by
        refine h.congr fun j _ => ?_
        by_cases hj : j = i
        · subst hj
          exact ⟨hself.1.trans (hd.trans (NodeIdx.occupied_false.mp oi).symm), hself.2⟩
        · exact hother j hj
      refine hsub.give fun a ha => ?_
      simp only [hd, bne_self_eq_false, Bool.and_false] at ha
      exact hsub.listed euid a ha
    · have hc := g e hd
      rw [hf, Option.isSome_none, if_neg Bool.false_ne_true] at hc
      obtain ⟨heuid, hnew⟩ := hc i hfree
      have hins : IdentInv cfg (panmasterSaveNode ns (addedNode utc i euid shortAddr)
          (w.st.setAddr i shortAddr)).nodeIdx w.given := by
        refine h.insert oi hother ?_ fun j hj oj => ?_
        · rw [hself.1]
          exact (addTakesEffect_args e).1
        · rw [hself.1, hself.2]
          exact ⟨fun e => (hnew j hj oj).1 (e.trans heuid), (hnew j hj oj).2⟩
      refine hins.give fun a ha => ?_
      simp only [e, Bool.true_and, bne_iff_ne, ne_eq, hd, not_false_eq_true, if_true,
        Option.mem_def, Option.some.injEq] at ha
      refine ⟨i, hi, ?_, hself.2.trans heuid, hself.1.trans ha⟩
      rw [hself.occupied, NodeIdx.occupied_iff]
      exact hd

/-- A node that is deleted. -/
lemma IdentInv.deleteNode {w : IdentWorld σ} (h : IdentInv cfg w.st.nodeIdx w.given) {euid}
    (g : IdentGuard cfg ns w (.deleteNode euid)) :
    let w' := identStep cfg ns w (.deleteNode euid)
    IdentInv cfg w'.st.nodeIdx w'.given := by
  intro w'
  have hd := panmasterDeleteNode_deleted cfg ns euid w.st
  simp only [w', identStep]
  generalize panmasterDeleteNode cfg ns euid w.st = s' at hd ⊢
  cases hd with
  | none e =>
    refine h.give fun a ha => ?_
    rw [e] at ha
    exact h.listed euid a ha
  | @freed node hf hi haddr =>
    have hself := panmasterSaveNode_sameIdent ns { node with addr := 0xffff }
      (w.st.freeIdx node.index) node.index
    rw [State.freeIdx_nodeIdx_self] at hself
    have hother : ∀ j ≠ node.index, ((panmasterSaveNode ns { node with addr := 0xffff }
        (w.st.freeIdx node.index)).nodeIdx j).SameIdent (w.st.nodeIdx j) := by
      intro j hj
      rw [← State.freeIdx_nodeIdx_of_ne w.st hj]
      exact panmasterSaveNode_sameIdent ns _ _ j
    by_cases ho : (w.st.nodeIdx node.index).occupied = true
    · have he : deletedIdx cfg ns w.st euid = some node.index := by
        simp only [deletedIdx, hf, hi, haddr, ho, and_self, if_true]
      have hown : (w.st.nodeIdx node.index).euid = euid := g _ he
      have hfree := h.free hself.occupied hother
      rw [hown] at hfree
      simpa only [he, Option.isSome_some, if_true] using hfree
    · -- the entry was free already
      have he : deletedIdx cfg ns w.st euid = none := by
        simp only [deletedIdx, hf, ho, and_false, if_false, Bool.false_eq_true]
      have hsub : IdentInv cfg (panmasterSaveNode ns { node with addr := 0xffff }
          (w.st.freeIdx node.index)).nodeIdx w.given := by
        refine h.congr fun j oj => ?_
        by_cases hj : j = node.index
        · subst hj
          rcases oj with oj | oj
          · exact absurd oj ho
          · rw [hself.occupied] at oj
            cases oj
        · exact hother j hj
      refine hsub.give fun a ha => ?_
      rw [he] at ha
      exact hsub.listed euid a ha

/-- One step. -/
lemma IdentInv.step {w : IdentWorld σ} (hN : cfg.maxnumNodes ≤ 255)
    (h : IdentInv cfg w.st.nodeIdx w.given) {e : IdentEvent} (g : IdentGuard cfg ns w e) :
    IdentInv cfg (identStep cfg ns w e).st.nodeIdx (identStep cfg ns w e).given := by
  cases e with
  | request busy tv utc euid request buf => exact h.request hN g
  | postprocess =>
    refine h.congr fun j _ => ⟨?_, ?_⟩
    · exact panmasterPostprocess_keeps cfg ns NodeIdx.addr (fun _ _ _ => rfl) w.st j
    · exact panmasterPostprocess_keeps cfg ns NodeIdx.euid (fun _ _ _ => rfl) w.st j
  | addNode utc shortAddr euid => exact h.addNode g
  | deleteNode euid => exact h.deleteNode g

/-! ## Identity uniqueness -/

/-- In a run that finds an address for every new node, and whose additions and deletions meet the
    entry of their euid, identities are unique and addresses are kept. -/
theorem identified_of_guarded (hN : cfg.maxnumNodes ≤ 255) (store : σ) (panId : Nat)
    {w : IdentWorld σ}
    (rch : Reach (identStep cfg ns) (IdentGuard cfg ns) (.init store panId) w) :
    Identified cfg w :=
  IdentInv.identified hN <|
    rch.invariant (P := fun w => IdentInv cfg w.st.nodeIdx w.given) (.init store panId)
      fun _ _ h g => h.step hN g

/-- Two nodes join, the first is deleted once it is saved, and joins again. -/
def joinDeleteJoin : List IdentEvent :=
  [.request false ⟨1, 0⟩ 0 0x1001 ⟨1, 20, .zero⟩ .same,
    .request false ⟨2, 0⟩ 0 0x11002 ⟨1, 20, .zero⟩ .same, .postprocess, .deleteNode 0x1001,
    .request false ⟨3, 0⟩ 0 0x1001 ⟨1, 20, .zero⟩ .same]

/-- A node joins, is deleted and joins again. -/
theorem identified_joinDeleteJoin :
    Identified .dflt
      (joinDeleteJoin.foldl (identStep .dflt (panmFcb .roomy .zero)) (.init .empty 0x1234)) := by
  have hall : Allowed (identStep .dflt (panmFcb .roomy .zero))
      (IdentGuard .dflt (panmFcb .roomy .zero)) (.init .empty 0x1234) joinDeleteJoin := by
    decide +kernel
  exact identified_of_guarded (by decide) .empty 0x1234 (Reach.of_allowed hall)

/-- Four nodes, the last of which finds every address taken that its euid offers. -/
def collidingEuids : List IdentEvent :=
  [.request false ⟨1, 0⟩ 0 0x1001 ⟨1, 20, .zero⟩ .same,
    .request false ⟨2, 0⟩ 0 0x2001 ⟨1, 20, .zero⟩ .same,
    .request false ⟨3, 0⟩ 0 0x3001 ⟨1, 20, .zero⟩ .same,
    .request false ⟨4, 0⟩ 0 0x11001 ⟨1, 20, .zero⟩ .same]

/-- The last node is given the address 0. -/
theorem identified_fails :
    ¬ ∀ w, Reach (identStep .dflt (panmFcb .roomy .zero)) anyEvent (.init .empty 0x1234) w →
      Identified .dflt w := by
  intro h
  have hid := h _ (Reach.of_events collidingEuids)
  exact hid.addr_pos 3 (by decide) (by decide +kernel) (by decide +kernel)

end UwbCore.Panmaster
