import UwbCore.Lib.Run
import UwbCore.Panmaster.Served
import UwbCore.Panmaster.Fcb

/-!
# Rejected requests

A request that finds the node table full has reserved a `nodes_to_save` entry by then, and the next
run of `panmaster_postprocess` hands that entry to the store. The request is without effect only if
the store already holds what is left in the entry, or is so full that it refuses it
(`rejected_atomic_iff`).
-/

namespace UwbCore.Panmaster
open UwbCore.Lib

/-- What can happen to `nodes_to_save`; every other call leaves it alone, whatever becomes of table
    and store. -/
inductive SaveEvent where
  | request (busy : Bool) (tv : Timeval) (utc : Int) (euid : Nat) (request : PanRequest)
      (buf : ResponseBuf)
  | postprocess
  | other (nodeIdx : Table NodeIdx) (store : Fcb)

def saveStep (cfg : Syscfg) (ns : NodeStore Fcb) (s : State Fcb) : SaveEvent → State Fcb
  | .request busy tv utc euid request buf => (panrequestCb cfg busy tv utc euid request buf s).2
  | .postprocess => panmasterPostprocess cfg ns s
  | .other nodeIdx store => { s with nodeIdx := nodeIdx, store := store }

/-- Table and store cannot tell two states apart, now or after runs of `panmaster_postprocess`. -/
def Atomic {σ : Type} (cfg : Syscfg) (ns : NodeStore σ) (s s' : State σ) : Prop :=
  ∀ m, ((panmasterPostprocess cfg ns)^[m] s').nodeIdx =
      ((panmasterPostprocess cfg ns)^[m] s).nodeIdx ∧
    ((panmasterPostprocess cfg ns)^[m] s').store = ((panmasterPostprocess cfg ns)^[m] s).store

/-! ## The pending entries -/

/-- The entries in use come before those that are not. -/
def PendingFirst {σ : Type} (cfg : Syscfg) (s : State σ) : Prop :=
  ∀ i j, i < j → j < cfg.nodesToSave → (s.nodesToSave j).euid ≠ 0 → (s.nodesToSave i).euid ≠ 0

section
variable {σ : Type} {cfg : Syscfg} {ns : NodeStore σ} {s s' : State σ}

/-- Behind an empty entry all are empty. -/
lemma PendingFirst.empty (h : PendingFirst cfg s) {k j : Nat} (hk : (s.nodesToSave k).euid = 0)
    (hkj : k ≤ j) (hj : j < cfg.nodesToSave) : (s.nodesToSave j).euid = 0 := by
  rcases Nat.eq_or_lt_of_le hkj with rfl | hlt
  · exact hk
  · by_contra hne
    exact h k j hlt hj hne hk

/-- An entry written at the first free place. -/
lemma PendingFirst.write (h : PendingFirst cfg s) {k : Nat} (hk : emptySaveEntry cfg s = some k)
    (hs : ∀ j ≠ k, s'.nodesToSave j = s.nodesToSave j) : PendingFirst cfg s' := by
  obtain ⟨-, hk0, hlt⟩ := emptySaveEntry_some hk
  intro i j hij hj hne
  by_cases hjk : j = k
  · subst hjk
    rw [hs i hij.ne]
    exact hlt i hij
  · rw [hs j hjk] at hne
    have hik : i ≠ k := by
      rintro rfl
      exact hne (h.empty hk0 hij.le hj)
    rw [hs i hik]
    exact h i j hij hj hne

/-- A request that is served. -/
lemma PendingFirst.served (h : PendingFirst cfg s) {busy tv utc euid request buf r}
    (sv : Served cfg busy tv utc euid request buf s r) : PendingFirst cfg r.2 := by
  cases sv with
  | noEntry => exact h
  | full _ hk => exact h.write hk fun j hj => if_neg hj
  | known _ hk => exact h.write hk fun j hj => if_neg hj
  | fresh _ hk => exact h.write hk fun j hj => if_neg hj

/-- More runs do no more than one. -/
lemma panmasterPostprocess_iterate (cfg : Syscfg) (ns : NodeStore σ) (s : State σ) (m : Nat) :
    (panmasterPostprocess cfg ns)^[m + 1] s = panmasterPostprocess cfg ns s := by
  induction m with
  | zero => rfl
  | succ m ih => rw [Function.iterate_succ_apply', ih, panmasterPostprocess_twice]

/-! ## A run with one entry more -/

/-- Two states that differ in one save entry at most. -/
structure AgreeBut (k : Nat) (s s' : State σ) : Prop where
  nodeIdx : s'.nodeIdx = s.nodeIdx
  store : s'.store = s.store
  save : ∀ j ≠ k, s'.nodesToSave j = s.nodesToSave j

/-- What an update does to table and store depends on these only. -/
lemma panmasterUpdateNode_congr (ns : NodeStore σ) (hidx : s'.nodeIdx = s.nodeIdx)
    (hstore : s'.store = s.store) (euid : Nat) (upd : Node) :
    (panmasterUpdateNode ns euid upd s').nodeIdx = (panmasterUpdateNode ns euid upd s).nodeIdx ∧
      (panmasterUpdateNode ns euid upd s').store = (panmasterUpdateNode ns euid upd s).store := by
  rw [panmasterUpdateNode, panmasterUpdateNode, hstore]
  split
  · rw [panmasterSaveNode, panmasterSaveNode, hidx, hstore]
    exact ⟨rfl, rfl⟩
  · exact ⟨hidx, hstore⟩

variable (ns) in
/-- A round for another entry. -/
lemma AgreeBut.round {k i : Nat} (h : AgreeBut k s s') (hi : i ≠ k) :
    AgreeBut k (postprocessEntry ns s i) (postprocessEntry ns s' i) := by
  have hsave : ∀ j ≠ k,
      (postprocessEntry ns s' i).nodesToSave j = (postprocessEntry ns s i).nodesToSave j := by
    intro j hj
    by_cases hji : j = i
    · subst hji
      rw [postprocessEntry, postprocessEntry, h.save j hj]
      split
      · rw [State.clearSave_nodesToSave, State.clearSave_nodesToSave, if_pos rfl, if_pos rfl]
      · exact h.save j hj
    · rw [postprocessEntry_other _ hji, postprocessEntry_other _ hji, h.save j hj]
  have hupd := panmasterUpdateNode_congr ns h.nodeIdx h.store (s.nodesToSave i).euid
    (s.nodesToSave i)
  refine ⟨?_, ?_, hsave⟩
  · rw [postprocessEntry, postprocessEntry, h.save i hi]
    split
    · exact hupd.1
    · exact h.nodeIdx
  · rw [postprocessEntry, postprocessEntry, h.save i hi]
    split
    · exact hupd.2
    · exact h.store

variable (ns) in
/-- Rounds for other entries. -/
lemma AgreeBut.rounds {k : Nat} (h : AgreeBut k s s') {l : List Nat} (hl : ∀ i ∈ l, i ≠ k) :
    AgreeBut k (l.foldl (postprocessEntry ns) s) (l.foldl (postprocessEntry ns) s') ∧
      (l.foldl (postprocessEntry ns) s').nodesToSave k = s'.nodesToSave k := by
  induction l generalizing s s' with
  | nil => exact ⟨h, rfl⟩
  | cons i l ih =>
    have hi := hl i (by simp)
    obtain ⟨h', hk⟩ := ih (h.round ns hi) fun j hj => hl j (List.mem_cons_of_mem i hj)
    exact ⟨h', hk.trans (postprocessEntry_other s' hi.symm)⟩

/-- Nothing differs. -/
lemma AgreeBut.refl (k : Nat) (s : State σ) : AgreeBut k s s := ⟨rfl, rfl, fun _ _ => rfl⟩

/-- The record a rejected request leaves behind in entry `k`. -/
def leftBehind (s : State σ) (k euid : Nat) : Node := { s.nodesToSave k with euid := euid }

variable (ns) in
/-- After a reservation that is not filled, `panmaster_postprocess` does what it would have done
    and then updates the store with what the entry holds. -/
lemma postprocess_reserved (h : PendingFirst cfg s) {k euid : Nat}
    (hk : emptySaveEntry cfg s = some k) (he : euid ≠ 0) :
    (panmasterPostprocess cfg ns (s.reserve k euid)).nodeIdx =
        (panmasterUpdateNode ns euid (leftBehind s k euid) (panmasterPostprocess cfg ns s)).nodeIdx ∧
      (panmasterPostprocess cfg ns (s.reserve k euid)).store =
        (panmasterUpdateNode ns euid (leftBehind s k euid) (panmasterPostprocess cfg ns s)).store := by
  obtain ⟨hk', hk0, -⟩ := emptySaveEntry_some hk
  have hrest : ∀ j, k < j → j < cfg.nodesToSave → (s.nodesToSave j).euid = 0 := fun j hj hj' =>
    h.empty hk0 hj.le hj'
  have hrest' : ∀ j, k < j → j < cfg.nodesToSave → ((s.reserve k euid).nodesToSave j).euid = 0 := by
    intro j hj hj'
    rw [State.reserve_nodesToSave, if_neg hj.ne']
    exact hrest j hj hj'
  have hne : ∀ i ∈ List.range k, i ≠ k := fun i hi => (List.mem_range.mp hi).ne
  have hagree : AgreeBut k s (s.reserve k euid) := ⟨rfl, rfl, fun j hj => if_neg hj⟩
  obtain ⟨hab, hb⟩ := hagree.rounds ns hne
  obtain ⟨-, ha⟩ := (AgreeBut.refl k s).rounds ns hne
  rw [State.reserve_nodesToSave, if_pos rfl] at hb
  rw [panmasterPostprocess_upto hk' hrest, panmasterPostprocess_upto hk' hrest']
  generalize (List.range k).foldl (postprocessEntry ns) s = a at hab ha ⊢
  generalize (List.range k).foldl (postprocessEntry ns) (s.reserve k euid) = b at hab hb ⊢
  have hskip : postprocessEntry ns a k = a := by
    rw [postprocessEntry, ha, hk0]
    rfl
  have hdone : postprocessEntry ns b k =
      (panmasterUpdateNode ns euid (leftBehind s k euid) b).clearSave k := by
    rw [postprocessEntry, hb]
    exact if_pos (by simpa using he)
  rw [hskip, hdone]
  exact panmasterUpdateNode_congr ns hab.nodeIdx hab.store euid (leftBehind s k euid)

/-- Later runs add nothing to what the first one shows. -/
lemma atomic_of_first (hidx : s'.nodeIdx = s.nodeIdx) (hstore : s'.store = s.store)
    (h : (panmasterPostprocess cfg ns s').nodeIdx = (panmasterPostprocess cfg ns s).nodeIdx ∧
      (panmasterPostprocess cfg ns s').store = (panmasterPostprocess cfg ns s).store) :
    Atomic cfg ns s s' := by
  intro m
  cases m with
  | zero => exact ⟨hidx, hstore⟩
  | succ m =>
    rw [panmasterPostprocess_iterate, panmasterPostprocess_iterate]
    exact h

/-- Nothing happened. -/
lemma Atomic.refl (s : State σ) : Atomic cfg ns s s := fun _ => ⟨rfl, rfl⟩

end

/-! ## When a rejection is atomic -/

section
variable {cfg : Syscfg} {lib : FcbLib} {stale : ImageVersion} {s : State Fcb}

/-- One step. -/
lemma saveStep_pendingFirst {ns : NodeStore Fcb} (hN : cfg.maxnumNodes ≤ 2 ^ 8)
    (h : PendingFirst cfg s) (e : SaveEvent) : PendingFirst cfg (saveStep cfg ns s e) := by
  cases e with
  | request busy tv utc euid request buf =>
    exact h.served (panrequestCb_served hN busy tv utc euid request buf s)
  | postprocess =>
    intro i j _ hj hne
    exact absurd (panmasterPostprocess_unused cfg ns s hj) hne
  | other => exact h

/-- `fcb_append` finds no space: the active sector takes no record, and no other one is free. -/
def NoSpace (lib : FcbLib) (f : Fcb) : Prop :=
  lib.fits f.active = false ∧ lib.spare (f.older.length + 1) = false

/-- The log takes no record and is none the worse for it: each of the ten attempts finds no space, and the
    ten compressions between them end at the log they began with. -/
def Refuses (lib : FcbLib) (stale : ImageVersion) (f : Fcb) : Prop :=
  (∀ m < 10, NoSpace lib ((panmFcbCompress stale)^[m] f)) ∧ (panmFcbCompress stale)^[10] f = f

/-- Without space an append fails. -/
lemma fcbAppend_none {f : Fcb} (h : NoSpace lib f) (e : FcbEntry) : fcbAppend lib f e = none := by
  obtain ⟨hfits, hspare⟩ := h
  simp only [fcbAppend, hfits, hspare, Bool.false_eq_true, if_false]

/-- With space an append leaves its record as the newest. -/
lemma fcbAppend_some {f : Fcb} (h : ¬ NoSpace lib f) (e : FcbEntry) :
    ∃ f' l, fcbAppend lib f e = some f' ∧ f'.entries = l ++ [e] := by
  rw [fcbAppend]
  by_cases hfits : lib.fits f.active = true
  · rw [if_pos hfits]
    exact ⟨_, f.entries, rfl, by simp [Fcb.entries]⟩
  · have hspare : lib.spare (f.older.length + 1) = true := by
      by_contra hno
      exact h ⟨by simpa using hfits, by simpa using hno⟩
    rw [if_neg hfits, if_pos hspare]
    exact ⟨_, f.entries, rfl, by simp [Fcb.entries]⟩

/-- After `n` attempts the record is the newest, or no attempt found space and the log was compressed
    `n` times (C `panm_fcb_append`). -/
lemma panmFcbAppend_cases (lib : FcbLib) (stale : ImageVersion) (e : FcbEntry) (n : Nat) (f : Fcb) :
    (∃ l, (panmFcbAppend lib stale e n f).entries = l ++ [e]) ∧
        ¬ (∀ m < n, NoSpace lib ((panmFcbCompress stale)^[m] f)) ∨
      (∀ m < n, NoSpace lib ((panmFcbCompress stale)^[m] f)) ∧
        panmFcbAppend lib stale e n f = (panmFcbCompress stale)^[n] f := by
  induction n generalizing f with
  | zero => exact .inr ⟨fun _ hm => absurd hm (Nat.not_lt_zero _), rfl⟩
  | succ n ih =>
    by_cases hspace : NoSpace lib f
    · have hstep : panmFcbAppend lib stale e (n + 1) f =
          panmFcbAppend lib stale e n (panmFcbCompress stale f) := by
        rw [panmFcbAppend, fcbAppend_none hspace]
      rw [hstep]
      rcases ih (panmFcbCompress stale f) with ⟨hl, hno⟩ | ⟨hall, he⟩
      · exact .inl ⟨hl, fun hall => hno fun m hm => hall (m + 1) (Nat.succ_lt_succ hm)⟩
      · refine .inr ⟨fun m hm => ?_, he⟩
        cases m with
        | zero => exact hspace
        | succ m => exact hall m (Nat.lt_of_succ_lt_succ hm)
    · obtain ⟨f', l, happ, hl⟩ := fcbAppend_some hspace e
      have hstep : panmFcbAppend lib stale e (n + 1) f = f' := by rw [panmFcbAppend, happ]
      rw [hstep]
      exact .inl ⟨⟨l, hl⟩, fun hall => hspace (hall 0 (Nat.succ_pos n))⟩

/-- A save that is needed leaves the log as it is exactly if the log refuses the record. -/
lemma panmFcbSave_eq_self_iff {f : Fcb} {euid : Nat} {n : Node} (he : euid ≠ 0) (hn : n.euid = euid)
    (h : saveIsNeeded (panmFcb lib stale) euid n f = true) :
    panmFcbSave lib stale f n = f ↔ Refuses lib stale f := by
  rw [panmFcbSave]
  rcases panmFcbAppend_cases lib stale ⟨n, true⟩ 10 f with ⟨⟨l, hl⟩, hno⟩ | ⟨hall, heq⟩
  · refine iff_of_false (fun hsame => ?_) fun hr => hno hr.1
    -- the record would be the newest of its euid already
    have hfind : panmFcbFindNode f (findEuid euid) = some n := by
      rw [hsame] at hl
      rw [panmFcbFindNode_findEuid, Fcb.records, hl, List.map_append, List.map_singleton,
        FcbEntry.load_mk, lastWrite_concat, byEuid, hn]
      simp [he]
    simp [saveIsNeeded, panmFcb, hfind, recordDiffers] at h
  · rw [heq]
    exact ⟨fun hsame => ⟨hall, hsame⟩, fun hr => hr.2⟩

/-- The index entry of a record has its role and flag already. -/
def IdxAgrees (t : Table NodeIdx) (n : Node) : Prop :=
  (t n.index).role = n.role ∧ (t n.index).hasPermSlot = n.hasPermSlot

/-- `panmaster_save_node` leaves the table as it is exactly if the index entry agrees with the record. -/
lemma saveNode_nodeIdx_eq_iff (ns : NodeStore Fcb) (n : Node) (s : State Fcb) :
    (panmasterSaveNode ns n s).nodeIdx = s.nodeIdx ↔ IdxAgrees s.nodeIdx n := by
  constructor
  · intro h
    have hrole := congrArg (fun t => (t n.index).role) h
    have hperm := congrArg (fun t => (t n.index).hasPermSlot) h
    simp only [panmasterSaveNode, Table.modify_self] at hrole hperm
    exact ⟨hrole.symm, hperm.symm⟩
  · rintro ⟨hrole, hperm⟩
    funext j
    by_cases hj : j = n.index
    · subst hj
      simp only [panmasterSaveNode, Table.modify_self, ← hrole, ← hperm]
    · rw [panmasterSaveNode_nodeIdx, if_neg hj]

/-- The request is turned away before it reserves an entry, has no euid to reserve one for, or leaves
    behind a record that, once the store is up to date, the store holds already or neither the full log
    nor the table can be changed by. -/
def Harmless (cfg : Syscfg) (lib : FcbLib) (stale : ImageVersion) (s : State Fcb) (busy : Bool)
    (euid : Nat) : Prop :=
  busy = true ∨ euid = 0 ∨ ∀ k ∈ emptySaveEntry cfg s,
    let after := panmasterPostprocess cfg (panmFcb lib stale) s
    saveIsNeeded (panmFcb lib stale) euid (leftBehind s k euid) after.store = false ∨
      Refuses lib stale after.store ∧ IdxAgrees after.nodeIdx (leftBehind s k euid)

/-- An update with a record of the euid is without effect exactly if none is needed, or the log refuses
    the record and the table agrees with it. -/
lemma updateNode_eq_iff {euid : Nat} {n : Node} (he : euid ≠ 0) (hn : n.euid = euid) (s : State Fcb) :
    ((panmasterUpdateNode (panmFcb lib stale) euid n s).nodeIdx = s.nodeIdx ∧
        (panmasterUpdateNode (panmFcb lib stale) euid n s).store = s.store) ↔
      saveIsNeeded (panmFcb lib stale) euid n s.store = false ∨
        Refuses lib stale s.store ∧ IdxAgrees s.nodeIdx n := by
  rcases panmasterUpdateNode_cases (panmFcb lib stale) euid n s with ⟨hneed, e⟩ | ⟨hno, e⟩
  · have hstore : (panmasterSaveNode (panmFcb lib stale) n s).store = s.store ↔
        Refuses lib stale s.store := panmFcbSave_eq_self_iff he hn hneed
    rw [e, saveNode_nodeIdx_eq_iff, hstore, and_comm]
    exact ⟨.inr, fun h => h.resolve_left (by simp [hneed])⟩
  · rw [e]
    exact iff_of_true ⟨rfl, rfl⟩ (.inl hno)

/-- In every reachable state a rejected request is without effect if and only if it is harmless. -/
theorem rejected_atomic_iff (hN : cfg.maxnumNodes ≤ 255) {store : Fcb} {panId : Nat}
    (rch : Reach (saveStep cfg (panmFcb lib stale)) anyEvent (.init store panId) s)
    {busy tv utc euid request buf}
    (hrej : (panrequestCb cfg busy tv utc euid request buf s).1 = none) :
    Atomic cfg (panmFcb lib stale) s (panrequestCb cfg busy tv utc euid request buf s).2 ↔
      Harmless cfg lib stale s busy euid := by
  have hpend : PendingFirst cfg s :=
    rch.invariant (P := PendingFirst cfg) (fun _ _ _ _ h => absurd rfl h) fun _ e h _ =>
      saveStep_pendingFirst (by omega) h e
  have sv := panrequestCb_served (by omega : cfg.maxnumNodes ≤ 2 ^ 8) busy tv utc euid request buf s
  generalize panrequestCb cfg busy tv utc euid request buf s = r at sv hrej ⊢
  cases sv with
  | known => cases hrej
  | fresh => cases hrej
  | noEntry h =>
    have hharm : Harmless cfg lib stale s busy euid := by
      rcases h with h | h
      · exact .inl h
      · refine .inr (.inr fun k hk => ?_)
        rw [h] at hk
        cases hk
    exact ⟨fun _ => hharm, fun _ => .refl s⟩
  | @full k hb hk _ _ =>
    by_cases he : euid = 0
    · have hsame : s.reserve k euid = s := by
        have hk0 := (emptySaveEntry_some hk).2.1
        rw [State.reserve, he]
        congr 1
        funext j
        rw [Table.modify_apply]
        split
        case isTrue e => rw [e, ← hk0]
        case isFalse => rfl
      rw [hsame]
      exact ⟨fun _ => .inr (.inl he), fun _ => .refl s⟩
    · obtain ⟨hidx, hstore⟩ := postprocess_reserved (panmFcb lib stale) hpend hk he
      have hiff := @updateNode_eq_iff lib stale euid (leftBehind s k euid) he rfl
        (panmasterPostprocess cfg (panmFcb lib stale) s)
      rw [← hidx, ← hstore] at hiff
      constructor
      · intro hat
        refine .inr (.inr fun k' hk' => ?_)
        rw [hk] at hk'
        cases hk'
        exact hiff.mp (hat 1)
      · intro hh
        have hleft := (hh.resolve_left (by simp [hb])).resolve_left he
        exact atomic_of_first rfl rfl (hiff.mpr (hleft k hk))

end

/-- Four nodes that fill the table, all of them saved. -/
def fullTable : List SaveEvent :=
  [.request false ⟨1, 0⟩ 0 0x101 ⟨1, 20, .zero⟩ .same,
    .request false ⟨2, 0⟩ 0 0x102 ⟨2, 20, .zero⟩ .same,
    .request false ⟨3, 0⟩ 0 0x103 ⟨2, 20, .zero⟩ .same,
    .request false ⟨4, 0⟩ 0 0x104 ⟨2, 20, .zero⟩ .same, .postprocess]

/-- The state they leave, over a flash of one sector for six records and a scratch sector. -/
def fullState : State Fcb :=
  fullTable.foldl (saveStep .dflt (panmFcb (.sized 2 6) .zero)) (.init .empty 0x1234)

/-- A request in a full table. -/
theorem rejected_atomic_fullState :
    Atomic .dflt (panmFcb (.sized 2 6) .zero) fullState
        (panrequestCb .dflt false ⟨5, 0⟩ 0 0x105 ⟨2, 20, .zero⟩ .same fullState).2 ↔
      Harmless .dflt (.sized 2 6) .zero fullState false 0x105 := by
  have rch : Reach (saveStep .dflt (panmFcb (.sized 2 6) .zero)) anyEvent (.init .empty 0x1234)
      fullState := Reach.of_events fullTable
  exact rejected_atomic_iff (by decide) rch (by decide +kernel)

/-- A fifth node is turned away, and the next run of `panmaster_postprocess` takes the role of the
    first node from the index. -/
theorem rejected_atomic_fails :
    ¬ ∀ s, Reach (saveStep .dflt (panmFcb (.sized 2 6) .zero)) anyEvent (.init .empty 0x1234) s →
      ∀ busy tv utc euid request buf,
        (panrequestCb .dflt busy tv utc euid request buf s).1 = none →
        Atomic .dflt (panmFcb (.sized 2 6) .zero) s
          (panrequestCb .dflt busy tv utc euid request buf s).2 := by
  intro h
  have hat := h fullState (Reach.of_events fullTable) false ⟨5, 0⟩ 0 0x105 ⟨2, 20, .zero⟩ .same
    (by decide +kernel)
  have hrole := congrArg (fun t => (t 0).role) (hat 1).1
  revert hrole
  decide +kernel

end UwbCore.Panmaster
