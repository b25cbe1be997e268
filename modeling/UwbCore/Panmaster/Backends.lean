import UwbCore.Panmaster.Load
import UwbCore.Panmaster.RoundTrip

/-!
# Loading the index from either back end

Both back ends load the index with a callback of their own. The one of the flash buffer takes the
identity of every record over, the one of the file the address only, and that of no deletion.
`backendsAgree_iff` says which logs give the same table either way. Both compare the index with the size
of the table by `<=`, so a record with the size itself for an index is written behind the table
(`loadFramed_iff`).
-/

namespace UwbCore.Panmaster
open UwbCore.Lib

/-- The table loaded from the file into a default one. -/
def fileTable (cfg : Syscfg) (longMax : Nat) (tmpnode : Node) (content : List UInt8) : Table NodeIdx :=
  panmFileLoadIdx cfg longMax tmpnode content fun _ => .default

/-- Records saved in the log and in the file give the same occupied entries with the same identity. -/
def BackendsAgree (cfg : Syscfg) (longMax : Nat) (tmpnode : Node) (f : Fcb) : Prop :=
  ∀ i < cfg.maxnumNodes,
    (fileTable cfg longMax tmpnode (savedFile f.records) i).occupied = (f.table cfg i).occupied ∧
      ((f.table cfg i).occupied = true →
        (fileTable cfg longMax tmpnode (savedFile f.records) i).ident = (f.table cfg i).ident)

/-- The index is in no record but deletions, or its last record is live and names no euid, no role and
    no permanent slot. -/
def Plain (cfg : Syscfg) (recs : List Node) : Prop :=
  ∀ i < cfg.maxnumNodes, (∀ n ∈ recs, n.index = i → n.addr = 0xffff) ∨
    ∃ n ∈ lastWrite (ofKey Node.index i) recs,
      n.addr ≠ 0xffff ∧ n.euid = 0 ∧ n.role = 0 ∧ n.hasPermSlot = false

/-- A load writes entries of the table only, and those only that a record names. -/
def LoadFramed (cfg : Syscfg) (recs : List Node) (load : Table NodeIdx → Table NodeIdx) : Prop :=
  ∀ t i, cfg.maxnumNodes ≤ i ∨ (∀ n ∈ recs, n.index ≠ i) → load t i = t i

/-- The address of a record that names entry `i` and is no deletion. -/
def liveAddrOf (i : Nat) (n : Node) : Option Nat :=
  if n.index = i ∧ n.addr ≠ 0xffff then some n.addr else none

section
variable {cfg : Syscfg} {longMax : Nat} {tmpnode : Node} {t : Table NodeIdx} {recs : List Node}
  {i : Nat}

/-- The callback of the file writes the newest address that is no deletion. -/
lemma fileIdx_apply (hi : i ≤ cfg.maxnumNodes) (t : Table NodeIdx) (recs : List Node) :
    recs.foldl (fileIdxLoadCb cfg) t i =
      { t i with addr := (lastWrite (liveAddrOf i) recs).getD (t i).addr } := by
  induction recs using List.reverseRecOn with
  | nil => rfl
  | append_singleton recs n ih =>
    rw [List.foldl_append, List.foldl_cons, List.foldl_nil, lastWrite_concat, fileIdxLoadCb]
    by_cases hn : n.index = i
    · subst hn
      by_cases ha : n.addr = 0xffff
      · rw [if_neg fun h => h.2 ha, liveAddrOf, if_neg fun h => h.2 ha, ih]
        rfl
      · rw [if_pos ⟨hi, ha⟩, liveAddrOf, if_pos ⟨rfl, ha⟩, Table.modify_self, ih]
        rfl
    · have hother : liveAddrOf i n = none := if_neg fun h => hn h.1
      rw [hother, Option.none_or, ← ih]
      split
      case isTrue => exact Table.modify_of_ne _ _ (Ne.symm hn)
      case isFalse => rfl

/-- A record that is read back names the same entry with the same address. -/
lemma liveAddrOf_readBack (slotId : Nat) :
    lastWrite (liveAddrOf i) (recs.map (Node.readBack longMax slotId)) =
      lastWrite (liveAddrOf i) recs := by
  rw [← List.filterMap_eq_map, lastWrite_filterMap]
  rfl

/-- The entry loaded from a file of saved records. -/
lemma fileTable_apply (hlong : 2 ^ 31 - 1 ≤ longMax) (hrecs : ∀ n ∈ recs, n.Sized)
    (hsize : (savedFile recs).length < 2 ^ 32) (hi : i ≤ cfg.maxnumNodes) :
    fileTable cfg longMax tmpnode (savedFile recs) i =
      { NodeIdx.default with addr := (lastWrite (liveAddrOf i) recs).getD 0xffff } := by
  rw [fileTable, panmFileLoadIdx, panmFileLoad_savedFile hlong hrecs hsize, fileIdx_apply hi,
    liveAddrOf_readBack]
  rfl

/-- An address that is loaded is no deletion. -/
lemma liveAddrOf_ne {a : Nat} (h : lastWrite (liveAddrOf i) recs = some a) : a ≠ 0xffff := by
  obtain ⟨n, -, hq⟩ := lastWrite_mem h
  rw [liveAddrOf] at hq
  split at hq
  case isTrue hn =>
    cases hq
    exact hn.2
  case isFalse => cases hq

/-- The last record of an index, when it is live, has the newest live address. -/
lemma liveAddrOf_last {n : Node} (h : lastWrite (ofKey Node.index i) recs = some n)
    (ha : n.addr ≠ 0xffff) : lastWrite (liveAddrOf i) recs = some n.addr := by
  obtain ⟨l₁, m, l₂, rfl, hm, hnone⟩ := lastWrite_some h
  rw [ofKey] at hm
  split at hm
  case isFalse => cases hm
  case isTrue hmi =>
    cases hm
    have hl₂ : lastWrite (liveAddrOf i) l₂ = none := by
      rw [lastWrite_eq_none]
      intro y hy
      have hy := hnone y hy
      rw [ofKey] at hy
      split at hy
      case isTrue => cases hy
      case isFalse hyi => exact if_neg fun hn => hyi hn.1
    rw [lastWrite_append, lastWrite_cons, hl₂, Option.none_or, liveAddrOf, if_pos ⟨hmi, ha⟩]
    rfl

/-- Deletions alone leave no address. -/
lemma liveAddrOf_eq_none :
    lastWrite (liveAddrOf i) recs = none ↔ ∀ n ∈ recs, n.index = i → n.addr = 0xffff := by
  rw [lastWrite_eq_none]
  refine forall₂_congr fun n _ => ?_
  rw [liveAddrOf]
  split
  case isTrue h => exact iff_of_false (Option.some_ne_none _) fun hn => h.2 (hn h.1)
  case isFalse h =>
    refine iff_of_true rfl fun hn => ?_
    by_contra ha
    exact h ⟨hn, ha⟩

/-- The entries agree exactly when the index is plain. -/
lemma entryAgrees_iff (hlong : 2 ^ 31 - 1 ≤ longMax) {f : Fcb} (hrecs : ∀ n ∈ f.records, n.Sized)
    (hsize : (savedFile f.records).length < 2 ^ 32) (hi : i ≤ cfg.maxnumNodes) :
    ((fileTable cfg longMax tmpnode (savedFile f.records) i).occupied = (f.table cfg i).occupied ∧
      ((f.table cfg i).occupied = true →
        (fileTable cfg longMax tmpnode (savedFile f.records) i).ident = (f.table cfg i).ident)) ↔
      ((∀ n ∈ f.records, n.index = i → n.addr = 0xffff) ∨
        ∃ n ∈ lastWrite (ofKey Node.index i) f.records,
          n.addr ≠ 0xffff ∧ n.euid = 0 ∧ n.role = 0 ∧ n.hasPermSlot = false) := by
  have htable := f.table_ident cfg hi
  rw [identOf_ofKey] at htable
  rw [fileTable_apply hlong hrecs hsize hi, ← liveAddrOf_eq_none]
  cases hlast : lastWrite (ofKey Node.index i) f.records with
  | none =>
    rw [hlast] at htable
    have hoff : (f.table cfg i).occupied = false := NodeIdx.occupied_congr htable
    have hnone : lastWrite (liveAddrOf i) f.records = none := by
      rw [liveAddrOf_eq_none]
      intro n hn he
      exact absurd he fun he => by
        have := lastWrite_eq_none.mp hlast n hn
        rw [ofKey, if_pos he] at this
        cases this
    rw [hnone, hoff]
    exact iff_of_true ⟨rfl, fun h => by cases h⟩ (.inl rfl)
  | some n =>
    rw [hlast] at htable
    have hident : (f.table cfg i).ident = n.ident := htable
    by_cases ha : n.addr = 0xffff
    case pos =>
      -- the last record is a deletion, and the file keeps an older address
      have hoff : (f.table cfg i).occupied = false := by
        rw [← Bool.not_eq_true, NodeIdx.occupied_of_ident hident, not_not]
        exact ha
      rw [hoff]
      cases hlive : lastWrite (liveAddrOf i) f.records with
      | none => exact iff_of_true ⟨rfl, fun h => by cases h⟩ (.inl rfl)
      | some a =>
        have hon : NodeIdx.occupied { NodeIdx.default with addr := a } = true :=
          NodeIdx.occupied_iff.mpr (liveAddrOf_ne hlive)
        refine iff_of_false (fun h => ?_) ?_
        · exact absurd (hon.symm.trans h.1) Bool.true_eq_false.mp
        · rintro (h | ⟨m, hm, hm', -⟩)
          · cases h
          · cases hm
            exact hm' ha
    case neg =>
      have hon : (f.table cfg i).occupied = true := (NodeIdx.occupied_of_ident hident).mpr ha
      have hlive := liveAddrOf_last hlast ha
      have hfile : NodeIdx.occupied { NodeIdx.default with addr := n.addr } = true :=
        NodeIdx.occupied_iff.mpr ha
      rw [hlive, hon, hident]
      constructor
      · rintro ⟨-, h⟩
        obtain ⟨-, he⟩ := Prod.mk.inj (h rfl)
        obtain ⟨he, hr⟩ := Prod.mk.inj he
        obtain ⟨hr, hp⟩ := Prod.mk.inj hr
        exact .inr ⟨n, rfl, ha, he.symm, hr.symm, hp.symm⟩
      · rintro (h | ⟨m, hm, -, he, hr, hp⟩)
        · cases h
        · cases hm
          refine ⟨hfile, fun _ => ?_⟩
          unfold Node.ident
          rw [he, hr, hp]
          rfl

/-- A load that writes no entry of its own choice leaves the others. -/
lemma foldl_untouched {step : Table NodeIdx → Node → Table NodeIdx}
    (h : ∀ t, ∀ n ∈ recs, step t n i = t i) (t : Table NodeIdx) : recs.foldl step t i = t i := by
  induction recs generalizing t with
  | nil => rfl
  | cons n recs ih =>
    rw [List.foldl_cons, ih fun t m hm => h t m (List.mem_cons_of_mem n hm)]
    exact h t n List.mem_cons_self

end

/-- The back ends agree on a log exactly when every index is plain. -/
theorem backendsAgree_iff {longMax : Nat} (hlong : 2 ^ 31 - 1 ≤ longMax) {f : Fcb}
    (hrecs : ∀ n ∈ f.records, n.Sized) (hsize : (savedFile f.records).length < 2 ^ 32) (cfg : Syscfg)
    (tmpnode : Node) : BackendsAgree cfg longMax tmpnode f ↔ Plain cfg f.records :=
  forall₂_congr fun _ hi => entryAgrees_iff hlong hrecs hsize (le_of_lt hi)

/-- A log of a node that names nothing but its address, and of one that is deleted. -/
def plainLog : Fcb where
  older := []
  active := [⟨{ Node.zero with index := 1, addr := 0x1234 }, true⟩,
    ⟨{ Node.zero with index := 2, addr := 0xffff, euid := 0xA }, true⟩]

/-- A log of plain records. -/
theorem backendsAgree_plain : BackendsAgree .dflt (2 ^ 31 - 1) .zero plainLog := by
  have hrecs : ∀ n ∈ plainLog.records, n.Sized := by
    intro n hn
    rcases List.mem_cons.mp hn with rfl | hn
    · constructor <;> decide
    · rw [List.mem_singleton.mp hn]
      constructor <;> decide
  refine (backendsAgree_iff le_rfl hrecs (by decide +kernel) .dflt .zero).mpr ?_
  unfold Plain
  decide

/-- A node with an euid and a role. -/
theorem backendsAgree_fails :
    ¬ ∀ f : Fcb, (∀ n ∈ f.records, n.Sized) → BackendsAgree .dflt (2 ^ 31 - 1) .zero f := by
  intro h
  have hone := h ⟨[], [⟨ordinaryNode, true⟩]⟩ (by
    intro n hn
    rw [List.mem_singleton.mp hn]
    exact ordinaryNode_sized)
  revert hone
  unfold BackendsAgree
  decide +kernel

/-! ## The bound of the index -/

/-- A load whose callback writes the entries up to a bound is framed exactly when nothing is written at
    the bound. -/
lemma framed_iff (cfg : Syscfg) (recs : List Node) {step : Table NodeIdx → Node → Table NodeIdx}
    (P : Node → Prop)
    (hkeep : ∀ t n i, (n.index = i → ¬P n ∨ cfg.maxnumNodes < i) → step t n i = t i)
    (hwrite : (∃ n ∈ recs, n.index = cfg.maxnumNodes ∧ P n) →
      ∃ t, recs.foldl step t cfg.maxnumNodes ≠ t cfg.maxnumNodes) :
    LoadFramed cfg recs (recs.foldl step) ↔ ∀ n ∈ recs, n.index = cfg.maxnumNodes → ¬P n := by
  constructor
  · intro h n hn he hP
    obtain ⟨t, ht⟩ := hwrite ⟨n, hn, he, hP⟩
    exact ht (h t cfg.maxnumNodes (.inl le_rfl))
  · intro h t i hi
    refine foldl_untouched (fun t n hn => hkeep t n i fun he => ?_) t
    rcases hi with hi | hi
    · rcases hi.lt_or_eq with hlt | heq
      · exact .inr hlt
      · exact .inl (h n hn (he.trans heq.symm))
    · exact absurd he (hi n hn)

end UwbCore.Panmaster
