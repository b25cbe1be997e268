import UwbCore.Panmaster.Fcb

/-!
# Loading the node log

What `panm_fcb_load_idx` makes of a log: every entry takes the identity of the newest record that
names it, and the slot of the newest permanent one.
-/

namespace UwbCore.Panmaster
open UwbCore.Lib

/-- The most recent record of an euid. -/
def Fcb.latest (f : Fcb) (euid : Nat) : Option Node := lastWrite (ofKey Node.euid euid) f.records

/-- The table loaded from the log into a default one. -/
def Fcb.table (cfg : Syscfg) (f : Fcb) : Table NodeIdx := panmFcbLoadIdx cfg f fun _ => .default

/-- Address, euid, role and permanence of an index entry. -/
def NodeIdx.ident (e : NodeIdx) : Nat × Nat × Nat × Bool := (e.addr, e.euid, e.role, e.hasPermSlot)

/-- The same of a record. -/
def Node.ident (n : Node) : Nat × Nat × Nat × Bool := (n.addr, n.euid, n.role, n.hasPermSlot)

/-- An entry is occupied if its record has an address. -/
lemma NodeIdx.occupied_of_ident {e : NodeIdx} {n : Node} (h : e.ident = n.ident) :
    e.occupied = true ↔ n.addr ≠ 0xffff := by
  rw [NodeIdx.occupied_iff, (Prod.mk.inj h).1]

/-- The same identity is as much occupied. -/
lemma NodeIdx.occupied_congr {e e' : NodeIdx} (h : e.ident = e'.ident) :
    e.occupied = e'.occupied := by
  rw [NodeIdx.occupied, NodeIdx.occupied, (Prod.mk.inj h).1]

/-- What a load takes from a record that names entry `i`. -/
def identOf (i : Nat) (n : Node) : Option (Nat × Nat × Nat × Bool) :=
  if n.index = i then some n.ident else none

/-- The slot of a record that names entry `i` and holds its slot for good. -/
def permSlotOf (i : Nat) (n : Node) : Option Nat :=
  if n.index = i ∧ n.hasPermSlot = true then some n.slotId else none

/-- The identity of an entry that no record names. -/
def defaultIdent : Nat × Nat × Nat × Bool := NodeIdx.default.ident

/-- The default entry with given fields. -/
def NodeIdx.ofIdent (ident : Nat × Nat × Nat × Bool) (slotId : Nat) : NodeIdx :=
  { NodeIdx.default with
    addr := ident.1, euid := ident.2.1, role := ident.2.2.1, hasPermSlot := ident.2.2.2
    slotId := slotId }

/-- An entry is told by its identity and its slot. -/
lemma NodeIdx.ofIdent_inj {a b : Nat × Nat × Nat × Bool} {c d : Nat} :
    NodeIdx.ofIdent a c = NodeIdx.ofIdent b d ↔ a = b ∧ c = d := by
  obtain ⟨a1, a2, a3, a4⟩ := a
  obtain ⟨b1, b2, b3, b4⟩ := b
  simp only [NodeIdx.ofIdent, NodeIdx.mk.injEq, Prod.mk.injEq, and_true]
  tauto

/-- A loaded entry holds the newest identity and the newest permanent slot that name it
    (C `panm_fcb_load_idx`). -/
lemma loadIdx_default (cfg : Syscfg) (l : List Node) {i : Nat} (hi : i ≤ cfg.maxnumNodes) :
    l.foldl (nodeIdxLoadCb cfg) (fun _ => .default) i =
      .ofIdent ((lastWrite (identOf i) l).getD defaultIdent)
        ((lastWrite (permSlotOf i) l).getD 0xffff) := by
  induction l using List.reverseRecOn with
  | nil => rfl
  | append_singleton l n ih =>
    rw [List.foldl_append, List.foldl_cons, List.foldl_nil, lastWrite_concat, lastWrite_concat,
      nodeIdxLoadCb]
    by_cases hn : n.index = i
    · subst hn
      rw [if_pos hi, Table.modify_self, ih, identOf, permSlotOf, if_pos rfl]
      cases hp : n.hasPermSlot <;> simp [NodeIdx.load, NodeIdx.ofIdent, NodeIdx.default,
        NodeIdx.setDefault, Node.ident, hp]
    · have hother : ∀ t : Table NodeIdx,
          (if n.index ≤ cfg.maxnumNodes then t.modify n.index fun e => e.load n else t) i = t i := by
        intro t
        split
        · exact Table.modify_of_ne _ _ (Ne.symm hn)
        · rfl
      rw [hother, ih, identOf, permSlotOf, if_neg hn, if_neg fun h => hn h.1, Option.none_or,
        Option.none_or]

/-- An entry of the table from the last records for it. -/
lemma Fcb.table_apply (cfg : Syscfg) (f : Fcb) {i : Nat} (hi : i ≤ cfg.maxnumNodes) :
    f.table cfg i = .ofIdent ((lastWrite (identOf i) f.records).getD defaultIdent)
      ((lastWrite (permSlotOf i) f.records).getD 0xffff) := loadIdx_default cfg f.records hi

/-- Every load writes the same identities, and keeps those no record names. -/
lemma loadIdx_ident (cfg : Syscfg) (t : Table NodeIdx) (l : List Node) {i : Nat}
    (hi : i ≤ cfg.maxnumNodes) :
    (l.foldl (nodeIdxLoadCb cfg) t i).ident = (lastWrite (identOf i) l).getD (t i).ident := by
  induction l using List.reverseRecOn with
  | nil => rfl
  | append_singleton l n ih =>
    rw [List.foldl_append, List.foldl_cons, List.foldl_nil, lastWrite_concat, nodeIdxLoadCb]
    by_cases hn : n.index = i
    · subst hn
      rw [if_pos hi, Table.modify_self, identOf, if_pos rfl]
      rfl
    · rw [identOf, if_neg hn, Option.none_or, ← ih]
      split
      · rw [Table.modify_of_ne _ _ (Ne.symm hn)]
      · rfl

/-- Its identity. -/
lemma Fcb.table_ident (cfg : Syscfg) (f : Fcb) {i : Nat} (hi : i ≤ cfg.maxnumNodes) :
    (f.table cfg i).ident = (lastWrite (identOf i) f.records).getD defaultIdent :=
  loadIdx_ident cfg _ f.records hi

/-- The identity loaded is that of the newest record with the index. -/
lemma identOf_ofKey (i : Nat) (l : List Node) :
    lastWrite (identOf i) l = (lastWrite (ofKey Node.index i) l).map Node.ident := by
  rw [← lastWrite_map]
  congr 1
  funext n
  rw [identOf, ofKey]
  split <;> rfl

/-- The search for an euid other than 0 finds its most recent record. -/
lemma panmFcbFindNode_latest (f : Fcb) {euid : Nat} (h : euid ≠ 0) :
    panmFcbFindNode f (findEuid euid) = f.latest euid := by
  rw [panmFcbFindNode_findEuid, Fcb.latest]
  congr 1
  funext n
  rw [byEuid, ofKey]
  by_cases he : n.euid = euid
  · rw [if_pos he, if_pos (by simp [h, he])]
  · rw [if_neg he, if_neg (by simp [Ne.symm he])]

/-- The search for the euid 0 finds nothing. -/
lemma panmFcbFindNode_zero (f : Fcb) : panmFcbFindNode f (findEuid 0) = none := by
  rw [panmFcbFindNode_findEuid, lastWrite_eq_none]
  intro n _
  rfl

end UwbCore.Panmaster
