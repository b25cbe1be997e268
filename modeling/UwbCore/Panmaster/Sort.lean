import UwbCore.Panmaster.Load

/-!
# Sorting the node log

`panm_fcb_sort` reads the newest record of every index, erases the log and writes the live records
back by ascending address, each with its position as index (`panmFcbSort_records`). The log is taken
as append-only while that happens.
-/

namespace UwbCore.Panmaster
open UwbCore.Lib

/-- Every save puts its record behind the log as it is. -/
def AppendOnly (lib : FcbLib) (stale : ImageVersion) : Prop :=
  ∀ f n, (panmFcbSave lib stale f n).records = f.records ++ [n]

/-- With room for every record nothing is lost. -/
lemma AppendOnly.of_spare {lib : FcbLib} (hroom : ∀ n, lib.spare n = true) (stale : ImageVersion) :
    AppendOnly lib stale := fun f n => panmFcbSave_records hroom stale f n

/-- The records `panm_fcb_sort` holds in memory. -/
def sortNodes (cfg : Syscfg) (f : Fcb) : Table Node :=
  f.records.foldl (sortNodesLoadCb cfg) fun _ => .ones

/-- The records of the entries `order`, numbered from `index` on. -/
def renumber (nodes : Table Node) : Nat → List Nat → List Node
  | _, [] => []
  | index, i :: order =>
    { nodes i with index := index % 2 ^ 8 } :: renumber nodes (index + 1) order

variable {cfg : Syscfg} {nodes nodes' : Table Node}

/-- Only the nodes in the order matter. -/
lemma renumber_congr {order : List Nat} (h : ∀ i ∈ order, nodes i = nodes' i) (index : Nat) :
    renumber nodes index order = renumber nodes' index order := by
  induction order generalizing index with
  | nil => rfl
  | cons i order ih =>
    rw [renumber, renumber, h i (by simp), ih fun j hj => h j (List.mem_cons_of_mem i hj)]

/-- A node of the order gets its place as number. -/
lemma renumber_getElem? (order : List Nat) (index p : Nat) :
    (renumber nodes index order)[p]? =
      order[p]?.map fun i => { nodes i with index := (index + p) % 2 ^ 8 } := by
  induction order generalizing index p with
  | nil => rfl
  | cons i order ih =>
    cases p with
    | zero => rfl
    | succ p =>
      rw [renumber, List.getElem?_cons_succ, List.getElem?_cons_succ, ih,
        Nat.add_assoc, Nat.add_comm 1 p]

/-- The newest record of an index is the one held in memory. -/
lemma sortNodes_apply (cfg : Syscfg) (f : Fcb) {i : Nat} (hi : i < cfg.maxnumNodes) :
    sortNodes cfg f i = (lastWrite (ofKey Node.index i) f.records).getD .ones := by
  rw [sortNodes]
  generalize f.records = l
  induction l using List.reverseRecOn with
  | nil => rfl
  | append_singleton l n ih =>
    rw [List.foldl_append, List.foldl_cons, List.foldl_nil, lastWrite_concat, sortNodesLoadCb, ofKey]
    by_cases hn : n.index = i
    · subst hn
      rw [if_pos hi, if_pos rfl, Table.modify_self]
      rfl
    · rw [if_neg hn, Option.none_or, ← ih]
      split
      · rw [Table.modify_of_ne _ _ (Ne.symm hn)]
      · rfl

/-- The search ends at the first entry of the lowest address below 0xffff, if there is one. -/
lemma lowestAddr_spec (cfg : Syscfg) (nodes : Table Node) :
    (lowestAddr cfg nodes).1 ≤ 0xffff ∧
      (∀ i < cfg.maxnumNodes, (lowestAddr cfg nodes).1 ≤ (nodes i).addr ∨
        0xffff ≤ (nodes i).addr) ∧
      ((lowestAddr cfg nodes).1 ≠ 0xffff → (lowestAddr cfg nodes).2 < cfg.maxnumNodes ∧
        (nodes (lowestAddr cfg nodes).2).addr = (lowestAddr cfg nodes).1 ∧
        ∀ i < (lowestAddr cfg nodes).2, (lowestAddr cfg nodes).1 < (nodes i).addr) := by
  rw [lowestAddr]
  induction cfg.maxnumNodes with
  | zero => exact ⟨le_rfl, fun i hi => absurd hi (Nat.not_lt_zero i), fun h => absurd rfl h⟩
  | succ n ih =>
    rw [List.range_succ, List.foldl_append, List.foldl_cons, List.foldl_nil]
    generalize (List.range n).foldl (fun best i =>
      if (nodes i).addr = 0xffff then best
      else if (nodes i).addr < best.1 then ((nodes i).addr, i) else best) (0xffff, 0) = best at ih ⊢
    obtain ⟨hle, hmin, hat⟩ := ih
    have hkeep : best.1 ≤ (nodes n).addr ∨ 0xffff ≤ (nodes n).addr →
        best.1 ≤ 0xffff ∧ (∀ i < n + 1, best.1 ≤ (nodes i).addr ∨ 0xffff ≤ (nodes i).addr) ∧
          (best.1 ≠ 0xffff → best.2 < n + 1 ∧ (nodes best.2).addr = best.1 ∧
            ∀ i < best.2, best.1 < (nodes i).addr) := by
      intro hn
      refine ⟨hle, fun i hi => ?_, fun h => ⟨Nat.lt_succ_of_lt (hat h).1, (hat h).2⟩⟩
      rcases Nat.lt_succ_iff_lt_or_eq.mp hi with hi | rfl
      · exact hmin i hi
      · exact hn
    by_cases h1 : (nodes n).addr = 0xffff
    · rw [if_pos h1]
      exact hkeep (.inr h1.ge)
    · by_cases h2 : (nodes n).addr < best.1
      · rw [if_neg h1, if_pos h2]
        refine ⟨(h2.trans_le hle).le, fun i hi => ?_, fun _ => ⟨Nat.lt_succ_self n, rfl,
          fun i hi => ?_⟩⟩
        · rcases Nat.lt_succ_iff_lt_or_eq.mp hi with hi | rfl
          · exact (hmin i hi).imp_left h2.le.trans
          · exact .inl le_rfl
        · rcases hmin i hi with hi | hi
          · exact h2.trans_le hi
          · exact (h2.trans_le hle).trans_le hi
      · rw [if_neg h1, if_neg h2]
        exact hkeep (.inl (Nat.le_of_not_lt h2))

/-- The live entries of a table. -/
def liveIdx (cfg : Syscfg) (nodes : Table Node) : Finset Nat :=
  (Finset.range cfg.maxnumNodes).filter fun i => (nodes i).addr < 0xffff

/-- The live nodes are those with an address. -/
lemma mem_liveIdx {i : Nat} :
    i ∈ liveIdx cfg nodes ↔ i < cfg.maxnumNodes ∧ (nodes i).addr < 0xffff := by
  rw [liveIdx, Finset.mem_filter, Finset.mem_range]

/-- The order of the entries: by address, and by place where the addresses are equal. -/
def Lower (nodes : Table Node) (i j : Nat) : Prop :=
  (nodes i).addr < (nodes j).addr ∨ (nodes i).addr = (nodes j).addr ∧ i < j

/-- The saving loop writes each live entry once, in order. -/
lemma sortSave_order (save : Fcb → Node → Fcb) (n index : Nat)
    (nodes : Table Node) (f : Fcb) (hn : (liveIdx cfg nodes).card ≤ n) :
    ∃ order : List Nat, order.Nodup ∧ (∀ i, i ∈ order ↔ i ∈ liveIdx cfg nodes) ∧
      order.Pairwise (Lower nodes) ∧
      sortSave cfg save n index nodes f = (renumber nodes index order).foldl save f := by
  induction n generalizing index nodes f with
  | zero =>
    have hemp : liveIdx cfg nodes = ∅ := Finset.card_eq_zero.mp (Nat.le_zero.mp hn)
    exact ⟨[], List.nodup_nil, by simp [hemp], List.Pairwise.nil, rfl⟩
  | succ n ih =>
    obtain ⟨hle, hmin, hat⟩ := lowestAddr_spec cfg nodes
    rw [sortSave]
    generalize lowestAddr cfg nodes = best at hle hmin hat
    obtain ⟨laddr, i⟩ := best
    simp only at hle hmin hat ⊢
    by_cases hend : laddr = 0xffff
    · rw [if_pos hend]
      refine ⟨[], List.nodup_nil, fun j => ?_, List.Pairwise.nil, rfl⟩
      rw [mem_liveIdx]
      refine ⟨fun h => absurd h List.not_mem_nil, fun ⟨hj, hlive⟩ => ?_⟩
      have := hmin j hj
      omega
    · rw [if_neg hend]
      obtain ⟨hi, haddr, hfirst⟩ := hat hend
      have hilive : i ∈ liveIdx cfg nodes := mem_liveIdx.mpr ⟨hi, by omega⟩
      -- the entry just written is live no more
      have hlive : ∀ j, j ∈ liveIdx cfg (nodes.modify i fun x =>
          { x with index := index % 2 ^ 8, addr := 0xffff }) ↔ j ∈ (liveIdx cfg nodes).erase i := by
        intro j
        rw [Finset.mem_erase, mem_liveIdx, mem_liveIdx, Table.modify_apply]
        by_cases hj : j = i
        · simp [hj]
        · simp [hj]
      have hcard : (liveIdx cfg (nodes.modify i fun x =>
          { x with index := index % 2 ^ 8, addr := 0xffff })).card ≤ n := by
        rw [Finset.ext hlive, Finset.card_erase_of_mem hilive]
        omega
      obtain ⟨order, hnd, hmem, hpw, hrun⟩ := ih (index + 1) _
        (save f { nodes i with index := index % 2 ^ 8 }) hcard
      have hne : ∀ j ∈ order, j ≠ i := fun j hj =>
        (Finset.mem_erase.mp ((hlive j).mp ((hmem j).mp hj))).1
      have hsame : ∀ j ∈ order, (nodes.modify i fun x =>
          { x with index := index % 2 ^ 8, addr := 0xffff }) j = nodes j := fun j hj =>
        Table.modify_of_ne _ _ (hne j hj)
      refine ⟨i :: order, List.nodup_cons.mpr ⟨fun h => hne i h rfl, hnd⟩, fun j => ?_, ?_, ?_⟩
      · rw [List.mem_cons, hmem, hlive, Finset.mem_erase]
        by_cases hj : j = i
        · simp [hj, hilive]
        · simp [hj]
      · refine List.pairwise_cons.mpr ⟨fun j hj => ?_, ?_⟩
        · have hjl := mem_liveIdx.mp (Finset.mem_of_mem_erase ((hlive j).mp ((hmem j).mp hj)))
          have hij := hne j hj
          have hjmin := hmin j hjl.1
          have hjfirst := hfirst j
          unfold Lower
          omega
        · refine hpw.imp_of_mem fun ha hb h => ?_
          unfold Lower at h ⊢
          rwa [hsame _ ha, hsame _ hb] at h
      · rw [hrun, renumber, renumber_congr hsame, List.foldl_cons]

/-- The log is erased and the live records are saved in order (C `panm_fcb_sort`). -/
lemma panmFcbSort_order (cfg : Syscfg) (lib : FcbLib) (stale : ImageVersion) (f : Fcb) :
    ∃ order : List Nat, order.Nodup ∧ (∀ i, i ∈ order ↔ i ∈ liveIdx cfg (sortNodes cfg f)) ∧
      order.Pairwise (Lower (sortNodes cfg f)) ∧
      panmFcbSort cfg lib stale f =
        (renumber (sortNodes cfg f) 0 order).foldl (panmFcbSave lib stale) .empty := by
  have hcard : (liveIdx cfg (sortNodes cfg f)).card ≤ cfg.maxnumNodes := by
    refine (Finset.card_filter_le _ _).trans ?_
    rw [Finset.card_range]
  exact sortSave_order (panmFcbSave lib stale) cfg.maxnumNodes 0 (sortNodes cfg f) .empty hcard

/-- Several records are added. -/
lemma AppendOnly.foldl_records {lib : FcbLib} {stale : ImageVersion} (happ : AppendOnly lib stale)
    (l : List Node) (f : Fcb) : (l.foldl (panmFcbSave lib stale) f).records = f.records ++ l := by
  induction l generalizing f with
  | nil => exact (List.append_nil _).symm
  | cons n l ih => rw [List.foldl_cons, ih, happ, List.append_assoc, List.singleton_append]

/-- The log after a sort. -/
lemma panmFcbSort_records {lib : FcbLib} {stale : ImageVersion} (happ : AppendOnly lib stale)
    (cfg : Syscfg) (f : Fcb) :
    ∃ order : List Nat, order.Nodup ∧ (∀ i, i ∈ order ↔ i ∈ liveIdx cfg (sortNodes cfg f)) ∧
      order.Pairwise (Lower (sortNodes cfg f)) ∧
      (panmFcbSort cfg lib stale f).records = renumber (sortNodes cfg f) 0 order := by
  obtain ⟨order, hnd, hmem, hpw, hrun⟩ := panmFcbSort_order cfg lib stale f
  refine ⟨order, hnd, hmem, hpw, ?_⟩
  rw [hrun, happ.foldl_records]
  rfl

end UwbCore.Panmaster
