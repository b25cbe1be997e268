import UwbCore.Panmaster.AgreeInv

/-!
# Store and table

A sort that reloads the log keeps the agreement of store and table, and with the other events it holds in every
run (`storeAgrees_of_guarded`).
-/

namespace UwbCore.Panmaster
open UwbCore.Lib

variable {cfg : Syscfg} {lib : FcbLib} {stale : ImageVersion} {s s' : State Fcb}

/-! ## A log reloaded over the table -/

/-- A log of live records with distinct indices and euids, loaded over a table all of whose
    occupied entries it names. -/
lemma TableInv.reload {t : Table NodeIdx} {f : Fcb}
    (hidx : ∀ n ∈ f.records, n.index < cfg.maxnumNodes) (hlive : ∀ n ∈ f.records, n.addr < 0xffff)
    (hinj : ∀ n ∈ f.records, ∀ m ∈ f.records, n.index = m.index → n = m)
    (heuid : ∀ n ∈ f.records, ∀ m ∈ f.records, n.euid = m.euid → n.euid ≠ 0 → n = m)
    (hold : ∀ i < cfg.maxnumNodes, (t i).occupied = true → ∃ n ∈ f.records, n.index = i)
    (hle : ∀ i < cfg.maxnumNodes, (t i).addr ≤ 0xffff) :
    TableInv cfg (panmFcbLoadIdx cfg f t) f := by
  have hnamed : ∀ n ∈ f.records, lastWrite (identOf n.index) f.records = some n.ident := by
    intro n hn
    refine lastWrite_unique hn (by rw [identOf, if_pos rfl]) fun m hm w hw => ?_
    rw [identOf] at hw
    split at hw
    case isTrue he =>
      cases hw
      rw [hinj m hm n hn he]
    case isFalse => cases hw
  have hload : ∀ n ∈ f.records, (panmFcbLoadIdx cfg f t n.index).ident = n.ident := by
    intro n hn
    rw [panmFcbLoadIdx, loadIdx_ident cfg t _ (hidx n hn).le, hnamed n hn, Option.getD_some]
  have htable : ∀ n ∈ f.records, (f.table cfg n.index).ident = n.ident := by
    intro n hn
    rw [Fcb.table_ident cfg f (hidx n hn).le, hnamed n hn, Option.getD_some]
  have hocc : ∀ n ∈ f.records, (panmFcbLoadIdx cfg f t n.index).occupied = true := fun n hn =>
    (NodeIdx.occupied_of_ident (hload n hn)).mpr (hlive n hn).ne
  have hunnamed : ∀ i < cfg.maxnumNodes, (∀ n ∈ f.records, n.index ≠ i) →
      lastWrite (identOf i) f.records = none := by
    intro i _ hno
    rw [lastWrite_eq_none]
    intro n hn
    rw [identOf, if_neg (hno n hn)]
  -- an entry is occupied afterwards if and only if a record names it
  have hiff : ∀ i < cfg.maxnumNodes, (panmFcbLoadIdx cfg f t i).occupied = true →
      ∃ n ∈ f.records, n.index = i := by
    intro i hi oi
    by_contra hno
    have hno' : ∀ n ∈ f.records, n.index ≠ i := fun n hn he => hno ⟨n, hn, he⟩
    have hsame : (panmFcbLoadIdx cfg f t i).ident = (t i).ident := by
      rw [panmFcbLoadIdx, loadIdx_ident cfg t _ hi.le, hunnamed i hi hno', Option.getD_none]
    exact hno (hold i hi (NodeIdx.occupied_congr hsame ▸ oi))
  refine ⟨fun i hi oi => ?_, fun i hi oi => ?_, fun i hi oi h0 => ?_, fun euid h0 n hn => ?_,
    fun i hi => ?_⟩
  · obtain ⟨n, hn, rfl⟩ := hiff i hi oi
    rw [hload n hn, htable n hn]
  · have hno : ∀ n ∈ f.records, n.index ≠ i := by
      rintro n hn rfl
      rw [hocc n hn] at oi
      cases oi
    have hdef : (f.table cfg i).ident = NodeIdx.default.ident := by
      rw [Fcb.table_ident cfg f hi.le, hunnamed i hi hno]
      rfl
    rw [NodeIdx.occupied_congr hdef]
    rfl
  · obtain ⟨n, hn, rfl⟩ := hiff i hi oi
    obtain ⟨ha, hb⟩ := Prod.mk.inj (hload n hn)
    have he : (panmFcbLoadIdx cfg f t n.index).euid = n.euid := (Prod.mk.inj hb).1
    rw [he] at h0 ⊢
    refine ⟨n, lastWrite_unique hn (by rw [ofKey, if_pos rfl]) fun m hm w hw => ?_, rfl, ha.symm⟩
    rw [ofKey] at hw
    split at hw
    case isTrue hme =>
      cases hw
      exact (heuid n hn m hm hme.symm h0).symm
    case isFalse => cases hw
  · obtain ⟨m, hm, hq⟩ := lastWrite_mem hn
    rw [ofKey] at hq
    split at hq
    case isTrue he =>
      cases hq
      exact .inr ⟨hidx n hm, hocc n hm, (Prod.mk.inj (Prod.mk.inj (hload n hm)).2).1.trans he⟩
    case isFalse => cases hq
  · by_cases hex : ∃ n ∈ f.records, n.index = i
    · obtain ⟨n, hn, rfl⟩ := hex
      rw [(Prod.mk.inj (hload n hn)).1]
      exact (hlive n hn).le
    · have hno : ∀ n ∈ f.records, n.index ≠ i := fun n hn he => hex ⟨n, hn, he⟩
      have hsame : (panmFcbLoadIdx cfg f t i).ident = (t i).ident := by
        rw [panmFcbLoadIdx, loadIdx_ident cfg t _ hi.le, hunnamed i hi hno, Option.getD_none]
      rw [(Prod.mk.inj hsame).1]
      exact hle i hi

/-- The records a sort holds in memory are those of the occupied entries. -/
lemma TableInv.sortNodes_live (h : TableInv cfg s.nodeIdx s.store) {i : Nat} :
    i ∈ liveIdx cfg (sortNodes cfg s.store) ↔
      i < cfg.maxnumNodes ∧ (s.nodeIdx i).occupied = true := by
  rw [mem_liveIdx]
  refine and_congr_right fun hi => ?_
  have htable := Fcb.table_ident cfg s.store hi.le
  rw [sortNodes_apply cfg _ hi]
  rw [identOf_ofKey] at htable
  cases hn : lastWrite (ofKey Node.index i) s.store.records with
  | none =>
    rw [hn] at htable
    refine ⟨fun hlt => absurd hlt (by decide), fun oi => ?_⟩
    rw [← NodeIdx.occupied_congr (h.agree i hi oi), NodeIdx.occupied_congr htable] at oi
    cases oi
  | some n =>
    rw [hn] at htable
    simp only [Option.map_some, Option.getD_some] at htable ⊢
    constructor
    · intro hlt
      by_contra ho
      have hfree := h.free i hi (by simpa using ho)
      rw [← Bool.not_eq_true, NodeIdx.occupied_of_ident htable, not_not] at hfree
      omega
    · intro oi
      have hsame := (Prod.mk.inj (htable.symm.trans (h.agree i hi oi))).1
      have hne := NodeIdx.occupied_iff.mp oi
      have hle := h.addr_le i hi
      omega

/-- Each carries the identity of its entry. -/
lemma TableInv.sortNodes_ident (h : TableInv cfg s.nodeIdx s.store) {i : Nat}
    (hi : i ∈ liveIdx cfg (sortNodes cfg s.store)) :
    (sortNodes cfg s.store i).ident = (s.nodeIdx i).ident := by
  obtain ⟨hi', oi⟩ := h.sortNodes_live.mp hi
  have hlt := (mem_liveIdx.mp hi).2
  have htable := Fcb.table_ident cfg s.store hi'.le
  rw [sortNodes_apply cfg _ hi'] at hlt ⊢
  rw [identOf_ofKey] at htable
  cases hn : lastWrite (ofKey Node.index i) s.store.records with
  | none =>
    rw [hn] at hlt
    exact absurd hlt (by decide)
  | some n =>
    rw [hn] at htable
    exact htable.symm.trans (h.agree i hi' oi)

/-- Sorting. -/
lemma StoreInv.sort (hN : cfg.maxnumNodes ≤ 255) (happ : AppendOnly lib stale) (h : StoreInv cfg s)
    (g : OccupiedFirst cfg s.nodeIdx) : StoreInv cfg (storeStep cfg lib stale s .sort) := by
  obtain ⟨order, hnd, hmem, -, hrec⟩ := panmFcbSort_records happ cfg s.store
  have hsub : ∀ i ∈ order, i < cfg.maxnumNodes := fun i hi =>
    (h.table.sortNodes_live.mp ((hmem i).mp hi)).1
  have hlen : order.length ≤ cfg.maxnumNodes := by
    rw [← List.toFinset_card_of_nodup hnd, ← Finset.card_range cfg.maxnumNodes]
    refine Finset.card_le_card fun i hi => ?_
    exact Finset.mem_range.mpr (hsub i (List.mem_toFinset.mp hi))
  -- the record at position `p` is the one of entry `order[p]`, numbered `p`
  have hpos : ∀ n ∈ (panmFcbSort cfg lib stale s.store).records, ∃ p i, order[p]? = some i ∧
      n = { sortNodes cfg s.store i with index := p } ∧ p < order.length := by
    intro n hn
    rw [hrec] at hn
    obtain ⟨p, hp⟩ := List.mem_iff_getElem?.mp hn
    rw [renumber_getElem?, Option.map_eq_some_iff] at hp
    obtain ⟨i, hi, rfl⟩ := hp
    obtain ⟨hlt, -⟩ := List.getElem?_eq_some_iff.mp hi
    have hmod : (0 + p) % 2 ^ 8 = p := by omega
    exact ⟨p, i, hi, by rw [hmod], hlt⟩
  refine ⟨h.idle, TableInv.reload ?_ ?_ ?_ ?_ ?_ h.table.addr_le⟩
  · intro n hn
    obtain ⟨p, i, -, rfl, hp⟩ := hpos n hn
    exact hp.trans_le hlen
  · intro n hn
    obtain ⟨p, i, hi, rfl, -⟩ := hpos n hn
    exact (mem_liveIdx.mp ((hmem i).mp (List.mem_of_getElem? hi))).2
  · intro n hn m hm he
    obtain ⟨p, i, hi, rfl, -⟩ := hpos n hn
    obtain ⟨p', j, hj, rfl, -⟩ := hpos m hm
    obtain rfl : p = p' := he
    rw [hi] at hj
    cases hj
    rfl
  · intro n hn m hm he h0
    obtain ⟨p, i, hi, rfl, hp⟩ := hpos n hn
    obtain ⟨p', j, hj, rfl, -⟩ := hpos m hm
    have hil := (hmem i).mp (List.mem_of_getElem? hi)
    have hjl := (hmem j).mp (List.mem_of_getElem? hj)
    have hie := (Prod.mk.inj (Prod.mk.inj (h.table.sortNodes_ident hil)).2).1
    have hje := (Prod.mk.inj (Prod.mk.inj (h.table.sortNodes_ident hjl)).2).1
    obtain ⟨hi', oi⟩ := h.table.sortNodes_live.mp hil
    obtain ⟨hj', oj⟩ := h.table.sortNodes_live.mp hjl
    have hij : i = j := h.table.euid_inj hi' hj' oi oj (hie.symm.trans (he.trans hje)) (hie ▸ h0)
    subst hij
    have hpp : p = p' := (List.getElem?_inj hp hnd).mp (hi.trans hj.symm)
    rw [hpp]
  · intro j hj oj
    -- entries 0 to `j` are all written back, so a record has number `j`
    have hjlen : j < order.length := by
      have hall : Finset.range (j + 1) ⊆ order.toFinset := by
        intro i hi
        have hij := Nat.lt_succ_iff_lt_or_eq.mp (Finset.mem_range.mp hi)
        rw [List.mem_toFinset, hmem, h.table.sortNodes_live]
        rcases hij with hij | rfl
        · exact ⟨hij.trans hj, g j hj oj i hij⟩
        · exact ⟨hj, oj⟩
      have hcard := Finset.card_le_card hall
      rw [Finset.card_range, List.toFinset_card_of_nodup hnd] at hcard
      exact hcard
    have hmod : (0 + j) % 2 ^ 8 = j := by omega
    refine ⟨{ sortNodes cfg s.store order[j] with index := j }, ?_, rfl⟩
    rw [hrec, List.mem_iff_getElem?]
    refine ⟨j, ?_⟩
    rw [renumber_getElem?, List.getElem?_eq_getElem hjlen, Option.map_some, hmod]

/-- One step. -/
lemma StoreInv.step (hN : cfg.maxnumNodes ≤ 255) (happ : AppendOnly lib stale) (h : StoreInv cfg s)
    {e : StoreEvent} (g : StoreGuard cfg stale s e) :
    StoreInv cfg (storeStep cfg lib stale s e) := by
  cases e with
  | request tv utc euid request buf => exact h.request hN happ g
  | addNode utc shortAddr euid => exact h.addNode hN happ g
  | deleteNode euid => exact h.deleteNode happ euid
  | sort => exact h.sort hN happ g
  | compress => exact ⟨h.idle, h.table.keeps (CompressSafe.keeps g)⟩

/-- The empty table. -/
lemma StoreInv.init (panId : Nat) : StoreInv cfg (State.init .empty panId) := by
  refine ⟨fun _ _ => rfl, fun i _ oi => ?_, fun i _ _ => rfl, fun i _ oi => ?_, fun _ _ n hn => ?_,
    fun i _ => le_rfl⟩
  · cases oi
  · cases oi
  · cases hn

/-! ## Agreement -/

/-- In a run of guarded steps from the default table and an empty log, loading the store always
    gives the live table. -/
theorem storeAgrees_of_guarded (hN : cfg.maxnumNodes ≤ 255) (happ : AppendOnly lib stale)
    (panId : Nat)
    (rch : Reach (storeStep cfg lib stale) (StoreGuard cfg stale) (.init .empty panId) s) :
    StoreAgrees cfg s :=
  (rch.invariant (P := StoreInv cfg) (.init panId) fun _ _ h g => h.step hN happ g).table.agrees

/-- Two nodes join in the reverse order of their addresses, the log is sorted, one node leaves. -/
def joinSortLeave : List StoreEvent :=
  [.request ⟨1, 0⟩ 0 0x102 ⟨1, 20, .zero⟩ .same, .request ⟨2, 0⟩ 0 0x101 ⟨2, 20, .zero⟩ .same, .sort,
    .deleteNode 0x102]

/-- Nodes join, are sorted and leave. -/
theorem storeAgrees_joinSortLeave :
    StoreAgrees .dflt
      (joinSortLeave.foldl (storeStep .dflt .roomy .zero) (.init .empty 0x1234)) := by
  have hall : Allowed (storeStep .dflt .roomy .zero) (StoreGuard .dflt .zero) (.init .empty 0x1234)
      joinSortLeave := by
    refine ⟨fun h => absurd h (by decide), fun h => absurd h (by decide), ?_, trivial, trivial⟩
    unfold StoreGuard OccupiedFirst
    decide +kernel
  exact storeAgrees_of_guarded (by decide) (.of_spare (fun _ => rfl) .zero) 0x1234
    (Reach.of_allowed hall)

/-- The record of a node that is added carries an euid that the table does not. -/
theorem storeAgrees_fails :
    ¬ ∀ s, Reach (storeStep .dflt .roomy .zero) anyEvent (.init .empty 0x1234) s →
      StoreAgrees .dflt s := by
  intro h
  have hagree := h _ (Reach.of_events [.addNode 0 0x2001 0x55])
  have hident := (hagree 0 (by decide)).2 (by decide +kernel)
  revert hident
  decide +kernel

end UwbCore.Panmaster
