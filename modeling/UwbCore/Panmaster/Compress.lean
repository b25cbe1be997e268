import UwbCore.Panmaster.Load

/-!
# Compressing the node log

`panm_fcb_compress` moves records of the oldest sector behind the newest one and erases the rest of
the sector. The copies it has made count as newer records, so what it moves of an euid is the first
record of the oldest sector, not the last (`panmFcbCompress_records`). The log keeps its meaning, as
a map from euids to records and as a table, exactly when that makes no difference
(`compress_keeps_iff`).
-/

namespace UwbCore.Panmaster
open UwbCore.Lib

/-- Compressing the log keeps the data: the map from euids to records and the loaded table are the
    same, and a record that is dropped was not the most recent one of its euid. -/
structure CompressKeeps (cfg : Syscfg) (f f' : Fcb) : Prop where
  latest : ∀ euid, f'.latest euid = f.latest euid
  table : ∀ i < cfg.maxnumNodes, f'.table cfg i = f.table cfg i
  superseded : ∀ n ∈ f.records, n ∉ f'.records → f.latest n.euid ≠ some n

/-! ## What is moved -/

/-- The records of the oldest sector, each as `buf1` holds it once it is read over the one before. -/
def buf1Reads : ImageVersion → List FcbEntry → List Node
  | _, [] => []
  | ver, e :: es => e.readOver ver :: buf1Reads (e.readOver ver).fwVer es

/-- The sector that a compression erases. -/
def Fcb.compressed (f : Fcb) : List FcbEntry := (fcbAppendToScratch f).oldest

/-- The entries that stay where they are. -/
def Fcb.kept (f : Fcb) : List FcbEntry := (fcbAppendToScratch f).newer

/-- The records that are copied. -/
def Fcb.moved (stale : ImageVersion) (f : Fcb) : List Node :=
  firstsBy Node.euid (f.kept.map fun e => e.node.euid) (buf1Reads stale f.compressed)

/-- The loop over the entries of a sector. -/
lemma compressEntry_foldl (es : List FcbEntry) (f : Fcb) (ver : ImageVersion)
    (seen : List Nat) (hseen : ∀ k, k ∈ seen ↔ k ∈ f.newer.map fun e => e.node.euid) :
    (es.foldl compressEntry (f, ver)).1 =
      { f with
        active := f.active ++ (firstsBy Node.euid seen (buf1Reads ver es)).map fun n => ⟨n, true⟩ } := by
  induction es generalizing f ver seen with
  | nil => simp [buf1Reads, firstsBy]
  | cons e es ih =>
    have hany : (f.newer.any fun loc2 => (e.readOver ver).euid == loc2.node.euid) = true ↔
        (e.readOver ver).euid ∈ seen := by
      rw [hseen, List.any_eq_true, List.mem_map]
      constructor
      · rintro ⟨x, hx, h⟩
        exact ⟨x, hx, (beq_iff_eq.mp h).symm⟩
      · rintro ⟨x, hx, h⟩
        exact ⟨x, hx, beq_iff_eq.mpr h.symm⟩
    rw [List.foldl_cons, compressEntry, buf1Reads, firstsBy]
    by_cases hmem : (e.readOver ver).euid ∈ seen
    · simp only [if_pos hmem, if_pos (hany.mpr hmem)]
      exact ih f _ seen hseen
    · have hnot : ¬ (f.newer.any fun loc2 => (e.readOver ver).euid == loc2.node.euid) = true :=
        fun h => hmem (hany.mp h)
      simp only [if_neg hmem, if_neg hnot]
      -- the copy becomes the newest entry, so its euid is seen from here on
      rw [ih _ _ ((e.readOver ver).euid :: seen)]
      · simp
      · intro k
        simp only [Fcb.newer, List.mem_cons, hseen, List.map_append, List.mem_append, List.map_cons,
          List.map_nil, List.not_mem_nil, or_false]
        tauto

/-- The sector to erase and what stays make up the log. -/
lemma Fcb.records_split (f : Fcb) :
    f.records = f.compressed.map FcbEntry.load ++ f.kept.map FcbEntry.load := by
  rw [Fcb.records, ← List.map_append]
  congr 1
  cases h : f.older with
  | nil => simp [Fcb.entries, Fcb.compressed, Fcb.kept, fcbAppendToScratch, Fcb.oldest, Fcb.newer, h]
  | cons o rest =>
    simp [Fcb.entries, Fcb.compressed, Fcb.kept, fcbAppendToScratch, Fcb.oldest, Fcb.newer, h]

/-- The log after a compression (C `panm_fcb_compress`). -/
lemma panmFcbCompress_records (stale : ImageVersion) (f : Fcb) :
    (panmFcbCompress stale f).records = f.kept.map FcbEntry.load ++ f.moved stale := by
  rw [panmFcbCompress, compressEntry_foldl _ _ _ _ fun _ => Iff.rfl]
  simp only [fcbRotate, Fcb.records, Fcb.entries, List.map_append, List.map_map, Fcb.kept, Fcb.newer,
    Fcb.moved, Fcb.compressed, fcbAppendToScratch, List.append_nil, List.nil_append]
  congr 1
  exact List.map_id' _

/-! ## When nothing is lost -/

/-- The records that are moved answer a query as the log does, and where neither they nor the
    records that stay answer it, the erased ones answer the default. -/
def Carried {β : Type} (stale : ImageVersion) (f : Fcb) (q : Node → Option β) (d : β) : Prop :=
  (∀ v, lastWrite q (f.moved stale) = some v → (lastWrite q f.records).getD d = v) ∧
    (lastWrite q (f.moved stale) = none → lastWrite q (f.kept.map FcbEntry.load) = none →
      (lastWrite q (f.compressed.map FcbEntry.load)).getD d = d)

/-- Of every euid that occurs only in the sector to be erased the first record there, as read, is
    the last one; and what the moved records say of an index is what the log says. -/
structure CompressSafe (cfg : Syscfg) (stale : ImageVersion) (f : Fcb) : Prop where
  first_is_last : ∀ euid, (∀ e ∈ f.kept, e.node.euid ≠ euid) →
    (buf1Reads stale f.compressed).find? (fun n => n.euid = euid) =
      lastWrite (ofKey Node.euid euid) (f.compressed.map FcbEntry.load)
  ident : ∀ i < cfg.maxnumNodes, Carried stale f (identOf i) defaultIdent
  permSlot : ∀ i < cfg.maxnumNodes, Carried stale f (permSlotOf i) 0xffff

variable {cfg : Syscfg} {stale : ImageVersion} {f : Fcb}

/-- A query keeps its answer if and only if it is carried over. -/
lemma carried_iff {β : Type} (q : Node → Option β) (d : β) :
    (lastWrite q (panmFcbCompress stale f).records).getD d = (lastWrite q f.records).getD d ↔
      Carried stale f q d := by
  rw [panmFcbCompress_records, Carried, f.records_split]
  exact moved_iff q _ _ _ d

/-- The most recent record of an euid that stays is not touched. -/
lemma latest_kept {euid : Nat} (h : ∃ e ∈ f.kept, e.node.euid = euid) :
    (panmFcbCompress stale f).latest euid = f.latest euid := by
  obtain ⟨e, he, rfl⟩ := h
  rw [Fcb.latest, Fcb.latest, panmFcbCompress_records, f.records_split, lastWrite_append,
    lastWrite_append, Fcb.moved, lastWrite_firstsBy,
    if_pos (List.mem_map_of_mem (f := fun e : FcbEntry => e.node.euid) he), Option.none_or]
  obtain ⟨v, hv⟩ := lastWrite_isSome (q := ofKey Node.euid e.node.euid)
    (List.mem_map_of_mem (f := FcbEntry.load) he) (by simp [ofKey])
  rw [hv]
  rfl

/-- Of any other euid the first record of the erased sector is what is left. -/
lemma latest_moved_iff {euid : Nat} (h : ∀ e ∈ f.kept, e.node.euid ≠ euid) :
    (panmFcbCompress stale f).latest euid = f.latest euid ↔
      (buf1Reads stale f.compressed).find? (fun n => n.euid = euid) =
        lastWrite (ofKey Node.euid euid) (f.compressed.map FcbEntry.load) := by
  have hnone : lastWrite (ofKey Node.euid euid) (f.kept.map FcbEntry.load) = none := by
    rw [lastWrite_eq_none]
    intro n hn
    obtain ⟨e, he, rfl⟩ := List.mem_map.mp hn
    rw [ofKey, if_neg]
    rw [FcbEntry.load_euid]
    exact h e he
  have hmem : euid ∉ f.kept.map fun e => e.node.euid := by
    intro hm
    obtain ⟨e, he, heq⟩ := List.mem_map.mp hm
    exact h e he heq
  rw [Fcb.latest, Fcb.latest, panmFcbCompress_records, f.records_split, lastWrite_append,
    lastWrite_append, Fcb.moved, lastWrite_firstsBy, if_neg hmem, hnone, Option.or_none,
    Option.none_or]

/-- A loaded entry is the same if and only if its identity and its slot are carried over. -/
lemma table_same_iff {i : Nat} (hi : i < cfg.maxnumNodes) :
    (panmFcbCompress stale f).table cfg i = f.table cfg i ↔
      Carried stale f (identOf i) defaultIdent ∧ Carried stale f (permSlotOf i) 0xffff := by
  rw [Fcb.table_apply cfg _ hi.le, Fcb.table_apply cfg _ hi.le, NodeIdx.ofIdent_inj, carried_iff,
    carried_iff]

/-- A log that is safe to compress keeps its data. -/
lemma CompressSafe.keeps (h : CompressSafe cfg stale f) :
    CompressKeeps cfg f (panmFcbCompress stale f) := by
  have hlatest : ∀ euid, (panmFcbCompress stale f).latest euid = f.latest euid := by
    intro euid
    by_cases hk : ∃ e ∈ f.kept, e.node.euid = euid
    · exact latest_kept hk
    · have hk' : ∀ e ∈ f.kept, e.node.euid ≠ euid := fun e he heq => hk ⟨e, he, heq⟩
      exact (latest_moved_iff hk').mpr (h.first_is_last euid hk')
  refine ⟨hlatest, fun i hi => (table_same_iff hi).mpr ⟨h.ident i hi, h.permSlot i hi⟩, ?_⟩
  intro n _ hnot hlast
  rw [← hlatest] at hlast
  obtain ⟨m, hm, hq⟩ := lastWrite_mem hlast
  rw [ofKey] at hq
  split at hq
  · cases hq
    exact hnot hm
  · cases hq

/-- A log that keeps its data was safe to compress. -/
lemma CompressKeeps.safe (h : CompressKeeps cfg f (panmFcbCompress stale f)) :
    CompressSafe cfg stale f := by
  refine ⟨fun euid hk => ?_, fun i hi => ?_, fun i hi => ?_⟩
  · exact (latest_moved_iff hk).mp (h.latest euid)
  · exact ((table_same_iff hi).mp (h.table i hi)).1
  · exact ((table_same_iff hi).mp (h.table i hi)).2

/-- A record of a node and its update, both in the oldest sector. -/
def updatedInPlace : Fcb :=
  let n : Node := { Node.default with euid := 0x101, addr := 0x101, role := 1 }
  ⟨[[⟨n, true⟩, ⟨{ n with fwVer := ⟨1, 0, 0, 0⟩ }, true⟩], []], []⟩

end UwbCore.Panmaster
