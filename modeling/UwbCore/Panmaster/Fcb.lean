import UwbCore.Lib.Log
import UwbCore.Panmaster.Save

/-!
# The FCB back end

`panmaster_fcb.c`: the node log kept in a flash circular buffer. The buffer library is not part of
the sources; what the back end relies on is that a walk goes from the oldest entry to the newest,
that an append goes behind the newest entry, into the active sector or a new one, that
`fcb_append_to_scratch` opens the scratch sector as the newest and that `fcb_rotate` erases the
oldest sector. Whether a record still fits is a parameter (`FcbLib`). Flash reads and writes
succeed, and so does an append into the scratch sector while it is filled by a compression.
-/

namespace UwbCore.Panmaster
open UwbCore.Lib

/-- A log entry: a whole record, or one written without its `fw_ver`. -/
structure FcbEntry where
  node : Node
  hasVer : Bool
  deriving DecidableEq, Repr

/-- Reading an entry into a buffer whose `fw_ver` is `ver`: the bytes of the entry win. -/
def FcbEntry.readOver (e : FcbEntry) (ver : ImageVersion) : Node :=
  if e.hasVer then e.node else { e.node with fwVer := ver }

/-- The record that `fcb_load_cb` hands on, read over a cleared buffer. -/
def FcbEntry.load (e : FcbEntry) : Node := e.readOver .zero

@[simp] lemma FcbEntry.readOver_euid (e : FcbEntry) (ver) : (e.readOver ver).euid = e.node.euid := by
  rw [FcbEntry.readOver]
  split <;> rfl

@[simp] lemma FcbEntry.load_euid (e : FcbEntry) : e.load.euid = e.node.euid := e.readOver_euid .zero

@[simp] lemma FcbEntry.load_mk (n : Node) : FcbEntry.load ⟨n, true⟩ = n := rfl

/-- The sectors in use (C `struct fcb`): full ones, oldest first, and the active one. -/
structure Fcb where
  older : List (List FcbEntry)
  active : List FcbEntry
  deriving DecidableEq, Repr

/-- An erased buffer (C `fcb_clear`). -/
def Fcb.empty : Fcb := ⟨[], []⟩

/-- The entries in the order of a walk (C `fcb_walk`, `fcb_getnext`). -/
def Fcb.entries (f : Fcb) : List FcbEntry := f.older.flatten ++ f.active

/-- The records `panm_fcb_load` calls back with, in order. -/
def Fcb.records (f : Fcb) : List Node := f.entries.map FcbEntry.load

/-- The oldest sector (C `f_oldest`). -/
def Fcb.oldest (f : Fcb) : List FcbEntry := f.older.headD f.active

/-- The entries outside the oldest sector, when that is not the active one. -/
def Fcb.newer (f : Fcb) : List FcbEntry := f.older.tail.flatten ++ f.active

/-- What the library decides. -/
structure FcbLib where
  /-- one more record fits in a sector with these entries -/
  fits : List FcbEntry → Bool
  /-- besides the scratch sector one is free when this many are full -/
  spare : Nat → Bool

/-- A buffer that never fills up. -/
def FcbLib.roomy : FcbLib := ⟨fun _ => true, fun _ => true⟩

/-- A buffer of so many sectors, the scratch sector among them, for so many records each. -/
def FcbLib.sized (sectors perSector : Nat) : FcbLib :=
  ⟨fun entries => entries.length < perSector, fun full => full + 2 ≤ sectors⟩

/-- Library `fcb_append` with the write that follows it; `none` for `FCB_ERR_NOSPACE`. -/
def fcbAppend (lib : FcbLib) (f : Fcb) (e : FcbEntry) : Option Fcb :=
  if lib.fits f.active then some { f with active := f.active ++ [e] }
  else if lib.spare (f.older.length + 1) then some ⟨f.older ++ [f.active], [e]⟩
  else none

/-- Library `fcb_append_to_scratch`. -/
def fcbAppendToScratch (f : Fcb) : Fcb := ⟨f.older ++ [f.active], []⟩

/-- Library `fcb_rotate`. -/
def fcbRotate (f : Fcb) : Fcb := { f with older := f.older.tail }

/-! ## Loading and searching -/

/-- C `node_idx_load_cb` on one entry of the table. -/
def NodeIdx.load (e : NodeIdx) (node : Node) : NodeIdx :=
  { e with
    addr := node.addr, euid := node.euid, role := node.role, hasPermSlot := node.hasPermSlot
    slotId := if node.hasPermSlot then node.slotId else e.slotId
    leaseEnds := if node.hasPermSlot then 0 else e.leaseEnds }

/-- C `node_idx_load_cb`; the bound check lets the table size itself pass. -/
def nodeIdxLoadCb (cfg : Syscfg) (nodes : Table NodeIdx) (node : Node) : Table NodeIdx :=
  if node.index ≤ cfg.maxnumNodes then nodes.modify node.index fun e => e.load node else nodes

/-- C `panm_fcb_load_idx`. -/
def panmFcbLoadIdx (cfg : Syscfg) (f : Fcb) (nodes : Table NodeIdx) : Table NodeIdx :=
  f.records.foldl (nodeIdxLoadCb cfg) nodes

/-- The test of `find_node_load_cb`. -/
def findMatches (find node : Node) : Bool :=
  (find.index != 0 && find.index == node.index) || (find.addr != 0xffff && find.addr == node.addr) ||
    (find.euid != 0 && find.euid == node.euid)

/-- C `find_node_load_cb`; the buffer holds the last record that matched. -/
def findNodeLoadCb (find : Node) (results : Option Node) (node : Node) : Option Node :=
  if findMatches find node then some node else results

/-- C `panm_fcb_find_node`. -/
def panmFcbFindNode (f : Fcb) (find : Node) : Option Node :=
  f.records.foldl (findNodeLoadCb find) none

/-! ## Compressing and appending -/

/-- One round of the outer loop of `panm_fcb_compress`: the buffer, and the `fw_ver` that `buf1`
    still holds. The entry is copied unless its euid occurs outside the oldest sector, where the
    copies made so far count as well. -/
def compressEntry (acc : Fcb × ImageVersion) (loc1 : FcbEntry) : Fcb × ImageVersion :=
  let buf1 := loc1.readOver acc.2
  if acc.1.newer.any fun loc2 => buf1.euid == loc2.node.euid then (acc.1, buf1.fwVer)
  else ({ acc.1 with active := acc.1.active ++ [⟨buf1, true⟩] }, buf1.fwVer)

/-- C `panm_fcb_compress`; `stale` is the `fw_ver` of the uninitialised `buf1`. -/
def panmFcbCompress (stale : ImageVersion) (f : Fcb) : Fcb :=
  let f := fcbAppendToScratch f
  fcbRotate (f.oldest.foldl compressEntry (f, stale)).1

/-- The attempts of `panm_fcb_append`. -/
def panmFcbAppend (lib : FcbLib) (stale : ImageVersion) (e : FcbEntry) : Nat → Fcb → Fcb
  | 0, f => f
  | n + 1, f =>
    match fcbAppend lib f e with
    | some f => f
    | none => panmFcbAppend lib stale e n (panmFcbCompress stale f)

/-- C `panm_fcb_save`. -/
def panmFcbSave (lib : FcbLib) (stale : ImageVersion) (f : Fcb) (node : Node) : Fcb :=
  panmFcbAppend lib stale ⟨node, true⟩ 10 f

/-- The back end as `panmaster.c` uses it. -/
def panmFcb (lib : FcbLib) (stale : ImageVersion) : NodeStore Fcb where
  findNode := panmFcbFindNode
  save := panmFcbSave lib stale

/-! ## Sorting -/

/-- A record of memory filled with 0xff. -/
def Node.ones : Node := ⟨-1, 0xffffffffffffffff, 0xffff, .last _, true, 0xf, 0xff, 0xffff,
  ⟨0xff, 0xff, 0xffff, 0xffffffff⟩⟩

/-- C `sort_nodes_load_cb`. -/
def sortNodesLoadCb (cfg : Syscfg) (nodes : Table Node) (node : Node) : Table Node :=
  if node.index < cfg.maxnumNodes then nodes.modify node.index fun _ => node else nodes

/-- The search for the lowest address: `laddr` and `laddr_i`. -/
def lowestAddr (cfg : Syscfg) (nodes : Table Node) : Nat × Nat :=
  (List.range cfg.maxnumNodes).foldl (fun best i =>
    if (nodes i).addr = 0xffff then best
    else if (nodes i).addr < best.1 then ((nodes i).addr, i) else best) (0xffff, 0)

/-- The saving loop of `panm_fcb_sort`, `n` rounds from `index` on. -/
def sortSave (cfg : Syscfg) (save : Fcb → Node → Fcb) : Nat → Nat → Table Node → Fcb → Fcb
  | 0, _, _, f => f
  | n + 1, index, nodes, f =>
    let (laddr, i) := lowestAddr cfg nodes
    if laddr = 0xffff then f
    else sortSave cfg save n (index + 1)
      (nodes.modify i fun x => { x with index := index % 2 ^ 8, addr := 0xffff })
      (save f { nodes i with index := index % 2 ^ 8 })

/-- C `panm_fcb_sort`, its `malloc` succeeding. -/
def panmFcbSort (cfg : Syscfg) (lib : FcbLib) (stale : ImageVersion) (f : Fcb) : Fcb :=
  sortSave cfg (panmFcbSave lib stale) cfg.maxnumNodes 0
    (f.records.foldl (sortNodesLoadCb cfg) fun _ => .ones) .empty

/-- C `panmaster_sort`: the table is loaded over what it holds. -/
def panmasterSort (cfg : Syscfg) (lib : FcbLib) (stale : ImageVersion) (s : State Fcb) : State Fcb :=
  let store := panmFcbSort cfg lib stale s.store
  { s with store := store, nodeIdx := panmFcbLoadIdx cfg store s.nodeIdx }

/-- C `panmaster_compress`. -/
def panmasterCompress (stale : ImageVersion) (s : State Fcb) : State Fcb :=
  { s with store := panmFcbCompress stale s.store }

/-! ## The log as a whole -/

/-- A record that answers the search for an euid. -/
def byEuid (euid : Nat) (n : Node) : Option Node :=
  if euid != 0 && euid == n.euid then some n else none

/-- The search by EUID. -/
lemma findMatches_findEuid (euid : Nat) (n : Node) :
    findMatches (findEuid euid) n = (euid != 0 && euid == n.euid) := by
  simp [findMatches, findEuid, Node.default, Node.zero]

/-- The search for an euid finds its newest record. -/
lemma panmFcbFindNode_findEuid (f : Fcb) (euid : Nat) :
    panmFcbFindNode f (findEuid euid) = lastWrite (byEuid euid) f.records := by
  have h : ∀ l : List Node, ∀ r, l.foldl (findNodeLoadCb (findEuid euid)) r =
      (lastWrite (byEuid euid) l).or r := by
    intro l
    induction l using List.reverseRecOn with
    | nil => exact fun _ => rfl
    | append_singleton l n ih =>
      intro r
      rw [List.foldl_append, lastWrite_concat, List.foldl_cons, List.foldl_nil, ih,
        findNodeLoadCb, findMatches_findEuid, byEuid]
      split <;> rfl
  rw [panmFcbFindNode, h, Option.or_none]

/-- With a free sector left a save appends its record (C `panm_fcb_append`). -/
lemma panmFcbSave_entries {lib : FcbLib} (hroom : ∀ n, lib.spare n = true) (stale : ImageVersion)
    (f : Fcb) (node : Node) :
    (panmFcbSave lib stale f node).entries = f.entries ++ [⟨node, true⟩] := by
  rw [panmFcbSave, panmFcbAppend, fcbAppend]
  cases lib.fits f.active with
  | true => simp [Fcb.entries]
  | false => simp [Fcb.entries, hroom]

/-- With room for every record, one is added. -/
lemma panmFcbSave_records {lib : FcbLib} (hroom : ∀ n, lib.spare n = true) (stale : ImageVersion)
    (f : Fcb) (node : Node) : (panmFcbSave lib stale f node).records = f.records ++ [node] := by
  rw [Fcb.records, panmFcbSave_entries hroom, List.map_append]
  rfl

end UwbCore.Panmaster
