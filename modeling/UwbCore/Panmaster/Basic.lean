import UwbCore.Lib.Table

/-!
# The PAN master's data

The records of `panmaster.h` and `pan_utils.h`: the node record kept in flash, the RAM index entry,
the request and response of the PAN protocol, and the state of `panmaster.c`. Machine integers are
natural numbers; a store into a narrower field is an explicit remainder. The bit fields of `flags`
are kept apart and `flags` is computed from them.
-/

namespace UwbCore.Panmaster
open UwbCore.Lib

/-- Build-time values (C `syscfg.yml`). -/
structure Syscfg where
  /-- `PANMASTER_MAXNUM_NODES` -/
  maxnumNodes : Nat
  /-- `PANMASTER_NODES_TO_SAVE` -/
  nodesToSave : Nat
  /-- `PANMASTER_DEFAULT_LEASE_TIME`, in seconds -/
  defaultLeaseTime : Nat
  deriving DecidableEq, Repr

/-- The values `syscfg.yml` gives by default. -/
def Syscfg.dflt : Syscfg := ⟨4, 8, 30⟩

/-- Firmware version (C `struct pan_image_version`). -/
structure ImageVersion where
  ivMajor : Nat
  ivMinor : Nat
  ivRevision : Nat
  ivBuildNum : Nat
  deriving DecidableEq, Repr

/-- All version fields zero. -/
def ImageVersion.zero : ImageVersion := ⟨0, 0, 0, 0⟩

/-- Node record, as stored in flash (C `struct panmaster_node`). -/
structure Node where
  firstSeenUtc : Int
  euid : Nat
  addr : Nat
  /-- unused flag bits -/
  dummy : Fin (2 ^ 11)
  hasPermSlot : Bool
  /-- 4 bits -/
  role : Nat
  /-- 8 bits -/
  index : Nat
  slotId : Nat
  fwVer : ImageVersion
  deriving DecidableEq, Repr

/-- The `flags` word that overlays the bit fields. -/
def Node.flags (n : Node) : Nat := n.dummy.val + n.hasPermSlot.toNat * 2 ^ 11 + n.role * 2 ^ 12

/-- The flags determine the role. -/
lemma Node.role_of_flags {n m : Node} (h : n.flags = m.flags) : n.role = m.role := by
  have hn := n.dummy.isLt
  have hm := m.dummy.isLt
  have hnp := n.hasPermSlot.toNat_le
  have hmp := m.hasPermSlot.toNat_le
  rw [Node.flags, Node.flags] at h
  omega

/-- A record cleared by `memset`. -/
def Node.zero : Node := ⟨0, 0, 0, 0, false, 0, 0, 0, .zero⟩

/-- C `PANMASTER_NODE_DEFAULT`. -/
def Node.default : Node := { Node.zero with addr := 0xffff, slotId := 0xffff }

/-- RAM index entry (C `struct panmaster_node_idx`). -/
structure NodeIdx where
  addr : Nat
  slotId : Nat
  euid : Nat
  /-- 8 bits -/
  role : Nat
  hasPermSlot : Bool
  saveNeeded : Bool
  /-- milliseconds, 32 bits -/
  leaseEnds : Nat
  deriving DecidableEq, Repr

/-- C `PANMASTER_NODE_IDX_DEFAULT`: the fields it does not name keep their value. -/
def NodeIdx.setDefault (e : NodeIdx) : NodeIdx := { e with addr := 0xffff, slotId := 0xffff, role := 0 }

/-- A default entry of the zero-initialised table. -/
def NodeIdx.default : NodeIdx := NodeIdx.setDefault ⟨0, 0, 0, 0, false, false, 0⟩

/-- The entry is in use. -/
def NodeIdx.occupied (e : NodeIdx) : Bool := e.addr != 0xffff

/-- An entry is occupied if it has an address. -/
lemma NodeIdx.occupied_iff {e : NodeIdx} : e.occupied = true ↔ e.addr ≠ 0xffff := by
  simp [NodeIdx.occupied]

/-- And it is free if it has none. -/
lemma NodeIdx.occupied_false {e : NodeIdx} : e.occupied = false ↔ e.addr = 0xffff := by
  simp [NodeIdx.occupied]

/-- The part of `struct pan_req_resp` a request fills. -/
structure PanRequest where
  role : Nat
  leaseTime : Nat
  fwVer : ImageVersion
  deriving DecidableEq, Repr

/-- The part of `struct pan_req_resp` a response fills; its addresses overlay `fw_ver`. -/
structure PanResponse where
  role : Nat
  leaseTime : Nat
  panId : Nat
  shortAddress : Nat
  slotId : Nat
  deriving DecidableEq, Repr

/-- Where `panrequest_cb` writes its response: over the request, as `handle_pan_request` does, or
    into another buffer whose `lease_time` is given. -/
inductive ResponseBuf where
  | same
  | other (leaseTime : Nat)
  deriving DecidableEq, Repr

/-- A reading of the uptime clock (C `struct dpl_timeval`). -/
structure Timeval where
  tvSec : Nat
  tvUsec : Nat
  deriving DecidableEq, Repr

/-- The clock reading after `us` microseconds. -/
def Timeval.ofUsecs (us : Nat) : Timeval := ⟨us / 1000000, us % 1000000⟩

/-- `tv_sec*1000 + tv_usec/1000` -/
def Timeval.ms (tv : Timeval) : Nat := tv.tvSec * 1000 + tv.tvUsec / 1000

/-- A 32-bit word read as `int32_t`. -/
def toInt32 (n : Nat) : Int := (BitVec.ofNat 32 n).toInt

/-- A storage back end (C `panm_fcb_*` or `panm_file_*`), chosen when the firmware is built. -/
structure NodeStore (σ : Type) where
  /-- the record that answers `find`, if any -/
  findNode : σ → Node → Option Node
  /-- the store after a record was saved -/
  save : σ → Node → σ

/-- The variables of `panmaster.c`. -/
structure State (σ : Type) where
  nodeIdx : Table NodeIdx
  nodesToSave : Table Node
  store : σ
  panId : Nat

/-- The state `panmaster_pkg_init` leaves before the store is loaded. -/
def State.init {σ : Type} (store : σ) (panId : Nat) : State σ where
  nodeIdx := fun _ => .default
  nodesToSave := fun _ => .zero
  store := store
  panId := panId

end UwbCore.Panmaster
