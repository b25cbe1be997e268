import UwbCore.Panmaster.Basic

/-!
# Serving a PAN request

The request path of `panmaster.c`: the searches for a short address and a slot, the reservation of
a `nodes_to_save` entry, `panmaster_idx_find_node` and `panrequest_cb`. A NULL result pointer is
`none`, a result pointer into `nodes_to_save` is its index. The path is cut where the source
releases `save_mutex` (`findFirstEmptyNodesToSave`, then `fillNode`) and where control returns to
`panrequest_cb` (`panrequestFinish`), so that the interleaved model can run the pieces one by one.
-/

namespace UwbCore.Panmaster
open UwbCore.Lib

variable {σ : Type}

/-! ## Searches -/

/-- The address tried in round `i` (C `first_free_short_addr`). -/
def shortAddrCandidate (euid i : Nat) : Nat :=
  if 0 < i then ((i <<< 12) ||| (euid &&& 0x0fff)) % 2 ^ 16 else euid &&& 0xffff

/-- The inner loop shared by `first_free_short_addr` and `short_addr_is_free`. -/
def addrInUse (cfg : Syscfg) (t : Table NodeIdx) (addr : Nat) : Bool :=
  (List.range cfg.maxnumNodes).any fun j => addr == (t j).addr

/-- C `first_free_short_addr`: an address in use counts as 0, and 0 is what is left when every
    round ends that way. -/
def firstFreeShortAddr (cfg : Syscfg) (t : Table NodeIdx) (euid : Nat) : Nat :=
  (((List.range cfg.maxnumNodes).map (shortAddrCandidate euid)).find? fun addr =>
    !addrInUse cfg t addr && addr != 0).getD 0

/-- C `short_addr_is_free`. -/
def shortAddrIsFree (cfg : Syscfg) (t : Table NodeIdx) (addr : Nat) : Bool := !addrInUse cfg t addr

/-- C `slot_lease_expired`: a lease end of 0 never expires, the comparison is signed. -/
def slotLeaseExpired (t : Table NodeIdx) (tv : Timeval) (idx : Nat) : Bool :=
  let leMs := toInt32 (t idx).leaseEnds
  if leMs = 0 then false else decide (leMs < toInt32 tv.ms)

/-- The inner loop of `first_free_slot_id`: some entry holds `slotId` against `nodeAddr`. -/
def slotTaken (cfg : Syscfg) (t : Table NodeIdx) (tv : Timeval) (nodeAddr role slotId : Nat) : Bool :=
  (List.range cfg.maxnumNodes).any fun j =>
    (t j).occupied && role == (t j).role && slotId == (t j).slotId && nodeAddr != (t j).addr &&
      (!slotLeaseExpired t tv j || (t j).hasPermSlot)

/-- The outer loop of `first_free_slot_id`, `n` rounds from `slotId` on. -/
def firstFreeSlotIdFrom (cfg : Syscfg) (t : Table NodeIdx) (tv : Timeval) (nodeAddr role : Nat) :
    Nat → Nat → Nat
  | 0, _ => 0xffff
  | n + 1, slotId =>
    if slotTaken cfg t tv nodeAddr role slotId then
      firstFreeSlotIdFrom cfg t tv nodeAddr role n (slotId + 1)
    else slotId

/-- C `first_free_slot_id`. -/
def firstFreeSlotId (cfg : Syscfg) (t : Table NodeIdx) (tv : Timeval) (nodeAddr role : Nat) : Nat :=
  firstFreeSlotIdFrom cfg t tv nodeAddr role 0xffff 0

/-- The occupied entry of `euid` (first loop of `panmaster_idx_find_node`). -/
def findByEuid (cfg : Syscfg) (t : Table NodeIdx) (euid : Nat) : Option Nat :=
  firstIdx cfg.maxnumNodes fun i => (t i).occupied && euid == (t i).euid

/-- The first free entry (second loop of `panmaster_idx_find_node`). -/
def findFreeIdx (cfg : Syscfg) (t : Table NodeIdx) : Option Nat :=
  firstIdx cfg.maxnumNodes fun i => !(t i).occupied

/-! ## The steps of a request -/

/-- The first entry of `nodes_to_save` that is not in use. -/
def emptySaveEntry (cfg : Syscfg) (s : State σ) : Option Nat :=
  firstIdx cfg.nodesToSave fun i => (s.nodesToSave i).euid == 0

/-- The entry `k` reserved for `euid`. -/
def State.reserve (s : State σ) (k euid : Nat) : State σ :=
  { s with nodesToSave := s.nodesToSave.modify k fun n => { n with euid := euid } }

/-- C `find_first_empty_nodes_to_save`; `busy` when the mutex cannot be taken at once. -/
def findFirstEmptyNodesToSave (cfg : Syscfg) (busy : Bool) (euid : Nat) (s : State σ) :
    Option Nat × State σ :=
  if busy then (none, s)
  else match emptySaveEntry cfg s with
    | none => (none, s)
    | some k => (some k, s.reserve k euid)

/-- A given role that differs from the stored one. -/
def roleChanges (stored role : Nat) : Bool := stored % 2 ^ 4 != role && decide (0 < role)

/-- The role a known node is granted: its stored one, or the given one when that differs. -/
def grantedRole (stored role : Nat) : Nat :=
  if roleChanges stored role then role % 2 ^ 4 else stored % 2 ^ 4

/-- The slot a known node is granted; a permanent slot is kept. -/
def knownSlotId (cfg : Syscfg) (t : Table NodeIdx) (tv : Timeval) (i role : Nat) : Nat :=
  if (t i).hasPermSlot then (t (i % 2 ^ 8)).slotId
  else firstFreeSlotId cfg t tv (t i).addr role

/-- `panmaster_idx_find_node` on a node found at entry `i`, filling `nodes_to_save[k]`. The slot is
    searched under the role of the request, before the role itself is looked at. -/
def fillKnown (cfg : Syscfg) (tv : Timeval) (i k role : Nat) (s : State σ) : State σ :=
  let e := s.nodeIdx i
  let slotId := knownSlotId cfg s.nodeIdx tv i role
  { s with
    nodesToSave := s.nodesToSave.modify k fun n =>
      { n with
        index := i % 2 ^ 8, addr := e.addr, euid := e.euid, role := grantedRole e.role role,
        hasPermSlot := e.hasPermSlot, slotId := slotId }
    nodeIdx := (s.nodeIdx.modify (i % 2 ^ 8) fun x =>
        { x with slotId := if e.hasPermSlot then x.slotId else slotId }).modify i fun x =>
        { x with saveNeeded := x.saveNeeded || roleChanges e.role role } }

/-- The table with a new node's address, euid and role at entry `i`. -/
def claimIdx (cfg : Syscfg) (t : Table NodeIdx) (i euid role : Nat) : Table NodeIdx :=
  t.modify i fun e =>
    { e with addr := firstFreeShortAddr cfg t euid, euid := euid, role := role % 2 ^ 8 }

/-- `panmaster_idx_find_node` on an unknown node placed at the free entry `i`. -/
def fillNew (cfg : Syscfg) (tv : Timeval) (utc : Int) (i k euid role : Nat) (s : State σ) : State σ :=
  let addr := firstFreeShortAddr cfg s.nodeIdx euid
  let t := claimIdx cfg s.nodeIdx i euid role
  -- the search for a slot already sees the new node's own entry
  let slotId := firstFreeSlotId cfg t tv addr role
  { s with
    nodesToSave := s.nodesToSave.modify k fun _ =>
      { Node.default with
        euid := euid, addr := addr, role := role % 2 ^ 4, slotId := slotId, firstSeenUtc := utc,
        index := i % 2 ^ 8 }
    nodeIdx := t.modify i fun e => { e with slotId := slotId, saveNeeded := true } }

/-- `panmaster_idx_find_node` after the reservation of entry `k`. -/
def fillNode (cfg : Syscfg) (tv : Timeval) (utc : Int) (k euid role : Nat) (s : State σ) :
    Option Nat × State σ :=
  match findByEuid cfg s.nodeIdx euid with
  | some i => (some k, fillKnown cfg tv i k role s)
  | none =>
    match findFreeIdx cfg s.nodeIdx with
    | some i => (some k, fillNew cfg tv utc i k euid role s)
    | none => (none, s)

/-- C `panmaster_idx_find_node`. -/
def panmasterIdxFindNode (cfg : Syscfg) (busy : Bool) (tv : Timeval) (utc : Int) (euid role : Nat)
    (s : State σ) : Option Nat × State σ :=
  match findFirstEmptyNodesToSave cfg busy euid s with
  | (none, s) => (none, s)
  | (some k, s) => fillNode cfg tv utc k euid role s

/-- The lease time of the response: the one found in its buffer, or the default. -/
def responseLease (cfg : Syscfg) (request : PanRequest) : ResponseBuf → Nat
  | .same => if request.leaseTime = 0 then cfg.defaultLeaseTime else request.leaseTime
  | .other l => if l = 0 then cfg.defaultLeaseTime else l

/-- `request->lease_time` as read for `lease_ends`, after the response's lease was written. -/
def countedLease (cfg : Syscfg) (request : PanRequest) : ResponseBuf → Nat
  | .same => responseLease cfg request .same
  | .other _ => request.leaseTime

/-- `lease_ends` of a request served at `tv`. -/
def leaseEndsOf (cfg : Syscfg) (tv : Timeval) (request : PanRequest) (buf : ResponseBuf) : Nat :=
  (tv.ms + countedLease cfg request buf * 1000) % 2 ^ 32

/-- `panrequest_cb` after `panmaster_idx_find_node` returned the entry `k`. -/
def panrequestFinish (cfg : Syscfg) (tv : Timeval) (request : PanRequest) (buf : ResponseBuf)
    (k : Nat) (s : State σ) : PanResponse × State σ :=
  let node := { s.nodesToSave k with fwVer := request.fwVer }
  ({ shortAddress := node.addr
     slotId := (s.nodeIdx node.index).slotId
     leaseTime := responseLease cfg request buf
     panId := s.panId
     role := node.role },
   { s with
     nodesToSave := s.nodesToSave.modify k fun _ => node
     nodeIdx := s.nodeIdx.modify node.index fun e =>
       { e with leaseEnds := leaseEndsOf cfg tv request buf } })

/-- C `panrequest_cb`; no response when it returns false. -/
def panrequestCb (cfg : Syscfg) (busy : Bool) (tv : Timeval) (utc : Int) (euid : Nat)
    (request : PanRequest) (buf : ResponseBuf) (s : State σ) : Option PanResponse × State σ :=
  match panmasterIdxFindNode cfg busy tv utc euid request.role s with
  | (none, s) => (none, s)
  | (some k, s) =>
    let (response, s) := panrequestFinish cfg tv request buf k s
    (some response, s)

end UwbCore.Panmaster
