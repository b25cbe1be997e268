import UwbCore.Nmgr.Basic

/-!
# Who frees a packet

`uwb_nmgr_queue_tx` and `uwb_transport_enqueue_tx` take over a packet and put it on a queue. The
first frees a packet it cannot queue, and `nmgr_resp_cb`, which does not know that, frees it once
more: a response is accounted for exactly when it is not for the radio or can be queued
(`settled_nmgrRespCb`). The second frees a packet it cannot queue as well, but not one that is over
the MTU, so its callers can rely on one outcome only for packets of one of these kinds
(`oneOutcome_enqueue`).

The loopback build of `uwb_nmgr_queue_tx` gives the packet to a function of the management library
and is left out. Whether a queue takes a packet is a parameter; both `os_mqueue_put` and
`dpl_mqueue_put` take every packet with a packet header (`Packet.isPkthdr`).
-/

namespace UwbCore.Nmgr
open UwbCore.Lib
open UwbCore.Transport (Mbuf Seg Pool TxPacket dplMbufExtend dplMbufFreeChain releaseIfZero
  broadcastAddress trailer)

/-! ## The functions -/

/-- `sizeof` of the packet header and of the user header, which depend on the size of a pointer. -/
structure Sizes where
  pkthdr : Nat
  usrHdr : Nat

/-- A response on its way out: `id` stands for the pointer to its chain, `pkthdrLen` is
    `om_pkthdr_len` of the first buffer and `header` is what the user header holds. -/
structure Packet where
  id : Nat
  pkthdrLen : UInt8
  header : FrameHeader
  om : Mbuf
  deriving DecidableEq

/-- `OS_MBUF_IS_PKTHDR`. -/
def Packet.isPkthdr (sz : Sizes) (p : Packet) : Bool := decide (sz.pkthdr ≤ p.pkthdrLen.toNat)

/-- `OS_MBUF_USRHDR_LEN` is the size of the user header. The difference is unsigned: without a packet
    header it is far too large. -/
def Packet.hasUsrHdr (sz : Sizes) (p : Packet) : Bool :=
  p.pkthdrLen.toNat == sz.pkthdr + sz.usrHdr

/-- The part of `nmgr_uwb_instance_t` that sends, and the pool of the packets. -/
structure TxState where
  sem : Nat
  pool : Pool
  txQ : List Packet

/-- What a function leaves of a packet: whether it returned 0, the state, the chain behind the
    caller's pointer, and how often it has freed it. -/
structure Handed (S : Type) where
  ok : Bool
  st : S
  chain : Mbuf
  freed : Nat

def nmgrResponse : UInt16 := 0x0422

/-- The code that a packet is queued with. -/
def codeOf (code : UInt16) : UInt16 := if code = 0 then nmgrRequest else code

/-- The bytes that `uwb_nmgr_queue_tx` appends to a packet. -/
def nmgrTrailer (dst code : UInt16) : List UInt8 := le16 dst ++ le16 code

/-- C `uwb_nmgr_queue_tx`. -/
def uwbNmgrQueueTx (takes : Packet → Bool) (dst code : UInt16) (p : Packet) (n : TxState) :
    Handed TxState :=
  match dplMbufExtend n.pool p.om (nmgrTrailer dst (codeOf code)) with
  | none => ⟨false, { n with pool := dplMbufFreeChain n.pool p.om }, p.om, 1⟩
  | some (om, pool) =>
    let p := { p with om := om }
    if takes p then ⟨true, { n with pool := pool, txQ := n.txQ ++ [p] }, om, 0⟩
    else ⟨false, { n with pool := dplMbufFreeChain pool om }, om, 1⟩

/-- The end of `nmgr_resp_cb`. -/
def TxState.earlyExit (n : TxState) : TxState := { n with sem := releaseIfZero n.sem }

/-- C `nmgr_resp_cb`. -/
def nmgrRespCb (sz : Sizes) (takes : Packet → Bool) (p : Packet) (n : TxState) : Handed TxState :=
  if !p.hasUsrHdr sz then ⟨true, { n with pool := dplMbufFreeChain n.pool p.om }, p.om, 1⟩
  else if p.header.dstAddress = broadcastAddress then
    let n := { n with pool := dplMbufFreeChain n.pool p.om }
    ⟨true, n.earlyExit, p.om, 1⟩
  else
    let r := uwbNmgrQueueTx takes p.header.srcAddress nmgrResponse p n
    if r.ok then { r with st := r.st.earlyExit }
    else
      -- the chain is back in the pool already
      let n := { r.st with pool := dplMbufFreeChain r.st.pool r.chain }
      ⟨true, n.earlyExit, r.chain, r.freed + 1⟩

variable {D : Type}

/-- C `uwb_transport_enqueue_tx` with the fate of the packet, for any outcome of
    `dpl_mqueue_put`. -/
def uwbTransportEnqueueTx (cfg : Transport.Config) (takes : TxPacket → Bool)
    (dst tspCode retries : UInt16) (p : TxPacket) (s : Transport.Instance D) :
    Handed (Transport.Instance D) :=
  if cfg.mtu < p.om.pktlen then ⟨false, s, p.om, 0⟩
  else match dplMbufExtend s.pool p.om (trailer dst tspCode retries) with
    | none => ⟨false, { s with pool := dplMbufFreeChain s.pool p.om }, p.om, 1⟩
    | some (om, pool) =>
      let p := { p with om := om }
      if takes p then ⟨true, { s with pool := pool, txQ := s.txQ ++ [p] }, om, 0⟩
      else ⟨false, { s with pool := dplMbufFreeChain pool om }, om, 1⟩

/-! ## Responses -/

/-- There is room for the trailer and the queue takes the packet with it. -/
def Queueable (pool : Pool) (om : Mbuf) (bytes : List UInt8) (takes : Mbuf → Bool) : Prop :=
  ∃ om' pool', dplMbufExtend pool om bytes = some (om', pool') ∧ takes om' = true

/-- The chain is on the queue and has not been freed, or has been freed once and is not on it. -/
def Settled (n : TxState) (p : Packet) (r : Handed TxState) : Prop :=
  (r.st.txQ = n.txQ ++ [{ p with om := r.chain }] ∧ r.freed = 0) ∨
    (r.st.txQ = n.txQ ∧ r.freed = 1)

/-- The trailer of a response. -/
def Packet.respTrailer (p : Packet) : List UInt8 := nmgrTrailer p.header.srcAddress nmgrResponse

/-- A response that is not for the radio, or that can be queued. -/
def RespSafe (sz : Sizes) (takes : Packet → Bool) (p : Packet) (n : TxState) : Prop :=
  p.hasUsrHdr sz = false ∨ p.header.dstAddress = broadcastAddress ∨
    Queueable n.pool p.om p.respTrailer fun om => takes { p with om := om }

/-- Without memory nothing is queued. -/
lemma not_queueable {pool : Pool} {om : Mbuf} {bytes : List UInt8} {takes : Mbuf → Bool}
    (h : dplMbufExtend pool om bytes = none) : ¬ Queueable pool om bytes takes := by
  intro hq
  obtain ⟨om', pool', hext, -⟩ := hq
  rw [h] at hext
  cases hext

/-- With memory it is up to the queue. -/
lemma queueable_iff {pool pool' : Pool} {om om' : Mbuf} {bytes : List UInt8} {takes : Mbuf → Bool}
    (h : dplMbufExtend pool om bytes = some (om', pool')) :
    Queueable pool om bytes takes ↔ takes om' = true := by
  constructor
  · intro hq
    obtain ⟨om'', pool'', hext, ht⟩ := hq
    rw [h] at hext
    cases hext
    exact ht
  · intro ht
    exact ⟨om', pool', h, ht⟩

section
variable {takes : Packet → Bool} {p : Packet} {n : TxState}

/-- A packet that can be queued is queued, any other one is freed. -/
lemma uwbNmgrQueueTx_cases (takes : Packet → Bool) (dst code : UInt16) (p : Packet) (n : TxState) :
    let r := uwbNmgrQueueTx takes dst code p n
    let can := Queueable n.pool p.om (nmgrTrailer dst (codeOf code)) fun om =>
      takes { p with om := om }
    (can ∧ r.ok = true ∧ r.st.txQ = n.txQ ++ [{ p with om := r.chain }] ∧ r.freed = 0) ∨
      (¬ can ∧ r.ok = false ∧ r.st.txQ = n.txQ ∧ r.freed = 1) := by
  dsimp only
  unfold uwbNmgrQueueTx
  cases hext : dplMbufExtend n.pool p.om (nmgrTrailer dst (codeOf code)) with
  | none => exact .inr ⟨not_queueable hext, rfl, rfl, rfl⟩
  | some r =>
    obtain ⟨om, pool⟩ := r
    rw [queueable_iff hext]
    dsimp only
    split
    case isTrue ht => exact .inl ⟨ht, rfl, rfl, rfl⟩
    case isFalse ht => exact .inr ⟨ht, rfl, rfl, rfl⟩

/-- A response is accounted for if and only if it is not for the radio or can be queued: otherwise it
    is freed twice. -/
lemma settled_nmgrRespCb (sz : Sizes) :
    Settled n p (nmgrRespCb sz takes p n) ↔ RespSafe sz takes p n := by
  have hcases := uwbNmgrQueueTx_cases takes p.header.srcAddress nmgrResponse p n
  unfold nmgrRespCb RespSafe
  cases p.hasUsrHdr sz with
  | false => exact iff_of_true (.inr ⟨rfl, rfl⟩) (.inl rfl)
  | true =>
    rw [if_neg (by simp)]
    split
    case isTrue hb => exact iff_of_true (.inr ⟨rfl, rfl⟩) (.inr (.inl hb))
    case isFalse hb =>
      cases hcases with
      | inl h =>
        obtain ⟨hcan, hok, hq, hfreed⟩ := h
        dsimp only
        rw [if_pos hok]
        exact iff_of_true (.inl ⟨hq, hfreed⟩) (.inr (.inr hcan))
      | inr h =>
        obtain ⟨hcan, hok, -, hfreed⟩ := h
        dsimp only
        rw [if_neg (by simp [hok])]
        apply iff_of_false
        · intro hs
          simp [Settled, hfreed] at hs
        · intro hs
          rcases hs with hs | hs | hs
          · cases hs
          · exact hb hs
          · exact hcan hs

end

/-! ## What a caller can rely on -/

/-- A call of `uwb_nmgr_queue_tx`. -/
structure QueueCall where
  dst : UInt16
  code : UInt16
  packet : Packet
  node : TxState

/-- A call of `uwb_transport_enqueue_tx`. -/
structure EnqueueCall (D : Type) where
  cfg : Transport.Config
  dst : UInt16
  tspCode : UInt16
  retries : UInt16
  packet : TxPacket
  node : Transport.Instance D

def QueueCall.run (takes : Packet → Bool) (c : QueueCall) : Handed TxState :=
  uwbNmgrQueueTx takes c.dst c.code c.packet c.node

def EnqueueCall.run (takes : TxPacket → Bool) (c : EnqueueCall D) :
    Handed (Transport.Instance D) :=
  uwbTransportEnqueueTx c.cfg takes c.dst c.tspCode c.retries c.packet c.node

/-- The packet is not over the MTU. -/
def EnqueueCall.Fits (c : EnqueueCall D) : Prop := c.packet.om.pktlen ≤ c.cfg.mtu

/-- There is room for the trailer and the queue takes the packet. -/
def EnqueueCall.Queueable (takes : TxPacket → Bool) (c : EnqueueCall D) : Prop :=
  Nmgr.Queueable c.node.pool c.packet.om (trailer c.dst c.tspCode c.retries)
    fun om => takes { c.packet with om := om }

/-- All calls that fail have freed their packet, or none has. -/
def OneOutcome {C S : Type} (run : C → Handed S) (calls : Set C) : Prop :=
  (∀ c ∈ calls, (run c).ok = false → (run c).freed = 1) ∨
    (∀ c ∈ calls, (run c).ok = false → (run c).freed = 0)

/-- Every failing call of `uwb_nmgr_queue_tx` has freed its packet. -/
lemma oneOutcome_queue (takes : Packet → Bool) (calls : Set QueueCall) :
    OneOutcome (QueueCall.run takes) calls := by
  refine .inl fun c _ hf => ?_
  cases uwbNmgrQueueTx_cases takes c.dst c.code c.packet c.node with
  | inl h => exact absurd (h.2.1.symm.trans hf) (by decide)
  | inr h => exact h.2.2.2

section
variable {takes : TxPacket → Bool} {c : EnqueueCall D}

/-- A packet that is too long is left alone. -/
lemma EnqueueCall.run_over (h : ¬ c.Fits) : c.run takes = ⟨false, c.node, c.packet.om, 0⟩ :=
  if_pos (Nat.lt_of_not_le h)

/-- A packet that fits is queued or freed. -/
lemma EnqueueCall.run_fits (h : c.Fits) :
    (c.Queueable takes ∧ (c.run takes).ok = true) ∨
      (¬ c.Queueable takes ∧ (c.run takes).ok = false ∧ (c.run takes).freed = 1) := by
  unfold EnqueueCall.run uwbTransportEnqueueTx EnqueueCall.Queueable
  rw [if_neg (Nat.not_lt.mpr h)]
  cases hext : dplMbufExtend c.node.pool c.packet.om (trailer c.dst c.tspCode c.retries) with
  | none => exact .inr ⟨not_queueable hext, rfl, rfl⟩
  | some r =>
    obtain ⟨om, pool⟩ := r
    rw [queueable_iff hext]
    dsimp only
    split
    case isTrue ht => exact .inl ⟨ht, rfl⟩
    case isFalse ht => exact .inr ⟨ht, rfl, rfl⟩

/-- A call fails if and only if its packet is over the MTU or cannot be queued. -/
lemma EnqueueCall.ok_false : (c.run takes).ok = false ↔ ¬ (c.Fits ∧ c.Queueable takes) := by
  by_cases h : c.Fits
  case pos =>
    cases @EnqueueCall.run_fits D takes c h with
    | inl hr => simp [hr.1, hr.2, h]
    | inr hr => simp [hr.1, hr.2.1]
  case neg =>
    rw [EnqueueCall.run_over h]
    simp [h]

/-- A packet within the MTU is freed by the call that fails. -/
lemma EnqueueCall.freed_eq (hf : (c.run takes).ok = false) (h : c.Fits) :
    (c.run takes).freed = 1 := by
  cases EnqueueCall.run_fits h with
  | inl hr => exact absurd (hr.2.symm.trans hf) (by decide)
  | inr hr => exact hr.2.2

/-- The failing calls of `uwb_transport_enqueue_tx` agree if and only if no packet is over the MTU,
    or each that is not can be queued. -/
lemma oneOutcome_enqueue (takes : TxPacket → Bool) (calls : Set (EnqueueCall D)) :
    OneOutcome (EnqueueCall.run takes) calls ↔
      (∀ c ∈ calls, c.Fits) ∨ ∀ c ∈ calls, c.Fits → c.Queueable takes := by
  apply or_congr
  · refine forall₂_congr fun c _ => ⟨fun h => ?_, fun h hf => EnqueueCall.freed_eq hf h⟩
    by_contra hover
    have hfreed := h (EnqueueCall.ok_false.mpr fun hc => hover hc.1)
    rw [EnqueueCall.run_over hover] at hfreed
    cases hfreed
  · refine forall₂_congr fun c _ => ⟨fun h hfits => ?_, fun h hf => ?_⟩
    · by_contra hq
      have hf : (c.run takes).ok = false := EnqueueCall.ok_false.mpr fun hc => hq hc.2
      have hfreed := h hf
      rw [EnqueueCall.freed_eq hf hfits] at hfreed
      cases hfreed
    · have hover : ¬ c.Fits := fun hfits => EnqueueCall.ok_false.mp hf ⟨hfits, h hfits⟩
      rw [EnqueueCall.run_over hover]

end

/-! ## Ownership -/

/-- Every response ends up on the queue or is freed once, and the failing calls of each of the two
    functions agree on who owns the packet. -/
structure OwnershipKept (sz : Sizes) (takes : Packet → Bool) (takesTx : TxPacket → Bool)
    (responses : Set (Packet × TxState)) (queued : Set QueueCall)
    (enqueued : Set (EnqueueCall D)) : Prop where
  response : ∀ r ∈ responses, Settled r.2 r.1 (nmgrRespCb sz takes r.1 r.2)
  queue : OneOutcome (QueueCall.run takes) queued
  enqueue : OneOutcome (EnqueueCall.run takesTx) enqueued

/-- Ownership is kept exactly while every response can be queued or is not for the radio, and the
    packets for the transport are all within the MTU or can all be queued when they are. -/
theorem ownershipKept_iff (sz : Sizes) (takes : Packet → Bool) (takesTx : TxPacket → Bool)
    (responses : Set (Packet × TxState)) (queued : Set QueueCall)
    (enqueued : Set (EnqueueCall D)) :
    OwnershipKept sz takes takesTx responses queued enqueued ↔
      (∀ r ∈ responses, RespSafe sz takes r.1 r.2) ∧
        ((∀ c ∈ enqueued, c.Fits) ∨ ∀ c ∈ enqueued, c.Fits → c.Queueable takesTx) := by
  rw [← oneOutcome_enqueue takesTx enqueued]
  constructor
  · intro h
    exact ⟨fun r hr => (settled_nmgrRespCb sz).mp (h.response r hr), h.enqueue⟩
  · intro h
    obtain ⟨hresp, henq⟩ := h
    exact ⟨fun r hr => (settled_nmgrRespCb sz).mpr (hresp r hr), oneOutcome_queue takes queued, henq⟩

/-- The sizes on a target with 32-bit pointers. -/
def targetSizes : Sizes := ⟨8, 17⟩

/-- A response that fills its only buffer. -/
def fullResponse : Packet where
  id := 1
  pkthdrLen := 25
  header := ⟨nmgrFctrl, 0, 0xdeca, 0x10, 0x20, nmgrRequest, 0, 0⟩
  om := ⟨[], ⟨[1, 2, 3, 4], 0⟩⟩

/-- A node whose pool has no buffer left. -/
def drainedNode : TxState where
  sem := 1
  pool := ⟨0, 64, 25⟩
  txQ := []

/-- A response without room for its trailer is freed twice. -/
theorem ownershipKept_fails :
    ¬ ∀ (sz : Sizes) (takes : Packet → Bool) (takesTx : TxPacket → Bool)
      (responses : Set (Packet × TxState)) (queued : Set QueueCall)
      (enqueued : Set (EnqueueCall (Nat → UInt8))),
      OwnershipKept sz takes takesTx responses queued enqueued := by
  intro h
  have hkept := h targetSizes (Packet.isPkthdr targetSizes) (fun _ => true)
    {(fullResponse, drainedNode)} ∅ ∅
  have hs := (settled_nmgrRespCb targetSizes).mp (hkept.response _ rfl)
  rcases hs with hhdr | hb | ⟨om, pool, hext, -⟩
  · exact absurd hhdr (by decide)
  · exact absurd hb (by decide)
  · exact absurd hext (by simp [dplMbufExtend, drainedNode, fullResponse, Packet.respTrailer,
      nmgrTrailer])

end UwbCore.Nmgr
