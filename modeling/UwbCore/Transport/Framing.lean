import UwbCore.Transport.Basic

/-!
# Framing round trip

`uwb_transport_write_tx` leaves the header and the payload in one half of the transmit buffer and
nothing of the trailer, and `rx_complete_cb` finds the same payload in those bytes, unless it takes
the frame for a repetition or has no memory for it (`framing_roundtrip`).
-/

namespace UwbCore.Transport
open UwbCore.Lib

variable {D : Type} {hw : TxBuffer D} {cfg : Config}

/-- The transmit buffer holds these bytes, and is otherwise as before. -/
structure Placed (hw : TxBuffer D) (d d' : D) (off : Nat) (bytes : List UInt8) : Prop where
  holds : Holds (hw.read d') off bytes
  other : ∀ i, i < off ∨ off + bytes.length ≤ i → hw.read d' i = hw.read d i

/-- What a receiver reports of the frame in the transmit buffer. -/
structure Heard (hw : TxBuffer D) (t : Instance D) (rx : RxInfo) : Prop where
  len : rx.frameLen.toNat = t.txBufferLen
  bytes : ∀ i < t.txBufferLen, rx.rxbuf i = hw.read t.dev (t.txBufferOffset + i)
  fctrl : rx.fctrl = read16 rx.rxbuf 0

/-- There is a first buffer, and with it room for `len` bytes. -/
def HasMemory (pool : Pool) (len : Nat) : Prop :=
  pool.pkthdrLen ≤ pool.databufLen ∧ pool.pkthdrLen ≤ 255 ∧ 0 < pool.free ∧
    len ≤ pool.databufLen - pool.pkthdrLen + (pool.free - 1) * pool.databufLen

instance (pool : Pool) (len : Nat) : Decidable (HasMemory pool len) :=
  inferInstanceAs (Decidable (_ ∧ _ ∧ _ ∧ _))

/-- A chain that holds a payload and the trailer with its address and code. -/
def Carries (om : Mbuf) (payload : List UInt8) (dst tspCode : UInt16) : Prop :=
  ∃ retries, om.flat = payload ++ trailer dst tspCode retries

/-! ## The transmit buffer -/

/-- No bytes. -/
lemma Placed.nil (d : D) (off : Nat) : Placed hw d d off [] :=
  ⟨holds_nil, fun _ _ => rfl⟩

/-- Bytes that are written are there. -/
lemma Placed.write (d : D) (off : Nat) (bytes : List UInt8) :
    Placed hw d (hw.write d bytes off) off bytes := by
  refine ⟨fun i hi => ?_, fun i hi => ?_⟩
  · rw [hw.read_write, if_neg (by omega), Nat.add_sub_cancel_left, List.getElem?_eq_getElem hi]
    rfl
  · rw [hw.read_write]
    split
    case isTrue => rfl
    case isFalse => rw [List.getElem?_eq_none (by omega), Option.getD_none]

/-- What is written next to each other is there as a whole. -/
lemma Placed.append {d d' d'' : D} {off : Nat} {l m : List UInt8} (h1 : Placed hw d d' off l)
    (h2 : Placed hw d' d'' (off + l.length) m) : Placed hw d d'' off (l ++ m) := by
  refine ⟨holds_append.mpr ⟨fun i hi => ?_, h2.holds⟩, fun i hi => ?_⟩
  · rw [h2.other (off + i) (by omega), h1.holds i hi]
  · rw [List.length_append] at hi
    rw [h2.other i (by omega), h1.other i (by omega)]

/-- The rounds of the copy loop place the rest of the payload. -/
lemma writeChunks_placed (hw : TxBuffer D) {om : Mbuf} {txLen : Nat} (base : Nat)
    (hlen : txLen ≤ om.pktlen) {n off : Nat} (hoff : off ≤ txLen) (hn : txLen ≤ off + n) (d : D) :
    Placed hw d (writeChunks hw om txLen base n off d) (base + off)
      ((om.flat.drop off).take (txLen - off)) := by
  induction n generalizing off d with
  | zero =>
    obtain rfl : off = txLen := by omega
    rw [writeChunks, Nat.sub_self, List.take_zero]
    exact .nil d _
  | succ n ih =>
    rw [writeChunks]
    split
    case isFalse hge =>
      obtain rfl : off = txLen := by omega
      rw [Nat.sub_self, List.take_zero]
      exact .nil d _
    case isTrue hlt =>
      have hchunk : dplMbufCopydata om off (min (txLen - off) 128) =
          some ((om.flat.drop off).take (min (txLen - off) 128)) :=
        dplMbufCopydata_some (by omega)
      have hsize : ((om.flat.drop off).take (min (txLen - off) 128)).length =
          min (txLen - off) 128 := by
        rw [Mbuf.pktlen] at hlen
        rw [List.length_take, List.length_drop]
        omega
      have hsplit : (om.flat.drop off).take (txLen - off) =
          (om.flat.drop off).take (min (txLen - off) 128) ++
            (om.flat.drop (off + min (txLen - off) 128)).take
              (txLen - (off + min (txLen - off) 128)) := by
        rw [← List.drop_drop, ← List.take_add]
        congr 1
        omega
      dsimp only
      rw [hchunk, Option.getD_some, hsplit]
      refine (Placed.write d (base + off) _).append ?_
      rw [hsize, Nat.add_assoc]
      exact ih (by omega) (by omega) _

/-! ## Sending -/

section
variable {om : Mbuf} {payload : List UInt8} {dst tspCode : UInt16}

/-- The length of a packet. -/
lemma Carries.pktlen (h : Carries om payload dst tspCode) :
    om.pktlen = payload.length + trailerSize := by
  obtain ⟨retries, hflat⟩ := h
  rw [Mbuf.pktlen, hflat, List.length_append, trailer_length]

/-- The address and the code are found in front of the retries. -/
lemma Carries.copydata16 (h : Carries om payload dst tspCode) :
    copydata16 om (om.pktlen - 6) = some dst ∧ copydata16 om (om.pktlen - 4) = some tspCode := by
  have hlen := h.pktlen
  rw [trailerSize] at hlen
  obtain ⟨retries, hflat⟩ := h
  have h6 : om.pktlen - 6 = payload.length := by omega
  have h4 : om.pktlen - 4 = payload.length + 2 := by omega
  rw [Transport.copydata16, Transport.copydata16, dplMbufCopydata_some (by omega),
    dplMbufCopydata_some (by omega), h6, h4, hflat, List.drop_left, List.drop_length_add_append]
  constructor
  · exact congrArg some (ofLe16_le16 dst)
  · exact congrArg some (ofLe16_le16 tspCode)

/-- `uwb_transport_write_tx` places the frame of a packet and sets its length and offset. -/
lemma writeTx_placed (cfg : Config) (hw : TxBuffer D) (h : Carries om payload dst tspCode)
    (hlen : payload.length < 2 ^ 15) (idx : Nat) (t : Instance D) :
    ∃ t', writeTx cfg hw om idx t = some t' ∧
      Placed hw t.dev t'.dev (txBufferHalf idx) ((headerOf cfg t dst tspCode).bytes ++ payload) ∧
      t'.txBufferLen = headerSize + payload.length ∧ t'.txBufferOffset = txBufferHalf idx := by
  obtain ⟨hdst, htsp⟩ := h.copydata16
  have hpkt := h.pktlen
  rw [trailerSize] at hpkt
  obtain ⟨retries, hflat⟩ := h
  rw [writeTx, hdst, htsp]
  refine ⟨_, rfl, ?_, ?_, rfl⟩
  · refine (Placed.write t.dev (txBufferHalf idx) _).append ?_
    have hchunks := writeChunks_placed hw (txBufferHalf idx + headerSize)
      (Nat.sub_le om.pktlen 6) (Nat.zero_le _) (Nat.le_add_left _ 0) (hw.write t.dev (headerOf cfg t dst tspCode).bytes (txBufferHalf idx))
    have hpay : (om.flat.drop 0).take (om.pktlen - 6 - 0) = payload := by
      rw [List.drop_zero, Nat.sub_zero, hpkt, Nat.add_sub_cancel, hflat, List.take_left]
    rw [hpay] at hchunks
    exact hchunks
  · show (headerSize + om.pktlen - 6) % 2 ^ 16 = _
    rw [headerSize] at *
    omega

end

/-- A packet that is enqueued carries its payload, address and code. -/
lemma enqueueTx_ok {dst tspCode retries : UInt16} {p : TxPacket} {s : Instance D}
    (hlen : p.om.pktlen ≤ cfg.mtu)
    (hext : (dplMbufExtend s.pool p.om (trailer dst tspCode retries)).isSome) :
    ∃ om, (enqueueTx cfg dst tspCode retries p s).1 = .ok ∧
      (enqueueTx cfg dst tspCode retries p s).2.txQ = s.txQ ++ [⟨p.id, om⟩] ∧
      om.flat = p.om.flat ++ trailer dst tspCode retries := by
  obtain ⟨⟨om, pool⟩, he⟩ := Option.isSome_iff_exists.mp hext
  refine ⟨om, ?_⟩
  rw [enqueueTx, if_neg (Nat.not_lt.mpr hlen), he]
  exact ⟨rfl, rfl, (dplMbufExtend_some he).1⟩

/-! ## Receiving -/

/-- A payload is stored if and only if there is memory for it. -/
lemma storePayload_isSome (pool : Pool) (payload : List UInt8) :
    (storePayload pool payload).isSome ↔ HasMemory pool payload.length := by
  rw [storePayload, HasMemory, dplMbufGetPkthdr]
  split
  case isTrue h =>
    simp only [Option.bind_none, Option.isSome_none, Bool.false_eq_true, false_iff]
    omega
  case isFalse h =>
    split
    case isTrue h0 =>
      simp only [Option.bind_none, Option.isSome_none, Bool.false_eq_true, false_iff]
      omega
    case isFalse h0 =>
      rw [Option.bind_some, dplMbufCopyinto_isSome]
      dsimp only
      omega

/-- What is stored is the payload. -/
lemma storePayload_flat {pool pool' : Pool} {payload : List UInt8} {m : Mbuf}
    (h : storePayload pool payload = some (m, pool')) : m.flat = payload := by
  obtain ⟨⟨room, pool''⟩, -, hcopy⟩ := Option.bind_eq_some_iff.mp h
  exact dplMbufCopyinto_flat hcopy

/-- Taking buffers leaves the size of the blocks alone. -/
lemma storePayload_databufLen {pool pool' : Pool} {payload : List UInt8} {m : Mbuf}
    (h : storePayload pool payload = some (m, pool')) : pool'.databufLen = pool.databufLen := by
  obtain ⟨⟨room, pool''⟩, hget, hcopy⟩ := Option.bind_eq_some_iff.mp h
  obtain ⟨⟨segs, free⟩, -, he⟩ := Option.map_eq_some_iff.mp hcopy
  cases he
  rw [dplMbufGetPkthdr] at hget
  split at hget
  · cases hget
  · split at hget
    · cases hget
    · cases hget
      rfl

/-- A frame that is taken, for which there is memory, is put on `rx_q`. -/
lemma acceptFrame_rxQ {rx : RxInfo} {r : Instance D} {payload : List UInt8}
    (hp : rx.payload = payload) (hmem : HasMemory r.pool payload.length) :
    ∃ m, m.flat = payload ∧ (acceptFrame rx r).rxQ =
      r.rxQ ++ [⟨(readHeader rx.rxbuf).tspCode, (readHeader rx.rxbuf).srcAddress, m⟩] := by
  obtain ⟨⟨m, pool⟩, hs⟩ := Option.isSome_iff_exists.mp ((storePayload_isSome r.pool payload).mpr hmem)
  refine ⟨m, storePayload_flat hs, ?_⟩
  rw [acceptFrame, hp]
  dsimp only
  rw [hs]

/-- A frame of the transport is no acknowledgment. -/
lemma fctrl_ne_ack {fctrl : UInt16} (h : isTransportFctrl fctrl = true) :
    fctrl ≠ fctrlFrameTypeAck := by
  rintro rfl
  revert h
  decide

/-- A frame that passes all checks is taken. -/
lemma rxCompleteCb_taken {rx : RxInfo} {r : Instance D} (hfctrl : isTransportFctrl rx.fctrl = true)
    (hus : isForUs r (readHeader rx.rxbuf) = true)
    (hdup : isDuplicate cfg r rx.cputime (readHeader rx.rxbuf) = false) :
    rxCompleteCb cfg rx r =
      (true, acceptFrame rx { r with awaitingAckTx := r.awaitingAckTx || rx.autoackTriggered }) := by
  rw [rxCompleteCb, if_neg (fctrl_ne_ack hfctrl), hfctrl, Bool.not_true, if_neg Bool.false_ne_true]
  dsimp only
  rw [if_pos]
  rw [Bool.and_eq_true, Bool.not_eq_true']
  exact ⟨hus, hdup⟩

/-- The header of a frame that is sent has one of the two frame controls of the transport. -/
lemma headerOf_fctrl (t : Instance D) (dst tspCode : UInt16) :
    isTransportFctrl (headerOf cfg t dst tspCode).fctrl = true := by
  rw [headerOf]
  dsimp only
  split
  · decide
  · decide

/-- Its code is in the range of the transport, so that only the address decides. -/
lemma isForUs_headerOf {r : Instance D} (t : Instance D) {dst : UInt16} (tspCode : UInt16)
    (h : dst = r.uid ∨ dst = broadcastAddress) : isForUs r (headerOf cfg t dst tspCode) = true := by
  have hcode : (!(trnsprtRequest < trnsprtRequest || trnsprtEnd < trnsprtRequest)) = true := by
    decide
  rw [isForUs, headerOf]
  dsimp only
  rw [hcode, Bool.true_and]
  rcases h with rfl | rfl
  · simp
  · simp

/-- What is heard of a placed frame is its header and its payload. -/
lemma Heard.parse {t t' : Instance D} {rx : RxInfo} {h : FrameHeader} {payload : List UInt8}
    (hr : Heard hw t' rx) (hp : Placed hw t.dev t'.dev t'.txBufferOffset (h.bytes ++ payload))
    (hlen : t'.txBufferLen = headerSize + payload.length) :
    readHeader rx.rxbuf = h ∧ rx.payload = payload ∧ rx.fctrl = h.fctrl := by
  have hholds : Holds rx.rxbuf 0 (h.bytes ++ payload) := by
    intro i hi
    rw [Nat.zero_add, hr.bytes i (by rwa [hlen, ← h.bytes_length, ← List.length_append]),
      hp.holds i hi]
  obtain ⟨hhdr, hpay⟩ := holds_append.mp hholds
  have hread := readHeader_bytes hhdr
  have hsize : (rx.frameLen - 13).toNat = payload.length := by
    have h13 : (13 : UInt16) ≤ rx.frameLen := by
      rw [UInt16.le_iff_toNat_le, hr.len, hlen]
      exact Nat.le_add_right 13 _
    rw [UInt16.toNat_sub_of_le _ _ h13, hr.len, hlen]
    exact Nat.add_sub_cancel_left 13 _
  refine ⟨hread, ?_, ?_⟩
  · rw [RxInfo.payload, hsize]
    exact readBytes_holds (by simpa using hpay)
  · rw [hr.fctrl, ← hread, readHeader]

/-! ## The round trip -/

/-- A payload that fits is placed behind its header in the half that the index selects, without its
    trailer, and is what a node it is addressed to puts on `rx_q`. -/
theorem framing_roundtrip (hw : TxBuffer D) (cfg : Config) (s t : Instance D) (p : TxPacket)
    (dst tspCode retries : UInt16) (idx : Nat) (hlen : p.om.pktlen ≤ cfg.mtu)
    (hext : (dplMbufExtend s.pool p.om (trailer dst tspCode retries)).isSome) :
    ∃ om, (enqueueTx cfg dst tspCode retries p s).1 = .ok ∧
      (enqueueTx cfg dst tspCode retries p s).2.txQ = s.txQ ++ [⟨p.id, om⟩] ∧
    ∃ t', writeTx cfg hw om idx t = some t' ∧
      Placed hw t.dev t'.dev (txBufferHalf idx)
        ((headerOf cfg t dst tspCode).bytes ++ p.om.flat) ∧
      headerSize + p.om.pktlen ≤ 512 ∧
      t'.txBufferLen = headerSize + p.om.pktlen ∧ t'.txBufferOffset = txBufferHalf idx ∧
    ∀ (rcfg : Config) (r : Instance D) (rx : RxInfo), Heard hw t' rx →
      dst = r.uid ∨ dst = broadcastAddress →
      isDuplicate rcfg r rx.cputime (headerOf cfg t dst tspCode) = false →
      HasMemory r.pool p.om.pktlen →
      ∃ m, m.flat = p.om.flat ∧
        (rxCompleteCb rcfg rx r).2.rxQ = r.rxQ ++ [⟨tspCode, t.uid, m⟩] := by
  obtain ⟨om, hok, hq, hflat⟩ := enqueueTx_ok hlen hext
  have hmtu : cfg.mtu ≤ 497 := by
    rw [Config.mtu, headerSize]
    split
    · decide
    · decide
  obtain ⟨t', hwrite, hplaced, htlen, htoff⟩ := writeTx_placed cfg hw
    ⟨retries, hflat⟩ (by rw [← Mbuf.pktlen]; omega) idx t
  refine ⟨om, hok, hq, t', hwrite, hplaced, ?_, htlen, htoff, ?_⟩
  · rw [headerSize]
    omega
  · intro rcfg r rx hheard hdst hdup hmem
    obtain ⟨hread, hpay, hfctrl⟩ := hheard.parse (htoff ▸ hplaced) htlen
    obtain ⟨m, hm, hq⟩ := acceptFrame_rxQ
      (r := { r with awaitingAckTx := r.awaitingAckTx || rx.autoackTriggered }) hpay hmem
    refine ⟨m, hm, ?_⟩
    rw [rxCompleteCb_taken (hfctrl ▸ headerOf_fctrl t dst tspCode)
      (hread ▸ isForUs_headerOf t tspCode hdst) (hread ▸ hdup), hq, hread]
    rfl

/-- The internal pool of 16 buffers. -/
def Pool.dflt : Pool := ⟨16, 560, 48⟩

/-- A node with nothing sent or received. -/
def freshNode (uid : UInt16) : Instance (Nat → UInt8) := .init (fun _ => 0) uid 0xdeca .dflt

/-- Two bytes in a chain of two buffers, with no room for the trailer. -/
def twoBytes : TxPacket := ⟨7, ⟨[⟨[0x55], 0⟩], ⟨[0x56], 3⟩⟩⟩

/-- Two bytes. -/
theorem framing_roundtrip_twoBytes :
    ∃ om t', writeTx .dflt plainMemory om 1 (freshNode 0x10) = some t' ∧ t'.txBufferOffset = 512 ∧
      t'.txBufferLen = 15 ∧ t'.dev 525 = 0x55 ∧ t'.dev 526 = 0x56 ∧ t'.dev 527 = 0 := by
  obtain ⟨om, -, -, t', hwrite, hplaced, -, hlen, hoff, -⟩ :=
    framing_roundtrip plainMemory .dflt (freshNode 0x10) (freshNode 0x10) twoBytes 0x20 0x44 3 1
      (by decide) (by decide)
  refine ⟨om, t', hwrite, hoff, hlen, ?_, ?_, ?_⟩
  · exact hplaced.holds 13 (by decide)
  · exact hplaced.holds 14 (by decide)
  · exact hplaced.other 527 (.inr (by decide))

/-- The node that has enqueued and written them. -/
def twoBytesWritten : Instance (Nat → UInt8) :=
  let s := (enqueueTx .dflt 0x20 0x44 3 twoBytes (freshNode 0x10)).2
  (s.txQ.head?.bind fun p => writeTx .dflt plainMemory p.om 0 s).getD s

/-- The frame as it is heard at a time. -/
def twoBytesHeard (cputime : UInt32) : RxInfo :=
  ⟨0x8861, 15, fun i => plainMemory.read twoBytesWritten.dev i, false, cputime⟩

/-- A frame heard again 5 ms later, or for which there is no buffer, is not put on `rx_q`. -/
theorem framing_roundtrip_fails :
    (¬ ∀ (r : Instance (Nat → UInt8)) (rx : RxInfo), Heard plainMemory twoBytesWritten rx →
      r.uid = 0x20 → HasMemory r.pool twoBytes.om.pktlen →
      ∃ m, m.flat = twoBytes.om.flat ∧
        (rxCompleteCb .dflt rx r).2.rxQ = r.rxQ ++ [⟨0x44, 0x10, m⟩]) ∧
    ¬ ∀ (r : Instance (Nat → UInt8)) (rx : RxInfo), Heard plainMemory twoBytesWritten rx →
      r.uid = 0x20 →
      isDuplicate .dflt r rx.cputime (headerOf .dflt (freshNode 0x10) 0x20 0x44) = false →
      ∃ m, m.flat = twoBytes.om.flat ∧
        (rxCompleteCb .dflt rx r).2.rxQ = r.rxQ ++ [⟨0x44, 0x10, m⟩] := by
  have hheard : ∀ time, Heard plainMemory twoBytesWritten (twoBytesHeard time) := by
    intro time
    have hoff : twoBytesWritten.txBufferOffset = 0 := by decide +kernel
    refine ⟨?_, fun i _ => ?_, ?_⟩
    · show 15 = twoBytesWritten.txBufferLen
      decide +kernel
    · rw [hoff, Nat.zero_add]
      rfl
    · show 0x8861 = read16 (twoBytesHeard 0).rxbuf 0
      decide +kernel
  constructor
  · intro h
    obtain ⟨m, -, hq⟩ := h (rxCompleteCb .dflt (twoBytesHeard 1000) (freshNode 0x20)).2
      (twoBytesHeard 6000) (hheard 6000) (by decide +kernel) (by decide +kernel)
    have hlen := congrArg List.length hq
    rw [List.length_append, List.length_singleton] at hlen
    revert hlen
    decide +kernel
  · intro h
    obtain ⟨m, -, hq⟩ := h { freshNode 0x20 with pool := ⟨0, 560, 48⟩ } (twoBytesHeard 1000)
      (hheard 1000) rfl (by decide +kernel)
    have hlen := congrArg List.length hq
    rw [List.length_append, List.length_singleton] at hlen
    revert hlen
    decide +kernel

end UwbCore.Transport
