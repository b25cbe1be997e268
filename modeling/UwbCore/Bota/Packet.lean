import UwbCore.Lib.Tiling
import UwbCore.Bota.Basic

/-!
# Broadcast packets

`bcast_ota_get_packet` of `bcast_ota.c`, which hands out an image slot piece by piece. What an
encoder call fails to write is missing from the packet: the error is collected and not looked at. So
the packets are complete exactly as long as no encoder call fails before the last one succeeds, and
their data tile the slot in any case (`transmit_tiles`).
-/

namespace UwbCore.Bota
open UwbCore.Lib

/-- C `bcast_ota_mode_t`. -/
inductive Mode where
  | none
  | resetOffset
  | resendEnd
  deriving DecidableEq, Repr

/-- What the encoder is called with. -/
inductive Item where
  | text (s : String)
  | uint (n : UInt64)
  | byteString (bytes : List UInt8)
  deriving DecidableEq, Repr

/-- The slot that is sent: its content, and whether `imgr_read_info` takes it for an image. -/
structure Source where
  image : List UInt8
  image_length : image.length < 2 ^ 32
  infoOk : Bool

/-- `fa_size` of the slot. -/
def Source.faSize (src : Source) : UInt32 := UInt32.ofNat src.image.length

/-- Which allocations of a call succeed: the buffer, the packet, its header, the map, the encoder
    calls in their order, and the end of the map. -/
structure Allocs where
  buf : Bool
  pkthdr : Bool
  hdr : Bool
  map : Bool
  items : Nat → Bool
  close : Bool

/-- The arguments of `buf_to_bota_nmgr_mbuf`. -/
structure Packet where
  off : UInt32
  size : UInt32
  dstSlot : UInt64
  flags : UInt64
  data : List UInt8
  deriving DecidableEq, Repr

/-- What is encoded for a packet; the slot, the size and the flags go with offset 0 only. -/
def Packet.items (p : Packet) : List Item :=
  (if p.off = 0 then
    [.text "s", .uint p.dstSlot, .text "l", .uint p.size.toUInt64, .text "f", .uint p.flags]
  else []) ++ [.text "o", .uint p.off.toUInt64, .text "d", .byteString p.data]

/-- The items whose encoding succeeds; `g_err` is not looked at. -/
def written (ok : Nat → Bool) (items : List Item) : List Item :=
  (items.zipIdx.filter fun x => ok x.2).map Prod.fst

/-- C `buf_to_bota_nmgr_mbuf`; `none` is NULL. -/
def bufToBotaNmgrMbuf (a : Allocs) (p : Packet) : Option (List Item) :=
  if a.pkthdr && a.hdr && a.map && a.close then some (written a.items p.items) else none

/-- A packet that is handed out, with what is in it. -/
structure Sent where
  packet : Packet
  items : List Item
  deriving DecidableEq, Repr

/-- What `bcast_ota_get_packet` leaves behind: its return code, `*rsp`, and its static `off`. -/
structure Fetch where
  rc : Nat
  rsp : Option Sent
  off : UInt32
  deriving DecidableEq, Repr

/-- `CBOR_OVERHEAD` -/
def cborOverhead : Int := 36
def osEnomem : Nat := 1

/-- The bytes from `off` to the end of the slot, as the difference of two values of type `int`. -/
def Source.rest (src : Source) (off : UInt32) : Int := (src.faSize.toInt32 - off.toInt32).toInt

/-- The part of `bcast_ota_get_packet` behind the checks. -/
def fetchAt (src : Source) (bufsz : Int) (flags : UInt64) (a : Allocs) (off : UInt32) : Fetch :=
  if off < src.faSize then
    let len := min (src.rest off) bufsz
    let p : Packet := ⟨off, src.faSize, 1, flags, (src.image.drop off.toNat).take len.toNat⟩
    match bufToBotaNmgrMbuf a p with
    | none => ⟨osEnomem, none, off⟩
    | some items => ⟨0, some ⟨p, items⟩, off + UInt32.ofInt len⟩
  else ⟨0, none, off⟩

/-- The size of the buffer for the data. -/
def bufsz (headerSize : Nat) (mode : Mode) (mtu : Int) : Int :=
  if mode = .resetOffset then headerSize + 8 else mtu - cborOverhead

/-- C `bcast_ota_get_packet`. -/
def bcastOtaGetPacket (headerSize : Nat) (src : Source) (mode : Mode) (mtu : Int) (flags : UInt64)
    (a : Allocs) (off : UInt32) : Fetch :=
  let size := bufsz headerSize mode mtu
  let off := if mode = .resetOffset then 0 else off
  if decide (mode = .resetOffset) && !src.infoOk then ⟨1, none, off⟩
  else if !a.buf then ⟨osEnomem, none, off⟩
  else
    let off := if mode = .resendEnd then src.faSize - UInt32.ofInt size else off
    fetchAt src size flags a off

/-! ## A transmission -/

/-- The packets of calls one after another, and where they lead. -/
def pull (headerSize : Nat) (src : Source) (mtu : Int) (flags : UInt64) :
    List Allocs → UInt32 → List Sent × UInt32
  | [], off => ([], off)
  | a :: as, off =>
    let r := bcastOtaGetPacket headerSize src .none mtu flags a off
    let rest := pull headerSize src mtu flags as r.off
    (r.rsp.toList ++ rest.1, rest.2)

/-- A call that resets the offset and the calls after it. -/
def transmit (headerSize : Nat) (src : Source) (mtu : Int) (flags : UInt64) (a : Allocs)
    (as : List Allocs) (off : UInt32) : List Sent × UInt32 :=
  let r := bcastOtaGetPacket headerSize src .resetOffset mtu flags a off
  let rest := pull headerSize src mtu flags as r.off
  (r.rsp.toList ++ rest.1, rest.2)

/-- The call hands out a packet while there are bytes left. -/
def Allocs.gives (a : Allocs) : Bool := a.buf && (a.pkthdr && a.hdr && a.map && a.close)

/-- No encoder call fails in a packet that is handed out. -/
def Allocs.Encodes (a : Allocs) : Prop := a.gives = true → ∀ i, a.items i = true

/-- The chunk of a packet. -/
def Sent.chunk (s : Sent) : Nat × List UInt8 := (s.packet.off.toNat, s.packet.data)

/-- Everything that was encoded for the packet is in it. -/
def Sent.Complete (s : Sent) : Prop := s.items = s.packet.items

section
variable {src : Source} {a : Allocs} {off : UInt32} {headerSize : Nat} {mtu : Int} {flags : UInt64}

/-- Where every packet is written, all of them are. -/
lemma written_all {ok : Nat → Bool} (h : ∀ i, ok i = true) (items : List Item) :
    written ok items = items := by
  have hall : (items.zipIdx.filter fun x => ok x.2) = items.zipIdx :=
    List.filter_eq_self.mpr fun x _ => h x.2
  rw [written, hall, List.zipIdx_map_fst]

/-- The size in the header is that of the image. -/
lemma faSize_toNat (src : Source) : src.faSize.toNat = src.image.length :=
  UInt32.toNat_ofNat_of_lt' src.image_length

/-- Below half of its range a number keeps its value as a signed one. -/
lemma toInt32_toInt {x : UInt32} (h : x.toNat < 2 ^ 31) : x.toInt32.toInt = x.toNat := by
  show x.toBitVec.toInt = x.toNat
  rw [BitVec.toInt_eq_toNat_of_lt (by show 2 * x.toNat < 2 ^ 32; omega)]
  rfl

/-- A count that is a natural number. -/
lemma ofInt_natCast (n : Nat) : UInt32.ofInt (n : Int) = UInt32.ofNat n := by
  apply UInt32.toNat_inj.mp
  rw [UInt32.ofInt, UInt32.toNat_ofNat', UInt32.toNat_ofNat']
  omega

/-- Below 2^31 the difference is what it should be. -/
lemma rest_eq (hsmall : src.image.length < 2 ^ 31) (hoff : off.toNat ≤ src.image.length) :
    src.rest off = (src.image.length - off.toNat : Nat) := by
  have hsize : src.faSize.toInt32.toInt = src.image.length := by
    rw [toInt32_toInt (by rwa [faSize_toNat]), faSize_toNat]
  have ho : off.toInt32.toInt = off.toNat := toInt32_toInt (by omega)
  rw [Source.rest, Int32.toInt_sub, hsize, ho, Int.bmod_eq_of_le (by omega) (by omega)]
  omega

/-- What a call does at an offset inside the slot: it hands out the next bytes, or nothing. -/
lemma fetchAt_inside (hsmall : src.image.length < 2 ^ 31) {size : Int} (hsize : 0 < size)
    (hlt : off.toNat < src.image.length) :
    let data := (src.image.drop off.toNat).take size.toNat
    let p : Packet := ⟨off, src.faSize, 1, flags, data⟩
    fetchAt src size flags a off =
      if a.pkthdr && a.hdr && a.map && a.close then
        ⟨0, some ⟨p, written a.items p.items⟩, off + UInt32.ofNat data.length⟩
      else ⟨osEnomem, none, off⟩ := by
  have hin : off < src.faSize := UInt32.lt_iff_toNat_lt.mpr (by rwa [faSize_toNat])
  have hlen : min (src.rest off) size =
      (((src.image.drop off.toNat).take size.toNat).length : Int) := by
    rw [rest_eq hsmall hlt.le, List.length_take, List.length_drop]
    omega
  have htake : (src.image.drop off.toNat).take
      ((src.image.drop off.toNat).take size.toNat).length =
        (src.image.drop off.toNat).take size.toNat := by
    rw [List.length_take, ← List.take_take, List.take_length]
  unfold fetchAt bufToBotaNmgrMbuf
  rw [if_pos hin, hlen]
  dsimp only
  rw [Int.toNat_natCast, htake, ofInt_natCast]
  cases a.pkthdr && a.hdr && a.map && a.close <;> rfl

/-- At the end of the slot nothing is handed out. -/
lemma fetchAt_end {size : Int} (hle : src.image.length ≤ off.toNat) :
    fetchAt src size flags a off = ⟨0, none, off⟩ := by
  have hout : ¬ off < src.faSize := by
    rw [UInt32.lt_iff_toNat_lt, faSize_toNat]
    exact Nat.not_lt.mpr hle
  exact if_neg hout

/-- What a call without a mode of its own does. -/
lemma getPacket_none : bcastOtaGetPacket headerSize src .none mtu flags a off =
    if a.buf then fetchAt src (mtu - cborOverhead) flags a off else ⟨osEnomem, none, off⟩ := by
  unfold bcastOtaGetPacket
  cases a.buf <;> rfl

/-- What a call that resets the offset does. -/
lemma getPacket_reset : bcastOtaGetPacket headerSize src .resetOffset mtu flags a off =
    if src.infoOk then
      if a.buf then fetchAt src (headerSize + 8) flags a 0 else ⟨osEnomem, none, 0⟩
    else ⟨1, none, 0⟩ := by
  unfold bcastOtaGetPacket
  cases src.infoOk with
  | false => rfl
  | true => cases a.buf <;> rfl

/-! ## Tiles -/

/-- A call at an offset inside the slot hands out the next chunk of it, or nothing. -/
inductive NextChunk (src : Source) (size : Int) (flags : UInt64) (a : Allocs) (off : UInt32)
    (r : Fetch) : Prop
  | given {p} :
    r.rsp = some ⟨p, written a.items p.items⟩ →
    a.gives = true →
    off.toNat < src.image.length →
    p = ⟨off, src.faSize, 1, flags, (src.image.drop off.toNat).take size.toNat⟩ →
    r.off.toNat = off.toNat + p.data.length →
    NextChunk src size flags a off r
  | withheld :
    r.rsp = none →
    r.off = off →
    (a.gives = true → src.image.length ≤ off.toNat) →
    NextChunk src size flags a off r

/-- With a buffer the bytes at the offset are read. -/
lemma fetchAt_next (hsmall : src.image.length < 2 ^ 31) {size : Int} (hsize : 0 < size)
    (hbuf : a.buf = true) : NextChunk src size flags a off (fetchAt src size flags a off) := by
  by_cases hlt : off.toNat < src.image.length
  case neg =>
    rw [fetchAt_end (Nat.not_lt.mp hlt)]
    exact .withheld rfl rfl fun _ => Nat.not_lt.mp hlt
  case pos =>
    have hfetch := @fetchAt_inside src a off flags hsmall size hsize hlt
    dsimp only at hfetch
    rw [hfetch]
    cases hg : a.pkthdr && a.hdr && a.map && a.close with
    | false =>
      refine .withheld rfl rfl fun h => ?_
      rw [Allocs.gives, hg, Bool.and_false] at h
      cases h
    | true =>
      refine .given rfl (by rw [Allocs.gives, hbuf, hg]; rfl) hlt rfl ?_
      have hlen : ((src.image.drop off.toNat).take size.toNat).length ≤
          src.image.length - off.toNat := by
        rw [List.length_take, List.length_drop]
        omega
      show (off + UInt32.ofNat _).toNat =
        off.toNat + ((src.image.drop off.toNat).take size.toNat).length
      rw [UInt32.toNat_add, UInt32.toNat_ofNat']
      omega

/-- A call without a reset gives the chunk at its offset. -/
lemma getPacket_none_next (hsmall : src.image.length < 2 ^ 31) (hmtu : cborOverhead < mtu) :
    NextChunk src (mtu - cborOverhead) flags a off
      (bcastOtaGetPacket headerSize src .none mtu flags a off) := by
  rw [getPacket_none]
  cases hbuf : a.buf with
  | false => exact .withheld rfl rfl fun h => by simp [Allocs.gives, hbuf] at h
  | true => exact fetchAt_next hsmall (by omega) hbuf

/-- The call that resets hands out the first chunk, or leaves it to the calls after it. -/
lemma getPacket_reset_next (hsmall : src.image.length < 2 ^ 31) :
    (src.infoOk = true ∧ NextChunk src (headerSize + 8) flags a 0
        (bcastOtaGetPacket headerSize src .resetOffset mtu flags a off)) ∨
      (src.infoOk = false ∧
        (bcastOtaGetPacket headerSize src .resetOffset mtu flags a off).rsp = none ∧
        (bcastOtaGetPacket headerSize src .resetOffset mtu flags a off).off = 0) := by
  rw [getPacket_reset]
  cases src.infoOk with
  | false => exact .inr ⟨rfl, rfl, rfl⟩
  | true =>
    refine .inl ⟨rfl, ?_⟩
    cases hbuf : a.buf with
    | false => exact .withheld rfl rfl fun h => by simp [Allocs.gives, hbuf] at h
    | true => exact fetchAt_next hsmall (by omega) hbuf

/-- The packet is the one for its offset. -/
def Made (src : Source) (size : Int) (flags : UInt64) (s : Sent) : Prop :=
  s.packet = ⟨s.packet.off, src.faSize, 1, flags,
    (src.image.drop s.packet.off.toNat).take size.toNat⟩

variable {r : Fetch} {size : Int}

/-- Before the end of the image a packet is not empty. -/
lemma NextChunk.data_ne {p : Packet} (hsize : 0 < size) (hlt : off.toNat < src.image.length)
    (hp : p = ⟨off, src.faSize, 1, flags, (src.image.drop off.toNat).take size.toNat⟩) :
    p.data ≠ [] := by
  intro hnil
  rw [hp] at hnil
  have hlen := congrArg List.length hnil
  rw [List.length_take, List.length_drop, List.length_nil] at hlen
  omega

/-- The chunk that a call hands out fits its place. -/
lemma NextChunk.tiles (h : NextChunk src size flags a off r) (hsize : 0 < size)
    {cs : List (Nat × List UInt8)} {m : Nat} (hrest : Tiles src.image r.off.toNat cs m) :
    Tiles src.image off.toNat (r.rsp.toList.map Sent.chunk ++ cs) m := by
  cases h with
  | @given p hrsp _ hlt hp hoff =>
    rw [hrsp]
    have hdata : p.data = (src.image.drop off.toNat).take p.data.length := by
      rw [hp]
      show _ = List.take ((src.image.drop off.toNat).take size.toNat).length _
      rw [List.length_take, ← List.take_take, List.take_length]
    have hchunk : Sent.chunk ⟨p, written a.items p.items⟩ = (off.toNat, p.data) := by
      rw [Sent.chunk, hp]
    show Tiles src.image off.toNat (Sent.chunk ⟨p, written a.items p.items⟩ :: cs) m
    rw [hchunk]
    rw [hoff] at hrest
    exact .chunk (NextChunk.data_ne hsize hlt hp) hdata hrest
  | withheld hrsp hoff _ =>
    rw [hrsp]
    rw [hoff] at hrest
    exact hrest

/-- A call keeps the offset inside the slot. -/
lemma NextChunk.off_le (h : NextChunk src size flags a off r)
    (hle : off.toNat ≤ src.image.length) : r.off.toNat ≤ src.image.length := by
  cases h with
  | @given p _ _ hlt hp hoff =>
    rw [hoff, hp, List.length_take, List.length_drop]
    omega
  | withheld _ hoff _ => rwa [hoff]

/-- A call that could hand out a chunk moves on, unless the end is reached. -/
lemma NextChunk.moves (h : NextChunk src size flags a off r) (hsize : 0 < size)
    (hg : a.gives = true) : off.toNat < r.off.toNat ∨ src.image.length ≤ r.off.toNat := by
  cases h with
  | @given p _ _ hlt hp hoff =>
    have hpos := List.length_pos_iff.mpr (NextChunk.data_ne hsize hlt hp)
    omega
  | withheld _ hoff hend =>
    rw [hoff]
    exact .inr (hend hg)

/-- The offset does not go back. -/
lemma NextChunk.le_off (h : NextChunk src size flags a off r) : off.toNat ≤ r.off.toNat := by
  cases h with
  | given _ _ _ _ hoff => omega
  | withheld _ hoff _ => rw [hoff]

/-- What a call hands out is the packet for its offset, and complete if the encoder did not fail. -/
lemma NextChunk.made (h : NextChunk src size flags a off r) {s : Sent} (hs : s ∈ r.rsp.toList) :
    Made src size flags s ∧ (a.Encodes → s.Complete) := by
  cases h with
  | @given p hrsp hg _ hp _ =>
    rw [hrsp, Option.toList_some, List.mem_singleton] at hs
    rw [hs]
    refine ⟨?_, fun he => written_all (he hg) p.items⟩
    rw [Made, hp]
  | withheld hrsp _ _ =>
    rw [hrsp] at hs
    cases hs

/-- A packet was sent only where there was memory for it. -/
lemma NextChunk.gives (h : NextChunk src size flags a off r) {s : Sent}
    (hs : s ∈ r.rsp.toList) : a.gives = true := by
  cases h with
  | given _ hg _ _ _ => exact hg
  | withheld hrsp _ _ =>
    rw [hrsp] at hs
    cases hs

/-- The packets of calls one after another. -/
lemma pull_spec (hsmall : src.image.length < 2 ^ 31) (hmtu : cborOverhead < mtu)
    (as : List Allocs) (hoff : off.toNat ≤ src.image.length) :
    Tiles src.image off.toNat ((pull headerSize src mtu flags as off).1.map Sent.chunk)
        (pull headerSize src mtu flags as off).2.toNat ∧
      (pull headerSize src mtu flags as off).2.toNat ≤ src.image.length ∧
      (src.image.length ≤ off.toNat + (as.filter Allocs.gives).length →
        (pull headerSize src mtu flags as off).2.toNat = src.image.length) ∧
      ∀ s ∈ (pull headerSize src mtu flags as off).1, Made src (mtu - cborOverhead) flags s ∧
        ((∀ a ∈ as, a.Encodes) → s.Complete) := by
  induction as generalizing off with
  | nil =>
    refine ⟨.done, hoff, fun h => le_antisymm hoff h, fun s hs => ?_⟩
    cases hs
  | cons a as ih =>
    have hnext := @getPacket_none_next src a off headerSize mtu flags hsmall hmtu
    have hpos : 0 < mtu - cborOverhead := by omega
    obtain ⟨htiles, hle, hend, hmade⟩ := ih (hnext.off_le hoff)
    refine ⟨?_, hle, fun hmany => ?_, fun s hs => ?_⟩
    · rw [pull, List.map_append]
      exact hnext.tiles hpos htiles
    · rw [pull]
      apply hend
      have hstay := hnext.le_off
      cases hg : a.gives with
      | false =>
        rw [List.filter_cons_of_neg (by simp [hg])] at hmany
        omega
      | true =>
        rw [List.filter_cons_of_pos hg, List.length_cons] at hmany
        have hmoves := hnext.moves hpos hg
        omega
    · rw [pull, List.mem_append] at hs
      cases hs with
      | inl h =>
        obtain ⟨hm, hc⟩ := hnext.made h
        exact ⟨hm, fun he => hc (he a List.mem_cons_self)⟩
      | inr h =>
        obtain ⟨hm, hc⟩ := hmade s h
        exact ⟨hm, fun he => hc fun b hb => he b (List.mem_cons_of_mem a hb)⟩

/-- The size of the first chunk: that of the call that resets, if it hands one out. -/
def firstSize (headerSize : Nat) (src : Source) (mtu : Int) (a : Allocs) : Int :=
  if src.infoOk && a.gives then headerSize + 8 else mtu - cborOverhead

/-- The transmission is the call that resets the offset and the calls after it. -/
lemma transmit_eq (as : List Allocs) :
    transmit headerSize src mtu flags a as off =
      ((bcastOtaGetPacket headerSize src .resetOffset mtu flags a off).rsp.toList ++
        (pull headerSize src mtu flags as
          (bcastOtaGetPacket headerSize src .resetOffset mtu flags a off).off).1,
        (pull headerSize src mtu flags as
          (bcastOtaGetPacket headerSize src .resetOffset mtu flags a off).off).2) := rfl

/-- The packets of a transmission tile the slot up to where it has come, and it comes to the end if
    enough calls find memory. -/
theorem transmit_tiles (hsmall : src.image.length < 2 ^ 31) (hmtu : cborOverhead < mtu)
    (as : List Allocs) :
    Tiles src.image 0 ((transmit headerSize src mtu flags a as off).1.map Sent.chunk)
        (transmit headerSize src mtu flags a as off).2.toNat ∧
      (src.image.length ≤ (as.filter Allocs.gives).length →
        (transmit headerSize src mtu flags a as off).2.toNat = src.image.length) := by
  have hpos : (0 : Int) < headerSize + 8 := by omega
  rw [transmit_eq]
  cases @getPacket_reset_next src a off headerSize mtu flags hsmall with
  | inl h =>
    obtain ⟨-, hnext⟩ := h
    obtain ⟨htiles, -, hend, -⟩ := @pull_spec src _ headerSize mtu flags hsmall hmtu as
      (hnext.off_le (Nat.zero_le _))
    rw [List.map_append]
    refine ⟨hnext.tiles hpos htiles, fun hmany => hend ?_⟩
    omega
  | inr hnone =>
    obtain ⟨-, hrsp, hoff⟩ := hnone
    obtain ⟨htiles, -, hend, -⟩ := @pull_spec src 0 headerSize mtu flags hsmall hmtu as
      (Nat.zero_le _)
    rw [hrsp, hoff]
    refine ⟨htiles, fun hmany => hend ?_⟩
    exact hmany.trans (Nat.le_add_left _ _)

/-- The first packet has the beginning of the image. -/
lemma Made.data_zero {s : Sent} (h : Made src size flags s) (h0 : s.packet.off = 0) :
    s.packet.data = src.image.take size.toNat := by
  have hdata : s.packet.data = (src.image.drop s.packet.off.toNat).take size.toNat :=
    congrArg Packet.data h
  rw [hdata, h0]
  rfl

/-- The packets of a transmission, and the data of the one with offset 0. -/
lemma transmit_made (hsmall : src.image.length < 2 ^ 31) (hmtu : cborOverhead < mtu)
    (as : List Allocs) {s : Sent} (hs : s ∈ (transmit headerSize src mtu flags a as off).1) :
    (Made src (headerSize + 8) flags s ∨ Made src (mtu - cborOverhead) flags s) ∧
      ((∀ b ∈ a :: as, b.Encodes) → s.Complete) ∧
      (s.packet.off = 0 →
        s.packet.data = src.image.take (firstSize headerSize src mtu a).toNat) := by
  rw [transmit_eq, List.mem_append] at hs
  unfold firstSize
  cases @getPacket_reset_next src a off headerSize mtu flags hsmall with
  | inr hnone =>
    obtain ⟨hinfo, hrsp, hoff⟩ := hnone
    rw [hrsp, hoff] at hs
    obtain ⟨-, -, -, hmade⟩ := @pull_spec src 0 headerSize mtu flags hsmall hmtu as
      (Nat.zero_le _)
    cases hs with
    | inl h => cases h
    | inr h =>
      obtain ⟨hm, hc⟩ := hmade s h
      refine ⟨.inr hm, fun he => hc fun b hb => he b (List.mem_cons_of_mem a hb), fun h0 => ?_⟩
      rw [hinfo]
      exact hm.data_zero h0
  | inl h =>
    obtain ⟨hinfo, hnext⟩ := h
    obtain ⟨htiles, -, -, hmade⟩ := @pull_spec src _ headerSize mtu flags hsmall hmtu as
      (hnext.off_le (Nat.zero_le _))
    rw [hinfo, Bool.true_and]
    cases hs with
    | inl h =>
      obtain ⟨hm, hc⟩ := hnext.made h
      refine ⟨.inl hm, fun he => hc (he a List.mem_cons_self), fun h0 => ?_⟩
      rw [hnext.gives h]
      exact hm.data_zero h0
    | inr h =>
      obtain ⟨hm, hc⟩ := hmade s h
      refine ⟨.inr hm, fun he => hc fun b hb => he b (List.mem_cons_of_mem a hb), fun h0 => ?_⟩
      have hdata := hm.data_zero h0
      -- these calls come to offset 0 only if the first call has handed out nothing
      have hstart : _ ≤ s.packet.off.toNat := htiles.le_offset (List.mem_map_of_mem h)
      rw [h0] at hstart
      cases hnext with
      | @given p _ _ hlt hp hoff =>
        have hne := List.length_pos_iff.mpr (NextChunk.data_ne (by omega) hlt hp)
        exact absurd (hoff ▸ hstart) (by simp; omega)
      | withheld _ _ hend =>
        cases hg : a.gives with
        | false => exact hdata
        | true =>
          have hnil : src.image = [] := List.length_eq_zero_iff.mp (Nat.le_zero.mp (hend hg))
          rw [hdata, hnil, List.take_nil, List.take_nil]

end

end UwbCore.Bota
