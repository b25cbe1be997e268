import UwbCore.Lib.Table

/-!
# The slots of a superframe and their timers

At the start of a superframe `tdma_superframe_slot_cb` stops all timers and starts that of each
assigned slot again (lib/tdma/src/tdma.c). The conversions of the clocks are those of the port:
`dwtUsecsToUsecs` is any function, and a time in microseconds becomes ticks of the timer by
multiplication with the rate of the timer, rounded down.
-/

namespace UwbCore.Tdma
open UwbCore.Lib

/-- `tdma_slot_t`: the start of the slot, and when its timer fires if it runs. -/
structure Slot where
  cputimeSlotStart : BitVec 32
  timer : Option (BitVec 32)
  deriving DecidableEq

/-- `tdma_instance_t` -/
structure Instance where
  nslots : BitVec 16
  osEpoch : BitVec 32
  superframeSlot : Slot
  slot : Table (Option Slot)

/-- The build and the clocks of the port, with the ticks of the timer in a second. -/
structure Cfg where
  osLatency : BitVec 32
  dwtUsecsToUsecs : BitVec 32 → BitVec 32
  rate : Nat

/-- `dpl_cputime_usecs_to_ticks` -/
def usecsToTicks (rate : Nat) (usecs : BitVec 32) : BitVec 32 :=
  BitVec.ofNat 32 (usecs.toNat * rate / 1000000)

/-- `dpl_cputime_timer_stop` -/
def Slot.stop (s : Slot) : Slot := { s with timer := none }

/-- The start of a slot, and its timer with it. -/
def Slot.startAt (t : BitVec 32) (_ : Slot) : Slot := ⟨t, some t⟩

variable (cfg : Cfg) (period : BitVec 32) (tdma : Instance)

/-- The local `slot_period_us`. -/
def slotPeriodUs : BitVec 32 := cfg.dwtUsecsToUsecs (period / tdma.nslots.setWidth 32)

/-- The start that is programmed for a slot. -/
def slotStart (i : Nat) : BitVec 32 :=
  tdma.osEpoch + usecsToTicks cfg.rate
    (BitVec.ofNat 32 i * slotPeriodUs cfg period tdma - cfg.osLatency)

/-- C `tdma_superframe_slot_cb`, with the period of the clock. -/
def tdmaSuperframeSlotCb : Instance :=
  let stopped := (List.range tdma.nslots.toNat).foldl
    (fun t i => t.modify i (Option.map Slot.stop)) tdma.slot
  let started := (List.range tdma.nslots.toNat).foldl
    (fun t i => t.modify i (Option.map (Slot.startAt (slotStart cfg period tdma i)))) stopped
  { tdma with
    slot := started
    superframeSlot := tdma.superframeSlot.stop.startAt (tdma.osEpoch + usecsToTicks cfg.rate
      (cfg.dwtUsecsToUsecs period + slotPeriodUs cfg period tdma)) }

/-- The slots after the callback: each assigned one has its start. -/
lemma superframe_slot (i : Nat) : (tdmaSuperframeSlotCb cfg period tdma).slot i =
    if i < tdma.nslots.toNat then (tdma.slot i).map (Slot.startAt (slotStart cfg period tdma i))
    else tdma.slot i := by
  show (List.foldl _ _ (List.range _) : Table (Option Slot)) i = _
  rw [Table.foldl_modify_range]
  split
  case isTrue hi =>
    rw [Table.foldl_modify_range, if_pos hi, Option.map_map]
    rfl
  case isFalse hi => rw [Table.foldl_modify_range, if_neg hi]

end UwbCore.Tdma
