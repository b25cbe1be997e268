import UwbCore.Lib.Run
import UwbCore.Lib.Calls

/-!
# The record queues of the character devices

In the kernel the JSON lines of the clock calibration and of the ranging service go through a FIFO of
records to the processes that read the device. The writers (`ccp_chrdev_output`, `rng_encode_output`)
hold `write_lock`, and make room under `read_lock` by dropping the oldest record until theirs fits; the
readers take records under `read_lock`. Both locks are taken interruptibly. The two devices have the
same code; their FIFOs differ in size.

Any number of calls of all kinds run side by side, one step between two accesses to what they share at
a time. The FIFO of the kernel is a parameter (`RecordKfifo`), of which only its documented behaviour
is known. What has been queued, read and dropped is kept beside it.
-/

namespace UwbCore.Chrdev
open UwbCore.Lib

/-! ## The FIFO -/

abbrev Record := List UInt8

/-- A kfifo of records. `kfifo_in` stores the whole record and returns its length, or returns 0;
    `kfifo_skip` drops the oldest record; `kfifo_to_user` takes the oldest record and copies as much
    of it as there is room for, and takes none if that fails. -/
structure RecordKfifo where
  State : Type
  content : State → List Record
  kfifoIn : State → Record → State × Nat
  kfifoSkip : State → State
  kfifoToUser : State → Nat → Bool → State × Option Record
  in_full : ∀ s r, r ≠ [] → (kfifoIn s r).2 = 0 → (kfifoIn s r).1 = s
  in_stores : ∀ s r, (kfifoIn s r).2 ≠ 0 →
    (kfifoIn s r).2 = r.length ∧ content (kfifoIn s r).1 = content s ++ [r]
  skip_cons : ∀ s r rest, content s = r :: rest → content (kfifoSkip s) = rest
  toUser_nil : ∀ s len fault, content s = [] → content (kfifoToUser s len fault).1 = []
  toUser_cons : ∀ s len r rest, content s = r :: rest →
    content (kfifoToUser s len false).1 = rest ∧ (kfifoToUser s len false).2 = some (r.take len)
  toUser_fault : ∀ s len, content s ≠ [] →
    content (kfifoToUser s len true).1 = content s ∧ (kfifoToUser s len true).2 = none

/-- A record fits the FIFO as it is. -/
def RecordKfifo.Fits (K : RecordKfifo) (s : K.State) (r : Record) : Prop := (K.kfifoIn s r).2 ≠ 0

instance (K : RecordKfifo) (s : K.State) (r : Record) : Decidable (K.Fits s r) :=
  inferInstanceAs (Decidable (_ ≠ _))

/-- A record of at least one byte that fits an empty FIFO. -/
structure FitRecord (K : RecordKfifo) where
  bytes : Record
  nonempty : bytes ≠ []
  fits : ∀ s, K.content s = [] → K.Fits s bytes

namespace RecordKfifo
variable {K : RecordKfifo} {s s' : K.State} {len : Nat} {fault : Bool}

/-- A reader that gets something has taken the oldest record. -/
lemma toUser_some {copied : Record} (h : K.kfifoToUser s len fault = (s', some copied)) :
    K.content s' = (K.content s).tail := by
  cases e : K.content s with
  | nil =>
    have hnil := K.toUser_nil s len fault e
    rwa [h] at hnil
  | cons r rest =>
    cases fault with
    | true =>
      have hfault := (K.toUser_fault s len (e ▸ List.cons_ne_nil r rest)).2
      rw [h] at hfault
      cases hfault
    | false =>
      have hrest := (K.toUser_cons s len r rest e).1
      rwa [h] at hrest

/-- A reader whose buffer cannot be written leaves the records alone. -/
lemma toUser_none (h : K.kfifoToUser s len fault = (s', none)) : K.content s' = K.content s := by
  cases e : K.content s with
  | nil =>
    have hnil := K.toUser_nil s len fault e
    rwa [h] at hnil
  | cons r rest =>
    cases fault with
    | true =>
      have hfault := (K.toUser_fault s len (e ▸ List.cons_ne_nil r rest)).1
      rwa [h, e] at hfault
    | false =>
      have hsome := (K.toUser_cons s len r rest e).2
      rw [h] at hsome
      cases hsome

end RecordKfifo

/-- `STRUCT_KFIFO_REC_2(size)`: two bytes before each record tell its length. -/
def kfifoRec2 (size : Nat) : RecordKfifo where
  State := List Record
  content := id
  kfifoIn s r :=
    if (s.map fun q => q.length + 2).sum + (r.length + 2) ≤ size then (s ++ [r], r.length) else (s, 0)
  kfifoSkip s := s.tail
  kfifoToUser s len fault :=
    match s with
    | [] => ([], some [])
    | r :: rest => if fault then (r :: rest, none) else (rest, some (r.take len))
  in_full s r hr h := by
    split at h
    case isTrue => exact absurd (List.eq_nil_of_length_eq_zero h) hr
    case isFalse hfull => rw [if_neg hfull]
  in_stores s r h := by
    split at h
    case isTrue hfit =>
      rw [if_pos hfit]
      exact ⟨rfl, rfl⟩
    case isFalse => exact absurd rfl h
  skip_cons s r rest h := by
    obtain rfl : s = r :: rest := h
    rfl
  toUser_nil s len fault h := by
    obtain rfl : s = [] := h
    rfl
  toUser_cons s len r rest h := by
    obtain rfl : s = r :: rest := h
    exact ⟨rfl, rfl⟩
  toUser_fault s len h := by
    cases s with
    | nil => exact absurd rfl h
    | cons r rest => exact ⟨rfl, rfl⟩

/-- In an empty queue there is room for a record and the two bytes of its length. -/
lemma kfifoRec2_fits {size : Nat} {r : Record} (hr : r ≠ []) (hsize : r.length + 2 ≤ size)
    (s : (kfifoRec2 size).State) (hs : (kfifoRec2 size).content s = []) :
    (kfifoRec2 size).Fits s r := by
  obtain rfl : s = ([] : List Record) := hs
  have hfit : (([] : List Record).map fun q => q.length + 2).sum + (r.length + 2) ≤ size := by
    simpa using hsize
  intro h
  have hlen : ((kfifoRec2 size).kfifoIn ([] : List Record) r).2 = r.length := by
    show (if _ then _ else _ : List Record × Nat).2 = _
    rw [if_pos hfit]
  rw [hlen] at h
  exact hr (List.eq_nil_of_length_eq_zero h)

/-- `FIFO_SIZE` of ccp_chrdev.c is four pages. -/
def ccpFifo (pageSize : Nat) : RecordKfifo := kfifoRec2 (pageSize * 4)

/-- `FIFO_SIZE` of rng_chrdev.c. -/
def rngFifo : RecordKfifo := kfifoRec2 8192

/-! ## The calls -/

def einval : Int := 22
def eagain : Int := 11
def efault : Int := 14
def erestartsys : Int := 512

/-- `POLLIN | POLLRDNORM` -/
def pollinRdnorm : Int := 0x41

/-- `struct ccp_encode_data` or `struct uwbrng_encode_data`, the locks by the calls that hold them; and
    what the FIFO held at first, the records queued since with their calls, the records that left it,
    and for each that was dropped whether the one to be queued would have fitted. -/
structure EncodeData (K : RecordKfifo) where
  fifo : K.State
  haveInit : Bool
  readLock : Option Nat
  writeLock : Option Nat
  first : List Record
  queued : List (Nat × Record)
  gone : List Record
  drops : List Bool

/-- `mutex_lock_interruptible` by call `i`: a free lock is taken, whether a signal is pending or not; the
    wait for another holder ends with a signal. -/
def mutexLockInterruptible {α : Type} (lock : Option Nat) (signal : Bool)
    (taken interrupted waiting : α) : α :=
  match lock with
  | none => taken
  | some _ => if signal then interrupted else waiting

/-- What holds of each outcome of asking for a lock holds of asking for it. -/
lemma mutexLockInterruptible_elim {α : Type} {P : α → Prop} {lock : Option Nat} {signal : Bool}
    {taken interrupted waiting : α} (htaken : lock = none → P taken)
    (hinterrupted : lock ≠ none → signal = true → P interrupted)
    (hwaiting : lock ≠ none → signal = false → P waiting) :
    P (mutexLockInterruptible lock signal taken interrupted waiting) := by
  cases lock with
  | none => exact htaken rfl
  | some j =>
    have hheld : some j ≠ none := Option.some_ne_none j
    cases signal with
    | true => exact hinterrupted hheld rfl
    | false => exact hwaiting hheld rfl

/-- Where `ccp_chrdev_output` or `rng_encode_output` is: before the statement it is named for. -/
inductive OutputPc where
  | lockWrite | kfifoIn | lockRead | kfifoSkip | unlockRead
  | unlockWrite (ret : Int)
  | done (ret : Int)
  deriving DecidableEq, Repr

/-- Where `ccp_chrdev_read` or `rng_chrdev_read` is. -/
inductive ReadPc where
  | isEmpty | wait | lockRead | kfifoToUser
  | unlockRead (ret : Int) (copied : Record)
  | done (ret : Int) (copied : Record)
  deriving DecidableEq, Repr

/-- Where `ccp_poll` or `rng_poll` is. -/
inductive PollPc where
  | lockRead | isEmpty
  | unlockRead (mask : Int)
  | done (ret : Int)
  deriving DecidableEq, Repr

section Steps
variable {K : RecordKfifo} (ed : EncodeData K) (i : Nat) (signal fault : Bool)

/-- The checks before the lock; a negative index is a large one as a `size_t`. -/
def outputEntry (deviceMax : Nat) (idx : Int) : OutputPc :=
  if idx < 0 ∨ deviceMax ≤ idx then .done (-einval)
  else if !ed.haveInit then .done 0
  else .lockWrite

/-- One step of `ccp_chrdev_output` or `rng_encode_output`. -/
def outputStep (buf : Record) : OutputPc → EncodeData K × OutputPc
  | .lockWrite =>
    mutexLockInterruptible ed.writeLock signal
      ({ ed with writeLock := some i }, .kfifoIn)
      (ed, .done (-erestartsys))
      (ed, .lockWrite)
  | .kfifoIn =>
    let (fifo, ret) := K.kfifoIn ed.fifo buf
    if ret = 0 then ({ ed with fifo := fifo }, .lockRead)
    else ({ ed with fifo := fifo, queued := ed.queued ++ [(i, buf)] }, .unlockWrite ret)
  | .lockRead =>
    mutexLockInterruptible ed.readLock signal
      ({ ed with readLock := some i }, .kfifoSkip)
      (ed, .done (-erestartsys))
      (ed, .lockRead)
  | .kfifoSkip =>
    ({ ed with
        fifo := K.kfifoSkip ed.fifo
        gone := ed.gone ++ (K.content ed.fifo).head?.toList
        drops := ed.drops ++ [decide (K.Fits ed.fifo buf)] }, .unlockRead)
  | .unlockRead => ({ ed with readLock := none }, .kfifoIn)
  | .unlockWrite ret => ({ ed with writeLock := none }, .done ret)
  | .done ret => (ed, .done ret)

/-- One step of `ccp_chrdev_read` or `rng_chrdev_read`. -/
def readStep (nonblock : Bool) (len : Nat) : ReadPc → EncodeData K × ReadPc
  | .isEmpty =>
    if K.content ed.fifo = [] ∧ nonblock then (ed, .done (-eagain) []) else (ed, .wait)
  | .wait =>
    -- a signal ends the wait, and is looked for after a wait that ended without one
    if signal then (ed, .done (-erestartsys) [])
    else if K.content ed.fifo = [] then (ed, .wait)
    else (ed, .lockRead)
  | .lockRead =>
    mutexLockInterruptible ed.readLock signal
      ({ ed with readLock := some i }, .kfifoToUser)
      (ed, .done (-erestartsys) [])
      (ed, .lockRead)
  | .kfifoToUser =>
    match K.kfifoToUser ed.fifo len fault with
    | (fifo, some copied) =>
      ({ ed with fifo := fifo, gone := ed.gone ++ (K.content ed.fifo).head?.toList },
        .unlockRead copied.length copied)
    | (fifo, none) => ({ ed with fifo := fifo }, .unlockRead (-efault) [])
  | .unlockRead ret copied => ({ ed with readLock := none }, .done ret copied)
  | .done ret copied => (ed, .done ret copied)

/-- One step of `ccp_poll` or `rng_poll`. -/
def pollStep : PollPc → EncodeData K × PollPc
  | .lockRead =>
    mutexLockInterruptible ed.readLock signal
      ({ ed with readLock := some i }, .isEmpty)
      (ed, .done (-erestartsys))
      (ed, .lockRead)
  | .isEmpty => (ed, .unlockRead (if K.content ed.fifo = [] then 0 else pollinRdnorm))
  | .unlockRead mask => ({ ed with readLock := none }, .done mask)
  | .done ret => (ed, .done ret)

end Steps

/-- A call that has not begun, or what it was called with and where it is. -/
inductive Call (K : RecordKfifo) where
  | idle
  | output (buf : FitRecord K) (pc : OutputPc)
  | read (nonblock : Bool) (len : Nat) (pc : ReadPc)
  | poll (pc : PollPc)

/-- One step of a call. -/
def Call.step {K : RecordKfifo} (ed : EncodeData K) (i : Nat) (signal fault : Bool) :
    Call K → EncodeData K × Call K
  | .idle => (ed, .idle)
  | .output buf pc =>
    let (ed', pc') := outputStep ed i signal buf.bytes pc
    (ed', .output buf pc')
  | .read nonblock len pc =>
    let (ed', pc') := readStep ed i signal fault nonblock len pc
    (ed', .read nonblock len pc')
  | .poll pc =>
    let (ed', pc') := pollStep ed i signal pc
    (ed', .poll pc')

/-- A device and the calls on it. -/
abbrev World (K : RecordKfifo) := Calls (EncodeData K) (Call K)

/-- A call begins, or takes a step: then a signal may be pending for it, and the buffer of a reader may
    not be writable. -/
inductive Event (K : RecordKfifo) where
  | output (i : Nat) (idx : Int) (buf : FitRecord K)
  | read (i : Nat) (nonblock : Bool) (len : Nat)
  | poll (i : Nat)
  | step (i : Nat) (signal fault : Bool)

section Worlds
variable {K : RecordKfifo}

/-- Call `i` begins, if no call has its number. -/
def World.begin (w : World K) (i : Nat) (c : Call K) : World K :=
  match w.calls i with
  | .idle => w.act i (w.shared, c)
  | _ => w

/-- A call with an index of the array is one on the device of the world. -/
def World.step (deviceMax : Nat) (w : World K) : Event K → World K
  | .output i idx buf => w.begin i (.output buf (outputEntry w.shared deviceMax idx))
  | .read i nonblock len => w.begin i (.read nonblock len .isEmpty)
  | .poll i => w.begin i (.poll .lockRead)
  | .step i signal fault => w.act i ((w.calls i).step w.shared i signal fault)

/-- A device with a FIFO of any content and free locks, before any call. -/
def World.init (fifo : K.State) (haveInit : Bool) : World K where
  shared :=
    { fifo := fifo
      haveInit := haveInit
      readLock := none
      writeLock := none
      first := K.content fifo
      queued := []
      gone := []
      drops := [] }
  calls := fun _ => .idle

end Worlds

end UwbCore.Chrdev
