import UwbCore.Chrdev.Basic

/-!
# The steps of the calls

What a sound state is (`World.Sound`), and what each call knows at each of its steps (`CallInv`): no step of one
call takes away what another knows.
-/

namespace UwbCore.Chrdev
open UwbCore.Lib

variable {K : RecordKfifo}

/-! ## Sound states -/

/-- The records that a call has queued. -/
def EncodeData.queuedBy (ed : EncodeData K) (i : Nat) : List Record :=
  (ed.queued.filter fun q => q.1 = i).map Prod.snd

/-- What the FIFO held at first and what was queued since is what has left it, followed by what it
    holds. -/
def EncodeData.Ordered (ed : EncodeData K) : Prop :=
  ed.first ++ ed.queued.map Prod.snd = ed.gone ++ K.content ed.fifo

/-- What is to hold whatever the writers and readers do, as far as they have come. -/
structure World.Sound (w : World K) : Prop where
  released : ∀ i buf ret, w.calls i = .output buf (.done ret) →
    w.shared.readLock ≠ some i ∧ w.shared.writeLock ≠ some i
  order : w.shared.Ordered
  drops : ∀ fitted ∈ w.shared.drops, fitted = false
  newest : ∀ i buf ret, w.calls i = .output buf (.unlockWrite ret) →
    w.shared.queued.getLast? = some (i, buf.bytes) ∧
      ∀ r ∈ (K.content w.shared.fifo).getLast?, r = buf.bytes
  success : ∀ i buf ret, w.calls i = .output buf (.done ret) → 0 < ret →
    ret = buf.bytes.length ∧ w.shared.queuedBy i = [buf.bytes]
  failure : ∀ i buf ret, w.calls i = .output buf (.done ret) → ret ≤ 0 → w.shared.queuedBy i = []

/-- A signal does not end the wait for `read_lock` in the retry loop, and a record is dropped while the
    new one does not fit. -/
def Call.Undisturbed (ed : EncodeData K) (signal : Bool) : Call K → Prop
  | .output _ .lockRead => ¬(signal = true ∧ ed.readLock ≠ none)
  | .output buf .kfifoSkip => ¬K.Fits ed.fifo buf.bytes
  | _ => True

/-- The step of an event is undisturbed. -/
def Undisturbed (w : World K) : Event K → Prop
  | .step i signal _ => (w.calls i).Undisturbed w.shared signal
  | _ => True

/-! ## What is known of a call -/

namespace Call

def holdsRead : Call K → Bool
  | .output _ .kfifoSkip | .output _ .unlockRead => true
  | .read _ _ .kfifoToUser | .read _ _ (.unlockRead _ _) => true
  | .poll .isEmpty | .poll (.unlockRead _) => true
  | _ => false

def holdsWrite : Call K → Bool
  | .output _ .kfifoIn | .output _ .lockRead | .output _ .kfifoSkip => true
  | .output _ .unlockRead | .output _ (.unlockWrite _) => true
  | _ => false

/-- A writer that has ended. -/
def ended : Call K → Bool
  | .output _ (.done _) => true
  | _ => false

/-- What a call has queued when it is at this step. -/
def stored : Call K → List Record
  | .output buf (.unlockWrite _) => [buf.bytes]
  | .output buf (.done ret) => if 0 < ret then [buf.bytes] else []
  | _ => []

/-- The length of its record is what a writer returns when it has queued it. -/
def Returns : Call K → Prop
  | .output buf (.unlockWrite ret) => ret = buf.bytes.length
  | .output buf (.done ret) => 0 < ret → ret = buf.bytes.length
  | _ => True

end Call

/-- What a call knows at its step: the locks it holds (whether a writer that has ended gave back
    `write_lock` is left open), what it has queued, and that this is the newest before it gives back
    `write_lock`. -/
structure CallInv (ed : EncodeData K) (i : Nat) (c : Call K) : Prop where
  read : ed.readLock = some i ↔ c.holdsRead = true
  write : c.ended = false → (ed.writeLock = some i ↔ c.holdsWrite = true)
  stored : ed.queuedBy i = c.stored
  newest : ∀ buf ret, c = .output buf (.unlockWrite ret) →
    ed.queued.getLast? = some (i, buf.bytes)
  returns : c.Returns

/-- What the other calls see of a step of call `i`. -/
structure Frame (i : Nat) (ed ed' : EncodeData K) : Prop where
  read : Handover i ed.readLock ed'.readLock
  write : Handover i ed.writeLock ed'.writeLock
  queuedBy : ∀ j ≠ i, ed'.queuedBy j = ed.queuedBy j
  newest : ed'.queued = ed.queued ∨ ed.writeLock = some i

/-- The other calls go on knowing what they know. -/
lemma CallInv.of_frame {i j : Nat} {ed ed' : EncodeData K} {c : Call K} (h : CallInv ed j c)
    (hf : Frame i ed ed') (hj : j ≠ i) : CallInv ed' j c where
  read := (hf.read.others hj).trans h.read
  write hc := (hf.write.others hj).trans (h.write hc)
  stored := (hf.queuedBy j hj).trans h.stored
  newest := by
    intro buf ret e
    -- at this step the call holds `write_lock`, so call `i` does not
    have hlock : ed.writeLock = some j := (h.write (e ▸ rfl)).mpr (e ▸ rfl)
    rcases hf.newest with hq | hi
    · exact hq ▸ h.newest buf ret e
    · exact absurd (Option.some.inj (hlock.symm.trans hi)) hj
  returns := h.returns

/-- A step of call `i` from `c` to `c'` that queues nothing, in terms of the locks. -/
structure Moves (i : Nat) (ed ed' : EncodeData K) (c c' : Call K) : Prop where
  queued : ed'.queued = ed.queued
  readLock : Handover i ed.readLock ed'.readLock
  writeLock : Handover i ed.writeLock ed'.writeLock
  read : ed'.readLock = some i ↔ c'.holdsRead = true
  write : c'.ended = false → (ed'.writeLock = some i ↔ c'.holdsWrite = true)
  stored : c'.stored = c.stored
  newest : ∀ buf ret, c' ≠ .output buf (.unlockWrite ret)
  returns : c'.Returns

/-- A move leaves the locks of the others. -/
lemma Moves.frame {i : Nat} {ed ed' : EncodeData K} {c c' : Call K} (hm : Moves i ed ed' c c') :
    Frame i ed ed' where
  read := hm.readLock
  write := hm.writeLock
  queuedBy j _ := by rw [EncodeData.queuedBy, hm.queued, EncodeData.queuedBy]
  newest := .inl hm.queued

/-- A move keeps the invariant of its call. -/
lemma Moves.inv {i : Nat} {ed ed' : EncodeData K} {c c' : Call K} (hm : Moves i ed ed' c c')
    (h : CallInv ed i c) : CallInv ed' i c' where
  read := hm.read
  write := hm.write
  stored := by rw [EncodeData.queuedBy, hm.queued, hm.stored, ← h.stored, EncodeData.queuedBy]
  newest buf ret e := absurd e (hm.newest buf ret)
  returns := hm.returns

/-! ## The steps -/

/-- A step that leaves `write_lock` and the queued records alone. -/
structure Alike (c c' : Call K) : Prop where
  running : c.ended = false
  write : c'.ended = false → c'.holdsWrite = c.holdsWrite
  stored : c'.stored = c.stored
  newest : ∀ buf ret, c' ≠ .output buf (.unlockWrite ret)
  returns : c'.Returns

section Steps
variable {ed ed' : EncodeData K} {i : Nat} {c c' : Call K} (signal fault : Bool)

/-- A step that takes no lock and gives none back. -/
lemma Alike.stays (ha : Alike c c') (h : CallInv ed i c) (hr : c'.holdsRead = c.holdsRead)
    (hread : ed'.readLock = ed.readLock) (hwrite : ed'.writeLock = ed.writeLock)
    (hq : ed'.queued = ed.queued) : Moves i ed ed' c c' where
  queued := hq
  readLock := .inl hread
  writeLock := .inl hwrite
  read := by rw [hread, hr, h.read]
  write hc := by rw [hwrite, ha.write hc, h.write ha.running]
  stored := ha.stored
  newest := ha.newest
  returns := ha.returns

/-- The lock for reading is taken. -/
lemma Alike.takesRead (ha : Alike c c') (h : CallInv ed i c) (hfree : ed.readLock = none)
    (hr : c'.holdsRead = true) : Moves i ed { ed with readLock := some i } c c' where
  queued := rfl
  readLock := .inr (.inl ⟨hfree, rfl⟩)
  writeLock := .inl rfl
  read := iff_of_true rfl hr
  write hc := by rw [ha.write hc, h.write ha.running]
  stored := ha.stored
  newest := ha.newest
  returns := ha.returns

/-- The lock for reading is given back. -/
lemma Alike.givesRead (ha : Alike c c') (h : CallInv ed i c) (hr : c.holdsRead = true)
    (hr' : c'.holdsRead = false) : Moves i ed { ed with readLock := none } c c' where
  queued := rfl
  readLock := .inr (.inr ⟨h.read.mpr hr, rfl⟩)
  writeLock := .inl rfl
  read := iff_of_false (by rintro ⟨⟩) (by rw [hr']; decide)
  write hc := by rw [ha.write hc, h.write ha.running]
  stored := ha.stored
  newest := ha.newest
  returns := ha.returns

/-- A step of `ccp_chrdev_read` or `rng_chrdev_read`. -/
lemma readStep_moves {nonblock : Bool} {len : Nat} (pc : ReadPc)
    (h : CallInv ed i (.read nonblock len pc)) :
    Moves i ed (readStep ed i signal fault nonblock len pc).1 (.read nonblock len pc)
      (.read nonblock len (readStep ed i signal fault nonblock len pc).2) := by
  have alike : ∀ pc' : ReadPc, Alike (K := K) (.read nonblock len pc) (.read nonblock len pc') :=
    fun pc' => ⟨rfl, fun _ => rfl, rfl, by rintro _ _ ⟨⟩, trivial⟩
  cases pc with
  | isEmpty =>
    rw [readStep]
    split <;> exact (alike _).stays h rfl rfl rfl rfl
  | wait =>
    rw [readStep]
    split
    · exact (alike _).stays h rfl rfl rfl rfl
    · split <;> exact (alike _).stays h rfl rfl rfl rfl
  | lockRead =>
    refine mutexLockInterruptible_elim (P := fun q : EncodeData K × ReadPc =>
      Moves i ed q.1 (.read nonblock len .lockRead) (.read nonblock len q.2)) ?_ ?_ ?_
    · exact fun hfree => (alike _).takesRead h hfree rfl
    · exact fun _ _ => (alike _).stays h rfl rfl rfl rfl
    · exact fun _ _ => (alike _).stays h rfl rfl rfl rfl
  | kfifoToUser =>
    rw [readStep]
    split <;> exact (alike _).stays h rfl rfl rfl rfl
  | unlockRead ret copied => exact (alike _).givesRead h rfl rfl
  | done ret copied => exact (alike _).stays h rfl rfl rfl rfl

/-- A step of `ccp_poll` or `rng_poll`. -/
lemma pollStep_moves (pc : PollPc) (h : CallInv ed i (.poll pc)) :
    Moves i ed (pollStep ed i signal pc).1 (.poll pc) (.poll (pollStep ed i signal pc).2) := by
  have alike : ∀ pc' : PollPc, Alike (K := K) (.poll pc) (.poll pc') :=
    fun pc' => ⟨rfl, fun _ => rfl, rfl, by rintro _ _ ⟨⟩, trivial⟩
  cases pc with
  | lockRead =>
    refine mutexLockInterruptible_elim (P := fun q : EncodeData K × PollPc =>
      Moves i ed q.1 (.poll .lockRead) (.poll q.2)) ?_ ?_ ?_
    · exact fun hfree => (alike _).takesRead h hfree rfl
    · exact fun _ _ => (alike _).stays h rfl rfl rfl rfl
    · exact fun _ _ => (alike _).stays h rfl rfl rfl rfl
  | isEmpty => exact (alike _).stays h rfl rfl rfl rfl
  | unlockRead mask => exact (alike _).givesRead h rfl rfl
  | done ret => exact (alike _).stays h rfl rfl rfl rfl

/-- What a call queued does not depend on the queue. -/
lemma queuedBy_queue (ed : EncodeData K) (fifo : K.State) (i j : Nat) (buf : Record) :
    EncodeData.queuedBy { ed with fifo := fifo, queued := ed.queued ++ [(i, buf)] } j =
      ed.queuedBy j ++ if i = j then [buf] else [] := by
  rw [EncodeData.queuedBy, List.filter_append, List.map_append, EncodeData.queuedBy]
  by_cases e : i = j
  case pos => simp [e]
  case neg => simp [e]

/-- The step of a writer that queues its record. -/
lemma queue_inv {buf : FitRecord K} {fifo : K.State} (h : CallInv ed i (.output buf .kfifoIn)) :
    let ed' := { ed with fifo := fifo, queued := ed.queued ++ [(i, buf.bytes)] }
    CallInv ed' i (.output buf (.unlockWrite buf.bytes.length)) ∧ Frame i ed ed' := by
  refine ⟨⟨h.read, fun _ => h.write rfl, ?_, ?_, rfl⟩, .inl rfl, .inl rfl, ?_, ?_⟩
  · rw [queuedBy_queue, if_pos rfl, h.stored]
    rfl
  · rintro buf' ret ⟨⟩
    exact List.getLast?_concat
  · intro j hj
    rw [queuedBy_queue, if_neg (Ne.symm hj), List.append_nil]
  · exact .inr ((h.write rfl).mpr rfl)

/-- The steps of the retry loop. -/
def OutputPc.inLoop : OutputPc → Bool
  | .kfifoIn | .lockRead | .kfifoSkip | .unlockRead => true
  | _ => false

/-- The places in the loop are alike. -/
lemma alike_inLoop {buf : FitRecord K} {pc pc' : OutputPc} (h : pc.inLoop = true)
    (h' : pc'.inLoop = true) : Alike (.output buf pc) (.output buf pc') := by
  cases pc <;> cases h <;> cases pc' <;> cases h' <;>
    exact ⟨rfl, fun _ => rfl, rfl, by rintro _ _ ⟨⟩, trivial⟩

/-- A call that is interrupted before it has the lock. -/
lemma alike_interrupted {buf : FitRecord K} {pc : OutputPc} (h : pc = .lockWrite ∨ pc = .lockRead) :
    Alike (.output buf pc) (.output buf (.done (-erestartsys))) := by
  have hret : (0 : Int) < -erestartsys → -erestartsys = buf.bytes.length := by
    intro h
    exact absurd h (by decide)
  rcases h with rfl | rfl <;> exact ⟨rfl, by rintro ⟨⟩, rfl, by rintro _ _ ⟨⟩, hret⟩

/-- Nothing changed. -/
lemma Frame.refl (i : Nat) (ed : EncodeData K) : Frame i ed ed :=
  ⟨.inl rfl, .inl rfl, fun _ _ => rfl, .inl rfl⟩

/-- The step of a writer that gives back `write_lock`. -/
lemma unlockWrite_moves {buf : FitRecord K} {ret : Int}
    (h : CallInv ed i (.output buf (.unlockWrite ret))) :
    Moves i ed { ed with writeLock := none } (.output buf (.unlockWrite ret))
      (.output buf (.done ret)) := by
  have hret : ret = buf.bytes.length := h.returns
  have hpos : 0 < ret := by
    rw [hret]
    exact Int.natCast_pos.mpr (List.length_pos_of_ne_nil buf.nonempty)
  exact ⟨rfl, .inl rfl, .inr (.inr ⟨(h.write rfl).mpr rfl, rfl⟩), h.read, by rintro ⟨⟩,
    if_pos hpos, by rintro _ _ ⟨⟩, fun _ => hret⟩

/-- A step of `ccp_chrdev_output` or `rng_encode_output`. -/
lemma outputStep_inv {buf : FitRecord K} (pc : OutputPc) (h : CallInv ed i (.output buf pc)) :
    CallInv (outputStep ed i signal buf.bytes pc).1 i
        (.output buf (outputStep ed i signal buf.bytes pc).2) ∧
      Frame i ed (outputStep ed i signal buf.bytes pc).1 := by
  have hmoves : ∀ {ed' : EncodeData K} {c' : Call K}, Moves i ed ed' (.output buf pc) c' →
      CallInv ed' i c' ∧ Frame i ed ed' := fun hm => ⟨hm.inv h, hm.frame⟩
  cases pc with
  | lockWrite =>
    refine mutexLockInterruptible_elim (P := fun q : EncodeData K × OutputPc =>
      CallInv q.1 i (.output buf q.2) ∧ Frame i ed q.1) ?_ ?_ ?_
    · intro hfree
      exact hmoves ⟨rfl, .inl rfl, .inr (.inl ⟨hfree, rfl⟩), h.read, fun _ => iff_of_true rfl rfl,
        rfl, by rintro _ _ ⟨⟩, trivial⟩
    · exact fun _ _ => hmoves ((alike_interrupted (.inl rfl)).stays h rfl rfl rfl rfl)
    · exact fun _ _ => ⟨h, .refl i ed⟩
  | kfifoIn =>
    rw [outputStep]
    dsimp only
    split
    case isTrue => exact hmoves ((alike_inLoop rfl rfl).stays h rfl rfl rfl rfl)
    case isFalse hret =>
      rw [(K.in_stores ed.fifo buf.bytes hret).1]
      exact queue_inv h
  | lockRead =>
    refine mutexLockInterruptible_elim (P := fun q : EncodeData K × OutputPc =>
      CallInv q.1 i (.output buf q.2) ∧ Frame i ed q.1) ?_ ?_ ?_
    · exact fun hfree => hmoves ((alike_inLoop rfl rfl).takesRead h hfree rfl)
    · exact fun _ _ => hmoves ((alike_interrupted (.inr rfl)).stays h rfl rfl rfl rfl)
    · exact fun _ _ => ⟨h, .refl i ed⟩
  | kfifoSkip => exact hmoves ((alike_inLoop rfl rfl).stays h rfl rfl rfl rfl)
  | unlockRead => exact hmoves ((alike_inLoop rfl rfl).givesRead h rfl rfl)
  | unlockWrite ret => exact hmoves (unlockWrite_moves h)
  | done ret => exact ⟨h, .refl i ed⟩

/-- A step of a call keeps what it knows, and leaves the others what they know. -/
theorem step_inv (h : CallInv ed i c) :
    CallInv (c.step ed i signal fault).1 i (c.step ed i signal fault).2 ∧
      Frame i ed (c.step ed i signal fault).1 := by
  cases c with
  | idle => exact ⟨h, .refl i ed⟩
  | output buf pc => exact outputStep_inv signal pc h
  | read nonblock len pc =>
    have hm := readStep_moves signal fault pc h
    exact ⟨hm.inv h, hm.frame⟩
  | poll pc =>
    have hm := pollStep_moves signal pc h
    exact ⟨hm.inv h, hm.frame⟩

end Steps

end UwbCore.Chrdev
