import UwbCore.Chrdev.Steps

/-!
# What the calls leave in the queue

In a sound state (`World.Sound`) a writer that has ended holds no lock, the queue is in order with only
the oldest records missing, records were dropped only for one that did not fit, and a record is queued
exactly if its writer succeeds. All states of a run are sound exactly if no signal ends a wait for
`read_lock` in the retry loop of a writer, and no reader makes room for the record between the
`kfifo_in` that fails and the `kfifo_skip` (`sound_along_iff`).

What each call knows at each of its steps is `CallInv`, and holds in all runs. What a step of a call
does to the records is told once, by `QueueStep`.
-/

namespace UwbCore.Chrdev
open UwbCore.Lib

variable {K : RecordKfifo}

/-! ## Runs -/

section Runs
variable {deviceMax : Nat} {w : World K}

/-- A call that begins knows that it has done nothing. -/
lemma begin_each {i : Nat} {c : Call K} (h : w.Each CallInv) (hr : c.holdsRead = false)
    (hw : c.holdsWrite = false) (hs : c.stored = [])
    (hn : ∀ buf ret, c ≠ .output buf (.unlockWrite ret)) (hret : c.Returns) :
    (w.begin i c).Each CallInv := by
  rw [World.begin]
  split
  case h_1 hidle =>
    have hi := h i
    rw [hidle] at hi
    refine Calls.each_act h ⟨?_, fun _ => ?_, ?_, ?_, hret⟩ fun _ _ _ hc => hc
    · rw [hr]
      exact hi.read
    · rw [hw]
      exact hi.write rfl
    · rw [hs]
      exact hi.stored
    · exact fun buf ret e => absurd e (hn buf ret)
  case h_2 => exact h

/-- A writer begins before `write_lock`, or has ended without success. -/
lemma outputEntry_cases (deviceMax : Nat) (ed : EncodeData K) (idx : Int) :
    outputEntry ed deviceMax idx = .lockWrite ∨
      ∃ ret, ret ≤ 0 ∧ outputEntry ed deviceMax idx = .done ret := by
  rw [outputEntry]
  split
  · exact .inr ⟨-einval, by decide, rfl⟩
  split
  · exact .inr ⟨0, by decide, rfl⟩
  · exact .inl rfl

/-- What the calls know of themselves holds in all runs. -/
theorem step_each (e : Event K) (h : w.Each CallInv) : (w.step deviceMax e).Each CallInv := by
  cases e with
  | output i idx buf =>
    rw [World.step]
    rcases outputEntry_cases deviceMax w.shared idx with e | ⟨ret, hret, e⟩
    · rw [e]
      exact begin_each h rfl rfl rfl (by rintro _ _ ⟨⟩) trivial
    · rw [e]
      exact begin_each h rfl rfl (if_neg (Int.not_lt.mpr hret)) (by rintro _ _ ⟨⟩)
        fun hpos => absurd hpos (Int.not_lt.mpr hret)
  | read i nonblock len => exact begin_each h rfl rfl rfl (by rintro _ _ ⟨⟩) trivial
  | poll i => exact begin_each h rfl rfl rfl (by rintro _ _ ⟨⟩) trivial
  | step i signal fault =>
    obtain ⟨hown, hframe⟩ := step_inv signal fault (h i)
    exact Calls.each_act h hown fun j hj c hc => hc.of_frame hframe hj

/-- At first no call holds a lock. -/
lemma init_each (fifo : K.State) (haveInit : Bool) : (World.init fifo haveInit).Each CallInv := by
  intro i
  exact ⟨iff_of_false (by rintro ⟨⟩) (by rintro ⟨⟩),
    fun _ => iff_of_false (by rintro ⟨⟩) (by rintro ⟨⟩), rfl, by rintro _ _ ⟨⟩, trivial⟩

/-- What is left to be shown of a state, besides what each call knows. -/
structure World.Kept (w : World K) : Prop where
  released : ∀ i, (w.calls i).ended = true → w.shared.writeLock ≠ some i
  order : w.shared.Ordered
  drops : ∀ fitted ∈ w.shared.drops, fitted = false

/-- What the FIFO holds ends with the record queued last. -/
lemma EncodeData.Ordered.getLast? {ed : EncodeData K} (h : ed.Ordered) {i : Nat} {r r' : Record}
    (hq : ed.queued.getLast? = some (i, r)) (hr : r' ∈ (K.content ed.fifo).getLast?) : r' = r := by
  have hleft : (ed.first ++ ed.queued.map Prod.snd).getLast? = some r := by
    rw [List.getLast?_append, List.getLast?_map, hq]
    rfl
  have hright : (ed.gone ++ K.content ed.fifo).getLast? = some r' := by
    rw [List.getLast?_append, hr]
    rfl
  exact Option.some.inj (hright.symm.trans (h ▸ hleft))

/-- Where the calls are in order, soundness is what is kept. -/
lemma sound_iff (h : w.Each CallInv) : w.Sound ↔ w.Kept := by
  constructor
  · intro hs
    refine ⟨fun i hi => ?_, hs.order, hs.drops⟩
    cases e : w.calls i with
    | output buf pc =>
      rw [e] at hi
      cases pc <;> cases hi
      exact (hs.released i buf _ e).2
    | idle | read _ _ _ | poll _ =>
      rw [e] at hi
      cases hi
  · intro hk
    have hstored : ∀ i buf ret, w.calls i = .output buf (.done ret) →
        w.shared.queuedBy i = if 0 < ret then [buf.bytes] else [] :=
      fun i buf ret e => (h i).stored.trans (e ▸ rfl)
    refine ⟨fun i buf ret e => ⟨?_, hk.released i (e ▸ rfl)⟩, hk.order, hk.drops,
      fun i buf ret e => ⟨(h i).newest buf ret e, fun r => hk.order.getLast? ((h i).newest buf ret e)⟩,
      fun i buf ret e hret => ⟨?_, ?_⟩,
      fun i buf ret e hret => ?_⟩
    · intro hr
      have hholds := (h i).read.mp hr
      rw [e] at hholds
      cases hholds
    · have hreturns := (h i).returns
      rw [e] at hreturns
      exact hreturns hret
    · rw [hstored i buf ret e, if_pos hret]
    · rw [hstored i buf ret e, if_neg (Int.not_lt.mpr hret)]

section Kept
variable {ed : EncodeData K} {i : Nat} {c : Call K} {signal fault : Bool}

/-- A writer that is not disturbed has given back `write_lock` when it ends. -/
lemma step_released (h : CallInv ed i c) (hend : c.ended = true → ed.writeLock ≠ some i)
    (hu : c.Undisturbed ed signal) :
    (c.step ed i signal fault).2.ended = true → (c.step ed i signal fault).1.writeLock ≠ some i := by
  cases c with
  | idle | read _ _ _ | poll _ => rintro ⟨⟩
  | output buf pc =>
    rw [Call.step]
    dsimp only
    cases pc with
    | lockWrite =>
      refine mutexLockInterruptible_elim (P := fun q : EncodeData K × OutputPc =>
        (Call.output buf q.2).ended = true → q.1.writeLock ≠ some i) ?_ ?_ ?_
      · rintro - ⟨⟩
      · rintro - - - hlock
        cases (h.write rfl).mp hlock
      · rintro - - ⟨⟩
    | kfifoIn =>
      rw [outputStep]
      dsimp only
      split <;> rintro ⟨⟩
    | lockRead =>
      refine mutexLockInterruptible_elim (P := fun q : EncodeData K × OutputPc =>
        (Call.output buf q.2).ended = true → q.1.writeLock ≠ some i) ?_ ?_ ?_
      · rintro - ⟨⟩
      · exact fun hheld hsignal => absurd ⟨hsignal, hheld⟩ hu
      · rintro - - ⟨⟩
    | kfifoSkip | unlockRead => rintro ⟨⟩
    | unlockWrite ret => rintro - ⟨⟩
    | done ret => exact hend

/-- The records are where they were. -/
structure SameQueue (ed ed' : EncodeData K) : Prop where
  first : ed'.first = ed.first
  queued : ed'.queued = ed.queued
  gone : ed'.gone = ed.gone
  drops : ed'.drops = ed.drops
  content : K.content ed'.fifo = K.content ed.fifo

/-- The same queue. -/
lemma SameQueue.refl (ed : EncodeData K) : SameQueue ed ed := ⟨rfl, rfl, rfl, rfl, rfl⟩

/-- What a step of a call can do to the records: nothing; a reader takes the oldest; a writer queues
    its own, or drops the oldest. -/
inductive QueueStep (ed : EncodeData K) (i : Nat) : Call K → EncodeData K → Prop where
  | same {c ed'} :
    SameQueue ed ed' →
    QueueStep ed i c ed'
  | taken {nonblock len pc fifo} :
    K.content fifo = (K.content ed.fifo).tail →
    QueueStep ed i (.read nonblock len pc)
      { ed with fifo := fifo, gone := ed.gone ++ (K.content ed.fifo).head?.toList }
  | queued {buf fifo} :
    K.content fifo = K.content ed.fifo ++ [buf.bytes] →
    QueueStep ed i (.output buf .kfifoIn)
      { ed with fifo := fifo, queued := ed.queued ++ [(i, buf.bytes)] }
  | dropped {buf} :
    QueueStep ed i (.output buf .kfifoSkip)
      { ed with
        fifo := K.kfifoSkip ed.fifo
        gone := ed.gone ++ (K.content ed.fifo).head?.toList
        drops := ed.drops ++ [decide (K.Fits ed.fifo buf.bytes)] }

/-- What a step of a read does to the queue. -/
lemma readStep_queue {nonblock : Bool} {len : Nat} (pc : ReadPc) :
    QueueStep ed i (.read nonblock len pc) (readStep ed i signal fault nonblock len pc).1 := by
  have same : SameQueue ed ed := .refl ed
  cases pc with
  | isEmpty =>
    rw [readStep]
    split <;> exact .same same
  | wait =>
    rw [readStep]
    split
    · exact .same same
    · split <;> exact .same same
  | lockRead =>
    exact .same (mutexLockInterruptible_elim (P := fun q : EncodeData K × ReadPc => SameQueue ed q.1)
      (fun _ => ⟨rfl, rfl, rfl, rfl, rfl⟩) (fun _ _ => same) fun _ _ => same)
  | kfifoToUser =>
    rw [readStep]
    split
    case h_1 fifo copied e => exact .taken (RecordKfifo.toUser_some e)
    case h_2 fifo e => exact .same ⟨rfl, rfl, rfl, rfl, RecordKfifo.toUser_none e⟩
  | unlockRead _ _ | done _ _ => exact .same ⟨rfl, rfl, rfl, rfl, rfl⟩

/-- What a step of an output does to the queue. -/
lemma outputStep_queue {buf : FitRecord K} (pc : OutputPc) :
    QueueStep ed i (.output buf pc) (outputStep ed i signal buf.bytes pc).1 := by
  have same : SameQueue ed ed := .refl ed
  cases pc with
  | lockWrite | lockRead =>
    exact .same (mutexLockInterruptible_elim
      (P := fun q : EncodeData K × OutputPc => SameQueue ed q.1)
      (fun _ => ⟨rfl, rfl, rfl, rfl, rfl⟩) (fun _ _ => same) fun _ _ => same)
  | kfifoIn =>
    rw [outputStep]
    dsimp only
    split
    case isTrue hret =>
      have hfull := K.in_full ed.fifo buf.bytes buf.nonempty hret
      exact .same ⟨rfl, rfl, rfl, rfl, congrArg K.content hfull⟩
    case isFalse hret => exact .queued (K.in_stores ed.fifo buf.bytes hret).2
  | kfifoSkip => exact .dropped
  | unlockRead | unlockWrite _ | done _ => exact .same ⟨rfl, rfl, rfl, rfl, rfl⟩

/-- A step of a poll leaves the queue. -/
lemma pollStep_queue (pc : PollPc) : SameQueue ed (pollStep ed i signal pc).1 := by
  have same : SameQueue ed ed := .refl ed
  cases pc with
  | lockRead =>
    exact mutexLockInterruptible_elim (P := fun q : EncodeData K × PollPc => SameQueue ed q.1)
      (fun _ => ⟨rfl, rfl, rfl, rfl, rfl⟩) (fun _ _ => same) fun _ _ => same
  | isEmpty | unlockRead _ | done _ => exact ⟨rfl, rfl, rfl, rfl, rfl⟩

/-- What a step does to the queue. -/
theorem step_queue (c : Call K) : QueueStep ed i c (c.step ed i signal fault).1 := by
  cases c with
  | idle => exact .same (.refl ed)
  | output buf pc => exact outputStep_queue pc
  | read nonblock len pc => exact readStep_queue pc
  | poll pc => exact .same (pollStep_queue pc)

/-- The oldest record leaves the queue from the front. -/
lemma EncodeData.Ordered.leave (h : ed.Ordered) {fifo : K.State} {drops : List Bool}
    (hrest : K.content fifo = (K.content ed.fifo).tail) :
    EncodeData.Ordered
      { ed with
        fifo := fifo
        gone := ed.gone ++ (K.content ed.fifo).head?.toList
        drops := drops } := by
  rw [EncodeData.Ordered] at h ⊢
  dsimp only
  rw [h, hrest, List.append_assoc]
  cases K.content ed.fifo <;> rfl

/-- The queue stays in order. -/
lemma step_order (h : ed.Ordered) (hu : c.Undisturbed ed signal) :
    (c.step ed i signal fault).1.Ordered := by
  have hqueue : QueueStep ed i c (c.step ed i signal fault).1 := step_queue c
  generalize (c.step ed i signal fault).1 = ed' at hqueue ⊢
  cases hqueue with
  | same hs =>
    rw [EncodeData.Ordered, hs.first, hs.queued, hs.gone, hs.content]
    exact h
  | taken hrest => exact h.leave hrest
  | @queued buf fifo hcontent =>
    rw [EncodeData.Ordered, hcontent, List.map_append, ← List.append_assoc, ← List.append_assoc]
    exact congrArg (· ++ [buf.bytes]) h
  | @dropped buf =>
    -- a record that does not fit leaves something in the FIFO that can be dropped
    refine h.leave ?_
    cases e : K.content ed.fifo with
    | nil => exact absurd (buf.fits ed.fifo e) hu
    | cons r rest => exact K.skip_cons ed.fifo r rest e

/-- No record is dropped for one that fits. -/
lemma step_drops (h : ∀ fitted ∈ ed.drops, fitted = false) (hu : c.Undisturbed ed signal) :
    ∀ fitted ∈ (c.step ed i signal fault).1.drops, fitted = false := by
  have hqueue : QueueStep ed i c (c.step ed i signal fault).1 := step_queue c
  generalize (c.step ed i signal fault).1 = ed' at hqueue ⊢
  cases hqueue with
  | same hs => rwa [hs.drops]
  | taken _ | queued _ => exact h
  | dropped =>
    intro fitted hmem
    rcases List.mem_append.mp hmem with hmem | hmem
    · exact h fitted hmem
    · rw [List.mem_singleton.mp hmem]
      exact decide_eq_false hu

/-- A writer that a signal disturbs in its retry loop ends with `write_lock`. -/
lemma step_leaks (fault : Bool) {buf : FitRecord K} (h : CallInv ed i (.output buf .lockRead))
    (hheld : ed.readLock ≠ none) :
    (Call.step ed i true fault (.output buf .lockRead)).2.ended = true ∧
      (Call.step ed i true fault (.output buf .lockRead)).1.writeLock = some i := by
  have hlock := (h.write rfl).mpr rfl
  rw [Call.step, outputStep]
  cases e : ed.readLock with
  | none => exact absurd e hheld
  | some j => exact ⟨rfl, hlock⟩

end Kept

/-- A call that begins. -/
lemma begin_kept {i : Nat} {c : Call K} (h : w.Each CallInv) (hk : w.Kept) :
    (w.begin i c).Kept := by
  rw [World.begin]
  split
  case h_1 hidle =>
    refine ⟨fun j hj => ?_, hk.order, hk.drops⟩
    by_cases e : j = i
    case pos =>
      subst e
      have hi := h j
      rw [hidle] at hi
      exact fun hlock => absurd ((hi.write rfl).mp hlock) (by rintro ⟨⟩)
    case neg =>
      rw [Calls.act_calls_of_ne e] at hj
      exact hk.released j hj
  case h_2 => exact hk

/-- A step keeps what is to hold of a state exactly if it is undisturbed. -/
theorem step_kept (e : Event K) (h : w.Each CallInv) (hk : w.Kept) :
    (w.step deviceMax e).Kept ↔ Undisturbed w e := by
  cases e with
  | output i idx buf => exact iff_of_true (begin_kept h hk) trivial
  | read i nonblock len => exact iff_of_true (begin_kept h hk) trivial
  | poll i => exact iff_of_true (begin_kept h hk) trivial
  | step i signal fault =>
    obtain ⟨-, hframe⟩ := step_inv signal fault (h i)
    constructor
    · intro hk'
      rw [Undisturbed]
      cases e : w.calls i with
      | idle | read _ _ _ | poll _ => trivial
      | output buf pc =>
        have hi := h i
        rw [e] at hi
        cases pc with
        | lockWrite | kfifoIn | unlockRead | unlockWrite _ | done _ => trivial
        | lockRead =>
          rintro ⟨rfl, hheld⟩
          obtain ⟨hended, hlock⟩ := step_leaks fault hi hheld
          refine hk'.released i ?_ ?_
          · rw [World.step, Calls.act_calls_self, e]
            exact hended
          · rw [World.step, Calls.act_shared, e]
            exact hlock
        | kfifoSkip =>
          intro hfits
          have hmem : decide (K.Fits w.shared.fifo buf.bytes) ∈
              (w.step deviceMax (.step i signal fault)).shared.drops := by
            rw [World.step, Calls.act_shared, e]
            exact List.mem_append_right _ (List.mem_singleton.mpr rfl)
          exact absurd hfits (of_decide_eq_false (hk'.drops _ hmem))
    · intro hu
      refine ⟨fun j hj => ?_, step_order hk.order hu, step_drops hk.drops hu⟩
      by_cases e : j = i
      case pos =>
        subst e
        rw [World.step, Calls.act_calls_self] at hj
        exact step_released (h j) (hk.released j) hu hj
      case neg =>
        rw [World.step, Calls.act_calls_of_ne e] at hj
        exact fun hlock => hk.released j hj ((hframe.write.others e).mp hlock)

end Runs

/-- The world that begins. -/
lemma init_kept (fifo : K.State) (haveInit : Bool) : (World.init fifo haveInit).Kept where
  released := by rintro i ⟨⟩
  order := List.append_nil _
  drops := by rintro fitted ⟨⟩

/-- What the calls know of themselves holds after any events. -/
theorem run_each {w : World K} (deviceMax : Nat) (h : w.Each CallInv) (events : List (Event K)) :
    (events.foldl (World.step deviceMax) w).Each CallInv := by
  induction events generalizing w with
  | nil => exact h
  | cons e events ih => exact ih (step_each e h)

/-- From a FIFO of any content and over any interleaving of writers, readers and polls, all states are
    sound exactly if all steps are undisturbed. -/
theorem sound_along_iff (K : RecordKfifo) (deviceMax : Nat) (fifo : K.State) (haveInit : Bool)
    (events : List (Event K)) :
    (∀ n, ((events.take n).foldl (World.step deviceMax) (.init fifo haveInit)).Sound) ↔
      Allowed (World.step deviceMax) Undisturbed (.init fifo haveInit) events := by
  have hstep : ∀ (w : World K) e, w.Each CallInv → w.Sound →
      ((w.step deviceMax e).Sound ↔ Undisturbed w e) := by
    intro w e h hs
    rw [sound_iff (step_each e h)]
    exact step_kept e h ((sound_iff h).mp hs)
  have hinit := init_each fifo haveInit
  exact (allowed_iff_along (fun w e h => step_each e h) hstep events hinit
    ((sound_iff hinit).mpr (init_kept fifo haveInit))).symm

/-- One byte of a line. -/
def brace : FitRecord rngFifo where
  bytes := [0x7b]
  nonempty := by decide
  fits := kfifoRec2_fits (by decide) (by decide)

/-- 2048 records of two bytes fill the FIFO of the ranging device. -/
def fullFifo : rngFifo.State := List.replicate 2048 [0x20, 0x20]

/-- A writer waits for `read_lock` to make room, a reader holds it, and a signal comes. -/
def interruptedRetry : List (Event rngFifo) :=
  [.output 1 0 brace, .read 2 false 256, .step 1 false false, .step 1 false false,
    .step 2 false false, .step 2 false false, .step 2 false false, .step 1 true false]

/-- The writer of the full FIFO ends with `write_lock`. -/
theorem sound_along_fails :
    ¬∀ (K : RecordKfifo) (deviceMax : Nat) (fifo : K.State) (haveInit : Bool)
      (events : List (Event K)) (n : Nat),
      ((events.take n).foldl (World.step deviceMax) (.init fifo haveInit)).Sound := by
  intro h
  have hsound := h rngFifo 1 fullFifo true interruptedRetry 8
  have hkept := (sound_iff (run_each 1 (init_each fullFifo true) _)).mp hsound
  exact hkept.released 1 (by decide +kernel) (by decide +kernel)

end UwbCore.Chrdev
