import UwbCore.Chrdev.Queue

/-!
# The retry loop ends

While a writer has `write_lock`, nobody but it adds to the FIFO, and each round of its loop drops a
record. So it takes a bounded number of steps until it ends, waits for `read_lock` not counted
(`writer_ends`): four for each record that is in the FIFO when it gets `write_lock`, and three.
-/

namespace UwbCore.Chrdev
open UwbCore.Lib

variable {K : RecordKfifo}

/-- A bound on the steps that are left to a writer that has `write_lock`, with `n` records in the
    FIFO. -/
def OutputPc.rank (n : Nat) : OutputPc → Nat
  | .lockWrite | .done _ => 0
  | .kfifoIn => 4 * n + 3
  | .lockRead => 4 * n + 2
  | .kfifoSkip => 4 * n + 1
  | .unlockRead => 4 * n + 4
  | .unlockWrite _ => 1

namespace Call

def rank (ed : EncodeData K) : Call K → Nat
  | .output _ pc => pc.rank (K.content ed.fifo).length
  | _ => 0

/-- A writer that has got `write_lock`. -/
def Inside (c : Call K) : Prop := c.holdsWrite = true ∨ c.ended = true

/-- The next step of a writer that has got `write_lock` is one of its own: it neither waits for
    `read_lock` nor has ended. -/
def moving (ed : EncodeData K) (signal : Bool) (c : Call K) : Bool :=
  c.holdsWrite &&
    match c with
    | .output _ .lockRead => ed.readLock.isNone || signal
    | _ => true

end Call

/-- Call `i` moves with this event. -/
def World.moves (w : World K) (i : Nat) : Event K → Bool
  | .step j signal _ => decide (j = i) && (w.calls i).moving w.shared signal
  | _ => false

/-- The number of events with which call `i` moves. -/
def World.movesOf (deviceMax : Nat) (i : Nat) : World K → List (Event K) → Nat
  | _, [] => 0
  | w, e :: events => (w.moves i e).toNat + (w.step deviceMax e).movesOf deviceMax i events

section Steps
variable {ed : EncodeData K} {i : Nat} {c : Call K} {signal fault : Bool}

/-- A writer that has got `write_lock` moves down, or waits where it is. -/
lemma outputStep_rank {buf : FitRecord K} (pc : OutputPc) (hin : (Call.output buf pc).Inside)
    (hu : (Call.output buf pc).Undisturbed ed signal) :
    ((Call.output buf pc).step ed i signal fault).2.Inside ∧
      ((Call.output buf pc).step ed i signal fault).2.rank
          ((Call.output buf pc).step ed i signal fault).1 +
        ((Call.output buf pc).moving ed signal).toNat ≤ (Call.output buf pc).rank ed := by
  rw [Call.step]
  dsimp only
  cases pc with
  | lockWrite => exact hin.elim (by rintro ⟨⟩) (by rintro ⟨⟩)
  | kfifoIn =>
    have hmove : (Call.output buf .kfifoIn).moving ed signal = true := rfl
    rw [outputStep, hmove]
    dsimp only
    split
    case isTrue hret =>
      have hsame := K.in_full ed.fifo buf.bytes buf.nonempty hret
      refine ⟨.inl rfl, ?_⟩
      simp only [Call.rank, OutputPc.rank, hsame, Bool.toNat_true]
      omega
    case isFalse hret =>
      refine ⟨.inl rfl, ?_⟩
      simp only [Call.rank, OutputPc.rank, Bool.toNat_true]
      omega
  | lockRead =>
    rw [outputStep]
    cases e : ed.readLock with
    | none =>
      have hmove : (Call.output buf .lockRead).moving ed signal = true := by
        simp [Call.moving, Call.holdsWrite, e]
      rw [hmove]
      exact ⟨.inl rfl, Nat.le_refl _⟩
    | some j =>
      have hheld : ed.readLock ≠ none := by simp [e]
      cases signal with
      | true => exact absurd ⟨rfl, hheld⟩ hu
      | false =>
        have hmove : (Call.output buf .lockRead).moving ed false = false := by
          simp [Call.moving, e]
        rw [hmove]
        exact ⟨.inl rfl, Nat.le_refl _⟩
  | kfifoSkip =>
    refine ⟨.inl rfl, ?_⟩
    have hmove : (Call.output buf .kfifoSkip).moving ed signal = true := rfl
    rw [hmove]
    cases e : K.content ed.fifo with
    | nil => exact absurd (buf.fits ed.fifo e) hu
    | cons r rest =>
      have hrest := K.skip_cons ed.fifo r rest e
      simp only [outputStep, Call.rank, OutputPc.rank, hrest, e, List.length_cons, Bool.toNat_true]
      omega
  | unlockRead => exact ⟨.inl rfl, Nat.le_refl _⟩
  | unlockWrite ret => exact ⟨.inr rfl, Nat.le_refl _⟩
  | done ret => exact ⟨.inr rfl, Nat.le_refl _⟩

/-- A call without `write_lock` adds nothing to the FIFO. -/
lemma step_content (hc : c.holdsWrite = false) :
    (K.content (c.step ed i signal fault).1.fifo).length ≤ (K.content ed.fifo).length := by
  have hqueue : QueueStep ed i c (c.step ed i signal fault).1 := step_queue c
  generalize (c.step ed i signal fault).1 = ed' at hqueue ⊢
  cases hqueue with
  | same hs => rw [hs.content]
  | taken hrest =>
    dsimp only
    rw [hrest, List.length_tail]
    exact Nat.sub_le _ 1
  | queued _ | dropped => cases hc

/-- The same of any call: one that has got `write_lock` is a writer. -/
lemma step_rank (hin : c.Inside) (hu : c.Undisturbed ed signal) :
    (c.step ed i signal fault).2.Inside ∧
      (c.step ed i signal fault).2.rank (c.step ed i signal fault).1 + (c.moving ed signal).toNat ≤
        c.rank ed := by
  cases c with
  | output buf pc => exact outputStep_rank pc hin hu
  | idle | read _ _ _ | poll _ => exact hin.elim (by rintro ⟨⟩) (by rintro ⟨⟩)

/-- The rank goes down with the records in the FIFO. -/
lemma rank_mono {ed' : EncodeData K} (hin : c.Inside)
    (h : c.holdsWrite = true →
      (K.content ed'.fifo).length ≤ (K.content ed.fifo).length) : c.rank ed' ≤ c.rank ed := by
  cases c with
  | idle | read _ _ _ | poll _ => exact Nat.le_refl _
  | output buf pc =>
    cases pc with
    | lockWrite | done _ | unlockWrite _ => exact Nat.le_refl _
    | kfifoIn | lockRead | kfifoSkip | unlockRead =>
      have hle := h rfl
      simp only [Call.rank, OutputPc.rank]
      omega

end Steps

section Runs
variable {deviceMax : Nat} {w : World K} {i : Nat}

/-- A call that begins is none that has got `write_lock`. -/
lemma begin_inside {j : Nat} {c : Call K} (hin : (w.calls i).Inside) :
    (w.begin j c).calls i = w.calls i ∧ (w.begin j c).shared = w.shared := by
  rw [World.begin]
  split
  case h_1 hidle =>
    refine ⟨Calls.act_calls_of_ne ?_, rfl⟩
    rintro rfl
    rw [hidle] at hin
    exact hin.elim (by rintro ⟨⟩) (by rintro ⟨⟩)
  case h_2 => exact ⟨rfl, rfl⟩

/-- While one call has `write_lock`, no other has. -/
lemma others_wait {j : Nat} (h : w.Each CallInv) (hi : (w.calls i).holdsWrite = true) (hj : j ≠ i) :
    (w.calls j).holdsWrite = false := by
  have running : ∀ c : Call K, c.holdsWrite = true → c.ended = false := by
    intro c hc
    cases c with
    | idle | read _ _ _ | poll _ => rfl
    | output buf pc => cases pc <;> first | rfl | cases hc
  by_contra hne
  have hholds : (w.calls j).holdsWrite = true := by simpa using hne
  have hlocki := ((h i).write (running _ hi)).mpr hi
  have hlockj := ((h j).write (running _ hholds)).mpr hholds
  exact hj (Option.some.inj (hlockj.symm.trans hlocki))

/-- No event takes a writer that has got `write_lock` up, and each of its own moves takes it down. -/
lemma event_rank (deviceMax : Nat) (e : Event K) (h : w.Each CallInv) (hin : (w.calls i).Inside)
    (hu : Undisturbed w e) :
    ((w.step deviceMax e).calls i).Inside ∧
      ((w.step deviceMax e).calls i).rank (w.step deviceMax e).shared + (w.moves i e).toNat ≤
        (w.calls i).rank w.shared := by
  have hbegin : ∀ j c, ((w.begin j c).calls i).Inside ∧
      ((w.begin j c).calls i).rank (w.begin j c).shared + 0 ≤ (w.calls i).rank w.shared := by
    intro j c
    obtain ⟨hcalls, hshared⟩ := begin_inside (j := j) (c := c) hin
    rw [hcalls, hshared]
    exact ⟨hin, Nat.le_refl _⟩
  cases e with
  | output j idx buf => exact hbegin j _
  | read j nonblock len => exact hbegin j _
  | poll j => exact hbegin j _
  | step j signal fault =>
    rw [World.step, World.moves, Calls.act_shared]
    by_cases e : j = i
    case pos =>
      subst e
      rw [Calls.act_calls_self, decide_eq_true rfl, Bool.true_and]
      exact step_rank hin hu
    case neg =>
      rw [Calls.act_calls_of_ne (Ne.symm e), decide_eq_false e, Bool.false_and]
      exact ⟨hin, rank_mono hin fun hi => step_content (others_wait h hi e)⟩

/-- What a writer that has got `write_lock` moves in an undisturbed run it goes down. -/
lemma run_rank (events : List (Event K)) (h : w.Each CallInv) (hin : (w.calls i).Inside)
    (hu : Allowed (World.step deviceMax) Undisturbed w events) :
    let w' := events.foldl (World.step deviceMax) w
    (w'.calls i).Inside ∧
      (w'.calls i).rank w'.shared + w.movesOf deviceMax i events ≤ (w.calls i).rank w.shared := by
  induction events generalizing w with
  | nil => exact ⟨hin, Nat.le_refl _⟩
  | cons e events ih =>
    obtain ⟨he, hu⟩ := hu
    obtain ⟨hin', hrank⟩ := event_rank deviceMax e h hin he
    obtain ⟨hin'', hrun⟩ := ih (step_each e h) hin' hu
    refine ⟨hin'', ?_⟩
    rw [World.movesOf, List.foldl_cons]
    omega

/-- A call inside of rank 0 has ended. -/
lemma ended_of_rank (ed : EncodeData K) {c : Call K} (hin : c.Inside) (h : c.rank ed = 0) :
    c.ended = true := by
  cases c with
  | idle | read _ _ _ | poll _ => exact hin.elim (by rintro ⟨⟩) id
  | output buf pc =>
    cases pc with
    | done _ => rfl
    | lockWrite => exact hin.elim (by rintro ⟨⟩) id
    | kfifoIn | lockRead | kfifoSkip | unlockRead | unlockWrite _ =>
      simp only [Call.rank, OutputPc.rank] at h
      omega

/-- In an undisturbed run a writer that has got `write_lock` makes at most as many moves as its rank,
    and has ended when it has made them. -/
theorem writer_ends (events : List (Event K)) (h : w.Each CallInv) (hin : (w.calls i).Inside)
    (hu : Allowed (World.step deviceMax) Undisturbed w events) :
    w.movesOf deviceMax i events ≤ (w.calls i).rank w.shared ∧
      (w.movesOf deviceMax i events = (w.calls i).rank w.shared →
        ((events.foldl (World.step deviceMax) w).calls i).ended = true) := by
  obtain ⟨hin', hrank⟩ := run_rank events h hin hu
  refine ⟨Nat.le_trans (Nat.le_add_left _ _) hrank, fun hall => ?_⟩
  refine ended_of_rank (events.foldl (World.step deviceMax) w).shared hin' ?_
  omega

end Runs

end UwbCore.Chrdev
