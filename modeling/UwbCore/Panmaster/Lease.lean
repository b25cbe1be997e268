import UwbCore.Panmaster.Served

/-!
# The end of a lease

`panrequest_cb` puts a default into the lease time of the response when it finds none there, but counts
`lease_ends` with the lease time of the request, in 32 bits of milliseconds. A node is sent no more than
`lease_ends` grants exactly under the condition `LeaseGuard`.
-/

namespace UwbCore.Panmaster
open UwbCore.Lib

variable {σ : Type}

/-- The entry of the node that is answered holds a lease that ends no earlier than the one it is sent. -/
def LeaseKept (cfg : Syscfg) (busy : Bool) (tv : Timeval) (utc : Int) (euid : Nat)
    (request : PanRequest) (buf : ResponseBuf) (s : State σ) : Prop :=
  ∀ response s', panrequestCb cfg busy tv utc euid request buf s = (some response, s') →
    ∃ i, findByEuid cfg s'.nodeIdx euid = some i ∧
      tv.ms + response.leaseTime * 1000 ≤ (s'.nodeIdx i).leaseEnds

/-- There is an entry to save the node in, and one in the index. -/
def Answers (cfg : Syscfg) (busy : Bool) (euid : Nat) (s : State σ) : Prop :=
  busy = false ∧ (emptySaveEntry cfg s).isSome = true ∧
    ((findByEuid cfg s.nodeIdx euid).isSome = true ∨ (findFreeIdx cfg s.nodeIdx).isSome = true)

instance decidableAnswers (cfg : Syscfg) (busy : Bool) (euid : Nat) (s : State σ) :
    Decidable (Answers cfg busy euid s) := inferInstanceAs (Decidable (_ ∧ _ ∧ (_ ∨ _)))

/-- The lease of the request is no shorter than the one in another buffer, and the end of the lease fits
    32 bits. -/
def LeaseGuard (cfg : Syscfg) (tv : Timeval) (request : PanRequest) : ResponseBuf → Prop
  | .same => tv.ms +
      (if request.leaseTime = 0 then cfg.defaultLeaseTime else request.leaseTime) * 1000 < 2 ^ 32
  | .other leaseTime =>
      (if leaseTime = 0 then cfg.defaultLeaseTime else leaseTime) ≤ request.leaseTime ∧
        tv.ms + request.leaseTime * 1000 < 2 ^ 32

instance decidableLeaseGuard (cfg : Syscfg) (tv : Timeval) (request : PanRequest) :
    (buf : ResponseBuf) → Decidable (LeaseGuard cfg tv request buf)
  | .same => inferInstanceAs (Decidable (_ < _))
  | .other _ => inferInstanceAs (Decidable (_ ∧ _))

variable {cfg : Syscfg} {busy : Bool} {tv : Timeval} {utc : Int} {euid : Nat} {request : PanRequest}
  {buf : ResponseBuf} {s : State σ}

/-- The end that is counted is late enough. -/
lemma leaseEndsOf_iff (hdefault : cfg.defaultLeaseTime < 2 ^ 16) (hlease : request.leaseTime < 2 ^ 16) :
    tv.ms + responseLease cfg request buf * 1000 ≤ leaseEndsOf cfg tv request buf ↔
      LeaseGuard cfg tv request buf := by
  unfold leaseEndsOf LeaseGuard
  cases buf with
  | same =>
    simp only [countedLease, responseLease]
    split <;> omega
  | other leaseTime =>
    simp only [countedLease, responseLease]
    split <;> omega

/-- The lease is kept exactly when it is counted right, or no answer is sent. -/
lemma leaseKept_iff (hN : cfg.maxnumNodes ≤ 2 ^ 8) (hdefault : cfg.defaultLeaseTime < 2 ^ 16)
    (hlease : request.leaseTime < 2 ^ 16) :
    LeaseKept cfg busy tv utc euid request buf s ↔
      (Answers cfg busy euid s → LeaseGuard cfg tv request buf) := by
  have hs := panrequestCb_served hN busy tv utc euid request buf s
  rw [← leaseEndsOf_iff hdefault hlease]
  unfold LeaseKept Answers
  generalize panrequestCb cfg busy tv utc euid request buf s = out at hs
  cases hs with
  | noEntry h =>
    refine iff_of_true (fun response s' he => by cases he) fun ⟨hb, hk, _⟩ => ?_
    rcases h with h | h
    · rw [hb] at h
      cases h
    · rw [h] at hk
      cases hk
  | full hb hk hf hfree =>
    refine iff_of_true (fun response s' he => by cases he) fun ⟨_, _, ha⟩ => ?_
    rw [hf, hfree] at ha
    rcases ha with ha | ha
    · cases ha
    · cases ha
  | @known k i hb hk hf =>
    rw [hb, hk, hf]
    constructor
    · intro h _
      obtain ⟨j, hj, hle⟩ := h _ _ rfl
      rw [findByEuid_known hf] at hj
      cases hj
      rwa [State.put_nodeIdx_self] at hle
    · intro h response s' he
      cases he
      refine ⟨i, findByEuid_known hf, ?_⟩
      rw [State.put_nodeIdx_self]
      exact h ⟨rfl, rfl, .inl rfl⟩
  | @fresh k i hb hk hf hfree =>
    rw [hb, hk, hfree]
    constructor
    · intro h _
      obtain ⟨j, hj, hle⟩ := h _ _ rfl
      rw [findByEuid_fresh hf hfree] at hj
      cases hj
      rwa [State.put_nodeIdx_self] at hle
    · intro h response s' he
      cases he
      refine ⟨i, findByEuid_fresh hf hfree, ?_⟩
      rw [State.put_nodeIdx_self]
      exact h ⟨rfl, rfl, .inr rfl⟩

end UwbCore.Panmaster
