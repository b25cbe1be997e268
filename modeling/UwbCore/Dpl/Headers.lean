import UwbCore.Dpl.Owners

/-!
# Packet headers

The packet headers count the bytes of their chains exactly if every `dpl_mbuf_copyinto` stays inside its chain,
or starts just at the end of it, or the chain is a single buffer (`headers_right_iff`).
-/

namespace UwbCore.Dpl
open UwbCore.Lib

section
variable {n : Nat} {p : MbufPool} {blocks free : Nat} {w : Owners n} {c : List Buf}

/-- Each packet header counts the bytes of its chain. -/
def Owners.HeadersRight (w : Owners n) : Prop :=
  ∀ i, ∀ h ∈ hdrOf (w.chain i), h.len.toNat = (flat (w.chain i)).length

/-- Every chain has a length of 16 bits. -/
def Owners.Short (w : Owners n) : Prop := ∀ i, (flat (w.chain i)).length < 2 ^ 16

instance decidableShort (w : Owners n) : Decidable w.Short :=
  inferInstanceAs (Decidable (∀ i, (flat (w.chain i)).length < 2 ^ 16))

/-- A `dpl_mbuf_copyinto` whose bytes stay inside the chain or go to the end of its only buffer, or for which
    there is no memory behind the chain, or which appends everything and starts at the end. -/
def MbufCall.Inside (p : MbufPool) (w : Owners n) : MbufCall n → Prop
  | .copyinto i off src =>
    hdrOf (w.chain i) = none ∨ (flat (w.chain i)).length < off ∨
      off + src.length ≤ (flat (w.chain i)).length ∨ (w.chain i).length = 1 ∨
      room p w.free (w.chain i) = 0 ∨
      off = (flat (w.chain i)).length ∧ src.length ≤ room p w.free (w.chain i)
  | _ => True

/-- In short chains the headers are counted where they are right. -/
lemma counted_iff_right (hs : w.Short) : (∀ i, Counted (w.chain i)) ↔ w.HeadersRight := by
  refine forall_congr' fun i => forall_congr' fun x => imp_congr_right fun _ => ?_
  have := hs i
  bv_omega

/-- The length in the header is right after a copy exactly in these cases. -/
lemma lenAfter_eq_iff {single : Bool} {len off rest space : Nat} (hlen : len + min rest space < 2 ^ 16)
    (hoff : off ≤ len) :
    lenAfter single off rest space (.ofNat 16 len) = .ofNat 16 (len + min rest space) ↔
      rest = 0 ∨ single = true ∨ space = 0 ∨ off = len ∧ rest ≤ space := by
  have hgrown : (grownLen single rest space (.ofNat 16 len)).toNat =
      if single then len + min rest space else len := by
    cases single with
    | true =>
      show (BitVec.ofNat 16 len + BitVec.ofNat 16 (min rest space)).toNat = len + min rest space
      bv_omega
    | false =>
      show (BitVec.ofNat 16 len).toNat = len
      bv_omega
  rw [← BitVec.toNat_inj, lenAfter]
  split
  case isTrue h =>
    rw [hgrown, BitVec.toNat_ofNat, BitVec.toNat_ofNat, Nat.mod_eq_of_lt hlen]
    cases single with
    | true => simp; omega
    | false => simp; omega
  case isFalse h =>
    rw [hgrown, BitVec.toNat_ofNat, Nat.mod_eq_of_lt hlen]
    cases single with
    | true => simp
    | false => simp; omega

/-- The header is right after a copy into the chain exactly in these cases. -/
lemma counted_copyinto_iff {off : Nat} {src : List UInt8} (hc : Sound p c) (hne : c ≠ [])
    (hcnt : Counted c) (hsrc : src.length < 2 ^ 16)
    (hshort : (flat (dplMbufCopyinto p free c off src).1).length < 2 ^ 16) :
    Counted (dplMbufCopyinto p free c off src).1 ↔
      hdrOf c = none ∨ (flat c).length < off ∨ off + src.length ≤ (flat c).length ∨ c.length = 1 ∨
        room p free c = 0 ∨ off = (flat c).length ∧ src.length ≤ room p free c := by
  rcases Nat.lt_or_ge (flat c).length off with hoff | hoff
  · rw [dplMbufCopyinto_past free src hoff]
    exact iff_of_true hcnt (.inr (.inl hoff))
  obtain ⟨c', free', hcopy, -, -, -, hflat, hhdr⟩ := dplMbufCopyinto_spec hc hne free hoff hsrc
  rw [hcopy] at hshort ⊢
  have hlen : (flat c').length = (flat c).length +
      min (src.length - ((flat c).length - off)) (room p free c) := by
    rw [hflat, length_splice hoff, List.length_take]
    omega
  dsimp only at hshort ⊢
  rw [Counted, hhdr, hlen]
  cases hh : hdrOf c with
  | none => exact iff_of_true (fun x hx => absurd hx (Option.not_mem_none x)) (.inl rfl)
  | some x =>
    have hiff := @lenAfter_eq_iff (c.length = 1) _ _ _ _ (hlen ▸ hshort) hoff
    rw [← hcnt x hh, decide_eq_true_iff] at hiff
    constructor
    · intro hall
      have := hiff.mp (hall _ rfl)
      omega
    · intro hor y hy
      cases hy
      refine hiff.mpr ?_
      have := hor.resolve_left (Option.some_ne_none x)
      omega

/-- A call keeps the headers right exactly if it is no `dpl_mbuf_copyinto` that goes wrong. -/
lemma headersRight_step {e : MbufCall n} (h : Kept p blocks w) (hs : w.Short) (he : e.Proper w)
    (hs' : (w.step p e).Short) (hr : w.HeadersRight) : (w.step p e).HeadersRight ↔ e.Inside p w := by
  have hall := (counted_iff_right hs).mpr hr
  rw [← counted_iff_right hs']
  cases hcopy : e.isCopyinto with
  | false =>
    have hin : e.Inside p w := by
      cases e with
      | copyinto => cases hcopy
      | _ => trivial
    exact iff_of_true ((after_call h he).counted hcopy hall) hin
  | true =>
    cases e with
    | copyinto i off src =>
      have hchain : (w.step p (.copyinto i off src)).chain i =
          (dplMbufCopyinto p w.free (w.chain i) off src).1 := put_chain_self ..
      have hself := hs' i
      rw [hchain] at hself
      rw [MbufCall.Inside, ← counted_copyinto_iff (h.sound i) he.1 (hall i) he.2 hself]
      constructor
      · exact fun hafter => hchain ▸ hafter i
      · exact counted_put hall
    | _ => cases hcopy

/-- While the chains have lengths of 16 bits, the packet headers count the bytes all the way through a run
    exactly if no `dpl_mbuf_copyinto` goes over the end of a chain of several buffers from before its end. -/
theorem headers_right_iff (es : List (MbufCall n))
    (hl : Allowed (Owners.step p) (fun w e => e.Proper w ∧ (w.step p e).Short) (Owners.init n blocks) es) :
    Allowed (Owners.step p) (fun w e => e.Inside p w) (Owners.init n blocks) es ↔
      ∀ k, ((es.take k).foldl (Owners.step p) (Owners.init n blocks)).HeadersRight := by
  refine allowed_iff_along_of (I := fun w => Kept p blocks w ∧ w.Short) ?_ ?_ es ?_ ?_ hl
  · rintro w e ⟨h, hs⟩ ⟨he, hs'⟩
    exact ⟨(after_call h he).kept, hs'⟩
  · rintro w e ⟨h, hs⟩ ⟨he, hs'⟩ hr
    exact headersRight_step h hs he hs' hr
  · exact ⟨kept_init n blocks, fun _ => Nat.zero_lt_succ _⟩
  · exact fun _ x hx => absurd hx (Option.not_mem_none x)

/-- Two bytes are copied into five. -/
theorem headers_right_iff_patch :
    Allowed (Owners.step ⟨8, 4⟩) (fun w e => e.Inside ⟨8, 4⟩ w) (Owners.init 1 2)
        [.getPkthdr 0 [], .append 0 [1, 2, 3, 4, 5], .copyinto 0 1 [7, 8]] ↔
      ∀ k, ((([MbufCall.getPkthdr 0 [], .append 0 [1, 2, 3, 4, 5], .copyinto 0 1 [7, 8]] :
        List (MbufCall 1)).take k).foldl (Owners.step ⟨8, 4⟩) (Owners.init 1 2)).HeadersRight :=
  headers_right_iff _ (by decide)

end

end UwbCore.Dpl
