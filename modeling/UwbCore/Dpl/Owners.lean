import UwbCore.Dpl.Calls
import UwbCore.Lib.Run
import Mathlib.Algebra.BigOperators.Fin

/-!
# Chains and their owners

Over every run of calls the blocks of the pool are conserved, the chains stay well formed and each call does
to the bytes of the chains what it says (`owners_refine`).
-/

namespace UwbCore.Dpl
open UwbCore.Lib

section
variable {n : Nat}

/-- The chains are well formed, and together with the free blocks they are the pool. -/
structure Kept (p : MbufPool) (blocks : Nat) (w : Owners n) : Prop where
  sound : ∀ i, Sound p (w.chain i)
  blocks : ∑ i, (w.chain i).length + w.free = blocks

variable {p : MbufPool} {blocks blocks' free : Nat} {w : Owners n} {i j : Fin n} {c : List Buf}
  {bytes : List UInt8}

/-- The variable that is written. -/
@[simp]
lemma put_chain_self (w : Owners n) (i : Fin n) (c : List Buf) (free : Nat) :
    (w.put i c free).chain i = c := by
  dsimp only [Owners.put]
  rw [Function.update_self]

/-- The other variables. -/
lemma put_chain_of_ne (w : Owners n) (h : j ≠ i) (c : List Buf) (free : Nat) :
    (w.put i c free).chain j = w.chain j := by
  dsimp only [Owners.put]
  rw [Function.update_of_ne h]

/-- A chain put where it is. -/
lemma put_same (w : Owners n) (i : Fin n) : w.put i (w.chain i) w.free = w :=
  congrArg (Owners.mk w.free) (Function.update_eq_self i w.chain)

/-- The bytes of the packet are those of the chain. -/
lemma bytesOf_view (w : Owners n) (i : Fin n) : bytesOf (w.view i) = flat (w.chain i) := by
  rw [Owners.view, Dpl.view]
  split
  case isTrue h => rw [h]; rfl
  case isFalse => rfl

/-- A new chain in a variable is a new packet. -/
lemma view_put (w : Owners n) (i : Fin n) (c : List Buf) (free : Nat) :
    (w.put i c free).view = Function.update w.view i (Dpl.view c) := by
  funext j
  by_cases h : j = i
  · subst h
    rw [Function.update_self, Owners.view, put_chain_self]
  · rw [Function.update_of_ne h, Owners.view, put_chain_of_ne w h, Owners.view]

/-- A chain that is kept is a packet with the same header. -/
lemma view_keeps {c' : List Buf} {free' : Nat} (hk : Keeps p c free c' free' bytes) (hne : c ≠ []) :
    Dpl.view c' = withBytes (Dpl.view c) bytes := by
  rw [Dpl.view, Dpl.view, if_neg hk.ne, if_neg hne, hk.user, hk.flat]
  rfl

/-- No chain is well formed. -/
lemma sound_nil (p : MbufPool) : Sound p [] :=
  ⟨fun _ h => absurd h List.not_mem_nil, fun _ h => absurd h List.not_mem_nil⟩

/-- No chain has no header. -/
lemma counted_nil : Counted [] := fun x hx => absurd hx (Option.not_mem_none x)

/-- A fresh buffer has no header. -/
lemma counted_fresh {lead : Nat} : Counted [p.fresh lead] :=
  fun x hx => absurd hx (Option.not_mem_none x)

/-- A chain replaced by one that takes or frees the blocks it differs by. -/
lemma Kept.put (h : Kept p blocks w) (hs : Sound p c)
    (hl : c.length + free + blocks = (w.chain i).length + w.free + blocks') :
    Kept p blocks' (w.put i c free) := by
  refine ⟨fun j => ?_, ?_⟩
  · by_cases hj : j = i
    · subst hj
      rwa [put_chain_self]
    · rw [put_chain_of_ne w hj]
      exact h.sound j
  · have hsum := h.blocks
    have hlen : (fun j => ((w.put i c free).chain j).length) =
        Function.update (fun j => (w.chain j).length) i c.length := by
      funext j
      by_cases hj : j = i
      · subst hj
        rw [put_chain_self, Function.update_self]
      · rw [put_chain_of_ne w hj, Function.update_of_ne hj]
    rw [Finset.sum_eq_add_sum_sdiff_singleton_of_mem (Finset.mem_univ i)] at hsum
    rw [hlen, Finset.sum_update_of_mem (Finset.mem_univ i)]
    show c.length + _ + free = blocks'
    omega

/-- The header of the chain that is replaced is the only one that changes. -/
lemma counted_put (hc : ∀ j, Counted (w.chain j)) (hi : Counted c) :
    ∀ j, Counted ((w.put i c free).chain j) := by
  intro j
  by_cases hj : j = i
  · subst hj
    rwa [put_chain_self]
  · rw [put_chain_of_ne w hj]
    exact hc j

/-- From one state to the next the packets become `v`. -/
structure Leads (p : MbufPool) (blocks : Nat) (w w' : Owners n) (v : Fin n → Option Packet) : Prop where
  kept : Kept p blocks w'
  view : w'.view = v
  counted : (∀ j, Counted (w.chain j)) → ∀ j, Counted (w'.chain j)

/-- Nothing happens. -/
lemma Leads.refl (h : Kept p blocks w) : Leads p blocks w w w.view := ⟨h, rfl, id⟩

/-- A chain that becomes another with the bytes `bytes`. -/
lemma leads_keeps (h : Kept p blocks w) (hne : w.chain i ≠ [])
    (hk : Keeps p (w.chain i) w.free c free bytes) (hc : Counted (w.chain i) → Counted c) :
    Leads p blocks w (w.put i c free) (Function.update w.view i (withBytes (w.view i) bytes)) where
  kept := h.put hk.sound (congrArg (· + blocks) hk.blocks)
  view := by rw [view_put, view_keeps hk hne]; rfl
  counted hall := counted_put hall (hc (hall i))

/-- A chain that becomes another, with a header that is off by as much as before. -/
lemma leads_becomes (h : Kept p blocks w) (hne : w.chain i ≠ [])
    (hb : Becomes p (w.chain i) w.free c free bytes) :
    Leads p blocks w (w.put i c free) (Function.update w.view i (withBytes (w.view i) bytes)) :=
  leads_keeps h hne hb.keeps hb.counted

/-- A chain that is freed. -/
lemma leads_nil (h : Kept p blocks w) (i : Fin n) :
    Leads p blocks w (w.put i [] (w.free + (w.chain i).length)) (Function.update w.view i none) where
  kept := h.put (sound_nil p) (by rw [List.length_nil]; omega)
  view := view_put ..
  counted hall := counted_put hall counted_nil

/-- A new chain. -/
lemma leads_new (h : Kept p blocks w) (hi : w.chain i = []) (hs : Sound p c)
    (hl : c.length + free = w.free) (hc : (∀ j, Counted (w.chain j)) → Counted c) :
    Leads p blocks w (w.put i c free) (Function.update w.view i (Dpl.view c)) where
  kept := h.put hs (by rw [hi, List.length_nil]; omega)
  view := view_put ..
  counted hall := counted_put hall (hc hall)

/-- A `dpl_mbuf_copyinto`, which alone can leave the length in a header wrong. -/
def MbufCall.isCopyinto : MbufCall n → Bool
  | .copyinto .. => true
  | _ => false

/-- What holds after a call. -/
structure After (p : MbufPool) (blocks : Nat) (w : Owners n) (e : MbufCall n) : Prop where
  kept : Kept p blocks (w.call p e).1
  effect : Effect p w e (w.call p e).2 (w.call p e).1
  counted : e.isCopyinto = false → (∀ j, Counted (w.chain j)) → ∀ j, Counted ((w.call p e).1.chain j)

/-- A call that leads to a state whose packets have its effect. -/
lemma Leads.after {e : MbufCall n} {w' : Owners n} {rc : Rc} {v : Fin n → Option Packet}
    (h : Leads p blocks w w' v) (hcall : w.call p e = (w', rc))
    (he : w'.view = v → Effect p w e rc w') : After p blocks w e := by
  refine ⟨?_, ?_, fun _ => ?_⟩
  · rw [hcall]
    exact h.kept
  · rw [hcall]
    exact he h.view
  · rw [hcall]
    exact h.counted

/-- C `dpl_mbuf_get` -/
lemma after_get (h : Kept p blocks w) {lead : Nat} (hi : w.chain i = []) :
    After p blocks w (.get i lead) := by
  cases hget : dplMbufGet p w.free lead with
  | none =>
    have hno : ¬(lead ≤ p.databufLen ∧ 0 < w.free) := by
      rintro ⟨hlead, hfree⟩
      rw [dplMbufGet, if_neg (by omega), if_neg (by omega)] at hget
      cases hget
    exact (Leads.refl h).after (by rw [Owners.call, hget]) fun _ => .inr ⟨hno, rfl, rfl⟩
  | some r =>
    obtain ⟨b, free⟩ := r
    obtain ⟨hlead, rfl, hfree⟩ := dplMbufGet_some hget
    refine (leads_new h hi (.single (fresh_fits hlead)) ?_ fun _ => counted_fresh).after
      (by rw [Owners.call, hget]) fun hv => .inl ⟨⟨hlead, by omega⟩, rfl, hv⟩
    rw [List.length_singleton]
    omega

/-- C `dpl_mbuf_get_pkthdr` -/
lemma after_getPkthdr (h : Kept p blocks w) {user : List UInt8} (hi : w.chain i = []) :
    After p blocks w (.getPkthdr i user) := by
  cases hget : dplMbufGetPkthdr p w.free user with
  | none =>
    have hno : ¬(user.length + p.pkthdrSize ≤ p.databufLen ∧ user.length + p.pkthdrSize ≤ 255 ∧
        0 < w.free) := by
      rintro ⟨hlen, hshort, hfree⟩
      rw [dplMbufGetPkthdr] at hget
      dsimp only at hget
      rw [if_neg (by omega), dplMbufGet, if_neg (Nat.not_lt_zero _), if_neg (by omega)] at hget
      cases hget
    exact (Leads.refl h).after (by rw [Owners.call, hget]) fun _ => .inr ⟨hno, rfl, rfl⟩
  | some r =>
    obtain ⟨b, free⟩ := r
    obtain ⟨hlen, hshort, rfl, hfree⟩ := dplMbufGetPkthdr_some hget
    have hfits : Buf.Fits p ⟨0, some ⟨0, 0, user⟩, 0, [], p.databufLen - (user.length + p.pkthdrSize)⟩ := by
      refine ⟨?_, ?_⟩
      · show p.pkthdrSize + user.length + 0 + 0 + (p.databufLen - (user.length + p.pkthdrSize)) =
          p.databufLen
        omega
      · show p.pkthdrSize + user.length ≤ 255
        omega
    refine (leads_new h hi (.single hfits) ?_ fun _ x hx => ?_).after (by rw [Owners.call, hget])
      fun hv => .inl ⟨⟨hlen, hshort, by omega⟩, rfl, hv⟩
    · rw [List.length_singleton]
      omega
    · cases hx
      rfl

/-- C `dpl_mbuf_free_chain` -/
lemma after_freeChain (h : Kept p blocks w) : After p blocks w (.freeChain i) :=
  (leads_nil h i).after rfl fun hv => ⟨rfl, hv⟩

/-- C `dpl_mbuf_append` -/
lemma after_append (h : Kept p blocks w) (hne : w.chain i ≠ []) (bytes : List UInt8) :
    After p blocks w (.append i bytes) := by
  obtain ⟨c', free', happ, hb, -⟩ := dplMbufAppend_becomes (h.sound i) hne w.free bytes
  refine (leads_becomes h hne hb).after (by rw [Owners.call, happ]) fun hv => ⟨?_, rfl⟩
  rw [hv, bytesOf_view]

/-- C `dpl_mbuf_appendfrom` -/
lemma after_appendfrom (h : Kept p blocks w) (hi : w.chain i ≠ []) (hj : w.chain j ≠ [])
    (off len : Nat) : After p blocks w (.appendfrom i j off len) := by
  obtain ⟨c', free', rc, happ, hb, hrc⟩ :=
    @dplMbufAppendfrom_becomes p (w.chain i) w.free (w.chain j) off len (h.sound i) hi hj
  refine (leads_becomes h hi hb).after (by rw [Owners.call, happ]) fun hv => ⟨?_, ?_⟩
  · rw [hv, bytesOf_view, bytesOf_view]
  · rw [bytesOf_view]
    exact hrc

/-- C `dpl_mbuf_dup` -/
lemma after_dup (h : Kept p blocks w) (hi : w.chain i ≠ []) (hj : w.chain j = []) :
    After p blocks w (.dup i j) := by
  cases dplMbufDup_spec (h.sound i) hi w.free with
  | inl hd =>
    have hcall : w.call p (.dup i j) = (w, .enomem) := by
      rw [Owners.call, hd.1]
      exact congrArg (Prod.mk · Rc.enomem) (hj ▸ put_same w j)
    exact (Leads.refl h).after hcall fun _ => .inr ⟨Nat.not_le_of_lt hd.2, rfl, rfl⟩
  | inr hd =>
    obtain ⟨c', hdup, hle, hs, hlen, hflat, hhdr⟩ := hd
    have hne : c' ≠ [] := fun e => hi (List.length_eq_zero_iff.mp (by rw [← hlen, e]; rfl))
    have hview : Dpl.view c' = w.view i := by
      rw [Owners.view, Dpl.view, Dpl.view, if_neg hne, if_neg hi, hflat, userOf, userOf, hhdr]
    have hcall : w.call p (.dup i j) = (w.put j c' (w.free - (w.chain i).length), .ok) := by
      rw [Owners.call, hdup]
      exact congrArg (Prod.mk _) (if_neg hne)
    refine (leads_new h hj hs (by omega) fun hall => ?_).after hcall
      fun hv => .inl ⟨hle, rfl, by rw [hv, hview]⟩
    rw [Counted, hhdr, hflat]
    exact hall i

/-- C `dpl_mbuf_adj` -/
lemma after_adj (h : Kept p blocks w) (hne : w.chain i ≠ []) (len : Int) :
    After p blocks w (.adj i len) := by
  obtain ⟨hk, hc⟩ := dplMbufAdj_keeps (h.sound i) hne w.free len
  refine (leads_keeps h hne hk hc).after rfl fun hv => ⟨rfl, ?_⟩
  rw [hv, bytesOf_view]

/-- C `dpl_mbuf_prepend` -/
lemma after_prepend (h : Kept p blocks w) (hne : w.chain i ≠ []) (bytes : List UInt8) :
    After p blocks w (.prepend i bytes) := by
  cases dplMbufPrepend_spec (h.sound i) hne w.free bytes with
  | inl hp =>
    exact (leads_nil h i).after (by rw [Owners.call, hp.1]; rfl)
      fun hv => .inr ⟨Nat.not_le_of_lt hp.2, rfl, hv⟩
  | inr hb =>
    refine (leads_becomes h hne hb.1).after (congrArg (Prod.mk _) (if_neg hb.1.ne))
      fun hv => .inl ⟨hb.2, rfl, ?_⟩
    rw [hv, bytesOf_view]

/-- A packet with its own bytes is the same. -/
lemma withBytes_bytesOf (v : Option Packet) : withBytes v (bytesOf v) = v := by
  cases v <;> rfl

/-- C `dpl_mbuf_pullup` -/
lemma after_pullup (h : Kept p blocks w) (hne : w.chain i ≠ []) (len : Nat) :
    After p blocks w (.pullup i len) := by
  cases @dplMbufPullup_spec p (w.chain i) len (h.sound i) hne w.free with
  | inl hp =>
    exact (leads_nil h i).after (by rw [Owners.call, hp.1]; rfl)
      fun hv => ⟨.inr ⟨hp.2, rfl, hv⟩, fun hok => Rc.noConfusion hok⟩
  | inr hb =>
    obtain ⟨⟨hb, hfirst⟩, hcan⟩ := hb
    refine (leads_becomes h hne hb).after (congrArg (Prod.mk _) (if_neg hb.ne))
      fun hv => ⟨.inl ⟨hcan, rfl, ?_⟩, fun _ => ?_⟩
    · rw [hv, ← bytesOf_view, withBytes_bytesOf, Function.update_eq_self]
    · rw [put_chain_self]
      exact hfirst

/-- C `dpl_mbuf_concat` -/
lemma after_concat (h : Kept p blocks w) (hij : i ≠ j) (hi : w.chain i ≠ []) :
    After p blocks w (.concat i j) := by
  obtain ⟨hs, hlen, hflat, hne, hstamp⟩ := dplMbufConcat_becomes (h.sound i) hi (h.sound j)
  have huser : userOf (dplMbufConcat p (w.chain i) (w.chain j)) = userOf (w.chain i) := by
    rw [userOf, dplMbufConcat, hdrOf_onLen, hdrOf_append hi, Option.map_map]
    rfl
  have hview : Dpl.view (dplMbufConcat p (w.chain i) (w.chain j)) =
      withBytes (w.view i) (bytesOf (w.view i) ++ bytesOf (w.view j)) := by
    rw [bytesOf_view, bytesOf_view, Owners.view, Dpl.view, Dpl.view, if_neg hne, if_neg hi, hflat, huser]
    rfl
  -- While the second chain is still in its variable, its buffers are counted twice.
  have h1 : Kept p (blocks + (w.chain j).length)
      (w.put i (dplMbufConcat p (w.chain i) (w.chain j)) w.free) := h.put hs (by omega)
  have h2 : Leads p blocks w ((w.put i (dplMbufConcat p (w.chain i) (w.chain j)) w.free).put j [] w.free)
      (Function.update (Function.update w.view i (withBytes (w.view i)
        (bytesOf (w.view i) ++ bytesOf (w.view j)))) j none) := by
    refine ⟨h1.put (sound_nil p) ?_, ?_, fun hall => counted_put (counted_put hall ?_) counted_nil⟩
    · rw [put_chain_of_ne w hij.symm, List.length_nil]
      show 0 + w.free + _ = _ + w.free + _
      omega
    · rw [view_put, view_put, hview]
      rfl
    · exact .of_stamp (hstamp (hall j)) (hall i)
  exact h2.after rfl fun hv => ⟨rfl, hv⟩

/-- C `dpl_mbuf_extend` -/
lemma after_extend (h : Kept p blocks w) (hne : w.chain i ≠ []) (bytes : List UInt8) :
    After p blocks w (.extend i bytes) := by
  have hsome := dplMbufExtend_isSome_iff p w.free (w.chain i) bytes
  cases hext : dplMbufExtend p w.free (w.chain i) bytes with
  | none =>
    rw [hext] at hsome
    exact (Leads.refl h).after (by rw [Owners.call, hext])
      fun _ => .inr ⟨fun hc => Bool.noConfusion (hsome.mpr hc), rfl, rfl⟩
  | some r =>
    rw [hext] at hsome
    refine (leads_becomes h hne (dplMbufExtend_becomes (h.sound i) hne hext)).after
      (by rw [Owners.call, hext]) fun hv => .inl ⟨hsome.mp rfl, rfl, ?_⟩
    rw [hv, bytesOf_view]

/-- C `dpl_mbuf_trim_front` -/
lemma after_trimFront (h : Kept p blocks w) (hne : w.chain i ≠ []) :
    After p blocks w (.trimFront i) := by
  refine (leads_becomes h hne (dplMbufTrimFront_becomes (h.sound i) hne w.free)).after rfl
    fun hv => ⟨rfl, ?_⟩
  rw [hv, ← bytesOf_view, withBytes_bytesOf, Function.update_eq_self]

/-! ## `dpl_mbuf_copyinto` -/

/-- Behind the end of a chain nothing is written. -/
lemma dplMbufCopyinto_past {off : Nat} (free : Nat) (src : List UInt8) (h : (flat c).length < off) :
    dplMbufCopyinto p free c off src = (c, free, .failed) := by
  cases hcur : dplMbufOff c off with
  | none => rw [dplMbufCopyinto, hcur]
  | some r =>
    obtain ⟨before, b, rest, hsplit, hoff, hcons, hle⟩ := dplMbufOff_some hcur
    rw [hsplit, hcons, flat_append, flat_cons, List.length_append, List.length_append] at h
    omega

/-- Bytes that go over the end make the chain longer. -/
lemma length_splice {off : Nat} {src : List UInt8} (h : off ≤ bytes.length) :
    (splice bytes off src).length = max bytes.length (off + src.length) := by
  rw [splice, List.length_append, List.length_append, List.length_take, List.length_drop]
  omega

/-- C `dpl_mbuf_copyinto` -/
lemma after_copyinto (h : Kept p blocks w) (hne : w.chain i ≠ []) {off : Nat} {src : List UInt8}
    (hsrc : src.length < 2 ^ 16) : After p blocks w (.copyinto i off src) := by
  rcases Nat.lt_or_ge (flat (w.chain i)).length off with hoff | hoff
  · have hcall : w.call p (.copyinto i off src) = (w, .failed) := by
      rw [Owners.call, dplMbufCopyinto_past w.free src hoff]
      exact congrArg (Prod.mk · Rc.failed) (put_same w i)
    refine (Leads.refl h).after hcall fun _ => .inl ⟨rfl, ?_, rfl⟩
    rwa [bytesOf_view]
  · obtain ⟨c', free', hcopy, hs, hlen, hne', hflat, hhdr⟩ :=
      dplMbufCopyinto_spec (h.sound i) hne w.free hoff hsrc
    have hcall : w.call p (.copyinto i off src) = (w.put i c' free',
        if src.length - ((flat (w.chain i)).length - off) ≤ room p w.free (w.chain i) then .ok
        else .enomem) := by rw [Owners.call, hcopy]
    have huser : userOf c' = userOf (w.chain i) := by
      rw [userOf, hhdr, Option.map_map]
      rfl
    refine ⟨?_, ?_, fun hno => Bool.noConfusion hno⟩
    · rw [hcall]
      exact h.put hs (congrArg (· + blocks) hlen)
    · rw [hcall]
      refine .inr ⟨?_, ?_, ?_⟩
      · rwa [bytesOf_view]
      · have hview : w.view i = some ⟨userOf (w.chain i), flat (w.chain i)⟩ := by
          rw [Owners.view, Dpl.view, if_neg hne]
        rw [view_put, Dpl.view, if_neg hne', hflat, huser, bytesOf_view, hview]
        rfl
      · rw [bytesOf_view]
        refine if_congr ?_ rfl rfl
        omega

/-- Each call keeps the blocks and does to the packets what it says. -/
lemma after_call {e : MbufCall n} (h : Kept p blocks w) (he : e.Proper w) : After p blocks w e := by
  cases e with
  | get i lead => exact after_get h he
  | getPkthdr i user => exact after_getPkthdr h he
  | freeChain i => exact after_freeChain h
  | append i bytes => exact after_append h he bytes
  | appendfrom i j off len => exact after_appendfrom h he.2.1 he.2.2 off len
  | dup i j => exact after_dup h he.1 he.2
  | adj i len => exact after_adj h he len
  | prepend i bytes => exact after_prepend h he bytes
  | pullup i len => exact after_pullup h he len
  | copyinto i off src => exact after_copyinto h he.1 he.2
  | concat i j => exact after_concat h he.1 he.2.1
  | extend i bytes => exact after_extend h he bytes
  | trimFront i => exact after_trimFront h he

/-- A pool of which nothing is taken. -/
lemma kept_init (n blocks : Nat) : Kept p blocks (Owners.init n blocks) where
  sound _ := sound_nil p
  blocks := by
    show ∑ _i : Fin n, 0 + blocks = blocks
    rw [Finset.sum_const_zero, Nat.zero_add]

end

end UwbCore.Dpl
