import UwbCore.Lib.Run
import UwbCore.Lib.Slist

/-!
# Registries

The callbacks of the MAC layer, the configurations of the ranging services and the extensions of the
transport layer register in lists of one kind (uwb.c, uwb_rng.c, nrng.c, uwb_transport.c): a new element
goes behind the last one, and the first one with an identifier is found and removed. The elements are
structures of their owners that carry the link, so one that is registered and is appended again has its
link overwritten. A registry is what its operations say it is exactly as long as this does not happen
(`registry_refines_iff`).
-/

namespace UwbCore.Mac
open UwbCore.Lib

/-! ## The operations of the code -/

/-- The body that the four append functions share. -/
def append (fuel : Nat) (s : Slist) (a : Nat) : Option Slist :=
  if s.first = none then some (s.insertHead a)
  else (Slist.lastFrom s.next fuel s.first 0).map fun prev => s.insertAfter prev a

/-- The body that the four remove functions share. -/
def removeKey (key : Nat → Nat) (fuel : Nat) (s : Slist) (k : Nat) : Option Slist :=
  (Slist.findFrom s.next (fun a => key a == k) fuel s.first).bind fun
    | none => some s
    | some a => s.remove fuel a

/-- The search that the functions share which look for an element. -/
def getKey (key : Nat → Nat) (fuel : Nat) (s : Slist) (k : Nat) : Option (Option Nat) :=
  Slist.findFrom s.next (fun a => key a == k) fuel s.first

/-- A loop that calls what the elements have for an event. With `stop` it ends at the first that returns
    true. -/
def dispatchFrom {σ : Type} (next : Table (Option Nat)) (stop : Bool)
    (cb : Nat → Option (σ → Bool × σ)) : Nat → Option Nat → σ → Option σ
  | 0, _, _ => none
  | _ + 1, none, st => some st
  | fuel + 1, some a, st =>
    match cb a with
    | none => dispatchFrom next stop cb fuel (next a) st
    | some f =>
      if (f st).1 && stop then some (f st).2 else dispatchFrom next stop cb fuel (next a) (f st).2

/-! ## The members -/

/-- Of `struct uwb_dev` the list, and `status.initialized` of each interface. -/
structure Dev where
  interfaceCbs : Slist
  initialized : Table Bool

/-- C `uwb_mac_append_interface`. -/
def uwbMacAppendInterface (fuel : Nat) (dev : Dev) (cbs : Nat) : Option Dev :=
  (append fuel dev.interfaceCbs cbs).map fun l =>
    ⟨l, dev.initialized.modify cbs fun _ => true⟩

/-- C `uwb_mac_remove_interface`. -/
def uwbMacRemoveInterface (id : Nat → Nat) (fuel : Nat) (dev : Dev) (k : Nat) : Option Dev :=
  (removeKey id fuel dev.interfaceCbs k).map fun l => { dev with interfaceCbs := l }

/-- C `uwb_mac_get_interface`. -/
def uwbMacGetInterface (id : Nat → Nat) (fuel : Nat) (dev : Dev) (k : Nat) : Option (Option Nat) :=
  getKey id fuel dev.interfaceCbs k

/-- C `uwb_mac_find_cb_inst_ptr`. -/
def uwbMacFindCbInstPtr {ι : Type} (id : Nat → Nat) (instPtr : Nat → ι) (fuel : Nat) (dev : Dev)
    (k : Nat) : Option (Option ι) :=
  (uwbMacGetInterface id fuel dev k).map fun cbs => cbs.map instPtr

/-- C `rng_issue_complete`, and the loops over `superframe_cb` of uwb_ccp.c: every callback is called. -/
def rngIssueComplete {σ : Type} (completeCb : Nat → Option (σ → Bool × σ)) (fuel : Nat) (dev : Dev)
    (st : σ) : Option σ :=
  dispatchFrom dev.interfaceCbs.next false completeCb fuel dev.interfaceCbs.first st

/-- The loops over `final_cb` of the handlers with extended frames: the first that takes it is the
    last. -/
def issueFinal {σ : Type} (finalCb : Nat → Option (σ → Bool × σ)) (fuel : Nat) (dev : Dev) (st : σ) :
    Option σ :=
  dispatchFrom dev.interfaceCbs.next true finalCb fuel dev.interfaceCbs.first st

/-- C `uwb_rng_append_config` and `nrng_append_config`. -/
def uwbRngAppendConfig : Nat → Slist → Nat → Option Slist := append

/-- C `uwb_rng_remove_config` and `nrng_remove_config`. -/
def uwbRngRemoveConfig (rngCode : Nat → Nat) : Nat → Slist → Nat → Option Slist := removeKey rngCode

/-- C `uwb_rng_get_config` and `nrng_get_config`: the default where the code is not known. -/
def uwbRngGetConfig {χ : Type} (rngCode : Nat → Nat) (config : Nat → χ) (gConfig : χ) (fuel : Nat)
    (s : Slist) (code : Nat) : Option χ :=
  (getKey rngCode fuel s code).map fun cfgs => (cfgs.map config).getD gConfig

/-- C `uwb_transport_append_extension`. -/
def uwbTransportAppendExtension : Nat → Slist → Nat → Option Slist := append

/-- C `uwb_transport_remove_extension`. -/
def uwbTransportRemoveExtension (tspCode : Nat → Nat) : Nat → Slist → Nat → Option Slist :=
  removeKey tspCode

/-- C `uwb_transport_get_extension`. -/
def uwbTransportGetExtension (tspCode : Nat → Nat) (fuel : Nat) (s : Slist) (code : Nat) :
    Option (Option Nat) :=
  getKey tspCode fuel s code

/-! ## What a registry is -/

/-- Registration and removal, on the elements in the order they came. -/
inductive Event where
  | append (a : Nat)
  | remove (k : Nat)
  deriving DecidableEq

/-- The registry: what is registered last is last, and the first of an identifier goes. -/
def abstractStep (key : Nat → Nat) (l : List Nat) : Event → List Nat
  | .append a => l ++ [a]
  | .remove k => l.eraseP fun a => key a == k

/-- The callbacks of the elements one after another. -/
def dispatchAll {σ : Type} (stop : Bool) (cb : Nat → Option (σ → Bool × σ)) : List Nat → σ → σ
  | [], st => st
  | a :: l, st =>
    match cb a with
    | none => dispatchAll stop cb l st
    | some f =>
      if (f st).1 && stop then (f st).2 else dispatchAll stop cb l (f st).2

/-- An event of the code; `none` is a loop that does not end. -/
def step (key : Nat → Nat) (fuel : Nat) (s : Option Slist) (e : Event) : Option Slist :=
  s.bind fun s => match e with
    | .append a => append fuel s a
    | .remove k => removeKey key fuel s k

/-- The element that is appended is not registered. -/
def Fresh (l : List Nat) : Event → Prop
  | .append a => a ∉ l
  | .remove _ => True

instance decidableFresh (l : List Nat) : (e : Event) → Decidable (Fresh l e)
  | .append a => inferInstanceAs (Decidable (a ∉ l))
  | .remove _ => inferInstanceAs (Decidable True)

/-- The list in memory is the registry `l`, for every loop over it. -/
structure Registers (key : Nat → Nat) (l : List Nat) (s : Option Slist) : Prop where
  ends : ∃ t, s = some t
  elements : ∀ t ∈ s, ∀ fuel, l.length < fuel → Slist.walk t.next fuel t.first = some l
  get : ∀ t ∈ s, ∀ k fuel, l.length < fuel → getKey key fuel t k = some (l.find? fun a => key a == k)
  dispatch : ∀ t ∈ s, ∀ {σ : Type} (stop : Bool) (cb : Nat → Option (σ → Bool × σ)) (st : σ) fuel,
    l.length < fuel → dispatchFrom t.next stop cb fuel t.first st = some (dispatchAll stop cb l st)

section
variable {key : Nat → Nat} {s : Slist} {l : List Nat} {fuel : Nat}

/-- The callbacks along the links are those along the list. -/
lemma dispatchFrom_eq {σ : Type} {next : Table (Option Nat)} {p : Option Nat} {stop : Bool}
    {cb : Nat → Option (σ → Bool × σ)} (h : Links next p l) (hf : l.length < fuel) (st : σ) :
    dispatchFrom next stop cb fuel p st = some (dispatchAll stop cb l st) := by
  induction l generalizing p fuel st with
  | nil =>
    obtain ⟨fuel, rfl⟩ := Nat.exists_eq_succ_of_ne_zero (Nat.ne_of_gt hf)
    rw [h.nil_inv]
    rfl
  | cons a l ih =>
    obtain ⟨fuel, rfl⟩ := Nat.exists_eq_succ_of_ne_zero (Nat.ne_of_gt (Nat.zero_lt_of_lt hf))
    obtain ⟨rfl, htail⟩ := h.cons_inv
    have hf' : l.length < fuel := Nat.lt_of_succ_lt_succ hf
    rw [dispatchFrom, dispatchAll]
    cases cb a with
    | none => exact ih htail hf' st
    | some f =>
      dsimp only
      split
      case isTrue => rfl
      case isFalse => exact ih htail hf' _

/-- A list in memory is a registry. -/
lemma registers_of_holds (h : s.Holds l) : Registers key l (some s) where
  ends := ⟨s, rfl⟩
  elements := by
    rintro t ht fuel hf
    cases ht
    exact walk_eq h hf
  get := by
    rintro t ht k fuel hf
    cases ht
    exact findFrom_eq h hf
  dispatch := by
    rintro t ht σ stop cb st fuel hf
    cases ht
    exact dispatchFrom_eq h hf st

/-- No interface is registered twice. -/
lemma Registers.nodup {t : Option Slist} (h : Registers key l t) : l.Nodup := by
  obtain ⟨s, rfl⟩ := h.ends
  exact (Links.of_walk (h.elements s rfl (l.length + 1) (Nat.lt_succ_self _))).nodup

/-- An interface is added at the end. -/
lemma holds_append {a : Nat} (h : s.Holds l) (ha : a ∉ l) (hf : l.length < fuel) :
    ∃ s', append fuel s a = some s' ∧ s'.Holds (l ++ [a]) := by
  cases l with
  | nil =>
    have hfirst : s.first = none := Path.nil_inv h
    rw [append, if_pos hfirst]
    exact ⟨_, rfl, Slist.holds_insertHead h ha⟩
  | cons b l =>
    have hfirst : s.first = some b := (Path.cons_inv h).1
    obtain ⟨k, c, e⟩ : ∃ k c, b :: l = k ++ [c] :=
      ⟨_, _, (List.dropLast_append_getLast (List.cons_ne_nil b l)).symm⟩
    have hlast : Slist.lastFrom s.next fuel s.first 0 = some c := by
      rw [lastFrom_eq h hf, e, List.getLast?_concat, Option.getD_some]
    rw [append, if_neg (by rw [hfirst]; exact Option.some_ne_none b), hlast]
    rw [e] at h ha ⊢
    exact ⟨_, rfl, Slist.holds_insertLast h ha⟩

/-- The element that is found is the one that is removed. -/
lemma erase_find {p : Nat → Bool} {a : Nat} (h : l.find? p = some a) : l.eraseP p = l.erase a := by
  induction l with
  | nil => cases h
  | cons b l ih =>
    rw [List.find?_cons] at h
    cases hb : p b with
    | true =>
      rw [hb] at h
      cases h
      rw [List.eraseP_cons_of_pos hb, List.erase_cons_head]
    | false =>
      rw [hb] at h
      have hpa : p a = true := List.find?_some h
      have hba : b ≠ a := fun e => by rw [e, hpa] at hb; cases hb
      rw [List.eraseP_cons_of_neg (by rw [hb]; exact Bool.false_ne_true),
        List.erase_cons_tail (by simpa using hba), ih h]

/-- The first interface with a key is removed. -/
lemma holds_removeKey {k : Nat} (h : s.Holds l) (hf : l.length < fuel) :
    ∃ s', removeKey key fuel s k = some s' ∧ s'.Holds (l.eraseP fun a => key a == k) := by
  rw [removeKey, findFrom_eq h hf, Option.bind_some]
  cases hfind : l.find? fun a => key a == k with
  | none =>
    have hno : ∀ a ∈ l, ¬(key a == k) = true := by simpa using List.find?_eq_none.mp hfind
    rw [List.eraseP_of_forall_not hno]
    exact ⟨s, rfl, h⟩
  | some a =>
    rw [erase_find hfind]
    exact Slist.holds_remove h (List.mem_of_find?_eq_some hfind) (Nat.le_of_lt hf)

/-- One step. -/
lemma holds_step (key : Nat → Nat) {e : Event} (h : s.Holds l) (he : Fresh l e) (hf : l.length < fuel) :
    ∃ s', step key fuel (some s) e = some s' ∧ s'.Holds (abstractStep key l e) := by
  cases e with
  | append a => exact holds_append h he hf
  | remove k => exact holds_removeKey h hf

/-- A step adds one interface at most. -/
lemma length_abstractStep (key : Nat → Nat) (l : List Nat) (e : Event) :
    (abstractStep key l e).length ≤ l.length + 1 := by
  cases e with
  | append a => rw [abstractStep, List.length_append, List.length_singleton]
  | remove k => exact (List.length_eraseP_le ..).trans (Nat.le_succ _)

/-- An element that is registered already cannot be registered after it has been appended. -/
lemma not_registers_of_not_fresh {e : Event} {t : Option Slist} (he : ¬Fresh l e) :
    ¬Registers key (abstractStep key l e) t := by
  intro h
  cases e with
  | append a =>
    have hnd : (l ++ [a]).Nodup := h.nodup
    exact he fun hmem => (List.nodup_append.mp hnd).2.2 a hmem a (List.mem_singleton_self a) rfl
  | remove k => exact he trivial

end

/-- Over any list of registrations and removals the list in memory is the registry after each event if
    and only if no element is appended that is registered. -/
theorem registry_refines_iff (key : Nat → Nat) (next : Table (Option Nat)) (es : List Event)
    (fuel : Nat) (hf : es.length < fuel) :
    (∀ n, Registers key ((es.take n).foldl (abstractStep key) [])
      ((es.take n).foldl (step key fuel) (some ⟨none, next⟩))) ↔
      Allowed (abstractStep key) Fresh [] es := by
  have hgo : ∀ (es : List Event) (l : List Nat) (s : Slist), s.Holds l → l.length + es.length < fuel →
      ((∀ n, Registers key ((es.take n).foldl (abstractStep key) l)
        ((es.take n).foldl (step key fuel) (some s))) ↔ Allowed (abstractStep key) Fresh l es) := by
    intro es
    induction es with
    | nil =>
      intro l s h _
      exact ⟨fun _ => trivial, fun _ n => by rw [List.take_nil]; exact registers_of_holds h⟩
    | cons e es ih =>
      intro l s h hlen
      rw [List.length_cons] at hlen
      by_cases he : Fresh l e
      case pos =>
        obtain ⟨s', hs', h'⟩ := holds_step key h he (by omega : l.length < fuel)
        have hrest := ih _ s' h' (by have := length_abstractStep key l e; omega)
        refine ⟨fun hall => ⟨he, hrest.mp fun n => ?_⟩, fun hall n => ?_⟩
        · have hn := hall (n + 1)
          rw [List.take_succ_cons, List.foldl_cons, List.foldl_cons, hs'] at hn
          exact hn
        · cases n with
          | zero => exact registers_of_holds h
          | succ n =>
            rw [List.take_succ_cons, List.foldl_cons, List.foldl_cons, hs']
            exact hrest.mpr hall.2 n
      case neg =>
        exact ⟨fun hall => absurd (hall 1) (not_registers_of_not_fresh he), fun hall => absurd hall.1 he⟩
  exact hgo es [] ⟨none, next⟩ .nil (by rw [List.length_nil, Nat.zero_add]; exact hf)

/-- Two interfaces, of which the first is removed and registered again. -/
def comeBack : List Event := [.append 1, .append 2, .remove 7, .append 1]

/-- The identifiers are 7 and 8. -/
theorem registry_refines_comeBack :
    (∀ n, Registers (· + 6) ((comeBack.take n).foldl (abstractStep (· + 6)) [])
      ((comeBack.take n).foldl (step (· + 6) 5) (some ⟨none, fun _ => none⟩))) ↔
      Allowed (abstractStep (· + 6)) Fresh [] comeBack :=
  registry_refines_iff (· + 6) (fun _ => none) comeBack 5 (by decide)

/-- An element that is registered and is appended once more takes those that were registered after it
    out of the registry; if it is the last one, it comes after itself, and no search for another identifier
    ends any more. -/
theorem append_registered (key : Nat → Nat) {s : Slist} {l t : List Nat} {a fuel : Nat}
    (h : s.Holds (l ++ a :: t)) (hf : (l ++ a :: t).length < fuel) :
    ∃ s', append fuel s a = some s' ∧
      (t ≠ [] → s'.Holds (l ++ [a])) ∧
      (t = [] → s'.next a = some a ∧
        ∀ k, (∀ x ∈ l ++ [a], key x ≠ k) → ∀ fuel, getKey key fuel s' k = none) := by
  have hlast : ∀ c ∈ (a :: t).getLast?, append fuel s a = some (s.insertAfter c a) := by
    intro c hc
    have hget : (l ++ a :: t).getLast? = some c := by
      rw [List.getLast?_append_of_ne_nil _ (List.cons_ne_nil a t)]
      exact hc
    have hfirst : s.first ≠ none := by
      intro e
      rw [Slist.Holds, e] at h
      cases l <;> cases h
    rw [append, if_neg hfirst, lastFrom_eq h hf, hget]
    rfl
  cases t with
  | nil =>
    have hself : (s.insertAfter a a).next a = some a := if_pos rfl
    refine ⟨_, hlast a rfl, fun hne => absurd rfl hne, fun _ => ⟨hself, fun k hk fuel => ?_⟩⟩
    have hk' : ∀ x ∈ l ++ [a], (key x == k) = false := by simpa using hk
    have hpath : Path (s.insertAfter a a).next s.first l (some a) := by
      refine (Path.split_cons h).1.congr fun x hx => ?_
      have hxa : x ≠ a := (List.nodup_append.mp (Links.nodup h)).2.2 x hx a List.mem_cons_self
      exact Slist.insertAfter_of_ne hxa hxa
    exact findFrom_of_cycle Slist.path_insertAfter_self (List.cons_ne_nil a [])
      (fun x hx => hk' x (List.mem_append_right _ hx)) hpath
      (fun x hx => hk' x (List.mem_append_left _ hx)) fuel
  | cons b t =>
    obtain ⟨c, hc⟩ : ∃ c, (b :: t).getLast? = some c :=
      ⟨_, List.getLast?_eq_some_getLast (List.cons_ne_nil b t)⟩
    refine ⟨_, hlast c (by rw [List.getLast?_cons_cons]; exact hc), fun _ => ?_, fun e => by cases e⟩
    exact Slist.holds_insertLast_of_mem h hc

/-- Three interfaces in their order. -/
def threeCbs : Slist := ⟨some 1, fun a => if a = 1 then some 2 else if a = 2 then some 3 else none⟩

/-- They are the list of the three. -/
lemma threeCbs_holds : threeCbs.Holds [1, 2, 3] := .cons (.cons (.cons .nil))

/-- The second of them registers twice, or the last one does. -/
theorem append_registered_twice :
    (∃ s', append 4 threeCbs 2 = some s' ∧
      (([3] : List Nat) ≠ [] → s'.Holds ([1] ++ [2])) ∧
      (([3] : List Nat) = [] → s'.next 2 = some 2 ∧
        ∀ k, (∀ x ∈ [1] ++ [2], id x ≠ k) → ∀ fuel, getKey id fuel s' k = none)) ∧
    ∃ s', append 4 threeCbs 3 = some s' ∧
      (([] : List Nat) ≠ [] → s'.Holds ([1, 2] ++ [3])) ∧
      (([] : List Nat) = [] → s'.next 3 = some 3 ∧
        ∀ k, (∀ x ∈ [1, 2] ++ [3], id x ≠ k) → ∀ fuel, getKey id fuel s' k = none) :=
  have h2 : threeCbs.Holds ([1] ++ 2 :: [3]) := threeCbs_holds
  have h3 : threeCbs.Holds ([1, 2] ++ 3 :: []) := threeCbs_holds
  ⟨append_registered id h2 (by decide), append_registered id h3 (by decide)⟩

end UwbCore.Mac
