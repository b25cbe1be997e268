import UwbCore.Lib.Table

/-!
# Singly linked lists

A head and the links of the elements, as the macros of `queue.h` change them. `Links next p l` says
that from `p` on the links go through the elements of `l` and end. Then the elements are distinct
(`Links.nodup`), the loops over the list end and find what they look for, and the macros do to the
elements what the same operations do to `l`. A loop over links that do not end takes any number of
rounds, so it is given one, and `none` is a loop that has not ended by then or that leaves the list
without what it looks for.
-/

namespace UwbCore.Lib

/-- `SLIST_HEAD`, and `sle_next` of each element. -/
structure Slist where
  first : Option Nat
  next : Table (Option Nat)

namespace Slist

/-- `SLIST_INIT` -/
def init (s : Slist) : Slist := { s with first := none }

/-- `SLIST_INSERT_HEAD` -/
def insertHead (s : Slist) (a : Nat) : Slist where
  first := some a
  next := s.next.modify a fun _ => s.first

/-- `SLIST_INSERT_AFTER(b, a)` -/
def insertAfter (s : Slist) (b a : Nat) : Slist :=
  { s with next := (s.next.modify a fun _ => s.next b).modify b fun _ => some a }

/-- `SLIST_REMOVE_HEAD`, of a list with an element. -/
def removeHead (s : Slist) : Slist := { s with first := s.first.bind s.next }

/-- `SLIST_FOREACH` with a break at the first element with property `p`. -/
def findFrom (next : Table (Option Nat)) (p : Nat → Bool) : Nat → Option Nat → Option (Option Nat)
  | 0, _ => none
  | _ + 1, none => some none
  | fuel + 1, some a => if p a then some (some a) else findFrom next p fuel (next a)

/-- `SLIST_FOREACH` that keeps the element before: the last one. -/
def lastFrom (next : Table (Option Nat)) : Nat → Option Nat → Nat → Option Nat
  | 0, _, _ => none
  | _ + 1, none, prev => some prev
  | fuel + 1, some a, _ => lastFrom next fuel (next a) a

/-- The loop of `SLIST_REMOVE`: the element before `a`. -/
def predFrom (next : Table (Option Nat)) (a : Nat) : Nat → Nat → Option Nat
  | 0, _ => none
  | fuel + 1, cur => if next cur = some a then some cur else (next cur).bind (predFrom next a fuel)

/-- The store of `SLIST_REMOVE`: the element after `b` is passed over. -/
def removeAfter (s : Slist) (b : Nat) : Slist :=
  { s with next := s.next.modify b fun c => c.bind s.next }

/-- `SLIST_REMOVE` -/
def remove (fuel : Nat) (s : Slist) (a : Nat) : Option Slist :=
  if s.first = some a then some s.removeHead
  else (s.first.bind (predFrom s.next a fuel)).map s.removeAfter

/-- The elements in their order. -/
def walk (next : Table (Option Nat)) : Nat → Option Nat → Option (List Nat)
  | 0, _ => none
  | _ + 1, none => some []
  | fuel + 1, some a => (walk next fuel (next a)).map (a :: ·)

end Slist

/-! ## Links -/

/-- The links from `p` on go through the elements of `l` and come to `q`. -/
inductive Path (next : Table (Option Nat)) : Option Nat → List Nat → Option Nat → Prop where
  | nil {p} :
    Path next p [] p
  | cons {a l q} :
    Path next (next a) l q →
    Path next (some a) (a :: l) q

/-- The links from `p` on go through the elements of `l` and end. -/
abbrev Links (next : Table (Option Nat)) (p : Option Nat) (l : List Nat) : Prop := Path next p l none

section
variable {next next' : Table (Option Nat)} {p q : Option Nat} {a b : Nat} {l m : List Nat}

/-- A path with an element goes through it. -/
lemma Path.cons_inv (h : Path next p (a :: l) q) : p = some a ∧ Path next (next a) l q := by
  cases h with
  | cons h => exact ⟨rfl, h⟩

/-- A path without elements stays. -/
lemma Path.nil_inv (h : Path next p [] q) : p = q := by
  cases h
  rfl

/-- One path after another. -/
lemma Path.append {r : Option Nat} (h : Path next p l q) (h' : Path next q m r) :
    Path next p (l ++ m) r := by
  induction h with
  | nil => exact h'
  | cons _ ih => exact .cons (ih h')

/-- A path can be cut anywhere. -/
lemma Path.split (h : Path next p (l ++ m) q) : ∃ r, Path next p l r ∧ Path next r m q := by
  induction l generalizing p with
  | nil => exact ⟨p, .nil, h⟩
  | cons a l ih =>
    obtain ⟨rfl, htail⟩ := h.cons_inv
    obtain ⟨r, hl, hm⟩ := ih htail
    exact ⟨r, .cons hl, hm⟩

/-- A path up to an element, and from it on. -/
lemma Path.split_cons (h : Path next p (l ++ a :: m) q) :
    Path next p l (some a) ∧ Path next (next a) m q := by
  obtain ⟨r, hl, hm⟩ := h.split
  obtain ⟨rfl, htail⟩ := hm.cons_inv
  exact ⟨hl, htail⟩

/-- A path is not changed with the links of other elements. -/
lemma Path.congr (h : Path next p l q) (hn : ∀ x ∈ l, next' x = next x) : Path next' p l q := by
  induction h with
  | nil => exact .nil
  | cons h ih =>
    refine .cons ?_
    rw [hn _ List.mem_cons_self]
    exact ih fun x hx => hn x (List.mem_cons_of_mem _ hx)

/-- Where links that end lead is a function of where they start. -/
lemma Links.unique (h : Links next p l) (h' : Links next p m) : l = m := by
  induction l generalizing p m with
  | nil =>
    have hp : p = none := h.nil_inv
    cases h' with
    | nil => rfl
    | cons => cases hp
  | cons a l ih =>
    obtain ⟨rfl, htail⟩ := h.cons_inv
    cases h' with
    | cons h' => rw [ih htail h']

/-- An element comes once: from it on the links would be of two lengths. -/
lemma Links.nodup (h : Links next p l) : l.Nodup := by
  induction l generalizing p with
  | nil => exact List.nodup_nil
  | cons a l ih =>
    have htail : Links next (next a) l := h.cons_inv.2
    refine List.nodup_cons.mpr ⟨fun hmem => ?_, ih htail⟩
    obtain ⟨s, t, rfl⟩ := List.append_of_mem hmem
    have e : s ++ a :: t = t := htail.unique htail.split_cons.2
    have hlen := congrArg List.length e
    rw [List.length_append, List.length_cons] at hlen
    omega

/-- The last element with its link put to `r`. -/
lemma Path.relink {r : Option Nat} (h : Path next p (l ++ [b]) q) (hb : b ∉ l)
    (hn : ∀ x, x ≠ b → next' x = next x) (hr : next' b = r) : Path next' p (l ++ [b]) r := by
  have hl : Path next p l (some b) := h.split_cons.1
  refine (hl.congr fun x hx => hn x fun e => hb (e ▸ hx)).append (.cons ?_)
  rw [hr]
  exact .nil

/-! ## Loops -/

/-- The search along the links is that along the list. -/
lemma findFrom_eq {f : Nat → Bool} {fuel : Nat} (h : Links next p l) (hf : l.length < fuel) :
    Slist.findFrom next f fuel p = some (l.find? f) := by
  induction l generalizing p fuel with
  | nil =>
    obtain ⟨fuel, rfl⟩ := Nat.exists_eq_succ_of_ne_zero (Nat.ne_of_gt hf)
    rw [h.nil_inv]
    rfl
  | cons a l ih =>
    obtain ⟨fuel, rfl⟩ := Nat.exists_eq_succ_of_ne_zero (Nat.ne_of_gt (Nat.zero_lt_of_lt hf))
    obtain ⟨rfl, htail⟩ := h.cons_inv
    rw [Slist.findFrom, List.find?_cons]
    cases f a with
    | true => rfl
    | false => exact ih htail (Nat.lt_of_succ_lt_succ hf)

/-- The end of the links is the end of the list. -/
lemma lastFrom_eq {fuel : Nat} (h : Links next p l) (hf : l.length < fuel) (prev : Nat) :
    Slist.lastFrom next fuel p prev = some (l.getLast?.getD prev) := by
  induction l generalizing p fuel prev with
  | nil =>
    obtain ⟨fuel, rfl⟩ := Nat.exists_eq_succ_of_ne_zero (Nat.ne_of_gt hf)
    rw [h.nil_inv]
    rfl
  | cons a l ih =>
    obtain ⟨fuel, rfl⟩ := Nat.exists_eq_succ_of_ne_zero (Nat.ne_of_gt (Nat.zero_lt_of_lt hf))
    obtain ⟨rfl, htail⟩ := h.cons_inv
    rw [Slist.lastFrom, ih htail (Nat.lt_of_succ_lt_succ hf), List.getLast?_cons]
    rfl

/-- The walk along the links gives the list. -/
lemma walk_eq {fuel : Nat} (h : Links next p l) (hf : l.length < fuel) :
    Slist.walk next fuel p = some l := by
  induction l generalizing p fuel with
  | nil =>
    obtain ⟨fuel, rfl⟩ := Nat.exists_eq_succ_of_ne_zero (Nat.ne_of_gt hf)
    rw [h.nil_inv]
    rfl
  | cons a l ih =>
    obtain ⟨fuel, rfl⟩ := Nat.exists_eq_succ_of_ne_zero (Nat.ne_of_gt (Nat.zero_lt_of_lt hf))
    obtain ⟨rfl, htail⟩ := h.cons_inv
    rw [Slist.walk, ih htail (Nat.lt_of_succ_lt_succ hf)]
    rfl

/-- A walk that ends has gone along the links. -/
lemma Links.of_walk {fuel : Nat} (h : Slist.walk next fuel p = some l) : Links next p l := by
  induction fuel generalizing p l with
  | zero => cases h
  | succ fuel ih =>
    cases p with
    | none =>
      cases h
      exact .nil
    | some a =>
      rw [Slist.walk, Option.map_eq_some_iff] at h
      obtain ⟨m, hm, rfl⟩ := h
      exact .cons (ih hm)

/-- The loop of `SLIST_REMOVE` ends at the element before. -/
lemma predFrom_eq {c fuel : Nat} (h : Path next (some c) (c :: (l ++ [a])) q) (hl : a ∉ l)
    (hf : l.length < fuel) :
    Slist.predFrom next a fuel c = some ((c :: l).getLast (List.cons_ne_nil c l)) := by
  induction l generalizing c fuel with
  | nil =>
    obtain ⟨fuel, rfl⟩ := Nat.exists_eq_succ_of_ne_zero (Nat.ne_of_gt hf)
    have hnext : next c = some a := h.cons_inv.2.cons_inv.1
    rw [Slist.predFrom, if_pos hnext]
    rfl
  | cons d l ih =>
    obtain ⟨fuel, rfl⟩ := Nat.exists_eq_succ_of_ne_zero (Nat.ne_of_gt (Nat.zero_lt_of_lt hf))
    obtain ⟨hda, hl⟩ := not_or.mp (mt List.mem_cons.mpr hl)
    have hnext : next c = some d := h.cons_inv.2.cons_inv.1
    have htail := h.cons_inv.2
    rw [hnext] at htail
    rw [Slist.predFrom, hnext, if_neg fun e => hda (Option.some.inj e).symm, Option.bind_some,
      ih htail hl (Nat.lt_of_succ_lt_succ hf)]
    rfl

/-- Links that come to an element and back to it never end. -/
lemma findFrom_of_cycle {f : Nat → Bool} (h : Path next (some a) l (some a)) (hne : l ≠ [])
    (hl : ∀ x ∈ l, f x = false) (hm : Path next p m (some a)) (hf : ∀ x ∈ m, f x = false)
    (fuel : Nat) : Slist.findFrom next f fuel p = none := by
  induction fuel generalizing p m with
  | zero => rfl
  | succ fuel ih =>
    cases m with
    | nil =>
      -- once round
      rw [hm.nil_inv]
      cases l with
      | nil => exact absurd rfl hne
      | cons b l =>
        obtain ⟨hab, htail⟩ := h.cons_inv
        rw [hab, Slist.findFrom, hl b List.mem_cons_self]
        exact ih htail fun x hx => hl x (List.mem_cons_of_mem _ hx)
    | cons b m =>
      obtain ⟨rfl, htail⟩ := hm.cons_inv
      rw [Slist.findFrom, hf b List.mem_cons_self]
      exact ih htail fun x hx => hf x (List.mem_cons_of_mem _ hx)

end

/-! ## What the macros do to the elements -/

namespace Slist

/-- The list has the elements of `l` in this order. -/
def Holds (s : Slist) (l : List Nat) : Prop := Links s.next s.first l

variable {s : Slist} {a b : Nat} {l : List Nat}

/-- An element is put in front. -/
lemma holds_insertHead (h : s.Holds l) (ha : a ∉ l) : (s.insertHead a).Holds (a :: l) := by
  refine .cons ?_
  show Links (s.next.modify a fun _ => s.first) ((s.next.modify a fun _ => s.first) a) l
  rw [Table.modify_self]
  exact Path.congr h fun x hx => Table.modify_of_ne _ _ fun e => ha (e ▸ hx)

/-- The first element is taken off. -/
lemma holds_removeHead (h : s.Holds (a :: l)) : s.removeHead.Holds l := by
  obtain ⟨hfirst, htail⟩ := Path.cons_inv h
  show Links s.next (s.first.bind s.next) l
  rw [hfirst]
  exact htail

/-- The element before the new one. -/
lemma insertAfter_self : (s.insertAfter b a).next b = some a := if_pos rfl

/-- The new element. -/
lemma insertAfter_new (h : b ≠ a) : (s.insertAfter b a).next a = s.next b :=
  (if_neg h.symm).trans (if_pos rfl)

/-- The others. -/
lemma insertAfter_of_ne {x : Nat} (hb : x ≠ b) (ha : x ≠ a) :
    (s.insertAfter b a).next x = s.next x :=
  (if_neg hb).trans (if_neg ha)

/-- An element that is in the list and is put after the last one once more takes the elements behind it
    off the list. -/
lemma holds_insertLast_of_mem {t : List Nat} (h : s.Holds (l ++ a :: t)) (hb : b ∈ t.getLast?) :
    (s.insertAfter b a).Holds (l ++ [a]) := by
  obtain ⟨t, rfl⟩ := List.getLast?_eq_some_iff.mp hb
  have hnd : (l ++ a :: (t ++ [b])).Nodup := Links.nodup h
  obtain ⟨-, hat, hlt⟩ := List.nodup_append.mp hnd
  have hba : b ≠ a := fun e => (List.nodup_cons.mp hat).1 (e ▸ List.mem_append_right _
    (List.mem_singleton_self b))
  have hend : s.next b = none :=
    (Path.split_cons (l := l ++ a :: t) (by rw [List.append_assoc]; exact h)).2.nil_inv
  have hpath : Path (s.insertAfter b a).next s.first l (some a) :=
    (Path.split_cons h).1.congr fun x hx => insertAfter_of_ne
      (hlt x hx b (List.mem_cons_of_mem _ (List.mem_append_right _ (List.mem_singleton_self b))))
      (hlt x hx a List.mem_cons_self)
  refine hpath.append (.cons ?_)
  rw [insertAfter_new hba, hend]
  exact .nil

/-- The last element put after itself leads to itself. -/
lemma path_insertAfter_self : Path (s.insertAfter a a).next (some a) [a] (some a) := by
  refine .cons ?_
  rw [insertAfter_self]
  exact .nil

/-- Insertion after the last element. -/
lemma holds_insertLast (h : s.Holds (l ++ [b])) (ha : a ∉ l ++ [b]) :
    (s.insertAfter b a).Holds (l ++ [b] ++ [a]) := by
  have hba : b ≠ a := fun e => ha (e ▸ List.mem_append_right _ (List.mem_singleton_self b))
  have hbl : b ∉ l := fun hmem =>
    (List.nodup_append.mp (Links.nodup h)).2.2 b hmem b (List.mem_singleton_self b) rfl
  have hend : s.next b = none := (Path.split_cons h).2.nil_inv
  have hpath : Path (s.insertAfter b a).next s.first l (some b) :=
    (Path.split_cons h).1.congr fun x hx => insertAfter_of_ne (fun e => hbl (e ▸ hx)) fun e =>
      ha (e ▸ List.mem_append_left _ hx)
  have hlast : Links (s.insertAfter b a).next (some a) [a] := by
    refine .cons ?_
    rw [insertAfter_new hba, hend]
    exact .nil
  have hb : Links (s.insertAfter b a).next (some b) [b, a] := .cons (insertAfter_self ▸ hlast)
  rw [List.append_assoc]
  exact hpath.append hb

/-- An element is removed from anywhere. -/
lemma holds_remove {fuel : Nat} (h : s.Holds l) (ha : a ∈ l) (hf : l.length ≤ fuel) :
    ∃ s', s.remove fuel a = some s' ∧ s'.Holds (l.erase a) := by
  cases l with
  | nil => cases ha
  | cons c l =>
    obtain ⟨hfirst, -⟩ := Path.cons_inv h
    by_cases hca : c = a
    case pos =>
      subst hca
      rw [remove, if_pos hfirst, List.erase_cons_head]
      exact ⟨_, rfl, holds_removeHead h⟩
    case neg =>
      have hne : s.first ≠ some a := fun e => hca (Option.some.inj (hfirst.symm.trans e))
      have hal : a ∈ l := (List.mem_cons.mp ha).resolve_left fun e => hca e.symm
      obtain ⟨k, t, rfl, hk⟩ := List.eq_append_cons_of_mem hal
      have hlen : k.length < fuel := by
        rw [List.length_cons, List.length_append, List.length_cons] at hf
        omega
      have hnotin : a ∉ c :: k := fun hmem =>
        (List.mem_cons.mp hmem).elim (fun e => hca e.symm) hk
      obtain ⟨r, hr⟩ : ∃ r, c :: k = r ++ [(c :: k).getLast (List.cons_ne_nil c k)] :=
        ⟨_, (List.dropLast_append_getLast _).symm⟩
      have hsplit : Path s.next s.first (c :: k) (some a) ∧ Path s.next (s.next a) t none :=
        Path.split_cons (l := c :: k) h
      have hpred : predFrom s.next a fuel c = some ((c :: k).getLast (List.cons_ne_nil c k)) := by
        refine predFrom_eq (q := s.next a) ?_ hk hlen
        rw [← List.cons_append, ← hfirst]
        exact hsplit.1.append (.cons .nil)
      generalize hb : (c :: k).getLast (List.cons_ne_nil c k) = b at hr hpred
      rw [remove, if_neg hne, hfirst, Option.bind_some, hpred]
      refine ⟨_, rfl, ?_⟩
      have herase : (c :: (k ++ a :: t)).erase a = c :: k ++ t := by
        rw [← List.cons_append, List.erase_append_right _ hnotin, List.erase_cons_head]
      have hnd : (c :: k ++ a :: t).Nodup := Links.nodup h
      rw [hr] at hsplit hnd
      have hbr : b ∉ r := fun hmem =>
        (List.nodup_append.mp (List.nodup_append.mp hnd).1).2.2 b hmem b
          (List.mem_singleton_self b) rfl
      have hnext : s.next b = some a := (Path.split_cons hsplit.1).2.nil_inv
      rw [herase, hr]
      -- the element before now leads to the one after
      have hself : (s.removeAfter b).next b = s.next a :=
        (if_pos rfl).trans (by rw [hnext, Option.bind_some])
      have hother : ∀ x, x ≠ b → (s.removeAfter b).next x = s.next x := fun x hx => if_neg hx
      have hbt : b ∉ t := fun hmem =>
        (List.nodup_append.mp hnd).2.2 b (List.mem_append_right _ (List.mem_singleton_self b)) b
          (List.mem_cons_of_mem _ hmem) rfl
      exact (hsplit.1.relink hbr hother hself).append
        (hsplit.2.congr fun x hx => hother x fun e => hbt (e ▸ hx))

end Slist
end UwbCore.Lib
