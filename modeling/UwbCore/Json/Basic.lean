import UwbCore.Lib.Memory

/-!
# Reading a JSON object into a structure

The reader of lib/json is given a table of attributes, each with the address its value is stored at
(`json_read_object`). It first stores the defaults, then goes through the attributes of the line in
their order, and stops at the first it does not know or cannot store. A line is told by its
attributes: how numbers are printed and read back is a parameter (`Conv`), of which only the integers
are relied on. All tables of the project have one entry for a name.

What a line leaves in memory is told attribute by attribute: `readLine_uint` for a word that one of them
stores to, `readLine_apart` for the words that none does.
-/

namespace UwbCore.Json
open UwbCore.Lib

/-! ## Lines -/

/-- A number as the writer prints it: an unsigned integer, or a double of this bit pattern, of which
    the patterns that are not numbers become `null`. -/
inductive Number where
  | uint (n : BitVec 64)
  | float (x : BitVec 64)
  deriving DecidableEq

/-- The value of an attribute. -/
inductive Value where
  | num (n : Number)
  | array (ns : List Number)
  deriving DecidableEq

/-- The attributes of an object in their order. -/
abbrev Line := List (String × Value)

/-- `DPL_FLOAT64_ISNAN` -/
def isNan (x : BitVec 64) : Bool :=
  decide (x.extractLsb' 52 11 = 0x7FF#11 ∧ x.extractLsb' 0 52 ≠ 0)

/-! ## Tables -/

inductive Elem where
  | uinteger | real
  deriving DecidableEq

/-- The type of an attribute and where its value goes. -/
inductive Target where
  | uinteger (addr : Nat)
  | real (addr : Nat)
  | array (elem : Elem) (store maxlen : Nat) (count : Option Nat)
  deriving DecidableEq

/-- `struct json_attr_t`; without a default it is one with `nodefault`. -/
structure Attr where
  name : String
  target : Target
  dflt : Option (BitVec 64)
  deriving DecidableEq

/-- What `strtoull`, `atof` and `strtod` make of a printed number. An element of an array also has an
    error code, which is 0 where the number is taken. -/
structure Conv where
  scalar : Elem → Number → BitVec 64
  element : Elem → Number → BitVec 64 × Int
  scalar_uint : ∀ n, scalar .uinteger (.uint n) = n
  element_uint : ∀ n, element .uinteger (.uint n) = (n, 0)
  element_float : ∀ x, (element .real (.float x)).2 = 0

/-- The conversion that gives back what was printed. -/
def Conv.verbatim : Conv where
  scalar _ n := match n with
    | .uint n => n
    | .float x => x
  element _ n := match n with
    | .uint n => (n, 0)
    | .float x => (x, 0)
  scalar_uint _ := rfl
  element_uint _ := rfl
  element_float _ := rfl

def jsonErrBadattr : Int := 3
def jsonErrNoarray : Int := 5
def jsonErrNobrak : Int := 6
def jsonErrSubtoolong : Int := 12

/-! ## The reader -/

/-- The stores of the defaults. -/
def stuff (m : Mem) (attrs : List Attr) : Mem :=
  attrs.foldl (fun m a => match a.target, a.dflt with
    | .uinteger addr, some d => m.store64 addr d
    | .real addr, some d => m.store64 addr d
    | _, _ => m) m

/-- The loop of `json_read_array`, with the number of elements that are taken. -/
def readElements (conv : Conv) (elem : Elem) (store maxlen : Nat) :
    Nat → Mem → List Number → Int × Mem × Nat
  | offset, m, [] => (0, m, offset)
  | offset, m, n :: ns =>
    if offset < maxlen then
      let (v, rc) := conv.element elem n
      let m := m.store64 (store + 8 * offset) v
      if rc = 0 then readElements conv elem store maxlen (offset + 1) m ns else (rc, m, offset)
    else (jsonErrSubtoolong, m, offset)

/-- C `json_read_array`. -/
def jsonReadArray (conv : Conv) (elem : Elem) (store maxlen : Nat) (count : Option Nat) (m : Mem)
    (ns : List Number) : Int × Mem :=
  let (rc, m, arrcount) := readElements conv elem store maxlen 0 m ns
  if rc = 0 then
    (0, match count with
      | some addr => m.store64 addr arrcount
      | none => m)
  else (rc, m)

/-- One attribute of the line. -/
def readAttr (conv : Conv) (attrs : List Attr) (m : Mem) (e : String × Value) : Int × Mem :=
  match attrs.find? (fun a => a.name == e.1) with
  | none => (jsonErrBadattr, m)
  | some a => match a.target, e.2 with
    | .array elem store maxlen count, .array ns => jsonReadArray conv elem store maxlen count m ns
    | .array .., .num _ => (jsonErrNobrak, m)
    | .uinteger addr, .num n => (0, m.store64 addr (conv.scalar .uinteger n))
    | .real addr, .num n => (0, m.store64 addr (conv.scalar .real n))
    | _, .array _ => (jsonErrNoarray, m)

/-- The attributes of a line from one of them on. -/
def readLine (conv : Conv) (attrs : List Attr) (m : Mem) : Line → Int × Mem
  | [] => (0, m)
  | e :: line =>
    let (rc, m) := readAttr conv attrs m e
    if rc = 0 then readLine conv attrs m line else (rc, m)

/-- C `json_read_object`. -/
def jsonReadObject (conv : Conv) (attrs : List Attr) (m : Mem) (line : Line) : Int × Mem :=
  readLine conv attrs (stuff m attrs) line

/-! ## Which lines are accepted -/

section
variable {conv : Conv} {attrs : List Attr}

/-- The attribute is in the table and its value can be stored, whatever the memory is. -/
def Accepts (conv : Conv) (attrs : List Attr) (e : String × Value) : Prop :=
  ∀ m, (readAttr conv attrs m e).1 = 0

/-- The error code of an array does not depend on the memory. -/
lemma readElements_rc {elem : Elem} {store maxlen : Nat} (ns : List Number) (offset : Nat)
    (m m' : Mem) : (readElements conv elem store maxlen offset m ns).1 =
      (readElements conv elem store maxlen offset m' ns).1 := by
  induction ns generalizing offset m m' with
  | nil => rfl
  | cons n ns ih =>
    rw [readElements, readElements]
    split
    case isTrue =>
      dsimp only
      split
      case isTrue => exact ih _ _ _
      case isFalse => rfl
    case isFalse => rfl

/-- The error code does not depend on the memory. -/
lemma readAttr_rc (m m' : Mem) (e : String × Value) :
    (readAttr conv attrs m e).1 = (readAttr conv attrs m' e).1 := by
  rw [readAttr, readAttr]
  split
  case h_1 => rfl
  case h_2 a _ =>
    split
    case h_1 elem store maxlen count ns _ _ =>
      have h := @readElements_rc conv elem store maxlen ns 0 m m'
      rw [jsonReadArray, jsonReadArray]
      dsimp only
      rw [h]
      split
      case isTrue => rfl
      case isFalse => rfl
    all_goals rfl

/-- An attribute is accepted whatever the memory is. -/
lemma accepts_iff (m : Mem) (e : String × Value) :
    Accepts conv attrs e ↔ (readAttr conv attrs m e).1 = 0 :=
  ⟨fun h => h m, fun h m' => (readAttr_rc m' m e).trans h⟩

/-- A line is accepted when each of its attributes is. -/
theorem readLine_rc_iff {m : Mem} {line : Line} :
    (readLine conv attrs m line).1 = 0 ↔ ∀ e ∈ line, Accepts conv attrs e := by
  induction line generalizing m with
  | nil => simp [readLine]
  | cons e line ih =>
    rw [readLine, List.forall_mem_cons, accepts_iff m e]
    dsimp only
    split
    case isTrue h => rw [ih, and_iff_right h]
    case isFalse h => exact ⟨fun h' => absurd h' h, fun h' => absurd h'.1 h⟩

/-- An attribute that is not in the table is an error. -/
lemma not_accepts_of_unknown {e : String × Value}
    (h : attrs.find? (fun a => a.name == e.1) = none) : ¬Accepts conv attrs e := by
  intro hacc
  have hrc := hacc fun _ => 0
  rw [readAttr, h] at hrc
  have h3 : jsonErrBadattr = 0 := hrc
  exact absurd h3 (by decide)

/-- A number for an attribute with one. -/
lemma accepts_uinteger {name : String} {n : Number} {addr : Nat} {d : Option (BitVec 64)}
    (h : attrs.find? (fun a => a.name == name) = some ⟨name, .uinteger addr, d⟩) :
    Accepts conv attrs (name, .num n) := by
  intro m
  rw [readAttr, h]

/-- A number for a real. -/
lemma accepts_real {name : String} {n : Number} {addr : Nat} {d : Option (BitVec 64)}
    (h : attrs.find? (fun a => a.name == name) = some ⟨name, .real addr, d⟩) :
    Accepts conv attrs (name, .num n) := by
  intro m
  rw [readAttr, h]

/-- Doubles that are not too many are all read. -/
lemma readElements_floats {store maxlen : Nat} (xs : List (BitVec 64)) (offset : Nat) (m : Mem)
    (h : offset + xs.length ≤ maxlen) :
    (readElements conv .real store maxlen offset m (xs.map .float)).1 = 0 := by
  induction xs generalizing offset m with
  | nil => rfl
  | cons x xs ih =>
    rw [List.length_cons] at h
    rw [List.map_cons, readElements, if_pos (by omega)]
    dsimp only
    rw [if_pos (conv.element_float x)]
    exact ih (offset + 1) _ (by omega)

/-- Doubles for an attribute with an array that is long enough. -/
lemma accepts_floats {name : String} {store maxlen : Nat} {count : Option Nat}
    {d : Option (BitVec 64)} {xs : List (BitVec 64)}
    (h : attrs.find? (fun a => a.name == name) = some ⟨name, .array .real store maxlen count, d⟩)
    (hlen : xs.length ≤ maxlen) : Accepts conv attrs (name, .array (xs.map .float)) := by
  intro m
  have hrc := @readElements_floats conv store maxlen xs 0 m (by omega)
  rw [readAttr, h]
  show (jsonReadArray conv .real store maxlen count m (xs.map .float)).1 = 0
  rw [jsonReadArray]
  dsimp only
  rw [if_pos hrc]

/-! ## What a line leaves in memory -/

/-- The stores for an attribute do not meet the `n` bytes at `a`. -/
def Target.Apart (a n : Nat) : Target → Prop
  | .uinteger addr => addr + 8 ≤ a ∨ a + n ≤ addr
  | .real addr => addr + 8 ≤ a ∨ a + n ≤ addr
  | .array _ store maxlen count => (store + 8 * maxlen ≤ a ∨ a + n ≤ store) ∧
      ∀ c ∈ count, c + 8 ≤ a ∨ a + n ≤ c

/-- Whether the stores for an attribute meet some bytes can be computed. -/
instance decidableApart (a n : Nat) : ∀ t : Target, Decidable (t.Apart a n)
  | .uinteger _ => inferInstanceAs (Decidable (_ ∨ _))
  | .real _ => inferInstanceAs (Decidable (_ ∨ _))
  | .array _ _ _ _ => inferInstanceAs (Decidable (_ ∧ _))

variable {a n : Nat}

/-- Elsewhere the elements change nothing. -/
lemma readElements_apart {elem : Elem} {store maxlen : Nat}
    (h : store + 8 * maxlen ≤ a ∨ a + n ≤ store) (ns : List Number) (offset : Nat) (m : Mem) :
    (readElements conv elem store maxlen offset m ns).2.1.load a n = m.load a n := by
  induction ns generalizing offset m with
  | nil => rfl
  | cons x ns ih =>
    rw [readElements]
    split
    case isTrue hlt =>
      have hstore : ∀ v, (m.store64 (store + 8 * offset) v).load a n = m.load a n :=
        fun v => Mem.load_store64_of_apart (by omega)
      dsimp only
      split
      case isTrue => rw [ih, hstore]
      case isFalse => exact hstore _
    case isFalse => rfl

/-- Elsewhere an attribute changes nothing. -/
lemma readAttr_apart {e : String × Value} (m : Mem)
    (h : ∀ t, attrs.find? (fun t => t.name == e.1) = some t → t.target.Apart a n) :
    (readAttr conv attrs m e).2.load a n = m.load a n := by
  rw [readAttr]
  split
  case h_1 => rfl
  case h_2 t ht =>
    have hap := h t ht
    split
    case h_1 elem store maxlen count ns htgt _ =>
      rw [htgt] at hap
      obtain ⟨harr, hcount⟩ := hap
      have hel := @readElements_apart conv a n elem store maxlen harr ns 0 m
      rw [jsonReadArray]
      dsimp only
      split
      case isTrue =>
        cases count with
        | none => exact hel
        | some c => exact (Mem.load_store64_of_apart (hcount c rfl)).trans hel
      case isFalse => exact hel
    case h_2 => rfl
    case h_3 addr _ htgt _ =>
      rw [htgt] at hap
      exact Mem.load_store64_of_apart hap
    case h_4 addr _ htgt _ =>
      rw [htgt] at hap
      exact Mem.load_store64_of_apart hap
    case h_5 => rfl

/-- A word that no attribute of the table meets stays as it is. -/
theorem readLine_apart (h : ∀ t ∈ attrs, t.target.Apart a n) (line : Line) (m : Mem) :
    (readLine conv attrs m line).2.load a n = m.load a n := by
  induction line generalizing m with
  | nil => rfl
  | cons e line ih =>
    have hone : (readAttr conv attrs m e).2.load a n = m.load a n :=
      readAttr_apart m fun t ht => h t (List.mem_of_find?_eq_some ht)
    rw [readLine]
    dsimp only
    split
    case isTrue => rw [ih, hone]
    case isFalse => exact hone

/-- What an attribute makes of the word of the integer `name`. -/
def pick (conv : Conv) (name : String) (old : Nat) (e : String × Value) : Nat :=
  if e.1 = name then
    match e.2 with
    | .num n => (conv.scalar .uinteger n).toNat
    | .array _ => old
  else old

/-- An integer that no other attribute of the table meets is what the line last says of it. -/
theorem readLine_uint {name : String} {addr : Nat} {d : Option (BitVec 64)}
    (hfind : attrs.find? (fun t => t.name == name) = some ⟨name, .uinteger addr, d⟩)
    (hrest : ∀ t ∈ attrs, t.name ≠ name → t.target.Apart addr 8) {line : Line} {m : Mem}
    (hrc : (readLine conv attrs m line).1 = 0) :
    (readLine conv attrs m line).2.load addr 8 = line.foldl (pick conv name) (m.load addr 8) := by
  induction line generalizing m with
  | nil => rfl
  | cons e line ih =>
    have hone : (readAttr conv attrs m e).2.load addr 8 = pick conv name (m.load addr 8) e := by
      obtain ⟨nm, v⟩ := e
      rw [pick]
      split
      case isTrue hn =>
        have hn' : nm = name := hn
        subst hn'
        rw [readAttr, hfind]
        cases v with
        | num n => exact Mem.load_store64
        | array ns => rfl
      case isFalse hn =>
        apply readAttr_apart
        intro t ht
        have hname : t.name = nm := by simpa using List.find?_some ht
        exact hrest t (List.mem_of_find?_eq_some ht) (hname ▸ hn)
    rw [readLine] at hrc ⊢
    dsimp only at hrc ⊢
    split at hrc
    case isTrue h0 =>
      rw [if_pos h0, ih hrc, hone, List.foldl_cons]
    case isFalse h0 => exact absurd hrc h0

end

end UwbCore.Json
