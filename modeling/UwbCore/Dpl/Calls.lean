import UwbCore.Dpl.Reshape

/-!
# Calls on chains

The variables of a program that hold chains of one pool, the calls it makes for them, and what each call is to
do: to the bytes of the chains and what their packet headers hold besides the length, and when it does not have
the memory for it.
-/

namespace UwbCore.Dpl

/-- The free blocks of a pool, and the chains in `n` variables, of which one without a chain is null. -/
structure Owners (n : Nat) where
  free : Nat
  chain : Fin n → List Buf

/-- A call for the chain in variable `i`. -/
inductive MbufCall (n : Nat) where
  | get (i : Fin n) (leadingspace : Nat)
  | getPkthdr (i : Fin n) (user : List UInt8)
  | freeChain (i : Fin n)
  | append (i : Fin n) (bytes : List UInt8)
  | appendfrom (i j : Fin n) (off len : Nat)
  | dup (i j : Fin n)
  | adj (i : Fin n) (len : Int)
  | prepend (i : Fin n) (bytes : List UInt8)
  | pullup (i : Fin n) (len : Nat)
  | copyinto (i : Fin n) (off : Nat) (src : List UInt8)
  | concat (i j : Fin n)
  | extend (i : Fin n) (bytes : List UInt8)
  | trimFront (i : Fin n)

section
variable {n : Nat}

/-- A call is made for a variable that holds a chain, a new chain goes to one that holds none, and the bytes to
    copy have a length of 16 bits. -/
def MbufCall.Proper (w : Owners n) : MbufCall n → Prop
  | .get i _ => w.chain i = []
  | .getPkthdr i _ => w.chain i = []
  | .freeChain _ => True
  | .append i _ => w.chain i ≠ []
  | .appendfrom i j _ _ => i ≠ j ∧ w.chain i ≠ [] ∧ w.chain j ≠ []
  | .dup i j => w.chain i ≠ [] ∧ w.chain j = []
  | .adj i _ => w.chain i ≠ []
  | .prepend i _ => w.chain i ≠ []
  | .pullup i _ => w.chain i ≠ []
  | .copyinto i _ src => w.chain i ≠ [] ∧ src.length < 2 ^ 16
  | .concat i j => i ≠ j ∧ w.chain i ≠ [] ∧ w.chain j ≠ []
  | .extend i _ => w.chain i ≠ []
  | .trimFront i => w.chain i ≠ []

instance decidableProper (w : Owners n) : (e : MbufCall n) → Decidable (e.Proper w)
  | .get i _ => inferInstanceAs (Decidable (w.chain i = []))
  | .getPkthdr i _ => inferInstanceAs (Decidable (w.chain i = []))
  | .freeChain _ => inferInstanceAs (Decidable True)
  | .append i _ => inferInstanceAs (Decidable (w.chain i ≠ []))
  | .appendfrom i j _ _ => inferInstanceAs (Decidable (i ≠ j ∧ w.chain i ≠ [] ∧ w.chain j ≠ []))
  | .dup i j => inferInstanceAs (Decidable (w.chain i ≠ [] ∧ w.chain j = []))
  | .adj i _ => inferInstanceAs (Decidable (w.chain i ≠ []))
  | .prepend i _ => inferInstanceAs (Decidable (w.chain i ≠ []))
  | .pullup i _ => inferInstanceAs (Decidable (w.chain i ≠ []))
  | .copyinto i _ src => inferInstanceAs (Decidable (w.chain i ≠ [] ∧ src.length < 2 ^ 16))
  | .concat i j => inferInstanceAs (Decidable (i ≠ j ∧ w.chain i ≠ [] ∧ w.chain j ≠ []))
  | .extend i _ => inferInstanceAs (Decidable (w.chain i ≠ []))
  | .trimFront i => inferInstanceAs (Decidable (w.chain i ≠ []))

/-- The chain in a variable replaced. -/
def Owners.put (w : Owners n) (i : Fin n) (c : List Buf) (free : Nat) : Owners n :=
  ⟨free, Function.update w.chain i c⟩

/-- What a call returns when the chain it leaves is null or is none. -/
def rcOf (c : List Buf) : Rc := if c = [] then .enomem else .ok

/-- A call, and what it returns. -/
def Owners.call (p : MbufPool) (w : Owners n) : MbufCall n → Owners n × Rc
  | .get i leadingspace =>
    match dplMbufGet p w.free leadingspace with
    | none => (w, .enomem)
    | some (b, free) => (w.put i [b] free, .ok)
  | .getPkthdr i user =>
    match dplMbufGetPkthdr p w.free user with
    | none => (w, .enomem)
    | some (b, free) => (w.put i [b] free, .ok)
  | .freeChain i => (w.put i [] (dplMbufFreeChain w.free (w.chain i)), .ok)
  | .append i bytes =>
    let (c, free, rc) := dplMbufAppend p w.free (w.chain i) bytes
    (w.put i c free, rc)
  | .appendfrom i j off len =>
    let (c, free, rc) := dplMbufAppendfrom p w.free (w.chain i) (w.chain j) off len
    (w.put i c free, rc)
  | .dup i j =>
    let (c, free) := dplMbufDup p w.free (w.chain i)
    (w.put j c free, rcOf c)
  | .adj i len =>
    let (c, free) := dplMbufAdj w.free (w.chain i) len
    (w.put i c free, .ok)
  | .prepend i bytes =>
    let (c, free) := dplMbufPrepend p w.free (w.chain i) bytes
    (w.put i c free, rcOf c)
  | .pullup i len =>
    let (c, free) := dplMbufPullup p w.free (w.chain i) len
    (w.put i c free, rcOf c)
  | .copyinto i off src =>
    let (c, free, rc) := dplMbufCopyinto p w.free (w.chain i) off src
    (w.put i c free, rc)
  | .concat i j => ((w.put i (dplMbufConcat p (w.chain i) (w.chain j)) w.free).put j [] w.free, .ok)
  | .extend i bytes =>
    match dplMbufExtend p w.free (w.chain i) bytes with
    | none => (w, .enomem)
    | some (c, free) => (w.put i c free, .ok)
  | .trimFront i =>
    let (c, free) := dplMbufTrimFront p w.free (w.chain i)
    (w.put i c free, .ok)

/-- One call. -/
def Owners.step (p : MbufPool) (w : Owners n) (e : MbufCall n) : Owners n := (w.call p e).1

/-- Nothing is taken from the pool yet. -/
def Owners.init (n blocks : Nat) : Owners n := ⟨blocks, fun _ => []⟩

/-! ## What the chains stand for -/

/-- A packet: what its header holds besides the length, if it has one, and its bytes. -/
structure Packet where
  user : Option (BitVec 16 × List UInt8)
  bytes : List UInt8

/-- The packet of a chain. -/
def view (c : List Buf) : Option Packet := if c = [] then none else some ⟨userOf c, flat c⟩

/-- The packets of the variables. -/
def Owners.view (w : Owners n) : Fin n → Option Packet := fun i => Dpl.view (w.chain i)

/-- The bytes of a packet, none where there is no packet. -/
def bytesOf (v : Option Packet) : List UInt8 := (v.map Packet.bytes).getD []

/-- Other bytes in a packet. -/
def withBytes (v : Option Packet) (bytes : List UInt8) : Option Packet :=
  v.map fun q => { q with bytes := bytes }

/-- A call that is done exactly if `c` holds, and otherwise returns `DPL_ENOMEM` and leaves `failed`. -/
def Outcome (c : Prop) (done failed : Fin n → Option Packet) (rc : Rc) (v : Fin n → Option Packet) :
    Prop :=
  c ∧ rc = .ok ∧ v = done ∨ ¬c ∧ rc = .enomem ∧ v = failed

/-- What a call that returns `rc` makes of the packets. It depends on the free blocks, and on the space in
    the buffers of the chain, how much of it is done. -/
def Effect (p : MbufPool) (w : Owners n) : MbufCall n → Rc → Owners n → Prop
  | .get i leadingspace, rc, w' =>
    Outcome (leadingspace ≤ p.databufLen ∧ 0 < w.free)
      (Function.update w.view i (some ⟨none, []⟩)) w.view rc w'.view
  | .getPkthdr i user, rc, w' =>
    Outcome (user.length + p.pkthdrSize ≤ p.databufLen ∧ user.length + p.pkthdrSize ≤ 255 ∧ 0 < w.free)
      (Function.update w.view i (some ⟨some (0, user), []⟩)) w.view rc w'.view
  | .freeChain i, rc, w' => rc = .ok ∧ w'.view = Function.update w.view i none
  | .append i bytes, rc, w' =>
    w'.view = Function.update w.view i (withBytes (w.view i)
        (bytesOf (w.view i) ++ bytes.take (room p w.free (w.chain i)))) ∧
      rc = if bytes.length ≤ room p w.free (w.chain i) then .ok else .enomem
  | .appendfrom i j off len, rc, w' =>
    w'.view = Function.update w.view i (withBytes (w.view i) (bytesOf (w.view i) ++
        (((bytesOf (w.view j)).drop off).take len).take (room p w.free (w.chain i)))) ∧
      rc = if room p w.free (w.chain i) < (((bytesOf (w.view j)).drop off).take len).length then .enomem
        else if ((bytesOf (w.view j)).drop off).length < len then .einval else .ok
  | .dup i j, rc, w' =>
    Outcome ((w.chain i).length ≤ w.free) (Function.update w.view j (w.view i)) w.view rc w'.view
  | .adj i len, rc, w' =>
    rc = .ok ∧ w'.view = Function.update w.view i (withBytes (w.view i)
      (if 0 ≤ len then (bytesOf (w.view i)).drop len.toNat
        else (bytesOf (w.view i)).take ((bytesOf (w.view i)).length - (-len).toNat)))
  | .prepend i bytes, rc, w' =>
    Outcome (bytes.length ≤ headRoom p w.free (w.chain i))
      (Function.update w.view i (withBytes (w.view i) (bytes ++ bytesOf (w.view i))))
      (Function.update w.view i none) rc w'.view
  | .pullup i len, rc, w' =>
    Outcome (CanPullup p w.free (w.chain i) len) w.view (Function.update w.view i none) rc w'.view ∧
      (rc = .ok → ∃ b rest, w'.chain i = b :: rest ∧ len ≤ b.data.length)
  | .copyinto i off src, rc, w' =>
    rc = .failed ∧ (bytesOf (w.view i)).length < off ∧ w'.view = w.view ∨
      off ≤ (bytesOf (w.view i)).length ∧
        w'.view = Function.update w.view i (withBytes (w.view i) (splice (bytesOf (w.view i)) off
          (src.take ((bytesOf (w.view i)).length - off + room p w.free (w.chain i))))) ∧
        rc = if src.length ≤ (bytesOf (w.view i)).length - off + room p w.free (w.chain i) then .ok
          else .enomem
  | .concat i j, rc, w' =>
    rc = .ok ∧ w'.view = Function.update (Function.update w.view i (withBytes (w.view i)
      (bytesOf (w.view i) ++ bytesOf (w.view j)))) j none
  | .extend i bytes, rc, w' =>
    Outcome (bytes.length ≤ p.databufLen ∧ (bytes.length ≤ lastRoom (w.chain i) ∨ 0 < w.free))
      (Function.update w.view i (withBytes (w.view i) (bytesOf (w.view i) ++ bytes))) w.view rc w'.view
  | .trimFront _, rc, w' => rc = .ok ∧ w'.view = w.view

end

end UwbCore.Dpl
