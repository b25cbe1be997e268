import UwbCore.Lib.Hex
import UwbCore.Panmaster.Basic

/-!
# The file back end

`panmaster_file.c`: the node log kept as lines of text, ten hexadecimal fields each. The content of the
file is a list of bytes, shorter than 2^32; the file system reads, seeks and appends as it should. A line
is read into a buffer of 143 bytes from the offset behind the line before.
-/

namespace UwbCore.Panmaster
open UwbCore.Lib

/-- C `PANM_MAX_ROW_LEN`. -/
def panmMaxRowLen : Nat := 32 * 3 + 4 + 4 + 2 + 5

/-- C `PANMASTER_NODE_NUM_FIELDS`. -/
def panmasterNodeNumFields : Nat := 10

/-- The size of the line buffers. -/
def lineBufLen : Nat := panmMaxRowLen + 32

/-- The size of the array `fields`. -/
def fieldsLen : Nat := panmasterNodeNumFields + 2

/-- C `PANM_FIELD_SEPARATOR`. -/
def fieldSeparator : UInt8 := 0x2C
def newline : UInt8 := 0x0A

/-! ## Writing -/

/-- The numbers of a line, as `%X`, `%llX` and `%lX` take them. -/
def Node.printed (node : Node) : List Nat :=
  [node.index, (node.firstSeenUtc % 2 ^ 64).toNat, node.euid, node.addr, node.flags, node.role,
    node.fwVer.ivMajor, node.fwVer.ivMinor, node.fwVer.ivRevision, node.fwVer.ivBuildNum]

/-- One `snprintf` of `panm_line_make`, and the check behind it. -/
def printField (dlen : Nat) (dst : List UInt8) (v : Nat) : Option (List UInt8) :=
  let dst := dst ++ (Hex.digits 16 v ++ [fieldSeparator])
  if dlen < dst.length then none else some dst

/-- C `panm_line_make`, for a line that does not fill the buffer to the last byte. -/
def panmLineMake (dlen : Nat) (node : Node) : Option (List UInt8) :=
  node.printed.foldlM (printField dlen) []

/-- C `panm_file_save`: the content afterwards. -/
def panmFileSave (content : List UInt8) (node : Node) : List UInt8 :=
  match panmLineMake lineBufLen node with
  | none => content
  | some line => if lineBufLen < line.length + 2 then content else content ++ (line ++ [newline])

/-! ## Reading -/

/-- C `strtok_r`: the next field, and the rest of the line. -/
def strtok (s : List UInt8) : Option (List UInt8 × List UInt8) :=
  match s.dropWhile (· == fieldSeparator) with
  | [] => none
  | c :: s => some (c :: s.takeWhile (· != fieldSeparator), (s.dropWhile (· != fieldSeparator)).tail)

/-- The loop of `panm_line_parse`, `n` rounds at most: what it stores in `fields`. -/
def storedFields : Nat → List UInt8 → List (List UInt8)
  | 0, _ => []
  | n + 1, s =>
    match strtok s with
    | none => []
    | some (tok, rest) => tok :: storedFields n rest

/-- The fields of a line; every round takes a byte at least. -/
def lineFields (buf : List UInt8) : List (List UInt8) := storedFields (buf.length + 1) buf

/-- A number stored into an unsigned field. -/
def wrap (bits : Nat) (v : Int) : Nat := (v % 2 ^ bits).toNat

/-- The largest `long long`. -/
def longLongMax : Nat := 2 ^ 63 - 1

/-- The bits of the flags that nothing uses. -/
lemma dummy_lt (flags : Nat) : flags % 2 ^ 11 < 2 ^ 11 := Nat.mod_lt _ (by decide)

/-- The record that the fields of a line are stored into; the role goes over its bits in the flags, and
    the slot is left as it is. -/
def Node.store (longMax : Nat) (field : Nat → List UInt8) (node : Node) : Node :=
  let flags := wrap 16 (Hex.strtol longMax (field 4))
  { index := wrap 8 (Hex.strtol longLongMax (field 0))
    firstSeenUtc := Hex.strtol longLongMax (field 1)
    euid := wrap 64 (Hex.strtol longLongMax (field 2))
    addr := wrap 16 (Hex.strtol longMax (field 3))
    dummy := ⟨flags % 2 ^ 11, dummy_lt flags⟩
    hasPermSlot := flags / 2 ^ 11 % 2 == 1
    role := wrap 4 (Hex.strtol longMax (field 5))
    fwVer :=
      { ivMajor := wrap 8 (Hex.strtol longMax (field 6))
        ivMinor := wrap 8 (Hex.strtol longMax (field 7))
        ivRevision := wrap 16 (Hex.strtol longMax (field 8))
        ivBuildNum := wrap 32 (Hex.strtol longMax (field 9)) }
    slotId := node.slotId }

/-- C `panm_line_parse`; `longMax` is the largest `long`. -/
def panmLineParse (longMax : Nat) (buf : List UInt8) (node : Node) : Option Node :=
  let fields := lineFields buf
  if fields.length < panmasterNodeNumFields then none
  else some (node.store longMax fun i => fields.getD i [])

/-- The line at the start of what was read: a buffer that is full gives up its last byte to the
    terminator, and the line ends at the first newline or terminator. -/
def bufferLine (blen : Nat) (buf : List UInt8) : List UInt8 :=
  (if buf.length = blen then buf.take (blen - 1) else buf).takeWhile fun c => c != newline && c != 0

/-- C `panm_getnext_line`: the line, and the offset of the next one; 0 at the end. -/
def panmGetnextLine (content : List UInt8) (blen loc : Nat) : List UInt8 × Nat :=
  if (content.drop loc).take blen = [] then ([], 0)
  else
    let line := bufferLine blen ((content.drop loc).take blen)
    (line, (loc + (line.length + 1)) % 2 ^ 32)

/-- The loop of `panm_file_load`, `n` rounds at most: the lines it parses; `none` when it goes on. -/
def loadLines (content : List UInt8) : Nat → Nat → Option (List (List UInt8))
  | 0, _ => none
  | n + 1, loc =>
    let (line, loc) := panmGetnextLine content lineBufLen loc
    if loc = 0 then some [] else (loadLines content n loc).map (line :: ·)

/-- A line is parsed into `tmpnode`, and the callback is called with it. -/
def parseLine (longMax : Nat) (acc : Node × List Node) (line : List UInt8) : Node × List Node :=
  match panmLineParse longMax line acc.1 with
  | none => acc
  | some node => (node, acc.2 ++ [node])

/-- The lines of a file, in as many rounds as it has bytes and one more. -/
def fileLines (content : List UInt8) : List (List UInt8) :=
  (loadLines content (content.length + 1) 0).getD []

/-- C `panm_file_load`: the records its callback is called with; `tmpnode` is not initialised. -/
def panmFileLoad (longMax : Nat) (tmpnode : Node) (content : List UInt8) : List Node :=
  ((fileLines content).foldl (parseLine longMax) (tmpnode, [])).2

/-- C `node_idx_load_cb` of the file back end. -/
def fileIdxLoadCb (cfg : Syscfg) (nodes : Table NodeIdx) (node : Node) : Table NodeIdx :=
  if node.index ≤ cfg.maxnumNodes ∧ node.addr ≠ 0xffff then
    nodes.modify node.index fun e => { e with addr := node.addr }
  else nodes

/-- C `panm_file_load_idx`. -/
def panmFileLoadIdx (cfg : Syscfg) (longMax : Nat) (tmpnode : Node) (content : List UInt8)
    (nodes : Table NodeIdx) : Table NodeIdx :=
  (panmFileLoad longMax tmpnode content).foldl (fileIdxLoadCb cfg) nodes

/-! ## The loop ends -/

/-- A line in the buffer is no longer than it was. -/
lemma bufferLine_length_le (blen : Nat) (buf : List UInt8) :
    (bufferLine blen buf).length ≤ buf.length := by
  unfold bufferLine
  split
  case isTrue => exact (List.takeWhile_sublist _).length_le.trans (List.length_take_le' _ _)
  case isFalse => exact (List.takeWhile_sublist _).length_le

/-- A line that is read moves the offset on, within the file. -/
lemma panmGetnextLine_loc {content : List UInt8} (hsize : content.length < 2 ^ 32) {blen loc : Nat}
    (h0 : (panmGetnextLine content blen loc).2 ≠ 0) :
    loc < (panmGetnextLine content blen loc).2 ∧ loc < content.length := by
  unfold panmGetnextLine at h0 ⊢
  split at h0
  case isTrue => exact absurd rfl h0
  case isFalse hne =>
    have hloc : loc < content.length := by
      by_contra hge
      rw [List.drop_eq_nil_of_le (Nat.le_of_not_lt hge), List.take_nil] at hne
      exact hne rfl
    have hline := bufferLine_length_le blen ((content.drop loc).take blen)
    have htake : ((content.drop loc).take blen).length ≤ content.length - loc := by
      rw [List.length_take, List.length_drop]
      exact min_le_right _ _
    rw [if_neg hne]
    dsimp only at h0 ⊢
    omega

/-- Within as many rounds as there are bytes behind the offset, and one more, the loop ends. -/
lemma loadLines_ends {content : List UInt8} (hsize : content.length < 2 ^ 32) (n loc : Nat)
    (hn : content.length - loc < n) : (loadLines content n loc).isSome = true := by
  induction n generalizing loc with
  | zero => exact absurd hn (Nat.not_lt_zero _)
  | succ n ih =>
    rw [loadLines]
    dsimp only
    split
    case isTrue => rfl
    case isFalse h0 =>
      obtain ⟨hlt, hin⟩ := panmGetnextLine_loc hsize h0
      rw [Option.isSome_map]
      exact ih _ (by omega)

end UwbCore.Panmaster
