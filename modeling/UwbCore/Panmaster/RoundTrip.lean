import UwbCore.Panmaster.File

/-!
# Records through the file

What `panm_file_save` writes, `panm_file_load` reads back line by line and field by field. The numbers
are printed without a sign and read with one, so those from 2^63 on, and negative times, come back as the
largest `long long`. The array of a line has room for twelve fields and is filled with as many as the
line has. `fileStore_iff` says which records come back and which contents stay within the array.
-/

namespace UwbCore.Panmaster
open UwbCore.Lib

/-- The widths of the fields. -/
structure Node.Sized (n : Node) : Prop where
  firstSeenUtc : -2 ^ 63 ≤ n.firstSeenUtc ∧ n.firstSeenUtc < 2 ^ 63
  euid : n.euid < 2 ^ 64
  addr : n.addr < 2 ^ 16
  role : n.role < 2 ^ 4
  index : n.index < 2 ^ 8
  ivMajor : n.fwVer.ivMajor < 2 ^ 8
  ivMinor : n.fwVer.ivMinor < 2 ^ 8
  ivRevision : n.fwVer.ivRevision < 2 ^ 16
  ivBuildNum : n.fwVer.ivBuildNum < 2 ^ 32

/-- The numbers of the record lie within the limits of the types they are read as. -/
def Node.Readable (longMax : Nat) (n : Node) : Prop :=
  0 ≤ n.firstSeenUtc ∧ n.euid < 2 ^ 63 ∧ n.fwVer.ivBuildNum ≤ longMax

instance decidableReadable (longMax : Nat) (n : Node) : Decidable (n.Readable longMax) :=
  inferInstanceAs (Decidable (_ ∧ _ ∧ _))

/-- The fields that are written: all but the slot. -/
def Node.written (n : Node) : Node := { n with slotId := 0 }

/-- The file after the records were saved, one after another, into an empty one. -/
def savedFile (recs : List Node) : List UInt8 := recs.foldl panmFileSave []

/-- The callback is called with the records that were saved, in their order. -/
def RoundTrips (longMax : Nat) (tmpnode : Node) (recs : List Node) : Prop :=
  (panmFileLoad longMax tmpnode (savedFile recs)).map Node.written = recs.map Node.written

/-- No line makes the parser store more pointers than the array holds. -/
def FieldsBounded (content : List UInt8) : Prop :=
  ∀ line ∈ fileLines content, (lineFields line).length ≤ fieldsLen

/-- The parts of a line between separators that are not empty. -/
def parts (line : List UInt8) : List (List UInt8) :=
  (line.splitOnP (· == fieldSeparator)).filter fun part => !part.isEmpty

/-! ## Fields of a line -/

/-- A separator in front makes no part. -/
lemma parts_cons_separator (s : List UInt8) : parts (fieldSeparator :: s) = parts s := by
  rw [parts, List.splitOnP_cons_eq_if_modifyHead, if_pos (by decide)]
  rfl

/-- A field and its separator come first. -/
lemma parts_append {field : List UInt8} (hne : field ≠ []) (h : ∀ c ∈ field, c ≠ fieldSeparator)
    (s : List UInt8) : parts (field ++ fieldSeparator :: s) = field :: parts s := by
  have hsep : ∀ c ∈ field, (c == fieldSeparator) = false := fun c hc =>
    beq_eq_false_iff_ne.mpr (h c hc)
  rw [parts, List.splitOnP_append_cons_of_forall_mem hsep fieldSeparator (by decide),
    List.filter_cons_of_pos (by simpa using hne)]
  rfl

/-- A field without separators is one part. -/
lemma parts_single {field : List UInt8} (hne : field ≠ []) (h : ∀ c ∈ field, c ≠ fieldSeparator) :
    parts field = [field] := by
  have hsep : ∀ c ∈ field, (c == fieldSeparator) = false := fun c hc =>
    beq_eq_false_iff_ne.mpr (h c hc)
  rw [parts, List.splitOnP_eq_singleton hsep, List.filter_cons_of_pos (by simpa using hne)]
  rfl

/-- Separators in front are of no matter. -/
lemma parts_dropWhile (s : List UInt8) : parts (s.dropWhile (· == fieldSeparator)) = parts s := by
  induction s with
  | nil => rfl
  | cons c s ih =>
    by_cases hc : c = fieldSeparator
    case pos =>
      subst hc
      rw [List.dropWhile_cons_of_pos (by decide), ih, parts_cons_separator]
    case neg => rw [List.dropWhile_cons_of_neg (by simpa using hc)]

/-- The loop of `panm_line_parse` stores the parts of the line. -/
lemma storedFields_eq {n : Nat} {s : List UInt8} (hn : s.length < n) : storedFields n s = parts s := by
  induction n generalizing s with
  | zero => exact absurd hn (Nat.not_lt_zero _)
  | succ n ih =>
    have hlen : (s.dropWhile (· == fieldSeparator)).length ≤ s.length :=
      (List.dropWhile_sublist _).length_le
    rw [storedFields, strtok, ← parts_dropWhile s]
    cases hs : s.dropWhile (· == fieldSeparator) with
    | nil => rfl
    | cons c rest =>
      have hc : c ≠ fieldSeparator := by
        have hne : s.dropWhile (· == fieldSeparator) ≠ [] := by
          rw [hs]
          exact List.cons_ne_nil c rest
        simpa [hs] using List.head_dropWhile_not (· == fieldSeparator) hne
      rw [hs, List.length_cons] at hlen
      dsimp only
      have htok : ∀ d ∈ c :: rest.takeWhile (· != fieldSeparator), d ≠ fieldSeparator := by
        intro d hd
        rcases List.mem_cons.mp hd with rfl | hd
        · exact hc
        · simpa using List.mem_takeWhile_imp hd
      have hsplit := List.takeWhile_append_dropWhile (p := (· != fieldSeparator)) (l := rest)
      have hrest : (rest.dropWhile (· != fieldSeparator)).tail.length < n := by
        have := (List.dropWhile_sublist (· != fieldSeparator) (l := rest)).length_le
        rw [List.length_tail]
        omega
      rw [ih hrest]
      cases hd : rest.dropWhile (· != fieldSeparator) with
      | nil =>
        rw [hd, List.append_nil] at hsplit
        rw [hsplit] at htok ⊢
        rw [parts_single (List.cons_ne_nil c rest) htok]
        rfl
      | cons d tail =>
        have hdsep : d = fieldSeparator := by
          have hne : rest.dropWhile (· != fieldSeparator) ≠ [] := by
            rw [hd]
            exact List.cons_ne_nil d tail
          simpa [hd] using List.head_dropWhile_not (· != fieldSeparator) hne
        rw [hd, hdsep] at hsplit
        rw [← hsplit, ← List.cons_append, parts_append (List.cons_ne_nil _ _) ?_]
        · rw [hsplit]
          rfl
        · exact htok

/-- The fields of a line are its parts. -/
lemma lineFields_eq (line : List UInt8) : lineFields line = parts line :=
  storedFields_eq (Nat.lt_succ_self _)

/-! ## Lines of a file -/

/-- The text of a list of numbers. -/
def fieldsText (vs : List Nat) : List UInt8 :=
  vs.flatMap fun v => Hex.digits 16 v ++ [fieldSeparator]

/-- The line of a record. -/
def Node.line (n : Node) : List UInt8 := fieldsText n.printed

/-- The first field and the others. -/
lemma fieldsText_cons (v : Nat) (vs : List Nat) :
    fieldsText (v :: vs) = Hex.digits 16 v ++ fieldSeparator :: fieldsText vs := by
  rw [fieldsText, List.flatMap_cons, List.append_assoc]
  rfl

/-- Printing succeeds as long as the text fits. -/
lemma foldlM_printField {dlen : Nat} (vs : List Nat) (dst : List UInt8)
    (h : dst.length + (fieldsText vs).length ≤ dlen) :
    vs.foldlM (printField dlen) dst = some (dst ++ fieldsText vs) := by
  induction vs generalizing dst with
  | nil => exact congrArg some (List.append_nil dst).symm
  | cons v vs ih =>
    rw [fieldsText_cons, List.length_append, List.length_cons] at h
    have hfits : ¬dlen < (dst ++ (Hex.digits 16 v ++ [fieldSeparator])).length := by
      rw [List.length_append, List.length_append, List.length_singleton]
      omega
    rw [List.foldlM_cons, printField, if_neg hfits]
    show vs.foldlM (printField dlen) _ = _
    rw [ih _ (by
      rw [List.length_append, List.length_append, List.length_singleton]
      omega), fieldsText_cons, List.append_assoc, List.append_assoc]
    rfl

/-- Fields have no line end and no NUL. -/
lemma fieldsText_ne {vs : List Nat} {c : UInt8} (h : c ∈ fieldsText vs) : c ≠ newline ∧ c ≠ 0 := by
  obtain ⟨v, -, hc⟩ := List.mem_flatMap.mp h
  rcases List.mem_append.mp hc with hc | hc
  · have hd := Hex.isDigit_of_mem hc
    constructor
    · rintro rfl
      exact absurd hd (by decide)
    · rintro rfl
      exact absurd hd (by decide)
  · rw [List.mem_singleton.mp hc]
    decide

/-- The length of the fields. -/
lemma fieldsText_length_le {vs ks : List Nat}
    (h : List.Forall₂ (fun v k => 0 < k ∧ v < 16 ^ k) vs ks) :
    (fieldsText vs).length ≤ (ks.map (· + 1)).sum := by
  induction h with
  | nil => exact le_rfl
  | @cons v k vs ks hv _ ih =>
    have hd := Hex.digits_length_le hv.1 16 hv.2
    rw [fieldsText_cons, List.length_append, List.length_cons, List.map_cons, List.sum_cons]
    omega

/-- The flags fit. -/
lemma Node.Sized.flags_lt {n : Node} (h : n.Sized) : n.flags < 2 ^ 16 := by
  have hd := n.dummy.isLt
  have hp := n.hasPermSlot.toNat_le
  have hr := h.role
  unfold Node.flags
  omega

/-- A line is shorter than half the buffer. -/
lemma Node.Sized.line_length_le {n : Node} (h : n.Sized) : n.line.length ≤ 69 := by
  have hutc : (n.firstSeenUtc % 2 ^ 64).toNat < 16 ^ 16 := by omega
  have hsum : (List.map (· + 1) [2, 16, 16, 4, 4, 1, 2, 2, 4, 8]).sum = 69 := by decide
  rw [Node.line, ← hsum]
  apply fieldsText_length_le
  exact .cons ⟨by decide, h.index⟩ <| .cons ⟨by decide, hutc⟩ <| .cons ⟨by decide, h.euid⟩ <|
    .cons ⟨by decide, h.addr⟩ <| .cons ⟨by decide, h.flags_lt⟩ <| .cons ⟨by decide, h.role⟩ <|
    .cons ⟨by decide, h.ivMajor⟩ <| .cons ⟨by decide, h.ivMinor⟩ <|
    .cons ⟨by decide, h.ivRevision⟩ <| .cons ⟨by decide, h.ivBuildNum⟩ .nil

/-- A save appends the line of the record. -/
lemma Node.Sized.save {n : Node} (h : n.Sized) (content : List UInt8) :
    panmFileSave content n = content ++ (n.line ++ [newline]) := by
  have hlen := h.line_length_le
  have hbuf : lineBufLen = 143 := rfl
  have hfits : ([] : List UInt8).length + (fieldsText n.printed).length ≤ lineBufLen := by
    rw [Node.line] at hlen
    rw [List.length_nil]
    omega
  have hmake : panmLineMake lineBufLen n = some n.line := by
    rw [panmLineMake, foldlM_printField n.printed [] hfits, List.nil_append, Node.line]
  rw [panmFileSave, hmake]
  exact if_neg (by omega)

/-- The lines of a list of records. -/
def linesText (recs : List Node) : List UInt8 := recs.flatMap fun n => n.line ++ [newline]

/-- The first line and the others. -/
lemma linesText_cons (n : Node) (recs : List Node) :
    linesText (n :: recs) = n.line ++ newline :: linesText recs := by
  rw [linesText, List.flatMap_cons, List.append_assoc]
  rfl

/-- The file is the text of its lines. -/
lemma savedFile_eq {recs : List Node} (h : ∀ n ∈ recs, n.Sized) : savedFile recs = linesText recs := by
  have hall : ∀ content, recs.foldl panmFileSave content = content ++ linesText recs := by
    induction recs with
    | nil => exact fun content => (List.append_nil content).symm
    | cons n recs ih =>
      intro content
      rw [List.foldl_cons, ih fun m hm => h m (List.mem_cons_of_mem n hm),
        (h n List.mem_cons_self).save, List.append_assoc, linesText_cons, List.append_assoc]
      rfl
  exact hall []

/-- A line has at most 70 bytes. -/
lemma savedFile_length_le {recs : List Node} (h : ∀ n ∈ recs, n.Sized) :
    (savedFile recs).length ≤ 70 * recs.length := by
  rw [savedFile_eq h]
  induction recs with
  | nil => exact le_rfl
  | cons n recs ih =>
    have hn := (h n List.mem_cons_self).line_length_le
    have hrecs := ih fun m hm => h m (List.mem_cons_of_mem n hm)
    rw [linesText_cons, List.length_append, List.length_cons, List.length_cons]
    omega

/-- A line that ends in the buffer is taken out of it. -/
lemma bufferLine_eq {blen : Nat} {line rest : List UInt8} (hlen : line.length + 1 < blen)
    (h : ∀ c ∈ line, c ≠ newline ∧ c ≠ 0) :
    bufferLine blen ((line ++ newline :: rest).take blen) = line := by
  have hstop : ∀ tail : List UInt8,
      (line ++ newline :: tail).takeWhile (fun c => c != newline && c != 0) = line := by
    intro tail
    rw [List.takeWhile_append_of_pos fun c hc => by simpa using h c hc,
      List.takeWhile_cons_of_neg (by decide), List.append_nil]
  have htake : ∀ k, line.length + 1 ≤ k →
      (line ++ newline :: rest).take k = line ++ newline :: rest.take (k - line.length - 1) := by
    intro k hk
    rw [List.take_append, List.take_of_length_le (by omega)]
    obtain ⟨m, hm⟩ : ∃ m, k - line.length = m + 1 := ⟨k - line.length - 1, by omega⟩
    rw [hm, List.take_succ_cons]
    rfl
  unfold bufferLine
  split
  case isTrue =>
    rw [List.take_take, min_eq_left (by omega), htake _ (by omega)]
    exact hstop _
  case isFalse =>
    rw [htake _ (by omega)]
    exact hstop _

/-- The lines of the records are read, one after another. -/
lemma loadLines_linesText {recs : List Node} (hrecs : ∀ n ∈ recs, n.Sized) {content : List UInt8}
    (hsize : content.length < 2 ^ 32) {n loc : Nat} (hn : recs.length < n)
    (hdrop : content.drop loc = linesText recs) :
    loadLines content n loc = some (recs.map Node.line) := by
  induction recs generalizing n loc with
  | nil =>
    obtain ⟨n, rfl⟩ : ∃ m, n = m + 1 := ⟨n - 1, by omega⟩
    have hnil : (content.drop loc).take lineBufLen = [] := by
      rw [hdrop]
      rfl
    rw [loadLines, panmGetnextLine, if_pos hnil]
    rfl
  | cons r recs ih =>
    obtain ⟨n, rfl⟩ : ∃ m, n = m + 1 := ⟨n - 1, by omega⟩
    have hlen := (hrecs r List.mem_cons_self).line_length_le
    have hbuf : lineBufLen = 143 := rfl
    rw [linesText_cons] at hdrop
    have hin : loc + (r.line.length + 1) ≤ content.length := by
      have := congrArg List.length hdrop
      rw [List.length_drop, List.length_append, List.length_cons] at this
      omega
    have hne : (content.drop loc).take lineBufLen ≠ [] := by
      rw [hdrop, hbuf]
      cases r.line with
      | nil => exact List.cons_ne_nil _ _
      | cons c line => exact List.cons_ne_nil _ _
    have hline : bufferLine lineBufLen ((content.drop loc).take lineBufLen) = r.line := by
      rw [hdrop]
      exact bufferLine_eq (by omega) fun c hc => fieldsText_ne hc
    have hloc : (loc + (r.line.length + 1)) % 2 ^ 32 = loc + (r.line.length + 1) :=
      Nat.mod_eq_of_lt (by omega)
    have hnext : content.drop (loc + (r.line.length + 1)) = linesText recs := by
      rw [← List.drop_drop, hdrop, List.drop_append, List.drop_eq_nil_of_le (by omega),
        Nat.add_sub_cancel_left]
      rfl
    rw [loadLines, panmGetnextLine, if_neg hne]
    dsimp only
    rw [hline, hloc, if_neg (by omega),
      ih (fun m hm => hrecs m (List.mem_cons_of_mem r hm)) (by simpa using hn) hnext]
    rfl

/-- The lines of a file are those of its records. -/
lemma fileLines_savedFile {recs : List Node} (hrecs : ∀ n ∈ recs, n.Sized)
    (hsize : (savedFile recs).length < 2 ^ 32) :
    fileLines (savedFile recs) = recs.map Node.line := by
  have hlen : ∀ l : List Node, l.length ≤ (linesText l).length := by
    intro l
    induction l with
    | nil => exact le_rfl
    | cons n l ih =>
      rw [linesText_cons, List.length_append, List.length_cons, List.length_cons]
      omega
  have hsaved := savedFile_eq hrecs
  have hrounds : recs.length < (savedFile recs).length + 1 := by
    rw [hsaved]
    exact Nat.lt_succ_of_le (hlen recs)
  have hdrop : (savedFile recs).drop 0 = linesText recs := hsaved
  rw [fileLines, loadLines_linesText hrecs hsize hrounds hdrop]
  rfl

/-! ## Numbers of a line -/

/-- What is read back of a record; the slot is the one that `tmpnode` holds. -/
def Node.readBack (longMax slotId : Nat) (n : Node) : Node :=
  { n with
    firstSeenUtc := (min (n.firstSeenUtc % 2 ^ 64).toNat longLongMax : Nat)
    euid := min n.euid longLongMax
    fwVer := { n.fwVer with ivBuildNum := min n.fwVer.ivBuildNum longMax }
    slotId := slotId }

/-- The fields of the line of a node. -/
lemma lineFields_line (n : Node) : lineFields n.line = n.printed.map (Hex.digits 16) := by
  have hall : ∀ vs : List Nat, parts (fieldsText vs) = vs.map (Hex.digits 16) := by
    intro vs
    induction vs with
    | nil => rfl
    | cons v vs ih =>
      have hne := Hex.digits_ne_nil (show 0 < 16 by decide) v
      have hsep : ∀ c ∈ Hex.digits 16 v, c ≠ fieldSeparator := by
        rintro c hc rfl
        exact absurd (Hex.isDigit_of_mem hc) (by decide)
      rw [fieldsText_cons, parts_append hne hsep, ih, List.map_cons]
  rw [lineFields_eq, Node.line, hall]

/-- A number within the limit and the width is read as it is. -/
lemma wrap_strtol {max bits v : Nat} (hmax : v ≤ max) (hv : v < 2 ^ bits) (hbits : bits ≤ 64) :
    wrap bits (Hex.strtol max (Hex.digits 16 v)) = v := by
  have hpow : 2 ^ bits ≤ 2 ^ 64 := Nat.pow_le_pow_right (by decide) hbits
  have h16 : v < 16 ^ 16 := by
    have : (2 : Nat) ^ 64 = 16 ^ 16 := by decide
    omega
  have hcast : ((v : Int) % 2 ^ bits) = ((v % 2 ^ bits : Nat) : Int) := by push_cast; rfl
  rw [Hex.strtol_digits max h16 (by decide), min_eq_left hmax, wrap, hcast, Int.toNat_natCast,
    Nat.mod_eq_of_lt hv]

/-- A line is parsed into the record that is read back. -/
lemma Node.Sized.parse {longMax : Nat} (hlong : 2 ^ 31 - 1 ≤ longMax) {n : Node} (h : n.Sized)
    (tmpnode : Node) :
    panmLineParse longMax n.line tmpnode = some (n.readBack longMax tmpnode.slotId) := by
  obtain ⟨hutc, heuid, haddr, hrole, hindex, hmajor, hminor, hrevision, hbuild⟩ := h
  have hflags := Sized.flags_lt ⟨hutc, heuid, haddr, hrole, hindex, hmajor, hminor, hrevision, hbuild⟩
  have hll : longLongMax = 2 ^ 63 - 1 := rfl
  have hd := n.dummy.isLt
  have hp := n.hasPermSlot.toNat_le
  have rindex : wrap 8 (Hex.strtol longLongMax (Hex.digits 16 n.index)) = n.index :=
    wrap_strtol (by omega) hindex (by decide)
  have rutc : Hex.strtol longLongMax (Hex.digits 16 (n.firstSeenUtc % 2 ^ 64).toNat) =
      (min (n.firstSeenUtc % 2 ^ 64).toNat longLongMax : Nat) :=
    Hex.strtol_digits longLongMax (by omega) (by decide)
  have reuid : wrap 64 (Hex.strtol longLongMax (Hex.digits 16 n.euid)) = min n.euid longLongMax := by
    rw [Hex.strtol_digits longLongMax (by omega) (by decide), wrap]
    omega
  have raddr : wrap 16 (Hex.strtol longMax (Hex.digits 16 n.addr)) = n.addr :=
    wrap_strtol (by omega) haddr (by decide)
  have rflags : wrap 16 (Hex.strtol longMax (Hex.digits 16 n.flags)) = n.flags :=
    wrap_strtol (by omega) hflags (by decide)
  have rrole : wrap 4 (Hex.strtol longMax (Hex.digits 16 n.role)) = n.role :=
    wrap_strtol (by omega) hrole (by decide)
  have rmajor : wrap 8 (Hex.strtol longMax (Hex.digits 16 n.fwVer.ivMajor)) = n.fwVer.ivMajor :=
    wrap_strtol (by omega) hmajor (by decide)
  have rminor : wrap 8 (Hex.strtol longMax (Hex.digits 16 n.fwVer.ivMinor)) = n.fwVer.ivMinor :=
    wrap_strtol (by omega) hminor (by decide)
  have rrevision : wrap 16 (Hex.strtol longMax (Hex.digits 16 n.fwVer.ivRevision)) =
      n.fwVer.ivRevision := wrap_strtol (by omega) hrevision (by decide)
  have rbuild : wrap 32 (Hex.strtol longMax (Hex.digits 16 n.fwVer.ivBuildNum)) =
      min n.fwVer.ivBuildNum longMax := by
    rw [Hex.strtol_digits longMax (by omega) (by decide), wrap]
    omega
  -- the flags are read first, the role over them
  have rdummy : (⟨n.flags % 2 ^ 11, dummy_lt n.flags⟩ : Fin (2 ^ 11)) = n.dummy := by
    refine Fin.ext ?_
    show n.flags % 2 ^ 11 = n.dummy.val
    unfold Node.flags
    omega
  have rperm : (n.flags / 2 ^ 11 % 2 == 1) = n.hasPermSlot := by
    have hbit : n.flags / 2 ^ 11 % 2 = n.hasPermSlot.toNat := by
      unfold Node.flags
      omega
    rw [hbit]
    cases n.hasPermSlot <;> rfl
  unfold panmLineParse
  rw [lineFields_line, if_neg (by simp [Node.printed, panmasterNodeNumFields])]
  simp only [Node.store, Node.printed, List.map_cons, List.map_nil, List.getD_cons_zero, List.getD_cons_succ,
    rindex, rutc, reuid, raddr, rflags, rrole, rmajor, rminor, rrevision, rbuild, rdummy, rperm]
  rfl

/-- The lines of the records are parsed one after another. -/
lemma foldl_parseLine {longMax : Nat} (hlong : 2 ^ 31 - 1 ≤ longMax) {recs : List Node}
    (h : ∀ n ∈ recs, n.Sized) (tmpnode : Node) (out : List Node) :
    ((recs.map Node.line).foldl (parseLine longMax) (tmpnode, out)).2 =
      out ++ recs.map (Node.readBack longMax tmpnode.slotId) := by
  induction recs generalizing tmpnode out with
  | nil => exact (List.append_nil out).symm
  | cons n recs ih =>
    have hparse : parseLine longMax (tmpnode, out) n.line =
        (n.readBack longMax tmpnode.slotId, out ++ [n.readBack longMax tmpnode.slotId]) := by
      rw [parseLine, (h n List.mem_cons_self).parse hlong]
    rw [List.map_cons, List.foldl_cons, hparse, ih fun m hm => h m (List.mem_cons_of_mem n hm),
      List.append_assoc, List.map_cons]
    rfl

/-- What a load calls back with after the records were saved. -/
lemma panmFileLoad_savedFile {longMax : Nat} (hlong : 2 ^ 31 - 1 ≤ longMax) {recs : List Node}
    (h : ∀ n ∈ recs, n.Sized) (hsize : (savedFile recs).length < 2 ^ 32) (tmpnode : Node) :
    panmFileLoad longMax tmpnode (savedFile recs) =
      recs.map (Node.readBack longMax tmpnode.slotId) := by
  rw [panmFileLoad, fileLines_savedFile h hsize, foldl_parseLine hlong h]
  rfl

/-- A record comes back exactly when its numbers can be read. -/
lemma Node.Sized.readBack_iff {n : Node} (h : n.Sized) (longMax slotId : Nat) :
    (n.readBack longMax slotId).written = n.written ↔ n.Readable longMax := by
  have hll : longLongMax = 2 ^ 63 - 1 := rfl
  obtain ⟨hlow, hhigh⟩ := h.firstSeenUtc
  have heuid := h.euid
  have hbuild := h.ivBuildNum
  obtain ⟨firstSeenUtc, euid, addr, dummy, hasPermSlot, role, index, slot, major, minor, revision,
    build⟩ := n
  simp only [Node.readBack, Node.written, Node.Readable, Node.mk.injEq, ImageVersion.mk.injEq,
    true_and] at hlow hhigh heuid hbuild ⊢
  omega

/-! ## The file store -/

/-- Records come back exactly when their numbers can be read. -/
lemma roundTrips_iff {longMax : Nat} (hlong : 2 ^ 31 - 1 ≤ longMax) (tmpnode : Node)
    {recs : List Node} (hrecs : ∀ n ∈ recs, n.Sized) (hsaved : (savedFile recs).length < 2 ^ 32) :
    RoundTrips longMax tmpnode recs ↔ ∀ n ∈ recs, n.Readable longMax := by
  rw [RoundTrips, panmFileLoad_savedFile hlong hrecs hsaved, List.map_map, List.map_inj_left]
  exact forall₂_congr fun n hn => (hrecs n hn).readBack_iff longMax tmpnode.slotId

/-- The bound on the fields, in parts. -/
lemma fieldsBounded_iff {content : List UInt8} :
    FieldsBounded content ↔ ∀ line ∈ fileLines content, (parts line).length ≤ fieldsLen := by
  unfold FieldsBounded
  simp only [lineFields_eq]

/-- The records that were saved come back exactly when their numbers can be read; the parser stays
    within its array exactly when no line has more fields; and the loop of a load always ends. -/
theorem fileStore_iff {longMax : Nat} (hlong : 2 ^ 31 - 1 ≤ longMax) (tmpnode : Node)
    {recs : List Node} (hrecs : ∀ n ∈ recs, n.Sized) (hsaved : (savedFile recs).length < 2 ^ 32)
    {content : List UInt8} (hsize : content.length < 2 ^ 32) :
    (RoundTrips longMax tmpnode recs ↔ ∀ n ∈ recs, n.Readable longMax) ∧
      (FieldsBounded content ↔ ∀ line ∈ fileLines content, (parts line).length ≤ fieldsLen) ∧
      (loadLines content (content.length + 1) 0).isSome = true :=
  ⟨roundTrips_iff hlong tmpnode hrecs hsaved, fieldsBounded_iff,
    loadLines_ends hsize _ 0 (Nat.lt_succ_of_le (Nat.sub_le _ _))⟩

/-- A record of an ordinary node. -/
def ordinaryNode : Node where
  firstSeenUtc := 1700000000
  euid := 0x0A0B0C0D0E0F1011
  addr := 0x1234
  dummy := Node.zero.dummy
  hasPermSlot := true
  role := 2
  index := 3
  slotId := 7
  fwVer := ⟨1, 2, 3, 4⟩

/-- The node of the example fits. -/
lemma ordinaryNode_sized : ordinaryNode.Sized := by
  constructor <;> decide

/-- Two nodes. -/
theorem fileStore_ordinary :
    RoundTrips (2 ^ 31 - 1) .zero [ordinaryNode, { ordinaryNode with addr := 0xffff }] := by
  have hsized : ∀ n ∈ [ordinaryNode, { ordinaryNode with addr := 0xffff }], n.Sized := by
    intro n hn
    rcases List.mem_cons.mp hn with rfl | hn
    · exact ordinaryNode_sized
    · rw [List.mem_singleton.mp hn]
      constructor <;> decide
  have hsaved := (savedFile_length_le hsized).trans_lt (show 70 * 2 < 2 ^ 32 by decide)
  have hfile := fileStore_iff le_rfl .zero hsized hsaved
    (show ([] : List UInt8).length < 2 ^ 32 by decide)
  exact hfile.1.mpr (by decide)

/-- A node with the highest bit of its euid set, and a line of thirteen fields. -/
theorem fileStore_fails :
    (¬ ∀ recs : List Node, (∀ n ∈ recs, n.Sized) → RoundTrips (2 ^ 31 - 1) .zero recs) ∧
      ¬ ∀ content : List UInt8, content.length < 2 ^ 32 → FieldsBounded content := by
  constructor
  · intro h
    have hsized : ∀ n ∈ [{ ordinaryNode with euid := 2 ^ 63 }], n.Sized := by
      intro n hn
      rw [List.mem_singleton.mp hn]
      constructor <;> decide
    have hsaved := (savedFile_length_le hsized).trans_lt (show 70 * 1 < 2 ^ 32 by decide)
    have hread := (roundTrips_iff le_rfl .zero hsized hsaved).mp (h _ hsized)
    exact absurd hread (by decide)
  · intro h
    have hline := h (List.replicate 13 [0x31, 0x2C]).flatten (by decide)
    revert hline
    unfold FieldsBounded
    decide +kernel

end UwbCore.Panmaster
