/-
Theory.Tar -- the GNU tar format

A member is a header block and its content in whole blocks; a name that does not
fit the header goes before it, in a record of its own.  `read` parses what `write`
lays out, block by block: `readFrom_member` for one member, `read_write` for an
archive.
-/
import Mathlib.Tactic
import TypstMcp.Theory.FileTree

namespace TypstMcp.Theory.Tar

set_option autoImplicit false

/-! ## Fixed-width numbers -/

/-- The last `w` digits of `n` in base `b`, most significant first. -/
def beDigits (b : Nat) : Nat → Nat → List Nat
  | 0, _ => []
  | w + 1, n => beDigits b w (n / b) ++ [n % b]

def ofDigits (b : Nat) (digits : List Nat) : Nat := digits.foldl (fun acc d => acc * b + d) 0

@[simp] theorem beDigits_length (b w n : Nat) : (beDigits b w n).length = w := by
  induction w generalizing n with
  | zero => rfl
  | succ w ih => simp [beDigits, ih]

theorem beDigits_lt {b w n d : Nat} (base : 0 < b) (inside : d ∈ beDigits b w n) : d < b := by
  induction w generalizing n with
  | zero => cases inside
  | succ w ih =>
      rw [beDigits, List.mem_append, List.mem_singleton] at inside
      rcases inside with inside | rfl
      · exact ih inside
      · exact Nat.mod_lt n base

theorem ofDigits_beDigits {b w n : Nat} (fits : n < b ^ w) : ofDigits b (beDigits b w n) = n := by
  induction w generalizing n with
  | zero => simp at fits; subst fits; rfl
  | succ w ih =>
      have high : n / b < b ^ w := Nat.div_lt_of_lt_mul (by rwa [pow_succ'] at fits)
      have := ih high
      unfold ofDigits at this ⊢
      rw [beDigits, List.foldl_append, this]
      exact Nat.div_add_mod' n b

/-! ## Header fields -/

def digitByte (d : Nat) : UInt8 := UInt8.ofNat (48 + d)

/-- An octal number, zero-padded, and its terminator. -/
def octalField (w n : Nat) : Bytes := (beDigits 8 w n).map digitByte ++ [0]

def readOctal (field : Bytes) : Nat :=
  ofDigits 8 ((field.takeWhile (· ≠ 0)).map fun byte => byte.toNat - 48)

/-- A size is octal while eleven digits hold it, and binary behind a marker otherwise. -/
def sizeField (n : Nat) : Bytes :=
  if n < 8 ^ 11 then octalField 11 n else 0x80 :: (beDigits 256 11 n).map UInt8.ofNat

def readSize : Bytes → Nat
  | [] => 0
  | first :: rest =>
      if 0x80 ≤ first then ofDigits 256 (rest.map UInt8.toNat) else readOctal (first :: rest)

theorem digitByte_facts : ∀ d, d < 8 →
    digitByte d ≠ 0 ∧ (digitByte d).toNat - 48 = d ∧ ¬ 0x80 ≤ digitByte d := by
  decide

theorem readOctal_octalField {w n : Nat} (fits : n < 8 ^ w) : readOctal (octalField w n) = n := by
  have digits : ∀ d ∈ beDigits 8 w n, d < 8 := fun d inside => beDigits_lt (by decide) inside
  have taken : (octalField w n).takeWhile (· ≠ 0) = (beDigits 8 w n).map digitByte := by
    unfold octalField
    rw [List.takeWhile_append_of_pos]
    · simp
    · intro byte inside
      obtain ⟨d, written, rfl⟩ := List.mem_map.1 inside
      simpa using (digitByte_facts d (digits d written)).1
  have same : (beDigits 8 w n).map ((fun byte => byte.toNat - 48) ∘ digitByte) =
      beDigits 8 w n := by
    conv_rhs => rw [← List.map_id (beDigits 8 w n)]
    exact List.map_congr_left fun d inside => (digitByte_facts d (digits d inside)).2.1
  rw [readOctal, taken, List.map_map, same, ofDigits_beDigits fits]

@[simp] theorem octalField_length (w n : Nat) : (octalField w n).length = w + 1 := by
  simp [octalField]

@[simp] theorem sizeField_length (n : Nat) : (sizeField n).length = 12 := by
  unfold sizeField
  split_ifs <;> simp

theorem readSize_sizeField {n : Nat} (fits : n < 256 ^ 11) : readSize (sizeField n) = n := by
  unfold sizeField
  split_ifs with small
  · obtain ⟨d, rest, digits⟩ : ∃ d rest, beDigits 8 11 n = d :: rest :=
      List.exists_cons_of_ne_nil (by intro none; simpa using congrArg List.length none)
    have octal := readOctal_octalField (w := 11) small
    have first : d < 8 := beDigits_lt (by decide) (digits ▸ List.mem_cons_self)
    unfold octalField at octal ⊢
    rw [digits, List.map_cons, List.cons_append] at octal ⊢
    rw [readSize, if_neg (digitByte_facts d first).2.2, octal]
  · have same : (beDigits 256 11 n).map (UInt8.toNat ∘ UInt8.ofNat) = beDigits 256 11 n := by
      conv_rhs => rw [← List.map_id (beDigits 256 11 n)]
      refine List.map_congr_left fun d inside => ?_
      have := beDigits_lt (by decide) inside
      simp [Nat.mod_eq_of_lt this]
    rw [readSize, if_pos (by decide), List.map_map, same, ofDigits_beDigits fits]

/-! ## Blocks -/

def blockSize : Nat := 512

def zeros (n : Nat) : Bytes := List.replicate n 0

/-- Bytes up to the next block boundary. -/
def padding (n : Nat) : Nat := (blockSize - n % blockSize) % blockSize

def padBlock (content : Bytes) : Bytes := content ++ zeros (padding content.length)

def padName (name : Bytes) : Bytes := name.take 100 ++ zeros (100 - name.length)

def checksum (bytes : Bytes) : Nat := (bytes.map UInt8.toNat).sum

structure Fields where
  size : Nat
  mode : Nat
  uid : Nat
  gid : Nat
  mtime : Nat
  deriving DecidableEq, Repr

/-- The header up to its checksum. -/
def headerStart (name : Bytes) (fields : Fields) : Bytes :=
  padName name ++ (octalField 7 fields.mode ++ octalField 7 fields.uid ++
    octalField 7 fields.gid) ++ sizeField fields.size ++ octalField 11 fields.mtime

/-- The header from its type flag on: no link name, the GNU magic, nothing else. -/
def headerEnd (flag : UInt8) : Bytes :=
  flag :: (zeros 100 ++ [0x75, 0x73, 0x74, 0x61, 0x72, 0x20, 0x20, 0] ++ zeros 247)

/-- The checksum counts its own field as spaces. -/
def spaces : Bytes := List.replicate 8 0x20

def header (name : Bytes) (fields : Fields) (flag : UInt8) : Bytes :=
  headerStart name fields ++
    octalField 7 (checksum (headerStart name fields ++ spaces ++ headerEnd flag)) ++
    headerEnd flag

/-- A new header leaves its type flag zero, which is a regular file. -/
def regularFlag : UInt8 := 0

def longNameFlag : UInt8 := 0x4c

/-- `././@LongLink`. -/
def longLinkName : Bytes :=
  [0x2e, 0x2f, 0x2e, 0x2f, 0x40, 0x4c, 0x6f, 0x6e, 0x67, 0x4c, 0x69, 0x6e, 0x6b]

def longRecord (name : Bytes) : Bytes :=
  header longLinkName ⟨name.length + 1, 0o644, 0, 0, 0⟩ longNameFlag ++ padBlock (name ++ [0])

def writeMember (name : Bytes) (fields : Fields) (content : Bytes) : Bytes :=
  (if name.length ≤ 100 then [] else longRecord name) ++
    header name fields regularFlag ++ padBlock content

def trailer : Bytes := zeros (2 * blockSize)

/-! ## Reading -/

/-- An entry as it is listed. -/
structure Item where
  name : Bytes
  regular : Bool
  size : Nat
  content : Bytes
  deriving DecidableEq, Repr

inductive Listed
  | item (item : Item)
  | badChecksum
  deriving DecidableEq, Repr

def flagOf (block : Bytes) : UInt8 := (block.drop 156).headD 0

/-- A regular file has no flag, or the digit zero. -/
def isRegular (flag : UInt8) : Bool := flag = 0 ∨ flag = 0x30

def checksumHolds (block : Bytes) : Bool :=
  readOctal ((block.drop 148).take 8) =
    checksum (block.take 148 ++ spaces ++ block.drop 156)

/-- The entries of an archive; `long` is the name a long-name record gave the next one. -/
def readFrom : Nat → Option Bytes → Bytes → List Listed
  | 0, _, _ => []
  | fuel + 1, long, bytes =>
      let block := bytes.take blockSize
      if block.all (· = 0) then []
      else if checksumHolds block = false then [.badChecksum]
      else
        let size := readSize ((block.drop 124).take 12)
        let content := (bytes.drop blockSize).take size
        let rest := bytes.drop (blockSize + (size + padding size))
        if flagOf block = longNameFlag then
          readFrom fuel (some (content.takeWhile (· ≠ 0))) rest
        else
          .item ⟨long.getD ((block.take 100).takeWhile (· ≠ 0)), isRegular (flagOf block), size,
            content⟩ :: readFrom fuel none rest

/-- Every turn consumes a block. -/
def read (bytes : Bytes) : List Listed := readFrom bytes.length none bytes

/-! ## A header reads back -/

theorem take_append {a : Bytes} (b : Bytes) {n : Nat} (length : a.length = n) :
    (a ++ b).take n = a := by
  subst length; exact List.take_left

theorem drop_append {a : Bytes} (b : Bytes) {n : Nat} (length : a.length = n) :
    (a ++ b).drop n = b := by
  subst length; exact List.drop_left

@[simp] theorem zeros_length (n : Nat) : (zeros n).length = n := List.length_replicate

@[simp] theorem padName_length (name : Bytes) : (padName name).length = 100 := by
  simp only [padName, List.length_append, List.length_take, zeros_length]
  omega

@[simp] theorem headerStart_length (name : Bytes) (fields : Fields) :
    (headerStart name fields).length = 148 := by
  simp [headerStart]

@[simp] theorem headerEnd_length (flag : UInt8) : (headerEnd flag).length = 356 := by
  simp [headerEnd]

@[simp] theorem header_length (name : Bytes) (fields : Fields) (flag : UInt8) :
    (header name fields flag).length = blockSize := by
  simp [header, blockSize]

theorem checksum_le (bytes : Bytes) : checksum bytes ≤ 255 * bytes.length := by
  induction bytes with
  | nil => simp [checksum]
  | cons byte rest ih =>
      have := byte.toNat_lt
      simp only [checksum, List.map_cons, List.sum_cons, List.length_cons] at ih ⊢
      omega

section Header

variable (name : Bytes) (fields : Fields) (flag : UInt8)

theorem header_end : (header name fields flag).drop 156 = headerEnd flag :=
  drop_append _ (by simp)

theorem flagOf_header : flagOf (header name fields flag) = flag := by
  rw [flagOf, header_end]
  rfl

theorem header_start : (header name fields flag).take 148 = headerStart name fields := by
  rw [header, List.append_assoc]
  exact take_append _ (by simp)

theorem checksumHolds_header : checksumHolds (header name fields flag) = true := by
  have field : ((header name fields flag).drop 148).take 8 =
      octalField 7 (checksum (headerStart name fields ++ spaces ++ headerEnd flag)) := by
    rw [header, List.append_assoc, drop_append _ (by simp)]
    exact take_append _ (by simp)
  have small : checksum (headerStart name fields ++ spaces ++ headerEnd flag) < 8 ^ 7 := by
    have := checksum_le (headerStart name fields ++ spaces ++ headerEnd flag)
    have gap : spaces.length = 8 := rfl
    simp only [List.length_append, headerStart_length, headerEnd_length, gap] at this
    omega
  rw [checksumHolds, field, header_start, header_end, readOctal_octalField small]
  simp

theorem header_size (fits : fields.size < 256 ^ 11) :
    readSize (((header name fields flag).drop 124).take 12) = fields.size := by
  have field : ((header name fields flag).drop 124).take 12 = sizeField fields.size := by
    simp only [header, headerStart, List.append_assoc]
    rw [← List.append_assoc (padName name), ← List.append_assoc (padName name ++ _),
      ← List.append_assoc _ (octalField 7 fields.gid), drop_append _ (by simp)]
    exact take_append _ (by simp)
  rw [field, readSize_sizeField fits]

theorem header_name (short : name.length ≤ 100) (plain : 0 ∉ name) :
    ((header name fields flag).take 100).takeWhile (· ≠ 0) = name := by
  have field : (header name fields flag).take 100 = padName name := by
    simp only [header, headerStart, List.append_assoc]
    exact take_append _ (by simp)
  rw [field, padName, List.take_of_length_le short, List.takeWhile_append_of_pos]
  · cases 100 - name.length <;> simp [zeros, List.replicate]
  · intro byte inside
    simpa using fun zero : byte = 0 => plain (zero ▸ inside)

/-- The magic is in every header, so none is taken for the end of the archive. -/
theorem header_not_zero : (header name fields flag).all (· = 0) = false := by
  rw [List.all_eq_false]
  refine ⟨0x75, ?_, by decide⟩
  rw [header, headerEnd]
  simp

end Header

/-! ## An archive reads back -/

/-- A record's header, content and padding, and what follows them. -/
theorem record_parts (name : Bytes) (fields : Fields) (flag : UInt8) (content rest : Bytes)
    (size : fields.size = content.length) :
    let bytes := header name fields flag ++ padBlock content ++ rest
    bytes.take blockSize = header name fields flag ∧
      (bytes.drop blockSize).take fields.size = content ∧
      bytes.drop (blockSize + (fields.size + padding fields.size)) = rest := by
  refine ⟨?_, ?_, ?_⟩
  · rw [List.append_assoc]
    exact take_append _ (by simp)
  · rw [List.append_assoc, drop_append _ (by simp), padBlock, List.append_assoc]
    exact take_append _ size.symm
  · exact drop_append _ (by simp [padBlock, size])

section Reading

variable {name content rest : Bytes} {fields : Fields} {flag : UInt8} {fuel : Nat}
  {long : Option Bytes}

theorem readFrom_record (fits : fields.size < 256 ^ 11)
    (size : fields.size = content.length) :
    readFrom (fuel + 1) long (header name fields flag ++ padBlock content ++ rest) =
      if flag = longNameFlag then readFrom fuel (some (content.takeWhile (· ≠ 0))) rest
      else
        .item ⟨long.getD (((header name fields flag).take 100).takeWhile (· ≠ 0)),
          isRegular flag, fields.size, content⟩ :: readFrom fuel none rest := by
  obtain ⟨block, inside, after⟩ := record_parts name fields flag content rest size
  simp only [readFrom, block, header_not_zero name fields flag,
    checksumHolds_header name fields flag, header_size name fields flag fits, inside, after,
    flagOf_header name fields flag, Bool.false_eq_true, if_false, Bool.true_eq_false]

/-- **One member:** listed again under its own name, in one turn or two. -/
theorem readFrom_member (plain : 0 ∉ name) (nameFits : name.length + 1 < 256 ^ 11)
    (fits : fields.size < 256 ^ 11) (size : fields.size = content.length) :
    ∃ turns ≤ 2, ∀ fuel, readFrom (fuel + turns) none (writeMember name fields content ++ rest) =
      .item ⟨name, true, content.length, content⟩ :: readFrom fuel none rest := by
  by_cases short : name.length ≤ 100
  · refine ⟨1, by decide, fun fuel => ?_⟩
    rw [writeMember, if_pos short, List.nil_append,
      readFrom_record fits size, if_neg (by decide), Option.getD_none,
      header_name name fields _ short plain, size]
    rfl
  · refine ⟨2, Nat.le_refl 2, fun fuel => ?_⟩
    have ended : (name ++ [0]).takeWhile (· ≠ 0) = name := by
      rw [List.takeWhile_append_of_pos]
      · simp
      · intro byte inside
        simpa using fun zero : byte = 0 => plain (zero ▸ inside)
    have split : writeMember name fields content ++ rest =
        longRecord name ++ (header name fields regularFlag ++ padBlock content ++ rest) := by
      rw [writeMember, if_neg short]
      simp only [List.append_assoc]
    rw [split, longRecord, readFrom_record nameFits (by simp), if_pos rfl, ended,
      readFrom_record fits size, if_neg (by decide), Option.getD_some, size]
    rfl

end Reading

theorem readFrom_trailer (fuel : Nat) : readFrom fuel none trailer = [] := by
  cases fuel with
  | zero => rfl
  | succ fuel =>
      have zero : (trailer.take blockSize).all (· = 0) = true := by
        rw [List.all_eq_true]
        intro byte inside
        simpa using List.eq_of_mem_replicate (List.mem_of_mem_take inside)
      simp only [readFrom, zero, if_true]

/-- A member whose name and size the format can hold. -/
structure Writable (name : Bytes) (fields : Fields) (content : Bytes) : Prop where
  plain : 0 ∉ name
  nameFits : name.length + 1 < 256 ^ 11
  sizeFits : fields.size < 256 ^ 11
  size : fields.size = content.length

theorem readFrom_members {fuel : Nat} {members : List (Bytes × Fields × Bytes)}
    (writable : ∀ m ∈ members, Writable m.1 m.2.1 m.2.2) (enough : 2 * members.length ≤ fuel) :
    readFrom fuel none (members.flatMap (fun m => writeMember m.1 m.2.1 m.2.2) ++ trailer) =
      members.map fun m => .item ⟨m.1, true, m.2.2.length, m.2.2⟩ := by
  induction members generalizing fuel with
  | nil => exact readFrom_trailer fuel
  | cons m rest ih =>
      obtain ⟨here, later⟩ := List.forall_mem_cons.1 writable
      obtain ⟨turns, few, listed⟩ := @readFrom_member m.1 m.2.2
        (rest.flatMap (fun m => writeMember m.1 m.2.1 m.2.2) ++ trailer) m.2.1 here.plain
        here.nameFits here.sizeFits here.size
      rw [List.length_cons] at enough
      rw [List.flatMap_cons, List.append_assoc, show fuel = fuel - turns + turns by omega, listed,
        ih later (by omega), List.map_cons]

theorem writeMember_length (name : Bytes) (fields : Fields) (content : Bytes) :
    blockSize + content.length ≤ (writeMember name fields content).length := by
  simp only [writeMember, padBlock, List.length_append, header_length]
  omega

/-- **An archive lists the members it was written from.** -/
theorem read_write {members : List (Bytes × Fields × Bytes)}
    (writable : ∀ m ∈ members, Writable m.1 m.2.1 m.2.2) :
    read (members.flatMap (fun m => writeMember m.1 m.2.1 m.2.2) ++ trailer) =
      members.map fun m => .item ⟨m.1, true, m.2.2.length, m.2.2⟩ := by
  refine readFrom_members writable ?_
  have blocks : 2 * members.length ≤
      (members.flatMap fun m => writeMember m.1 m.2.1 m.2.2).length := by
    induction members with
    | nil => simp
    | cons m rest ih =>
        have := ih (fun m inside => writable m (List.mem_cons_of_mem _ inside))
        have := writeMember_length m.1 m.2.1 m.2.2
        unfold blockSize at this
        simp only [List.length_cons, List.flatMap_cons, List.length_append]
        omega
  rw [List.length_append]
  omega

/-! ## Overhead -/

theorem padding_lt (n : Nat) : padding n < blockSize := Nat.mod_lt _ (by decide)

/-- A member with a name of at most 255 bytes costs at most four blocks besides its content. -/
theorem writeMember_overhead {name : Bytes} (short : name.length ≤ 255) (fields : Fields)
    (content : Bytes) : (writeMember name fields content).length ≤ content.length + 2048 := by
  have content := padding_lt content.length
  have long : padding (name.length + 1) + name.length + 1 ≤ blockSize := by
    unfold padding blockSize; omega
  unfold blockSize at content long
  simp only [writeMember, longRecord, padBlock, List.length_append]
  split_ifs <;> simp [blockSize] <;> omega

end TypstMcp.Theory.Tar
