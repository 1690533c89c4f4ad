/-
Template.Archive -- a template as the tar archive the store keeps

`toArchive` writes the source files, `fromArchive` reads them back through a
`BoundedReader`.  `TarCrate` stands for the tar and gzip crates; `Faithful` is what
is assumed of them.  `readEntries_members` follows the decoder's loop over the
members it was given, and `archive_round_trip` is the whole way round.
-/
import TypstMcp.Template.Source
import TypstMcp.Theory.Ascii
import TypstMcp.Theory.Tar

namespace TypstMcp.Template

open TypstMcp.Bundle TypstMcp.Theory TypstMcp.Theory.Json

set_option autoImplicit false
set_option linter.dupNamespace false

variable {F : Type}

/-- One past the largest `usize`. -/
def usizeSize : Nat := 2 ^ 64

/-- `usize::saturating_add`. -/
def saturatingAdd (a b : Nat) : Nat := min (a + b) (usizeSize - 1)

def maxArchiveOverheadBytes : Nat := 256 * 1024

/-! ## Streams -/

/-- What a reader has in store: its bytes, then the end or an error. -/
structure Stream where
  bytes : Bytes
  failure : Option String := none
  deriving DecidableEq, Repr

/-- One read into a buffer of `room` bytes. -/
def Stream.read (stream : Stream) (room : Nat) : Except String (Bytes × Stream) :=
  if stream.bytes ≠ [] then
    .ok (stream.bytes.take room, { stream with bytes := stream.bytes.drop room })
  else match stream.failure with
    | some e => .error e
    | none => .ok ([], stream)

/-- `take(limit).read_to_end`. -/
def Stream.readToEnd (stream : Stream) (limit : Nat) : Except String Bytes :=
  if limit ≤ stream.bytes.length then .ok (stream.bytes.take limit)
  else match stream.failure with
    | some e => .error e
    | none => .ok stream.bytes

structure BoundedReader where
  inner : Stream
  remaining : Nat

namespace BoundedReader

def exceeded : String := "decompressed archive exceeds its metadata budget"

def read (reader : BoundedReader) (room : Nat) : Except String (Bytes × BoundedReader) :=
  if room = 0 then .ok ([], reader)
  else if reader.remaining = 0 then
    -- a one-byte probe tells the end of the stream from an overrun
    match reader.inner.read 1 with
    | .ok (probe, inner) =>
        if probe = [] then .ok ([], { reader with inner }) else .error exceeded
    | .error e => .error e
  else
    match reader.inner.read (min room reader.remaining) with
    | .ok (got, inner) => .ok (got, { inner, remaining := reader.remaining - got.length })
    | .error e => .error e

/-- The stream a bounded reader amounts to. -/
def stream (reader : BoundedReader) : Stream :=
  if reader.inner.bytes.length ≤ reader.remaining then reader.inner
  else { bytes := reader.inner.bytes.take reader.remaining, failure := some exceeded }

theorem stream_of_le {reader : BoundedReader} (fits : reader.inner.bytes.length ≤ reader.remaining) :
    reader.stream = reader.inner := if_pos fits

/-- The bounded stream, field by field. -/
theorem stream_eq (bytes : Bytes) (failure : Option String) (remaining : Nat) :
    stream ⟨⟨bytes, failure⟩, remaining⟩ =
      ⟨bytes.take remaining, if bytes.length ≤ remaining then failure else some exceeded⟩ := by
  unfold stream
  simp only
  split_ifs with fits
  · rw [List.take_of_length_le fits]
  · rfl

/-- **Reading through the bound is reading the bounded stream.** -/
theorem read_stream (reader : BoundedReader) {room : Nat} (some : 0 < room) :
    (reader.read room).map (fun got => (got.1, got.2.stream)) = reader.stream.read room := by
  obtain ⟨⟨bytes, failure⟩, remaining⟩ := reader
  cases bytes with
  | nil =>
      -- at the end both report the inner stream's end
      cases failure <;> by_cases spent : remaining = 0 <;>
        simp [read, Stream.read, Except.map, stream, spent, Nat.ne_of_gt some]
  | cons b rest =>
      by_cases spent : remaining = 0
      · -- the probe sees one more byte
        subst spent
        simp [read, Stream.read, Except.map, stream, Nat.ne_of_gt some]
      · obtain ⟨n, least⟩ : ∃ n, n = min room remaining := ⟨_, rfl⟩
        obtain ⟨bytes, all⟩ : ∃ bytes, bytes = b :: rest := ⟨_, rfl⟩
        have length : bytes.length = rest.length + 1 := by rw [all]; rfl
        have got : (read ⟨⟨bytes, failure⟩, remaining⟩ room).map
              (fun got => (got.1, got.2.stream)) =
            .ok (bytes.take n,
              stream ⟨⟨bytes.drop n, failure⟩, remaining - (bytes.take n).length⟩) := by
          simp [read, Stream.read, Except.map, spent, Nat.ne_of_gt some, ← least, all]
        have open_ : bytes.take remaining ≠ [] := by
          intro none
          have := congrArg List.length none
          simp only [List.length_take, List.length_nil] at this
          omega
        have left : (bytes.drop n).take (remaining - (bytes.take n).length) =
            (bytes.take remaining).drop room := by
          rw [List.drop_take, List.length_take]
          rcases Nat.lt_or_ge bytes.length n with short | long
          · rw [List.drop_of_length_le (by omega), List.drop_of_length_le (by omega),
              List.take_nil, List.take_nil]
          · rcases Nat.le_total room remaining with within | beyond
            · obtain rfl : n = room := by omega
              rw [Nat.min_eq_left long]
            · rw [show remaining - min n bytes.length = 0 by omega,
                show remaining - room = 0 by omega, List.take_zero, List.take_zero]
        have same : ((bytes.drop n).length ≤ remaining - (bytes.take n).length) ↔
            bytes.length ≤ remaining := by
          simp only [List.length_drop, List.length_take]; omega
        rw [← all, got, stream_eq, stream_eq, left, Stream.read, if_pos open_]
        simp only [same, List.take_take, ← least]

end BoundedReader

/-! ## The tar and gzip crates -/

/-- The header fields `to_archive` sets. -/
abbrev Header := Tar.Fields

/-- One entry as the crate lists it. -/
structure TarEntry where
  pathBytes : Bytes
  isFile : Bool
  size : Nat
  content : Stream
  deriving DecidableEq, Repr

structure TarCrate where
  /-- `Builder::append_data` on what was built so far. -/
  appendData : Bytes → Header → String → Bytes → Except String Bytes
  /-- `Builder::into_inner`. -/
  intoInner : Bytes → Except String Bytes
  /-- `Archive::entries`. -/
  entries : Stream → Except String (List (Except String TarEntry))
  /-- `GzDecoder`. -/
  gunzip : Bytes → Stream

/-- A member to write: its path and its bytes. -/
abbrev Member := String × Bytes

def member (file : BundleFile) : Member := (file.path, file.content.asBytes)

def fileHeader (bytes : Bytes) : Header where
  size := bytes.length
  mode := 0o644
  uid := 0
  gid := 0
  mtime := 0

namespace TarCrate

def pack (tar : TarCrate) (members : List Member) : Except String Bytes := do
  let body ← members.foldlM
    (fun body (m : Member) => tar.appendData body (fileHeader m.2) m.1 m.2) []
  tar.intoInner body

/-- The entry a member is listed as. -/
def entryOf (m : Member) : TarEntry where
  pathBytes := utf8 m.1
  isFile := true
  size := m.2.length
  content := { bytes := m.2 }

/-- An archive of these members: they are listed again, each with at most 2048 bytes of
headers and padding, and it starts with the name of a member or of a long-name record. -/
structure Keeps (tar : TarCrate) (members : List Member) (archive : Bytes) : Prop where
  listed : tar.entries { bytes := archive } = .ok (members.map fun m => .ok (entryOf m))
  overhead : archive.length ≤ (members.map (·.2.length)).sum + 2048 * members.length + 1024
  named : ∀ m ∈ members.head?,
    archive.head? = (utf8 m.1).head? ∨ archive.head? = (utf8 "././@LongLink").head?

/-- The crates write and read members with accepted paths faithfully. -/
def Faithful (tar : TarCrate) : Prop :=
  ∀ members : List Member, (∀ m ∈ members, GoodPath m.1 ∧ m.2.length < usizeSize) →
    ∃ archive, tar.pack members = .ok archive ∧ tar.Keeps members archive

end TarCrate

/-! ## Encoding -/

/-- Encode the validated source tree as a deterministic, extraction-free store blob. -/
def Template.toArchive (template : Template F) (tar : TarCrate) : Except TemplateError Bytes := do
  let body ← template.sourceFiles.foldlM
    (fun archive file =>
      (tar.appendData archive (fileHeader file.content.asBytes) file.path
        file.content.asBytes).mapError .badArchive) []
  (tar.intoInner body).mapError .badArchive

/-! ## Decoding -/

def textExtensions : List String := ["typ", "json", "csv", "yaml", "yml", "toml", "svg", "txt"]

/-- `path.rsplit('.').next()`: what follows the last dot, or all of it. -/
def isText (path : String) : Bool :=
  ((path.toList.splitOn '.').getLast?.map String.ofList).any (textExtensions.contains ·)

/-- The class a file is given when it is read from bytes. -/
def classify (path : String) (bytes : Bytes) : FileContent :=
  match fromUtf8 bytes with
  | some text => if isText path then .text text else .binary bytes
  | none => .binary bytes

/-- The files read so far, and their bytes. -/
structure Progress where
  files : List BundleFile := []
  total : Nat := 0

/-- One turn of the loop over the entries. -/
def readEntry (maxBytes : Nat) (progress : Progress) (entry : Except String TarEntry) :
    Except TemplateError Progress :=
  match entry with
  | .error e => .error (.badArchive e)
  | .ok entry =>
      match fromUtf8 entry.pathBytes with
      | none => .error (.badArchive "member path is not UTF-8")
      | some path =>
          match normalisePath path with
          | .error source => .error (.badPath "<upload>" path source)
          | .ok _ =>
              if entry.isFile = false then .error (.nonFileMember path)
              else if maxFiles ≤ progress.files.length then
                .error (.bundle (.tooManyFiles (progress.files.length + 1)))
              else
                let declared := min entry.size (usizeSize - 1)
                if maxBytes < saturatingAdd progress.total declared then
                  .error (.bundle (.tooLarge (saturatingAdd progress.total declared) maxBytes))
                else
                  -- `max_bytes - total + 1` wraps in the release build
                  match entry.content.readToEnd ((maxBytes - progress.total + 1) % usizeSize) with
                  | .error e => .error (.badArchive e)
                  | .ok content =>
                      let total := saturatingAdd progress.total content.length
                      if maxBytes < total then .error (.bundle (.tooLarge total maxBytes))
                      else
                        .ok { files := progress.files ++ [⟨path, classify path content⟩], total }

/-- Whether the bytes are taken for a gzip stream. -/
def isGzip (bytes : Bytes) : Bool := [0x1f, 0x8b].isPrefixOf bytes

/-- Decode a tar or gzip-compressed tar without extracting any member to disk. -/
def fromArchive (crates : Crates F) (tar : TarCrate) (bytes : Bytes) (maxBytes : Nat) :
    Except TemplateError (Template F) := do
  let decoded : Stream := if isGzip bytes then tar.gunzip bytes else { bytes }
  let reader : BoundedReader :=
    { inner := decoded, remaining := saturatingAdd maxBytes maxArchiveOverheadBytes }
  let entries ← (tar.entries reader.stream).mapError .badArchive
  let progress ← entries.foldlM (readEntry maxBytes) {}
  fromSourceFiles crates progress.files maxBytes

/-! ## The way round -/

/-- A member as the decoder classes it. -/
def recode (m : Member) : BundleFile := ⟨m.1, classify m.1 m.2⟩

theorem classify_asBytes (path : String) (bytes : Bytes) :
    (classify path bytes).asBytes = bytes := by
  unfold classify
  split
  · rename_i text valid
    split_ifs
    · exact utf8_of_fromUtf8 valid
    · rfl
  · rfl

/-- **One member read back:** its own path, its own bytes. -/
theorem readEntry_member {maxBytes : Nat} {progress : Progress} {m : Member}
    (fits : maxBytes + 1 < usizeSize) (good : GoodPath m.1)
    (count : progress.files.length < maxFiles)
    (bytes : progress.total + m.2.length ≤ maxBytes) :
    readEntry maxBytes progress (.ok (TarCrate.entryOf m)) =
      .ok { files := progress.files ++ [recode m], total := progress.total + m.2.length } := by
  have least : min m.2.length (usizeSize - 1) = m.2.length := by omega
  have sum : saturatingAdd progress.total m.2.length = progress.total + m.2.length := by
    unfold saturatingAdd; omega
  have room : (maxBytes - progress.total + 1) % usizeSize = maxBytes - progress.total + 1 :=
    Nat.mod_eq_of_lt (by omega)
  have whole : ({ bytes := m.2 } : Stream).readToEnd (maxBytes - progress.total + 1) = .ok m.2 := by
    rw [Stream.readToEnd, if_neg (by show ¬ _ ≤ m.2.length; omega)]
  simp only [readEntry, TarCrate.entryOf, fromUtf8_utf8, normalisePath_good good, least, sum, room,
    whole]
  rw [if_neg (by decide), if_neg (by omega), if_neg (by omega), if_neg (by omega)]
  rfl

theorem readEntries_members {maxBytes : Nat} {progress : Progress} {members : List Member}
    (fits : maxBytes + 1 < usizeSize) (good : ∀ m ∈ members, GoodPath m.1)
    (count : progress.files.length + members.length ≤ maxFiles)
    (bytes : progress.total + (members.map (·.2.length)).sum ≤ maxBytes) :
    ∃ last, (members.map fun m => Except.ok (TarCrate.entryOf m)).foldlM
        (readEntry maxBytes) progress = .ok last ∧
      last.files = progress.files ++ members.map recode := by
  induction members generalizing progress with
  | nil => exact ⟨progress, rfl, by simp⟩
  | cons m rest ih =>
      obtain ⟨here, later⟩ := List.forall_mem_cons.1 good
      simp only [List.length_cons] at count
      simp only [List.map_cons, List.sum_cons] at bytes
      have first := readEntry_member fits here (by omega) (show progress.total + m.2.length ≤ _ by
        omega)
      obtain ⟨last, read, files⟩ := @ih
        { files := progress.files ++ [recode m], total := progress.total + m.2.length } later
        (by simp only [List.length_append, List.length_singleton]; omega) (by simp only; omega)
      refine ⟨last, ?_, by simp [files]⟩
      rw [List.map_cons, List.foldlM_cons, bind_eq_ok]
      exact ⟨_, first, read⟩

theorem allowed_byte {c : Char} (allowed : isAllowed c = true) :
    ∃ byte, String.utf8EncodeChar c = [byte] ∧ 0x20 ≤ byte := by
  have range : 0x20 ≤ c.toNat ∧ c.toNat < 0x80 := by
    simp only [isAllowed, Bool.or_eq_true, decide_eq_true_eq] at allowed
    rcases allowed with ((((alphanum | rfl) | rfl) | rfl) | rfl) | rfl
    · have := Ascii.isAlphanum_range alphanum
      omega
    all_goals decide
  refine ⟨UInt8.ofNat c.toNat, ?_, ?_⟩
  · unfold String.utf8EncodeChar
    exact if_pos (show c.toNat ≤ 0x7f by omega)
  · rw [UInt8.le_iff_toNat_le, UInt8.toNat_ofNat', Nat.mod_eq_of_lt (by omega)]
    exact range.1

/-- An accepted path has printable bytes only. -/
theorem goodPath_bytes {path : String} (good : GoodPath path) : ∀ byte ∈ utf8 path, 0x20 ≤ byte := by
  intro byte inside
  rw [utf8_eq, List.mem_flatMap] at inside
  obtain ⟨c, given, inside⟩ := inside
  obtain ⟨one, encoded, printable⟩ := allowed_byte (good.allowed c given)
  rw [encoded, List.mem_singleton] at inside
  exact inside ▸ printable

theorem goodPath_head {path : String} (good : GoodPath path) :
    ∃ byte, (utf8 path).head? = some byte ∧ byte ≠ 0x1f := by
  cases bytes : utf8 path with
  | nil =>
      have : path = "" := utf8_inj (bytes.trans (by decide))
      exact absurd this good.ne_empty
  | cons byte rest =>
      refine ⟨byte, rfl, fun same => ?_⟩
      have := goodPath_bytes good byte (bytes ▸ List.mem_cons_self)
      subst same
      exact absurd this (by decide)

theorem not_gzip {tar : TarCrate} {members : List Member} {archive : Bytes}
    (kept : tar.Keeps members archive) (some : members ≠ []) (good : ∀ m ∈ members, GoodPath m.1) :
    isGzip archive = false := by
  obtain ⟨m, rest, rfl⟩ := List.exists_cons_of_ne_nil some
  obtain ⟨byte, first, ne⟩ : ∃ byte, archive.head? = Option.some byte ∧ byte ≠ 0x1f := by
    rcases kept.named m rfl with name | name
    · rw [name]; exact goodPath_head (good m List.mem_cons_self)
    · exact ⟨0x2e, name.trans (by decide +kernel), by decide⟩
  cases archive with
  | nil => cases first
  | cons b bytes =>
      obtain rfl : b = byte := Option.some.inj first
      simp [isGzip, List.isPrefixOf, ne.symm]

theorem toArchive_eq_ok {template : Template F} {tar : TarCrate} {archive : Bytes} :
    template.toArchive tar = .ok archive ↔
      tar.pack (template.sourceFiles.map member) = .ok archive := by
  have loop : ∀ (files : List BundleFile) (body last : Bytes),
      files.foldlM (fun archive file =>
          (tar.appendData archive (fileHeader file.content.asBytes) file.path
            file.content.asBytes).mapError TemplateError.badArchive) body = .ok last ↔
        (files.map member).foldlM
          (fun body (m : Member) => tar.appendData body (fileHeader m.2) m.1 m.2) body =
            .ok last := by
    intro files
    induction files with
    | nil =>
        intro body last
        constructor <;> (rintro ⟨⟩; rfl)
    | cons file rest ih =>
        intro body last
        rw [List.map_cons, List.foldlM_cons, List.foldlM_cons, bind_eq_ok, bind_eq_ok]
        refine exists_congr fun next => ?_
        rw [mapError_eq_ok, ih]
        rfl
  unfold Template.toArchive TarCrate.pack
  rw [bind_eq_ok, bind_eq_ok]
  refine exists_congr fun body => ?_
  rw [loop, mapError_eq_ok]

theorem isText_metadata (slot : Metadata) : isText slot.path = true := by
  cases slot <;> decide +kernel

/-- A file survives the archive but for its class, and metadata survives whole. -/
theorem recoded_recode {file : BundleFile}
    (text : metadataOf file.path ≠ none → ∃ text, file.content = .text text) :
    Recoded file (recode (member file)) where
  path := rfl
  bytes := (classify_asBytes _ _).symm
  metadata named := by
    obtain ⟨slot, is⟩ := Option.ne_none_iff_exists'.1 named
    obtain ⟨text, content⟩ := text named
    have textual : isText file.path = true := by
      rw [metadataOf_eq_some.1 is]
      exact isText_metadata slot
    show file.content = classify file.path file.content.asBytes
    rw [content]
    show FileContent.text text = classify file.path (utf8 text)
    rw [classify, fromUtf8_utf8]
    simp [textual]

/-- **An archived template is read back,** its files coded by the decoder. -/
theorem fromArchive_toArchive {crates : Crates F} {tar : TarCrate} {files : List BundleFile}
    {maxBytes : Nat} {template : Template F} (faithful : tar.Faithful)
    (fits : maxBytes + 1 < usizeSize)
    (accepted : fromSourceFiles crates files maxBytes = .ok template)
    (vec : ∀ archive, template.toArchive tar = .ok archive → archive.length < usizeSize) :
    ∃ archive, template.toArchive tar = .ok archive ∧
      ∃ template', fromArchive crates tar archive maxBytes = .ok template' ∧
        SameSource template template' ∧
        template'.sourceFiles = template.sourceFiles.map fun file => recode (member file) := by
  obtain ⟨bundle, made, taken⟩ := fromSourceFiles_eq_ok.1 accepted
  have perm : template.sourceFiles.Perm files :=
    sourceFiles_eq taken ▸ Bundle.new_fileList made
  have accepts := (Bundle.new_eq_ok.1 made).1
  have good : ∀ m ∈ template.sourceFiles.map member, GoodPath m.1 := by
    intro m inside
    obtain ⟨file, given, rfl⟩ := List.mem_map.1 inside
    exact accepts.paths file (perm.mem_iff.1 given)
  have total : ((template.sourceFiles.map member).map (·.2.length)).sum ≤ maxBytes := by
    have same : (template.sourceFiles.map member).map (·.2.length) =
        template.sourceFiles.map fun file => file.content.len := by
      rw [List.map_map]
      exact List.map_congr_left fun file _ => (FileContent.len_eq file.content).symm
    rw [same, (perm.map _).sum_eq]
    exact accepts.bytes
  have count : (template.sourceFiles.map member).length ≤ maxFiles := by
    rw [List.length_map, perm.length_eq]
    exact accepts.count
  obtain ⟨archive, packed, kept⟩ := faithful (template.sourceFiles.map member)
    fun m inside => ⟨good m inside, by
      have : m.2.length ≤ ((template.sourceFiles.map member).map (·.2.length)).sum :=
        List.le_sum_of_mem (List.mem_map.2 ⟨m, inside, rfl⟩)
      omega⟩
  have written : template.toArchive tar = .ok archive := toArchive_eq_ok.2 packed
  have some : template.sourceFiles.map member ≠ [] := by
    intro none
    have := perm.length_eq
    rw [List.map_eq_nil_iff.1 none] at this
    have hasMain := accepts.hasMain
    rw [List.length_eq_zero_iff.1 this.symm] at hasMain
    cases hasMain
  -- the archive fits the bounded reader
  have within : archive.length ≤ saturatingAdd maxBytes maxArchiveOverheadBytes := by
    have overhead := kept.overhead
    have short := vec archive written
    unfold saturatingAdd maxArchiveOverheadBytes
    unfold maxFiles at count
    omega
  obtain ⟨progress, read, files'⟩ := @readEntries_members maxBytes {} _ fits good
    (by simpa using count) (by simpa using total)
  rw [List.nil_append, List.map_map] at files'
  have same : List.Forall₂ Recoded template.sourceFiles progress.files := by
    rw [files', List.forall₂_map_right_iff, List.forall₂_same]
    exact fun file inside => recoded_recode (template.metadata_text taken.document file inside)
  obtain ⟨template', again, alike, sources'⟩ := fromSourceFiles_recoded accepted same
  refine ⟨archive, written, template', ?_, alike, sources'.trans files'⟩
  unfold fromArchive
  rw [not_gzip kept some good]
  simp only [Bool.false_eq_true, if_false]
  rw [BoundedReader.stream_of_le within]
  exact bind_eq_ok.2 ⟨_, mapError_eq_ok.2 kept.listed, bind_eq_ok.2 ⟨progress, read, again⟩⟩

/-- **Archive round trip.**  The accepted files are the template's sources, each path once, in
path order; its archive is read back as the same paths and bytes; and archived again they give
the same archive.  A byte vector's length is a `usize`. -/
theorem archive_round_trip (crates : Crates F) (tar : TarCrate) (files : List BundleFile)
    (maxBytes : Nat) (template : Template F) (faithful : tar.Faithful)
    (fits : maxBytes + 1 < usizeSize)
    (accepted : fromSourceFiles crates files maxBytes = .ok template)
    (vec : ∀ archive, template.toArchive tar = .ok archive → archive.length < usizeSize) :
    template.sourceFiles.Perm files ∧ InPathOrder template.sourceFiles ∧
      ∃ archive, template.toArchive tar = .ok archive ∧
        ∃ template', fromArchive crates tar archive maxBytes = .ok template' ∧
          template'.sourceFiles.map member = template.sourceFiles.map member ∧
          template'.toArchive tar = .ok archive := by
  obtain ⟨bundle, made, taken⟩ := fromSourceFiles_eq_ok.1 accepted
  have sources := sourceFiles_eq taken
  obtain ⟨archive, written, template', decoded, -, sources'⟩ :=
    fromArchive_toArchive faithful fits accepted vec
  have members : template'.sourceFiles.map member = template.sourceFiles.map member := by
    rw [sources', List.map_map]
    exact List.map_congr_left fun file _ => Prod.ext rfl (classify_asBytes _ _)
  refine ⟨sources ▸ Bundle.new_fileList made, sources ▸ Bundle.fileList_ordered bundle, archive,
    written, template', decoded, members, toArchive_eq_ok.2 ?_⟩
  rw [members]
  exact toArchive_eq_ok.1 written

/-! ## GNU tar -/

/-- The crates on the archives `to_archive` writes: GNU tar, never compressed. -/
def gnuTar : TarCrate where
  appendData body header path bytes := .ok (body ++ Tar.writeMember (utf8 path) header bytes)
  intoInner body := .ok (body ++ Tar.trailer)
  entries stream := .ok ((Tar.read stream.bytes).map fun
    | .item item => .ok {
        pathBytes := item.name
        isFile := item.regular
        size := item.size
        content := ⟨item.content, if item.content.length < item.size then stream.failure else none⟩ }
    | .badChecksum => .error "archive header checksum mismatch")
  gunzip _ := ⟨[], some "invalid gzip header"⟩

theorem gnuTar_pack (members : List Member) :
    gnuTar.pack members = .ok
      (members.flatMap (fun m => Tar.writeMember (utf8 m.1) (fileHeader m.2) m.2) ++
        Tar.trailer) := by
  have loop : ∀ body : Bytes, members.foldlM
      (fun body (m : Member) => gnuTar.appendData body (fileHeader m.2) m.1 m.2) body = .ok
        (body ++ members.flatMap fun m => Tar.writeMember (utf8 m.1) (fileHeader m.2) m.2) := by
    induction members with
    | nil => intro body; simp [Pure.pure, Except.pure]
    | cons m rest ih =>
        intro body
        rw [List.foldlM_cons, bind_eq_ok]
        exact ⟨_, rfl, by rw [ih, List.flatMap_cons, List.append_assoc]⟩
  unfold TarCrate.pack
  rw [bind_eq_ok]
  exact ⟨_, loop [], rfl⟩

theorem gnuTar_length {members : List Member} (good : ∀ m ∈ members, GoodPath m.1) :
    (members.flatMap fun m => Tar.writeMember (utf8 m.1) (fileHeader m.2) m.2).length ≤
      (members.map (·.2.length)).sum + 2048 * members.length := by
  induction members with
  | nil => simp
  | cons m rest ih =>
      obtain ⟨here, later⟩ := List.forall_mem_cons.1 good
      have short : (utf8 m.1).length ≤ 255 := here.short
      have := Tar.writeMember_overhead short (fileHeader m.2) m.2
      have := ih later
      simp only [List.flatMap_cons, List.length_append, List.map_cons, List.sum_cons,
        List.length_cons]
      omega

/-- **GNU tar is faithful.** -/
theorem gnuTar_faithful : gnuTar.Faithful := by
  intro members good
  refine ⟨_, gnuTar_pack members, ?_, ?_, ?_⟩
  · have writable : ∀ m ∈ members.map fun m : Member => (utf8 m.1, fileHeader m.2, m.2),
        Tar.Writable m.1 m.2.1 m.2.2 := by
      intro m inside
      obtain ⟨given, old, rfl⟩ := List.mem_map.1 inside
      obtain ⟨path, size⟩ := good given old
      have short : (utf8 given.1).length ≤ 255 := path.short
      unfold usizeSize at size
      exact {
        plain := fun zero => absurd (goodPath_bytes path 0 zero) (by decide)
        nameFits := by show (utf8 given.1).length + 1 < _; omega
        sizeFits := by show given.2.length < _; omega
        size := rfl }
    have read := Tar.read_write writable
    rw [List.flatMap_map, List.map_map] at read
    show Except.ok ((Tar.read _).map _) = _
    rw [read, List.map_map]
    refine congrArg Except.ok (List.map_congr_left fun m _ => ?_)
    show Except.ok _ = Except.ok _
    simp [TarCrate.entryOf]
  · have := gnuTar_length fun m inside => (good m inside).1
    have trailer : Tar.trailer.length = 1024 := by simp [Tar.trailer, Tar.blockSize]
    rw [List.length_append, trailer]
    omega
  · intro m first
    obtain ⟨rest, rfl⟩ : ∃ rest, members = m :: rest := by
      cases members with
      | nil => cases first
      | cons m' rest => cases first; exact ⟨rest, rfl⟩
    obtain ⟨byte, bytes, name⟩ : ∃ byte bytes, utf8 m.1 = byte :: bytes := by
      obtain ⟨byte, head, -⟩ := goodPath_head (good m List.mem_cons_self).1
      cases named : utf8 m.1 with
      | nil => rw [named] at head; cases head
      | cons b more => exact ⟨b, more, rfl⟩
    by_cases short : (utf8 m.1).length ≤ 100
    · left
      rw [List.flatMap_cons, Tar.writeMember, if_pos short, name]
      rfl
    · right
      rw [List.flatMap_cons, Tar.writeMember, if_neg short]
      have dot : (utf8 "././@LongLink").head? = some 0x2e := by decide +kernel
      exact dot.symm ▸ rfl

theorem archive_round_trip_draft :
    ∃ template : Template Int, fromSourceFiles draftCrates draftFiles 1024 = .ok template ∧
      template.sourceFiles.Perm draftFiles ∧ InPathOrder template.sourceFiles ∧
      ∃ archive, template.toArchive gnuTar = .ok archive ∧
        ∃ template', fromArchive draftCrates gnuTar archive 1024 = .ok template' ∧
          template'.sourceFiles.map member = template.sourceFiles.map member ∧
          template'.toArchive gnuTar = .ok archive := by
  have evaluated : ((fromSourceFiles draftCrates draftFiles 1024).toOption.any fun template =>
      (template.toArchive gnuTar).toOption.all (·.length < usizeSize)) = true := by
    decide +kernel
  obtain ⟨template, made, small⟩ := (Option.any_eq_true _ _).1 evaluated
  have accepted : fromSourceFiles draftCrates draftFiles 1024 = .ok template := by
    cases run : fromSourceFiles draftCrates draftFiles 1024 with
    | error e => rw [run] at made; cases made
    | ok t => rw [run] at made; cases made; rfl
  refine ⟨template, accepted, archive_round_trip draftCrates gnuTar draftFiles 1024 template
    gnuTar_faithful (by decide) accepted fun archive written => ?_⟩
  rw [written] at small
  exact of_decide_eq_true small

end TypstMcp.Template
