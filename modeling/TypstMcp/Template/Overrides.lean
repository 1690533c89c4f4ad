/-
Template.Overrides -- what an assembly mounts, file by file

An override replaces the content of a template's file and never adds one; the last
override of a path wins.  The other files come after, and a bundle takes no path twice,
so what is mounted is a disjoint union.

* `replaced_all`: the loop over the overrides as a map over the files.
* `assembled_exactly`: which files the bundle holds, and what makes an assembly fail.
-/
import TypstMcp.Template.Assemble
import TypstMcp.Theory.Lines

namespace TypstMcp.Template

open TypstMcp.Bundle TypstMcp.Theory TypstMcp.Theory.Lines

set_option autoImplicit false
set_option linter.dupNamespace false

variable {F : Type} {files files' : List BundleFile} {overrides : List BundleFile}

/-! ## One override -/

/-- The content the last override of `path` gives it. -/
def lastOverride (overrides : List BundleFile) (path : String) : Option FileContent :=
  (overrides.reverse.find? (·.path = path)).map BundleFile.content

/-- The file with the content it is overridden with. -/
def overridden (overrides : List BundleFile) (file : BundleFile) : BundleFile :=
  ⟨file.path, (lastOverride overrides file.path).getD file.content⟩

theorem overridden_nil (file : BundleFile) : overridden [] file = file := rfl

theorem lastOverride_cons (first : BundleFile) (rest : List BundleFile) (path : String) :
    lastOverride (first :: rest) path =
      (lastOverride rest path).or (if first.path = path then some first.content else none) := by
  unfold lastOverride
  rw [List.reverse_cons, List.find?_append]
  cases rest.reverse.find? (·.path = path) with
  | some file => rfl
  | none => by_cases same : first.path = path <;> simp [same]

/-- The one file of that path, replaced. -/
def putOver (replacement file : BundleFile) : BundleFile :=
  if file.path = replacement.path then replacement else file

theorem putOver_path (replacement file : BundleFile) :
    (putOver replacement file).path = file.path := by
  unfold putOver
  split
  · rename_i same
    exact same.symm
  · rfl

theorem overridden_putOver (first : BundleFile) (rest : List BundleFile) (file : BundleFile) :
    overridden rest (putOver first file) = overridden (first :: rest) file := by
  unfold overridden
  rw [putOver_path, lastOverride_cons]
  congr 1
  cases lastOverride rest file.path with
  | some content => rfl
  | none =>
      unfold putOver
      by_cases same : file.path = first.path
      · simp [same]
      · simp [same, Ne.symm same]

/-- A replacement keeps every path, and there was a file to replace. -/
theorem replaceFile_paths {replacement : BundleFile}
    (replaced : replaceFile replacement files = some files') :
    files'.map BundleFile.path = files.map BundleFile.path ∧
      replacement.path ∈ files.map BundleFile.path := by
  induction files generalizing files' with
  | nil => cases replaced
  | cons file rest ih =>
      rw [replaceFile] at replaced
      split at replaced
      · rename_i same
        obtain rfl := Option.some.inj replaced
        exact ⟨by simp [same], by simp [same]⟩
      · obtain ⟨rest', later, rfl⟩ := Option.map_eq_some_iff.1 replaced
        obtain ⟨paths, there⟩ := ih later
        exact ⟨by simp [paths], List.mem_cons_of_mem _ there⟩

theorem replaceFile_map {replacement : BundleFile} (distinct : (files.map BundleFile.path).Nodup)
    (replaced : replaceFile replacement files = some files') :
    files' = files.map (putOver replacement) := by
  induction files generalizing files' with
  | nil => cases replaced
  | cons file rest ih =>
      obtain ⟨fresh, distinct⟩ := List.nodup_cons.1 distinct
      rw [replaceFile] at replaced
      split at replaced
      · rename_i same
        obtain rfl := Option.some.inj replaced
        have others : rest.map (putOver replacement) = rest := by
          conv_rhs => rw [← List.map_id rest]
          refine List.map_congr_left fun other inside => ?_
          rw [putOver, if_neg]
          · rfl
          · intro again
            exact fresh (same.trans again.symm ▸ List.mem_map_of_mem inside)
        rw [List.map_cons, others, putOver, if_pos same]
      · rename_i ne
        obtain ⟨rest', later, rfl⟩ := Option.map_eq_some_iff.1 replaced
        rw [List.map_cons, ← ih distinct later, putOver, if_neg ne]

namespace Template

variable {template : Template F} {crates : Crates F} {data : Value F} {body : Option String}

theorem overrideFile_eq_ok {file : BundleFile} :
    template.overrideFile files file = .ok files' ↔
      isReserved file.path = false ∧ GoodPath file.path ∧ replaceFile file files = some files' := by
  unfold overrideFile
  split
  · rename_i reserved
    simp [reserved]
  · rename_i free
    cases checked : normalisePath file.path with
    | error source =>
        have bad : ¬ GoodPath file.path := fun good => by
          rw [normalisePath_good good] at checked
          cases checked
        simp [bad]
    | ok path =>
        obtain ⟨good, rfl⟩ := normalisePath_eq_ok.1 checked
        cases replaced : replaceFile file files with
        | none => simp [replaced]
        | some after => simp [replaced, free, good]

/-! ## All of them -/

/-- What a run of the loop that goes through says of each override. -/
theorem overrides_named (ran : overrides.foldlM template.overrideFile files = .ok files') :
    files'.map BundleFile.path = files.map BundleFile.path ∧
      ∀ o ∈ overrides, isReserved o.path = false ∧ o.path ∈ files.map BundleFile.path := by
  induction overrides generalizing files with
  | nil =>
      obtain rfl := pure_eq_ok.1 ran
      simp
  | cons o rest ih =>
      rw [List.foldlM_cons] at ran
      obtain ⟨next, first, ran⟩ := bind_eq_ok.1 ran
      obtain ⟨free, -, replaced⟩ := overrideFile_eq_ok.1 first
      obtain ⟨paths, named⟩ := replaceFile_paths replaced
      obtain ⟨paths', later⟩ := ih ran
      rw [paths] at paths' later
      exact ⟨paths', List.forall_mem_cons.2 ⟨⟨free, named⟩, later⟩⟩

/-- **The loop as a map**: the last override of each path wins. -/
theorem replaced_all (distinct : (files.map BundleFile.path).Nodup)
    (ran : overrides.foldlM template.overrideFile files = .ok files') :
    files' = files.map (overridden overrides) := by
  induction overrides generalizing files with
  | nil =>
      obtain rfl := pure_eq_ok.1 ran
      rw [List.map_congr_left fun file _ => overridden_nil file, List.map_id']
  | cons o rest ih =>
      rw [List.foldlM_cons] at ran
      obtain ⟨next, first, ran⟩ := bind_eq_ok.1 ran
      obtain ⟨-, -, replaced⟩ := overrideFile_eq_ok.1 first
      have paths := (replaceFile_paths replaced).1
      rw [ih (by rw [paths]; exact distinct) ran, replaceFile_map distinct replaced, List.map_map]
      exact List.map_congr_left fun file _ => overridden_putOver o rest file

/-! ## The bundle -/

theorem isNewline_eq_false_of_ordinary {c : Char}
    (ordinary : ¬ (isControl c || isSeparator c) = true) : isNewline c = false := by
  simp only [isControl, isSeparator, Bool.or_eq_true, Bool.and_eq_true, decide_eq_true_eq,
    not_or, not_and] at ordinary
  obtain ⟨⟨low, high⟩, ⟨line, paragraph⟩, -⟩ := ordinary
  have notLine : c.toNat ≠ 0x2028 := fun same => line (Char.toNat_inj.1 same)
  have notParagraph : c.toNat ≠ 0x2029 := fun same => paragraph (Char.toNat_inj.1 same)
  simp only [isNewline, Bool.or_eq_false_iff, Bool.and_eq_false_iff, decide_eq_false_iff_not]
  omega

theorem digitChar_newline : ∀ d < 16, isNewline (Nat.digitChar d) = false := by decide

/-- What stands in a literal for a character ends no line. -/
theorem escapeChar_newline (c : Char) : (escapeChar c).any isNewline = false := by
  unfold escapeChar
  split_ifs with quote backslash newline cr tab ordinary
  · decide
  · decide
  · decide
  · decide
  · decide
  · have digits : (Nat.toDigits 16 c.toNat).any isNewline = false := by
      rw [List.any_eq_false]
      intro e inside
      obtain ⟨d, small, rfl⟩ := mem_toDigits inside
      rw [digitChar_newline d small]
      exact Bool.false_ne_true
    simp only [List.any_cons, List.any_append, digits]
    decide
  · simp only [List.any_cons, List.any_nil, isNewline_eq_false_of_ordinary ordinary]
    rfl

theorem quote_newline (text : String) : (quote text).toList.any isNewline = false := by
  have body : (text.toList.flatMap escapeChar).any isNewline = false := by
    rw [List.any_flatMap, List.any_eq_false]
    intro c _
    rw [escapeChar_newline]
    exact Bool.false_ne_true
  rw [quote, writeString, String.toList_ofList, Quoted.writeLiteral]
  simp only [List.any_cons, List.any_append, body]
  decide

/-- The prelude without its terminator. -/
def preludeLine (template : Template F) : String :=
  "#import " ++ quote template.manifest.entrypoint ++ ": *"

theorem prelude_eq (template : Template F) : template.prelude = preludeLine template ++ "\n" := by
  rw [String.ext_iff]
  simp [prelude, preludeLine]

theorem preludeLine_plain (template : Template F) :
    ∀ e ∈ (preludeLine template).toList, isNewline e = false := by
  have none : (preludeLine template).toList.any isNewline = false := by
    rw [preludeLine, String.toList_append, String.toList_append, List.any_append, List.any_append,
      quote_newline]
    decide
  intro e inside
  exact Bool.eq_false_iff.2 (List.any_eq_false.1 none e inside)

/-- The prelude is one line. -/
theorem prelude_line (template : Template F) :
    ∃ line : String, '\n' ∉ line.toList ∧ template.prelude = line ++ "\n" :=
  ⟨preludeLine template,
    fun inside => absurd (preludeLine_plain template _ inside) (by decide), prelude_eq template⟩

/-- What the bundle holds: the template's files, overridden; the caller's; and the generated ones. -/
structure Mounted (template : Template F) (crates : Crates F) (data : Value F) (body : Option String)
    (extra overrides : List BundleFile) (main : String) (bundle : Bundle) : Prop where
  entry : bundle.main = generatedMain
  /-- No two files share a path. -/
  disjoint : ((template.files ++ extra ++ template.generatedFiles crates data body main).map
    BundleFile.path).Nodup
  files : ∀ path content, bundle.files[path]? = some content ↔
    (∃ file ∈ template.files, file.path = path ∧
      content = (lastOverride overrides path).getD file.content) ∨
    ⟨path, content⟩ ∈ extra ∨
    (path = generatedMain ∧ content = .text main) ∨
    (∃ text, body = some text ∧ path = generatedBody ∧ content = .text (template.prelude ++ text)) ∨
    (path = "data.json" ∧ content = .text ((crates.jsonText data).getD "\x7b\x7d"))

theorem mem_generatedFiles {main path : String} {content : FileContent} :
    ⟨path, content⟩ ∈ template.generatedFiles crates data body main ↔
      (path = generatedMain ∧ content = .text main) ∨
      (∃ text, body = some text ∧ path = generatedBody ∧
        content = .text (template.prelude ++ text)) ∨
      (path = "data.json" ∧ content = .text ((crates.jsonText data).getD "\x7b\x7d")) := by
  cases body <;> simp [generatedFiles, bodyFiles]

theorem mem_overridden {path : String} {content : FileContent} :
    ⟨path, content⟩ ∈ files.map (overridden overrides) ↔
      ∃ file ∈ files, file.path = path ∧ content = (lastOverride overrides path).getD file.content := by
  rw [List.mem_map]
  constructor
  · rintro ⟨file, inside, same⟩
    obtain ⟨rfl, rfl⟩ := BundleFile.mk.inj same
    exact ⟨file, inside, rfl, rfl⟩
  · rintro ⟨file, inside, rfl, rfl⟩
    exact ⟨file, inside, rfl⟩

/-- **An assembly mounts exactly what it says**, and refuses an override of anything but a file of
the template. -/
theorem assembled_exactly (template : Template F) (crates : Crates F) (data : Value F)
    (body : Option String) (extra overrides : List BundleFile) (maxBytes : Nat) :
    (∀ assembled, template.assembleWithOverrides crates data body extra overrides maxBytes =
        .ok assembled →
      ∃ main, template.manifest.generateMain crates data = .ok main ∧
        Mounted template crates data body extra overrides main assembled.bundle) ∧
    (∃ line : String, '\n' ∉ line.toList ∧ template.prelude = line ++ "\n") ∧
    ∀ o ∈ overrides, isReserved o.path = true ∨ o.path ∉ template.files.map BundleFile.path →
      ∃ error, template.assembleWithOverrides crates data body extra overrides maxBytes =
        .error error := by
  refine ⟨fun assembled made => ?_, prelude_line template, fun o listed odd => ?_⟩
  · obtain ⟨⟨⟩, -, made⟩ := bind_eq_ok.1 made
    obtain ⟨⟨⟩, -, made⟩ := bind_eq_ok.1 made
    obtain ⟨files, ran, made⟩ := bind_eq_ok.1 made
    obtain ⟨main, generated, made⟩ := bind_eq_ok.1 made
    obtain ⟨bundle, built, made⟩ := bind_eq_ok.1 made
    obtain rfl := pure_eq_ok.1 made
    obtain ⟨accepts, isMain, -, holds⟩ := Bundle.new_eq_ok.1 (mapError_eq_ok.1 built)
    have paths := (overrides_named ran).1
    have distinct : (template.files.map BundleFile.path).Nodup := by
      have whole := accepts.distinct
      rw [List.map_append, List.map_append, paths] at whole
      exact (List.nodup_append.1 (List.nodup_append.1 whole).1).1
    obtain rfl := replaced_all distinct ran
    refine ⟨main, generated, isMain, ?_, fun path content => ?_⟩
    · have whole := accepts.distinct
      rw [List.map_append, List.map_append, paths] at whole
      rw [List.map_append, List.map_append]
      exact whole
    · rw [holds, getElem?_fileMap accepts.distinct, List.mem_append, List.mem_append,
        mem_overridden, mem_generatedFiles, or_assoc]
  · cases outcome : template.assembleWithOverrides crates data body extra overrides maxBytes with
    | error error => exact ⟨error, rfl⟩
    | ok assembled =>
        obtain ⟨⟨⟩, -, made⟩ := bind_eq_ok.1 outcome
        obtain ⟨⟨⟩, -, made⟩ := bind_eq_ok.1 made
        obtain ⟨files, ran, -⟩ := bind_eq_ok.1 made
        obtain ⟨free, there⟩ := (overrides_named ran).2 o listed
        rcases odd with reserved | absent
        · rw [free] at reserved
          cases reserved
        · exact absurd there absent

end Template

end TypstMcp.Template
