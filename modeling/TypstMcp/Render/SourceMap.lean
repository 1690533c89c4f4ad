/-
Render.SourceMap -- diagnostics in the caller's own terms

The body of a wrapper is mounted below a prelude of one line, and `apply` undoes that
shift.  The prelude quotes a text of the template's with every line terminator in it
escaped, so it is one line however lines are told apart.

`diagnostics_own_lines`: the line a diagnostic is moved to reads as the line it was found on.
-/
import TypstMcp.Render.Diagnostic
import TypstMcp.Template.Overrides

namespace TypstMcp.Render

open TypstMcp.Bundle TypstMcp.Template TypstMcp.Template.Template TypstMcp.Theory TypstMcp.Theory.Lines

set_option autoImplicit false

variable {F : Type}

/-! ## Applying a map -/

/-- One diagnostic: caller-facing filename, caller-facing line. -/
def applyOne (map : SourceMap) (diagnostic : Diagnostic) : Diagnostic :=
  match diagnostic.file with
  | none => diagnostic
  | some file =>
      match map.entries[file]? with
      | none => diagnostic
      | some (display, offset) =>
          { diagnostic with
            file := some display
            -- `saturating_sub`, and 1 for a diagnostic inside the prelude
            line := diagnostic.line.map fun line => max (line - offset) 1 }

/-- Rewrite diagnostics in place. -/
def apply (map : SourceMap) (diagnostics : List Diagnostic) : List Diagnostic :=
  diagnostics.map (applyOne map)

/-! ## The prelude's line -/

theorem prelude_toList (template : Template F) :
    template.prelude.toList = (preludeLine template).toList ++ ['\n'] := by
  rw [prelude_eq, String.toList_append]
  rfl

/-- `lines().count()` looks for LF only, and finds what the compiler finds. -/
theorem lineCount_prelude (template : Template F) : lineCount template.prelude = 1 := by
  have alone : '\n' ∉ (preludeLine template).toList := by
    intro inside
    exact absurd (preludeLine_plain template _ inside) (by decide)
  have cut : ((preludeLine template).toList ++ ['\n']).splitOn '\n' =
      [(preludeLine template).toList, []] := List.splitOn_append_cons_self_of_not_mem alone []
  unfold lineCount
  rw [prelude_toList, cut]
  rfl

/-! ## A body's diagnostics -/

/-- Where a diagnostic is for the caller: below the prelude one line up, in the prelude on line 1. -/
def restored (diagnostic : Diagnostic) : Diagnostic :=
  if diagnostic.file = some generatedBody then
    { diagnostic with
      file := some bodyDisplayName
      line := diagnostic.line.map fun line => if 2 ≤ line then line - 1 else 1 }
  else diagnostic

theorem sourceMap_entry (template : Template F) (body file : String) :
    (template.sourceMap (some body)).entries[file]? =
      if generatedBody = file then some (bodyDisplayName, 1) else none := by
  simp only [Template.sourceMap, SourceMap.insert, lineCount_prelude]
  rw [Std.ExtTreeMap.getElem?_insert, Std.ExtTreeMap.getElem?_empty]
  by_cases same : generatedBody = file <;> simp [same]

theorem applyOne_body (template : Template F) (body : String) (diagnostic : Diagnostic) :
    applyOne (template.sourceMap (some body)) diagnostic = restored diagnostic := by
  obtain ⟨severity, file, line, col, message, hints⟩ := diagnostic
  have shifted : ∀ line, max (line - 1) 1 = if 2 ≤ line then line - 1 else 1 := by
    intro line
    split_ifs <;> omega
  cases file with
  | none => rfl
  | some file =>
      have entry := sourceMap_entry template body file
      unfold applyOne restored
      by_cases same : generatedBody = file
      · rw [if_pos same] at entry
        rw [if_pos (congrArg some same.symm)]
        simp only [entry, shifted]
      · rw [if_neg same] at entry
        rw [if_neg (fun other => same (Option.some.inj other).symm)]
        simp only [entry]

theorem apply_body (template : Template F) (body : String) (diagnostics : List Diagnostic) :
    apply (template.sourceMap (some body)) diagnostics = diagnostics.map restored :=
  List.map_congr_left fun diagnostic _ => applyOne_body template body diagnostic

theorem restored_restored (diagnostic : Diagnostic) :
    restored (restored diagnostic) = restored diagnostic := by
  unfold restored
  split_ifs with body again
  · exact absurd (Option.some.inj again) (by decide)
  · rfl
  · rfl

theorem sourceMap_assembled {template : Template F} {crates : Crates F} {data : Value F}
    {body : Option String} {extra overrides : List BundleFile} {maxBytes : Nat} {assembled : Assembled}
    (made : template.assembleWithOverrides crates data body extra overrides maxBytes =
      .ok assembled) : assembled.sourceMap = template.sourceMap body := by
  obtain ⟨⟨⟩, -, made⟩ := bind_eq_ok.1 made
  obtain ⟨⟨⟩, -, made⟩ := bind_eq_ok.1 made
  obtain ⟨files, -, made⟩ := bind_eq_ok.1 made
  obtain ⟨main, -, made⟩ := bind_eq_ok.1 made
  obtain ⟨bundle, -, made⟩ := bind_eq_ok.1 made
  rw [pure_eq_ok.1 made]

/-- The body as mounted, and its diagnostics as handed out. -/
structure OwnLines (body : String) (assembled : Assembled) : Prop where
  /-- The generated file, and whose lines are whose. -/
  mounted : ∃ text : String, assembled.bundle.files[generatedBody]? = some (.text text) ∧
    ∀ n, 2 ≤ n → (lines text.toList)[n - 1]? = (lines body.toList)[n - 2]?
  applied : ∀ diagnostics, apply assembled.sourceMap diagnostics = diagnostics.map restored
  once : ∀ diagnostics, apply assembled.sourceMap (apply assembled.sourceMap diagnostics) =
    apply assembled.sourceMap diagnostics

/-- **Diagnostics point at the caller's own line.** -/
theorem diagnostics_own_lines (template : Template F) (crates : Crates F) (data : Value F)
    (body : String) (extra overrides : List BundleFile) (maxBytes : Nat) (assembled : Assembled)
    (made : template.assembleWithOverrides crates data (some body) extra overrides maxBytes =
      .ok assembled) : OwnLines body assembled := by
  obtain ⟨main, -, mounted⟩ := (template.assembled_exactly crates data (some body) extra overrides
    maxBytes).1 assembled made
  have map := sourceMap_assembled made
  refine ⟨⟨template.prelude ++ body, ?_, fun n later => ?_⟩, fun diagnostics => ?_,
    fun diagnostics => ?_⟩
  · exact (mounted.files _ _).2 (.inr (.inr (.inr (.inl ⟨body, rfl, rfl, rfl⟩))))
  · have shift := lines_shift (preludeLine_plain template) body.toList (n - 2)
    rw [show n - 2 + 1 = n - 1 by omega] at shift
    rw [String.toList_append, prelude_toList, List.append_assoc]
    exact shift
  · exact map ▸ apply_body template body diagnostics
  · rw [map, apply_body, apply_body, List.map_map]
    exact List.map_congr_left fun diagnostic _ => restored_restored diagnostic

theorem diagnostics_own_lines_draft :
    ∃ (template : Template Int) (assembled : Assembled),
      template.assembleWithOverrides draftCrates .null (some "= Hello\n#broken") [] [] 1024 =
          .ok assembled ∧ OwnLines "= Hello\n#broken" assembled := by
  have evaluated : ((fromSourceFiles draftCrates draftFiles 1024).toOption.any fun template =>
      (template.assembleWithOverrides draftCrates .null (some "= Hello\n#broken") [] [] 1024).isOk) =
        true := by
    decide +kernel
  obtain ⟨template, -, assembles⟩ := ok_of_any evaluated
  obtain ⟨assembled, made⟩ := ok_of_isOk assembles
  exact ⟨template, assembled, made,
    diagnostics_own_lines template draftCrates .null _ [] [] 1024 assembled made⟩

end TypstMcp.Render
