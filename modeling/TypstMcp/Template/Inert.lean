/-
Template.Inert -- caller strings never reach code position

The generated entrypoint is written from pieces (`generateMain_written`): the
manifest's names and the punctuation are code, every caller string is a literal.
Two data values that differ in such strings only (`Replaces`) convert to alike
arguments, one step for each argument (`convert_reworded`), and so give the same
code: `caller_strings_inert`.
-/
import TypstMcp.Template.Manifest

namespace TypstMcp.Template

open TypstMcp.Bundle TypstMcp.Theory TypstMcp.Theory.Quoted

set_option autoImplicit false

variable {F : Type}

/-! ## The entrypoint in pieces -/

def linesPieces (floats : Floats F) : List (String × TypstValue F) → List Piece
  | [] => []
  | (arg, value) :: rest =>
      .code ("  " ++ arg ++ ": ").toList ::
        (value.pieces floats ++ .code ",\n".toList :: linesPieces floats rest)

theorem argumentLines_cons {floats : Floats F} {arg : String} {value : TypstValue F}
    {rest : List (String × TypstValue F)} {text : String} :
    argumentLines floats ((arg, value) :: rest) = .ok text ↔
      ∃ source more, value.toSource floats = .ok source ∧ argumentLines floats rest = .ok more ∧
        text = "  " ++ arg ++ ": " ++ source ++ ",\n" ++ more := by
  rw [argumentLines]
  cases value.toSource floats with
  | error e => simp
  | ok source => simp only [bind_eq_ok, pure_eq_ok, Except.ok.injEq, exists_and_left, exists_eq_left']

theorem argumentLines_written {floats : Floats F} {values : List (String × TypstValue F)}
    {text : String} (names : ∀ pair ∈ values, isIdent pair.1 = true)
    (ok : argumentLines floats values = .ok text) :
    Written text (linesPieces floats values) := by
  induction values generalizing text with
  | nil => cases ok; exact .empty
  | cons pair rest ih =>
      obtain ⟨arg, value⟩ := pair
      obtain ⟨source, more, printed, tail, rfl⟩ := argumentLines_cons.1 ok
      obtain ⟨name, others⟩ := List.forall_mem_cons.1 names
      have label : '"' ∉ ("  " ++ arg ++ ": ").toList := by
        simp only [String.toList_append, List.mem_append, not_or]
        exact ⟨⟨by decide, isIdent_plain name⟩, by decide⟩
      have here := (value.toSource_written floats printed).append (.code ",\n" (by decide))
      have whole := ((Written.code _ label).append here).append (ih others tail)
      simpa [linesPieces, String.append_assoc] using whole

namespace Manifest

variable (manifest : Manifest)

/-- The names a manifest puts in code position of its own accord. -/
structure Named : Prop where
  wrapper : ∀ f, manifest.wrapperFn = some f → isIdent f = true
  args : ∀ pair ∈ manifest.args.toList, isIdent pair.2.arg = true

def bannerPieces : List Piece :=
  [.code "// Generated by typst-mcp. Do not edit.\n#import ".toList,
    .literal manifest.entrypoint.toList, .code ": *\n".toList]

/-- What a wrapper's entrypoint mounts after the call. -/
def closingPieces : List Piece :=
  match manifest.kind with
  | .wrapper =>
      [.code ")\n#include ".toList, .literal generatedBody.toList, .code "\n".toList]
  | .data => [.code ")\n".toList]

def mainPieces (floats : Floats F) (values : List (String × TypstValue F)) : List Piece :=
  manifest.bannerPieces ++ [.code manifest.opening.toList] ++ linesPieces floats values ++
    manifest.closingPieces

variable {manifest}

theorem banner_written : Written manifest.banner manifest.bannerPieces := by
  have whole := ((Written.code "// Generated by typst-mcp. Do not edit.\n#import "
    (by decide)).append (.literal manifest.entrypoint)).append (.code ": *\n" (by decide))
  have start : "// Generated by typst-mcp. Do not edit.\n" ++ "#import " =
    "// Generated by typst-mcp. Do not edit.\n#import " := by decide
  unfold banner
  rw [start]
  exact whole

theorem opening_written (named : manifest.Named) :
    Written manifest.opening [.code manifest.opening.toList] := by
  refine .code _ ?_
  have plain : ∀ absent : String, '"' ∉ absent.toList →
      '"' ∉ (manifest.wrapperFn.getD absent).toList := by
    intro absent quoteless
    cases declared : manifest.wrapperFn with
    | none => exact quoteless
    | some f => exact isIdent_plain (named.wrapper f declared)
  unfold opening
  cases manifest.kind with
  | wrapper =>
      simp only [String.toList_append, List.mem_append, not_or]
      exact ⟨⟨by decide, plain "" (by decide)⟩, by decide⟩
  | data =>
      simp only [String.toList_append, List.mem_append, not_or]
      exact ⟨⟨by decide, plain "render" (by decide)⟩, by decide⟩

theorem closing_written : Written manifest.closing manifest.closingPieces := by
  unfold closing closingPieces
  cases manifest.kind with
  | wrapper =>
      have whole := ((Written.code ")\n#include " (by decide)).append
        (.literal generatedBody)).append (.code "\n" (by decide))
      have start : ")\n" ++ "#include " = ")\n#include " := by decide
      rw [start]
      exact whole
  | data => exact .code ")\n" (by decide)

theorem generateMain_eq_ok {crates : Crates F} {data : Value F} {text : String} :
    manifest.generateMain crates data = .ok text ↔
      ∃ values lines, manifest.arguments crates data = .ok values ∧
        argumentLines crates.toFloats values = .ok lines ∧
        text = manifest.banner ++ manifest.opening ++ lines ++ manifest.closing := by
  simp only [generateMain, bind_eq_ok, pure_eq_ok, exists_and_left]

theorem generateMain_written {crates : Crates F} {text : String}
    {values : List (String × TypstValue F)} {lines : String} (named : manifest.Named)
    (names : ∀ pair ∈ values, isIdent pair.1 = true)
    (printed : argumentLines crates.toFloats values = .ok lines)
    (whole : text = manifest.banner ++ manifest.opening ++ lines ++ manifest.closing) :
    Written text (manifest.mainPieces crates.toFloats values) := by
  subst whole
  exact ((banner_written.append (opening_written named)).append
    (argumentLines_written names printed)).append closing_written

end Manifest

/-! ## What the caller supplied -/

/-- The strings a value supplies to an argument of its kind. -/
def callerStrings : ArgKind → Value F → List String
  | .str, .string s => [s]
  | .strings, .array items => items.filterMap Value.asStr
  | _, _ => []

def suppliedFrom (data : Value F) : List (String × ArgSpec) → List String
  | [] => []
  | (field, spec) :: rest =>
      ((data.get field).elim [] (callerStrings spec.kind)) ++ suppliedFrom data rest

/-- The caller's strings, in manifest order. -/
def Manifest.suppliedStrings (manifest : Manifest) (data : Value F) : List String :=
  suppliedFrom data manifest.args.toList

/-- The same value but for the strings a `str` or `strings` argument takes from it. -/
inductive Reworded : ArgKind → Value F → Value F → Prop
  | same (kind : ArgKind) (raw : Value F) : Reworded kind raw raw
  | str (s s' : String) : Reworded .str (.string s) (.string s')
  | strings {items items' : List (Value F)} :
      List.Forall₂ (fun a b => a = b ∨ ∃ s s', a = .string s ∧ b = .string s') items items' →
      Reworded .strings (.array items) (.array items')

theorem Reworded.isNull {kind : ArgKind} {raw raw' : Value F} (swap : Reworded kind raw raw') :
    raw'.isNull = raw.isNull := by
  cases swap <;> rfl

/-- `data'` is `data` with other strings for the arguments that take strings. -/
def Manifest.Replaces (manifest : Manifest) (data data' : Value F) : Prop :=
  ∀ pair ∈ manifest.args.toList,
    Option.Rel (Reworded pair.2.kind) (data.get pair.1) (data'.get pair.1)

/-! ## Alike arguments -/

/-- Both print, and print the same code. -/
def Alike (floats : Floats F) (value value' : TypstValue F) : Prop :=
  (value.pieces floats).flatMap Piece.codeText = (value'.pieces floats).flatMap Piece.codeText ∧
    ((∃ text, value.toSource floats = .ok text) → ∃ text, value'.toSource floats = .ok text)

namespace Alike

variable {floats : Floats F}

theorem refl (value : TypstValue F) : Alike floats value value := ⟨rfl, id⟩

theorem str (s s' : String) : Alike floats (.str s) (.str s') := ⟨rfl, fun _ => ⟨_, rfl⟩⟩

theorem array {items items' : List (TypstValue F)}
    (each : List.Forall₂ (Alike floats) items items') :
    Alike floats (.array items) (.array items') := by
  have inner : (itemsPieces floats items).flatMap Piece.codeText =
        (itemsPieces floats items').flatMap Piece.codeText ∧
      ((∃ text, itemsToSource floats items = .ok text) →
        ∃ text, itemsToSource floats items' = .ok text) := by
    induction each with
    | nil => exact ⟨rfl, id⟩
    | @cons a b rest rest' first _ ih =>
        constructor
        · simp only [itemsPieces, List.flatMap_append, List.flatMap_cons, first.1, ih.1]
        · rintro ⟨text, ok⟩
          obtain ⟨head, printed, ok⟩ := bind_eq_ok.1 ok
          obtain ⟨tail, more, -⟩ := bind_eq_ok.1 ok
          obtain ⟨head', printed'⟩ := first.2 ⟨head, printed⟩
          obtain ⟨tail', more'⟩ := ih.2 ⟨tail, more⟩
          exact ⟨_, bind_eq_ok.2 ⟨head', printed', bind_eq_ok.2 ⟨tail', more', rfl⟩⟩⟩
  constructor
  · simp only [TypstValue.pieces, List.flatMap_cons, List.flatMap_append, inner.1]
  · rintro ⟨text, ok⟩
    obtain ⟨body, printed, -⟩ := bind_eq_ok.1 ok
    obtain ⟨body', printed'⟩ := inner.2 ⟨body, printed⟩
    exact ⟨_, bind_eq_ok.2 ⟨body', printed', rfl⟩⟩

end Alike

theorem convertItems_eq_ok {field : String} {i : Nat} {items : List (Value F)}
    {values : List (TypstValue F)} :
    convertItems field i items = .ok values ↔
      ∃ texts : List String, items = texts.map .string ∧ values = texts.map .str := by
  induction items generalizing i values with
  | nil =>
      constructor
      · rintro ⟨⟩; exact ⟨[], rfl, rfl⟩
      · rintro ⟨texts, empty, rfl⟩
        rw [List.map_eq_nil_iff.1 empty.symm]
        rfl
  | cons item rest ih =>
      rw [convertItems]
      cases item with
      | string s =>
          simp only [Value.asStr, bind_eq_ok, pure_eq_ok, ih]
          constructor
          · rintro ⟨more, ⟨texts, rfl, rfl⟩, rfl⟩
            exact ⟨s :: texts, rfl, rfl⟩
          · rintro ⟨texts, split, rfl⟩
            obtain ⟨t, texts, rfl, same, rest⟩ := List.map_eq_cons_iff.1 split.symm
            cases same
            exact ⟨_, ⟨texts, rest.symm, rfl⟩, rfl⟩
      | null | bool _ | number _ | array _ | object _ =>
          simp only [Value.asStr, reduceCtorEq, false_iff]
          rintro ⟨texts, split, -⟩
          obtain ⟨t, texts, rfl, same, rest⟩ := List.map_eq_cons_iff.1 split.symm
          cases same

theorem convert_strings {crates : Crates F} {field : String} {spec : ArgSpec} {raw : Value F}
    {value : TypstValue F} (kind : spec.kind = .strings) :
    convert crates field spec raw = .ok value ↔
      ∃ texts : List String, raw = .array (texts.map .string) ∧
        value = .array (texts.map .str) := by
  unfold convert
  rw [kind]
  cases raw with
  | array items =>
      simp only [Value.asArray, bind_eq_ok, pure_eq_ok, convertItems_eq_ok]
      constructor
      · rintro ⟨values, ⟨texts, rfl, rfl⟩, rfl⟩
        exact ⟨texts, rfl, rfl⟩
      · rintro ⟨texts, same, rfl⟩
        cases same
        exact ⟨_, ⟨texts, rfl, rfl⟩, rfl⟩
  | null | bool _ | number _ | string _ | object _ => simp [Value.asArray]

theorem convert_str {crates : Crates F} {field : String} {spec : ArgSpec} {s : String}
    (kind : spec.kind = .str) : convert crates field spec (.string s) = .ok (.str s) := by
  unfold convert
  rw [kind]
  rfl

theorem convert_date {crates : Crates F} {field : String} {spec : ArgSpec} {raw : Value F}
    {value : TypstValue F} (kind : spec.kind = .date)
    (ok : convert crates field spec raw = .ok value) :
    ∃ year month day, value = .date year month day := by
  unfold convert at ok
  rw [kind] at ok
  simp only at ok
  split at ok
  · rename_i date found
    obtain rfl := Except.ok.inj ok
    obtain ⟨s, -, parsed⟩ := Option.bind_eq_some_iff.1 found
    exact parseDate_date parsed
  · cases ok

/-- The strings of an array after the rewording of a strings array. -/
theorem reworded_texts {texts : List String} {items' : List (Value F)}
    (each : List.Forall₂ (fun a b => a = b ∨ ∃ s s', a = .string s ∧ b = .string s')
      (texts.map Value.string) items') :
    ∃ texts' : List String, items' = texts'.map .string ∧ texts'.length = texts.length := by
  induction texts generalizing items' with
  | nil =>
      cases each
      exact ⟨[], rfl, rfl⟩
  | cons s rest ih =>
      obtain ⟨b, more, first, tail, rfl⟩ := List.forall₂_cons_left_iff.1 each
      obtain ⟨texts', rfl, length⟩ := ih tail
      rcases first with rfl | ⟨_, s', -, rfl⟩
      · exact ⟨s :: texts', rfl, by simp [length]⟩
      · exact ⟨s' :: texts', rfl, by simp [length]⟩

/-- **One argument:** other strings in the same places convert to an alike value. -/
theorem convert_reworded {crates : Crates F} {field : String} {spec : ArgSpec}
    {raw raw' : Value F} {value : TypstValue F} (swap : Reworded spec.kind raw raw')
    (ok : convert crates field spec raw = .ok value) :
    ∃ value', convert crates field spec raw' = .ok value' ∧
      Alike crates.toFloats value value' := by
  obtain ⟨arg, kind, map⟩ := spec
  cases swap with
  | same => exact ⟨value, ok, .refl value⟩
  | str s s' =>
      rw [convert_str rfl] at ok
      cases ok
      exact ⟨_, convert_str rfl, .str s s'⟩
  | strings each =>
      obtain ⟨texts, same, rfl⟩ := (convert_strings rfl).1 ok
      cases same
      obtain ⟨texts', rfl, length⟩ := reworded_texts each
      refine ⟨_, (convert_strings rfl).2 ⟨texts', rfl, rfl⟩, .array ?_⟩
      rw [List.forall₂_map_left_iff, List.forall₂_map_right_iff]
      exact List.forall₂_iff_get.2 ⟨length.symm, fun i _ _ => .str _ _⟩

theorem itemsPieces_str (floats : Floats F) (texts : List String) :
    (itemsPieces floats (texts.map .str)).filterMap Piece.value? = texts.map String.toList := by
  induction texts with
  | nil => rfl
  | cons s rest ih =>
      simp only [List.map_cons, itemsPieces, TypstValue.pieces, List.singleton_append]
      exact congrArg (s.toList :: ·) ih

theorem callerStrings_of_ne {kind : ArgKind} {raw : Value F} (str : kind ≠ .str)
    (strings : kind ≠ .strings) : callerStrings kind raw = [] := by
  cases kind <;> cases raw <;> simp_all [callerStrings]

/-- The literals of an argument are the strings the caller supplied for it. -/
theorem convert_literals {crates : Crates F} {field : String} {spec : ArgSpec} {raw : Value F}
    {value : TypstValue F} (ok : convert crates field spec raw = .ok value) :
    (value.pieces crates.toFloats).filterMap Piece.value? =
      (callerStrings spec.kind raw).map String.toList := by
  obtain ⟨arg, kind, map⟩ := spec
  cases kind with
  | strings =>
      obtain ⟨texts, rfl, rfl⟩ := (convert_strings rfl).1 ok
      have supplied : (texts.map (Value.string : String → Value F)).filterMap Value.asStr =
          texts := by
        rw [List.filterMap_map]
        exact List.filterMap_some
      show (itemsPieces crates.toFloats (texts.map .str) ++ [Piece.code [')']]).filterMap _ =
        ((texts.map (Value.string : String → Value F)).filterMap Value.asStr).map String.toList
      rw [List.filterMap_append, itemsPieces_str, supplied]
      exact List.append_nil _
  | str =>
      cases raw with
      | string s => rw [convert_str rfl] at ok; cases ok; rfl
      | null | bool _ | number _ | array _ | object _ =>
          simp [convert, Value.asStr] at ok
  | int | float | bool =>
      rw [callerStrings_of_ne (by simp) (by simp)]
      simp only [convert] at ok
      split at ok
      · cases ok; rfl
      · cases ok
  | date =>
      rw [callerStrings_of_ne (by simp) (by simp)]
      obtain ⟨year, month, day, rfl⟩ := convert_date rfl ok
      rfl
  | ident =>
      rw [callerStrings_of_ne (by simp) (by simp)]
      simp only [convert] at ok
      split at ok
      · split at ok
        · cases ok; rfl
        · cases ok
      · cases ok

/-! ## The whole entrypoint -/

/-- **The argument loop:** the arguments of a reworded data value are alike one by one. -/
theorem argumentsFrom_reworded {crates : Crates F} {data data' : Value F}
    {args : List (String × ArgSpec)} {values : List (String × TypstValue F)}
    (swap : ∀ pair ∈ args, Option.Rel (Reworded pair.2.kind) (data.get pair.1) (data'.get pair.1))
    (ok : argumentsFrom crates data args = .ok values) :
    ∃ values', argumentsFrom crates data' args = .ok values' ∧
      List.Forall₂ (fun a b => a.1 = b.1 ∧ Alike crates.toFloats a.2 b.2) values values' := by
  induction args generalizing values with
  | nil => cases ok; exact ⟨[], rfl, .nil⟩
  | cons pair rest ih =>
      obtain ⟨field, spec⟩ := pair
      obtain ⟨here, later⟩ := List.forall_mem_cons.1 swap
      simp only [argumentsFrom] at ok ⊢
      rcases given : data.get field with _ | raw <;> rcases given' : data'.get field with _ | raw' <;>
        rw [given, given'] at here <;> rw [given] at ok
      · exact ih later ok
      · cases here
      · cases here
      · have swapped : Reworded spec.kind raw raw' := by cases here; assumption
        simp only at ok ⊢
        split_ifs at ok with isNull
        · rw [if_pos (swapped.isNull.trans isNull)]
          exact ih later ok
        · rw [if_neg (by rw [swapped.isNull]; exact isNull)]
          obtain ⟨value, converted, ok⟩ := bind_eq_ok.1 ok
          obtain ⟨more, tail, done⟩ := bind_eq_ok.1 ok
          obtain rfl := pure_eq_ok.1 done
          obtain ⟨value', converted', alike⟩ := convert_reworded swapped converted
          obtain ⟨more', tail', each⟩ := ih later tail
          refine ⟨(spec.arg, value') :: more', ?_, .cons ⟨rfl, alike⟩ each⟩
          exact bind_eq_ok.2 ⟨value', converted', bind_eq_ok.2 ⟨more', tail', rfl⟩⟩

theorem argumentsFrom_literals {crates : Crates F} {data : Value F}
    {args : List (String × ArgSpec)} {values : List (String × TypstValue F)}
    (ok : argumentsFrom crates data args = .ok values) :
    (linesPieces crates.toFloats values).filterMap Piece.value? =
      (suppliedFrom data args).map String.toList := by
  induction args generalizing values with
  | nil => cases ok; rfl
  | cons pair rest ih =>
      obtain ⟨field, spec⟩ := pair
      simp only [argumentsFrom] at ok
      rw [suppliedFrom, List.map_append]
      cases given : data.get field with
      | none => rw [given] at ok; exact ih ok
      | some raw =>
          rw [given] at ok
          simp only at ok
          split_ifs at ok with isNull
          · have nothing : callerStrings spec.kind raw = [] := by
              cases raw <;> simp_all [Value.isNull, callerStrings]
            rw [Option.elim_some, nothing]
            exact ih ok
          · obtain ⟨value, converted, ok⟩ := bind_eq_ok.1 ok
            obtain ⟨more, tail, done⟩ := bind_eq_ok.1 ok
            obtain rfl := pure_eq_ok.1 done
            have first := convert_literals converted
            rw [Option.elim_some, ← first, ← ih tail, ← List.filterMap_append]
            simp only [linesPieces, List.filterMap_cons, List.filterMap_append, Piece.value?]

/-- Where the arguments come from. -/
theorem argumentsFrom_source {crates : Crates F} {data : Value F} {args : List (String × ArgSpec)}
    {values : List (String × TypstValue F)} (ok : argumentsFrom crates data args = .ok values) :
    ∀ pair ∈ values, ∃ given ∈ args, pair.1 = given.2.arg ∧
      ∃ raw, convert crates given.1 given.2 raw = .ok pair.2 := by
  induction args generalizing values with
  | nil => cases ok; simp
  | cons given rest ih =>
      have later : ∀ values, argumentsFrom crates data rest = .ok values →
          ∀ pair ∈ values, ∃ g ∈ given :: rest, pair.1 = g.2.arg ∧
            ∃ raw, convert crates g.1 g.2 raw = .ok pair.2 := by
        intro values ok pair inside
        obtain ⟨g, old, same⟩ := ih ok pair inside
        exact ⟨g, List.mem_cons_of_mem _ old, same⟩
      simp only [argumentsFrom] at ok
      split at ok
      · exact later values ok
      · rename_i raw _
        split_ifs at ok
        · exact later values ok
        · obtain ⟨value, converted, ok⟩ := bind_eq_ok.1 ok
          obtain ⟨more, tail, done⟩ := bind_eq_ok.1 ok
          obtain rfl := pure_eq_ok.1 done
          exact List.forall_mem_cons.2
            ⟨⟨given, List.mem_cons_self, rfl, raw, converted⟩, later more tail⟩

theorem linesPieces_alike {floats : Floats F} {values values' : List (String × TypstValue F)}
    (each : List.Forall₂ (fun a b => a.1 = b.1 ∧ Alike floats a.2 b.2) values values') :
    (linesPieces floats values).flatMap Piece.codeText =
      (linesPieces floats values').flatMap Piece.codeText := by
  induction each with
  | nil => rfl
  | @cons a b rest rest' first _ ih =>
      obtain ⟨arg, value⟩ := a
      obtain ⟨arg', value'⟩ := b
      obtain ⟨rfl, same, -⟩ := first
      simp only [linesPieces, List.flatMap_cons, List.flatMap_append, same, ih]

theorem argumentLines_alike {floats : Floats F} {values values' : List (String × TypstValue F)}
    {text : String} (ok : argumentLines floats values = .ok text)
    (each : List.Forall₂ (fun a b => a.1 = b.1 ∧ Alike floats a.2 b.2) values values') :
    ∃ text', argumentLines floats values' = .ok text' := by
  induction each generalizing text with
  | nil => exact ⟨text, ok⟩
  | @cons a b rest rest' first _ ih =>
      obtain ⟨source, more, printed, tail, rfl⟩ := argumentLines_cons.1 ok
      obtain ⟨source', printed'⟩ := first.2.2 ⟨source, printed⟩
      obtain ⟨more', tail'⟩ := ih tail
      exact ⟨_, argumentLines_cons.2 ⟨source', more', printed', tail', rfl⟩⟩

/-- The literals an entrypoint has besides the caller's strings. -/
def Manifest.trailingLiterals (manifest : Manifest) : List String :=
  match manifest.kind with
  | .wrapper => [generatedBody]
  | .data => []

theorem Manifest.mainPieces_literals {manifest : Manifest} {crates : Crates F} {data : Value F}
    {values : List (String × TypstValue F)} (ok : manifest.arguments crates data = .ok values) :
    (manifest.mainPieces crates.toFloats values).filterMap Piece.value? =
      (manifest.entrypoint :: (manifest.suppliedStrings data ++ manifest.trailingLiterals)).map
        String.toList := by
  have supplied := argumentsFrom_literals ok
  have trailing : manifest.closingPieces.filterMap Piece.value? =
      manifest.trailingLiterals.map String.toList := by
    unfold closingPieces trailingLiterals
    cases manifest.kind <;> rfl
  simp only [mainPieces, List.filterMap_append, trailing, supplied, List.map_cons, List.map_append]
  rfl

/-- **Caller strings never reach code position.**  Other strings in the same places give an
entrypoint with the same code, and its literals read back as the entrypoint's path, the
caller's strings and, in a wrapper, the name of the body file. -/
theorem caller_strings_inert (manifest : Manifest) (crates : Crates F) (data data' : Value F)
    (text : String) (named : manifest.Named)
    (made : manifest.generateMain crates data = .ok text)
    (replaces : manifest.Replaces data data') :
    ∃ text', manifest.generateMain crates data' = .ok text' ∧
      codePositions text'.toList = codePositions text.toList ∧
      (literals text'.toList).map readLiteral =
        (manifest.entrypoint ::
          (manifest.suppliedStrings data' ++ manifest.trailingLiterals)).map (some ·.toList) := by
  obtain ⟨values, lines, converted, printed, whole⟩ := Manifest.generateMain_eq_ok.1 made
  obtain ⟨values', converted', each⟩ := argumentsFrom_reworded replaces converted
  obtain ⟨lines', printed'⟩ := argumentLines_alike printed each
  have idents : ∀ {data : Value F} {values}, manifest.arguments crates data = .ok values →
      ∀ pair ∈ values, isIdent pair.1 = true := by
    intro data values ok pair inside
    obtain ⟨given, declared, same, -⟩ := argumentsFrom_source ok pair inside
    exact same ▸ named.args given declared
  have written := Manifest.generateMain_written named (idents converted) printed whole
  have written' := Manifest.generateMain_written named (idents converted') printed' rfl
  refine ⟨_, Manifest.generateMain_eq_ok.2 ⟨values', lines', converted', printed', rfl⟩, ?_, ?_⟩
  · rw [written'.1, written.1, codePositions_write escapeChar_body _ written'.2,
      codePositions_write escapeChar_body _ written.2]
    simp only [Manifest.mainPieces, List.flatMap_append, linesPieces_alike each]
  · rw [written'.1, literals_write escapeChar_body _ written'.2,
      Manifest.mainPieces_literals converted', List.map_map, List.map_map]
    exact List.map_congr_left fun s _ => readLiteral_escaped s.toList

/-- A letter that takes a title and the lines of an address. -/
def letter : Manifest where
  name := "letter"
  kind := .wrapper
  entrypoint := "letter.typ"
  wrapperFn := some "letter"
  args := ((∅ : BTreeMap String ArgSpec).insert "title" ⟨"title", .str, ∅⟩).insert "address"
    ⟨"address", .strings, ∅⟩

theorem caller_strings_inert_letter :
    ∃ text', letter.generateMain integralCrates (.object [("title", .string "\" ; #evil ; \\"),
        ("address", .array [.string "\n"])]) = .ok text' ∧
      codePositions text'.toList =
        codePositions ("// Generated by typst-mcp. Do not edit.\n#import \"letter.typ\": *\n" ++
          "#show: letter.with(\n  address: (\"here\", ),\n  title: \"T\",\n)\n" ++
          "#include \"__body.typ\"\n").toList ∧
      (literals text'.toList).map readLiteral =
        ["letter.typ", "\n", "\" ; #evil ; \\", "__body.typ"].map (some ·.toList) := by
  have args : ∀ pair ∈ letter.args.toList,
      pair = ("title", ⟨"title", .str, ∅⟩) ∨ pair = ("address", ⟨"address", .strings, ∅⟩) := by
    rintro ⟨field, spec⟩ inside
    rw [Std.ExtTreeMap.mem_toList_iff_getElem?_eq_some] at inside
    simp only [letter, Std.ExtTreeMap.getElem?_insert, Std.LawfulEqCmp.compare_eq_iff_eq] at inside
    split_ifs at inside with address title
    · cases inside; exact .inr (by rw [← address])
    · cases inside; exact .inl (by rw [← title])
    · simp at inside
  obtain ⟨text', made, code, read⟩ := caller_strings_inert letter integralCrates
    (.object [("title", .string "T"), ("address", .array [.string "here"])])
    (.object [("title", .string "\" ; #evil ; \\"), ("address", .array [.string "\n"])])
    ("// Generated by typst-mcp. Do not edit.\n#import \"letter.typ\": *\n" ++
      "#show: letter.with(\n  address: (\"here\", ),\n  title: \"T\",\n)\n" ++
      "#include \"__body.typ\"\n")
    ⟨by rintro f ⟨⟩; decide, by
      intro pair inside
      rcases args pair inside with rfl | rfl <;> decide⟩
    (by decide +kernel) (by
      intro pair inside
      rcases args pair inside with rfl | rfl
      · exact .some (.str _ _)
      · exact .some (.strings (.cons (.inr ⟨_, _, rfl, rfl⟩) .nil)))
  refine ⟨text', made, code, read.trans ?_⟩
  decide +kernel

/-- A template that renders from data alone includes no body. -/
theorem data_mounts_no_body :
    ¬ ∀ (manifest : Manifest) (data : Value Int) (text : String), manifest.Named →
      manifest.generateMain integralCrates data = .ok text →
      (literals text.toList).map readLiteral =
        (manifest.entrypoint :: (manifest.suppliedStrings data ++ [generatedBody])).map
          (some ·.toList) := by
  intro claimed
  have := claimed { name := "invoice", kind := .data, entrypoint := "invoice.typ" } (.object [])
    "// Generated by typst-mcp. Do not edit.\n#import \"invoice.typ\": *\n#render(\n)\n"
    ⟨by simp, by simp⟩ (by decide +kernel)
  revert this
  decide +kernel

end TypstMcp.Template
