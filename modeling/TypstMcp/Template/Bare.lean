/-
Template.Bare -- the strings a manifest shows bare

A manifest shows its wrapper function, its argument names and the identifiers of
its maps in code position.  `assembleFrom` checks the function of a wrapper and
none of the rest, so an accepted template writes identifiers only exactly when
the rest are identifiers too (`onlyIdentifiers_iff`).
-/
import TypstMcp.Template.Inert
import TypstMcp.Template.Source

namespace TypstMcp.Template

open TypstMcp.Bundle TypstMcp.Theory

set_option autoImplicit false

variable {F : Type}

/-- The identifier a value is, if it is one. -/
def TypstValue.identifier : TypstValue F → List String
  | .ident name => [name]
  | _ => []

namespace Manifest

/-- What an entrypoint with these arguments shows bare. -/
def bareStrings (manifest : Manifest) (values : List (String × TypstValue F)) : List String :=
  manifest.wrapperFn.toList ++ values.flatMap fun pair => pair.1 :: pair.2.identifier

/-- Every entrypoint shows identifiers only, and no identifier is refused at first use. -/
structure OnlyIdentifiers (manifest : Manifest) (crates : Crates F) : Prop where
  shown : ∀ data values text, manifest.arguments crates data = .ok values →
    manifest.generateMain crates data = .ok text →
    ∀ s ∈ manifest.bareStrings values, isIdent s = true
  accepted : ∀ data name, manifest.generateMain crates data ≠ .error (.value (.badIdent name))

/-- What no check looks at: the function of a data template, the identifiers of the maps, and
the names of the arguments that can be passed at all. -/
structure Unchecked (manifest : Manifest) : Prop where
  function : manifest.kind = .data → ∀ f, manifest.wrapperFn = some f → isIdent f = true
  maps : ∀ pair ∈ manifest.args.toList, pair.2.kind = .ident →
    ∀ key name : String, pair.2.map[key]? = some name → isIdent name = true
  names : ∀ pair ∈ manifest.args.toList,
    (pair.2.kind = .ident → ∃ key name : String, pair.2.map[key]? = some name) → isIdent pair.2.arg = true

end Manifest

/-! ## What an argument can be -/

/-- The value an argument's kind gives. -/
theorem convert_ident {crates : Crates F} {field : String} {spec : ArgSpec} {raw : Value F}
    {value : TypstValue F} (kind : spec.kind = .ident)
    (ok : convert crates field spec raw = .ok value) :
    ∃ key name : String, spec.map[key]? = some name ∧ value = .ident name := by
  unfold convert at ok
  rw [kind] at ok
  simp only at ok
  split at ok
  · rename_i key _
    split at ok
    · rename_i name found
      cases ok
      exact ⟨key, name, found, rfl⟩
    · cases ok
  · cases ok

theorem itemsToSource_str (floats : Floats F) (texts : List String) :
    ∃ text, itemsToSource floats (texts.map .str) = .ok text := by
  induction texts with
  | nil => exact ⟨"", rfl⟩
  | cons s rest ih =>
      obtain ⟨more, printed⟩ := ih
      exact ⟨_, itemsToSource_cons.2 ⟨writeString s, more, rfl, printed, rfl⟩⟩

theorem array_str_toSource (floats : Floats F) (texts : List String) :
    ∃ text, (TypstValue.array (texts.map .str)).toSource floats = .ok text := by
  obtain ⟨body, printed⟩ := itemsToSource_str floats texts
  exact ⟨_, array_toSource.2 ⟨body, printed, rfl⟩⟩

/-- Only an `ident` argument is written as an identifier, or refused as one. -/
theorem convert_other {crates : Crates F} {field : String} {spec : ArgSpec} {raw : Value F}
    {value : TypstValue F} (kind : spec.kind ≠ .ident)
    (ok : convert crates field spec raw = .ok value) :
    value.identifier = [] ∧ ∀ name, value.toSource crates.toFloats ≠ .error (.badIdent name) := by
  obtain ⟨arg, given, map⟩ := spec
  cases given with
  | str =>
      cases raw with
      | string s => rw [convert_str rfl] at ok; cases ok; exact ⟨rfl, fun name same => by cases same⟩
      | null | bool _ | number _ | array _ | object _ => simp [convert, Value.asStr] at ok
  | int | bool =>
      simp only [convert] at ok
      split at ok
      · cases ok; exact ⟨rfl, fun name same => by cases same⟩
      · cases ok
  | float =>
      simp only [convert] at ok
      split at ok
      · cases ok
        refine ⟨rfl, fun name => ?_⟩
        rw [TypstValue.toSource]
        split_ifs <;> (intro same; cases same)
      · cases ok
  | date =>
      obtain ⟨year, month, day, rfl⟩ := convert_date rfl ok
      refine ⟨rfl, fun name => ?_⟩
      rw [TypstValue.toSource]
      split_ifs <;> (intro same; cases same)
  | strings =>
      obtain ⟨texts, -, rfl⟩ := (convert_strings rfl).1 ok
      obtain ⟨text, printed⟩ := array_str_toSource crates.toFloats texts
      exact ⟨rfl, fun name => by rw [printed]; exact fun same => by cases same⟩
  | ident => exact absurd rfl kind

/-- Some value converts to an argument that prints, unless its map is empty. -/
theorem convert_some (crates : Crates F) (field : String) (spec : ArgSpec)
    (mapped : spec.kind = .ident →
      ∃ key name : String, spec.map[key]? = some name ∧ isIdent name = true) :
    ∃ raw value text, raw.isNull = false ∧ convert crates field spec raw = .ok value ∧
      value.toSource crates.toFloats = .ok text := by
  obtain ⟨arg, kind, map⟩ := spec
  cases kind with
  | str => exact ⟨.string "", .str "", _, rfl, rfl, rfl⟩
  | int => exact ⟨.number (.posInt 0), .int 0, _, rfl, rfl, rfl⟩
  | float =>
      refine ⟨.number (.posInt 0), .float (crates.ofInt 0), crates.debug (crates.ofInt 0), rfl,
        rfl, ?_⟩
      rw [TypstValue.toSource, if_pos (crates.ofInt_finite 0 (by decide))]
  | bool => exact ⟨.bool true, .bool true, _, rfl, rfl, rfl⟩
  | date =>
      have parsed : parseDate "2026-08-15" = some (.date 2026 8 15 : TypstValue F) := by rfl
      refine ⟨.string "2026-08-15", .date 2026 8 15, _, rfl, ?_, rfl⟩
      simp only [convert, Value.asStr, Option.bind_some, parsed]
  | strings =>
      obtain ⟨text, printed⟩ := array_str_toSource crates.toFloats []
      exact ⟨.array [], .array [], text, rfl, rfl, printed⟩
  | ident =>
      obtain ⟨key, name, found, ident⟩ := mapped rfl
      refine ⟨.string key, .ident name, name, rfl, ?_, ?_⟩
      · simp only [convert, Value.asStr, found]
      · rw [TypstValue.toSource, if_pos ident]

/-! ## A run on one field -/

theorem get_single (field name : String) (raw : Value F) :
    (Value.object [(field, raw)]).get name = if name = field then some raw else none := by
  by_cases same : name = field
  · subst same
    simp [Value.get]
  · simp [Value.get, List.lookup_cons, beq_eq_false_iff_ne.2 same, same]

/-- Only the field that is given is passed. -/
theorem argumentsFrom_single {crates : Crates F} {field : String} {raw : Value F}
    {args : List (String × ArgSpec)} (others : ∀ pair ∈ args, pair.1 ≠ field) :
    argumentsFrom crates (.object [(field, raw)]) args = .ok [] := by
  induction args with
  | nil => rfl
  | cons pair rest ih =>
      obtain ⟨first, later⟩ := List.forall_mem_cons.1 others
      rw [argumentsFrom, get_single, if_neg first]
      exact ih later

theorem argumentsFrom_given {crates : Crates F} {field : String} {spec : ArgSpec} {raw : Value F}
    {value : TypstValue F} {args : List (String × ArgSpec)} (keys : (args.map Prod.fst).Nodup)
    (declared : (field, spec) ∈ args) (isNull : raw.isNull = false)
    (converted : convert crates field spec raw = .ok value) :
    argumentsFrom crates (.object [(field, raw)]) args = .ok [(spec.arg, value)] := by
  induction args with
  | nil => cases declared
  | cons pair rest ih =>
      obtain ⟨notIn, keys⟩ := List.nodup_cons.1 keys
      rcases List.mem_cons.1 declared with rfl | declared
      · have single : argumentsFrom crates (.object [(field, raw)]) rest = .ok [] :=
          argumentsFrom_single fun other inside same => notIn (List.mem_map.2 ⟨other, inside, same⟩)
        rw [argumentsFrom, get_single, if_pos rfl]
        simp only [isNull, Bool.false_eq_true, if_false]
        exact bind_eq_ok.2 ⟨value, converted, bind_eq_ok.2 ⟨[], single, rfl⟩⟩
      · have apart : pair.1 ≠ field := fun same =>
          notIn (same ▸ List.mem_map.2 ⟨_, declared, rfl⟩)
        rw [argumentsFrom, get_single, if_neg apart]
        exact ih keys declared

theorem nodup_args (manifest : Manifest) : (manifest.args.toList.map Prod.fst).Nodup :=
  List.pairwise_map.2 (manifest.args.ordered_keys_toList.imp fun less same => by
    rw [same] at less; simp at less)

/-! ## The exact condition -/

theorem convertItems_error {field : String} {i : Nat} {items : List (Value F)} {e : TemplateError}
    (failed : convertItems field i items = .error e) : ∃ message, e = .badArg field message := by
  induction items generalizing i with
  | nil => cases failed
  | cons item rest ih =>
      rw [convertItems] at failed
      split at failed
      · cases failed; exact ⟨_, rfl⟩
      · cases tail : convertItems field (i + 1) rest with
        | error e' => rw [tail] at failed; cases failed; exact ih tail
        | ok values => rw [tail] at failed; cases failed

/-- A value that does not convert is refused under its field. -/
theorem convert_error {crates : Crates F} {field : String} {spec : ArgSpec} {raw : Value F}
    {e : TemplateError} (failed : convert crates field spec raw = .error e) :
    ∃ message, e = .badArg field message := by
  obtain ⟨arg, kind, map⟩ := spec
  cases kind with
  | str | int | float | bool | date =>
      simp only [convert] at failed
      split at failed
      · cases failed
      · cases failed; exact ⟨_, rfl⟩
  | strings =>
      simp only [convert] at failed
      split at failed
      · rename_i items _
        cases each : convertItems field 0 items with
        | error e' => rw [each] at failed; cases failed; exact convertItems_error each
        | ok values => rw [each] at failed; cases failed
      · cases failed; exact ⟨_, rfl⟩
  | ident =>
      simp only [convert] at failed
      split at failed
      · split at failed
        · cases failed
        · cases failed; exact ⟨_, rfl⟩
      · cases failed; exact ⟨_, rfl⟩

theorem argumentsFrom_error {crates : Crates F} {data : Value F} {args : List (String × ArgSpec)}
    {e : TemplateError} (failed : argumentsFrom crates data args = .error e) :
    ∃ pair ∈ args, ∃ message, e = .badArg pair.1 message := by
  induction args with
  | nil => cases failed
  | cons pair rest ih =>
      have later : argumentsFrom crates data rest = .error e →
          ∃ p ∈ pair :: rest, ∃ message, e = .badArg p.1 message := by
        intro failed
        obtain ⟨p, inside, message⟩ := ih failed
        exact ⟨p, List.mem_cons_of_mem _ inside, message⟩
      simp only [argumentsFrom] at failed
      split at failed
      · exact later failed
      · rename_i raw _
        split_ifs at failed
        · exact later failed
        · cases converted : convert crates pair.1 pair.2 raw with
          | error e' =>
              rw [converted] at failed
              cases failed
              exact ⟨pair, List.mem_cons_self, convert_error converted⟩
          | ok value =>
              cases tail : argumentsFrom crates data rest with
              | error e' => rw [converted, tail] at failed; cases failed; exact later tail
              | ok values => rw [converted, tail] at failed; cases failed

/-- A refusal to print comes from one of the values. -/
theorem argumentLines_error {floats : Floats F} {values : List (String × TypstValue F)}
    {source : ValueError} (failed : argumentLines floats values = .error (.value source)) :
    ∃ pair ∈ values, pair.2.toSource floats = .error source := by
  induction values with
  | nil => cases failed
  | cons pair rest ih =>
      obtain ⟨arg, value⟩ := pair
      rw [argumentLines] at failed
      split at failed
      · rename_i e printed
        cases failed
        exact ⟨(arg, value), List.mem_cons_self, printed⟩
      · cases tail : argumentLines floats rest with
        | error e =>
            rw [tail] at failed
            cases failed
            obtain ⟨pair, inside, printed⟩ := ih tail
            exact ⟨pair, List.mem_cons_of_mem _ inside, printed⟩
        | ok more => rw [tail] at failed; cases failed

namespace Manifest

variable {manifest : Manifest} {crates : Crates F}

/-- Refused at first use: an argument was printed that is no identifier. -/
theorem generateMain_badIdent {data : Value F} {name : String}
    (failed : manifest.generateMain crates data = .error (.value (.badIdent name))) :
    ∃ values, manifest.arguments crates data = .ok values ∧
      ∃ pair ∈ values, pair.2.toSource crates.toFloats = .error (.badIdent name) := by
  unfold generateMain at failed
  cases converted : manifest.arguments crates data with
  | error e =>
      rw [converted] at failed
      cases failed
      obtain ⟨pair, -, message, same⟩ := argumentsFrom_error converted
      cases same
  | ok values =>
      cases printed : argumentLines crates.toFloats values with
      | error e =>
          rw [converted] at failed
          simp only [bind, Except.bind, printed] at failed
          cases failed
          exact ⟨values, rfl, argumentLines_error printed⟩
      | ok lines =>
          rw [converted] at failed
          simp only [bind, Except.bind, printed] at failed
          cases failed

/-- An entrypoint that is given one field shows the name that field is passed under. -/
theorem OnlyIdentifiers.name (only : manifest.OnlyIdentifiers crates) {field : String}
    {spec : ArgSpec} (declared : (field, spec) ∈ manifest.args.toList)
    (mapped : spec.kind = .ident →
      ∃ key name : String, spec.map[key]? = some name ∧ isIdent name = true) :
    isIdent spec.arg = true := by
  obtain ⟨raw, value, text, isNull, converted, printed⟩ := convert_some crates field spec mapped
  have given := argumentsFrom_given (nodup_args manifest) declared isNull converted
  have lines : argumentLines crates.toFloats [(spec.arg, value)] = .ok _ :=
    argumentLines_cons.2 ⟨text, "", printed, rfl, rfl⟩
  refine only.shown _ _ _ given (generateMain_eq_ok.2 ⟨_, _, given, lines, rfl⟩) _ ?_
  exact List.mem_append_right _ (List.mem_flatMap.2 ⟨_, List.mem_singleton_self _,
    List.mem_cons_self⟩)

theorem OnlyIdentifiers.map (only : manifest.OnlyIdentifiers crates) {field : String}
    {spec : ArgSpec} (declared : (field, spec) ∈ manifest.args.toList)
    (kind : spec.kind = .ident) {key name : String} (found : spec.map[key]? = some name) :
    isIdent name = true := by
  by_contra bad
  have converted : convert crates field spec (.string key) = .ok (.ident name) := by
    simp only [convert, kind, Value.asStr, found]
  have given := argumentsFrom_given (nodup_args manifest) declared rfl converted
  refine only.accepted (.object [(field, .string key)]) name ?_
  unfold generateMain arguments
  rw [given]
  simp only [bind, Except.bind, argumentLines, TypstValue.toSource]
  rw [if_neg bad]

/-- **An accepted template shows identifiers only exactly when what no check looks at is one.** -/
theorem onlyIdentifiers_iff (crates : Crates F) (parts : TemplateParts) (template : Template F)
    (accepted : assembleFrom crates parts = .ok template) :
    template.manifest.OnlyIdentifiers crates ↔ template.manifest.Unchecked := by
  have is := assembleFrom_eq_ok.1 accepted
  constructor
  · intro only
    have maps : ∀ pair ∈ template.manifest.args.toList, pair.2.kind = .ident →
        ∀ key name : String, pair.2.map[key]? = some name → isIdent name = true :=
      fun pair declared kind key name found => only.map declared kind found
    refine ⟨?_, maps, ?_⟩
    · intro _ f function
      -- the entrypoint of no data at all shows the function
      have none : template.manifest.arguments crates .null = .ok [] := by
        unfold arguments
        induction template.manifest.args.toList with
        | nil => rfl
        | cons pair rest ih => exact ih
      refine only.shown .null [] _ none (generateMain_eq_ok.2 ⟨_, _, none, rfl, rfl⟩) f ?_
      simp [bareStrings, function]
    · intro pair declared some
      refine only.name declared fun kind => ?_
      obtain ⟨key, name, found⟩ := some kind
      exact ⟨key, name, found, maps pair declared kind key name found⟩
  · intro unchecked
    have each : ∀ {data values}, template.manifest.arguments crates data = .ok values →
        ∀ pair ∈ values, isIdent pair.1 = true ∧
          (∀ s ∈ pair.2.identifier, isIdent s = true) ∧
          ∀ name, pair.2.toSource crates.toFloats ≠ .error (.badIdent name) := by
      intro data values converted pair inside
      obtain ⟨given, declared, same, raw, ok⟩ := argumentsFrom_source converted pair inside
      by_cases kind : given.2.kind = .ident
      · obtain ⟨key, name, found, value⟩ := convert_ident kind ok
        have ident := unchecked.maps given declared kind key name found
        refine ⟨same ▸ unchecked.names given declared fun _ => ⟨key, name, found⟩, ?_, ?_⟩
        · rw [value]
          exact fun s shown => List.mem_singleton.1 shown ▸ ident
        · intro other
          rw [value, TypstValue.toSource, if_pos ident]
          nofun
      · obtain ⟨no, prints⟩ := convert_other kind ok
        refine ⟨same ▸ unchecked.names given declared fun is => absurd is kind, ?_, prints⟩
        rw [no]
        nofun
    constructor
    · intro data values text converted _ s shown
      rcases List.mem_append.1 shown with function | argument
      · have declared := Option.mem_toList.1 function
        cases kind : template.manifest.kind with
        | wrapper =>
            obtain ⟨f, same, ident⟩ := is.wrapper kind
            rw [declared] at same
            cases same
            exact ident
        | data => exact unchecked.function kind s declared
      · obtain ⟨pair, inside, shown⟩ := List.mem_flatMap.1 argument
        obtain ⟨name, identifier, -⟩ := each converted pair inside
        rcases List.mem_cons.1 shown with rfl | shown
        · exact name
        · exact identifier s shown
    · intro data name failed
      obtain ⟨values, converted, pair, inside, refused⟩ := generateMain_badIdent failed
      exact (each converted pair inside).2.2 name refused

/-- The parts of a draft as a bundle gives them. -/
def draftParts : TemplateParts where
  manifestToml := draftToml
  files := [⟨"draft.typ", .text "#let draft(body) = body\n"⟩]

theorem onlyIdentifiers_iff_draft :
    ∃ template, assembleFrom draftCrates draftParts = .ok template ∧
      (template.manifest.OnlyIdentifiers draftCrates ↔ template.manifest.Unchecked) := by
  obtain ⟨template, accepted⟩ := ok_of_isOk
    (show (assembleFrom draftCrates draftParts).isOk = true by decide +kernel)
  exact ⟨template, accepted, onlyIdentifiers_iff draftCrates draftParts template accepted⟩

/-- The function a wrapper may not declare. -/
def hostileFunction : String := "f() ; #g("

def hostileToml : String :=
  "name = \"x\"\nkind = \"data\"\nentrypoint = \"x.typ\"\nwrapper_fn = \"f() ; #g(\"\n"

def hostileCrates : Crates Int :=
  readingCrates hostileToml
    { name := "x", kind := .data, entrypoint := "x.typ", wrapperFn := some hostileFunction }

/-- A data template may declare it, and shows it bare. -/
theorem hostile_function_shown :
    ¬ ∀ (parts : TemplateParts) (template : Template Int),
      assembleFrom hostileCrates parts = .ok template →
      template.manifest.OnlyIdentifiers hostileCrates := by
  intro claimed
  obtain ⟨template, accepted⟩ := ok_of_isOk (show (assembleFrom hostileCrates
    { manifestToml := hostileToml, files := [⟨"x.typ", .text ""⟩] }).isOk = true by decide +kernel)
  have parsed : _ = template.manifest := Except.ok.inj (assembleFrom_eq_ok.1 accepted).parsed
  have only := claimed _ template accepted
  rw [← parsed] at only
  have shown := only.shown .null [] _ rfl (generateMain_eq_ok.2 ⟨[], "", rfl, rfl, rfl⟩)
    hostileFunction (by simp [bareStrings])
  exact absurd shown (by decide)

end Manifest

end TypstMcp.Template
