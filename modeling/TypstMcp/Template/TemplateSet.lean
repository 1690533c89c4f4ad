/-
Template.TemplateSet -- a registry of templates loaded from a directory

`loadSet` loads every subdirectory that contains a `template.toml` and keeps the templates
under the names their manifests give; a later one replaces an earlier one of its name.

* `loadSet_ends`: what a load comes to, in any order.
* `loading_settled_iff`: it loses none and does not depend on the order exactly when no two
  subdirectories hold different templates of one name.
-/
import TypstMcp.Template.Mounted

namespace TypstMcp.Template

open TypstMcp.Bundle TypstMcp.Theory TypstMcp.Theory.Json

set_option autoImplicit false
set_option linter.dupNamespace false

variable {F : Type}

abbrev TemplateSet (F : Type) := BTreeMap String (Template F)

section Load

variable (v : Volume) (order : Order) (crates : Crates F) (root : RawPath)

/-- A subdirectory that contains a `template.toml`. -/
def containsTemplate (raw : Bytes) : Bool :=
  v.isDir (root ++ [raw]) && v.isFile (within (root ++ [raw]) "template.toml")

/-- The loop over the entries of the root. -/
def loadEach (fuel : Nat) : TemplateSet F → List DirEntry →
    Option (Except TemplateError (TemplateSet F))
  | templates, [] => some (.ok templates)
  | _, .error source :: _ => some (.error (.io (shown root) source))
  | templates, .ok raw :: rest =>
      if containsTemplate v root raw = false then loadEach fuel templates rest
      else match loadFrom v order crates (root ++ [raw]) fuel with
        | none => none
        | some (.error e) => some (.error e)
        | some (.ok template) =>
            loadEach fuel (templates.insert template.manifest.name template) rest

/-- Load every subdirectory of `root` that contains a `template.toml`. -/
def loadSet (fuel : Nat) : Option (Except TemplateError (TemplateSet F)) :=
  match v.readDir root with
  | .error _ => some (.ok ∅)
  | .ok entries => loadEach v order crates root fuel ∅ (order.arrange root entries)

end Load

/-! ## What a load comes to -/

section Outcome

variable (v : Volume) (crates : Crates F) (root : RawPath)

/-- One of these entries is a subdirectory with this template, under this name. -/
def HeldIn (entries : List DirEntry) (name : String) (template : Template F) : Prop :=
  ∃ raw, .ok raw ∈ entries ∧ containsTemplate v root raw = true ∧
    Holds v crates (root ++ [raw]) template ∧ template.manifest.name = name

/-- The entry is a name, and the template in it, if it contains one, loads. -/
def Loadable (entry : DirEntry) : Prop :=
  ∃ raw, entry = .ok raw ∧
    (containsTemplate v root raw = true → ∃ template, Holds v crates (root ++ [raw]) template)

/-- What loading these entries beside `templates` comes to. -/
structure Loads (templates : TemplateSet F) (entries : List DirEntry)
    (outcome : Except TemplateError (TemplateSet F)) : Prop where
  success : (∃ set, outcome = .ok set) ↔ ∀ entry ∈ entries, Loadable v crates root entry
  sound : ∀ set, outcome = .ok set → ∀ name template, set[name]? = some template →
    templates[name]? = some template ∨ HeldIn v crates root entries name template
  complete : ∀ set, outcome = .ok set → ∀ name,
    (templates[name]?.isSome ∨ ∃ template, HeldIn v crates root entries name template) →
      set[name]?.isSome

variable {v crates root} {order : Order} {templates : TemplateSet F} {rest : List DirEntry}
  {outcome : Except TemplateError (TemplateSet F)} {raw : Bytes}

theorem heldIn_cons {entry : DirEntry} {name : String} {template : Template F} :
    HeldIn v crates root (entry :: rest) name template ↔
      HeldIn v crates root [entry] name template ∨ HeldIn v crates root rest name template := by
  simp only [HeldIn, List.mem_cons, List.not_mem_nil, or_false, or_and_right, exists_or]

theorem Loads.none : Loads v crates root templates [] (.ok templates) where
  success := iff_of_true ⟨templates, rfl⟩ fun _ none_ => (List.not_mem_nil none_).elim
  sound set same name template there := .inl (Except.ok.inj same ▸ there)
  complete set same name there := by
    obtain rfl := Except.ok.inj same
    rcases there with kept | ⟨_, raw, none_, -⟩
    · exact kept
    · exact (List.not_mem_nil none_).elim

/-- An entry that does not load ends the loop. -/
theorem Loads.failed {entry : DirEntry} (bad : ¬ Loadable v crates root entry) (e : TemplateError) :
    Loads v crates root templates (entry :: rest) (.error e) where
  success := iff_of_false (fun ⟨_, same⟩ => by cases same) fun all => bad (all _ List.mem_cons_self)
  sound set same := by cases same
  complete set same := by cases same

/-- An entry without a template is passed over. -/
theorem Loads.skipped (bare : containsTemplate v root raw = false)
    (later : Loads v crates root templates rest outcome) :
    Loads v crates root templates (.ok raw :: rest) outcome := by
  have lacks : ¬ containsTemplate v root raw = true := by rw [bare]; exact Bool.false_ne_true
  have none_ : ∀ name template, ¬ HeldIn v crates root [.ok raw] name template := by
    rintro name template ⟨raw', inside, contains, -⟩
    obtain rfl := Except.ok.inj (List.mem_singleton.1 inside)
    exact lacks contains
  have same : ∀ name template, HeldIn v crates root (.ok raw :: rest) name template ↔
      HeldIn v crates root rest name template := fun name template => by
    rw [heldIn_cons, or_iff_right (none_ name template)]
  refine ⟨?_, fun set came name template there => ?_, fun set came name there => ?_⟩
  · rw [later.success, List.forall_mem_cons]
    exact ⟨fun all => ⟨⟨raw, rfl, fun contains => absurd contains lacks⟩, all⟩, And.right⟩
  · rw [same]
    exact later.sound set came name template there
  · simp only [same] at there
    exact later.complete set came name there

/-- A template that loads takes the place of one of its name. -/
theorem Loads.inserted {template : Template F} (contains : containsTemplate v root raw = true)
    (held : Holds v crates (root ++ [raw]) template)
    (later : Loads v crates root (templates.insert template.manifest.name template) rest outcome) :
    Loads v crates root templates (.ok raw :: rest) outcome := by
  have here : ∀ name other, HeldIn v crates root [.ok raw] name other ↔
      other = template ∧ name = template.manifest.name := by
    intro name other
    constructor
    · rintro ⟨raw', inside, -, held', rfl⟩
      obtain rfl := Except.ok.inj (List.mem_singleton.1 inside)
      obtain rfl := held.unique held'
      exact ⟨rfl, rfl⟩
    · rintro ⟨rfl, rfl⟩
      exact ⟨raw, List.mem_singleton_self _, contains, held, rfl⟩
  have lookup : ∀ name, (templates.insert template.manifest.name template)[name]? =
      if name = template.manifest.name then some template else templates[name]? := by
    intro name
    rw [Std.ExtTreeMap.getElem?_insert]
    refine if_congr ?_ rfl rfl
    rw [Std.LawfulEqCmp.compare_eq_iff_eq, eq_comm]
  refine ⟨?_, fun set came name other there => ?_, fun set came name there => ?_⟩
  · rw [later.success, List.forall_mem_cons]
    exact ⟨fun all => ⟨⟨raw, rfl, fun _ => ⟨template, held⟩⟩, all⟩, And.right⟩
  · rw [heldIn_cons, here]
    rcases later.sound set came name other there with kept | inRest
    · rw [lookup] at kept
      split_ifs at kept with same
      · exact .inr (.inl ⟨(Option.some.inj kept).symm, same⟩)
      · exact .inl kept
    · exact .inr (.inr inRest)
  · refine later.complete set came name ?_
    rw [lookup]
    split_ifs with same
    · exact .inl rfl
    · refine there.imp_right ?_
      rintro ⟨other, held'⟩
      rw [heldIn_cons, here] at held'
      exact ⟨other, held'.resolve_left fun first => same first.2⟩

theorem loadEach_ends (templates : TemplateSet F) (entries : List DirEntry) :
    ∃ outcome, Ends (fun fuel => loadEach v order crates root fuel templates entries) outcome ∧
      Loads v crates root templates entries outcome := by
  induction entries generalizing templates with
  | nil => exact ⟨_, ⟨0, fun _ _ => rfl⟩, .none⟩
  | cons entry rest ih =>
      cases entry with
      | error source =>
          exact ⟨_, ⟨0, fun _ _ => rfl⟩, .failed (fun ⟨_, same, _⟩ => by cases same) _⟩
      | ok raw =>
          by_cases contains : containsTemplate v root raw = false
          · obtain ⟨outcome, ⟨n, ends⟩, later⟩ := ih templates
            refine ⟨outcome, ⟨n, fun fuel enough => ?_⟩, later.skipped contains⟩
            simp only [loadEach, if_pos contains]
            exact ends fuel enough
          · rw [Bool.not_eq_false] at contains
            obtain ⟨loaded, ⟨n, ends⟩, is⟩ := loadFrom_ends v order crates (root ++ [raw])
            cases loaded with
            | error e =>
                refine ⟨.error e, ⟨n, fun fuel enough => ?_⟩, .failed ?_ e⟩
                · simp [loadEach, contains, ends fuel enough]
                · rintro ⟨raw', same, held⟩
                  obtain rfl := Except.ok.inj same
                  obtain ⟨template, held⟩ := held contains
                  cases (is template).2 held
            | ok template =>
                obtain ⟨outcome, ⟨m, others⟩, later⟩ :=
                  ih (templates.insert template.manifest.name template)
                refine ⟨outcome, ⟨max n m, fun fuel enough => ?_⟩,
                  later.inserted contains ((is template).1 rfl)⟩
                simp only [loadEach, contains, ends fuel (by omega), Bool.true_eq_false, if_false]
                exact others fuel (by omega)

theorem Loads.perm {entries entries' : List DirEntry} (same : entries.Perm entries')
    (loads : Loads v crates root templates entries outcome) :
    Loads v crates root templates entries' outcome := by
  have held : ∀ name template, HeldIn v crates root entries' name template ↔
      HeldIn v crates root entries name template := fun name template => by
    simp only [HeldIn, same.mem_iff]
  exact {
    success := loads.success.trans (forall_congr' fun _ => by rw [same.mem_iff])
    sound := by simpa only [held] using loads.sound
    complete := by simpa only [held] using loads.complete }

/-- The entries of a directory, none when it cannot be read. -/
def listing (v : Volume) (root : RawPath) : List DirEntry :=
  match v.readDir root with
  | .ok entries => entries
  | .error _ => []

/-- **In every order a load comes to what the entries of the root hold.** -/
theorem loadSet_ends (v : Volume) (order : Order) (crates : Crates F) (root : RawPath) :
    ∃ outcome, Ends (loadSet v order crates root) outcome ∧
      Loads v crates root ∅ (listing v root) outcome := by
  unfold loadSet listing
  cases v.readDir root with
  | error source => exact ⟨_, ⟨0, fun _ _ => rfl⟩, .none⟩
  | ok entries =>
      obtain ⟨outcome, ends, loads⟩ :=
        @loadEach_ends _ v crates root order ∅ (order.arrange root entries)
      exact ⟨outcome, ends, loads.perm (order.perm root entries)⟩

theorem loadEach_more {fuel more : Nat} (le : fuel ≤ more) {entries : List DirEntry}
    (came : loadEach v order crates root fuel templates entries = some outcome) :
    loadEach v order crates root more templates entries = some outcome := by
  induction entries generalizing templates with
  | nil => exact came
  | cons entry rest ih =>
      cases entry with
      | error source => exact came
      | ok raw =>
          simp only [loadEach] at came ⊢
          split_ifs at came ⊢
          · exact ih came
          · cases loaded : loadFrom v order crates (root ++ [raw]) fuel with
            | none =>
                rw [loaded] at came
                cases came
            | some ended =>
                rw [loaded] at came
                rw [loadFrom_more le loaded]
                cases ended with
                | error e => exact came
                | ok template => exact ih came

theorem loadSet_came {fuel : Nat} (came : loadSet v order crates root fuel = some outcome) :
    Ends (loadSet v order crates root) outcome := by
  refine ⟨fuel, fun more le => ?_⟩
  unfold loadSet at came ⊢
  cases read : v.readDir root with
  | error source =>
      rw [read] at came
      exact came
  | ok entries =>
      rw [read] at came
      exact loadEach_more le came

end Outcome

/-! ## Order and loss -/

section Settled

variable (v : Volume) (crates : Crates F) (root : RawPath)

/-- Loading does not depend on the order directories are listed in, and loses no template. -/
structure Settled : Prop where
  ends : ∀ order, ∃ outcome, Ends (loadSet v order crates root) outcome
  /-- Both fail, or both are the same set. -/
  same : ∀ order order' outcome outcome', Ends (loadSet v order crates root) outcome →
    Ends (loadSet v order' crates root) outcome' → outcome.toOption = outcome'.toOption
  represented : ∀ order set, Ends (loadSet v order crates root) (.ok set) →
    ∀ raw, .ok raw ∈ listing v root → containsTemplate v root raw = true →
      ∃ template, Ends (loadFrom v order crates (root ++ [raw])) (.ok template) ∧
        set[template.manifest.name]? = some template
  each : ∀ dir order order' outcome outcome', Ends (loadFrom v order crates dir) outcome →
    Ends (loadFrom v order' crates dir) outcome' → outcome.toOption = outcome'.toOption

/-- Every subdirectory with a template holds one, and two of them hold different ones of one
name. -/
structure Clash : Prop where
  loadable : ∀ entry ∈ listing v root, Loadable v crates root entry
  two : ∃ name template template', HeldIn v crates root (listing v root) name template ∧
    HeldIn v crates root (listing v root) name template' ∧ template ≠ template'

variable {v crates root}

theorem loadSet_loads {order : Order} {outcome : Except TemplateError (TemplateSet F)}
    (ends : Ends (loadSet v order crates root) outcome) :
    Loads v crates root ∅ (listing v root) outcome := by
  obtain ⟨_, ends', loads⟩ := loadSet_ends v order crates root
  rw [ends.unique ends']
  exact loads

/-- Without a clash the templates of a set are those the subdirectories hold. -/
theorem Loads.lookup {set : TemplateSet F} (clear : ¬ Clash v crates root)
    (loads : Loads v crates root ∅ (listing v root) (.ok set)) (name : String)
    (template : Template F) :
    set[name]? = some template ↔ HeldIn v crates root (listing v root) name template := by
  have sound : ∀ template, set[name]? = some template →
      HeldIn v crates root (listing v root) name template := fun template there =>
    (loads.sound set rfl name template there).resolve_left (by simp)
  refine ⟨sound template, fun held => ?_⟩
  obtain ⟨kept, there⟩ := Option.isSome_iff_exists.1
    (loads.complete set rfl name (.inr ⟨template, held⟩))
  by_contra other
  refine clear ⟨loads.success.1 ⟨set, rfl⟩, name, template, kept, held, sound kept there, ?_⟩
  rintro rfl
  exact other there

/-- **Loading is settled exactly when no two subdirectories clash.** -/
theorem loading_settled_iff (crates : Crates F) (v : Volume) (root : RawPath) :
    Settled v crates root ↔ ¬ Clash v crates root := by
  constructor
  · rintro settled ⟨loadable, name, template, template', held, held', ne⟩
    let order : Order := ⟨fun _ entries => entries, fun _ _ => .refl _⟩
    obtain ⟨outcome, ends⟩ := settled.ends order
    obtain ⟨set, rfl⟩ := (loadSet_loads ends).success.2 loadable
    have own : ∀ template, HeldIn v crates root (listing v root) name template →
        set[name]? = some template := by
      intro kept inside
      obtain ⟨raw, inside, contains, holds, named⟩ := inside
      obtain ⟨loaded, came, there⟩ := settled.represented order set ends raw inside contains
      obtain rfl := ((loadFrom_iff came loaded).1 rfl).unique holds
      rw [named] at there
      exact there
    exact ne (Option.some.inj ((own template held).symm.trans (own template' held')))
  · intro clear
    refine ⟨fun order => ?_, fun order order' outcome outcome' ends ends' => ?_,
      fun order set ends raw inside contains => ?_, fun dir order order' outcome outcome' ends ends' =>
        toOption_eq (loadFrom_iff ends) (loadFrom_iff ends')⟩
    · obtain ⟨outcome, ends, -⟩ := loadSet_ends v order crates root
      exact ⟨outcome, ends⟩
    · have loads := loadSet_loads ends
      have loads' := loadSet_loads ends'
      have both : (∃ set, outcome = .ok set) ↔ ∃ set, outcome' = .ok set :=
        loads.success.trans loads'.success.symm
      cases outcome with
      | error e =>
          cases outcome' with
          | error e' => rfl
          | ok set' =>
              obtain ⟨_, none_⟩ := both.2 ⟨set', rfl⟩
              cases none_
      | ok set =>
          obtain ⟨set', rfl⟩ := both.1 ⟨set, rfl⟩
          have same : set = set' := by
            refine Std.ExtTreeMap.ext_getElem? fun name => Option.ext fun template => ?_
            rw [loads.lookup clear, loads'.lookup clear]
          rw [same]
    · have loads := loadSet_loads ends
      obtain ⟨_, same, held⟩ := loads.success.1 ⟨set, rfl⟩ _ inside
      obtain rfl := Except.ok.inj same
      obtain ⟨template, held⟩ := held contains
      obtain ⟨_, came, is⟩ := loadFrom_ends v order crates (root ++ [raw])
      obtain rfl := (is template).2 held
      exact ⟨template, came, (loads.lookup clear _ _).2 ⟨raw, inside, contains, held, rfl⟩⟩

/-- A draft in a directory of its own. -/
def draftIn (dir text : String) (t : FileTree) : FileTree :=
  ((t.insert [dir] .dir).insert [dir, "template.toml"] (.file (utf8 draftToml))).insert
    [dir, "draft.typ"] (.file (utf8 text))

/-- Two drafts of one name. -/
def twoDrafts : FileTree :=
  draftIn "second" "#let draft(body) = strong(body)\n"
    (draftIn "first" "#let draft(body) = body\n" ((∅ : FileTree).insert [] .dir))

theorem twoDrafts_named : WellNamed twoDrafts := by decide +kernel

/-- The order in which one directory comes last. -/
def lastly (dir : String) : Order := ranked fun p => if p = [dir] then 1 else 0

/-- The text of the draft in a set. -/
def draftOf (loaded : Option (TemplateSet Int)) : Option FileContent := do
  let set ← loaded
  let template ← set["draft"]?
  (template.files.find? fun file => file.path = "draft.typ").map BundleFile.content

/-- The text of the draft that is kept when one directory comes last. -/
def keptDraft (dir : String) : Option FileContent :=
  (loadSet (mounted twoDrafts twoDrafts_named) (lastly dir) draftCrates [] 2).bind fun outcome =>
    draftOf outcome.toOption

/-- Of two drafts of one name only one is loaded, and the order decides which. -/
theorem two_drafts_unsettled : ¬ Settled (mounted twoDrafts twoDrafts_named) draftCrates [] := by
  intro settled
  have kept : ∀ dir content, keptDraft dir = some content → ∃ outcome,
      Ends (loadSet (mounted twoDrafts twoDrafts_named) (lastly dir) draftCrates []) outcome ∧
        draftOf outcome.toOption = some content := by
    intro dir content is
    obtain ⟨outcome, came, text⟩ := Option.bind_eq_some_iff.1 is
    exact ⟨outcome, loadSet_came came, text⟩
  obtain ⟨outcome, ends, first⟩ :=
    kept "first" (.text "#let draft(body) = body\n") (by decide +kernel)
  obtain ⟨outcome', ends', second⟩ :=
    kept "second" (.text "#let draft(body) = strong(body)\n") (by decide +kernel)
  rw [settled.same _ _ _ _ ends ends', second] at first
  revert first
  decide

end Settled

end TypstMcp.Template
