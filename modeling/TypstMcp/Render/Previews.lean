/-
Render.Previews -- what is drawn changes nothing else

The pages to preview are a caller's choice, and doors differ in what they ask for: one
asks for none, one cuts the list short.  A compile draws last, page by page, so its
document is the same whatever is asked for, and the list succeeds page by page.

* `Apart`: the law, for any compile by pages.
* `compileBundle_apart`: it holds from the staged bundle to the document read back.
-/
import TypstMcp.Render.Compiled

namespace TypstMcp.Render

open TypstMcp.Bundle TypstMcp.Theory TypstMcp.Worker FileTree
open TypstMcp.Template (SourceMap)

set_option autoImplicit false

/-! ## The law -/

variable {ε : Type} {f : List Nat → Except ε CompiledDocument} {pages : List Nat}
variable {document base : CompiledDocument}

/-- A list of pages succeeds exactly when no page is asked for twice and each alone succeeds; the
document is the one without previews, and the previews are those of the pages alone, in order. -/
def Apart (f : List Nat → Except ε CompiledDocument) : Prop :=
  ∀ pages document, f pages = .ok document ↔
    pages.Nodup ∧ ∃ base, f [] = .ok base ∧
      List.Forall₂ (fun page preview => f [page] = .ok { base with previews := [preview] })
        pages document.previews ∧
      document = { base with previews := document.previews }

theorem apart_of_failed (failed : ∀ pages document, f pages ≠ .ok document) : Apart f := by
  intro pages document
  constructor
  · exact fun made => (failed pages document made).elim
  · rintro ⟨-, base, made, -⟩
    exact (failed [] base made).elim

/-- A compile that draws each page by itself. -/
theorem apart_of_drawn {draw : Nat → RenderedPreview → Prop}
    (each : ∀ pages document, f pages = .ok document ↔ pages.Nodup ∧
      List.Forall₂ draw pages document.previews ∧
      document = { base with previews := document.previews }) : Apart f := by
  have none_ : f [] = .ok { base with previews := [] } :=
    (each [] _).2 ⟨List.nodup_nil, .nil, rfl⟩
  have one : ∀ page preview, f [page] = .ok { base with previews := [preview] } ↔ draw page preview := by
    intro page preview
    rw [each]
    simp
  intro pages document
  rw [each]
  refine and_congr_right fun _ => ⟨?_, ?_⟩
  · rintro ⟨drawn, whole⟩
    exact ⟨_, none_, drawn.imp fun page preview drew => (one page preview).2 drew, whole⟩
  · rintro ⟨base', made, drawn, whole⟩
    obtain rfl := Except.ok.inj (none_.symm.trans made)
    exact ⟨drawn.imp fun page preview drew => (one page preview).1 drew, whole⟩

theorem forall₂_exists_map {α β γ : Type} {R : α → β → Prop} {g : β → γ} {as : List α}
    {cs : List γ} : List.Forall₂ (fun a c => ∃ b, R a b ∧ g b = c) as cs ↔
      ∃ bs, List.Forall₂ R as bs ∧ bs.map g = cs := by
  constructor
  · intro all
    induction all with
    | nil => exact ⟨[], .nil, rfl⟩
    | cons head _ ih =>
        obtain ⟨b, related, rfl⟩ := head
        obtain ⟨bs, rest, rfl⟩ := ih
        exact ⟨b :: bs, .cons related rest, rfl⟩
  · rintro ⟨bs, all, rfl⟩
    rw [List.forall₂_map_right_iff]
    exact all.imp fun _ b related => ⟨b, related, rfl⟩

/-- A compile that draws each page by itself, and what the parent makes of it. -/
theorem apart_of_compile {δ : Type} {compiled : List Nat → Except δ CompileOutput}
    {draw : Nat → Preview → Prop} {base : CompileOutput} {sourceMap : SourceMap}
    (drawn : ∀ pages out, compiled pages = .ok out ↔ List.Forall₂ draw pages out.previews ∧
      out = { base with previews := out.previews })
    (each : ∀ pages document, f pages = .ok document ↔ pages.Nodup ∧
      ∃ out, compiled pages = .ok out ∧ document = documentOf sourceMap out) : Apart f := by
  apply @apart_of_drawn _ _ (documentOf sourceMap base)
    (fun page shown => ∃ preview, draw page preview ∧ rendered preview.output = shown)
  intro pages document
  rw [each]
  apply and_congr_right
  intro _
  constructor
  · rintro ⟨out, made, rfl⟩
    obtain ⟨shown, same⟩ := (drawn pages out).1 made
    refine ⟨forall₂_exists_map.2 ⟨out.previews, shown, rfl⟩, ?_⟩
    rw [same]
    rfl
  · rintro ⟨shown, same⟩
    obtain ⟨previews, shown, read⟩ := forall₂_exists_map.1 shown
    refine ⟨{ base with previews }, (drawn pages _).2 ⟨shown, rfl⟩, ?_⟩
    rw [same, ← read]
    rfl

/-- Without previews it is the same document. -/
theorem Apart.bare (apart : Apart f) (made : f pages = .ok document) :
    f [] = .ok { document with previews := [] } := by
  obtain ⟨-, base, none_, -, whole⟩ := (apart pages document).1 made
  obtain ⟨-, _, -, undrawn, -⟩ := (apart [] base).1 none_
  have bare : base.previews = [] := List.forall₂_nil_left_iff.1 undrawn
  rw [none_, whole, ← bare]

/-- The first so many pages have the first so many previews. -/
theorem Apart.take (apart : Apart f) (made : f pages = .ok document) (count : Nat) :
    f (pages.take count) = .ok { document with previews := document.previews.take count } := by
  obtain ⟨distinct, base, none_, drawn, whole⟩ := (apart pages document).1 made
  refine (apart _ _).2 ⟨distinct.sublist (List.take_sublist _ _), base, none_, ?_, ?_⟩
  · exact List.forall₂_take count drawn
  · rw [whole]

/-! ## The compiler -/

section Compile

variable {F : Type} [F32 F] {typst : Typst F} {options : CompileOptions F} {bundle : Bundle}
variable {fonts : typst.Fonts}

/-- When a compile succeeds, and with what. -/
theorem compile_eq_ok {out : CompileOutput} : compile typst options bundle fonts = .ok out ↔
    ∃ world document, typst.world bundle fonts = .ok world ∧
      typst.warned world = (.ok document, out.diagnostics) ∧
      (typst.pages document).length ≤ options.maxPages ∧
      typst.pdf world document = .ok out.pdf ∧ out.pages = (typst.pages document).length ∧
      List.Forall₂ (fun page preview => renderPreview typst options document page = .ok preview)
        options.previewPages out.previews := by
  constructor
  · intro compiled
    obtain ⟨world, laid, compiled⟩ := bind_eq_ok.1 compiled
    unfold compileIn at compiled
    split at compiled
    · cases compiled
    next document warnings warned =>
      obtain ⟨⟨pdf, pages, previews⟩, exported, compiled⟩ := bind_eq_ok.1 compiled
      obtain rfl := pure_eq_ok.1 compiled
      have exported := mapError_eq_ok.1 exported
      unfold exportDocument at exported
      simp only at exported
      split_ifs at exported with long
      obtain ⟨_, written, exported⟩ := bind_eq_ok.1 exported
      obtain ⟨drawn, rendered, exported⟩ := bind_eq_ok.1 exported
      obtain ⟨rfl, rfl, rfl⟩ := by simpa using pure_eq_ok.1 exported
      exact ⟨world, document, mapError_eq_ok.1 laid, warned, Nat.not_lt.1 long,
        mapError_eq_ok.1 written, rfl, mapM_eq_ok.1 rendered⟩
  · rintro ⟨world, document, laid, warned, short, written, count, drawn⟩
    have exported : exportDocument typst options document world =
        .ok (out.pdf, (typst.pages document).length, out.previews) := by
      unfold exportDocument
      dsimp only
      rw [if_neg (Nat.not_lt.2 short)]
      exact bind_eq_ok.2 ⟨_, mapError_eq_ok.2 written, bind_eq_ok.2 ⟨_, mapM_eq_ok.2 drawn, rfl⟩⟩
    refine bind_eq_ok.2 ⟨world, mapError_eq_ok.2 laid, ?_⟩
    unfold compileIn
    rw [warned]
    refine bind_eq_ok.2 ⟨_, mapError_eq_ok.2 exported, ?_⟩
    obtain ⟨pdf, pages, previews, diagnostics⟩ := out
    obtain rfl : pages = _ := count
    rfl

/-- What a compile comes to, whatever it is asked to draw. -/
theorem compile_by_page (typst : Typst F) (options : CompileOptions F) (bundle : Bundle)
    (fonts : typst.Fonts) :
    (∀ pages out, compile typst { options with previewPages := pages } bundle fonts ≠ .ok out) ∨
    ∃ (document : typst.Document) (base : CompileOutput), ∀ pages out,
      compile typst { options with previewPages := pages } bundle fonts = .ok out ↔
        List.Forall₂ (fun page preview => renderPreview typst options document page = .ok preview)
          pages out.previews ∧
        out = { base with previews := out.previews } := by
  by_cases made : ∃ base, compile typst { options with previewPages := [] } bundle fonts = .ok base
  · obtain ⟨base, made⟩ := made
    obtain ⟨world, document, laid, warned, short, written, count, -⟩ := compile_eq_ok.1 made
    refine .inr ⟨document, base, fun pages out => ?_⟩
    constructor
    · intro compiled
      obtain ⟨world', document', laid', warned', -, written', count', drawn⟩ := compile_eq_ok.1 compiled
      obtain rfl := Except.ok.inj (laid.symm.trans laid')
      obtain ⟨same, told⟩ := Prod.mk.inj (warned.symm.trans warned')
      obtain rfl := Except.ok.inj same
      refine ⟨drawn, ?_⟩
      obtain ⟨pdf, pages, previews, diagnostics⟩ := out
      have same : base.pdf = pdf := Except.ok.inj (written.symm.trans written')
      have told : base.diagnostics = diagnostics := told
      have count' : pages = _ := count'
      rw [← told, count', ← count, ← same]
    · rintro ⟨drawn, whole⟩
      refine compile_eq_ok.2 ⟨world, document, laid, ?_, short, ?_, ?_, drawn⟩
      · rw [whole]
        exact warned
      · rw [whole]
        exact written
      · rw [whole]
        exact count
  · refine .inl fun pages out compiled => made ?_
    obtain ⟨world, document, laid, warned, short, written, count, -⟩ := compile_eq_ok.1 compiled
    exact ⟨{ out with previews := [] }, compile_eq_ok.2
      ⟨world, document, laid, warned, short, written, count, .nil⟩⟩

end Compile

/-! ## From the staged bundle to the document -/

section Whole

variable {F : Type} [F32 F] {typst : Typst F} {workspaceParent : Path} {name : String}
  {fontDirs : List Path} {bundle : Bundle} {sourceMap : SourceMap} {limits : JobLimits}
  {t t' : FileTree} {prepared : PreparedJob}

/-- A bundle is staged alike whatever its job is limited to. -/
theorem stage_apart (other : JobLimits)
    (staged : stage workspaceParent name bundle fontDirs limits t = .ok (prepared, t')) :
    stage workspaceParent name bundle fontDirs other t =
      .ok ({ prepared with job := { prepared.job with limits := other } }, t') := by
  obtain ⟨above, created, staged⟩ := bind_eq_ok.1 staged
  obtain ⟨workspace, made, staged⟩ := bind_eq_ok.1 staged
  obtain ⟨input, inputs, staged⟩ := bind_eq_ok.1 staged
  obtain ⟨output, outputs, staged⟩ := bind_eq_ok.1 staged
  obtain ⟨staging, copied, staged⟩ := bind_eq_ok.1 staged
  obtain ⟨rfl, rfl⟩ := Prod.mk.inj (pure_eq_ok.1 staged)
  exact bind_eq_ok.2 ⟨above, created, bind_eq_ok.2 ⟨workspace, made, bind_eq_ok.2 ⟨input, inputs,
    bind_eq_ok.2 ⟨output, outputs, bind_eq_ok.2 ⟨staging, copied, rfl⟩⟩⟩⟩⟩

/-- When a staged bundle becomes a document, and which. -/
theorem compileBundle_eq_ok {main : String} {files : List BundleFile} {inputs : BTreeMap String String}
    {document : CompiledDocument} (closed : Closed t)
    (made : Bundle.new main files inputs limits.maxBundleBytes = .ok bundle)
    (staged : stage workspaceParent name bundle fontDirs limits t = .ok (prepared, t')) :
    compileBundle typst workspaceParent name fontDirs bundle sourceMap limits t = .ok document ↔
      limits.previewPages.Nodup ∧ ∃ out, compileJob typst t' prepared.job bundle = .ok out ∧
        document = documentOf sourceMap out := by
  obtain ⟨-, fails, finishes⟩ := @execute_staged t t' workspaceParent name bundle fontDirs limits
    prepared F _ typst main files inputs closed made staged
  obtain rfl := stage_limits closed staged
  cases compiled : compileJob typst t' prepared.job bundle with
  | error error =>
      have whole := @compileBundle_staged F _ typst workspaceParent name fontDirs bundle sourceMap
        _ t t' prepared staged _ _ (fails error compiled)
      rw [whole]
      simp [receive]
  | ok out =>
      obtain ⟨t'', written, finished⟩ := finishes out compiled
      have whole := @compileBundle_staged F _ typst workspaceParent name fontDirs bundle sourceMap
        _ t t' prepared staged _ t'' finished
      rw [whole]
      by_cases distinct : prepared.job.limits.previewPages.Nodup
      · rw [receive_ok sourceMap ((readOutputs_execute compiled written).2 ⟨rfl, distinct⟩)]
        simp [distinct, eq_comm]
      · cases read : readOutputs t'' prepared.job (out.previews.map Preview.metadata) with
        | ok outputs => exact absurd ((readOutputs_execute compiled written).1 read).2 distinct
        | error cause =>
            rw [receive_internal read]
            simp [distinct]

/-- **What is drawn changes nothing else.**  From the bundle that is staged to the document that is
read back: a list of pages succeeds exactly when it names none twice and each page alone succeeds, and
then the PDF, the number of pages and the diagnostics are those of the compile that draws nothing, and
the previews those of the pages alone. -/
theorem compileBundle_apart (typst : Typst F) (sourceMap : SourceMap) {main : String}
    {files : List BundleFile} {inputs : BTreeMap String String} (closed : Closed t)
    (made : Bundle.new main files inputs limits.maxBundleBytes = .ok bundle) :
    Apart fun pages => compileBundle typst workspaceParent name fontDirs bundle sourceMap
      { limits with previewPages := pages } t := by
  cases staged : stage workspaceParent name bundle fontDirs limits t with
  | error kind =>
      apply apart_of_failed
      intro pages document compiled
      obtain ⟨⟨other, t'⟩, again, -⟩ := bind_eq_ok.1 compiled
      have again := stage_apart limits (mapError_eq_ok.1 again)
      rw [staged] at again
      cases again
  | ok result =>
      obtain ⟨prepared, t'⟩ := result
      have each : ∀ pages document, compileBundle typst workspaceParent name fontDirs bundle sourceMap
          { limits with previewPages := pages } t = .ok document ↔ pages.Nodup ∧
          ∃ out, compile typst { compileOptions F { prepared.job with limits } with previewPages := pages }
            bundle (typst.fontLibrary t' prepared.job.fontDirs) = .ok out ∧
            document = documentOf sourceMap out := by
        intro pages document
        have again := stage_apart { limits with previewPages := pages } staged
        have whole := @compileBundle_eq_ok F _ typst workspaceParent name fontDirs bundle sourceMap
          { limits with previewPages := pages } t t' _ main files inputs document closed made again
        exact whole
      rcases compile_by_page typst (compileOptions F { prepared.job with limits }) bundle
          (typst.fontLibrary t' prepared.job.fontDirs) with failed | ⟨document, base, drawn⟩
      · apply apart_of_failed
        intro pages document compiled
        obtain ⟨-, out, compiled, -⟩ := (each pages document).1 compiled
        exact failed pages out compiled
      · exact apart_of_compile drawn each

end Whole

end TypstMcp.Render
