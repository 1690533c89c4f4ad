/-
Worker.Compile -- running the compiler and turning a document into bytes

`Typst` stands for the compiler and its exporters, and `F32` for the arithmetic the
size of a preview is worked out in.  A page is drawn by a function of the page, so
what is written for a page number does not depend on when it is drawn.

* `compile_drawn`: the previews of a compile are the pages asked for, in their order,
  each between 1 and the number of pages.
-/
import TypstMcp.Render.Diagnostic
import TypstMcp.Worker.Staging

namespace TypstMcp.Worker

open TypstMcp.Bundle TypstMcp.Theory
open TypstMcp.Render (Diagnostic Severity isError)

set_option autoImplicit false

/-! ## The arithmetic of sizes -/

/-- The operations of `f32` that a preview is sized with; `toNat` is the cast to an integer and
`fixed` the text with no decimals. -/
class F32 (F : Type) extends Mul F, Div F, Min F, Max F where
  isFinite : F → Bool
  lt : F → F → Bool
  le : F → F → Bool
  round : F → F
  ofNat : Nat → F
  toNat : F → Nat
  fixed : F → String

def u32Max : Nat := 4294967295

section Sizes

variable {F : Type} [F32 F]

/-- Shrink `requested` until neither edge exceeds `maxPx`. -/
def clampScale (requested widthPt heightPt : F) (maxPx : Nat) : F :=
  -- a request that is no positive number means the default
  let requested :=
    if F32.isFinite requested && F32.lt (F32.ofNat 0) requested then requested else F32.ofNat 1
  let longest := max widthPt heightPt
  if !F32.isFinite longest || F32.le longest (F32.ofNat 0) then requested
  else min (F32.ofNat maxPx / longest) requested

/-- The edge of the pixmap the renderer will allocate, when it is a `u32`. -/
def predictedAxis (scale pt : F) : Option Nat :=
  let px := max (F32.round (scale * pt)) (F32.ofNat 1)
  if F32.isFinite px && F32.le px (F32.ofNat u32Max) then some (F32.toNat px) else none

def predictedPixels (widthPt heightPt scale : F) : Option (Nat × Nat) := do
  let width ← predictedAxis scale widthPt
  let height ← predictedAxis scale heightPt
  return (width, height)

end Sizes

/-! ## The compiler -/

/-- The compiler and its exporters: `warned` lays a document out, and returns the warnings
whether or not there is one. -/
structure Typst (F : Type) where
  Fonts : Type
  World : Type
  Document : Type
  Page : Type
  Pixmap : Type
  fontLibrary : FileTree → List Path → Fonts
  world : Bundle → Fonts → Except String World
  warned : World → Except (List Diagnostic) Document × List Diagnostic
  pages : Document → List Page
  pdf : World → Document → Except (List Diagnostic) Bytes
  size : Page → F × F
  render : Page → F → Pixmap
  width : Pixmap → Nat
  height : Pixmap → Nat
  encodePng : Pixmap → Option Bytes

/-- Knobs the caller controls, all of them bounded. -/
structure CompileOptions (F : Type) where
  maxPages : Nat
  previewPages : List Nat
  previewScale : F
  previewMaxPx : Nat

/-- One rasterised page; `page` counts from 1. -/
structure Preview where
  page : Nat
  width : Nat
  height : Nat
  png : Bytes
  deriving DecidableEq, Repr

/-- A successful compile, with its warnings. -/
structure CompileOutput where
  pdf : Bytes
  pages : Nat
  previews : List Preview
  diagnostics : List Diagnostic

/-- Why a compile did not produce a PDF. -/
inductive CompileErrorKind (F : Type)
  | source
  | tooManyPages (pages limit : Nat)
  | notExported
  | noSuchPage (page pages : Nat)
  | pageTooLarge (page : Nat) (widthPt heightPt : F) (maxPx : Nat)
  | preview (page : Nat)
  | world (message : String)

def CompileErrorKind.message {F : Type} [F32 F] : CompileErrorKind F → String
  | source => "compilation failed"
  | tooManyPages pages limit =>
      "document has " ++ toString pages ++ " pages; the limit is " ++ toString limit
  | notExported => "PDF export failed"
  | noSuchPage page pages =>
      "page " ++ toString page ++ " was requested for preview but the document has " ++
        toString pages
  | pageTooLarge page widthPt heightPt maxPx =>
      "page " ++ toString page ++ " is " ++ F32.fixed widthPt ++ "x" ++ F32.fixed heightPt ++
        "pt, which cannot be previewed within " ++ toString maxPx ++ "px per side"
  | preview page => "could not encode a preview for page " ++ toString page
  | world message => message

/-- A failed compile, with everything the compiler had to say about it. -/
structure CompileError (F : Type) where
  kind : CompileErrorKind F
  own : List Diagnostic := []

namespace CompileError

variable {F : Type} [F32 F]

/-- Append warnings gathered before the failure. -/
def extend (error : CompileError F) (warnings : List Diagnostic) : CompileError F :=
  { error with own := error.own ++ warnings }

/-- The compiler's own diagnostics, after one of the failure where none of them is an error. -/
def diagnostics (error : CompileError F) : List Diagnostic :=
  if error.own.any isError then error.own
  else Diagnostic.bare .error error.kind.message :: error.own

end CompileError

section Compile

variable {F : Type} [F32 F] (typst : Typst F) (options : CompileOptions F)

/-- One page of the previews, drawn. -/
def renderPreview (document : typst.Document) (number : Nat) : Except (CompileError F) Preview :=
  let pages := typst.pages document
  -- page 0 is no page, and the list counts from 0
  match if number = 0 then none else pages[number - 1]? with
  | none => .error ⟨.noSuchPage number pages.length, []⟩
  | some page =>
      let (widthPt, heightPt) := typst.size page
      let scale := clampScale options.previewScale widthPt heightPt options.previewMaxPx
      let tooLarge := .error ⟨.pageTooLarge number widthPt heightPt options.previewMaxPx, []⟩
      match predictedPixels widthPt heightPt scale with
      | none => tooLarge
      | some (pxW, pxH) =>
          if options.previewMaxPx < pxW ∨ options.previewMaxPx < pxH then tooLarge
          else
            let pixmap := typst.render page scale
            match typst.encodePng pixmap with
            | none => .error ⟨.preview number, []⟩
            | some png => .ok ⟨number, typst.width pixmap, typst.height pixmap, png⟩

def renderPreviews (document : typst.Document) : Except (CompileError F) (List Preview) :=
  options.previewPages.mapM (renderPreview typst options document)

/-- Everything after a successful layout: the cap on pages, the PDF, the previews. -/
def exportDocument (document : typst.Document) (world : typst.World) :
    Except (CompileError F) (Bytes × Nat × List Preview) :=
  let pages := (typst.pages document).length
  if options.maxPages < pages then .error ⟨.tooManyPages pages options.maxPages, []⟩
  else do
    let pdf ← (typst.pdf world document).mapError (⟨.notExported, ·⟩)
    let previews ← renderPreviews typst options document
    return (pdf, pages, previews)

def compileIn (world : typst.World) : Except (CompileError F) CompileOutput :=
  match typst.warned world with
  | (.error errors, warnings) => .error (CompileError.extend ⟨.source, errors⟩ warnings)
  | (.ok document, warnings) => do
      let (pdf, pages, previews) ←
        (exportDocument typst options document world).mapError (·.extend warnings)
      return { pdf, pages, previews, diagnostics := warnings }

/-- Compile a bundle to a PDF, plus any requested page previews. -/
def compile (bundle : Bundle) (fonts : typst.Fonts) : Except (CompileError F) CompileOutput := do
  let world ← (typst.world bundle fonts).mapError (⟨.world ·, []⟩)
  compileIn typst options world

end Compile

/-! ## What a compile has drawn -/

variable {F : Type} [F32 F] {typst : Typst F} {options : CompileOptions F}

/-- The previews are the pages asked for, in their order, and what is drawn for a page is the same
each time. -/
structure CompileOutput.Drawn (out : CompileOutput) (pages : List Nat) : Prop where
  asked : out.previews.map Preview.page = pages
  within : ∀ preview ∈ out.previews, 1 ≤ preview.page ∧ preview.page ≤ out.pages
  same : ∀ one ∈ out.previews, ∀ other ∈ out.previews, one.page = other.page → one = other

theorem renderPreview_page {document : typst.Document} {number : Nat} {preview : Preview}
    (drawn : renderPreview typst options document number = .ok preview) :
    preview.page = number ∧ 1 ≤ number ∧ number ≤ (typst.pages document).length := by
  unfold renderPreview at drawn
  by_cases zero : number = 0
  · simp [zero] at drawn
  · simp only [if_neg zero] at drawn
    cases found : (typst.pages document)[number - 1]? with
    | none => simp [found] at drawn
    | some page =>
        have bound := (List.getElem?_eq_some_iff.1 found).1
        simp only [found] at drawn
        repeat' split at drawn
        all_goals cases drawn
        exact ⟨rfl, by omega, by omega⟩

/-- A compile that succeeds has laid a document out and drawn each page asked for. -/
theorem compile_rendered {bundle : Bundle} {fonts : typst.Fonts} {out : CompileOutput}
    (compiled : compile typst options bundle fonts = .ok out) :
    ∃ document, out.pages = (typst.pages document).length ∧
      List.Forall₂ (fun number preview => renderPreview typst options document number = .ok preview)
        options.previewPages out.previews := by
  obtain ⟨world, -, compiled⟩ := bind_eq_ok.1 compiled
  unfold compileIn at compiled
  split at compiled
  · cases compiled
  next document warnings _ =>
    obtain ⟨⟨pdf, pages, previews⟩, exported, compiled⟩ := bind_eq_ok.1 compiled
    obtain rfl := pure_eq_ok.1 compiled
    have exported := mapError_eq_ok.1 exported
    unfold exportDocument at exported
    simp only at exported
    split_ifs at exported
    obtain ⟨_, -, exported⟩ := bind_eq_ok.1 exported
    obtain ⟨drawn, rendered, exported⟩ := bind_eq_ok.1 exported
    obtain ⟨-, rfl, rfl⟩ := by simpa using pure_eq_ok.1 exported
    exact ⟨document, rfl, mapM_eq_ok.1 rendered⟩

/-- **What a compile has drawn** is what it was asked to draw. -/
theorem compile_drawn {bundle : Bundle} {fonts : typst.Fonts} {out : CompileOutput}
    (compiled : compile typst options bundle fonts = .ok out) : out.Drawn options.previewPages := by
  obtain ⟨document, pages, rendered⟩ := compile_rendered compiled
  have drawn : ∀ preview ∈ out.previews,
      renderPreview typst options document preview.page = .ok preview := by
    intro preview inside
    obtain ⟨index, bound, rfl⟩ := List.getElem_of_mem inside
    have drawn := rendered.get (rendered.length_eq ▸ bound) bound
    rw [List.get_eq_getElem, List.get_eq_getElem] at drawn
    rwa [(renderPreview_page drawn).1]
  refine ⟨?_, ?_, ?_⟩
  · exact List.forall₂_eq_eq_eq ▸ List.forall₂_map_left_iff.2
      (rendered.flip.imp fun preview number drawn => (renderPreview_page drawn).1)
  · intro preview inside
    rw [pages]
    exact (renderPreview_page (drawn preview inside)).2
  · intro one here other there same
    have again := drawn one here
    rw [same, drawn other there] at again
    exact (Except.ok.inj again).symm

end TypstMcp.Worker
