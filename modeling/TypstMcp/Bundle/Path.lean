/-
Bundle.Path -- what a caller-supplied path may look like

`normalisePath` is the only judge of a path, and it never rewrites one:
`normalisePath_eq_ok` says that what it returns is the text it was given, and
`GoodPath` says which texts those are.
-/
import TypstMcp.Theory.Checked

namespace TypstMcp.Bundle

set_option autoImplicit false

/-- Longest accepted virtual path, in bytes. -/
def maxPathBytes : Nat := 255

/-- Why a caller-supplied path was refused. -/
inductive PathError
  | empty
  | tooLong
  | absolute
  | traversal
  | dotSegment
  | emptySegment
  | badChar (ch : Char)
  | paddedSegment (segment : String)
  deriving DecidableEq, Repr

/-- Characters a bundle path may contain; `Char.isAlphanum` is the ASCII test. -/
def isAllowed (ch : Char) : Bool :=
  ch.isAlphanum || ch = '.' || ch = '-' || ch = '_' || ch = ' ' || ch = '/'

def segments (path : String) : List (List Char) := path.toList.splitOn '/'

/-- `segments.join("/")`. -/
def joinSegments (parts : List (List Char)) : String := String.ofList (['/'].intercalate parts)

def checkSegment (segment : List Char) : Except PathError (List Char) :=
  if segment = [] then .error .emptySegment
  else if segment = ['.'] then .error .dotSegment
  else if segment = ['.', '.'] then .error .traversal
  else if segment.head? = some ' ' ∨ segment.getLast? = some ' ' ∨ segment.getLast? = some '.' then
    .error (.paddedSegment (String.ofList segment))
  else .ok segment

/-- Validate a caller-supplied path and return it in canonical form. -/
def normalisePath (raw : String) : Except PathError String :=
  if raw = "" then .error .empty
  else if maxPathBytes < raw.utf8ByteSize then .error .tooLong
  else if raw.toList.head? = some '/' then .error .absolute
  else match raw.toList.find? (!isAllowed ·) with
    | some ch => .error (.badChar ch)
    | none => do
        let parts ← (segments raw).mapM checkSegment
        return joinSegments parts

/-! ## The accepted paths -/

def GoodSegment (segment : List Char) : Prop :=
  segment ≠ [] ∧ segment ≠ ['.'] ∧ segment ≠ ['.', '.'] ∧
    segment.head? ≠ some ' ' ∧ segment.getLast? ≠ some ' ' ∧ segment.getLast? ≠ some '.'

instance (segment : List Char) : Decidable (GoodSegment segment) :=
  inferInstanceAs (Decidable (_ ∧ _))

structure GoodPath (path : String) : Prop where
  short : path.utf8ByteSize ≤ maxPathBytes
  allowed : ∀ ch ∈ path.toList, isAllowed ch = true
  parts : ∀ segment ∈ segments path, GoodSegment segment

instance (path : String) : Decidable (GoodPath path) :=
  decidable_of_iff
    (path.utf8ByteSize ≤ maxPathBytes ∧ path.toList.all isAllowed = true ∧
      ∀ segment ∈ segments path, GoodSegment segment)
    ⟨fun ⟨short, allowed, parts⟩ => ⟨short, List.all_eq_true.1 allowed, parts⟩,
      fun good => ⟨good.short, List.all_eq_true.2 good.allowed, good.parts⟩⟩

theorem checkSegment_eq_ok {segment part : List Char} :
    checkSegment segment = .ok part ↔ GoodSegment segment ∧ part = segment := by
  unfold checkSegment GoodSegment
  split_ifs with empty dot traversal padded
  · simp [empty]
  · simp [dot]
  · simp [traversal]
  · constructor
    · rintro ⟨⟩
    · rintro ⟨⟨-, -, -, head, space, dot⟩, -⟩
      rcases padded with bad | bad | bad
      · exact absurd bad head
      · exact absurd bad space
      · exact absurd bad dot
  · push Not at padded
    constructor
    · rintro ⟨⟩
      exact ⟨⟨empty, dot, traversal, padded⟩, rfl⟩
    · rintro ⟨-, rfl⟩; rfl

theorem mapM_checkSegment_eq_ok {given parts : List (List Char)} :
    given.mapM checkSegment = .ok parts ↔
      (∀ segment ∈ given, GoodSegment segment) ∧ parts = given :=
  Theory.mapM_check fun _ _ => checkSegment_eq_ok

theorem joinSegments_segments (path : String) : joinSegments (segments path) = path := by
  unfold joinSegments segments
  rw [List.intercalate_splitOn, String.ofList_toList]

namespace GoodPath

variable {path : String}

theorem ne_empty (good : GoodPath path) : path ≠ "" := by
  rintro rfl
  exact (good.parts [] (by simp [segments])).1 rfl

theorem not_absolute (good : GoodPath path) : path.toList.head? ≠ some '/' := by
  intro slash
  obtain ⟨rest, text⟩ : ∃ rest, path.toList = '/' :: rest := by
    cases found : path.toList with
    | nil => rw [found] at slash; cases slash
    | cons c rest => rw [found] at slash; cases slash; exact ⟨rest, rfl⟩
  refine (good.parts [] ?_).1 rfl
  unfold segments
  rw [text, List.splitOn_cons_eq_if_modifyHead]
  simp

end GoodPath

/-- **A path is accepted as it stands or refused.** -/
theorem normalisePath_eq_ok {raw path : String} :
    normalisePath raw = .ok path ↔ GoodPath raw ∧ path = raw := by
  unfold normalisePath
  split_ifs with empty long absolute
  · simp only [false_iff, not_and]
    intro good
    exact absurd empty good.ne_empty
  · simp only [false_iff, not_and]
    intro good
    exact absurd good.short (by omega)
  · simp only [false_iff, not_and]
    intro good
    exact absurd absolute good.not_absolute
  · cases found : raw.toList.find? (!isAllowed ·) with
    | some ch =>
        simp only [reduceCtorEq, false_iff, not_and]
        intro good
        have bad := List.find?_some found
        rw [good.allowed ch (List.mem_of_find?_eq_some found)] at bad
        cases bad
    | none =>
        have allowed : ∀ ch ∈ raw.toList, isAllowed ch = true := by
          intro ch inside
          have := List.find?_eq_none.1 found ch inside
          simpa using this
        have whole : ∀ parts, (segments raw).mapM checkSegment = .ok parts →
            joinSegments parts = raw := by
          intro parts checked
          rw [(mapM_checkSegment_eq_ok.1 checked).2, joinSegments_segments]
        cases checked : (segments raw).mapM checkSegment with
        | error e =>
            constructor
            · rintro ⟨⟩
            · rintro ⟨good, -⟩
              rw [mapM_checkSegment_eq_ok.2 ⟨good.parts, rfl⟩] at checked
              cases checked
        | ok parts =>
            have good : GoodPath raw :=
              ⟨by omega, allowed, (mapM_checkSegment_eq_ok.1 checked).1⟩
            constructor
            · rintro ⟨⟩; exact ⟨good, whole parts checked⟩
            · rintro ⟨-, rfl⟩; exact congrArg _ (whole parts checked)

theorem normalisePath_good {raw : String} (good : GoodPath raw) : normalisePath raw = .ok raw :=
  normalisePath_eq_ok.2 ⟨good, rfl⟩

example : normalisePath "assets/../../etc/passwd" = .error .traversal := by decide +kernel

end TypstMcp.Bundle
