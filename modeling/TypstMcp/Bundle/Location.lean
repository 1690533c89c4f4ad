/-
Bundle.Location -- where an accepted path leads

`Grammar` says what an accepted path looks like in terms of the segments it is made of.

* `accepted_components`: under any root such a path is read as the root's components
  and then its segments, so resolving it goes down and nowhere else.
* `normalise_path_exact`: the check accepts the grammar, rewrites nothing, leads below
  every root, and tells apart what a filesystem that trims names would.
-/
import Mathlib.Data.List.DropRight
import TypstMcp.Bundle.Path
import TypstMcp.Theory.Ascii
import TypstMcp.Theory.Pathname
import TypstMcp.Theory.Pieces

namespace TypstMcp.Bundle

open TypstMcp.Theory TypstMcp.Theory.Pathname

set_option autoImplicit false

/-! ## The grammar -/

/-- The characters of a segment. -/
def segmentChar (c : Char) : Bool :=
  c.isAlphanum || c = '.' || c = '-' || c = '_' || c = ' '

/-- 1 to 255 bytes of segments with a slash between them. -/
def Grammar (raw : String) : Prop :=
  (1 ≤ raw.utf8ByteSize ∧ raw.utf8ByteSize ≤ 255) ∧
    ∃ parts : List (List Char), parts ≠ [] ∧ raw = String.ofList (['/'].intercalate parts) ∧
      ∀ part ∈ parts, (∀ c ∈ part, segmentChar c = true) ∧ GoodSegment part

theorem isAllowed_iff {c : Char} : isAllowed c = true ↔ segmentChar c = true ∨ c = '/' := by
  simp [isAllowed, segmentChar]

theorem segmentChar_slash : segmentChar '/' = false := by decide

theorem goodPath_iff {raw : String} : GoodPath raw ↔ Grammar raw := by
  constructor
  · intro good
    refine ⟨⟨?_, good.short⟩, segments raw, List.splitOn_ne_nil _ _,
      (joinSegments_segments raw).symm, fun part inside => ⟨fun c there => ?_, good.parts part inside⟩⟩
    · rw [Nat.one_le_iff_ne_zero]
      exact fun none => good.ne_empty (String.utf8ByteSize_eq_zero_iff.1 none)
    · rcases isAllowed_iff.1 (good.allowed c (Pieces.mem_of_mem_splitOn inside there)) with
        char | rfl
      · exact char
      · exact absurd there (Pieces.not_mem_of_mem_splitOn inside)
  · rintro ⟨⟨-, short⟩, parts, some, rfl, each⟩
    have apart : ∀ part ∈ parts, '/' ∉ part := by
      intro part inside slash
      have := (each part inside).1 '/' slash
      rw [segmentChar_slash] at this
      cases this
    have cut : segments (String.ofList (['/'].intercalate parts)) = parts := by
      rw [segments, String.toList_ofList]
      exact List.splitOn_intercalate '/' apart some
    refine ⟨short, fun c there => isAllowed_iff.2 ?_, fun part inside => ?_⟩
    · rw [String.toList_ofList] at there
      rcases Pieces.mem_intercalate there with rfl | ⟨part, inside, there⟩
      · exact .inr rfl
      · exact .inl ((each part inside).1 c there)
    · exact (each part (cut ▸ inside)).2

/-! ## Under a root -/

/-- The segments as names. -/
def names (path : String) : List String := (segments path).map String.ofList

theorem names_ne_nil (path : String) : names path ≠ [] := by
  simp [names, segments]

theorem join_names (path : String) : join (names path) = path := by
  have same : (names path).map String.toList = segments path := by
    rw [names, List.map_map]
    simp
  rw [join, same]
  exact joinSegments_segments path

/-- Each segment of an accepted path is one name. -/
theorem names_component {path : String} (good : GoodPath path) :
    ∀ name ∈ names path, Component name := by
  intro name inside
  obtain ⟨part, cut, rfl⟩ := List.mem_map.1 inside
  obtain ⟨some, dot, dotDot, -⟩ := good.parts part cut
  refine ⟨by simpa using some, ?_, ?_, fun same => dot ?_, fun same => dotDot ?_⟩
  · rw [String.toList_ofList]
    exact Pieces.not_mem_of_mem_splitOn cut
  · rw [String.toList_ofList]
    intro nul
    exact absurd (good.allowed _ (Pieces.mem_of_mem_splitOn cut nul)) (by decide)
  · simpa using congrArg String.toList same
  · simpa using congrArg String.toList same

/-- **Under any root an accepted path is read as its segments.** -/
theorem accepted_components {path : String} (good : GoodPath path) (root : String) :
    components (push root path) = components root ++ names path := by
  obtain ⟨name, rest, parts⟩ := List.exists_cons_of_ne_nil (names_ne_nil path)
  have each := names_component good
  rw [parts] at each
  have pushed := push_join root each
  rw [← parts, join_names] at pushed
  rw [pushed, components_pushAll root (names_component good)]

/-! ## Names a filesystem trims -/

/-- A name without the dots and spaces at its end. -/
def trimmed (name : String) : String :=
  String.ofList (name.toList.rdropWhile fun c => c = '.' || c = ' ')

theorem trimmed_segment {part : List Char} (good : GoodSegment part) :
    trimmed (String.ofList part) = String.ofList part := by
  obtain ⟨-, -, -, -, space, dot⟩ := good
  rw [trimmed, String.toList_ofList]
  refine congrArg _ (List.rdropWhile_eq_self_iff.2 fun some last => ?_)
  have ends := List.getLast?_eq_getLast_of_ne_nil some
  rw [ends] at space dot
  simp only [Bool.or_eq_true, decide_eq_true_eq] at last
  rcases last with same | same
  · exact dot (congrArg _ same)
  · exact space (congrArg _ same)

theorem trimmed_names {path : String} (good : GoodPath path) :
    (names path).map trimmed = names path := by
  rw [names, List.map_map]
  exact List.map_congr_left fun part inside => trimmed_segment (good.parts part inside)

theorem names_inj {path other : String} (same : names path = names other) : path = other := by
  rw [← join_names path, same, join_names]

/-- **Path validation accepts exactly its grammar and never rewrites.** -/
theorem normalise_path_exact :
    (∀ raw, (∃ path, normalisePath raw = .ok path) ↔ Grammar raw) ∧
      (∀ raw path, normalisePath raw = .ok path → path = raw) ∧
      (∀ raw path, normalisePath raw = .ok path → ∀ root, ∃ down, down ≠ [] ∧
        (∀ name ∈ down, Component name) ∧
        resolve (components (push root path)) = resolve (components root) ++ down) ∧
      ∀ raw raw' path path', normalisePath raw = .ok path → normalisePath raw' = .ok path' →
        path ≠ path' → ∀ root, (components (push root path)).map trimmed ≠
          (components (push root path')).map trimmed := by
  refine ⟨fun raw => ?_, fun raw path accepted => (normalisePath_eq_ok.1 accepted).2,
    fun raw path accepted root => ?_, fun raw raw' path path' accepted accepted' other root => ?_⟩
  · rw [← goodPath_iff]
    constructor
    · rintro ⟨path, accepted⟩
      exact (normalisePath_eq_ok.1 accepted).1
    · exact fun good => ⟨raw, normalisePath_good good⟩
  · obtain ⟨good, rfl⟩ := normalisePath_eq_ok.1 accepted
    have each := names_component good
    refine ⟨names path, names_ne_nil path, each, ?_⟩
    rw [accepted_components good, resolve_append _ fun name inside => (each name inside).dotDot]
  · obtain ⟨good, rfl⟩ := normalisePath_eq_ok.1 accepted
    obtain ⟨good', rfl⟩ := normalisePath_eq_ok.1 accepted'
    rw [accepted_components good, accepted_components good', List.map_append, List.map_append,
      trimmed_names good, trimmed_names good']
    exact fun same => other (names_inj (List.append_cancel_left same))

theorem normalise_path_exact_logo :
    normalisePath "assets/my logo.svg" = .ok "assets/my logo.svg" ∧
      ∃ down, down ≠ [] ∧ (∀ name ∈ down, Component name) ∧
        resolve (components (push "/srv/data/.." "assets/my logo.svg")) =
          resolve (components "/srv/data/..") ++ down := by
  have accepted : normalisePath "assets/my logo.svg" = .ok "assets/my logo.svg" := by
    decide +kernel
  exact ⟨accepted, normalise_path_exact.2.2.1 _ _ accepted "/srv/data/.."⟩

end TypstMcp.Bundle
