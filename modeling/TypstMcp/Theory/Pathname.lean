/-
Theory.Pathname -- paths as strings, and their components

A program builds a path by pushing strings onto a root; the operating system reads it
back as components.  A string that is a `Component` comes back as the one component
it was pushed as (`components_push`), so a path of them is read as it was meant
(`components_pushAll`).
-/
import Mathlib.Data.List.Infix

namespace TypstMcp.Theory.Pathname

set_option autoImplicit false

/-- `PathBuf::push`: an absolute part replaces the path, any other goes after a separator. -/
def push (path part : String) : String :=
  if part.toList.head? = some '/' then part
  else if path = "" ∨ path.toList.getLast? = some '/' then path ++ part
  else path ++ "/" ++ part

def pushAll (root : String) (parts : List String) : String := parts.foldl push root

/-- The root directory, or the name a relative path begins with. -/
def lead (first : List Char) : List String := if first = [] then ["/"] else [String.ofList first]

/-- The names between separators, the empty ones and `.` left out. -/
def names (parts : List (List Char)) : List String :=
  (parts.filter fun name => name ≠ [] ∧ name ≠ ['.']).map String.ofList

/-- `Path::components`. -/
def components (path : String) : List String :=
  if path = "" then []
  else match path.toList.splitOn '/' with
    | [] => []
    | first :: rest => lead first ++ names rest

/-- A string that names one entry of a directory, and not the directory or its parent. -/
structure Component (part : String) : Prop where
  some : part ≠ ""
  slash : '/' ∉ part.toList
  nul : '\x00' ∉ part.toList
  dot : part ≠ "."
  dotDot : part ≠ ".."

theorem components_of_split {path : String} {first : List Char} {rest : List (List Char)}
    (split : path.toList.splitOn '/' = first :: rest) (ne : path ≠ "") :
    components path = lead first ++ names rest := by
  rw [components, if_neg ne, split]

theorem Component.names {part : String} (one : Component part) : names [part.toList] = [part] := by
  have ne : part.toList ≠ [] := by simpa using one.some
  have dot : part.toList ≠ ['.'] := fun same => one.dot (String.ext_iff.2 same)
  simp [Pathname.names, ne, dot]

/-- What follows a separator is read after what comes before it. -/
theorem components_append_slash {text part : List Char} (more : '/' ∉ part) :
    components (String.ofList (text ++ '/' :: part)) =
      components (String.ofList (text ++ ['/'])) ++ names [part] := by
  obtain ⟨first, rest, split⟩ : ∃ first rest, text.splitOn '/' = first :: rest :=
    List.exists_cons_of_ne_nil (List.splitOn_ne_nil _ _)
  have whole : (text ++ '/' :: part).splitOn '/' = first :: (rest ++ [part]) := by
    rw [List.splitOn_append_cons_self, split, List.splitOn_eq_singleton more, List.cons_append]
  have front : (text ++ ['/']).splitOn '/' = first :: (rest ++ [[]]) := by
    rw [List.splitOn_append_cons_self, split, List.splitOn_nil, List.cons_append]
  rw [components_of_split (by rw [String.toList_ofList]; exact whole) (by simp),
    components_of_split (by rw [String.toList_ofList]; exact front) (by simp)]
  simp [names]

/-- A separator at the end of a path names nothing. -/
theorem components_slash {text : List Char} (ne : text ≠ []) :
    components (String.ofList (text ++ ['/'])) = components (String.ofList text) := by
  obtain ⟨first, rest, split⟩ : ∃ first rest, text.splitOn '/' = first :: rest :=
    List.exists_cons_of_ne_nil (List.splitOn_ne_nil _ _)
  have front : (text ++ ['/']).splitOn '/' = first :: (rest ++ [[]]) := by
    rw [List.splitOn_append_cons_self, split, List.splitOn_nil, List.cons_append]
  rw [components_of_split (by rw [String.toList_ofList]; exact front) (by simp),
    components_of_split (by rw [String.toList_ofList]; exact split) (by simpa using ne)]
  simp [names]

/-- **A component is read back as it was pushed.** -/
theorem components_push (path : String) {part : String} (one : Component part) :
    components (push path part) = components path ++ [part] := by
  have relative : part.toList.head? ≠ some '/' := by
    intro absolute
    exact one.slash (List.mem_of_head? absolute)
  rw [push, if_neg relative, ← one.names]
  by_cases bare : path = ""
  · subst bare
    rw [if_pos (Or.inl rfl), String.empty_append,
      components_of_split (List.splitOn_eq_singleton one.slash) one.some, one.names]
    simp [components, lead, names, one.some]
  · by_cases ends : path.toList.getLast? = some '/'
    · rw [if_pos (Or.inr ends)]
      have cut := List.dropLast_append_getLast? '/' ends
      have text : path ++ part = String.ofList (path.toList.dropLast ++ '/' :: part.toList) := by
        rw [String.ext_iff, String.toList_append, String.toList_ofList]
        conv_lhs => rw [← cut]
        simp
      rw [text, components_append_slash one.slash, cut, String.ofList_toList]
    · rw [if_neg (by simp [bare, ends])]
      have text : path ++ "/" ++ part = String.ofList (path.toList ++ '/' :: part.toList) := by
        rw [String.ext_iff, String.toList_ofList]
        simp
      rw [text, components_append_slash one.slash, components_slash (by simpa using bare),
        String.ofList_toList]

/-- **A path of components is read as it was meant.** -/
theorem components_pushAll (root : String) {parts : List String}
    (each : ∀ part ∈ parts, Component part) :
    components (pushAll root parts) = components root ++ parts := by
  induction parts generalizing root with
  | nil => simp [pushAll]
  | cons part rest ih =>
      obtain ⟨here, later⟩ := List.forall_mem_cons.1 each
      have next : pushAll root (part :: rest) = pushAll (push root part) rest := rfl
      rw [next, ih _ later, components_push root here, List.append_assoc, List.singleton_append]

/-! ## Parts pushed at once -/

/-- `parts.join("/")`. -/
def join (parts : List String) : String :=
  String.ofList (['/'].intercalate (parts.map String.toList))

theorem join_singleton (part : String) : join [part] = part := by
  simp [join]

theorem join_cons_cons (part next : String) (rest : List String) :
    join (part :: next :: rest) = part ++ "/" ++ join (next :: rest) := by
  rw [String.ext_iff]
  simp [join, List.intercalate_cons_cons]

theorem relative_of_component {part : String} (one : Component part) : part.toList.head? ≠ some '/' :=
  fun absolute => one.slash (List.mem_of_head? absolute)

theorem head_append {part more : String} (one : Component part) :
    (part ++ more).toList.head? = part.toList.head? := by
  rw [String.toList_append, List.head?_append_of_ne_nil _ (by simpa using one.some)]

theorem join_relative {part : String} {rest : List String} (one : Component part) :
    (join (part :: rest)).toList.head? ≠ some '/' := by
  cases rest with
  | nil => rw [join_singleton]; exact relative_of_component one
  | cons next rest =>
      rw [join_cons_cons, String.append_assoc, head_append one]
      exact relative_of_component one

/-- A path with the separator a part goes after. -/
def opened (path : String) : String :=
  if path = "" ∨ path.toList.getLast? = some '/' then path else path ++ "/"

theorem push_relative (path : String) {part : String} (relative : part.toList.head? ≠ some '/') :
    push path part = opened path ++ part := by
  unfold push opened
  rw [if_neg relative]
  split_ifs <;> rfl

theorem opened_push (path : String) {part : String} (one : Component part) :
    opened (push path part) = push path part ++ "/" := by
  have text : part.toList ≠ [] := by simpa using one.some
  have ends : (push path part).toList.getLast? = part.toList.getLast? := by
    rw [push_relative path (relative_of_component one), String.toList_append, List.getLast?_append_of_ne_nil _ text]
  refine if_neg (not_or.2 ⟨fun empty => ?_, fun slash => ?_⟩)
  · rw [empty] at ends
    exact text (List.getLast?_eq_none_iff.1 ends.symm)
  · exact one.slash (List.mem_of_getLast? (ends.symm.trans slash))

/-- Parts joined and pushed at once are pushed one by one. -/
theorem push_join (root : String) {part : String} {rest : List String}
    (each : ∀ p ∈ part :: rest, Component p) :
    push root (join (part :: rest)) = pushAll root (part :: rest) := by
  induction rest generalizing root part with
  | nil => rw [join_singleton]; rfl
  | cons next rest ih =>
      obtain ⟨here, later⟩ := List.forall_mem_cons.1 each
      have first : (part ++ "/" ++ join (next :: rest)).toList.head? ≠ some '/' := by
        rw [String.append_assoc, head_append here]
        exact relative_of_component here
      have one : push root (join (part :: next :: rest)) =
          push (push root part) (join (next :: rest)) := by
        rw [join_cons_cons, push_relative root first,
          push_relative _ (join_relative (later next List.mem_cons_self)), opened_push root here,
          push_relative root (relative_of_component here), String.append_assoc, String.append_assoc,
          String.append_assoc]
      rw [one, ih (push root part) later]
      rfl

/-! ## Lexical resolution -/

/-- One component on the way down: `..` takes the last name back, stays at the root, and is kept
where there is no name to take back. -/
def resolveOne (done : List String) (part : String) : List String :=
  if part = ".." then
    match done.getLast? with
    | none | some ".." => done ++ [".."]
    | some "/" => done
    | some _ => done.dropLast
  else done ++ [part]

/-- Resolving `..` by the text alone. -/
def resolve (parts : List String) : List String := parts.foldl resolveOne []

/-- **Names that are not `..` lead down.** -/
theorem resolve_append (parts : List String) {down : List String} (each : ∀ p ∈ down, p ≠ "..") :
    resolve (parts ++ down) = resolve parts ++ down := by
  unfold resolve
  rw [List.foldl_append]
  generalize parts.foldl resolveOne [] = done
  induction down generalizing done with
  | nil => simp
  | cons part rest ih =>
      obtain ⟨here, later⟩ := List.forall_mem_cons.1 each
      rw [List.foldl_cons, resolveOne, if_neg here, ih later, List.append_assoc,
        List.singleton_append]

end TypstMcp.Theory.Pathname
