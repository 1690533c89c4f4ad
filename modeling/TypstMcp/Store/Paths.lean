/-
Store.Paths -- the paths the store builds

Three gatekeepers feed a path: a tenant has the shape `TenantId::parse` checks (or was
derived in that alphabet), an id is the kind's prefix and twenty-six letters and digits,
and a name is cleaned of all but letters, digits and `.-_`.  What they let through is one
component each, so a path of them is read by the operating system as it was meant.

* `store_paths`: every path of a `get` or a put lies where its request says, two entries
  never lie in each other, and an id that is not of the kind's shape builds no path.
-/
import TypstMcp.Theory.Ascii
import TypstMcp.Theory.Pathname
import TypstMcp.Store.Calls
import Mathlib.Data.Bool.AllAny

namespace TypstMcp.Store

open TypstMcp.Theory TypstMcp.Theory.Pathname
open TypstMcp.Auth (TenantId tenantShape alphabet utf8ByteSize_of_single)

set_option autoImplicit false

/-! ## The gatekeepers -/

/-- The kind's prefix, and exactly twenty-six ASCII letters and digits. -/
def Shaped (kind : Kind) (id : String) : Prop :=
  ∃ body : List Char, id = kind.idPrefix ++ String.ofList body ∧ body.length = 26 ∧
    ∀ c ∈ body, c.isAlphanum = true

theorem utf8Size_alphanum {c : Char} (alphanum : c.isAlphanum = true) : c.utf8Size = 1 := by
  have range := Ascii.isAlphanum_range alphanum
  have ascii : c.val ≤ 127 := by
    rw [UInt32.le_iff_toNat_le]
    show c.toNat ≤ 127
    omega
  simp [Char.utf8Size, ascii]

theorem utf8ByteSize_alphanum {chars : List Char} (each : ∀ c ∈ chars, c.isAlphanum = true) :
    (String.ofList chars).utf8ByteSize = chars.length :=
  utf8ByteSize_of_single fun c listed => utf8Size_alphanum (each c listed)

/-- **An id is let through exactly when it has its kind's shape.** -/
theorem validateId_ok_iff {kind : Kind} {id : String} :
    validateId kind id = .ok id ↔ Shaped kind id := by
  constructor
  · intro valid
    unfold validateId at valid
    split at valid
    · cases valid
    · rename_i body stripped
      split at valid
      · cases valid
      · rename_i good
        simp only [Bool.or_eq_true, decide_eq_true_eq, Bool.not_eq_true', not_or, not_not,
          Bool.not_eq_false, List.all_eq_true] at good
        obtain ⟨size, each⟩ := good
        refine ⟨body.toList, ?_, ?_, each⟩
        · rw [String.ofList_toList]
          exact stripPrefix_eq_some.1 stripped
        · rw [← utf8ByteSize_alphanum each, String.ofList_toList]
          exact size
  · rintro ⟨body, rfl, length, each⟩
    have stripped : stripPrefix (kind.idPrefix ++ String.ofList body) kind.idPrefix =
        some (String.ofList body) := stripPrefix_eq_some.2 rfl
    unfold validateId
    rw [stripped]
    simp only [utf8ByteSize_alphanum each, length, String.toList_ofList]
    simpa using each

theorem validateId_refused {kind : Kind} {id : String} (odd : ¬ Shaped kind id) :
    validateId kind id = .error (.badId kind id) := by
  cases valid : validateId kind id with
  | error error => rw [validateId_error valid]
  | ok id' =>
      obtain rfl := validateId_ok valid
      exact absurd (validateId_ok_iff.1 valid) odd

/-- Text of such characters, other than `.` and `..`, is one component. -/
theorem component_of_plain {part : String} (some : part ≠ "") (dot : part ≠ ".") (dotDot : part ≠ "..")
    (plain : ∀ c ∈ part.toList, c.isAlphanum = true ∨ c = '.' ∨ c = '-' ∨ c = '_') :
    Component part where
  some := some
  slash inside := by
    have := plain _ inside
    revert this
    decide
  nul inside := by
    have := plain _ inside
    revert this
    decide
  dot := dot
  dotDot := dotDot

/-- A text that begins with anything but a dot is neither of the two. -/
theorem component_of_head {part : String} {c : Char} (first : part.toList.head? = some c)
    (ne : c ≠ '.')
    (plain : ∀ c ∈ part.toList, c.isAlphanum = true ∨ c = '.' ∨ c = '-' ∨ c = '_') :
    Component part := by
  refine component_of_plain ?_ ?_ ?_ plain
  all_goals
    rintro rfl
    simp at first
  all_goals exact ne first.symm

theorem component_tenant (tenant : TenantId) : Component ("t_" ++ tenant.str) := by
  have shape := tenant.shape
  unfold tenantShape at shape
  simp only [Bool.and_eq_true, List.all_eq_true, List.contains_iff_mem] at shape
  have letters : ∀ c ∈ alphabet, c.isAlphanum = true := List.all_eq_true.1 (by decide)
  apply component_of_head (c := 't')
  · simp
  · decide
  · intro c inside
    rw [String.toList_append, List.mem_append] at inside
    rcases inside with front | rest
    · revert front
      simp
      rintro (rfl | rfl) <;> decide
    · exact .inl (letters c (shape.2 c rest))

theorem component_kind (kind : Kind) : Component kind.dir := by
  cases kind <;> exact ⟨by decide, by decide, by decide, by decide, by decide⟩

theorem component_id {kind : Kind} {id : String} (shaped : Shaped kind id) : Component id := by
  obtain ⟨body, rfl, -, each⟩ := shaped
  have front : ∀ c ∈ kind.idPrefix.toList, c.isAlphanum = true ∨ c = '.' ∨ c = '-' ∨ c = '_' := by
    cases kind <;> exact List.all_iff_forall_prop.1 (by decide)
  obtain ⟨c, first, ne⟩ : ∃ c, kind.idPrefix.toList.head? = some c ∧ c ≠ '.' := by
    cases kind <;> exact ⟨_, rfl, by decide⟩
  apply component_of_head (c := c)
  · rw [String.toList_append, List.head?_append, first]
    rfl
  · exact ne
  · intro c inside
    rw [String.toList_append, List.mem_append, String.toList_ofList] at inside
    rcases inside with inside | inside
    · exact front c inside
    · exact .inl (each c inside)

theorem component_safeName (name : String) : Component (safeName name) := by
  unfold safeName
  dsimp only
  split
  · exact ⟨by decide, by decide, by decide, by decide, by decide⟩
  · rename_i kept
    simp only [Bool.or_eq_true, List.isEmpty_iff, decide_eq_true_eq, not_or] at kept
    obtain ⟨c, rest, cleaned⟩ := List.exists_cons_of_ne_nil kept.1
    apply component_of_head (c := c)
    · rw [String.toList_ofList, cleaned]
      rfl
    · rintro rfl
      exact kept.2 (by rw [cleaned]; rfl)
    · intro c inside
      rw [String.toList_ofList, List.mem_filter] at inside
      simpa [or_assoc] using inside.2

theorem component_meta : Component metaName :=
  ⟨by decide, by decide, by decide, by decide, by decide⟩

/-! ## The paths of a call -/

/-- The paths a call is given; those below a directory being removed are the walk's own. -/
def Call.paths : Call → List Path
  | .createDirAll p | .pathExists p | .createFile p | .writeAll p _ | .removeFile p | .walk p
  | .read p | .readDir p | .metadata p => [p]
  | .rename p q => [p, q]
  | _ => []

/-- A path of a put: the entry's directory, the file in it or its metadata, a temporary file of the
store's own naming, or the directory of an entry that is evicted. -/
def Call.Confined (key : Key) (name : String) (c : Call) : Prop :=
  ∀ p ∈ c.paths, p = entryDir key ∨ p = entryDir key ++ [safeName name] ∨
    p = entryDir key ++ [metaName] ∨ (∃ ulid, p = partPath ulid) ∨ ∃ other, c = .walk (entryDir other)

theorem Call.Storing.confined {key : Key} {name : String} {c : Call} (storing : c.Storing key name) :
    c.Confined key name := by
  intro p built
  cases c with
  | createDirAll q =>
      obtain rfl := List.mem_singleton.1 built
      exact .inl storing
  | pathExists q =>
      obtain rfl := List.mem_singleton.1 built
      exact .inr (.inl storing)
  | createFile q | writeAll q _ =>
      obtain rfl := List.mem_singleton.1 built
      exact .inr (.inr (.inr (.inl storing)))
  | removeFile q =>
      obtain rfl := List.mem_singleton.1 built
      obtain part | file := storing
      · exact .inr (.inr (.inr (.inl part)))
      · exact .inr (.inl file)
  | rename q r =>
      obtain ⟨part, inside⟩ := storing
      rcases List.mem_pair.1 built with rfl | rfl
      · exact .inr (.inr (.inr (.inl part)))
      · exact inside.elim (fun file => .inr (.inl file)) fun file => .inr (.inr (.inl file))
  | walk q =>
      obtain ⟨other, rfl⟩ := storing
      exact .inr (.inr (.inr (.inr ⟨other, rfl⟩)))
  | now | newUlid | iterate _ | unlink _ | countQuota => exact absurd built List.not_mem_nil
  | _ => exact storing.elim

theorem fetched {p q : Path} {c : Call} (fetching : c.Fetching p) (built : q ∈ c.paths) : q = p := by
  cases c with
  | read r =>
      obtain rfl := List.mem_singleton.1 built
      exact fetching
  | lock _ | unlock _ _ | now => exact absurd built List.not_mem_nil
  | _ => exact fetching.elim

theorem confined_putWithId (limits : Limits) (codec : MetaCodec) (tenant : TenantId) (kind : Kind)
    (id name : String) (bytes : Bytes) (info : Meta) :
    (putWithId limits codec tenant kind id name bytes info).Calls
      (Call.Confined ⟨tenant, kind, id⟩ name) := by
  unfold putWithId
  split
  · trivial
  · rename_i id' valid
    obtain rfl := validateId_ok valid
    have none_ : ∀ {p : Path}, p ∉ ([] : List Path) := List.not_mem_nil
    refine ⟨fun p built => absurd built none_, fun index => ?_⟩
    simp only [Prog.ret_bind]
    exact Prog.calls_bind ((storing_putLocked _ name bytes info index).mono fun _ storing =>
      storing.confined) fun _ => ⟨fun p built => absurd built none_, fun _ => trivial⟩

/-- The components of an entry directory, and of what lies in it. -/
theorem components_entryDir (root : String) {key : Key} (shaped : Shaped key.kind key.id) :
    components (pushAll root (entryDir key)) = components root ++ entryDir key := by
  apply components_pushAll
  intro part listed
  simp only [entryDir, List.mem_cons, List.not_mem_nil, or_false] at listed
  rcases listed with rfl | rfl | rfl
  · exact component_tenant key.tenant
  · exact component_kind key.kind
  · exact component_id shaped

theorem components_file (root : String) {key : Key} (shaped : Shaped key.kind key.id) {file : String}
    (one : Component file) :
    components (pushAll root (entryDir key ++ [file])) =
      components root ++ ["t_" ++ key.tenant.str, key.kind.dir, key.id, file] := by
  have last : pushAll root (entryDir key ++ [file]) = push (pushAll root (entryDir key)) file :=
    List.foldl_append
  rw [last, components_push _ one, components_entryDir root shaped, List.append_assoc]
  rfl

/-- **Paths are contained and disjoint**, whatever tenant, kind, id and name come in. -/
theorem store_paths :
    (∀ tenant kind id name, ¬ Shaped kind id →
      Store.get tenant kind id name = .ret (.error (.badId kind id)) ∧
      ∀ limits codec bytes info, putWithId limits codec tenant kind id name bytes info =
        .ret (.error (.badId kind id))) ∧
    (∀ tenant kind id name, Shaped kind id →
      (Store.get tenant kind id name).Calls
        (fun c => ∀ p ∈ c.paths, p = entryDir ⟨tenant, kind, id⟩ ++ [safeName name]) ∧
      (∀ limits codec bytes info, (putWithId limits codec tenant kind id name bytes info).Calls
        (Call.Confined ⟨tenant, kind, id⟩ name)) ∧
      ∀ root file, file = safeName name ∨ file = metaName → Component file ∧
        components (pushAll root (entryDir ⟨tenant, kind, id⟩ ++ [file])) =
          components root ++ ["t_" ++ tenant.str, kind.dir, id, file]) ∧
    ∀ root (a b : Key), Shaped a.kind a.id → Shaped b.kind b.id → a ≠ b →
      pushAll root (entryDir a) ≠ pushAll root (entryDir b) ∧
      ¬ components (pushAll root (entryDir a)) <+: components (pushAll root (entryDir b)) := by
  refine ⟨fun tenant kind id name odd => ?_, fun tenant kind id name shaped => ?_,
    fun root a b shapedA shapedB ne => ?_⟩
  · have refused := validateId_refused odd
    constructor
    · rw [Store.get, refused]
      rfl
    · intro limits codec bytes info
      rw [putWithId, refused]
      rfl
  · refine ⟨(fetching_get tenant kind id name).mono fun c fetching p built => fetched fetching built,
      fun limits codec bytes info => confined_putWithId _ _ _ _ _ _ _ _, fun root file which => ?_⟩
    have one : Component file := by
      rcases which with rfl | rfl
      · exact component_safeName name
      · exact component_meta
    exact ⟨one, @components_file root ⟨tenant, kind, id⟩ shaped file one⟩
  · have apart : ¬ components (pushAll root (entryDir a)) <+: components (pushAll root (entryDir b)) := by
      rw [components_entryDir root shapedA, components_entryDir root shapedB,
        List.prefix_append_right_inj]
      intro under
      exact ne (entryDir_under under List.prefix_rfl)
    refine ⟨fun same => apart ?_, apart⟩
    rw [same]

end TypstMcp.Store
