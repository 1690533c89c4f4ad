/-
Render.Result -- storing what a render made

`storeResult` puts the PDF under a fresh id and then each preview beside it, one put
after another.  A put that fails undoes itself; the puts before it stay, and with them
their bytes on the tenant's account.

* `result_undone`: exactly when a result that cannot be stored leaves the tenant's
  store as it was, whatever call on the file system fails.
-/
import TypstMcp.Render.Diagnostic
import TypstMcp.Store.Faults
import TypstMcp.Store.Tenants

namespace TypstMcp.Render

open TypstMcp.Theory TypstMcp.Theory.Table
open TypstMcp.Auth (TenantId)
open TypstMcp.Store

set_option autoImplicit false
set_option linter.unusedSectionVars false

/-! ## What a render made -/

/-- A rasterised page. -/
structure RenderedPreview where
  page : Nat
  width : Nat
  height : Nat
  png : Bytes
  deriving DecidableEq, Repr

structure RenderResult where
  jobId : String
  url : String
  pages : Nat
  bytes : Nat
  expiresAt : Nat
  diagnostics : List Diagnostic
  pdf : Bytes
  previews : List RenderedPreview
  deriving DecidableEq, Repr

def documentName : String := "doc.pdf"

def previewName (page : Nat) : String := "page-" ++ toString page ++ ".png"

/-- An absolute URL under the public base. -/
def configUrl (publicUrl path : String) : String :=
  publicUrl ++ "/" ++ String.ofList (path.toList.dropWhile (· = '/'))

/-- `Meta::new`. -/
def metaOf (filename contentType : String) : Meta where
  filename := some filename
  contentType := some contentType

/-! ## Storing it -/

section Storing

variable (limits : Limits) (codec : MetaCodec) (publicUrl : String) (tenant : TenantId)

def storePreviews (id : String) : List RenderedPreview → StoreProg (Except StoreError Unit)
  | [] => return .ok ()
  | preview :: rest => do
      match ← putWithId limits codec tenant .output id (previewName preview.page) preview.png
          (metaOf (previewName preview.page) "image/png") with
      | .error error => return .error error
      | .ok _ => storePreviews id rest

/-- `RenderService::store_result`; its error is the store's, passed on. -/
def storeResult (pdf : Bytes) (pages : Nat) (previews : List RenderedPreview)
    (diagnostics : List Diagnostic) : StoreProg (Except StoreError RenderResult) := do
  match ← put limits codec tenant .output documentName pdf
      (metaOf documentName "application/pdf") with
  | .error error => return .error error
  | .ok entry =>
    match ← storePreviews limits codec tenant entry.id previews with
    | .error error => return .error error
    | .ok () =>
        return .ok {
          jobId := entry.id
          url := configUrl publicUrl
            ("files/" ++ tenant.str ++ "/" ++ entry.id ++ "/" ++ documentName)
          pages
          bytes := pdf.length
          expiresAt := entry.expiresAt
          diagnostics
          pdf
          previews }

end Storing

/-! ## What is left of a result that cannot be stored -/

/-- The tenant's entries, the files in them, its bytes and its number of entries are as they were. -/
structure Unchanged (tenant : TenantId) (w w' : Solo) : Prop where
  entries : ∀ key, Of tenant key → w'.index.entries.lookup key = w.index.entries.lookup key
  files : ∀ key, Of tenant key → w.index.entries.lookup key ≠ none →
    ∀ p, entryDir key <+: p → w'.disk.lookup p = w.disk.lookup p
  bytes : tally w'.index.perTenant tenant = tally w.index.perTenant tenant
  count : tally w'.index.perTenantEntries tenant = tally w.index.perTenantEntries tenant

/-- The quotas let the tenant have a new entry of this size. -/
def Takes (limits : Limits) (index : Index) (tenant : TenantId) (size : Nat) : Prop :=
  saturatingAdd (tally index.perTenant tenant) size ≤ limits.maxTenantBytes ∧
    tally index.perTenantEntries tenant < limits.maxTenantEntries

/-- Files of these sizes, put one after another under one new id, leave nothing behind when one
fails: each but the last is refused, or is evicted at once from the store of a tenant that has
nothing else to lose. -/
def Harmless (limits : Limits) (index : Index) (tenant : TenantId) : List Nat → Prop
  | [] => True
  | size :: rest =>
      ¬ Takes limits index tenant size ∨ rest = [] ∨
        (tally index.perTenantEntries tenant = 0 ∧ Unkept limits size ∧
          Harmless limits index tenant rest)

/-- The name the environment mints makes an id the store accepts and does not list. -/
def Mints (index : Index) (tenant : TenantId) (choice : Choice) : Prop :=
  validateId .output (Kind.output.idPrefix ++ choice.ulid) = .ok (Kind.output.idPrefix ++ choice.ulid) ∧
    index.entries.lookup ⟨tenant, .output, Kind.output.idPrefix ++ choice.ulid⟩ = none

/-- Whichever put or call on the file system fails, the tenant's store is as it was. -/
def Undone (limits : Limits) (codec : MetaCodec) (publicUrl : String) (tenant : TenantId)
    (pdf : Bytes) (pages : Nat) (previews : List RenderedPreview) (diagnostics : List Diagnostic)
    (w : Solo) : Prop :=
  ∀ error w', Faulty (Mints w.index tenant) ()
    (storeResult limits codec publicUrl tenant pdf pages previews diagnostics) w (.error error) w' →
    Unchanged tenant w w'

variable {limits : Limits} {codec : MetaCodec} {tenant : TenantId} {w w' : Solo} {key : Key}
variable {allowed : Choice → Prop} {index index' : Index}

theorem Unchanged.trans {w'' : Solo} (first : Unchanged tenant w w')
    (second : Unchanged tenant w' w'') : Unchanged tenant w w'' where
  entries key own := (second.entries key own).trans (first.entries key own)
  files key own listed p under := by
    have listed' : w'.index.entries.lookup key ≠ none := by
      rw [first.entries key own]
      exact listed
    exact (second.files key own listed' p under).trans (first.files key own listed p under)
  bytes := second.bytes.trans first.bytes
  count := second.count.trans first.count

theorem Unchanged.symm (unchanged : Unchanged tenant w w') : Unchanged tenant w' w where
  entries key own := (unchanged.entries key own).symm
  files key own listed p under := by
    have listed' : w.index.entries.lookup key ≠ none := by
      rw [← unchanged.entries key own]
      exact listed
    exact (unchanged.files key own listed' p under).symm
  bytes := unchanged.bytes.symm
  count := unchanged.count.symm

/-- A put that failed under a key the index does not list. -/
theorem unchanged_of_aside (fresh : w.index.entries.lookup key = none)
    (same : w'.index = w.index) (aside : Aside key w.disk w'.disk) : Unchanged tenant w w' where
  entries _ _ := by rw [same]
  files other _ listed := by
    apply aside other
    rintro rfl
    exact listed fresh
  bytes := by rw [same]
  count := by rw [same]

theorem refusal_fresh {size : Nat} (fresh : index.entries.lookup key = none) :
    index.refusal limits key size = none ↔ Takes limits index key.tenant size := by
  unfold Index.refusal Takes
  split
  · rename_i full
    simp only [reduceCtorEq, false_iff, not_and]
    omega
  · rename_i fits
    simp [fresh]
    omega

/-! ## A tenant without entries -/

theorem vacant_iff (sound : index.Accounting) : tally index.perTenantEntries tenant = 0 ↔
    ∀ key, Of tenant key → index.entries.lookup key = none := by
  rw [sound.tenantEntries]
  constructor
  · intro zero key own
    by_contra listed
    obtain ⟨entry, found⟩ := Option.ne_none_iff_exists'.1 listed
    have counted := le_weight (Index.tenantCountOf tenant) found
    rw [Index.tenantCountOf, if_pos (show key.tenant = tenant from own)] at counted
    omega
  · intro none_
    apply weight_eq_zero
    intro key entry found
    rw [Index.tenantCountOf, if_neg]
    intro own
    rw [none_ key own] at found
    simp at found

theorem vacant_bytes (sound : index.Accounting)
    (none_ : ∀ key, Of tenant key → index.entries.lookup key = none) :
    tally index.perTenant tenant = 0 := by
  rw [sound.tenant]
  apply weight_eq_zero
  intro key entry found
  rw [Index.tenantBytesOf, if_neg]
  intro own
  rw [none_ key own] at found
  simp at found

theorem harmless_congr (sizes : List Nat)
    (bytes : tally index'.perTenant tenant = tally index.perTenant tenant)
    (count : tally index'.perTenantEntries tenant = tally index.perTenantEntries tenant) :
    Harmless limits index' tenant sizes ↔ Harmless limits index tenant sizes := by
  induction sizes with
  | nil => exact Iff.rfl
  | cons size rest ih => simp only [Harmless, Takes, bytes, count, ih]

/-! ## Every failing run leaves nothing -/

/-- A store whose counters are right, and a key of the tenant it does not list. -/
structure Ready (tenant : TenantId) (id : String) (sizes : List Nat) (w : Solo) : Prop where
  sound : w.index.Accounting
  fresh : w.index.entries.lookup ⟨tenant, .output, id⟩ = none
  fits : w.index.stored + sizes.sum < u64Size

variable {id name : String} {bytes : Bytes} {info : Meta} {sizes : List Nat}

/-- A put that returned `Ok` for a tenant without entries, its entry evicted at once. -/
theorem put_unkept {choice : Choice} {entry : Entry} {ranks : (Key → Nat) → Prop}
    (ready : Ready tenant id (bytes.length :: sizes) w)
    (vacant : tally w.index.perTenantEntries tenant = 0) (unkept : Unkept limits bytes.length)
    (made : entry = w.index.nextEntry limits ⟨tenant, .output, id⟩ bytes.length choice.now info)
    (evicts : Evicts limits ranks
      (w.index.commit ⟨tenant, .output, id⟩ entry bytes.length) w'.index) :
    Ready tenant id sizes w' ∧ Unchanged tenant w w' := by
  have fits := ready.fits
  rw [List.sum_cons] at fits
  have grown : entry.bytes = ((w.index.entries.lookup ⟨tenant, .output, id⟩).map (·.bytes)).getD 0 +
      bytes.length := made ▸ Index.nextEntry_bytes (by omega)
  have committed := Index.accounting_grow ready.sound (by omega) grown
  have size : entry.bytes = bytes.length := by simpa [ready.fresh] using grown
  have gone : w'.index.entries.lookup ⟨tenant, .output, id⟩ = none := by
    apply evicts.unkept committed
    · exact (Index.lookup_commit _ _ _ _ _).trans (if_pos rfl)
    · rwa [size]
  have none_ := (vacant_iff ready.sound).1 vacant
  have none' : ∀ key, Of tenant key → w'.index.entries.lookup key = none := by
    intro key own
    by_cases mine : key = ⟨tenant, .output, id⟩
    · rw [mine, gone]
    · cases evicts.sub key with
      | inl out => exact out
      | inr same => rw [same, Index.lookup_commit, if_neg mine, none_ key own]
  have after := (evicts.sound committed).accounting
  have smaller : w'.index.stored ≤ (w.index.commit ⟨tenant, .output, id⟩ entry bytes.length).stored :=
    weight_le_of_lookup fun key entry found => by
      cases evicts.sub key with
      | inl out =>
          rw [out] at found
          simp at found
      | inr same => rwa [← same]
  have stored : (w.index.commit ⟨tenant, .output, id⟩ entry bytes.length).stored =
      bytes.length + w.index.stored := by
    show weight Index.bytesOf (w.index.entries.insert _ entry) = _
    rw [weight_insert_new ready.fresh, Index.bytesOf, size, Index.stored]
  refine ⟨⟨after, gone, by omega⟩, ?_, ?_, ?_, ?_⟩
  · intro key own
    rw [none' key own, none_ key own]
  · intro key own listed
    exact absurd (none_ key own) listed
  · rw [vacant_bytes after none', vacant_bytes ready.sound none_]
  · rw [vacant, vacant_iff after]
    exact none'

/-- What one put of a harmless result comes to. -/
theorem put_harmless {result : Except StoreError Entry}
    (ready : Ready tenant id (bytes.length :: sizes) w)
    (harmless : Harmless limits w.index tenant (bytes.length :: sizes))
    (ran : Faulty allowed () (putWithId limits codec tenant .output id name bytes info) w result w') :
    (∃ error, result = .error error ∧ Unchanged tenant w w') ∨
    (∃ entry, result = .ok entry ∧ entry.id = id ∧
      (sizes = [] ∨ Ready tenant id sizes w' ∧ Harmless limits w'.index tenant sizes ∧
        Unchanged tenant w w')) := by
  rcases putWithId_faulty ran with ⟨error, rfl, same, aside⟩ | ⟨room, choice, entry, -, rfl, made, evicts⟩
  · exact Or.inl ⟨error, rfl, unchanged_of_aside ready.fresh same aside⟩
  · have named : entry.id = id := by
      rw [made, Index.nextEntry, ready.fresh]
    refine Or.inr ⟨entry, rfl, named, ?_⟩
    rcases harmless with refused | last | ⟨vacant, unkept, rest⟩
    · exact absurd ((refusal_fresh ready.fresh).1 room) refused
    · exact Or.inl last
    · obtain ⟨ready', unchanged⟩ := put_unkept ready vacant unkept made evicts
      exact Or.inr ⟨ready', (harmless_congr sizes unchanged.bytes unchanged.count).2 rest, unchanged⟩

theorem previews_harmless {previews : List RenderedPreview} {error : StoreError}
    (ready : Ready tenant id (previews.map (·.png.length)) w)
    (harmless : Harmless limits w.index tenant (previews.map (·.png.length)))
    (ran : Faulty allowed () (storePreviews limits codec tenant id previews) w (.error error) w') :
    Unchanged tenant w w' := by
  induction previews generalizing w with
  | nil =>
      obtain ⟨no, -⟩ := ran
      cases no
  | cons preview rest ih =>
      obtain ⟨result, w1, stored, ran⟩ := Prog.exec_bind.1 ran
      rcases put_harmless ready harmless stored with ⟨error', rfl, unchanged⟩ | ⟨entry, rfl, -, more⟩
      · obtain ⟨-, rfl⟩ := ran
        exact unchanged
      · rcases more with last | ⟨ready', harmless', unchanged⟩
        · obtain rfl : rest = [] := List.map_eq_nil_iff.1 last
          obtain ⟨no, -⟩ := ran
          cases no
        · exact unchanged.trans (ih ready' harmless' ran)

/-- The sizes of the files of a result, in the order they are stored. -/
def sizesOf (pdf : Bytes) (previews : List RenderedPreview) : List Nat :=
  pdf.length :: previews.map (·.png.length)

variable {publicUrl : String} {pdf : Bytes} {pages : Nat} {previews : List RenderedPreview}
variable {diagnostics : List Diagnostic}

theorem harmless_undone (sound : w.index.Accounting)
    (fits : w.index.stored + (sizesOf pdf previews).sum < u64Size)
    (harmless : Harmless limits w.index tenant (sizesOf pdf previews)) :
    Undone limits codec publicUrl tenant pdf pages previews diagnostics w := by
  intro error w' ran
  obtain ⟨result, w1, stored, ran⟩ := Prog.exec_bind.1 ran
  obtain ⟨ulid, w0, minted, stored⟩ := stored
  obtain ⟨_, choice, ⟨-, fresh⟩, handled⟩ :=
    faulty_answers (fun _ _ faults => by cases faults with | still fails => exact fails) minted
  obtain ⟨rfl, rfl⟩ := Prod.mk.inj handled
  simp only [Prog.ret_bind] at stored
  rcases put_harmless ⟨sound, fresh, fits⟩ harmless stored with
    ⟨error', rfl, unchanged⟩ | ⟨entry, rfl, named, more⟩
  · obtain ⟨-, rfl⟩ := ran
    exact unchanged
  · obtain ⟨rest, w2, stored', ran⟩ := Prog.exec_bind.1 ran
    cases rest with
    | ok _ =>
        obtain ⟨no, -⟩ := ran
        cases no
    | error error' =>
        obtain ⟨-, rfl⟩ := ran
        rcases more with last | ⟨ready', harmless', unchanged⟩
        · obtain rfl : previews = [] := List.map_eq_nil_iff.1 last
          obtain ⟨no, -⟩ := stored'
          cases no
        · rw [named] at stored'
          exact unchanged.trans (previews_harmless ready' harmless' stored')

/-! ## Otherwise some failing run leaves something -/

/-- The environment's choice at another clock reading. -/
def Choice.at (choice : Choice) (now : Nat) : Choice := { choice with now := now }

/-- A clock reading later than every entry. -/
def lateFor (index : Index) : Nat := weight (fun _ entry => entry.createdAt) index.entries + 1

/-- A put the quotas take, at a late clock: its entry is the newest, so either it is kept, or
everything is evicted. -/
theorem put_late (inOrder : InOrder limits codec w) (ready : Ready tenant id (bytes.length :: sizes) w)
    (valid : validateId .output id = .ok id) (takes : Takes limits w.index tenant bytes.length)
    (choice : Choice) :
    ∃ entry w', Alone (· = Choice.at choice (lateFor w.index)) ()
        (putWithId limits codec tenant .output id name bytes info) w (.ok entry) w' ∧
      entry.id = id ∧ InOrder limits codec w' ∧
      (Unkept limits bytes.length → ∀ other, w'.index.entries.lookup other = none) ∧
      (¬ Unkept limits bytes.length →
        w'.index.entries.lookup ⟨tenant, .output, id⟩ = some entry) := by
  have fits := ready.fits
  rw [List.sum_cons] at fits
  have bare := (inOrder.toAtRest.good ⟨tenant, .output, id⟩).unlisted ready.fresh
  have vacancy := (refusal_fresh ready.fresh).2 takes
  obtain ⟨result, w', ran, -⟩ : ∃ result w', Alone (· = Choice.at choice (lateFor w.index)) ()
      (putWithId limits codec tenant .output id name bytes info) w result w' ∧ w'.owner = none :=
    balanced_runs (by exact rfl) (balanced_putWithId _ _ _ _ _ _) fun _ => inOrder.free
  have rest := putWithId_atRest inOrder.toAtRest (fun no => no.elim) ran
  rcases putWithId_exec inOrder.toAtRest (fun no => no.elim) ran with
    ⟨error, invalid, -, -⟩ | ⟨-, begun, out, w1, ended, -, rfl, rfl⟩
  · rw [valid] at invalid
    cases invalid
  · cases ended with
    | @refused error _ full mid =>
        have full : w.index.refusal limits _ bytes.length = some error := full
        rw [vacancy] at full
        cases full
    | taken _ there mid =>
        have there : (w.disk.lookup (entryDir ⟨tenant, .output, id⟩ ++ [safeName name])).isSome :=
          there
        rw [bare _ (List.prefix_append _ _)] at there
        cases there
    | @stored choice' entry w2 index' _ _ _ may made mid evicts evicting =>
        subst may
        have made : entry = w.index.nextEntry limits ⟨tenant, .output, id⟩ bytes.length
          (lateFor w.index) info := made
        have evicts : Evicts limits _ (w.index.commit ⟨tenant, .output, id⟩ entry bytes.length)
          index' := evicts
        have grown : entry.bytes =
            ((w.index.entries.lookup ⟨tenant, .output, id⟩).map (·.bytes)).getD 0 + bytes.length :=
          made ▸ Index.nextEntry_bytes (by omega)
        have size : entry.bytes = bytes.length := by simpa [ready.fresh] using grown
        have committed := Index.accounting_grow ready.sound (by omega) grown
        have listed : (w.index.commit ⟨tenant, .output, id⟩ entry bytes.length).entries.lookup
            ⟨tenant, .output, id⟩ = some entry :=
          (Index.lookup_commit _ _ _ _ _).trans (if_pos rfl)
        have newest : Newest (w.index.commit ⟨tenant, .output, id⟩ entry bytes.length)
            ⟨tenant, .output, id⟩ entry := by
          intro other old apart there
          rw [Index.lookup_commit, if_neg apart] at there
          have before := le_weight (fun _ entry => entry.createdAt) there
          have stamp : entry.createdAt = lateFor w.index := by
            rw [made, Index.nextEntry, ready.fresh]
          rw [stamp, lateFor]
          omega
        refine ⟨entry, _, ran, ?_, ⟨rest, evicts.sound committed⟩, fun unkept other => ?_,
          fun kept => ?_⟩
        · rw [made, Index.nextEntry, ready.fresh]
        · apply evicts.newestLast listed newest
          apply evicts.unkept committed listed
          rwa [size]
        · apply evicts.keepsNewest committed listed newest
          rwa [size]

theorem not_unchanged (other : Key) (own : Of tenant other)
    (differs : w'.index.entries.lookup other ≠ w.index.entries.lookup other) :
    ¬ Unchanged tenant w w' := fun unchanged => differs (unchanged.entries other own)

/-- One put of a result that is not harmless, and what it has decided. -/
theorem put_leaves (name : String) (info : Meta) (choice : Choice) (inOrder : InOrder limits codec w)
    (ready : Ready tenant id (bytes.length :: sizes) w) (valid : validateId .output id = .ok id)
    (harmful : ¬ Harmless limits w.index tenant (bytes.length :: sizes)) :
    sizes ≠ [] ∧ ∃ entry w', Alone (· = Choice.at choice (lateFor w.index)) ()
        (putWithId limits codec tenant .output id name bytes info) w (.ok entry) w' ∧
      entry.id = id ∧ InOrder limits codec w' ∧
      ((∀ w'', w''.index = w'.index → ¬ Unchanged tenant w w'') ∨
        (Ready tenant id sizes w' ∧ ¬ Harmless limits w'.index tenant sizes ∧
          Unchanged tenant w w')) := by
  simp only [Harmless, not_or, not_and, not_not] at harmful
  obtain ⟨takes, more, harmful⟩ := harmful
  obtain ⟨entry, w', ran, named, inOrder', emptied, kept⟩ := put_late inOrder ready valid takes choice
  refine ⟨more, entry, w', ran, named, inOrder', ?_⟩
  by_cases unkept : Unkept limits bytes.length
  · have none' := emptied unkept
    by_cases vacant : tally w.index.perTenantEntries tenant = 0
    · have none_ := (vacant_iff ready.sound).1 vacant
      have sound' := inOrder'.sound.accounting
      have unchanged : Unchanged tenant w w' := by
        refine ⟨fun key own => ?_, fun key own listed => absurd (none_ key own) listed, ?_, ?_⟩
        · rw [none', none_ key own]
        · rw [vacant_bytes sound' fun key _ => none' key, vacant_bytes ready.sound none_]
        · rw [vacant, vacant_iff sound']
          exact fun key _ => none' key
      have nothing : w'.index.stored = 0 := weight_eq_zero fun key entry found => by
        rw [none'] at found
        cases found
      have fits := ready.fits
      rw [List.sum_cons] at fits
      refine Or.inr ⟨⟨sound', none' _, by omega⟩, ?_, unchanged⟩
      rw [harmless_congr sizes unchanged.bytes unchanged.count]
      exact harmful vacant unkept
    · left
      rintro w'' same unchanged
      apply vacant
      apply (vacant_iff ready.sound).2
      intro key own
      rw [← unchanged.entries key own, same, none']
  · left
    intro w'' same
    refine not_unchanged ⟨tenant, .output, id⟩ rfl ?_
    rw [same, kept unkept, ready.fresh]
    simp

/-- The previews that are left can fail at once. -/
theorem previews_fail {choice : Choice} {previews : List RenderedPreview} (may : allowed choice)
    (more : previews ≠ []) (free : w.owner = none) :
    ∃ error w', Faulty allowed () (storePreviews limits codec tenant id previews) w (.error error)
      w' ∧ w'.index = w.index := by
  cases previews with
  | nil => exact absurd rfl more
  | cons preview rest =>
      obtain ⟨error, w', failed, same⟩ : ∃ error w', Faulty allowed ()
          (putWithId limits codec tenant .output id (previewName preview.page) preview.png
            (metaOf (previewName preview.page) "image/png")) w (.error error) w' ∧
          w'.index = w.index :=
        putWithId_fails may free
      exact ⟨error, w', Prog.exec_bind.2 ⟨_, _, failed, rfl, rfl⟩, same⟩

/-- Runs under one choice are runs under every set of choices that has it. -/
theorem faulty_of_choice {α : Type} {p : StoreProg α} {value : α} {choice : Choice}
    (may : allowed choice) (ran : Alone (· = choice) () p w value w') :
    Faulty allowed () p w value w' :=
  faulty_of_alone (alone_mono ran fun _ same => by rwa [same])

theorem previews_leave {choice : Choice} {previews : List RenderedPreview}
    (may : ∀ now, allowed (Choice.at choice now)) (inOrder : InOrder limits codec w)
    (ready : Ready tenant id (previews.map (·.png.length)) w) (valid : validateId .output id = .ok id)
    (harmful : ¬ Harmless limits w.index tenant (previews.map (·.png.length))) :
    ∃ error w', Faulty allowed () (storePreviews limits codec tenant id previews) w (.error error)
      w' ∧ ¬ Unchanged tenant w w' := by
  induction previews generalizing w with
  | nil => exact absurd trivial harmful
  | cons preview rest ih =>
      obtain ⟨more, entry, w1, ran, -, inOrder1, decided⟩ :=
        put_leaves (previewName preview.page) (metaOf (previewName preview.page) "image/png") choice
          inOrder ready valid harmful
      have stored := faulty_of_choice (may _) ran
      cases decided with
      | inl left =>
          obtain ⟨error, w2, failed, same⟩ :=
            previews_fail (may 0) (fun none_ => more (List.map_eq_nil_iff.2 none_)) inOrder1.free
          exact ⟨error, w2, Prog.exec_bind.2 ⟨_, _, stored, failed⟩, left w2 same⟩
      | inr later =>
          obtain ⟨ready1, harmful1, unchanged⟩ := later
          obtain ⟨error, w2, failed, differs⟩ := ih inOrder1 ready1 harmful1
          exact ⟨error, w2, Prog.exec_bind.2 ⟨_, _, stored, failed⟩,
            fun whole => differs (unchanged.symm.trans whole)⟩

theorem harmful_leaves {choice : Choice} (inOrder : InOrder limits codec w)
    (mints : Mints w.index tenant choice)
    (fits : w.index.stored + (sizesOf pdf previews).sum < u64Size)
    (harmful : ¬ Harmless limits w.index tenant (sizesOf pdf previews)) :
    ¬ Undone limits codec publicUrl tenant pdf pages previews diagnostics w := by
  intro undone
  have may : ∀ now, Mints w.index tenant (Choice.at choice now) := fun _ => mints
  have ready : Ready tenant (Kind.output.idPrefix ++ choice.ulid) (sizesOf pdf previews) w :=
    ⟨inOrder.sound.accounting, mints.2, fits⟩
  obtain ⟨more, entry, w1, ran, named, inOrder1, decided⟩ :=
    put_leaves documentName (metaOf documentName "application/pdf") choice inOrder ready mints.1
      harmful
  have minted : Faulty (Mints w.index tenant) () (put limits codec tenant .output documentName pdf
      (metaOf documentName "application/pdf")) w (.ok entry) w1 :=
    ⟨choice.ulid, w, Or.inl ⟨nofun, choice, mints, rfl⟩, faulty_of_choice (may _) ran⟩
  have fails : ∀ error w2, Faulty (Mints w.index tenant) ()
      (storePreviews limits codec tenant entry.id previews) w1 (.error error) w2 →
      Unchanged tenant w w2 := fun error w2 failed =>
    undone error w2 (Prog.exec_bind.2 ⟨_, _, minted, Prog.exec_bind.2 ⟨_, _, failed, rfl, rfl⟩⟩)
  cases decided with
  | inl left =>
      obtain ⟨error, w2, failed, same⟩ :=
        previews_fail (may 0) (fun none_ => more (List.map_eq_nil_iff.2 none_)) inOrder1.free
      exact left w2 same (fails error w2 failed)
  | inr later =>
      obtain ⟨ready1, harmful1, unchanged⟩ := later
      rw [← named] at ready1
      obtain ⟨error, w2, failed, differs⟩ :=
        previews_leave may inOrder1 ready1 (named ▸ mints.1) harmful1
      exact differs (unchanged.symm.trans (fails error w2 failed))

/-- **When a result that cannot be stored leaves the tenant's store as it was**: always if it is
harmless, on any tree; and on the tree of a store in order, only then. -/
theorem result_undone (sound : w.index.Accounting)
    (fits : w.index.stored + (sizesOf pdf previews).sum < u64Size) :
    (Harmless limits w.index tenant (sizesOf pdf previews) →
      Undone limits codec publicUrl tenant pdf pages previews diagnostics w) ∧
    (InOrder limits codec w → (∃ choice, Mints w.index tenant choice) →
      Undone limits codec publicUrl tenant pdf pages previews diagnostics w →
      Harmless limits w.index tenant (sizesOf pdf previews)) := by
  refine ⟨harmless_undone sound fits, ?_⟩
  rintro inOrder ⟨choice, mints⟩ undone
  by_contra harmful
  exact harmful_leaves inOrder mints fits harmful undone

/-- A store whose tenants have three bytes. -/
def tightLimits : Limits := { smallLimits with
  maxTenantBytes := 3
  maxTenantBytes_lt := by decide
  maxStoreBytes_lt := by decide }

def firstPage : RenderedPreview where
  page := 1
  width := 1
  height := 1
  png := [3, 4]

theorem mints_reading : Mints (World.fresh : Solo).index someTenant (reading 0) := by
  constructor
  · decide
  · rfl

/-- A document on its own is harmless; with a preview that is not refused before it, it is not. -/
theorem result_undone_document :
    Undone tightLimits serde "https://typst.example.com" someTenant [1, 2] 1 [] [] World.fresh ∧
    ¬ Undone tightLimits serde "https://typst.example.com" someTenant [1, 2] 1 [firstPage] []
      World.fresh := by
  have small : ∀ previews, (sizesOf [1, 2] previews).sum < u64Size →
      (World.fresh : Solo).index.stored + (sizesOf [1, 2] previews).sum < u64Size := by
    intro previews fits
    rwa [show (World.fresh : Solo).index.stored = 0 from rfl, Nat.zero_add]
  have sound : (World.fresh : Solo).index.Accounting := Index.accounting_empty
  constructor
  · exact (result_undone sound (small [] (by decide))).1 (Or.inr (Or.inl rfl))
  · intro undone
    have harmless := (result_undone sound (small [firstPage] (by decide))).2 inOrder_fresh
      ⟨_, mints_reading⟩ undone
    rcases harmless with refused | last | ⟨-, unkept, -⟩
    · exact refused (by constructor <;> decide)
    · cases last
    · revert unkept
      decide

/-- **A preview refused by its tenant's quota leaves the document behind**, under an id nobody has
been told, and its two bytes on the tenant's account. -/
theorem refused_preview_leaves_document : ∃ w', Faulty (Mints (World.fresh : Solo).index someTenant) ()
    (storeResult tightLimits serde "https://typst.example.com" someTenant [1, 2] 1 [firstPage] [])
      World.fresh (.error (.tenantFull 2 3)) w' ∧
    tally w'.index.perTenant someTenant = 2 ∧ ¬ Unchanged someTenant World.fresh w' := by
  obtain ⟨⟨result, w'⟩, played, more⟩ : ∃ x, solo 0 (storeResult tightLimits serde
      "https://typst.example.com" someTenant [1, 2] 1 [firstPage] []) World.fresh = some x ∧
      (decide (x.1 = .error (.tenantFull 2 3)) && decide (tally x.2.index.perTenant someTenant = 2)) =
        true :=
    (Option.any_eq_true _ _).1 (by decide +kernel)
  rw [Bool.and_eq_true, decide_eq_true_iff, decide_eq_true_iff] at more
  obtain ⟨refused, charged⟩ := more
  dsimp only at refused charged
  subst refused
  refine ⟨w', ?_, charged, fun unchanged => ?_⟩
  · apply faulty_of_alone
    apply Prog.exec_of_play _ played
    intro c s free
    exact answers_of_unlocked mints_reading free
  · have bytes := unchanged.bytes
    rw [charged] at bytes
    cases bytes

end TypstMcp.Render
