/-
Render.Catalog -- the templates a caller can name

A listing of the templates resolves every upload it names, so one archive that could not
be read would fail the whole of it.  No such archive is ever stored: whatever runs on the
service, a template is put as an archive that was just written from an accepted template.

* `Stocked`: what every call keeps of the stored templates; `stocked_op` is the step,
  `stocked_history` the run.
* `serves_history`: a run of the service is a run of the store that puts templates so.
* `catalog_resolves`: what a listing answers in every state a service reaches.
-/
import TypstMcp.Render.Delivery
import TypstMcp.Store.Listing
import TypstMcp.Store.Paths

namespace TypstMcp.Render

open TypstMcp.Theory TypstMcp.Theory.Table
open TypstMcp.Auth (TenantId)
open TypstMcp.Bundle TypstMcp.Store
open TypstMcp.Template (Template TemplateKind fromArchive fromArchive_toArchive draftFiles
  gnuTar_faithful)

set_option autoImplicit false
set_option linter.unusedSectionVars false

/-! ## Listing the templates -/

structure TemplateSummary where
  id : String
  name : String
  kind : String
  templateKind : String
  version : String
  description : String
  dataFields : List String
  notice : Option String
  expiresAt : Option Nat
  deriving DecidableEq, Repr

def kindName : TemplateKind → String
  | .wrapper => "wrapper"
  | .data => "data"

variable {F : Type}

def templateSummary (id source : String) (expiresAt : Option Nat) (template : Template F) :
    TemplateSummary where
  id
  name := template.manifest.name
  kind := source
  templateKind := kindName template.manifest.kind
  version := template.manifest.version
  description := template.manifest.description
  dataFields := template.manifest.args.keys
  notice := template.manifest.notice
  expiresAt

namespace RenderService

variable (service : RenderService F) (tenant : TenantId)

/-- The uploads of a listing; the first that cannot be resolved ends it. -/
def summarise : List Entry → StoreProg (Except Failure (List TemplateSummary))
  | [] => return .ok []
  | entry :: rest => do
      match ← service.template tenant entry.id with
      | .error failure => return .error failure
      | .ok template =>
          match ← summarise rest with
          | .error failure => return .error failure
          | .ok summaries =>
              return .ok (templateSummary entry.id "ephemeral" (some entry.expiresAt) template ::
                summaries)

/-- The service's own templates, by name. -/
def baked : List TemplateSummary :=
  service.templates.values.map fun template =>
    templateSummary template.manifest.name "baked" none template

def listTemplates (includeEphemeral : Bool) : StoreProg (Except Failure (List TemplateSummary)) :=
  if includeEphemeral then do
    let entries ← Store.list tenant .template
    match ← service.summarise tenant entries with
    | .error failure => return .error failure
    | .ok ephemeral => return .ok (service.baked ++ ephemeral)
  else return .ok service.baked

end RenderService

variable (service : RenderService F)

/-! ## Every stored template can be read -/

/-- The bytes are the archive of a template. -/
def Reads (archive : Bytes) (template : Template F) : Prop :=
  fromArchive service.crates service.tar archive service.maxBundleBytes = .ok template

/-- Every template the store lists acknowledged an archive that can be read. -/
def Stocked (w : Solo) : Prop :=
  ∀ key entry, key.kind = .template → w.index.entries.lookup key = some entry →
    ∃ archive template, (storedArchive, archive) ∈ w.acked key ∧ Reads service archive template

/-- A template is put as an archive that can be read. -/
def Stocks : Op → Prop
  | .put _ kind name bytes _ | .putWithId _ kind _ name bytes _ =>
      kind = .template → name = storedArchive ∧ ∃ template, Reads service bytes template
  | _ => True

/-- What a service lets happen to its store. -/
def May (w : Solo) (op : Op) : Prop := op.Fits w.index ∧ Stocks service op

section Steps

variable {service : RenderService F} {limits : Limits} {codec : MetaCodec} {w w' : Solo} {t : Unit}
variable {allowed : Choice → Prop}

/-- Entries only went, and what the others acknowledged stayed. -/
theorem Stocked.shrunk (stocked : Stocked service w)
    (sub : ∀ key entry, w'.index.entries.lookup key = some entry →
      ∃ old, w.index.entries.lookup key = some old ∧ w'.acked key = w.acked key) :
    Stocked service w' := by
  intro key entry kind found
  obtain ⟨old, before, acked⟩ := sub key entry found
  obtain ⟨archive, template, inside, reads⟩ := stocked key old kind before
  exact ⟨archive, template, acked ▸ inside, reads⟩

theorem Stocked.dropped {keys : List Key} (stocked : Stocked service w) (dropped : Dropped keys w w') :
    Stocked service w' := by
  refine stocked.shrunk fun key entry found => ⟨entry, ?_, dropped.acked key entry found⟩
  have before := dropped.lookup key
  rw [found] at before
  split at before
  · cases before
  · exact before.symm

theorem Stocked.put (key : Key) {name : String} {bytes : Bytes} {info : Meta}
    {result : Except StoreError Entry} (stocked : Stocked service w) (rest : AtRest codec False w)
    (stocks : key.kind = .template → name = storedArchive ∧ ∃ template, Reads service bytes template)
    (ran : Alone allowed () (putWithId limits codec key.tenant key.kind key.id name bytes info) w
      result w') : Stocked service w' := by
  rcases putWithId_exec rest (fun no => no.elim) ran with
    ⟨_, _, _, rfl⟩ | ⟨_, _, out, w1, ended, _, _, rfl⟩
  · exact stocked
  have left : ∀ {v : Solo}, Fixed () (w.lockedFor key bytes.length) v →
      Stocked service (v.publish () w.index .nothing) := by
    intro v fixed
    refine stocked.shrunk fun other entry found => ⟨entry, found, ?_⟩
    have kept : (v.publish () w.index .nothing).acked other = v.acked other :=
      acked_publish found fun _ _ _ => by simp
    exact kept.trans (congrFun fixed.acked other)
  cases ended with
  | refused _ mid => exact left mid.fixed
  | taken _ _ mid => exact left mid.fixed
  | @stored choice entry w2 index' _ _ _ _ _ mid evicts evicting =>
      intro other entry' kind found
      have found : index'.entries.lookup other = some entry' := found
      have acked : w1.acked other = w.acked other :=
        congrFun (mid.fixed.trans evicting.fixed).acked other
      have after : (w1.publish () index' (.counted key (safeName name) bytes)).acked other =
          if other = key then (safeName name, bytes) :: w.acked other else w.acked other := by
        show w1.ackedAfter index' (.counted key (safeName name) bytes) other = _
        rw [ackedAfter_listed found, acked]
      rw [after]
      by_cases mine : other = key
      · subst mine
        obtain ⟨rfl, template, reads⟩ := stocks kind
        rw [if_pos rfl]
        exact ⟨bytes, template, List.mem_cons_self, reads⟩
      · have kept := (evicts.sub other).resolve_left (by rw [found]; exact Option.some_ne_none _)
        have before : w.index.entries.lookup other = some entry' := by
          rw [← found, kept]
          exact ((Index.lookup_commit _ _ _ _ _).trans (if_neg mine)).symm
        rw [if_neg mine]
        exact stocked other entry' kind before

/-- **Every call keeps the stored templates readable.** -/
theorem stocked_op (op : Op) {out : Outcome} (stocked : Stocked service w)
    (rest : AtRest codec False w) (stocks : Stocks service op)
    (ran : Alone allowed () (op.program limits codec) w out w') : Stocked service w' := by
  cases op with
  | put tenant kind name bytes info =>
      obtain ⟨_, w1, stored, -, rfl⟩ := Prog.exec_bind.1 ran
      obtain ⟨_, choice, _, stored⟩ := alone_call.1 stored
      exact stocked.put ⟨tenant, kind, kind.idPrefix ++ choice.ulid⟩ rest stocks stored
  | putWithId tenant kind id name bytes info =>
      obtain ⟨_, w1, stored, -, rfl⟩ := Prog.exec_bind.1 ran
      exact stocked.put ⟨tenant, kind, id⟩ rest stocks stored
  | get tenant kind id name =>
      obtain ⟨_, w1, read, -, rfl⟩ := Prog.exec_bind.1 ran
      obtain ⟨rfl, -⟩ := get_exec rest.toIdle read
      exact stocked
  | entry tenant kind id =>
      obtain ⟨_, w1, read, -, rfl⟩ := Prog.exec_bind.1 ran
      obtain ⟨rfl, -⟩ := entry_exec rest.toIdle read
      exact stocked
  | list tenant kind =>
      obtain ⟨_, w1, read, -, rfl⟩ := Prog.exec_bind.1 ran
      obtain ⟨rfl, -⟩ := list_exec rest.toIdle read
      exact stocked
  | delete tenant kind id =>
      obtain ⟨_, w1, deleted, -, rfl⟩ := Prog.exec_bind.1 ran
      rcases delete_exec rest deleted with
        ⟨_, _, _, rfl⟩ | ⟨_, _, _, _, ⟨_, _, rfl⟩ | ⟨_, _, dropped⟩⟩
      · exact stocked
      · exact stocked
      · exact stocked.dropped dropped
  | reap =>
      obtain ⟨_, w1, reaped, -, rfl⟩ := Prog.exec_bind.1 ran
      obtain ⟨_, _, _, _, dropped⟩ := reap_exec reaped
      exact stocked.dropped dropped

theorem stocked_reopened (stocked : Stocked service w) (sane : Sane limits codec False w)
    (ran : Alone allowed () (openStore limits codec) w.crash (.ok ()) w') : Stocked service w' := by
  obtain ⟨_, _, index, _, _, published, _, acked, -⟩ := openStore_exec ran rfl
  have restarted := reopened_restarted sane ran
  refine stocked.shrunk fun key entry found => ?_
  have before := restarted.lookup key
  rw [found] at before
  obtain ⟨old, listed, -⟩ := Option.map_eq_some_iff.1 before.symm
  refine ⟨old, listed, ?_⟩
  rw [acked, ackedAfter_listed (published ▸ found)]
  rfl

/-- **In every state of a history the stored templates can be read.** -/
theorem stocked_history (past : History limits codec (May service) w) :
    Sane limits codec False w ∧ Stocked service w := by
  induction past with
  | fresh => exact ⟨sane_fresh, fun key entry _ found => by simp [World.fresh] at found⟩
  | served _ may ran ih =>
      exact ⟨program_sane _ ih.1 (fun no => no.elim) may.1 ran,
        stocked_op _ ih.2 ih.1.toAtRest may.2 ran⟩
  | reopened _ ran ih => exact ⟨(reopened_restarted ih.1 ran).sane, stocked_reopened ih.2 ih.1 ran⟩

end Steps

/-! ## Everything a service does -/

/-- The call puts no template. -/
def Untemplated : Op → Prop
  | .put _ kind .. | .putWithId _ kind .. => kind ≠ .template
  | _ => True

/-- So much more can be stored without the count of it wrapping. -/
def Countable (size : Nat) : Prop := service.limits.maxStoreBytes + size < u64Size

/-- The states of a store that one service uses: it renders and is given templates, and whatever
else is called (assets, downloads, deletions, the reaper) puts no template. -/
inductive Serves : Solo → Prop
  | fresh : Serves World.fresh
  | called {w w' : Solo} {op : Op} {out : Outcome} (past : Serves w) (other : Untemplated op)
      (fits : op.Fits w.index)
      (ran : Alone anyChoice () (op.program service.limits service.codec) w out w') : Serves w'
  | rendered {w w' : Solo} {tenant : TenantId} {request : RenderRequest F}
      {result : Except Failure RenderResult} (past : Serves w)
      (fits : ∀ compiled, Alone anyChoice () (service.compile tenant request) w (.ok compiled) w →
        ∀ size ∈ sizesOf compiled.pdf compiled.previews, Countable service size)
      (ran : Alone anyChoice () (service.render tenant request) w result w') : Serves w'
  | uploaded {w w' : Solo} {tenant : TenantId} {name : Option String} {files : List BundleFile}
      {ids : List String} {result : Except Failure UploadedTemplate} (past : Serves w)
      (fits : ∀ mounted template warnings archive,
        Alone anyChoice () (loadAssets service.maxBundleBytes tenant ids) w (.ok mounted) w →
        service.checkUpload name (files ++ mounted) = .ok (template, warnings, archive) →
        Countable service archive.length)
      (ran : Alone anyChoice () (service.uploadTemplate tenant name files ids) w result w') :
      Serves w'
  | reopened {w w' : Solo} (past : Serves w)
      (ran : Alone anyChoice () (openStore service.limits service.codec) w.crash (.ok ()) w') :
      Serves w'

section Runs

variable {service : RenderService F} {w w' : Solo} {tenant : TenantId}

theorem Countable.fits {limits : Limits} {codec : MetaCodec} {size : Nat}
    (sane : Sane limits codec False w) (countable : limits.maxStoreBytes + size < u64Size) :
    w.index.stored + size < u64Size := by
  have books := sane.sound.accounting.total
  have ceiling := sane.sound.ceilings.bytes
  omega

/-- A put of anything but a template is one more call. -/
theorem outputs_history {id name : String} {bytes : Bytes} {info : Meta}
    {result : Except StoreError Entry}
    (past : History service.limits service.codec (May service) w)
    (countable : Countable service bytes.length)
    (ran : Alone anyChoice ()
      (putWithId service.limits service.codec tenant .output id name bytes info) w result w') :
    History service.limits service.codec (May service) w' := by
  have may : May service w (.putWithId tenant .output id name bytes info) :=
    ⟨Countable.fits (stocked_history past).1 countable, fun kind => by cases kind⟩
  exact past.served may (Prog.exec_bind.2 ⟨result, w', ran, rfl, rfl⟩)

theorem previews_history {id : String} {previews : List RenderedPreview}
    {result : Except StoreError Unit}
    (past : History service.limits service.codec (May service) w)
    (countable : ∀ preview ∈ previews, Countable service preview.png.length)
    (ran : Alone anyChoice () (storePreviews service.limits service.codec tenant id previews) w
      result w') : History service.limits service.codec (May service) w' := by
  induction previews generalizing w with
  | nil =>
      obtain ⟨-, rfl⟩ := ran
      exact past
  | cons preview rest ih =>
      obtain ⟨answer, w1, stored, ran⟩ := Prog.exec_bind.1 ran
      have past' := outputs_history past (countable preview List.mem_cons_self) stored
      cases answer with
      | error error =>
          obtain ⟨-, rfl⟩ := ran
          exact past'
      | ok entry => exact ih past' (fun other inside => countable other (List.mem_cons_of_mem _ inside)) ran

theorem result_history {pdf : Bytes} {pages : Nat} {previews : List RenderedPreview}
    {diagnostics : List Diagnostic} {result : Except StoreError RenderResult}
    (past : History service.limits service.codec (May service) w)
    (countable : ∀ size ∈ sizesOf pdf previews, Countable service size)
    (ran : Alone anyChoice () (storeResult service.limits service.codec service.publicUrl tenant pdf
      pages previews diagnostics) w result w') :
    History service.limits service.codec (May service) w' := by
  obtain ⟨answer, w1, stored, ran⟩ := Prog.exec_bind.1 ran
  obtain ⟨_, choice, _, stored⟩ := alone_call.1 stored
  simp only [handle, Prog.ret_bind] at stored
  have past' := outputs_history past (countable _ List.mem_cons_self) stored
  cases answer with
  | error error =>
      obtain ⟨-, rfl⟩ := ran
      exact past'
  | ok entry =>
      obtain ⟨answer, w2, others, ran⟩ := Prog.exec_bind.1 ran
      have past'' := previews_history past' (fun preview inside => countable _
        (List.mem_cons_of_mem _ (List.mem_map_of_mem inside))) others
      cases answer with
      | error error =>
          obtain ⟨-, rfl⟩ := ran
          exact past''
      | ok _ =>
          obtain ⟨-, rfl⟩ := ran
          exact past''

/-- **A run of the service is a run of its store**, on which every template is put as an archive
that can be read. -/
theorem serves_history (faithful : service.tar.Faithful)
    (representable : service.maxBundleBytes + 1 < TypstMcp.Template.usizeSize)
    (past : Serves service w) : History service.limits service.codec (May service) w := by
  induction past with
  | fresh => exact .fresh
  | @called w w' op out _ other fits ran ih =>
      refine ih.served ⟨fits, ?_⟩ ran
      cases op with
      | put | putWithId => exact fun kind => absurd kind other
      | _ => trivial
  | @rendered w w' tenant request result _ fits ran ih =>
      have idle := (stocked_history ih).1.toAtRest.toIdle
      rcases render_cases service request idle ran with ⟨_, -, -, rfl⟩ | ⟨compiled, stored, made, storing, -⟩
      · exact ih
      · exact result_history ih (fits compiled made) storing
  | @uploaded w w' tenant name files ids result _ fits ran ih =>
      have sane := (stocked_history ih).1
      rcases upload_cases service sane.toAtRest.toIdle ran with
        ⟨-, rfl⟩ | ⟨mounted, template, warnings, archive, stored, loaded, checked, storing, -⟩
      · exact ih
      · obtain ⟨accepted, -, -, written⟩ := checkUpload_eq_ok service checked
        have countable := fits mounted template warnings archive loaded checked
        obtain ⟨archive', written', found, reads, -⟩ := fromArchive_toArchive faithful representable
          accepted fun other again => by
            obtain rfl := Except.ok.inj (written.symm.trans again)
            exact lt_of_le_of_lt (Nat.le_add_left _ _) countable
        obtain rfl := Except.ok.inj (written.symm.trans written')
        have may : May service w (.put tenant .template storedArchive archive
            (metaOf storedArchive "application/x-tar")) :=
          ⟨Countable.fits sane countable, fun _ => ⟨rfl, found, reads⟩⟩
        exact ih.served may (Prog.exec_bind.2 ⟨stored, w', storing, rfl, rfl⟩)
  | reopened _ ran ih => exact ih.reopened ran

end Runs

/-! ## Resolving what is listed -/

section Resolving

variable {service : RenderService F} {w w' : Solo} {tenant : TenantId} {limits : Limits}
variable {codec : MetaCodec} {allowed : Choice → Prop} {entry : Entry}

/-- What a reference names: a template of the service's own, or else the upload with that id. -/
def Resolves (service : RenderService F) (w : Solo) (tenant : TenantId) (reference : String)
    (template : Template F) : Prop :=
  service.templates[reference]? = some template ∨
    service.templates[reference]? = none ∧ ∃ archive,
      w.disk.lookup (entryDir ⟨tenant, .template, reference⟩ ++ [storedArchive]) =
        some (.file archive) ∧ Reads service archive template

/-- The summary is of what the entry's id names. -/
def Summarises (service : RenderService F) (w : Solo) (tenant : TenantId) (entry : Entry)
    (summary : TemplateSummary) : Prop :=
  ∃ template, Resolves service w tenant entry.id template ∧
    summary = templateSummary entry.id "ephemeral" (some entry.expiresAt) template

/-- What an unknown reference is answered with: the same names a listing has. -/
theorem template_unknown (sane : Sane limits codec False w) {reference name available : String}
    (ran : Alone allowed () (service.template tenant reference) w
      (.error (.unknownTemplate name available)) w') :
    name = reference ∧ service.templates[reference]? = none ∧
      ¬ Kind.template.idPrefix.toList <+: reference.toList ∧ ∃ reading, allowed reading ∧
      ∃ entries, Listed w tenant .template reading.now entries ∧
        available = ", ".intercalate (service.templates.keys ++ entries.map (·.id)) := by
  unfold RenderService.template at ran
  cases own : service.templates[reference]? with
  | some template =>
      rw [own] at ran
      cases ran.1
  | none =>
      simp only [own] at ran
      split at ran
      · obtain ⟨content, w1, -, ran⟩ := Prog.exec_bind.1 ran
        cases content with
        | error source => cases ran.1
        | ok archive =>
            have failed : Except.error _ = Except.mapError Failure.template _ := ran.1
            cases decoded : fromArchive service.crates service.tar archive service.maxBundleBytes <;>
              rw [decoded] at failed <;> cases failed
      · rename_i human
        obtain ⟨names, w1, asked, ran⟩ := Prog.exec_bind.1 ran
        obtain ⟨entries, w2, asked, named⟩ := Prog.exec_bind.1 asked
        obtain ⟨-, reading, may, listed⟩ := list_listed sane asked
        obtain ⟨rfl, -⟩ := named
        obtain ⟨rfl, rfl⟩ := Failure.unknownTemplate.inj (Except.error.inj ran.1)
        exact ⟨rfl, rfl, human, reading, may, entries, listed, rfl⟩

/-- A listed upload is resolved, unless it expires before it is read. -/
theorem template_exec (sane : Sane limits codec False w) (stocked : Stocked service w)
    {answer : Except Failure (Template F)}
    (found : w.index.entries.lookup ⟨tenant, .template, entry.id⟩ = some entry)
    (ran : Alone allowed () (service.template tenant entry.id) w answer w') :
    w' = w ∧ ((∃ template, answer = .ok template ∧ Resolves service w tenant entry.id template) ∨
      ∃ later, allowed later ∧ entry.isExpired later.now = true ∧
        answer = .error (.store (.expired .template entry.id))) := by
  have valid := listed_valid sane found
  have prefixed : Kind.template.idPrefix.toList <+: entry.id.toList := by
    obtain ⟨body, whole, -⟩ := validateId_ok_iff.1 valid
    have whole : entry.id = Kind.template.idPrefix ++ String.ofList body := whole
    rw [whole, String.toList_append]
    exact List.prefix_append _ _
  unfold RenderService.template at ran
  cases own : service.templates[entry.id]? with
  | some template =>
      rw [own] at ran
      obtain ⟨rfl, rfl⟩ := ran
      exact ⟨rfl, .inl ⟨template, rfl, .inl own⟩⟩
  | none =>
      simp only [own, if_pos prefixed] at ran
      obtain ⟨content, w1, read, ran⟩ := Prog.exec_bind.1 ran
      obtain ⟨rfl, ⟨_, invalid, -⟩ | ⟨later, may, rfl⟩⟩ := get_exec sane.toIdle read
      · cases valid.symm.trans invalid
      cases lapsed : entry.isExpired later.now with
      | true =>
          have gone : getAt later.now w1 tenant .template entry.id storedArchive = _ :=
            getAt_expired valid found lapsed
          rw [gone] at ran
          exact ⟨ran.2, .inr ⟨later, may, lapsed, ran.1⟩⟩
      | false =>
          obtain ⟨archive, template, acked, reads⟩ := stocked _ entry rfl found
          have there := ((sane.good _).listed entry found).files _ _ acked (by decide)
          have content : getAt later.now w1 tenant .template entry.id storedArchive = .ok archive :=
            getAt_listed valid found (isExpired_iff.1 lapsed) there
          rw [content] at ran
          refine ⟨ran.2, .inl ⟨template, ?_, .inr ⟨own, archive, there, reads⟩⟩⟩
          rw [ran.1, show fromArchive _ _ _ _ = _ from reads]
          rfl

theorem summarise_exec (sane : Sane limits codec False w) (stocked : Stocked service w)
    {entries : List Entry} {result : Except Failure (List TemplateSummary)}
    (found : ∀ entry ∈ entries,
      w.index.entries.lookup ⟨tenant, .template, entry.id⟩ = some entry)
    (ran : Alone allowed () (service.summarise tenant entries) w result w') :
    w' = w ∧ ((∃ summaries, result = .ok summaries ∧
        List.Forall₂ (Summarises service w tenant) entries summaries) ∨
      ∃ entry ∈ entries, ∃ later, allowed later ∧ entry.isExpired later.now = true ∧
        result = .error (.store (.expired .template entry.id))) := by
  induction entries generalizing result w' with
  | nil =>
      obtain ⟨rfl, rfl⟩ := ran
      exact ⟨rfl, .inl ⟨[], rfl, .nil⟩⟩
  | cons entry rest ih =>
      obtain ⟨answer, w1, resolved, ran⟩ := Prog.exec_bind.1 ran
      obtain ⟨rfl, ⟨template, rfl, names⟩ | ⟨later, may, lapsed, rfl⟩⟩ :=
        template_exec sane stocked (found entry List.mem_cons_self) resolved
      · obtain ⟨others, w2, summarised, ran⟩ := Prog.exec_bind.1 ran
        obtain ⟨rfl, ⟨summaries, rfl, each⟩ | ⟨other, inside, later, may, lapsed, rfl⟩⟩ :=
          ih (fun other inside => found other (List.mem_cons_of_mem _ inside)) summarised
        · obtain ⟨rfl, rfl⟩ := ran
          exact ⟨rfl, .inl ⟨_, rfl, .cons ⟨template, names, rfl⟩ each⟩⟩
        · obtain ⟨rfl, rfl⟩ := ran
          exact ⟨rfl, .inr ⟨other, List.mem_cons_of_mem _ inside, later, may, lapsed, rfl⟩⟩
      · obtain ⟨rfl, rfl⟩ := ran
        exact ⟨rfl, .inr ⟨entry, List.mem_cons_self, later, may, lapsed, rfl⟩⟩

/-- **Every template a caller can name is listed, and every one listed can be used.**  In every
state a service reaches, a listing with no other call at work gives the service's own templates and
then the caller's live uploads, newest first, each with what its id resolves to.  It fails only for an
upload that expires while the listing is made; on one reading of the clock it never does. -/
theorem catalog_resolves (faithful : service.tar.Faithful)
    (representable : service.maxBundleBytes + 1 < TypstMcp.Template.usizeSize)
    (past : Serves service w) {result : Except Failure (List TemplateSummary)}
    (ran : Alone allowed () (service.listTemplates tenant true) w result w') :
    w' = w ∧ ∃ reading, allowed reading ∧ ∃ entries, Listed w tenant .template reading.now entries ∧
      ((∃ ephemeral, result = .ok (service.baked ++ ephemeral) ∧
          List.Forall₂ (Summarises service w tenant) entries ephemeral) ∨
        (∃ entry ∈ entries, ∃ later, allowed later ∧ later.now ≠ reading.now ∧
          entry.isExpired later.now = true ∧
          result = .error (.store (.expired .template entry.id)))) := by
  obtain ⟨sane, stocked⟩ := stocked_history (serves_history faithful representable past)
  obtain ⟨entries, w1, asked, after⟩ := Prog.exec_bind.1 ran
  obtain ⟨rfl, reading, may, listed⟩ := list_listed sane asked
  obtain ⟨answer, w2, summarised, after⟩ := Prog.exec_bind.1 after
  obtain ⟨rfl, ⟨summaries, rfl, each⟩ | ⟨entry, inside, later, may', lapsed, rfl⟩⟩ :=
    summarise_exec sane stocked (fun entry inside => ((listed.mem entry).1 inside).1) summarised
  · obtain ⟨rfl, rfl⟩ := after
    exact ⟨rfl, reading, may, _, listed, .inl ⟨summaries, rfl, each⟩⟩
  · obtain ⟨rfl, rfl⟩ := after
    refine ⟨rfl, reading, may, _, listed, .inr ⟨entry, inside, later, may', ?_, lapsed, rfl⟩⟩
    intro same
    rw [same, isExpired_iff.2 ((listed.mem entry).1 inside).2] at lapsed
    cases lapsed

theorem catalog_resolves_draft : ∃ w result w', Serves printing w ∧
    Alone (clock 5) () (printing.listTemplates someTenant true) w result w' ∧
    ∃ entry summary, result = .ok [summary] ∧ Summarises printing w someTenant entry summary := by
  have evaluated : ((solo 0 (printing.uploadTemplate someTenant none draftFiles [])
      World.fresh).any fun x => (solo 5 (printing.listTemplates someTenant true) x.2).any fun y =>
        y.1.toOption.any fun summaries => summaries.length = 1) = true := by decide +kernel
  obtain ⟨⟨uploaded, w⟩, played, listing⟩ := (Option.any_eq_true _ _).1 evaluated
  obtain ⟨⟨result, w'⟩, played', single⟩ := (Option.any_eq_true _ _).1 listing
  have ran := alone_mono (alone_solo played) fun _ _ => trivial
  have small : ((printing.checkUpload none draftFiles).toOption.all
      fun made => made.2.2.length ≤ 65536) = true := by decide +kernel
  have past : Serves printing w := by
    refine .uploaded .fresh (fun mounted template warnings archive loaded checked => ?_) ran
    obtain rfl : mounted = [] := Except.ok.inj loaded.1
    rw [List.append_nil] at checked
    rw [checked] at small
    have few : archive.length ≤ 65536 := of_decide_eq_true small
    show 65536 + archive.length < 2 ^ 64
    omega
  obtain ⟨-, reading, may, entries, listed, ⟨ephemeral, rfl, each⟩ | ⟨_, _, later, may', differs, -⟩⟩ :=
    catalog_resolves gnuTar_faithful (by decide) past (alone_solo played')
  · obtain ⟨summary, rfl⟩ := List.length_eq_one_iff.1 (of_decide_eq_true single)
    obtain ⟨entry, _, named, -, -⟩ := List.forall₂_cons_right_iff.1 each
    exact ⟨w, _, w', past, alone_solo played', entry, summary, rfl, named⟩
  · exact absurd (may'.trans may.symm) differs

end Resolving

end TypstMcp.Render
