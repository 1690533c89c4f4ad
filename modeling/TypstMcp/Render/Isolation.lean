/-
Render.Isolation -- what one tenant's compiles tell of another

The store answers a tenant from its own entries alone (`Store.Tenants`).  A compile and
a listing ask the store many times over, and what they ask next depends on what they
were answered; they too answer from the tenant's own entries alone (`Private`).

* `private_compile`, `private_listTemplates`: built from the calls they make.
* `unwinds_service`: the unwinding, one request at a time.
* `compile_noninterference`: whole runs, on which other tenants store, delete and compile.
  What tenants do share is the supervisor's permits, so a compile says what it meets with there.
-/
import TypstMcp.Render.Catalog
import TypstMcp.Store.Tenants

namespace TypstMcp.Render

open TypstMcp.Theory TypstMcp.Theory.Table
open TypstMcp.Auth (TenantId)
open TypstMcp.Bundle TypstMcp.Store
open TypstMcp.Template (Template)
open TypstMcp.Worker.Run (SpawnError)
open TypstMcp.Theory.Json (utf8)

set_option autoImplicit false
set_option linter.unusedSectionVars false

variable {limits : Limits} {codec : MetaCodec} {tenant : TenantId} {w w' v v' : Solo} {α β : Type}

/-! ## Programs that answer one tenant -/

/-- The program comes to an end, and answers alike on two stores that the tenant cannot tell apart. -/
structure Private (limits : Limits) (codec : MetaCodec) (tenant : TenantId) (p : StoreProg α) :
    Prop where
  ends : Balanced false p
  alike : ∀ now w v a b w' v', Store.Alike limits codec tenant w v →
    Alone (clock now) () p w a w' → Alone (clock now) () p v b v' → a = b

theorem private_ret (value : α) : Private limits codec tenant (.ret value) :=
  ⟨rfl, fun _ _ _ _ _ _ _ _ ran ran' => ran.1.trans ran'.1.symm⟩

theorem private_bind {p : StoreProg α} {f : α → StoreProg β}
    (asks : ∀ now, Asks codec False (clock now) () p) (first : Private limits codec tenant p)
    (rest : ∀ value, Private limits codec tenant (f value)) :
    Private limits codec tenant (p.bind f) := by
  refine ⟨balanced_bind first.ends fun value => (rest value).ends, ?_⟩
  intro now w v a b w' v' alike ran ran'
  obtain ⟨mid, w1, before, after⟩ := Prog.exec_bind.1 ran
  obtain ⟨mid', v1, before', after'⟩ := Prog.exec_bind.1 ran'
  obtain rfl := first.alike now w v mid mid' w1 v1 alike before before'
  obtain rfl := (asks now).still w mid w1 alike.all.toIdle before
  obtain rfl := (asks now).still v mid v1 alike.one.toIdle before'
  exact (rest mid).alike now _ _ a b w' v' alike after after'

theorem private_get (kind : Kind) (id name : String) :
    Private limits codec tenant (Store.get tenant kind id name) := by
  refine ⟨balanced_get _ _ _ _, fun now w v a b w' v' alike ran ran' => ?_⟩
  obtain ⟨rfl, ⟨error, invalid, rfl⟩ | ⟨choice, clocked, rfl⟩⟩ := get_exec alike.all.toIdle ran
  · obtain ⟨-, ⟨_, invalid', rfl⟩ | ⟨choice', -, rfl⟩⟩ := get_exec alike.one.toIdle ran'
    · rw [invalid] at invalid'
      exact congrArg Except.error (Except.error.inj invalid')
    · simp [getAt, invalid]
  · obtain ⟨-, ⟨_, invalid', rfl⟩ | ⟨choice', clocked', rfl⟩⟩ := get_exec alike.one.toIdle ran'
    · simp [getAt, invalid']
    · rw [getAt_same alike.same, show choice.now = now from clocked,
        show choice'.now = now from clocked']

theorem private_entry (kind : Kind) (id : String) :
    Private limits codec tenant (Store.entry tenant kind id) := by
  refine ⟨balanced_entry _ _ _, fun now w v a b w' v' alike ran ran' => ?_⟩
  obtain ⟨rfl, ⟨error, invalid, rfl⟩ | ⟨valid, choice, clocked, rfl⟩⟩ := entry_exec alike.all.toIdle ran
  · obtain ⟨-, ⟨_, invalid', rfl⟩ | ⟨valid', -⟩⟩ := entry_exec alike.one.toIdle ran'
    · rw [invalid] at invalid'
      exact congrArg Except.error (Except.error.inj invalid')
    · cases invalid.symm.trans valid'
  · obtain ⟨-, ⟨_, invalid', rfl⟩ | ⟨-, choice', clocked', rfl⟩⟩ := entry_exec alike.one.toIdle ran'
    · cases valid.symm.trans invalid'
    · unfold liveAt
      rw [alike.same.lookup ⟨tenant, kind, id⟩ rfl, show choice.now = now from clocked,
        show choice'.now = now from clocked']

theorem private_list (kind : Kind) : Private limits codec tenant (Store.list tenant kind) := by
  refine ⟨balanced_list _ _, fun now w v a b w' v' alike ran ran' => ?_⟩
  obtain ⟨rfl, choice, rank, clocked, rfl⟩ := list_exec alike.all.toIdle ran
  obtain ⟨rfl, choice', rank', clocked', rfl⟩ := list_exec alike.one.toIdle ran'
  rw [show choice.now = now from clocked, show choice'.now = now from clocked']
  exact (list_same alike.all alike.same _ _ _ _).symm

/-! ## Assets, templates and the compile -/

theorem private_preflight {limit : Nat} (ids seen : List String) (total : Nat)
    (entries : List (String × Entry)) :
    Private limits codec tenant (preflight limit tenant ids seen total entries) := by
  induction ids generalizing seen total entries with
  | nil => exact private_ret _
  | cons id rest ih =>
      unfold preflight
      split
      · exact private_ret _
      · refine private_bind (fun _ => asks_entry _ _) (private_entry _ _) fun answer => ?_
        cases answer with
        | error source => exact private_ret _
        | ok entry =>
            dsimp only
            split
            · exact private_ret _
            · exact ih _ _ _

theorem private_readAssets (entries : List (String × Entry)) :
    Private limits codec tenant (readAssets tenant entries) := by
  induction entries with
  | nil => exact private_ret _
  | cons asset rest ih =>
      refine private_bind (fun _ => asks_get _ _ _) (private_get _ _ _) fun answer => ?_
      cases answer with
      | error source => exact private_ret _
      | ok bytes =>
          refine private_bind (fun _ => asks_readAssets rest) ih fun others => ?_
          cases others <;> exact private_ret _

theorem private_loadAssets {limit : Nat} (ids : List String) :
    Private limits codec tenant (loadAssets limit tenant ids) := by
  unfold loadAssets
  split
  · exact private_ret _
  · refine private_bind (fun _ => asks_preflight _ _ _ _) (private_preflight _ _ _ _) fun answer => ?_
    cases answer with
    | error error => exact private_ret _
    | ok entries => exact private_readAssets entries

variable {F : Type} (service : RenderService F)

theorem private_template (reference : String) :
    Private limits codec tenant (service.template tenant reference) := by
  unfold RenderService.template
  split
  · exact private_ret _
  · split
    · refine private_bind (fun _ => asks_get _ _ _) (private_get _ _ _) fun answer => ?_
      cases answer <;> exact private_ret _
    · refine private_bind (fun _ => asks_bind (asks_list _) fun _ => asks_ret _) ?_ fun _ => private_ret _
      exact private_bind (fun _ => asks_list _) (private_list _) fun _ => private_ret _

theorem private_assemble (request : RenderRequest F) :
    Private limits codec tenant (service.assemble tenant request) := by
  unfold RenderService.assemble
  split
  · exact private_ret _
  · refine private_bind (fun _ => asks_loadAssets _) (private_loadAssets _) fun answer => ?_
    cases answer with
    | error error => exact private_ret _
    | ok assets =>
        dsimp only
        split
        · exact private_ret _
        · refine private_bind (fun _ => asks_template service _) (private_template service _)
            fun found => ?_
          cases found <;> exact private_ret _

/-- **A compile answers its tenant from that tenant's own entries.** -/
theorem private_compile (request : RenderRequest F) :
    Private limits codec tenant (service.compile tenant request) := by
  refine private_bind (fun _ => asks_assemble service request) (private_assemble service request)
    fun answer => ?_
  cases answer <;> exact private_ret _

theorem asks_summarise {allowed : Choice → Prop} (entries : List Entry) :
    Asks codec False allowed () (service.summarise tenant entries) := by
  induction entries with
  | nil => exact asks_ret _
  | cons entry rest ih =>
      refine asks_bind (asks_template service _) fun answer => ?_
      cases answer with
      | error failure => exact asks_ret _
      | ok template =>
          refine asks_bind ih fun others => ?_
          cases others <;> exact asks_ret _

theorem private_summarise (entries : List Entry) :
    Private limits codec tenant (service.summarise tenant entries) := by
  induction entries with
  | nil => exact private_ret _
  | cons entry rest ih =>
      refine private_bind (fun _ => asks_template service _) (private_template service _) fun answer => ?_
      cases answer with
      | error failure => exact private_ret _
      | ok template =>
          refine private_bind (fun _ => asks_summarise service rest) ih fun others => ?_
          cases others <;> exact private_ret _

theorem asks_listTemplates {allowed : Choice → Prop} (includeEphemeral : Bool) :
    Asks codec False allowed () (service.listTemplates tenant includeEphemeral) := by
  unfold RenderService.listTemplates
  split
  · refine asks_bind (asks_list _) fun entries => asks_bind (asks_summarise service entries) fun answer => ?_
    cases answer <;> exact asks_ret _
  · exact asks_ret _

/-- **So does a listing.** -/
theorem private_listTemplates (includeEphemeral : Bool) :
    Private limits codec tenant (service.listTemplates tenant includeEphemeral) := by
  unfold RenderService.listTemplates
  split
  · refine private_bind (fun _ => asks_list _) (private_list _) fun entries => ?_
    refine private_bind (fun _ => asks_summarise service entries) (private_summarise service entries)
      fun answer => ?_
    cases answer <;> exact private_ret _
  · exact private_ret _

/-! ## Whole runs -/

/-- The service while its supervisor turns compiles away, times them out or loses their workers, or,
where it does none of these, as it is. -/
def meeting (met : Option SpawnError) : RenderService F :=
  match met with
  | none => service
  | some error => { service with compileBundle := fun _ _ _ => .error (.spawn error) }

/-- What is asked of a service or of its store; `met` is what a compile meets with at the supervisor,
whose permits all tenants share. -/
inductive Ask (F : Type)
  | store (op : Op)
  | compile (tenant : TenantId) (request : RenderRequest F) (met : Option SpawnError)
  | listTemplates (tenant : TenantId) (includeEphemeral : Bool)

inductive Answer
  | store (out : Outcome)
  | compile (result : Except Failure CompiledDocument)
  | listTemplates (result : Except Failure (List TemplateSummary))

namespace Ask

def program : Ask F → StoreProg Answer
  | .store op => return .store (← op.program service.limits service.codec)
  | .compile tenant request met => return .compile (← (meeting service met).compile tenant request)
  | .listTemplates tenant includeEphemeral =>
      return .listTemplates (← service.listTemplates tenant includeEphemeral)

/-- The tenant it is asked for; a reap is nobody's. -/
def caller : Ask F → Option TenantId
  | .store op => op.caller
  | .compile tenant _ _ | .listTemplates tenant _ => some tenant

/-- A put names its id, and with it neither global ceiling is exceeded. -/
def Roomy (limits : Limits) (w : Solo) : Ask F → Prop
  | .store op => op.Roomy limits w
  | _ => True

end Ask

/-- One request at one clock reading. -/
def replied (w : Solo) (event : Nat × Ask F) (answer : Answer) (w' : Solo) : Prop :=
  Alone (clock event.1) () (event.2.program service) w answer w'

/-- The same, no global ceiling in the way. -/
def repliedInRoom (w : Solo) (event : Nat × Ask F) (answer : Answer) (w' : Solo) : Prop :=
  event.2.Roomy service.limits w ∧ replied service w event answer w'

/-- The requests of a tenant, and those its own run keeps. -/
def asksFor (tenant : TenantId) (event : Nat × Ask F) : Prop := event.2.caller = some tenant

def keptFor (tenant : TenantId) (event : Nat × Ask F) : Prop :=
  event.2.caller = some tenant ∨ event.2.caller = none

instance (tenant : TenantId) : DecidablePred (asksFor (F := F) tenant) := fun event =>
  inferInstanceAs (Decidable (event.2.caller = some tenant))

instance (tenant : TenantId) : DecidablePred (keptFor (F := F) tenant) := fun event =>
  inferInstanceAs (Decidable (event.2.caller = some tenant ∨ event.2.caller = none))

section Unwinding

variable {service} {now : Nat} {answer answer' : Answer} {limits' : Limits} {codec' : MetaCodec}

/-- A question asked for one tenant, on its own and on both stores. -/
theorem asked {p : StoreProg α} {q : α → Answer} (asks : Asks codec False (clock now) () p)
    (idle : Idle codec False w) (ran : Alone (clock now) () (p.bind fun a => .ret (q a)) w answer w') :
    w' = w ∧ ∃ a, Alone (clock now) () p w a w ∧ answer = q a := by
  obtain ⟨a, w1, first, rfl, rfl⟩ := Prog.exec_bind.1 ran
  obtain rfl := asks.still w a _ idle first
  exact ⟨rfl, a, first, rfl⟩

theorem asked_alike {p : StoreProg α} {q : α → Answer} (asks : Asks codec False (clock now) () p)
    (own : Private limits codec tenant p) (alike : Store.Alike limits codec tenant w v)
    (ran : Alone (clock now) () (p.bind fun a => .ret (q a)) w answer w')
    (ran' : Alone (clock now) () (p.bind fun a => .ret (q a)) v answer' v') :
    answer = answer' ∧ Store.Alike limits codec tenant w' v' := by
  obtain ⟨rfl, a, first, rfl⟩ := asked asks alike.all.toIdle ran
  obtain ⟨rfl, b, first', rfl⟩ := asked asks alike.one.toIdle ran'
  obtain rfl := own.alike now _ _ a b _ _ alike first first'
  exact ⟨rfl, alike⟩

end Unwinding

/-- The service unwinds as its store does: what only asks changes nothing, and its own tenant is
answered alike. -/
theorem unwinds_service (tenant : TenantId) :
    Unwinds (repliedInRoom service) (replied service) (asksFor tenant) (keptFor tenant)
      (Store.Alike service.limits service.codec tenant) where
  keeps event own := .inl own
  deleted w v event answer w' alike foreign ran := by
    obtain ⟨roomy, ran⟩ := ran
    obtain ⟨now, ask⟩ := event
    cases ask with
    | store op =>
        obtain ⟨out, w1, served, -, rfl⟩ := Prog.exec_bind.1 ran
        exact (unwinds_tenant service.limits service.codec tenant).deleted w v (now, op) out _ alike
          foreign ⟨roomy, served⟩
    | compile other request met =>
        obtain ⟨rfl, -⟩ := asked (asks_compile (meeting service met) request) alike.all.toIdle ran
        exact alike
    | listTemplates other includeEphemeral =>
        obtain ⟨rfl, -⟩ := asked (asks_listTemplates service includeEphemeral) alike.all.toIdle ran
        exact alike
  shown w v event answer answer' w' v' alike kept ran ran' := by
    obtain ⟨roomy, ran⟩ := ran
    obtain ⟨now, ask⟩ := event
    cases ask with
    | store op =>
        obtain ⟨out, w1, served, rfl, rfl⟩ := Prog.exec_bind.1 ran
        obtain ⟨out', v1, served', rfl, rfl⟩ := Prog.exec_bind.1 ran'
        obtain ⟨same, after⟩ := (unwinds_tenant service.limits service.codec tenant).shown w v
          (now, op) out out' _ _ alike kept ⟨roomy, served⟩ served'
        exact ⟨fun own => congrArg Answer.store (same own), after⟩
    | compile other request met =>
        obtain rfl : other = tenant := Option.some.inj (kept.resolve_right (Option.some_ne_none _))
        obtain ⟨same, after⟩ := asked_alike (asks_compile (meeting service met) request)
          (private_compile (meeting service met) request) alike ran ran'
        exact ⟨fun _ => same, after⟩
    | listTemplates other includeEphemeral =>
        obtain rfl : other = tenant := Option.some.inj (kept.resolve_right (Option.some_ne_none _))
        obtain ⟨same, after⟩ := asked_alike (asks_listTemplates service includeEphemeral)
          (private_listTemplates service includeEphemeral) alike ran ran'
        exact ⟨fun _ => same, after⟩

/-- Every request is answered, and leaves the store so that the next is. -/
theorem replied_total (event : Nat × Ask F) (rest : AtRest service.codec False w) :
    ∃ answer w', replied service w event answer w' ∧ AtRest service.codec False w' := by
  obtain ⟨now, ask⟩ := event
  -- A program that answers one tenant comes to an end, and only asks.
  have ends : ∀ {tenant : TenantId} {α : Type} {p : StoreProg α},
      Private service.limits service.codec tenant p → Asks service.codec False (clock now) () p →
      ∃ value, Alone (clock now) () p w value w := by
    intro tenant α p own asks
    have may : clock now ⟨now, "", fun _ => 0, fun _ => 0⟩ := rfl
    obtain ⟨value, w', ran, -⟩ : ∃ value w', Alone (clock now) () p w value w' ∧ w'.owner = none :=
      balanced_runs may own.ends fun _ => rest.free
    exact ⟨value, asks.still w value w' rest.toIdle ran ▸ ran⟩
  cases ask with
  | store op =>
      obtain ⟨out, w', served, after⟩ : ∃ out w',
          answered service.limits service.codec w (now, op) out w' ∧ AtRest service.codec False w' :=
        answered_total (now, op) rest
      exact ⟨.store out, w', Prog.exec_bind.2 ⟨out, w', served, rfl, rfl⟩, after⟩
  | compile other request met =>
      obtain ⟨result, ran⟩ := ends (private_compile (meeting service met) request)
        (asks_compile (meeting service met) request)
      exact ⟨.compile result, _, Prog.exec_bind.2 ⟨result, _, ran, rfl, rfl⟩, rest⟩
  | listTemplates other includeEphemeral =>
      obtain ⟨result, ran⟩ := ends (private_listTemplates service includeEphemeral)
        (asks_listTemplates service includeEphemeral)
      exact ⟨.listTemplates result, _, Prog.exec_bind.2 ⟨result, _, ran, rfl, rfl⟩, rest⟩

/-- **Compiles tell nothing of other tenants but what the supervisor says.**  In a run of store calls,
whose puts name their ids, compiles and listings by any tenants in which neither global ceiling is
exceeded, what one tenant is answered (documents and refusals, the templates it is shown and those an
unknown name is told of) is what it is answered when everything the other tenants asked for is deleted
from the run, and each of its compiles meets with the same at the supervisor. -/
theorem compile_noninterference (tenant : TenantId) {trace : List ((Nat × Ask F) × Answer)}
    (ran : Run (repliedInRoom service) World.fresh trace w) :
    (∃ trace' v, Run (replied service) World.fresh trace' v ∧
      trace'.map Prod.fst = (trace.map Prod.fst).filter (keptFor (F := F) tenant)) ∧
    ∀ trace' v, Run (replied service) World.fresh trace' v →
      trace'.map Prod.fst = (trace.map Prod.fst).filter (keptFor (F := F) tenant) →
      results (asksFor tenant) trace = results (asksFor tenant) trace' ∧ SameAt (Of tenant) w v := by
  have fresh : InOrder service.limits service.codec World.fresh := inOrder_fresh
  constructor
  · exact Run.total (fun _ event rest => replied_total service event rest) fresh.toAtRest _
  · intro trace' v ran' script
    obtain ⟨same, alike⟩ := (unwinds_service service tenant).results alike_fresh ran ran' script
    exact ⟨same, alike.same⟩

/-- One tenant stores a file, and another compiles a letter, and is then turned away. -/
def dearAsks : List (Nat × Ask Int) :=
  [(0, .store (putOp "a.pdf" [1])), (1, .compile otherTenant dear none),
    (2, .compile otherTenant dear (some .overloaded))]

/-- What the letter compiles to. -/
def dearDocument : CompiledDocument where
  pages := 1
  diagnostics := []
  pdf := utf8 "= Dear reader"
  previews := [⟨1, 1, 1, utf8 "= Dear reader"⟩]

theorem compile_noninterference_dear : ∃ trace w, trace.map Prod.fst = dearAsks ∧
    results (asksFor otherTenant) trace =
      [.compile (.ok dearDocument), .compile (.error (.spawn .overloaded))] ∧
    ∀ trace' v, Run (replied printing) World.fresh trace' v →
      trace'.map Prod.fst = dearAsks.filter (fun event => keptFor otherTenant event) →
      results (asksFor otherTenant) trace = results (asksFor otherTenant) trace' ∧
        SameAt (Of otherTenant) w v := by
  obtain ⟨⟨out1, w1⟩, first, more⟩ : ∃ x,
      solo 0 ((Ask.store (putOp "a.pdf" [1])).program printing) World.fresh = some x ∧
        ((solo 1 (printing.compile otherTenant dear) x.2).any fun y => y.1 = .ok dearDocument ∧
          ((solo 2 ((meeting printing (some .overloaded)).compile otherTenant dear) y.2).any fun z =>
            z.1 = .error (.spawn .overloaded)) = true) = true :=
    (Option.any_eq_true _ _).1 (by decide +kernel)
  obtain ⟨⟨result2, w2⟩, second, more⟩ := (Option.any_eq_true _ _).1 more
  obtain ⟨rfl, more⟩ := of_decide_eq_true more
  obtain ⟨⟨result3, w3⟩, third, turned⟩ := (Option.any_eq_true _ _).1 more
  obtain rfl : result3 = .error (.spawn .overloaded) := of_decide_eq_true turned
  have ran : Run (repliedInRoom printing) World.fresh
      [((0, .store (putOp "a.pdf" [1])), out1),
        ((1, .compile otherTenant dear none), .compile (.ok dearDocument)),
        ((2, .compile otherTenant dear (some .overloaded)),
          .compile (.error (.spawn .overloaded)))] w3 := by
    refine .cons ⟨fun _ => ⟨?_, fun _ => ?_⟩, alone_solo first⟩
      (.cons ⟨trivial, Prog.exec_bind.2 ⟨_, _, alone_solo second, rfl, rfl⟩⟩
        (.cons ⟨trivial, Prog.exec_bind.2 ⟨_, _, alone_solo third, rfl, rfl⟩⟩ .nil))
    · show 0 + 1 ≤ 65536
      omega
    · show 0 < 10
      omega
  exact ⟨_, w3, rfl, rfl, (compile_noninterference printing otherTenant ran).2⟩

end TypstMcp.Render
