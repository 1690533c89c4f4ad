/-
Store.Accounts -- the accounting in every reachable state

Any number of calls run interleaved, from an empty index or from one the rebuild
made of any tree, and any call on the tree may fail.  An `Audit` is the world with
one thing a returned put is asked about later: whether its key was new.

* `accounts_balance`: the counters are the sums over the entries, both ceilings of
  the store hold, and a put that returned `Ok` left its tenant within its own.
-/
import TypstMcp.Store.Rebuild
import TypstMcp.Store.Races

namespace TypstMcp.Store

open TypstMcp.Theory TypstMcp.Theory.Table
open TypstMcp.Theory.FileTree (fileBytes)
open TypstMcp.Auth (TenantId)

set_option autoImplicit false
set_option linter.unusedSectionVars false

variable {T : Type} [DecidableEq T]
variable {limits : Limits} {codec : MetaCodec}

/-! ## Steps and their ledger -/

structure Audit (T : Type) where
  world : World T
  /-- The put of this thread found no entry under its key as it took the lock. -/
  created : T → Bool := fun _ => false

def Audit.ledger (a : Audit T) : Ledger T :=
  { index := a.world.index, owner := a.world.owner.map (·.1), created := a.created }

/-- A call on the tree that comes back with an error and has changed nothing. -/
def Fails : (c : Call) → Reply c → Prop
  | .createDirAll _, .error _ | .createFile _, .error _ | .writeAll .., .error _
  | .rename .., .error _ | .removeFile _, .error _ | .read _, .error _ | .readDir _, .error _
  | .metadata _, .error _ => True
  | _, _ => False

/-- The put that takes the lock is noted down as creating its entry, or not. -/
def notedAfter (a : Audit T) (t : T) : Call → T → Bool
  | .lock purpose => createdAfter a.ledger t purpose
  | _ => a.created

/-- One call of thread `t`: answered by the world, or failing.  The stored sizes, with
those of the put that takes the lock, sum below `2 ^ 64`. -/
def audited : CallStep Call Reply T (Audit T) := fun t c a reply a' =>
  (∀ purpose, c = .lock purpose → Fits a.world.index purpose) ∧
    (answers (fun _ => True) t c a.world reply a'.world ∨
      (Fails c reply ∧ a'.world = a.world)) ∧
    a'.created = notedAfter a t c

theorem Fails.quiet {c : Call} {reply : Reply c} (fails : Fails c reply) : c.Quiet := by
  cases c <;> first | exact fails.elim | trivial

/-- **Every step of the store is a step of its ledger.** -/
theorem audited_ledger (t : T) (c : Call) (a : Audit T) (reply : Reply c) (a' : Audit T)
    (stepped : audited t c a reply a') : ledgerStep t c a.ledger reply a'.ledger := by
  obtain ⟨fits, moved, noted⟩ := stepped
  have same : a'.world.index = a.world.index → a'.world.owner = a.world.owner →
      a'.created = a.created → a'.ledger = a.ledger := by
    intro index owner created
    unfold Audit.ledger
    rw [index, owner, created]
  cases moved with
  | inr failed =>
      obtain ⟨fails, still⟩ := failed
      cases c with
      | lock _ | unlock _ _ | iterate _ => exact fails.elim
      | _ => exact same (by rw [still]) (by rw [still]) noted
  | inl answered =>
      obtain ⟨waits, choice, -, handled⟩ := answered
      have after : (handle t choice c a.world).2 = a'.world := congrArg Prod.snd handled
      cases c with
      | lock purpose =>
          obtain ⟨rfl, world⟩ := Prod.mk.inj handled
          refine ⟨?_, fits purpose rfl, rfl, ?_⟩
          · show a.world.owner.map (·.1) = none
            rw [waits purpose rfl]
            rfl
          · unfold Audit.ledger
            rw [← world, noted]
            rfl
      | unlock index note =>
          show a'.ledger = _
          unfold Audit.ledger
          rw [← after, noted]
          rfl
      | iterate index =>
          obtain ⟨rfl, world⟩ := Prod.mk.inj handled
          exact ⟨⟨_, rfl⟩, same (by rw [← world]) (by rw [← world]) noted⟩
      | _ =>
          have shared : Shared a.world a'.world := by
            rw [← after]
            exact quiet_shared (by trivial) choice a.world
          exact same shared.index shared.owner noted

/-! ## Where runs begin -/

/-- Over any tree: an empty index, or the one the rebuild made of it, and the lock free.
The files of the tree sum below `2 ^ 64`. -/
inductive Begins (limits : Limits) (codec : MetaCodec) (t : T) : World T → Prop
  | empty {w : World T} (bare : w.index = {}) : Begins limits codec t w
  | rebuilt {w w' : World T} (bare : w.index = {}) (fits : fileBytes w.disk < u64Size)
      (ran : Alone (fun _ => True) t (rebuildIndex limits codec) w () w') :
      Begins limits codec t w'

theorem Evicts.sound {ranks : (Key → Nat) → Prop} {index index' : Index}
    (evicts : Evicts limits ranks index index') (sound : index.Accounting) :
    Sound limits index' := by
  induction evicts with
  | done within => exact ⟨sound, Index.ceilings_iff.2 within⟩
  | @bare index empty =>
      refine ⟨sound, Index.ceilings_of_bare sound.total ?_⟩
      rw [size_eq_weight]
      apply weight_eq_zero
      intro key entry found
      rw [empty key] at found
      simp at found
  | turn _ _ _ _ ih => exact ih (Index.accounting_remove sound _)

theorem sound_empty (limits : Limits) : Sound limits {} :=
  ⟨Index.accounting_empty, Index.ceilings_empty limits⟩

/-- **After the index is rebuilt, from whatever tree, its books are right.** -/
theorem begins_sound {t : T} {w : World T} (begins : Begins limits codec t w) :
    Sound limits w.index := by
  cases begins with
  | empty bare =>
      rw [bare]
      exact sound_empty limits
  | @rebuilt start _ bare fits ran =>
      by_cases root : start.disk.isDir []
      · obtain ⟨index, index', rebuilt, published, -⟩ := rebuildIndex_exec root ran
        obtain ⟨middle, scanned, -⟩ := rebuilt.scanned
        rw [published]
        exact rebuilt.evicts.sound (scanned.accounting (countable_of_fileBytes fits))
      · obtain ⟨_, _, _, ran⟩ := alone_call.1 ran
        simp only [handle, FileTree.readDir, root] at ran
        obtain ⟨-, rfl⟩ := ran
        rw [bare]
        exact sound_empty limits

/-! ## Every run -/

/-- The tenant an operation stores for. -/
def Op.storesFor : Op → Option TenantId
  | .put tenant .. => some tenant
  | .putWithId tenant .. => some tenant
  | _ => none

/-- The configurations over the audit. -/
abbrev AuditConf (T : Type) := Conf Call Reply Outcome T (Audit T)

/-- Thread `t` runs the operation `ops t`; any operations, each started at any time. -/
abbrev launches (limits : Limits) (codec : MetaCodec) (ops : T → Op) :
    T → StoreProg Outcome → Audit T → Prop :=
  fun t p _ => p = (ops t).program limits codec

theorem kept_put {t : T} {op : Op} {tenant : TenantId} (stores : op.storesFor = some tenant)
    {entry : Entry} {l : Ledger T} (kept : op.kept limits t (.entry (.ok entry)) l) :
    PutKept limits t tenant (.ok entry) l := by
  cases op with
  | put other _ _ _ _ | putWithId other _ _ _ _ _ =>
      obtain rfl : other = tenant := by simpa [Op.storesFor] using stores
      exact kept
  | _ => simp [Op.storesFor] at stores

theorem poolSafe_audit {ops : T → Op} {boot : T} {w : World T}
    (begins : Begins limits codec boot w) {c : AuditConf T}
    (run : Reaches audited (launches limits codec ops) ⟨⟨w, fun _ => false⟩, fun _ => none⟩ c) :
    PoolSafe audited (fun t a a' => LedgerGuar limits t a.ledger a'.ledger)
      (fun a => Sound limits a.world.index) (fun _ _ => True)
      (fun t out a => (ops t).kept limits t out a.ledger) c := by
  refine reaches_safe ?_ (fun _ _ _ _ _ => trivial) ?_ ⟨begins_sound begins, ?_, ?_⟩ run
  · intro t a a' sound within
    exact within.sound sound
  · rintro t p a sound - rfl
    exact Safe.comap Audit.ledger audited_ledger (program_ledger (ops t) sound)
  · exact fun _ _ => trivial
  · intro t p found
    simp at found

/-- **The accounting holds in every reachable state**, at every interleaving of any
operations, each of them successful or refused. -/
theorem accounts_balance {ops : T → Op} {boot : T} {w : World T}
    (begins : Begins limits codec boot w) {c : AuditConf T}
    (run : Reaches audited (launches limits codec ops) ⟨⟨w, fun _ => false⟩, fun _ => none⟩ c) :
    c.state.world.index.Accounting ∧ c.state.world.index.Ceilings limits ∧
    ∀ t tenant entry, (ops t).storesFor = some tenant →
      c.pool t = some (.ret (.entry (.ok entry))) →
      tally c.state.world.index.perTenant tenant ≤ limits.maxTenantBytes ∧
      (c.state.created t = true →
        tally c.state.world.index.perTenantEntries tenant ≤ limits.maxTenantEntries) := by
  have safe := poolSafe_audit begins run
  refine ⟨safe.state.accounting, safe.state.ceilings, ?_⟩
  intro t tenant entry stores returned
  have kept := safe.threads t _ returned c.state .refl
  exact kept_put stores kept entry rfl

/-! ## A run of two calls -/

/-- Every thread reaps but the first, which stores a file. -/
def storeAndReap (t : Fin 3) : Op := if t = 0 then putOp "a.pdf" [1] else .reap

/-- The first half of the put's calls, the reap up to its wait for the lock, and then
both to their end. -/
def storeAndReapRun : List StoreMove :=
  launch 0 (storeAndReap 0) ++ calls 0 6 0 ++ (launch 1 (storeAndReap 1) ++ calls 1 1 5) ++
    calls 0 7 0 ++ calls 1 4 5

def auditHandle (t : Fin 3) (choice : Choice) (c : Call) (a : Audit (Fin 3)) :
    Reply c × Audit (Fin 3) :=
  let answer := handle t choice c a.world
  (answer.1, ⟨answer.2, notedAfter a t c⟩)

def auditEnabled (_ : Fin 3) (c : Call) (a : Audit (Fin 3)) : Bool :=
  unlocked a.world c && match c with
    | .lock (.storing _ size) => a.world.index.stored + size < u64Size
    | _ => true

theorem audited_enabled {t : Fin 3} {choice : Choice} {c : Call} {a : Audit (Fin 3)}
    (enabled : auditEnabled t c a = true) :
    audited t c a (auditHandle t choice c a).1 (auditHandle t choice c a).2 := by
  obtain ⟨free, fits⟩ := Bool.and_eq_true_iff.1 enabled
  refine ⟨?_, Or.inl (answers_of_unlocked trivial free), rfl⟩
  rintro purpose rfl
  cases purpose with
  | storing key size => simpa [Fits] using fits
  | other => trivial

theorem accounts_balance_storeAndReap :
    ∃ c : AuditConf (Fin 3), c.Quiet ∧
      (c.state.world.index.entries.lookup someKey).isSome ∧ c.state.created 0 = true ∧
      (c.state.world.index.Accounting ∧ c.state.world.index.Ceilings smallLimits ∧
      ∀ t tenant entry, (storeAndReap t).storesFor = some tenant →
        c.pool t = some (.ret (.entry (.ok entry))) →
        tally c.state.world.index.perTenant tenant ≤ smallLimits.maxTenantBytes ∧
        (c.state.created t = true →
          tally c.state.world.index.perTenantEntries tenant ≤ smallLimits.maxTenantEntries)) := by
  obtain ⟨c, ended, checked⟩ : ∃ c, (⟨⟨World.fresh, fun _ => false⟩, fun _ => none⟩ :
      AuditConf (Fin 3)).play auditHandle auditEnabled storeAndReapRun = some c ∧
      (allReturned c && (c.state.world.index.entries.lookup someKey).isSome &&
        c.state.created 0) = true := (Option.any_eq_true _ _).1 (by decide +kernel)
  simp only [Bool.and_eq_true] at checked
  have starts : ∀ a t p, Move.start t p ∈ storeAndReapRun →
      launches smallLimits serde storeAndReap t p a := by
    intro a t p inside
    have which : t = 0 ∧ p = (storeAndReap 0).program smallLimits serde ∨
        t = 1 ∧ p = (storeAndReap 1).program smallLimits serde := by
      simpa [storeAndReapRun, launch, calls] using inside
    rcases which with ⟨rfl, rfl⟩ | ⟨rfl, rfl⟩ <;> rfl
  have run := Conf.play_reaches starts (fun _ _ _ _ => audited_enabled) ended
  exact ⟨c, quiet_of_allReturned checked.1.1, checked.1.2, checked.2,
    accounts_balance (.empty (t := 0) rfl) run⟩

end TypstMcp.Store
