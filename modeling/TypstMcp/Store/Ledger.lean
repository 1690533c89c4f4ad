/-
Store.Ledger -- the accounting under every interleaving

The part of the store the counters depend on: the index, the lock around it, and
nothing of the disk.  A file-system call may answer anything here, so what is
proved holds however the tree looks and whatever fails.

* `evict_ledger`: eviction ends below both ceilings and raises no counter.
* `putLocked_ledger`: a put leaves sound counters, refused or not, and an accepted
  one stays within its tenant's ceilings.
* `program_ledger`: every operation of the store keeps the books.
-/
import TypstMcp.Store.Calls
import TypstMcp.Store.World

namespace TypstMcp.Store

open TypstMcp.Theory TypstMcp.Theory.Table
open TypstMcp.Auth (TenantId)

set_option autoImplicit false
set_option linter.unusedSectionVars false

variable {T : Type} [DecidableEq T]

/-- The index, the thread that has it locked, and whether the key of a thread's put
was new as the put took the lock. -/
structure Ledger (T : Type) where
  index : Index
  owner : Option T := none
  created : T → Bool := fun _ => false

/-- The standing assumption on sizes: with this put the stored sizes still sum below
`2 ^ 64`. -/
def Fits (index : Index) : Purpose → Prop
  | .storing _ size => index.stored + size < u64Size
  | .other => True

def createdAfter (l : Ledger T) (t : T) : Purpose → T → Bool
  | .storing key _ => Function.update l.created t (l.index.entries.lookup key).isNone
  | .other => l.created

/-- One call against the ledger.  Everything but the lock and the map's own iteration
is answered arbitrarily. -/
def ledgerStep : CallStep Call Reply T (Ledger T) := fun t c l =>
  match c with
  | .lock purpose => fun reply l' =>
      l.owner = none ∧ Fits l.index purpose ∧ reply = l.index ∧
        l' = { l with owner := some t, created := createdAfter l t purpose }
  | .unlock index _ => fun _ l' => l' = { l with index := index, owner := none }
  | .iterate index => fun reply l' => (∃ rank, reply = iterate rank index.entries) ∧ l' = l
  | _ => fun _ l' => l' = l

section Books

variable (limits : Limits)

/-- **The books are right**: the counters are the sums, and the ceilings hold. -/
structure Sound (index : Index) : Prop where
  accounting : index.Accounting
  ceilings : index.Ceilings limits

/-- No tenant goes over a ceiling of its own that it kept before. -/
structure TenantsKept (index index' : Index) : Prop where
  bytes : ∀ tenant, tally index.perTenant tenant ≤ limits.maxTenantBytes →
    tally index'.perTenant tenant ≤ limits.maxTenantBytes
  entries : ∀ tenant, tally index.perTenantEntries tenant ≤ limits.maxTenantEntries →
    tally index'.perTenantEntries tenant ≤ limits.maxTenantEntries

/-- What one step of a thread does to the ledger, as the others see it. -/
structure LedgerGuar (t : T) (l l' : Ledger T) : Prop where
  sound : Sound limits l.index → Sound limits l'.index
  locked : ∀ s, s ≠ t → l.owner = some s → l'.owner = l.owner ∧ l'.index = l.index
  created : ∀ s, s ≠ t → l'.created s = l.created s
  tenants : TenantsKept limits l.index l'.index

variable {limits}

theorem tenantsKept_refl (index : Index) : TenantsKept limits index index :=
  ⟨fun _ held => held, fun _ held => held⟩

theorem TenantsKept.trans {a b c : Index} (first : TenantsKept limits a b)
    (second : TenantsKept limits b c) : TenantsKept limits a c :=
  ⟨fun tenant held => second.bytes tenant (first.bytes tenant held),
    fun tenant held => second.entries tenant (first.entries tenant held)⟩

theorem ledgerGuar_refl (t : T) (l : Ledger T) : LedgerGuar limits t l l :=
  ⟨fun held => held, fun _ _ _ => ⟨rfl, rfl⟩, fun _ _ => rfl, tenantsKept_refl _⟩

/-! ## Removal -/

/-- A smaller index: sound accounting, and no counter above the old one. -/
structure Shrunk (index index' : Index) : Prop where
  accounting : index'.Accounting
  total : index'.total ≤ index.total
  count : size index'.entries ≤ size index.entries
  tenant : ∀ tenant, tally index'.perTenant tenant ≤ tally index.perTenant tenant
  tenantEntries : ∀ tenant,
    tally index'.perTenantEntries tenant ≤ tally index.perTenantEntries tenant

theorem shrunk_refl {index : Index} (sound : index.Accounting) : Shrunk index index :=
  ⟨sound, le_rfl, le_rfl, fun _ => le_rfl, fun _ => le_rfl⟩

theorem Shrunk.trans {a b c : Index} (first : Shrunk a b) (second : Shrunk b c) : Shrunk a c :=
  ⟨second.accounting, second.total.trans first.total, second.count.trans first.count,
    fun tenant => (second.tenant tenant).trans (first.tenant tenant),
    fun tenant => (second.tenantEntries tenant).trans (first.tenantEntries tenant)⟩

theorem shrunk_remove {index : Index} (sound : index.Accounting) (key : Key) :
    Shrunk index (index.removeFromIndex key) := by
  refine ⟨Index.accounting_remove sound key, ?_, ?_, fun tenant => ?_, fun tenant => ?_⟩
  · unfold Index.removeFromIndex
    split
    · exact le_rfl
    · exact Nat.sub_le _ _
  · rw [Index.removeFromIndex_entries, size_eq_weight, size_eq_weight]
    exact weight_erase_le _ _ _
  · unfold Index.removeFromIndex
    split
    · exact le_rfl
    · simp only [tally_debit]
      split
      · rename_i same; subst same; exact Nat.sub_le _ _
      · exact le_rfl
  · unfold Index.removeFromIndex
    split
    · exact le_rfl
    · simp only [tally_debit]
      split
      · rename_i same; subst same; exact Nat.sub_le _ _
      · exact le_rfl

theorem Shrunk.tenantsKept {index index' : Index} (shrunk : Shrunk index index') :
    TenantsKept limits index index' :=
  ⟨fun tenant held => (shrunk.tenant tenant).trans held,
    fun tenant held => (shrunk.tenantEntries tenant).trans held⟩

theorem Shrunk.sound {index index' : Index} (shrunk : Shrunk index index')
    (sound : Sound limits index) : Sound limits index' :=
  ⟨shrunk.accounting, shrunk.total.trans sound.ceilings.bytes,
    shrunk.count.trans sound.ceilings.entries⟩

/-! ## Inside a lock section -/

/-- What a thread knows while it has the index locked. -/
structure Holding (limits : Limits) (t : T) (index : Index) (created : Bool) (l : Ledger T) :
    Prop where
  sound : Sound limits l.index
  owner : l.owner = some t
  index : l.index = index
  created : l.created t = created

theorem stable_holding (limits : Limits) (t : T) (index : Index) (created : Bool) :
    Stable (LedgerGuar limits) t (Holding limits t index created) := by
  rintro l l' held ⟨s, other, within⟩
  obtain ⟨owner, same⟩ := within.locked t (Ne.symm other) held.owner
  exact ⟨within.sound held.sound, owner.trans held.owner, same.trans held.index,
    (within.created t (Ne.symm other)).trans held.created⟩

/-- What a thread knows outside its lock sections. -/
def Settled (limits : Limits) (t : T) (created : Bool) (l : Ledger T) : Prop :=
  Sound limits l.index ∧ l.created t = created

theorem stable_settled (limits : Limits) (t : T) (created : Bool) :
    Stable (LedgerGuar limits) t (Settled limits t created) := by
  rintro l l' ⟨sound, same⟩ ⟨s, other, within⟩
  exact ⟨within.sound sound, (within.created t (Ne.symm other)).trans same⟩

/-- Calls that leave the ledger alone. -/
def Call.Quiet : Call → Prop
  | .lock _ | .unlock .. => False
  | _ => True

theorem quiet_step {t : T} {c : Call} (quiet : c.Quiet) {l l' : Ledger T} {reply : Reply c}
    (stepped : ledgerStep t c l reply l') : l' = l := by
  cases c <;> first | exact absurd quiet id | exact stepped | exact stepped.2

variable {α : Type} {post : α → Ledger T → Prop} {t : T}

/-- A quiet call, under any assertion the others respect. -/
theorem quiet_call {holds : Ledger T → Prop} (stable : Stable (LedgerGuar limits) t holds)
    {c : Call} (quiet : c.Quiet) {next : Reply c → StoreProg α} {l : Ledger T} (start : holds l)
    (each : ∀ reply l', holds l' → ledgerStep t c l' reply l' →
      Safe ledgerStep (LedgerGuar limits) t post (next reply) l') :
    Safe ledgerStep (LedgerGuar limits) t post (.call c next) l := by
  refine safe_call stable start fun l' reply l'' held stepped => ?_
  obtain rfl := quiet_step quiet stepped
  exact ⟨ledgerGuar_refl t _, each reply _ held stepped⟩

/-- A program of quiet calls keeps any assertion the others respect. -/
theorem quiet_program {holds : Ledger T → Prop} (stable : Stable (LedgerGuar limits) t holds)
    {p : StoreProg α} (quiet : p.Calls Call.Quiet) {l : Ledger T} (start : holds l) :
    Safe ledgerStep (LedgerGuar limits) t (fun _ => holds) p l := by
  refine safe_of_calls stable (fun c s reply s' quiet held stepped => ?_) quiet start
  obtain rfl := quiet_step quiet stepped
  exact ⟨ledgerGuar_refl t _, held⟩

/-- Taking the lock. -/
theorem lock_call {created : Bool} {purpose : Purpose} {next : Index → StoreProg α}
    {l : Ledger T} (start : Settled limits t created l)
    (each : ∀ index created' l', Fits index purpose →
      (∀ key size, purpose = .storing key size →
        created' = (index.entries.lookup key).isNone) →
      (purpose = .other → created' = created) →
      Holding limits t index created' l' →
      Safe ledgerStep (LedgerGuar limits) t post (next index) l') :
    Safe ledgerStep (LedgerGuar limits) t post (.call (.lock purpose) next) l := by
  refine safe_call (stable_settled limits t created) start fun l' reply l'' held stepped => ?_
  obtain ⟨free, fits, rfl, rfl⟩ := stepped
  refine ⟨⟨fun sound => sound, fun s other owned => ?_, fun s other => ?_, tenantsKept_refl _⟩,
    each _ (createdAfter l' t purpose t) _ fits ?_ ?_ ⟨held.1, rfl, rfl, rfl⟩⟩
  · rw [free] at owned
    exact absurd owned (by simp)
  · cases purpose with
    | storing key size => exact Function.update_of_ne other _ _
    | other => rfl
  · rintro key size rfl
    simp [createdAfter]
  · rintro rfl
    exact held.2

/-- Dropping the guard over an index with sound books. -/
theorem unlock_call {index published : Index} {created : Bool} {note : Note}
    {next : Unit → StoreProg α} {l : Ledger T} (start : Holding limits t index created l)
    (sound : Sound limits published) (kept : TenantsKept limits index published)
    (each : ∀ l', Settled limits t created l' → l'.index = published →
      Safe ledgerStep (LedgerGuar limits) t post (next ()) l') :
    Safe ledgerStep (LedgerGuar limits) t post (.call (.unlock published note) next) l := by
  refine safe_call (stable_holding limits t index created) start fun l' reply l'' held stepped => ?_
  obtain rfl : l'' = _ := stepped
  refine ⟨⟨fun _ => sound, fun s other owned => ?_, fun s _ => rfl, held.index ▸ kept⟩,
    each _ ⟨sound, held.created⟩ rfl⟩
  rw [held.owner] at owned
  exact absurd (Option.some.inj owned).symm other

/-! ## Eviction -/

theorem quiet_removeDirAll (p : Path) : (removeDirAll p).Calls Call.Quiet :=
  (unlinking_removeDirAll p).mono fun c unlinking => by
    cases c <;> first | exact unlinking.elim | trivial

/-- What an eviction from `index` leaves. -/
def EvictedTo (limits : Limits) (index index' : Index) : Prop :=
  Shrunk index index' ∧ index'.Ceilings limits

/-- **Eviction ends below both ceilings.**  Each turn takes one entry out, so the
number of entries is fuel enough; when none is left the sums are zero. -/
theorem evictLocked_ledger {held : Index} {created : Bool} {fuel : Nat} {index : Index}
    (sound : index.Accounting) (enough : size index.entries ≤ fuel) {l : Ledger T}
    (start : Holding limits t held created l) :
    Safe ledgerStep (LedgerGuar limits) t
      (fun index' l' => Holding limits t held created l' ∧ EvictedTo limits index index')
      (evictLocked limits fuel index) l := by
  have stable := stable_holding limits t held created
  have done : ∀ {index' : Index} {l' : Ledger T}, Holding limits t held created l' →
      EvictedTo limits index index' →
      Safe ledgerStep (LedgerGuar limits) t
        (fun index' l' => Holding limits t held created l' ∧ EvictedTo limits index index')
        (.ret index') l' := fun now evicted =>
    safe_ret stable now fun _ later => ⟨later, evicted⟩
  induction fuel generalizing index l with
  | zero =>
      exact done start ⟨shrunk_refl sound, Index.ceilings_of_bare sound.total (by omega)⟩
  | succ fuel ih =>
      unfold evictLocked
      split
      · show Safe ledgerStep (LedgerGuar limits) t _ (Prog.call (.iterate index) _) l
        refine quiet_call stable (by trivial) start fun order l1 held1 answered => ?_
        obtain ⟨⟨rank, rfl⟩, -⟩ := answered
        simp only [Prog.ret_bind]
        cases picked : eldest (·.createdAt) (iterate rank index.entries) with
        | none =>
            have bare : size index.entries = 0 := by
              have := congrArg List.length (eldest_none picked)
              simpa [iterate, List.length_insertionSort, size] using this
            exact done held1 ⟨shrunk_refl sound, Index.ceilings_of_bare sound.total bare⟩
        | some oldest =>
            obtain ⟨key, entry⟩ := oldest
            have found : index.entries.lookup key = some entry :=
              mem_iterate.1 (eldest_spec picked).1
            have fewer := size_erase_of_lookup found
            refine safe_bind (quiet_program stable (quiet_removeDirAll _) held1)
              fun _ l2 held2 => ?_
            show Safe ledgerStep (LedgerGuar limits) t _ (Prog.call .countQuota _) l2
            refine quiet_call stable (by trivial) held2 fun _ l3 held3 _ => ?_
            have shrunk := shrunk_remove sound key
            refine (ih shrunk.accounting ?_ held3 ?_).mono fun index' l' final =>
              ⟨final.1, shrunk.trans final.2.1, final.2.2⟩
            · rw [Index.removeFromIndex_entries]; omega
            · exact fun now evicted => safe_ret stable now fun _ later => ⟨later, evicted⟩
      · rename_i within
        exact done start ⟨shrunk_refl sound, Index.ceilings_iff.2 (by simpa using within)⟩

theorem evict_ledger {held : Index} {created : Bool} {index : Index} (sound : index.Accounting)
    {l : Ledger T} (start : Holding limits t held created l) :
    Safe ledgerStep (LedgerGuar limits) t
      (fun index' l' => Holding limits t held created l' ∧ EvictedTo limits index index')
      (evict limits index) l :=
  evictLocked_ledger sound le_rfl start

/-! ## A put -/

theorem quiet_writeAtomic (p : Path) (bytes : Bytes) :
    (writeAtomic p bytes).Calls Call.Quiet :=
  (writing_writeAtomic p bytes).mono fun c writing => by
    cases c <;> first | exact writing.elim | trivial

/-- What a put leaves: sound books, whether it was refused or not, and when it was
accepted its tenant within its ceilings. -/
structure PutBooks (limits : Limits) (key : Key) (index : Index)
    (result : Except StoreError Entry) (index' : Index) : Prop where
  sound : Sound limits index'
  kept : TenantsKept limits index index'
  bytes : ∀ entry, result = .ok entry → tally index'.perTenant key.tenant ≤ limits.maxTenantBytes
  entries : ∀ entry, result = .ok entry → index.entries.lookup key = none →
    tally index'.perTenantEntries key.tenant ≤ limits.maxTenantEntries

theorem putBooks_refused {key : Key} {index : Index} (sound : Sound limits index)
    (error : StoreError) : PutBooks limits key index (.error error) index :=
  ⟨sound, tenantsKept_refl index, fun _ same => by simp at same, fun _ same => by simp at same⟩

/-- The counters an admitted put commits. -/
theorem commit_tallies {index : Index} {key : Key} {size : Nat} {entry : Entry}
    (sound : index.Accounting) (fits : index.stored + size < u64Size)
    (admitted : index.refusal limits key size = none) :
    tally (index.commit key entry size).perTenant key.tenant ≤ limits.maxTenantBytes ∧
      (index.entries.lookup key = none →
        tally (index.commit key entry size).perTenantEntries key.tenant ≤
          limits.maxTenantEntries) ∧
      TenantsKept limits index (index.commit key entry size) := by
  obtain ⟨room, slot⟩ := Index.refusal_none admitted
  have used : tally index.perTenant key.tenant + size < u64Size := by
    have := Index.tenantBytes_le_stored index key.tenant
    rw [sound.tenant]; omega
  rw [saturatingAdd_of_lt used] at room
  have own : tally (index.commit key entry size).perTenant key.tenant ≤ limits.maxTenantBytes := by
    simp only [Index.commit, tally_insert, if_true, wrapAdd_of_lt used]
    exact room
  have ownEntries : index.entries.lookup key = none →
      tally (index.commit key entry size).perTenantEntries key.tenant ≤
        limits.maxTenantEntries := by
    intro fresh
    have := slot fresh
    simp only [Index.commit, fresh, Option.isNone_none, if_true, tally_insert]
    omega
  refine ⟨own, ownEntries, fun tenant held => ?_, fun tenant held => ?_⟩
  · by_cases same : tenant = key.tenant
    · subst same; exact own
    · simp only [Index.commit, tally_insert, if_neg same]
      exact held
  · cases found : index.entries.lookup key with
    | none =>
        by_cases same : tenant = key.tenant
        · subst same; exact ownEntries found
        · simp only [Index.commit, found, Option.isNone_none, if_true, tally_insert, if_neg same]
          exact held
    | some old =>
        simp only [Index.commit, found, Option.isNone_some, Bool.false_eq_true, if_false]
        exact held

variable {codec : MetaCodec}

/-- **A put leaves sound books**, whatever the file system answers it. -/
theorem putLocked_ledger {key : Key} {name : String} {bytes : Bytes} {info : Meta}
    {index : Index} {created : Bool} {l : Ledger T} (start : Holding limits t index created l)
    (fits : index.stored + bytes.length < u64Size) :
    Safe ledgerStep (LedgerGuar limits) t
      (fun out l' => Holding limits t index created l' ∧
        PutBooks limits key index out.1 out.2.1)
      (putLocked limits codec key name bytes info index) l := by
  have stable := stable_holding limits t index created
  have sound : Sound limits index := start.index ▸ start.sound
  have refused : ∀ (error : StoreError) {l' : Ledger T}, Holding limits t index created l' →
      Safe ledgerStep (LedgerGuar limits) t
        (fun out l' => Holding limits t index created l' ∧
          PutBooks limits key index out.1 out.2.1)
        (.ret (.error error, index, Note.nothing)) l' := by
    intro error l' now
    exact safe_ret stable now fun _ later => ⟨later, putBooks_refused sound error⟩
  unfold putLocked
  dsimp only
  cases admitted : index.refusal limits key bytes.length with
  | some error => exact refused error start
  | none =>
      show Safe ledgerStep (LedgerGuar limits) t _ (Prog.call (.createDirAll _) _) l
      refine quiet_call stable (by trivial) start fun made l1 held1 _ => ?_
      cases made with
      | error kind => exact refused _ held1
      | ok _ =>
          show Safe ledgerStep (LedgerGuar limits) t _ (Prog.call (.pathExists _) _) l1
          refine quiet_call stable (by trivial) held1 fun taken l2 held2 _ => ?_
          simp only [Prog.ret_bind]
          split
          · exact refused _ held2
          · refine safe_bind (quiet_program stable (quiet_writeAtomic _ _) held2)
              fun written l3 held3 => ?_
            cases written with
            | error error => exact refused _ held3
            | ok _ =>
                show Safe ledgerStep (LedgerGuar limits) t _ (Prog.call .now _) l3
                refine quiet_call stable (by trivial) held3 fun timestamp l4 held4 _ => ?_
                simp only [Prog.ret_bind]
                refine safe_bind (quiet_program stable (quiet_writeAtomic _ _) held4)
                  fun recorded l5 held5 => ?_
                cases recorded with
                | error error =>
                    show Safe ledgerStep (LedgerGuar limits) t _ (Prog.call (.removeFile _) _) l5
                    exact quiet_call stable (by trivial) held5 fun _ l6 held6 _ =>
                      refused _ held6
                | ok _ =>
                    have committed : (index.commit key
                        (index.nextEntry limits key bytes.length timestamp info)
                        bytes.length).Accounting :=
                      Index.accounting_commit sound.accounting fits
                    obtain ⟨own, ownEntries, kept⟩ := commit_tallies sound.accounting fits admitted
                    refine safe_bind (evict_ledger committed held5) fun index' l6 held6 => ?_
                    obtain ⟨held6, shrunk, below⟩ := held6
                    refine safe_ret stable held6 fun _ later => ⟨later,
                      ⟨shrunk.accounting, below⟩, kept.trans shrunk.tenantsKept,
                      fun _ _ => (shrunk.tenant _).trans own,
                      fun _ _ fresh => (shrunk.tenantEntries _).trans (ownEntries fresh)⟩

/-! ## The operations -/

/-- What a returned put says of its tenant. -/
def PutKept (limits : Limits) (t : T) (tenant : TenantId) (result : Except StoreError Entry)
    (l : Ledger T) : Prop :=
  ∀ entry, result = .ok entry →
    tally l.index.perTenant tenant ≤ limits.maxTenantBytes ∧
      (l.created t = true → tally l.index.perTenantEntries tenant ≤ limits.maxTenantEntries)

theorem stable_putKept (t : T) (tenant : TenantId) (result : Except StoreError Entry) :
    Stable (LedgerGuar limits) t (PutKept limits t tenant result) := by
  rintro l l' held ⟨s, other, within⟩ entry same
  obtain ⟨bytes, entries⟩ := held entry same
  refine ⟨within.tenants.bytes tenant bytes, fun made => within.tenants.entries tenant ?_⟩
  exact entries ((within.created t (Ne.symm other)).symm.trans made)

theorem putWithId_ledger {tenant : TenantId} {kind : Kind} {id name : String} {bytes : Bytes}
    {info : Meta} {l : Ledger T} (start : Sound limits l.index) :
    Safe ledgerStep (LedgerGuar limits) t (fun result => PutKept limits t tenant result)
      (putWithId limits codec tenant kind id name bytes info) l := by
  unfold putWithId
  split
  · exact safe_ret (stable_putKept t tenant (.error _)) (fun _ same => by simp at same)
      fun _ held => held
  · rename_i id' _
    refine lock_call ⟨start, rfl⟩ fun index created l1 fits isNew _ held => ?_
    simp only [Prog.ret_bind]
    refine safe_bind (putLocked_ledger held fits) fun out l2 books => ?_
    obtain ⟨result, index', note⟩ := out
    obtain ⟨held2, books⟩ := books
    refine unlock_call held2 books.sound books.kept fun l3 settled same => ?_
    refine safe_ret (stable_putKept t tenant result) (fun entry ok => ?_) fun _ held => held
    subst same
    refine ⟨books.bytes entry ok, fun made => books.entries entry ok ?_⟩
    have := isNew ⟨tenant, kind, id'⟩ bytes.length rfl
    rw [settled.2, this] at made
    simpa using made

theorem checkLive_ledger {key : Key} {created : Bool} {l : Ledger T}
    (start : Settled limits t created l) :
    Safe ledgerStep (LedgerGuar limits) t (fun _ => Settled limits t created)
      (checkLive key) l := by
  have stable := stable_settled limits t created
  have leave : ∀ {index : Index} {l' : Ledger T} (result : Except StoreError Entry),
      Holding limits t index created l' →
      Safe ledgerStep (LedgerGuar limits) t (fun _ => Settled limits t created)
        (.call (.unlock index .nothing) fun _ => .ret result) l' := fun result held =>
    unlock_call held (held.index ▸ held.sound) (tenantsKept_refl _) fun l'' settled _ =>
      safe_ret stable settled fun _ later => later
  refine lock_call start fun index created' l1 _ _ same held => ?_
  obtain rfl := same rfl
  simp only [Prog.ret_bind]
  split
  · exact leave _ held
  · show Safe ledgerStep (LedgerGuar limits) t _ (Prog.call .now _) l1
    refine quiet_call (stable_holding limits t index _) (by trivial) held fun timestamp l2 held2 _ => ?_
    simp only [Prog.ret_bind]
    split
    · exact leave _ held2
    · exact leave _ held2

theorem remove_ledger {key : Key} {rest : List Key} {created : Bool} {l : Ledger T}
    (start : Settled limits t created l) :
    Safe ledgerStep (LedgerGuar limits) t (fun _ => Settled limits t created)
      (remove key rest) l := by
  have stable := stable_settled limits t created
  refine safe_bind (quiet_program stable (quiet_removeDirAll _) start) fun _ l1 settled => ?_
  refine lock_call settled fun index created' l2 _ _ same held => ?_
  obtain rfl := same rfl
  have sound : Sound limits index := held.index ▸ held.sound
  have shrunk := shrunk_remove sound.accounting key
  exact unlock_call held (shrunk.sound sound) shrunk.tenantsKept fun l3 settled _ =>
    safe_ret stable settled fun _ later => later

theorem removeEach_ledger {keys : List Key} {created : Bool} {l : Ledger T}
    (start : Settled limits t created l) :
    Safe ledgerStep (LedgerGuar limits) t (fun _ => Settled limits t created)
      (removeEach keys) l := by
  induction keys generalizing l with
  | nil => exact safe_ret (stable_settled limits t created) start fun _ later => later
  | cons key rest ih =>
      exact safe_bind (remove_ledger start) fun _ _ settled => ih settled

/-- What each operation says of its tenant when it has returned. -/
def Op.kept (limits : Limits) (t : T) : Op → Outcome → Ledger T → Prop
  | .putWithId tenant .., .entry result, l => PutKept limits t tenant result l
  | .put tenant .., .entry result, l => PutKept limits t tenant result l
  | _, _, _ => True

/-- **Every operation of the store keeps the books.** -/
theorem program_ledger (op : Op) {l : Ledger T} (start : Sound limits l.index) :
    Safe ledgerStep (LedgerGuar limits) t (op.kept limits t) (op.program limits codec) l := by
  have settled : Settled limits t (l.created t) l := ⟨start, rfl⟩
  have stable := stable_settled limits t (l.created t)
  have free : ∀ {β : Type} (wrap : β → Outcome) {p : StoreProg β} {l : Ledger T},
      (∀ out l', op.kept limits t (wrap out) l' ↔ True) →
      Safe ledgerStep (LedgerGuar limits) t (fun _ _ => True) p l →
      Safe ledgerStep (LedgerGuar limits) t (op.kept limits t)
        (p.bind fun out => .ret (wrap out)) l := by
    intro β wrap p l silent safe
    exact safe_bind safe fun out l' _ => fun l'' _ => (silent out l'').2 trivial
  have live : ∀ key, Safe ledgerStep (LedgerGuar limits) t
      (fun _ => Settled limits t (l.created t)) (checkLive key) l := fun key =>
    checkLive_ledger settled
  cases op with
  | put tenant kind name bytes info =>
      show Safe ledgerStep (LedgerGuar limits) t _ (Prog.call .newUlid _) l
      refine quiet_call stable (by trivial) settled fun ulid l1 settled1 _ => ?_
      refine safe_bind (putWithId_ledger settled1.1) fun result l2 kept => ?_
      exact safe_ret (stable_putKept t tenant result) kept fun _ later => later
  | putWithId tenant kind id name bytes info =>
      refine safe_bind (putWithId_ledger start) fun result l1 kept => ?_
      exact safe_ret (stable_putKept t tenant result) kept fun _ later => later
  | get tenant kind id name =>
      refine free .bytes (fun _ _ => Iff.rfl) ?_
      unfold Store.get
      split
      · exact fun _ _ => trivial
      · refine safe_bind (live _) fun result l1 settled1 => ?_
        cases result with
        | error error => exact fun _ _ => trivial
        | ok entry =>
            show Safe ledgerStep (LedgerGuar limits) t _ (Prog.call (.read _) _) l1
            refine quiet_call stable (by trivial) settled1 fun found l2 _ _ => ?_
            cases found with
            | ok bytes => exact fun _ _ => trivial
            | error source => cases source <;> exact fun _ _ => trivial
  | entry tenant kind id =>
      refine free .entry (fun _ _ => Iff.rfl) ?_
      unfold Store.entry
      split
      · exact fun _ _ => trivial
      · exact (live _).mono fun _ _ _ => trivial
  | list tenant kind =>
      refine free .entries (fun _ _ => Iff.rfl) ?_
      show Safe ledgerStep (LedgerGuar limits) t _ (Prog.call .now _) l
      refine quiet_call stable (by trivial) settled fun now l1 settled1 _ => ?_
      show Safe ledgerStep (LedgerGuar limits) t _ (Prog.call (.lock .other) _) l1
      refine lock_call settled1 fun index created l2 _ _ _ held => ?_
      show Safe ledgerStep (LedgerGuar limits) t _ (Prog.call (.iterate index) _) l2
      refine quiet_call (stable_holding limits t index created) (by trivial) held fun order l3 held3 _ => ?_
      exact unlock_call held3 (held3.index ▸ held3.sound) (tenantsKept_refl _)
        fun _ _ _ => fun _ _ => trivial
  | delete tenant kind id =>
      refine free .entry (fun _ _ => Iff.rfl) ?_
      unfold Store.delete
      split
      · exact fun _ _ => trivial
      · refine safe_bind (live _) fun result l1 settled1 => ?_
        cases result with
        | error error => exact fun _ _ => trivial
        | ok entry =>
            exact safe_bind (remove_ledger settled1) fun _ _ _ => fun _ _ => trivial
  | reap =>
      refine free .count (fun _ _ => Iff.rfl) ?_
      show Safe ledgerStep (LedgerGuar limits) t _ (Prog.call .now _) l
      refine quiet_call stable (by trivial) settled fun now l1 settled1 _ => ?_
      show Safe ledgerStep (LedgerGuar limits) t _ (Prog.call (.lock .other) _) l1
      refine lock_call settled1 fun index created l2 _ _ same held => ?_
      obtain rfl := same rfl
      show Safe ledgerStep (LedgerGuar limits) t _ (Prog.call (.iterate index) _) l2
      refine quiet_call (stable_holding limits t index _) (by trivial) held fun order l3 held3 _ => ?_
      refine unlock_call held3 (held3.index ▸ held3.sound) (tenantsKept_refl _)
        fun l4 settled4 _ => ?_
      simp only [Prog.ret_bind]
      refine safe_bind (removeEach_ledger settled4) fun _ l5 settled5 => ?_
      show Safe ledgerStep (LedgerGuar limits) t _ (Prog.call (.countExpired _) _) l5
      exact quiet_call stable (by trivial) settled5 fun _ _ _ _ => fun _ _ => trivial

end Books

end TypstMcp.Store
