/-
Store.Tenants -- what one tenant can learn of another

A run of operations at given clock readings, no global ceiling ever in the way, is
compared with the same run less the operations of every tenant but one.  Two stores
look the same to a tenant when they agree on its entries and on the directories of
its entries (`SameAt`): each operation of another tenant leaves that as it is, and
each of its own, made on both stores, answers alike and keeps it.

* `served_foreign`, `served_own`: the two halves of the unwinding, one operation at a
  time.
* `tenant_noninterference`: the tenant's answers over whole runs.
-/
import TypstMcp.Store.ReadBack
import TypstMcp.Theory.Unwinding

namespace TypstMcp.Store

open TypstMcp.Theory TypstMcp.Theory.Table
open TypstMcp.Auth (TenantId)

set_option autoImplicit false
set_option linter.unusedSectionVars false

variable {codec : MetaCodec} {allowed : Choice → Prop} {limits : Limits}
variable {w w' v v' : Solo}

/-! ## What two stores have in common -/

/-- The two stores hold the same at the keys of `which`, in the index and on disk. -/
structure SameAt (which : Key → Prop) (w v : Solo) : Prop where
  lookup : ∀ key, which key → v.index.entries.lookup key = w.index.entries.lookup key
  disk : ∀ key, which key → ∀ p, entryDir key <+: p → v.disk.lookup p = w.disk.lookup p

theorem sameAt_refl (which : Key → Prop) (w : Solo) : SameAt which w w :=
  ⟨fun _ _ => rfl, fun _ _ _ _ => rfl⟩

theorem SameAt.symm {which : Key → Prop} (same : SameAt which w v) : SameAt which v w :=
  ⟨fun key held => (same.lookup key held).symm,
    fun key held p under => (same.disk key held p under).symm⟩

theorem SameAt.trans {which : Key → Prop} {u : Solo} (first : SameAt which w v)
    (second : SameAt which v u) : SameAt which w u :=
  ⟨fun key held => (second.lookup key held).trans (first.lookup key held),
    fun key held p under => (second.disk key held p under).trans (first.disk key held p under)⟩

theorem SameAt.mono {which fewer : Key → Prop} (same : SameAt which w v)
    (sub : ∀ key, fewer key → which key) : SameAt fewer w v :=
  ⟨fun key held => same.lookup key (sub key held), fun key held => same.disk key (sub key held)⟩

/-- A store between two calls, its books right. -/
structure InOrder (limits : Limits) (codec : MetaCodec) (w : Solo) : Prop extends
    AtRest codec False w where
  sound : Sound limits w.index

theorem inOrder_fresh : InOrder limits codec World.fresh := by
  have sane : Sane limits codec False World.fresh := sane_fresh
  exact ⟨sane.toAtRest, sane.sound⟩

theorem Dropped.inOrder {keys : List Key} (inOrder : InOrder limits codec w)
    (dropped : Dropped keys w w') (rest : AtRest codec False w') : InOrder limits codec w' :=
  ⟨rest, dropped.sound limits inOrder.sound⟩

/-- A removal leaves every other key as it was. -/
theorem Dropped.sameAt {keys : List Key} (dropped : Dropped keys w w') :
    SameAt (· ∉ keys) w w' := by
  constructor
  · intro key aside
    rw [dropped.lookup, if_neg aside]
  · intro key aside p under
    apply dropped.disk
    intro other inside under'
    exact aside (entryDir_under under under' ▸ inside)

/-- The same removal on both sides. -/
theorem Dropped.both {which : Key → Prop} {keys keys' : List Key} (same : SameAt which w v)
    (dropped : Dropped keys w w') (dropped' : Dropped keys' v v')
    (alike : ∀ key, which key → (key ∈ keys ↔ key ∈ keys')) : SameAt which w' v' := by
  constructor
  · intro key held
    rw [dropped.lookup, dropped'.lookup, same.lookup key held]
    by_cases picked : key ∈ keys
    · rw [if_pos picked, if_pos ((alike key held).1 picked)]
    · rw [if_neg picked, if_neg fun later => picked ((alike key held).2 later)]
  · intro key held p under
    by_cases picked : key ∈ keys
    · rw [dropped.gone key picked p under, dropped'.gone key ((alike key held).1 picked) p under]
    · have picked' : key ∉ keys' := fun later => picked ((alike key held).2 later)
      rw [dropped.sameAt.disk key picked p under, dropped'.sameAt.disk key picked' p under]
      exact same.disk key held p under

/-! ## A put with room -/

/-- With this put neither global ceiling is exceeded. -/
structure Room (limits : Limits) (index : Index) (key : Key) (size : Nat) : Prop where
  bytes : index.stored + size ≤ limits.maxStoreBytes
  entries : index.entries.lookup key = none → Table.size index.entries < limits.maxStoreEntries

/-- What the put is refused with once its id is valid, if anything. -/
def putRefusal (limits : Limits) (w : Solo) (key : Key) (name : String) (size : Nat) :
    Option StoreError :=
  match w.index.refusal limits key size with
  | some error => some error
  | none =>
      if (w.disk.lookup (entryDir key ++ [safeName name])).isSome then
        some (.io (entryDir key ++ [safeName name]) .alreadyExists)
      else none

theorem accepted_iff {key : Key} {name : String} {size : Nat} :
    Accepted limits w key name size ↔
      validateId key.kind key.id = .ok key.id ∧ putRefusal limits w key name size = none := by
  unfold putRefusal
  constructor
  · rintro ⟨valid, room, absent⟩
    simp [valid, room, absent]
  · rintro ⟨valid, accepted⟩
    split at accepted
    · simp at accepted
    · rename_i room
      split at accepted
      · simp at accepted
      · rename_i absent
        exact ⟨valid, room, by simpa using absent⟩

theorem Room.fits {key : Key} {size : Nat} {index : Index} (room : Room limits index key size) :
    index.stored + size < u64Size := by
  have capped := limits.maxStoreBytes_lt
  have bytes := room.bytes
  omega

/-- There is nothing to evict after a put with room. -/
theorem Room.within {key : Key} {size : Nat} {index : Index}
    (room : Room limits index key size) (sound : Sound limits index) (entry : Entry) :
    (index.commit key entry size).exceeded limits = false := by
  apply Index.ceilings_iff.1
  have total : (index.commit key entry size).total = index.total + size :=
    wrapAdd_of_lt (by rw [sound.accounting.total]; exact room.fits)
  have bytes := room.bytes
  have books := sound.accounting.total
  constructor
  · omega
  · show Table.size (index.entries.insert key entry) ≤ limits.maxStoreEntries
    have few := sound.ceilings.entries
    rw [size_eq_weight, weight_insert]
    cases found : index.entries.lookup key with
    | none =>
        have less := room.entries found
        rw [erase_of_lookup_none found, ← size_eq_weight]
        omega
    | some old =>
        have split := weight_of_lookup (fun _ _ => 1) found
        rw [size_eq_weight] at few
        omega

/-- An accepted put with room leaves its own entry renewed or new, its file beside the
metadata, and nothing else changed. -/
structure Added (limits : Limits) (codec : MetaCodec) (now : Nat) (key : Key) (name : String)
    (bytes : Bytes) (info : Meta) (w w' : Solo) : Prop where
  lookup : w'.index.entries.lookup key =
    some (w.index.nextEntry limits key bytes.length now info)
  disk : ∀ p, entryDir key <+: p → w'.disk.lookup p = dirStored codec key (safeName name) bytes
    (w.index.nextEntry limits key bytes.length now info) (w.lockedFor key bytes.length) p
  others : SameAt (· ≠ key) w w'

/-- **A put with room**: refused, and nothing is changed; or accepted. -/
theorem putWithId_roomy {now : Nat} {key : Key} {name : String} {bytes : Bytes}
    {info : Meta} {result : Except StoreError Entry} (inOrder : InOrder limits codec w)
    (room : Accepted limits w key name bytes.length → Room limits w.index key bytes.length)
    (ran : Alone (clock now) ()
      (putWithId limits codec key.tenant key.kind key.id name bytes info) w result w') :
    InOrder limits codec w' ∧
    ((∃ error, validateId key.kind key.id = .error error ∧ result = .error error ∧ w' = w) ∨
    (validateId key.kind key.id = .ok key.id ∧
      ((∃ error, putRefusal limits w key name bytes.length = some error ∧ result = .error error ∧
          SameAt (fun _ => True) w w') ∨
        (putRefusal limits w key name bytes.length = none ∧
          result = .ok (w.index.nextEntry limits key bytes.length now info) ∧
          Added limits codec now key name bytes info w w')))) := by
  have rest' := putWithId_atRest inOrder.toAtRest (fun no => no.elim) ran
  rcases putWithId_exec inOrder.toAtRest (fun no => no.elim) ran with
    ⟨error, invalid, failed, rfl⟩ | ⟨valid, begun, out, w1, ended, _, answer, rfl⟩
  · exact ⟨inOrder, Or.inl ⟨error, invalid, failed, rfl⟩⟩
  have free : ∀ {u : Solo}, Fixed () (w.lockedFor key bytes.length) u → ∀ other,
      u.Undoomed other := by
    intro u fixed other s
    rw [show u.doomed s = [] from fixed.own.trans inOrder.doomed]
    exact List.not_mem_nil
  cases ended with
  | @refused error _ full mid =>
      refine ⟨⟨rest', inOrder.sound⟩, Or.inr ⟨valid, Or.inl ⟨error, ?_, answer, fun _ _ => rfl, ?_⟩⟩⟩
      · have full : w.index.refusal limits key bytes.length = some error := full
        unfold putRefusal
        rw [full]
      · intro other _ p under
        exact mid.same (free mid.fixed other) under
  | taken vacant there mid =>
      refine ⟨⟨rest', inOrder.sound⟩, Or.inr ⟨valid, Or.inl ⟨_, ?_, answer, fun _ _ => rfl, ?_⟩⟩⟩
      · have vacant : w.index.refusal limits key bytes.length = none := vacant
        have there : (w.disk.lookup (entryDir key ++ [safeName name])).isSome := there
        unfold putRefusal
        rw [vacant]
        simp [there]
      · intro other _ p under
        exact mid.same (free mid.fixed other) under
  | @stored choice entry w2 index' _ vacant absent may made mid evicts evicting =>
      obtain rfl : choice.now = now := may
      have made : entry = w.index.nextEntry limits key bytes.length choice.now info := made
      have accepted : Accepted limits w key name bytes.length := ⟨valid, vacant, absent⟩
      have room := room accepted
      have grown : entry.bytes = ((w.index.entries.lookup key).map (·.bytes)).getD 0 +
          bytes.length := made ▸ Index.nextEntry_bytes room.fits
      have committed : (w.index.commit key entry bytes.length).Accounting :=
        Index.accounting_grow inOrder.sound.accounting room.fits grown
      have within := room.within inOrder.sound entry
      have same : index' = w.index.commit key entry bytes.length := by
        cases evicts with
        | done _ => rfl
        | bare _ => rfl
        | turn exceeded _ _ _ =>
            have exceeded : (w.index.commit key entry bytes.length).exceeded limits = true :=
              exceeded
            rw [within] at exceeded
            simp at exceeded
      subst same
      have still : ∀ other p, entryDir other <+: p → w1.disk.lookup p = w2.disk.lookup p :=
        fun other => evicting.kept other (by simp) (free (mid.fixed.trans evicting.fixed) other) rfl
      refine ⟨⟨rest', committed, Index.ceilings_iff.2 within⟩, Or.inr ⟨valid, Or.inr
        ⟨(accepted_iff.1 accepted).2, answer.trans (congrArg Except.ok made), ?_, ?_, ?_, ?_⟩⟩⟩
      · rw [← made]
        exact (Index.lookup_commit _ _ _ _ _).trans (if_pos rfl)
      · intro p under
        rw [← made]
        exact (still key p under).trans (mid.here p under)
      · intro other apart
        exact (Index.lookup_commit _ _ _ _ _).trans (if_neg apart)
      · intro other apart p under
        exact (still other p under).trans (mid.others other apart (free mid.fixed other) p under)

/-! ## Answers from the same view -/

/-- The keys of one tenant. -/
def Of (tenant : TenantId) (key : Key) : Prop := key.tenant = tenant

variable {tenant : TenantId}

theorem tally_same (inOrder : InOrder limits codec w) (inOrder' : InOrder limits codec v)
    (same : SameAt (Of tenant) w v) :
    tally v.index.perTenant tenant = tally w.index.perTenant tenant ∧
      tally v.index.perTenantEntries tenant = tally w.index.perTenantEntries tenant := by
  rw [inOrder.sound.accounting.tenant, inOrder'.sound.accounting.tenant,
    inOrder.sound.accounting.tenantEntries, inOrder'.sound.accounting.tenantEntries]
  constructor
  · refine weight_congr_on (fun key : Key => key.tenant = tenant) ?_ same.lookup
    intro key entry foreign
    exact if_neg foreign
  · refine weight_congr_on (fun key : Key => key.tenant = tenant) ?_ same.lookup
    intro key entry foreign
    exact if_neg foreign

theorem putRefusal_same (key : Key) (inOrder : InOrder limits codec w)
    (inOrder' : InOrder limits codec v) (same : SameAt (Of key.tenant) w v) (name : String) (size : Nat) :
    putRefusal limits v key name size = putRefusal limits w key name size := by
  obtain ⟨bytes, count⟩ := tally_same inOrder inOrder' same
  unfold putRefusal Index.refusal
  rw [bytes, count, same.lookup key rfl, same.disk key rfl _ (List.prefix_append _ _)]

theorem nextEntry_same (limits : Limits) {key : Key} (same : SameAt (Of key.tenant) w v) (size now : Nat)
    (info : Meta) : v.index.nextEntry limits key size now info =
      w.index.nextEntry limits key size now info := by
  unfold Index.nextEntry
  rw [same.lookup key rfl]

theorem dirStored_same {key : Key} (same : SameAt (Of key.tenant) w v) (name : String)
    (bytes : Bytes) (entry : Entry) (size : Nat) {p : Path} (under : entryDir key <+: p) :
    dirStored codec key name bytes entry (v.lockedFor key size) p =
      dirStored codec key name bytes entry (w.lockedFor key size) p := by
  have made : dirMade key (v.lockedFor key size) p = dirMade key (w.lockedFor key size) p := by
    unfold dirMade
    by_cases itself : p = entryDir key
    · rw [itself, Function.update_self, Function.update_self]
    · rw [Function.update_of_ne itself, Function.update_of_ne itself]
      exact same.disk key rfl p under
  unfold dirStored
  by_cases info : p = entryDir key ++ [metaName]
  · rw [info, Function.update_self, Function.update_self]
  · rw [Function.update_of_ne info, Function.update_of_ne info]
    by_cases payload : p = entryDir key ++ [name]
    · rw [payload, Function.update_self, Function.update_self]
    · rw [Function.update_of_ne payload, Function.update_of_ne payload, made]

theorem getAt_same (same : SameAt (Of tenant) w v) (now : Nat) (kind : Kind) (id name : String) :
    getAt now v tenant kind id name = getAt now w tenant kind id name := by
  unfold getAt
  cases validateId kind id with
  | error _ => rfl
  | ok id =>
      have live : liveAt now v.index ⟨tenant, kind, id⟩ = liveAt now w.index ⟨tenant, kind, id⟩ := by
        unfold liveAt
        rw [same.lookup ⟨tenant, kind, id⟩ rfl]
      have read : readAt v.disk ⟨tenant, kind, id⟩ name = readAt w.disk ⟨tenant, kind, id⟩ name := by
        unfold readAt FileTree.read
        rw [same.disk ⟨tenant, kind, id⟩ rfl _ (List.prefix_append _ _)]
      simp only [live, read]

/-! ### Listings -/

theorem listedBefore_total : Std.Total listedBefore := by
  constructor
  intro a b
  unfold listedBefore
  rcases Nat.lt_trichotomy a.createdAt b.createdAt with less | same | more
  · exact Or.inr (Or.inl less)
  · cases String.le_total a.id b.id with
    | inl first => exact Or.inl (Or.inr ⟨same, first⟩)
    | inr second => exact Or.inr (Or.inr ⟨same.symm, second⟩)
  · exact Or.inl (Or.inl more)

theorem listedBefore_trans : IsTrans Entry listedBefore := by
  constructor
  intro a b c first second
  unfold listedBefore at *
  rcases first with newer | ⟨same, ids⟩
  · rcases second with newer' | ⟨same', _⟩
    · exact Or.inl (by omega)
    · exact Or.inl (by omega)
  · rcases second with newer' | ⟨same', ids'⟩
    · exact Or.inl (by omega)
    · exact Or.inr ⟨by omega, String.le_trans ids ids'⟩

/-- A listing does not depend on the order in which the map is iterated, nor on other
tenants' entries. -/
theorem list_same (inOrder : InOrder limits codec w) (same : SameAt (Of tenant) w v) (kind : Kind)
    (now : Nat) (rank rank' : Key → Nat) :
    ((listedIn tenant kind now (iterate rank' v.index.entries)).map (·.2)).insertionSort
        listedBefore =
      ((listedIn tenant kind now (iterate rank w.index.entries)).map (·.2)).insertionSort
        listedBefore := by
  have := listedBefore_total
  have := listedBefore_trans
  have members : ∀ x, x ∈ listedIn tenant kind now (iterate rank' v.index.entries) ↔
      x ∈ listedIn tenant kind now (iterate rank w.index.entries) := by
    rintro ⟨key, entry⟩
    unfold listedIn
    simp only [List.mem_filter, mem_iterate, Bool.and_eq_true, decide_eq_true_eq]
    constructor
    · rintro ⟨found, ⟨own, of⟩, live⟩
      exact ⟨(same.lookup key own) ▸ found, ⟨own, of⟩, live⟩
    · rintro ⟨found, ⟨own, of⟩, live⟩
      exact ⟨(same.lookup key own).symm ▸ found, ⟨own, of⟩, live⟩
  have perm : (listedIn tenant kind now (iterate rank' v.index.entries)).Perm
      (listedIn tenant kind now (iterate rank w.index.entries)) :=
    (List.perm_ext_iff_of_nodup ((nodup_iterate _ _).filter _) ((nodup_iterate _ _).filter _)).2
      members
  refine List.Perm.eq_of_pairwise ?_ (List.pairwise_insertionSort listedBefore _)
    (List.pairwise_insertionSort listedBefore _) ?_
  · intro a b first second before after
    -- Two entries listed before each other have one id, hence one key.
    have source : ∀ c, c ∈ ((listedIn tenant kind now (iterate rank w.index.entries)).map (·.2)) →
        w.index.entries.lookup ⟨tenant, kind, c.id⟩ = some c := by
      intro c inside
      obtain ⟨⟨key, entry⟩, picked, rfl⟩ := List.mem_map.1 inside
      unfold listedIn at picked
      simp only [List.mem_filter, mem_iterate, Bool.and_eq_true, decide_eq_true_eq] at picked
      obtain ⟨found, ⟨own, of⟩, -⟩ := picked
      have id := ((inOrder.good key).listed entry found).id
      obtain ⟨tenant', kind', id'⟩ := key
      obtain rfl : tenant' = tenant := own
      obtain rfl : kind' = kind := of
      obtain rfl : entry.id = id' := id
      exact found
    have one := source a ((perm.map _).mem_iff.1 (List.mem_insertionSort _ |>.1 first))
    have two := source b (List.mem_insertionSort _ |>.1 second)
    have ids : a.id = b.id := by
      unfold listedBefore at before after
      rcases before with newer | ⟨_, le⟩
      · rcases after with newer' | ⟨_, _⟩ <;> omega
      · rcases after with newer' | ⟨_, ge⟩
        · omega
        · exact String.le_antisymm le ge
    rw [ids, two] at one
    exact (Option.some.inj one).symm
  · exact ((List.perm_insertionSort _ _).trans (perm.map _)).trans (List.perm_insertionSort _ _).symm

/-! ## One operation on two stores -/

theorem putWithId_both (key : Key) {now : Nat} {name : String} {bytes : Bytes} {info : Meta}
    {result result' : Except StoreError Entry} (inOrder : InOrder limits codec w)
    (inOrder' : InOrder limits codec v) (same : SameAt (Of key.tenant) w v)
    (room : Accepted limits w key name bytes.length → Room limits w.index key bytes.length)
    (room' : Accepted limits v key name bytes.length → Room limits v.index key bytes.length)
    (ran : Alone (clock now) ()
      (putWithId limits codec key.tenant key.kind key.id name bytes info) w result w')
    (ran' : Alone (clock now) ()
      (putWithId limits codec key.tenant key.kind key.id name bytes info) v result' v') :
    result = result' ∧ SameAt (Of key.tenant) w' v' := by
  have refusals := putRefusal_same key inOrder inOrder' same name bytes.length
  have next := nextEntry_same limits same bytes.length now info
  obtain ⟨-, done⟩ := putWithId_roomy inOrder room ran
  obtain ⟨-, done'⟩ := putWithId_roomy inOrder' room' ran'
  rcases done with ⟨error, invalid, rfl, rfl⟩ | ⟨valid, done⟩
  · rcases done' with ⟨error', invalid', rfl, rfl⟩ | ⟨valid', -⟩
    · rw [invalid] at invalid'
      exact ⟨congrArg Except.error (Except.error.inj invalid'), same⟩
    · rw [invalid] at valid'
      simp at valid'
  rcases done' with ⟨error', invalid', -, -⟩ | ⟨-, done'⟩
  · rw [valid] at invalid'
    simp at invalid'
  rcases done with ⟨error, refused, rfl, left⟩ | ⟨accepted, rfl, added⟩
  · rcases done' with ⟨error', refused', rfl, left'⟩ | ⟨accepted', -, -⟩
    · rw [refusals, refused] at refused'
      have everywhere : ∀ key' : Key, Of key.tenant key' → True := fun _ _ => trivial
      exact ⟨congrArg Except.error (Option.some.inj refused'),
        ((left.mono everywhere).symm.trans same).trans (left'.mono everywhere)⟩
    · rw [refusals, refused] at accepted'
      simp at accepted'
  rcases done' with ⟨error', refused', -, -⟩ | ⟨-, rfl, added'⟩
  · rw [refusals, accepted] at refused'
    simp at refused'
  refine ⟨by rw [next], ?_, ?_⟩
  · intro key' own
    by_cases mine : key' = key
    · rw [mine, added.lookup, added'.lookup, next]
    · rw [added.others.lookup key' mine, added'.others.lookup key' mine, same.lookup key' own]
  · intro key' own p under
    by_cases mine : key' = key
    · subst mine
      rw [added.disk p under, added'.disk p under, next]
      exact dirStored_same same _ _ _ _ under
    · rw [added.others.disk key' mine p under, added'.others.disk key' mine p under]
      exact same.disk key' own p under

theorem delete_both {now : Nat} {kind : Kind} {id : String}
    {result result' : Except StoreError Entry} (inOrder : InOrder limits codec w)
    (inOrder' : InOrder limits codec v) (same : SameAt (Of tenant) w v)
    (ran : Alone (clock now) () (Store.delete tenant kind id) w result w')
    (ran' : Alone (clock now) () (Store.delete tenant kind id) v result' v') :
    result = result' ∧ SameAt (Of tenant) w' v' := by
  have found := same.lookup ⟨tenant, kind, id⟩ rfl
  rcases delete_exec inOrder.toAtRest ran with ⟨error, invalid, rfl, rfl⟩ | ⟨valid, choice, may, answer, done⟩
  · rcases delete_exec inOrder'.toAtRest ran' with ⟨error', invalid', rfl, rfl⟩ | ⟨valid', _⟩
    · rw [invalid] at invalid'
      exact ⟨congrArg Except.error (Except.error.inj invalid'), same⟩
    · rw [invalid] at valid'
      simp at valid'
  rcases delete_exec inOrder'.toAtRest ran' with ⟨_, invalid', _⟩ | ⟨-, choice', may', answer', done'⟩
  · rw [valid] at invalid'
    simp at invalid'
  have results : result = result' := by
    rw [answer, answer', show choice.now = now from may, show choice'.now = now from may']
    unfold liveAt
    rw [found]
  refine ⟨results, ?_⟩
  subst results
  rcases done with ⟨error, failed, rfl⟩ | ⟨entry, ok, dropped⟩
  · rcases done' with ⟨_, _, rfl⟩ | ⟨entry', ok', _⟩
    · exact same
    · rw [failed] at ok'
      simp at ok'
  · rcases done' with ⟨_, failed', _⟩ | ⟨_, _, dropped'⟩
    · rw [ok] at failed'
      simp at failed'
    · exact Dropped.both same dropped dropped' fun _ _ => Iff.rfl

theorem reap_both {now count count' : Nat} (same : SameAt (Of tenant) w v)
    (ran : Alone (clock now) () Store.reap w count w')
    (ran' : Alone (clock now) () Store.reap v count' v') : SameAt (Of tenant) w' v' := by
  obtain ⟨choice, keys, may, expired, dropped⟩ := reap_exec ran
  obtain ⟨choice', keys', may', expired', dropped'⟩ := reap_exec ran'
  refine Dropped.both same dropped dropped' fun key own => ?_
  rw [expired, expired', same.lookup key own, show choice.now = now from may,
    show choice'.now = now from may']

/-! ## The unwinding -/

/-- The tenant an operation is made for; a reap is nobody's. -/
def Op.caller : Op → Option TenantId
  | .put tenant .. | .putWithId tenant .. | .get tenant .. | .entry tenant .. | .list tenant ..
  | .delete tenant .. => some tenant
  | .reap => none

/-- The operation names its id, and with it neither global ceiling is exceeded. -/
def Op.Roomy (limits : Limits) (w : Solo) : Op → Prop
  | .put .. => False
  | .putWithId tenant kind id name bytes _ =>
      Accepted limits w ⟨tenant, kind, id⟩ name bytes.length →
        Room limits w.index ⟨tenant, kind, id⟩ bytes.length
  | _ => True

/-- One operation at one clock reading. -/
def answered (limits : Limits) (codec : MetaCodec) (w : Solo) (event : Nat × Op) (out : Outcome)
    (w' : Solo) : Prop :=
  Alone (clock event.1) () (event.2.program limits codec) w out w'

/-- The same, no global ceiling in the way. -/
def answeredInRoom (limits : Limits) (codec : MetaCodec) (w : Solo) (event : Nat × Op)
    (out : Outcome) (w' : Solo) : Prop :=
  event.2.Roomy limits w ∧ answered limits codec w event out w'

/-- Every operation keeps the store in order. -/
theorem answered_inOrder {event : Nat × Op} {out : Outcome} (inOrder : InOrder limits codec w)
    (roomy : event.2.Roomy limits w) (ran : answered limits codec w event out w') :
    InOrder limits codec w' := by
  obtain ⟨now, op⟩ := event
  have rest := program_atRest op inOrder.toAtRest (fun no => no.elim) ran
  cases op with
  | put tenant kind name bytes info => exact roomy.elim
  | putWithId tenant kind id name bytes info =>
      obtain ⟨_, w1, stored, -, rfl⟩ := Prog.exec_bind.1 ran
      exact (putWithId_roomy inOrder roomy stored).1
  | get tenant kind id name =>
      obtain ⟨_, w1, read, -, rfl⟩ := Prog.exec_bind.1 ran
      obtain ⟨rfl, -⟩ := get_exec inOrder.toIdle read
      exact inOrder
  | entry tenant kind id =>
      obtain ⟨_, w1, read, -, rfl⟩ := Prog.exec_bind.1 ran
      obtain ⟨rfl, -⟩ := entry_exec inOrder.toIdle read
      exact inOrder
  | list tenant kind =>
      obtain ⟨_, w1, read, -, rfl⟩ := Prog.exec_bind.1 ran
      obtain ⟨rfl, -⟩ := list_exec inOrder.toIdle read
      exact inOrder
  | delete tenant kind id =>
      obtain ⟨_, w1, deleted, -, rfl⟩ := Prog.exec_bind.1 ran
      rcases delete_exec inOrder.toAtRest deleted with
        ⟨_, _, _, rfl⟩ | ⟨_, _, _, _, ⟨_, _, rfl⟩ | ⟨_, _, dropped⟩⟩
      · exact inOrder
      · exact inOrder
      · exact dropped.inOrder inOrder rest
  | reap =>
      obtain ⟨_, w1, reaped, -, rfl⟩ := Prog.exec_bind.1 ran
      obtain ⟨_, _, _, _, dropped⟩ := reap_exec reaped
      exact dropped.inOrder inOrder rest

/-- **An operation of one tenant changes nothing of another's.** -/
theorem answered_foreign {event : Nat × Op} {out : Outcome} (inOrder : InOrder limits codec w)
    (roomy : event.2.Roomy limits w) (of : event.2.caller = some tenant)
    (ran : answered limits codec w event out w') : SameAt (fun key => ¬ Of tenant key) w w' := by
  obtain ⟨now, op⟩ := event
  cases op with
  | put _ _ _ _ _ => exact roomy.elim
  | putWithId tenant' kind id name bytes info =>
      obtain rfl : tenant' = tenant := Option.some.inj of
      obtain ⟨_, w1, stored, -, rfl⟩ := Prog.exec_bind.1 ran
      obtain ⟨-, done⟩ := putWithId_roomy inOrder roomy stored
      rcases done with ⟨_, _, _, rfl⟩ | ⟨_, ⟨_, _, _, same⟩ | ⟨_, _, added⟩⟩
      · exact sameAt_refl _ _
      · exact same.mono fun _ _ => trivial
      · refine added.others.mono fun key foreign => ?_
        rintro rfl
        exact foreign rfl
  | get _ _ _ _ =>
      obtain ⟨_, w1, read, -, rfl⟩ := Prog.exec_bind.1 ran
      obtain ⟨rfl, -⟩ := get_exec inOrder.toIdle read
      exact sameAt_refl _ _
  | entry _ _ _ =>
      obtain ⟨_, w1, read, -, rfl⟩ := Prog.exec_bind.1 ran
      obtain ⟨rfl, -⟩ := entry_exec inOrder.toIdle read
      exact sameAt_refl _ _
  | list _ _ =>
      obtain ⟨_, w1, read, -, rfl⟩ := Prog.exec_bind.1 ran
      obtain ⟨rfl, -⟩ := list_exec inOrder.toIdle read
      exact sameAt_refl _ _
  | delete tenant' kind id =>
      obtain rfl : tenant' = tenant := Option.some.inj of
      obtain ⟨_, w1, deleted, -, rfl⟩ := Prog.exec_bind.1 ran
      rcases delete_exec inOrder.toAtRest deleted with
        ⟨_, _, _, rfl⟩ | ⟨_, _, _, _, ⟨_, _, rfl⟩ | ⟨_, _, dropped⟩⟩
      · exact sameAt_refl _ _
      · exact sameAt_refl _ _
      · refine dropped.sameAt.mono fun key foreign inside => ?_
        obtain rfl : key = _ := by simpa using inside
        exact foreign rfl
  | reap => simp [Op.caller] at of

/-- The store of all tenants and the store of one, as that tenant sees them. -/
structure Alike (limits : Limits) (codec : MetaCodec) (tenant : TenantId) (w v : Solo) : Prop where
  all : InOrder limits codec w
  one : InOrder limits codec v
  same : SameAt (Of tenant) w v
  only : ∀ key, ¬ Of tenant key → v.index.entries.lookup key = none

/-- Where everybody's put has room, so has the tenant's own on its own. -/
theorem Alike.roomy (alike : Alike limits codec tenant w v) {op : Op}
    (own : op.caller = some tenant ∨ op.caller = none) (roomy : op.Roomy limits w) :
    op.Roomy limits v := by
  have sub : ∀ key entry, v.index.entries.lookup key = some entry →
      w.index.entries.lookup key = some entry := by
    intro key entry found
    by_cases mine : Of tenant key
    · rw [← alike.same.lookup key mine]
      exact found
    · rw [alike.only key mine] at found
      simp at found
  cases op with
  | putWithId tenant' kind id name bytes info =>
      obtain rfl : tenant' = tenant := by simpa [Op.caller] using own
      intro accepted
      have refusals := putRefusal_same ⟨tenant', kind, id⟩ alike.all alike.one alike.same
        name bytes.length
      have room := roomy (accepted_iff.2 (refusals ▸ accepted_iff.1 accepted))
      have less : v.index.stored ≤ w.index.stored := weight_le_of_lookup sub
      have fewer : Table.size v.index.entries ≤ Table.size w.index.entries := by
        rw [size_eq_weight, size_eq_weight]
        exact weight_le_of_lookup sub
      have bytes := room.bytes
      refine ⟨by omega, fun absent => ?_⟩
      rw [alike.same.lookup ⟨tenant', kind, id⟩ rfl] at absent
      have entries := room.entries absent
      omega
  | put _ _ _ _ _ => exact roomy
  | get _ _ _ _ | entry _ _ _ | list _ _ | delete _ _ _ | reap => trivial

/-- **The tenant's own operations answer alike on both stores.** -/
theorem Alike.own (alike : Alike limits codec tenant w v) {event : Nat × Op}
    {out out' : Outcome} (of : event.2.caller = some tenant)
    (roomy : event.2.Roomy limits w) (ran : answered limits codec w event out w')
    (ran' : answered limits codec v event out' v') : out = out' ∧ SameAt (Of tenant) w' v' := by
  have roomy' := alike.roomy (Or.inl of) roomy
  obtain ⟨now, op⟩ := event
  cases op with
  | put _ _ _ _ _ => exact roomy.elim
  | putWithId tenant' kind id name bytes info =>
      obtain rfl : tenant' = tenant := Option.some.inj of
      obtain ⟨result, w1, stored, rfl, rfl⟩ := Prog.exec_bind.1 ran
      obtain ⟨result', v1, stored', rfl, rfl⟩ := Prog.exec_bind.1 ran'
      have both := putWithId_both ⟨tenant', kind, id⟩ alike.all alike.one alike.same roomy
        roomy' stored stored'
      exact ⟨congrArg Outcome.entry both.1, both.2⟩
  | get tenant' kind id name =>
      obtain rfl : tenant' = tenant := Option.some.inj of
      obtain ⟨result, w1, read, rfl, rfl⟩ := Prog.exec_bind.1 ran
      obtain ⟨result', v1, read', rfl, rfl⟩ := Prog.exec_bind.1 ran'
      obtain ⟨rfl, answer⟩ := get_exec alike.all.toIdle read
      obtain ⟨rfl, answer'⟩ := get_exec alike.one.toIdle read'
      refine ⟨congrArg Outcome.bytes ?_, alike.same⟩
      rcases answer with ⟨error, invalid, rfl⟩ | ⟨choice, rfl, rfl⟩
      · rcases answer' with ⟨error', invalid', rfl⟩ | ⟨choice', -, rfl⟩
        · rw [invalid] at invalid'
          exact congrArg Except.error (Except.error.inj invalid')
        · simp [getAt, invalid]
      · rcases answer' with ⟨error', invalid', rfl⟩ | ⟨choice', clocked, rfl⟩
        · simp [getAt, invalid']
        · rw [getAt_same alike.same, show choice'.now = choice.now from clocked]
  | entry tenant' kind id =>
      obtain rfl : tenant' = tenant := Option.some.inj of
      obtain ⟨result, w1, read, rfl, rfl⟩ := Prog.exec_bind.1 ran
      obtain ⟨result', v1, read', rfl, rfl⟩ := Prog.exec_bind.1 ran'
      obtain ⟨rfl, answer⟩ := entry_exec alike.all.toIdle read
      obtain ⟨rfl, answer'⟩ := entry_exec alike.one.toIdle read'
      refine ⟨congrArg Outcome.entry ?_, alike.same⟩
      rcases answer with ⟨error, invalid, rfl⟩ | ⟨valid, choice, rfl, rfl⟩
      · rcases answer' with ⟨error', invalid', rfl⟩ | ⟨valid', -⟩
        · rw [invalid] at invalid'
          exact congrArg Except.error (Except.error.inj invalid')
        · rw [invalid] at valid'
          simp at valid'
      · rcases answer' with ⟨error', invalid', rfl⟩ | ⟨_, choice', clocked, rfl⟩
        · rw [valid] at invalid'
          simp at invalid'
        · unfold liveAt
          rw [alike.same.lookup ⟨tenant', kind, id⟩ rfl,
            show choice'.now = choice.now from clocked]
  | list tenant' kind =>
      obtain rfl : tenant' = tenant := Option.some.inj of
      obtain ⟨result, w1, read, rfl, rfl⟩ := Prog.exec_bind.1 ran
      obtain ⟨result', v1, read', rfl, rfl⟩ := Prog.exec_bind.1 ran'
      obtain ⟨rfl, choice, rank, rfl, rfl⟩ := list_exec alike.all.toIdle read
      obtain ⟨rfl, choice', rank', clocked, rfl⟩ := list_exec alike.one.toIdle read'
      refine ⟨congrArg Outcome.entries ?_, alike.same⟩
      rw [show choice'.now = choice.now from clocked]
      exact (list_same alike.all alike.same _ _ _ _).symm
  | delete tenant' kind id =>
      obtain rfl : tenant' = tenant := Option.some.inj of
      obtain ⟨result, w1, deleted, rfl, rfl⟩ := Prog.exec_bind.1 ran
      obtain ⟨result', v1, deleted', rfl, rfl⟩ := Prog.exec_bind.1 ran'
      have both := delete_both alike.all alike.one alike.same deleted deleted'
      exact ⟨congrArg Outcome.entry both.1, both.2⟩
  | reap => simp [Op.caller] at of

/-- The events a tenant owns, and those its own run keeps. -/
def owns (tenant : TenantId) (event : Nat × Op) : Prop := event.2.caller = some tenant

def keeps (tenant : TenantId) (event : Nat × Op) : Prop :=
  event.2.caller = some tenant ∨ event.2.caller = none

instance (tenant : TenantId) : DecidablePred (owns tenant) := fun event =>
  inferInstanceAs (Decidable (event.2.caller = some tenant))

instance (tenant : TenantId) : DecidablePred (keeps tenant) := fun event =>
  inferInstanceAs (Decidable (event.2.caller = some tenant ∨ event.2.caller = none))

theorem unwinds_tenant (limits : Limits) (codec : MetaCodec) (tenant : TenantId) :
    Unwinds (answeredInRoom limits codec) (answered limits codec) (owns tenant) (keeps tenant)
      (Alike limits codec tenant) where
  keeps event own := Or.inl own
  deleted w v event out w' alike foreign ran := by
    obtain ⟨roomy, ran⟩ := ran
    unfold TypstMcp.Store.keeps at foreign
    cases of : event.2.caller with
    | none => exact absurd (Or.inr of) foreign
    | some other =>
        have apart : other ≠ tenant := by
          rintro rfl
          exact foreign (Or.inl of)
        have left := answered_foreign alike.all roomy of ran
        refine ⟨answered_inOrder alike.all roomy ran, alike.one, ?_, alike.only⟩
        refine (left.mono fun key own theirs => ?_).symm.trans alike.same
        exact apart (theirs.symm.trans own)
  shown w v event out out' w' v' alike kept ran ran' := by
    obtain ⟨roomy, ran⟩ := ran
    have roomy' := alike.roomy kept roomy
    have all := answered_inOrder alike.all roomy ran
    have one := answered_inOrder alike.one roomy' ran'
    cases kept with
    | inl own =>
        obtain ⟨same, after⟩ := alike.own own roomy ran ran'
        refine ⟨fun _ => same, all, one, after, ?_⟩
        intro key foreign
        rw [(answered_foreign alike.one roomy' own ran').lookup key foreign]
        exact alike.only key foreign
    | inr nobody =>
        obtain ⟨now, op⟩ := event
        cases op with
        | reap =>
            obtain ⟨_, w1, reaped, -, rfl⟩ := Prog.exec_bind.1 ran
            obtain ⟨_, v1, reaped', -, rfl⟩ := Prog.exec_bind.1 ran'
            refine ⟨fun own => by simp [owns, Op.caller] at own, all, one,
              reap_both alike.same reaped reaped', ?_⟩
            intro key foreign
            obtain ⟨_, keys, _, _, dropped⟩ := reap_exec reaped'
            rw [dropped.lookup, alike.only key foreign]
            split <;> rfl
        | _ => simp [Op.caller] at nobody

/-! ## Whole runs -/

theorem alike_fresh : Alike limits codec tenant World.fresh World.fresh :=
  ⟨inOrder_fresh, inOrder_fresh, sameAt_refl _ _, fun _ _ => rfl⟩

/-- Every operation is answered, and leaves the store so that the next is. -/
theorem answered_total (event : Nat × Op) (rest : AtRest codec False w) :
    ∃ out w', answered limits codec w event out w' ∧ AtRest codec False w' := by
  obtain ⟨now, op⟩ := event
  have may : clock now ⟨now, "", fun _ => 0, fun _ => 0⟩ := rfl
  obtain ⟨out, w', ran, -⟩ : ∃ out w', Alone (clock now) () (op.program limits codec) w out w' ∧
      w'.owner = none := balanced_runs may (balanced_program op) fun _ => rest.free
  exact ⟨out, w', ran, program_atRest op rest (fun no => no.elim) ran⟩

/-- **Tenant noninterference.** In a run in which neither global ceiling is exceeded,
the answers to one tenant are those it gets when every other tenant's operations are
deleted from the run; and its entries, files and counters end up the same. -/
theorem tenant_noninterference (tenant : TenantId) {trace : List ((Nat × Op) × Outcome)}
    (ran : Run (answeredInRoom limits codec) World.fresh trace w) :
    (∃ trace' v, Run (answered limits codec) World.fresh trace' v ∧
      trace'.map Prod.fst = (trace.map Prod.fst).filter (keeps tenant)) ∧
    ∀ trace' v, Run (answered limits codec) World.fresh trace' v →
      trace'.map Prod.fst = (trace.map Prod.fst).filter (keeps tenant) →
      results (owns tenant) trace = results (owns tenant) trace' ∧ SameAt (Of tenant) w v ∧
        tally v.index.perTenant tenant = tally w.index.perTenant tenant ∧
        tally v.index.perTenantEntries tenant = tally w.index.perTenantEntries tenant := by
  have fresh : InOrder limits codec World.fresh := inOrder_fresh
  constructor
  · exact Run.total (fun w event rest => answered_total event rest) fresh.toAtRest _
  · intro trace' v ran' script
    obtain ⟨same, alike⟩ := (unwinds_tenant limits codec tenant).results alike_fresh ran ran' script
    exact ⟨same, alike.same, tally_same alike.all alike.one alike.same⟩

/-- One tenant stores a file, and another asks for it. -/
theorem tenant_noninterference_probe : ∃ trace w,
    trace.map Prod.fst = [(0, putOp "a.pdf" [1]),
      (1, .get otherTenant .output someKey.id "a.pdf")] ∧
    ((∃ trace' v, Run (answered smallLimits serde) World.fresh trace' v ∧
      trace'.map Prod.fst = (trace.map Prod.fst).filter (keeps otherTenant)) ∧
    ∀ trace' v, Run (answered smallLimits serde) World.fresh trace' v →
      trace'.map Prod.fst = (trace.map Prod.fst).filter (keeps otherTenant) →
      results (owns otherTenant) trace = results (owns otherTenant) trace' ∧
        SameAt (Of otherTenant) w v ∧
        tally v.index.perTenant otherTenant = tally w.index.perTenant otherTenant ∧
        tally v.index.perTenantEntries otherTenant =
          tally w.index.perTenantEntries otherTenant) := by
  obtain ⟨⟨out1, w1⟩, first, more⟩ : ∃ x,
      solo 0 ((putOp "a.pdf" [1]).program smallLimits serde) World.fresh = some x ∧
        (solo 1 ((Op.get otherTenant .output someKey.id "a.pdf").program smallLimits serde)
          x.2).isSome = true :=
    (Option.any_eq_true _ _).1 (by decide +kernel)
  obtain ⟨⟨out2, w2⟩, second⟩ := Option.isSome_iff_exists.1 more
  refine ⟨[((0, _), out1), ((1, _), out2)], w2, rfl, tenant_noninterference otherTenant ?_⟩
  refine .cons ⟨fun _ => ⟨?_, fun _ => ?_⟩, alone_solo first⟩
    (.cons ⟨trivial, alone_solo second⟩ .nil)
  · show 0 + 1 ≤ 1000
    omega
  · show 0 < 10
    omega

end TypstMcp.Store
