/-
Store.Index -- the in-memory accounting

The index and the pure updates the store makes under its lock: the admission
check and the commit of a put (`refusal`, `commit`), the removal every path shares
(`removeFromIndex`), and the rebuild's adoption of a directory (`adopt`).

`Accounting` says the four counters are the sums over the entries.  Every update
keeps it (`accounting_commit`, `accounting_remove`), under the standing assumption
that the stored sizes sum below `2 ^ 64`; a rebuild has it up to the wrapping of its
sums (`wrapped_adopt`).
-/
import TypstMcp.Store.Basic
import TypstMcp.Theory.Table

namespace TypstMcp.Store

open TypstMcp.Theory TypstMcp.Theory.Table
open TypstMcp.Auth (TenantId)

set_option autoImplicit false

structure Index where
  entries : Table Key Entry := ∅
  perTenant : Table TenantId Nat := ∅
  perTenantEntries : Table TenantId Nat := ∅
  total : Nat := 0

namespace Index

/-! ## The updates -/

/-- The quota decision of a put: the error it is refused with, if any. -/
def refusal (limits : Limits) (index : Index) (key : Key) (size : Nat) : Option StoreError :=
  if saturatingAdd (tally index.perTenant key.tenant) size > limits.maxTenantBytes then
    some (.tenantFull size limits.maxTenantBytes)
  else if (index.entries.lookup key).isNone ∧
      tally index.perTenantEntries key.tenant ≥ limits.maxTenantEntries then
    some (.tenantEntriesFull limits.maxTenantEntries)
  else none

/-- The entry a put writes: the existing one with its size and expiry renewed, or
a fresh one. -/
def nextEntry (limits : Limits) (index : Index) (key : Key) (size timestamp : Nat)
    (info : Meta) : Entry :=
  match index.entries.lookup key with
  | some existing =>
      { existing with
        bytes := saturatingAdd existing.bytes size
        expiresAt := wrapAdd timestamp (limits.ttl key.kind) }
  | none =>
      { id := key.id
        kind := key.kind
        bytes := size
        createdAt := timestamp
        expiresAt := wrapAdd timestamp (limits.ttl key.kind)
        filename := info.filename
        contentType := info.contentType
        assetRole := info.assetRole }

/-- A committed put.  The entry counters are `usize` counts of what the map holds in
memory, so they cannot wrap. -/
def commit (index : Index) (key : Key) (entry : Entry) (size : Nat) : Index where
  entries := index.entries.insert key entry
  perTenant := index.perTenant.insert key.tenant
    (wrapAdd (tally index.perTenant key.tenant) size)
  total := wrapAdd index.total size
  perTenantEntries :=
    if (index.entries.lookup key).isNone then
      index.perTenantEntries.insert key.tenant (tally index.perTenantEntries key.tenant + 1)
    else index.perTenantEntries

def removeFromIndex (index : Index) (key : Key) : Index :=
  match index.entries.lookup key with
  | none => index
  | some entry =>
      { entries := index.entries.erase key
        total := index.total - entry.bytes
        perTenant := debit index.perTenant key.tenant entry.bytes
        perTenantEntries := debit index.perTenantEntries key.tenant 1 }

/-- The rebuild takes in one entry directory it found. -/
def adopt (index : Index) (key : Key) (entry : Entry) : Index where
  total := wrapAdd index.total entry.bytes
  perTenant := index.perTenant.insert key.tenant
    (wrapAdd (tally index.perTenant key.tenant) entry.bytes)
  perTenantEntries :=
    index.perTenantEntries.insert key.tenant (tally index.perTenantEntries key.tenant + 1)
  entries := index.entries.insert key entry

/-- Some global ceiling is exceeded: the condition of the eviction loop. -/
def exceeded (limits : Limits) (index : Index) : Bool :=
  index.total > limits.maxStoreBytes || size index.entries > limits.maxStoreEntries

/-! ## Accounting -/

def bytesOf (_ : Key) (entry : Entry) : Nat := entry.bytes

def tenantBytesOf (tenant : TenantId) (key : Key) (entry : Entry) : Nat :=
  if key.tenant = tenant then entry.bytes else 0

def tenantCountOf (tenant : TenantId) (key : Key) (_ : Entry) : Nat :=
  if key.tenant = tenant then 1 else 0

/-- The sum of all stored sizes. -/
def stored (index : Index) : Nat := weight bytesOf index.entries

/-- **The counters are the sums over the entries.** -/
structure Accounting (index : Index) : Prop where
  total : index.total = index.stored
  tenant : ∀ tenant, tally index.perTenant tenant = weight (tenantBytesOf tenant) index.entries
  tenantEntries : ∀ tenant,
    tally index.perTenantEntries tenant = weight (tenantCountOf tenant) index.entries

theorem accounting_empty : Accounting {} := ⟨rfl, fun _ => rfl, fun _ => rfl⟩

theorem tenantBytes_le_stored (index : Index) (tenant : TenantId) :
    weight (tenantBytesOf tenant) index.entries ≤ index.stored :=
  weight_le_weight fun key entry _ => by unfold tenantBytesOf bytesOf; split <;> omega

@[simp] theorem removeFromIndex_entries (index : Index) (key : Key) :
    (index.removeFromIndex key).entries = index.entries.erase key := by
  unfold removeFromIndex
  split
  · rename_i absent
    exact (erase_of_lookup_none absent).symm
  · rfl

@[simp] theorem lookup_removeFromIndex (index : Index) (key key' : Key) :
    (index.removeFromIndex key).entries.lookup key' =
      if key' = key then none else index.entries.lookup key' := by
  rw [removeFromIndex_entries, lookup_erase_eq]

@[simp] theorem lookup_commit (index : Index) (key : Key) (entry : Entry) (size : Nat)
    (key' : Key) : (index.commit key entry size).entries.lookup key' =
      if key' = key then some entry else index.entries.lookup key' :=
  lookup_insert_eq _ _ _ _

/-- The total alone keeps itself: a removal reads neither of a tenant's counters for it. -/
theorem total_remove {index : Index} (total : index.total = index.stored) (key : Key) :
    (index.removeFromIndex key).total = (index.removeFromIndex key).stored := by
  unfold removeFromIndex
  split
  · exact total
  · rename_i entry found
    have split := weight_of_lookup bytesOf found
    simp only [stored, bytesOf] at *
    omega

theorem accounting_remove {index : Index} (sound : Accounting index) (key : Key) :
    Accounting (index.removeFromIndex key) := by
  have total := total_remove sound.total key
  unfold removeFromIndex at total ⊢
  split
  · exact sound
  · rename_i entry found
    simp only [found] at total
    refine ⟨total, fun tenant => ?_, fun tenant => ?_⟩
    · have split := weight_of_lookup (tenantBytesOf tenant) found
      have before := sound.tenant tenant
      simp only [tally_debit]
      by_cases own : tenant = key.tenant
      · subst own
        rw [if_pos rfl, before]
        simp only [tenantBytesOf, if_true] at split ⊢
        omega
      · simp only [tenantBytesOf, Ne.symm own, if_false] at split
        rw [if_neg own, before]
        omega
    · have split := weight_of_lookup (tenantCountOf tenant) found
      have before := sound.tenantEntries tenant
      simp only [tally_debit]
      by_cases own : tenant = key.tenant
      · subst own
        rw [if_pos rfl, before]
        simp only [tenantCountOf, if_true] at split ⊢
        omega
      · simp only [tenantCountOf, Ne.symm own, if_false] at split
        rw [if_neg own, before]
        omega

/-- An index that gains `size` bytes at `key`, the entry's new size being the old
one (zero when there was none) plus `size`, keeps its accounting. -/
theorem accounting_grow {index : Index} (sound : Accounting index) {key : Key} {entry : Entry}
    {size : Nat} (fits : index.stored + size < u64Size)
    (grown : entry.bytes = ((index.entries.lookup key).map (·.bytes)).getD 0 + size) :
    Accounting (index.commit key entry size) := by
  have within : ∀ tenant, tally index.perTenant tenant + size < u64Size := fun tenant => by
    have := tenantBytes_le_stored index tenant
    rw [sound.tenant]; omega
  have sums : ∀ (f : Key → Entry → Nat),
      weight f index.entries =
        ((index.entries.lookup key).map (f key)).getD 0 + weight f (index.entries.erase key) := by
    intro f
    cases found : index.entries.lookup key with
    | none => simp [erase_of_lookup_none found]
    | some old => simpa using weight_of_lookup f found
  refine ⟨?_, fun tenant => ?_, fun tenant => ?_⟩
  · have before := sound.total
    have all := sums bytesOf
    simp only [commit, stored, weight_insert] at *
    rw [wrapAdd_of_lt (by omega), before, all]
    cases found : index.entries.lookup key <;> simp_all [bytesOf] <;> omega
  · have before := sound.tenant tenant
    have own := sound.tenant key.tenant
    have fitting := within key.tenant
    have all := sums (tenantBytesOf tenant)
    simp only [commit, tally_insert, weight_insert]
    rw [wrapAdd_of_lt fitting]
    by_cases same : tenant = key.tenant
    · subst same
      rw [if_pos rfl, own, all]
      cases found : index.entries.lookup key <;> simp_all [tenantBytesOf] <;> omega
    · have other : ¬ key.tenant = tenant := fun h => same h.symm
      rw [if_neg same, before, all]
      cases found : index.entries.lookup key <;> simp [tenantBytesOf, other]
  · have before := sound.tenantEntries tenant
    have own := sound.tenantEntries key.tenant
    have all := sums (tenantCountOf tenant)
    simp only [commit, weight_insert]
    by_cases same : tenant = key.tenant
    · subst same
      cases found : index.entries.lookup key <;> simp_all [tenantCountOf, tally_insert]
      omega
    · have other : ¬ key.tenant = tenant := fun h => same h.symm
      cases found : index.entries.lookup key <;>
        simp_all [tenantCountOf, tally_insert]

theorem nextEntry_bytes {limits : Limits} {index : Index} {key : Key} {size timestamp : Nat}
    {info : Meta} (fits : index.stored + size < u64Size) :
    (index.nextEntry limits key size timestamp info).bytes =
      ((index.entries.lookup key).map (·.bytes)).getD 0 + size := by
  unfold nextEntry
  cases found : index.entries.lookup key with
  | none => simp
  | some old =>
      have := le_weight bytesOf found
      simp only [stored, bytesOf] at *
      simp only [Option.map_some, Option.getD_some]
      exact saturatingAdd_of_lt (by omega)

/-- A committed put keeps the accounting. -/
theorem accounting_commit {limits : Limits} {index : Index} (sound : Accounting index)
    {key : Key} {size timestamp : Nat} {info : Meta} (fits : index.stored + size < u64Size) :
    Accounting (index.commit key (index.nextEntry limits key size timestamp info) size) :=
  accounting_grow sound fits (nextEntry_bytes fits)

/-- The counters as a rebuild sums them up: the byte counters wrap. -/
structure Wrapped (index : Index) : Prop where
  total : index.total = index.stored % u64Size
  tenant : ∀ tenant, tally index.perTenant tenant =
    weight (tenantBytesOf tenant) index.entries % u64Size
  tenantEntries : ∀ tenant,
    tally index.perTenantEntries tenant = weight (tenantCountOf tenant) index.entries

theorem wrapped_empty : Wrapped {} := ⟨rfl, fun _ => rfl, fun _ => rfl⟩

theorem wrapped_adopt {index : Index} (sums : Wrapped index) {key : Key} {entry : Entry}
    (fresh : index.entries.lookup key = none) : Wrapped (index.adopt key entry) := by
  refine ⟨?_, fun tenant => ?_, fun tenant => ?_⟩
  · simp only [adopt, stored, weight_insert_new fresh, wrapAdd, sums.total, bytesOf, Nat.mod_add_mod]
    rw [Nat.add_comm]
  · simp only [adopt, tally_insert, weight_insert_new fresh, sums.tenant, wrapAdd, tenantBytesOf]
    by_cases same : tenant = key.tenant
    · simp [same, Nat.add_comm]
    · simp [same, Ne.symm same]
  · simp only [adopt, tally_insert, weight_insert_new fresh, sums.tenantEntries, tenantCountOf]
    by_cases same : tenant = key.tenant
    · simp [same, Nat.add_comm]
    · simp [same, Ne.symm same]

/-- Sizes that sum below `2 ^ 64` have not wrapped. -/
theorem Wrapped.accounting {index : Index} (sums : Wrapped index) (fits : index.stored < u64Size) :
    Accounting index := by
  refine ⟨sums.total.trans (Nat.mod_eq_of_lt fits), fun tenant => ?_, sums.tenantEntries⟩
  have := tenantBytes_le_stored index tenant
  rw [sums.tenant, Nat.mod_eq_of_lt (by omega)]

/-! ## Ceilings -/

/-- Neither global ceiling is exceeded. -/
structure Ceilings (limits : Limits) (index : Index) : Prop where
  bytes : index.total ≤ limits.maxStoreBytes
  entries : size index.entries ≤ limits.maxStoreEntries

theorem ceilings_iff {limits : Limits} {index : Index} :
    Ceilings limits index ↔ index.exceeded limits = false := by
  simp only [exceeded, Bool.or_eq_false_iff, decide_eq_false_iff_not, not_lt]
  exact ⟨fun held => ⟨held.bytes, held.entries⟩, fun held => ⟨held.1, held.2⟩⟩

theorem ceilings_empty (limits : Limits) : Ceilings limits {} :=
  ⟨Nat.zero_le _, Nat.zero_le _⟩

/-- An empty index whose total is right is below every ceiling. -/
theorem ceilings_of_bare {limits : Limits} {index : Index} (total : index.total = index.stored)
    (bare : size index.entries = 0) : Ceilings limits index := by
  have zero : index.stored = 0 := weight_eq_zero fun key entry found => by
    simp [eq_empty_of_size bare] at found
  exact ⟨by rw [total, zero]; exact Nat.zero_le _, by omega⟩

/-- An admitted put fits its tenant's ceilings. -/
theorem refusal_none {limits : Limits} {index : Index} {key : Key} {size : Nat}
    (admitted : index.refusal limits key size = none) :
    saturatingAdd (tally index.perTenant key.tenant) size ≤ limits.maxTenantBytes ∧
      (index.entries.lookup key = none →
        tally index.perTenantEntries key.tenant < limits.maxTenantEntries) := by
  unfold refusal at admitted
  split at admitted
  · simp at admitted
  · rename_i fits
    split at admitted
    · simp at admitted
    · rename_i room
      refine ⟨not_lt.1 fits, fun fresh => ?_⟩
      simpa [fresh] using room

end Index

end TypstMcp.Store
