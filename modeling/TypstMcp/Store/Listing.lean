/-
Store.Listing -- what a listing lists

A listing takes a snapshot of the index and sorts the live entries of one tenant and
kind.  Its order is total on them, so it does not depend on how the map is iterated.

* `list_listed`: exactly the live entries, each once, newest first.
-/
import TypstMcp.Store.Tenants

namespace TypstMcp.Store

open TypstMcp.Theory TypstMcp.Theory.Table
open TypstMcp.Auth (TenantId)

set_option autoImplicit false

variable {codec : MetaCodec} {allowed : Choice → Prop} {limits : Limits} {w w' : Solo}
variable {tenant : TenantId} {kind : Kind} {entry : Entry}

/-- The live entries of one kind of a tenant, newest first. -/
structure Listed (w : Solo) (tenant : TenantId) (kind : Kind) (now : Nat) (entries : List Entry) :
    Prop where
  sorted : entries.Pairwise listedBefore
  nodup : entries.Nodup
  mem : ∀ entry, entry ∈ entries ↔
    w.index.entries.lookup ⟨tenant, kind, entry.id⟩ = some entry ∧ now < entry.expiresAt

theorem listedBefore_newer {a b : Entry} (before : listedBefore a b) : b.createdAt ≤ a.createdAt := by
  rcases before with newer | ⟨same, -⟩ <;> omega

theorem listed_valid (sane : Sane limits codec False w) {key : Key}
    (found : w.index.entries.lookup key = some entry) : validateId key.kind key.id = .ok key.id := by
  obtain ⟨raw, there, -⟩ := ((sane.good key).listed entry found).info
  exact (placed_entry (sane.inv.shape _ _ (sane.inv.dir_of_file (by rw [there]; rfl)))).2

theorem isExpired_iff {now : Nat} : entry.isExpired now = false ↔ now < entry.expiresAt := by
  unfold Entry.isExpired
  simp

theorem getAt_expired {now : Nat} {key : Key} {name : String}
    (valid : validateId key.kind key.id = .ok key.id)
    (found : w.index.entries.lookup key = some entry) (expired : entry.isExpired now = true) :
    getAt now w key.tenant key.kind key.id name = .error (.expired key.kind key.id) := by
  have dead : liveAt now w.index key = .error (.expired key.kind key.id) := by
    unfold liveAt
    rw [found]
    simp [expired]
  obtain ⟨tenant, kind, id⟩ := key
  simp only [getAt, valid, dead]

theorem list_listed (sane : Sane limits codec False w) {entries : List Entry}
    (ran : Alone allowed () (Store.list tenant kind) w entries w') :
    w' = w ∧ ∃ reading, allowed reading ∧ Listed w tenant kind reading.now entries := by
  obtain ⟨rfl, reading, rank, may, rfl⟩ := list_exec sane.toIdle ran
  refine ⟨rfl, reading, may, ?_⟩
  have := listedBefore_total
  have := listedBefore_trans
  have picked : ∀ key entry, (key, entry) ∈
      listedIn tenant kind reading.now (iterate rank w'.index.entries) ↔
      w'.index.entries.lookup key = some entry ∧ key = ⟨tenant, kind, entry.id⟩ ∧
        reading.now < entry.expiresAt := by
    intro key entry
    unfold listedIn
    simp only [List.mem_filter, mem_iterate, Bool.and_eq_true, decide_eq_true_eq, Bool.not_eq_true',
      isExpired_iff]
    refine and_congr_right fun found => and_congr_left fun _ => ?_
    have named := ((sane.good key).listed entry found).id
    obtain ⟨of, kind, id⟩ := key
    simp only [Key.mk.injEq]
    exact ⟨fun same => ⟨same.1, same.2, named.symm⟩, fun same => ⟨same.1, same.2.1⟩⟩
  refine ⟨List.pairwise_insertionSort _ _, ?_, fun entry => ?_⟩
  · rw [(List.perm_insertionSort _ _).nodup_iff]
    refine ((nodup_iterate _ _).filter _).map_on ?_
    rintro ⟨key, entry⟩ first ⟨key', entry'⟩ second same
    obtain rfl : entry = entry' := same
    rw [((picked key entry).1 first).2.1, ((picked key' entry).1 second).2.1]
  · rw [List.mem_insertionSort, List.mem_map]
    constructor
    · rintro ⟨⟨key, entry'⟩, inside, rfl⟩
      obtain ⟨found, rfl, live⟩ := (picked key entry').1 inside
      exact ⟨found, live⟩
    · rintro ⟨found, live⟩
      exact ⟨(_, entry), (picked _ entry).2 ⟨found, rfl, live⟩, rfl⟩

end TypstMcp.Store
