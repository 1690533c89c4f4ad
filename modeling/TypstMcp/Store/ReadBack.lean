/-
Store.ReadBack -- a file put is the file read

A put that returned `Ok` is followed at once by reads of its entry.  Two things can
stand between a file and its bytes: the metadata, which the put writes last and in
the same directory, and the eviction, which may reach the entry being written.

* `survives_iff`: which entries an eviction spares, whatever the order it iterates in.
* `readsBack_iff`: exactly when every file of the entry reads back.
-/
import TypstMcp.Store.History

namespace TypstMcp.Store

open TypstMcp.Theory TypstMcp.Theory.Table
open TypstMcp.Auth (TenantId)

set_option autoImplicit false
set_option linter.unusedSectionVars false

variable {codec : MetaCodec} {plain : Prop} {allowed : Choice → Prop} {limits : Limits}
variable {w w' : Solo}

/-! ## What an eviction spares -/

namespace Index

def bytesSince (stamp : Nat) (_ : Key) (entry : Entry) : Nat :=
  if stamp ≤ entry.createdAt then entry.bytes else 0

def countSince (stamp : Nat) (_ : Key) (entry : Entry) : Nat :=
  if stamp ≤ entry.createdAt then 1 else 0

/-- The entries created at `stamp` or later fit both ceilings by themselves. -/
structure FitsSince (limits : Limits) (index : Index) (stamp : Nat) : Prop where
  bytes : weight (bytesSince stamp) index.entries ≤ limits.maxStoreBytes
  entries : weight (countSince stamp) index.entries ≤ limits.maxStoreEntries

instance (index : Index) (stamp : Nat) : Decidable (FitsSince limits index stamp) :=
  decidable_of_iff
    (weight (bytesSince stamp) index.entries ≤ limits.maxStoreBytes ∧
      weight (countSince stamp) index.entries ≤ limits.maxStoreEntries)
    ⟨fun ⟨bytes, entries⟩ => ⟨bytes, entries⟩, fun ⟨bytes, entries⟩ => ⟨bytes, entries⟩⟩

theorem bytesSince_le (index : Index) (stamp : Nat) :
    weight (bytesSince stamp) index.entries ≤ index.stored :=
  weight_le_weight fun key entry _ => by unfold bytesSince bytesOf; split <;> omega

theorem countSince_le (index : Index) (stamp : Nat) :
    weight (countSince stamp) index.entries ≤ size index.entries := by
  rw [size_eq_weight]
  exact weight_le_weight fun key entry _ => by unfold countSince; split <;> omega

theorem fitsSince_of_within {index : Index} (sound : index.Accounting) (stamp : Nat)
    (within : index.exceeded limits = false) : index.FitsSince limits stamp := by
  have ceilings := ceilings_iff.2 within
  have bytes := bytesSince_le index stamp
  have count := countSince_le index stamp
  have total := sound.total
  have capped := ceilings.bytes
  have few := ceilings.entries
  constructor <;> omega

/-- When every entry is that young, the ceilings are those of the whole index. -/
theorem within_of_fitsSince {index : Index} (sound : index.Accounting) {stamp : Nat}
    (young : ∀ key entry, index.entries.lookup key = some entry → stamp ≤ entry.createdAt)
    (fits : index.FitsSince limits stamp) : index.exceeded limits = false := by
  have bytes : weight (bytesSince stamp) index.entries = index.stored :=
    weight_eq_weight fun key entry found => by simp [bytesSince, bytesOf, young key entry found]
  have count : weight (countSince stamp) index.entries = size index.entries := by
    rw [size_eq_weight]
    exact weight_eq_weight fun key entry found => by simp [countSince, young key entry found]
  have capped := fits.bytes
  have few := fits.entries
  have total := sound.total
  apply ceilings_iff.1
  constructor <;> omega

theorem fitsSince_remove {index : Index} {stamp : Nat} (fits : index.FitsSince limits stamp)
    (key : Key) : (index.removeFromIndex key).FitsSince limits stamp := by
  constructor
  · rw [removeFromIndex_entries]
    exact (weight_erase_le _ _ _).trans fits.bytes
  · rw [removeFromIndex_entries]
    exact (weight_erase_le _ _ _).trans fits.entries

/-- An older entry counts for nothing since `stamp`. -/
theorem fitsSince_of_remove {index : Index} {stamp : Nat} {key : Key} {entry : Entry}
    (found : index.entries.lookup key = some entry) (older : entry.createdAt < stamp)
    (fits : (index.removeFromIndex key).FitsSince limits stamp) :
    index.FitsSince limits stamp := by
  have bytes := weight_of_lookup (bytesSince stamp) found
  have count := weight_of_lookup (countSince stamp) found
  rw [bytesSince, if_neg (by omega), Nat.zero_add] at bytes
  rw [countSince, if_neg (by omega), Nat.zero_add] at count
  have less := fits.bytes
  have fewer := fits.entries
  rw [removeFromIndex_entries] at less fewer
  constructor <;> omega

end Index

variable {ranks : (Key → Nat) → Prop} {index index' : Index} {key : Key} {entry : Entry}

/-- An entry that fits with those as young is never picked: by the time it is the
eldest, nothing older is left, and the index is within its ceilings. -/
theorem Evicts.spares (evicts : Evicts limits ranks index index') (sound : index.Accounting)
    (found : index.entries.lookup key = some entry)
    (fits : index.FitsSince limits entry.createdAt) :
    index'.entries.lookup key = some entry := by
  induction evicts with
  | done _ => exact found
  | bare _ => exact found
  | @turn index index' rank picked' old exceeded may picked rest ih =>
      apply ih (Index.accounting_remove sound _)
      · rw [Index.lookup_removeFromIndex, if_neg]
        · exact found
        · rintro rfl
          obtain ⟨there, least⟩ := eldest_spec picked
          obtain rfl : entry = old := by
            rw [mem_iterate.1 there] at found
            exact (Option.some.inj found).symm
          have within := Index.within_of_fitsSince sound
            (fun other entry' listed => least (other, entry') (mem_iterate.2 listed)) fits
          rw [within] at exceeded
          simp at exceeded
      · exact Index.fitsSince_remove fits _

/-- The order that iterates one entry before all others. -/
def foremost (key : Key) (other : Key) : Nat := if other = key then 0 else 1

/-- Iterated first, an entry that does not fit with those as young is evicted. -/
theorem Evicts.takes (evicts : Evicts limits ranks index index')
    (only : ∀ rank, ranks rank → rank = foremost key) (sound : index.Accounting) (found : index.entries.lookup key = some entry)
    (crowded : ¬ index.FitsSince limits entry.createdAt) : index'.entries.lookup key = none := by
  induction evicts with
  | done within => exact absurd (Index.fitsSince_of_within sound _ within) crowded
  | bare empty =>
      rw [empty] at found
      simp at found
  | @turn index index' rank picked' old exceeded may picked rest ih =>
      obtain rfl := only rank may
      by_cases mine : picked' = key
      · subst mine
        cases rest.sub picked' with
        | inl gone => exact gone
        | inr same => rw [same, Index.lookup_removeFromIndex, if_pos rfl]
      · have ahead : ∀ other, other ≠ key → foremost key key < foremost key other := by
          intro other apart
          simp [foremost, apart]
        have older := eldest_ahead found ahead picked mine
        have listed := mem_iterate.1 (eldest_spec picked).1
        apply ih (Index.accounting_remove sound _)
        · rw [Index.lookup_removeFromIndex, if_neg (Ne.symm mine)]
          exact found
        · intro fits
          exact crowded (Index.fitsSince_of_remove listed older fits)

/-- No store of these limits keeps an entry of this size. -/
def Unkept (limits : Limits) (size : Nat) : Prop :=
  limits.maxStoreBytes < size ∨ limits.maxStoreEntries = 0

instance (limits : Limits) (size : Nat) : Decidable (Unkept limits size) :=
  inferInstanceAs (Decidable (limits.maxStoreBytes < size ∨ limits.maxStoreEntries = 0))

/-- Every other entry is older. -/
def Newest (index : Index) (key : Key) (entry : Entry) : Prop :=
  ∀ other old, other ≠ key → index.entries.lookup other = some old → old.createdAt < entry.createdAt

theorem Evicts.unkept (evicts : Evicts limits ranks index index') (sound : index.Accounting)
    (found : index.entries.lookup key = some entry) (unkept : Unkept limits entry.bytes) :
    index'.entries.lookup key = none := by
  cases evicts.sub key with
  | inl gone => exact gone
  | inr same =>
      have found' : index'.entries.lookup key = some entry := same.trans found
      have after := evicts.sound sound
      have counted : entry.bytes ≤ index'.total := by
        rw [after.accounting.total]
        exact le_weight Index.bytesOf found'
      have bytes := after.ceilings.bytes
      have entries := after.ceilings.entries
      cases unkept with
      | inl large => omega
      | inr closed => exact eq_empty_of_size (by omega) key

/-- The newest entry fits with those as young if it fits alone. -/
theorem Evicts.keepsNewest (evicts : Evicts limits ranks index index') (sound : index.Accounting)
    (found : index.entries.lookup key = some entry) (newest : Newest index key entry)
    (kept : ¬ Unkept limits entry.bytes) : index'.entries.lookup key = some entry := by
  unfold Unkept at kept
  have older : ∀ other old, (index.entries.erase key).lookup other = some old →
      old.createdAt < entry.createdAt := by
    intro other old there
    rw [lookup_erase_eq] at there
    split at there
    · simp at there
    · rename_i apart
      exact newest other old apart there
  apply evicts.spares sound found
  constructor
  · have all := weight_of_lookup (Index.bytesSince entry.createdAt) found
    have rest : weight (Index.bytesSince entry.createdAt) (index.entries.erase key) = 0 :=
      weight_eq_zero fun other old there => by
        have := older other old there
        rw [Index.bytesSince, if_neg (by omega)]
    rw [Index.bytesSince, if_pos le_rfl] at all
    omega
  · have all := weight_of_lookup (Index.countSince entry.createdAt) found
    have rest : weight (Index.countSince entry.createdAt) (index.entries.erase key) = 0 :=
      weight_eq_zero fun other old there => by
        have := older other old there
        rw [Index.countSince, if_neg (by omega)]
    rw [Index.countSince, if_pos le_rfl] at all
    omega

/-- The newest entry goes last. -/
theorem Evicts.newestLast (evicts : Evicts limits ranks index index')
    (found : index.entries.lookup key = some entry) (newest : Newest index key entry)
    (gone : index'.entries.lookup key = none) (other : Key) :
    index'.entries.lookup other = none := by
  induction evicts with
  | done _ =>
      rw [gone] at found
      simp at found
  | bare empty => exact empty other
  | @turn index index' rank picked' old exceeded may picked rest ih =>
      by_cases mine : picked' = key
      · subst mine
        obtain ⟨there, least⟩ := eldest_spec picked
        obtain rfl : entry = old := by
          rw [mem_iterate.1 there] at found
          exact (Option.some.inj found).symm
        have empty : (index.removeFromIndex picked').entries.lookup other = none := by
          rw [Index.lookup_removeFromIndex]
          split
          · rfl
          · rename_i apart
            by_contra listed
            obtain ⟨young, there'⟩ := Option.ne_none_iff_exists'.1 listed
            have before := newest other young apart there'
            have after := least (other, young) (mem_iterate.2 there')
            dsimp only at after
            omega
        cases rest.sub other with
        | inl none_ => exact none_
        | inr same => rw [same, empty]
      · apply ih _ _ gone
        · rw [Index.lookup_removeFromIndex, if_neg (Ne.symm mine)]
          exact found
        · intro other' old' apart there
          rw [Index.lookup_removeFromIndex] at there
          split at there
          · simp at there
          · exact newest other' old' apart there

/-! ## A put and the reads after it -/

section Reads

variable (limits : Limits) (codec : MetaCodec) (w : Solo)

/-- A put under `key` by either call, its clock at `now`, returned `Ok`. -/
inductive Stored (now : Nat) (key : Key) (name : String) (bytes : Bytes) (info : Meta) :
    Solo → Prop
  | given {entry : Entry} {w' : Solo}
      (ran : Alone (clock now) () (putWithId limits codec key.tenant key.kind key.id name bytes info)
        w (.ok entry) w') :
      Stored now key name bytes info w'
  | minted {entry : Entry} {w' : Solo}
      (ran : Alone (clock now) () (put limits codec key.tenant key.kind name bytes info)
        w (.ok entry) w') (id : entry.id = key.id) :
      Stored now key name bytes info w'

/-- Whenever the put returns `Ok`, every file of its entry, the new one and the ones
acknowledged before, is what a get at `later` returns. -/
def ReadsBack (now later : Nat) (key : Key) (name : String) (bytes : Bytes) (info : Meta) : Prop :=
  ∀ w', Stored limits codec w now key name bytes info w' →
    ∀ name' contents, (safeName name', contents) ∈ (safeName name, bytes) :: w.acked key →
      ∀ result w'', Alone (clock later) () (Store.get key.tenant key.kind key.id name') w' result w'' →
        result = .ok contents

/-- No file of the entry takes the metadata's name, unless it has the very bytes of the
metadata the put writes over it; and the entry fits the ceilings with those as young. -/
structure Undisturbed (now : Nat) (key : Key) (name : String) (bytes : Bytes) (info : Meta) :
    Prop where
  unshadowed : ∀ contents, (metaName, contents) ∈ (safeName name, bytes) :: w.acked key →
    contents = codec.toVec (w.index.nextEntry limits key bytes.length now info)
  fits : (w.index.commit key (w.index.nextEntry limits key bytes.length now info)
    bytes.length).FitsSince limits (w.index.nextEntry limits key bytes.length now info).createdAt

end Reads

variable {now later : Nat} {name : String} {bytes : Bytes} {info : Meta}

/-- What a file of the entry holds once the put has written the metadata. -/
theorem stored_file (rest : AtRest codec plain w) {size : Nat}
    (absent : w.disk.lookup (entryDir key ++ [name]) = none) {n : String} {contents : Bytes}
    (inside : (n, contents) ∈ (name, bytes) :: w.acked key) :
    dirStored codec key name bytes entry (w.lockedFor key size) (entryDir key ++ [n]) =
      some (.file (if n = metaName then codec.toVec entry else contents)) := by
  by_cases named : n = metaName
  · subst named
    rw [if_pos rfl, dirStored_info]
  rw [if_neg named]
  cases List.mem_cons.1 inside with
  | inl new =>
      obtain ⟨rfl, rfl⟩ := Prod.mk.inj new
      exact dirStored_payload named
  | inr old =>
      have listed : ∃ entry, w.index.entries.lookup key = some entry := by
        cases found : w.index.entries.lookup key with
        | none =>
            rw [rest.inv.acked rest.up key found] at old
            simp at old
        | some entry => exact ⟨entry, rfl⟩
      obtain ⟨entry', found⟩ := listed
      have there := ((rest.good key).listed entry' found).files n contents old named
      have apart : n ≠ name := by
        rintro rfl
        rw [absent] at there
        simp at there
      rw [dirStored_other apart named]
      exact there

/-- Where a spared entry's files stand once the put has returned. -/
theorem spared_file {t : Unit} {size : Nat} {v w1 : Solo} (rest : AtRest codec plain w)
    (begun : PutStart codec plain t key size (w.lockedFor key size))
    (absent : w.disk.lookup (entryDir key ++ [name]) = none)
    (mid : Mid t key (w.lockedFor key size) none
      (dirStored codec key name bytes entry (w.lockedFor key size)) w1)
    (evicting : Evicting t w1 (w.index.commit key entry size) index' none v)
    (found : index'.entries.lookup key = some entry) {n : String} {contents : Bytes}
    (inside : (n, contents) ∈ (name, bytes) :: w.acked key) :
    v.disk.lookup (entryDir key ++ [n]) =
      some (.file (if n = metaName then codec.toVec entry else contents)) := by
  have fixed := mid.fixed.trans evicting.fixed
  have free : v.Undoomed key := fixed.spares key size begun.owned begun.free
  have kept : index'.entries.lookup key = (w.index.commit key entry size).entries.lookup key := by
    rw [found, Index.lookup_commit, if_pos rfl]
  rw [evicting.kept key (by simp) free kept _ (List.prefix_append _ _),
    mid.here _ (List.prefix_append _ _)]
  exact stored_file rest absent inside

theorem nextEntry_expiresAt (index : Index) (size : Nat) :
    (index.nextEntry limits key size now info).expiresAt = wrapAdd now (limits.ttl key.kind) := by
  unfold Index.nextEntry
  split <;> rfl

/-- Every put that returned `Ok` is one under the key's own id. -/
theorem Stored.given_of (rest : AtRest codec False w)
    (stored : Stored limits codec w now key name bytes info w') :
    ∃ entry, Alone (clock now) ()
      (putWithId limits codec key.tenant key.kind key.id name bytes info) w (.ok entry) w' := by
  cases stored with
  | @given entry _ ran => exact ⟨entry, ran⟩
  | @minted entry _ ran id =>
      obtain ⟨_, choice, _, ran⟩ := alone_call.1 ran
      simp only [handle, Prog.ret_bind] at ran
      have own : key.kind.idPrefix ++ choice.ulid = key.id := by
        rcases putWithId_exec rest (fun no => no.elim) ran with
          ⟨_, _, failed, _⟩ | ⟨_, begun, out, w1, ended, _, answer, _⟩
        · simp at failed
        · cases ended with
          | refused _ _ => simp at answer
          | taken _ _ _ => simp at answer
          | stored room absent may made mid evicts evicting =>
              obtain rfl := Except.ok.inj answer
              rw [← id, made]
              exact (nextEntry_named begun _ _).1.symm
      rw [own] at ran
      exact ⟨entry, ran⟩

/-- An undisturbed put leaves its entry where every read finds it. -/
theorem readsBack_of_undisturbed (sane : Sane limits codec False w)
    (fits : w.index.stored + bytes.length < u64Size) (live : later < wrapAdd now (limits.ttl key.kind))
    (undisturbed : Accepted limits w key name bytes.length →
      Undisturbed limits codec w now key name bytes info) :
    ReadsBack limits codec w now later key name bytes info := by
  intro w' stored name' contents inside result w'' read
  obtain ⟨entry, ran⟩ := stored.given_of sane.toAtRest
  have rest' := putWithId_atRest sane.toAtRest (fun no => no.elim) ran
  rcases putWithId_exec sane.toAtRest (fun no => no.elim) ran with
    ⟨_, _, failed, _⟩ | ⟨valid, begun, out, w1, ended, _, answer, rfl⟩
  · simp at failed
  cases ended with
  | refused _ _ => simp at answer
  | taken _ _ _ => simp at answer
  | @stored choice entry' w2 index' _ room absent may made mid evicts evicting =>
      obtain rfl := Except.ok.inj answer
      obtain ⟨unshadowed, together⟩ := undisturbed ⟨valid, room, absent⟩
      obtain rfl : choice.now = now := may
      have made : entry = w.index.nextEntry limits key bytes.length choice.now info := made
      rw [← made] at unshadowed together
      have committed : (w.index.commit key entry bytes.length).Accounting :=
        made ▸ Index.accounting_commit sane.sound.accounting fits
      have found : index'.entries.lookup key = some entry :=
        evicts.spares committed (by rw [Index.lookup_commit, if_pos rfl]) together
      have there : w1.disk.lookup (entryDir key ++ [safeName name']) = some (.file contents) := by
        rw [spared_file sane.toAtRest begun absent mid evicting found inside]
        split
        · rename_i same
          rw [unshadowed contents (same ▸ inside)]
        · rfl
      have young : later < entry.expiresAt := by
        rw [made, nextEntry_expiresAt]
        exact live
      obtain ⟨rfl, invalid | ⟨reading, clocked, answered⟩⟩ := get_exec rest'.toIdle read
      · obtain ⟨_, invalid, _⟩ := invalid
        rw [valid] at invalid
        simp at invalid
      · obtain rfl : reading.now = later := clocked
        rw [answered]
        exact getAt_listed valid found young there

/-- What a get answers on a store at rest is what some get answers. -/
theorem get_answered {T : Type} [DecidableEq T] {t : T} {w : World T} (later : Nat)
    (idle : Idle codec plain w) (valid : validateId key.kind key.id = .ok key.id) (name' : String) :
    ∃ w'', Alone (clock later) t (Store.get key.tenant key.kind key.id name') w
      (getAt later w key.tenant key.kind key.id name') w'' := by
  have may : clock later ⟨later, "", fun _ => 0, fun _ => 0⟩ := rfl
  obtain ⟨result, w'', read, _⟩ : ∃ result w'', Alone (clock later) t
      (Store.get key.tenant key.kind key.id name') w result w'' ∧ w''.owner = none :=
    balanced_runs may (balanced_get _ _ _ _) fun _ => idle.free
  obtain ⟨rfl, invalid | ⟨reading, clocked, answered⟩⟩ := get_exec idle read
  · obtain ⟨_, invalid, _⟩ := invalid
    rw [valid] at invalid
    simp at invalid
  · obtain rfl : reading.now = later := clocked
    rw [← answered]
    exact ⟨w'', read⟩

/-- Otherwise some read fails: the entry is evicted when the environment iterates over
it first, and a file under the metadata's name reads as the metadata. -/
theorem undisturbed_of_readsBack (sane : Sane limits codec False w)
    (fits : w.index.stored + bytes.length < u64Size) (live : later < wrapAdd now (limits.ttl key.kind))
    (reads : ReadsBack limits codec w now later key name bytes info)
    (accepted : Accepted limits w key name bytes.length) :
    Undisturbed limits codec w now key name bytes info := by
  let choice : Choice := ⟨now, "", foremost key, fun _ => 0⟩
  obtain ⟨result, w', ran, _⟩ : ∃ result w', Alone (Eq choice) ()
      (putWithId limits codec key.tenant key.kind key.id name bytes info) w result w' ∧
        w'.owner = none :=
    balanced_runs rfl (balanced_putWithId _ _ _ _ _ _) fun _ => sane.free
  have rest' := putWithId_atRest sane.toAtRest (fun no => no.elim) ran
  rcases putWithId_exec sane.toAtRest (fun no => no.elim) ran with
    ⟨_, invalid, _⟩ | ⟨valid, begun, out, w1, ended, _, answer, rfl⟩
  · rw [accepted.valid] at invalid
    simp at invalid
  cases ended with
  | refused full _ =>
      have roomless := accepted.room.symm.trans full
      simp at roomless
  | taken _ there _ =>
      have there : (w.disk.lookup (entryDir key ++ [safeName name])).isSome := there
      rw [accepted.absent] at there
      simp at there
  | @stored choice' entry w2 index' _ room absent may made mid evicts evicting =>
      subst may
      have made : entry = w.index.nextEntry limits key bytes.length now info := made
      have given : Stored limits codec w now key name bytes info
          (w1.publish () index' (.counted key (safeName name) bytes)) := by
        refine .given (answer ▸ alone_mono ran ?_)
        rintro _ rfl
        rfl
      have committed : (w.index.commit key entry bytes.length).Accounting :=
        made ▸ Index.accounting_commit sane.sound.accounting fits
      have listed : (w.index.commit key entry bytes.length).entries.lookup key = some entry := by
        rw [Index.lookup_commit, if_pos rfl]
      have together : (w.index.commit key entry bytes.length).FitsSince limits entry.createdAt := by
        by_contra crowded
        have gone : index'.entries.lookup key = none := by
          refine evicts.takes ?_ committed listed crowded
          rintro rank ⟨_, rfl, rfl⟩
          rfl
        obtain ⟨w'', read⟩ := get_answered later rest'.toIdle valid name
        have answered := reads _ given name bytes List.mem_cons_self _ _ read
        rw [getAt_unlisted valid gone] at answered
        simp at answered
      have found := evicts.spares committed listed together
      refine ⟨?_, made ▸ together⟩
      intro contents inside
      rw [← made]
      have named : safeName metaName = metaName := by decide
      have there := spared_file sane.toAtRest begun absent mid evicting found inside
      rw [if_pos rfl] at there
      have young : later < entry.expiresAt := by
        rw [made, nextEntry_expiresAt]
        exact live
      obtain ⟨w'', read⟩ := get_answered later rest'.toIdle valid metaName
      have answered := reads _ given metaName contents (named.symm ▸ inside) _ _ read
      rw [getAt_listed valid found young (named.symm ▸ there)] at answered
      exact (Except.ok.inj answered).symm

/-- **When every file of the entry reads back**: in every reachable state, a put that
returns `Ok` is followed by reads of the new file and of every earlier one of its entry
that return their own bytes, exactly if an accepted put is undisturbed. -/
theorem readsBack_iff (past : History limits codec (fun w op => op.Fits w.index) w)
    (fits : w.index.stored + bytes.length < u64Size)
    (live : later < wrapAdd now (limits.ttl key.kind)) :
    ReadsBack limits codec w now later key name bytes info ↔
      (Accepted limits w key name bytes.length →
        Undisturbed limits codec w now key name bytes info) := by
  have sane : Sane limits codec False w := history_sane (fun _ _ fits => ⟨fun no => no.elim, fits⟩) past
  constructor
  · intro reads accepted
    exact undisturbed_of_readsBack sane fits live reads accepted
  · exact readsBack_of_undisturbed sane fits live

def otherTenant : TenantId := ⟨"fedcba9876543210", by decide⟩

/-- A store of four bytes. -/
def tinyLimits : Limits := { smallLimits with
  maxTenantBytes := 4
  maxStoreBytes := 4
  maxTenantBytes_lt := by decide
  maxStoreBytes_lt := by decide }

/-- Another tenant's file, which fills the store together with the first. -/
def otherPut : Op := .putWithId otherTenant .output someKey.id "a.pdf" [3, 4] {}

/-- A second file of an entry, after another tenant's. -/
theorem readsBack_iff_twoFiles : ∃ w, History smallLimits serde (fun w op => op.Fits w.index) w ∧
    w.acked someKey = [("a.pdf", [1, 2])] ∧ size w.index.entries = 2 ∧
    ReadsBack smallLimits serde w 2 5 someKey "b.pdf" [3] {} := by
  obtain ⟨⟨_, w1⟩, first, more⟩ : ∃ x,
      solo 0 ((putOp "a.pdf" [1, 2]).program smallLimits serde) World.fresh = some x ∧
        (solo 1 (otherPut.program smallLimits serde) x.2).any (fun y =>
          decide (x.2.index.stored = 2 ∧ y.2.index.stored = 4 ∧ size y.2.index.entries = 2 ∧
            y.2.acked someKey = [("a.pdf", [1, 2])] ∧
            (y.2.index.commit someKey (y.2.index.nextEntry smallLimits someKey 1 2 {}) 1).FitsSince
              smallLimits (y.2.index.nextEntry smallLimits someKey 1 2 {}).createdAt)) = true :=
    (Option.any_eq_true _ _).1 (by decide +kernel)
  obtain ⟨⟨_, w2⟩, second, more⟩ := (Option.any_eq_true _ _).1 more
  obtain ⟨small, stored, few, acked, room⟩ := of_decide_eq_true more
  have past : History smallLimits serde (fun w op => op.Fits w.index) w2 := by
    refine .served (.served .fresh ?_ (alone_mono (alone_solo first) fun _ _ => trivial)) ?_
      (alone_mono (alone_solo second) fun _ _ => trivial)
    · show 0 + 2 < u64Size
      decide
    · show w1.index.stored + 2 < u64Size
      rw [small]
      decide
  have fits : w2.index.stored + [(3 : UInt8)].length < u64Size := by
    rw [stored]
    decide
  refine ⟨w2, past, acked, few, (readsBack_iff past fits (by decide)).2 fun _ => ⟨?_, room⟩⟩
  rw [acked]
  intro contents inside
  have named : metaName ∈ [safeName "b.pdf", "a.pdf"] := List.mem_map_of_mem (f := Prod.fst) inside
  exact absurd named (by decide)

/-- A put at `now` that returned `Ok`, and what the get at `later` answers. -/
def putThenGet (limits : Limits) (now later : Nat) (key : Key) (name : String) (bytes : Bytes) (w : Solo) :
    Option (Except StoreError Bytes) := do
  let (stored, w') ← solo now
    (putWithId limits serde key.tenant key.kind key.id name bytes {}) w
  match stored with
  | .error _ => none
  | .ok _ => (solo later (Store.get key.tenant key.kind key.id name) w').map (·.1)

theorem not_readsBack {result : Except StoreError Bytes}
    (answer : putThenGet limits now later key name bytes w = some result) (wrong : result ≠ .ok bytes) :
    ¬ ReadsBack limits serde w now later key name bytes {} := by
  intro reads
  unfold putThenGet at answer
  obtain ⟨⟨stored, w1⟩, put, answer⟩ := Option.bind_eq_some_iff.1 answer
  cases stored with
  | error _ => simp at answer
  | ok entry =>
      obtain ⟨⟨result', w2⟩, got, rfl⟩ := Option.map_eq_some_iff.1 answer
      exact wrong (reads w1 (.given (alone_solo put)) name bytes List.mem_cons_self _ _
        (alone_solo got))

/-- **Otherwise it fails, twice over**: a first file called `meta.json` reads as the
metadata, and a second file for the oldest entry of a full store is evicted with the
entry before the put returns `Ok`. -/
theorem shadowed_and_evicted :
    ¬ ReadsBack smallLimits serde World.fresh 0 5 someKey "meta.json" [1] {} ∧
    ∃ w, History tinyLimits serde (fun w op => op.Fits w.index) w ∧
      ¬ ReadsBack tinyLimits serde w 2 5 someKey "b.pdf" [5] {} := by
  constructor
  · obtain ⟨result, answer, wrong⟩ :
        ∃ result, putThenGet smallLimits 0 5 someKey "meta.json" [1] World.fresh = some result ∧
          decide (result ≠ .ok [1]) = true :=
      (Option.any_eq_true _ _).1 (by decide +kernel)
    exact not_readsBack answer (of_decide_eq_true wrong)
  · obtain ⟨⟨_, w1⟩, first, more⟩ : ∃ x,
        solo 0 ((putOp "a.pdf" [1, 2]).program tinyLimits serde) World.fresh =
          some x ∧ (solo 1 (otherPut.program tinyLimits serde) x.2).any (fun y =>
            decide (x.2.index.stored + 2 < u64Size) &&
            (putThenGet tinyLimits 2 5 someKey "b.pdf" [5] y.2).any fun result =>
              decide (result ≠ .ok [5])) = true :=
      (Option.any_eq_true _ _).1 (by decide +kernel)
    obtain ⟨⟨_, w2⟩, second, more⟩ := (Option.any_eq_true _ _).1 more
    simp only [Bool.and_eq_true] at more
    obtain ⟨fits, more⟩ := more
    obtain ⟨result, answer, wrong⟩ := (Option.any_eq_true _ _).1 more
    refine ⟨w2, .served (.served .fresh ?_ (alone_mono (alone_solo first) fun _ _ => trivial)) ?_
      (alone_mono (alone_solo second) fun _ _ => trivial),
      not_readsBack answer (of_decide_eq_true wrong)⟩
    · show 0 + 2 < u64Size
      decide
    · have small : w1.index.stored + 2 < u64Size := of_decide_eq_true fits
      exact small

end TypstMcp.Store
