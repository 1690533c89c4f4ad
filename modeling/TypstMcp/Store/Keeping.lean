/-
Store.Keeping -- what was stored stays

A file goes with its entry: when the entry is deleted, when it is reaped after its
expiry, or when an eviction reaches it, which it does only if the entries as young do
not fit the ceilings.  Nothing else takes it or writes over it, so what can be read can
be read again.

* `put_keeps`: what a put adds, and that it loses nothing.
* `keeps_op`: the step lemma, for any one call.
* `read_stays`: the run lemma, from a read to a later one.
-/
import TypstMcp.Store.ReadBack

namespace TypstMcp.Store

open TypstMcp.Theory TypstMcp.Theory.Table
open TypstMcp.Auth (TenantId)

set_option autoImplicit false
set_option linter.unusedSectionVars false

variable {limits : Limits} {codec : MetaCodec} {allowed : Choice → Prop} {w w' : Solo}
variable {key : Key} {name : String} {bytes : Bytes} {info : Meta} {entry : Entry}

/-! ## Puts with room to spare -/

/-- With `extra` bytes more under `key` the store is still within its ceilings. -/
structure Spare (limits : Limits) (index : Index) (key : Key) (extra : Nat) : Prop where
  bytes : index.stored + extra ≤ limits.maxStoreBytes
  entries : size (index.entries.erase key) < limits.maxStoreEntries

theorem spare_of_room {index : Index} {extra : Nat}
    (bytes : index.stored + extra ≤ limits.maxStoreBytes)
    (entries : size index.entries < limits.maxStoreEntries) (key : Key) :
    Spare limits index key extra := by
  refine ⟨bytes, lt_of_le_of_lt ?_ entries⟩
  rw [size_eq_weight, size_eq_weight]
  exact weight_erase_le _ _ _

theorem size_insert_erase (m : Table Key Entry) (key : Key) (entry : Entry) :
    size (m.insert key entry) = size (m.erase key) + 1 := by
  have inserted := weight_insert (fun _ _ => 1) m key entry
  rw [size_eq_weight, size_eq_weight]
  omega

/-- Committing `extra` bytes takes them from what there is to spare, and stays in the ceilings. -/
theorem Spare.commit {index : Index} {extra more : Nat}
    (spare : Spare limits index key (extra + more)) (sound : index.Accounting) (now : Nat)
    (info : Meta) :
    (index.commit key (index.nextEntry limits key extra now info) extra).exceeded limits = false ∧
      Spare limits (index.commit key (index.nextEntry limits key extra now info) extra) key more := by
  have bytes := spare.bytes
  have capped := limits.maxStoreBytes_lt
  have total := sound.total
  have committed :
      (index.commit key (index.nextEntry limits key extra now info) extra).Accounting :=
    Index.accounting_commit sound (by omega)
  generalize made : index.nextEntry limits key extra now info = entry at committed ⊢
  have grown : (index.commit key entry extra).total = index.stored + extra := by
    show wrapAdd index.total extra = _
    rw [total, wrapAdd, Nat.mod_eq_of_lt (by omega)]
  have stored := committed.total.symm.trans grown
  constructor
  · apply Index.ceilings_iff.1
    refine ⟨by omega, ?_⟩
    show size (index.entries.insert key entry) ≤ _
    rw [size_insert_erase]
    exact spare.entries
  · refine ⟨by omega, lt_of_le_of_lt (le_of_eq ?_) spare.entries⟩
    rw [size_eq_weight, size_eq_weight]
    apply weight_congr
    intro other
    show ((index.entries.insert key entry).erase key).lookup other = _
    simp only [lookup_erase_eq, lookup_insert_eq]
    split <;> rfl

theorem Evicts.none {ranks : (Key → Nat) → Prop} {index index' : Index}
    (evicts : Evicts limits ranks index index') (within : index.exceeded limits = false) :
    index' = index := by
  cases evicts with
  | done _ => rfl
  | bare _ => rfl
  | turn exceeded _ _ _ => rw [within] at exceeded; cases exceeded

/-! ## Puts that leave an entry -/

/-- A put of `size` bytes under `other` leaves the entry under `key` room beside those as young. -/
def Leaves (limits : Limits) (index : Index) (key other : Key) (size : Nat) : Prop :=
  ∀ entry, index.entries.lookup key = some entry →
    weight (Index.bytesSince entry.createdAt) index.entries + size ≤ limits.maxStoreBytes ∧
    weight (Index.countSince entry.createdAt) (index.entries.erase other) < limits.maxStoreEntries

theorem Spare.leaves {index : Index} {other : Key} {extra more : Nat}
    (spare : Spare limits index other (extra + more)) : Leaves limits index key other extra := by
  intro entry _
  have bytes := spare.bytes
  have young := Index.bytesSince_le index entry.createdAt
  refine ⟨by omega, lt_of_le_of_lt ?_ spare.entries⟩
  rw [size_eq_weight]
  apply weight_le_weight
  intro other old _
  unfold Index.countSince
  split <;> omega

theorem leaves_of_room {index : Index} {extra : Nat}
    (bytes : index.stored + extra ≤ limits.maxStoreBytes)
    (entries : size index.entries < limits.maxStoreEntries) (other : Key) :
    Leaves limits index key other extra := by
  have spare : Spare limits index other (extra + 0) := spare_of_room bytes entries other
  exact spare.leaves

/-- What of an entry no put renews. -/
structure Card where
  createdAt : Nat
  info : Meta
  deriving DecidableEq

def Entry.card (entry : Entry) : Card :=
  ⟨entry.createdAt, ⟨entry.filename, entry.contentType, entry.assetRole⟩⟩

/-- What a put makes of an entry has the card it had, and is `size` bytes larger. -/
theorem nextEntry_found {index : Index} {size now : Nat}
    (found : index.entries.lookup key = some entry) (fits : index.stored + size < u64Size) :
    (index.nextEntry limits key size now info).card = entry.card ∧
      (index.nextEntry limits key size now info).bytes = entry.bytes + size := by
  have grown : (index.nextEntry limits key size now info).bytes = _ := Index.nextEntry_bytes fits
  rw [found] at grown
  refine ⟨?_, grown⟩
  unfold Index.nextEntry
  rw [found]
  rfl

theorem nextEntry_new {index : Index} {size now : Nat} (absent : index.entries.lookup key = none) :
    (index.nextEntry limits key size now info).card = ⟨now, info⟩ := by
  unfold Index.nextEntry
  rw [absent]
  rfl

/-- The entries since `stamp` grow by no more than the put. -/
theorem weight_commit_le {index : Index} {other : Key} {size now stamp : Nat}
    (fits : index.stored + size < u64Size) :
    weight (Index.bytesSince stamp)
        (index.commit other (index.nextEntry limits other size now info) size).entries ≤
      weight (Index.bytesSince stamp) index.entries + size := by
  show weight _ (index.entries.insert other _) ≤ _
  rw [weight_insert]
  cases found : index.entries.lookup other with
  | none =>
      have grown : (index.nextEntry limits other size now info).bytes = _ := Index.nextEntry_bytes fits
      rw [found] at grown
      rw [erase_of_lookup_none found]
      unfold Index.bytesSince at *
      simp only [Option.map_none, Option.getD_none] at grown
      split <;> omega
  | some old =>
      obtain ⟨same, grown⟩ := @nextEntry_found limits other info old index size now found fits
      have stamped : (index.nextEntry limits other size now info).createdAt = old.createdAt :=
        congrArg Card.createdAt same
      have split_ := weight_of_lookup (Index.bytesSince stamp) found
      have mine : Index.bytesSince stamp other (index.nextEntry limits other size now info) ≤
          Index.bytesSince stamp other old + size := by
        unfold Index.bytesSince
        rw [stamped]
        split <;> omega
      omega

theorem Leaves.fitsSince {index : Index} {other : Key} {size now : Nat}
    (leaves : Leaves limits index key other size) (fits : index.stored + size < u64Size)
    (found : index.entries.lookup key = some entry) :
    (index.commit other (index.nextEntry limits other size now info) size).FitsSince limits
      entry.createdAt := by
  obtain ⟨bytes, entries⟩ := leaves entry found
  refine ⟨(weight_commit_le fits).trans bytes, ?_⟩
  show weight _ (index.entries.insert other _) ≤ _
  rw [weight_insert]
  unfold Index.countSince at *
  split <;> omega

/-! ## What is kept -/

/-- These files are under `key`, which the store lists with this card until after `later`. -/
structure Keeps (limits : Limits) (codec : MetaCodec) (later : Nat) (key : Key) (card : Card)
    (files : List (String × Bytes)) (w : Solo) : Prop where
  sane : Sane limits codec False w
  valid : validateId key.kind key.id = .ok key.id
  live : ∃ entry, w.index.entries.lookup key = some entry ∧ later < entry.expiresAt ∧
    entry.card = card
  files : ∀ file ∈ files, file.1 ≠ metaName →
    w.disk.lookup (entryDir key ++ [file.1]) = some (.file file.2)

variable {later extra : Nat} {card : Card} {files : List (String × Bytes)}

/-- What is kept is what a get reads. -/
theorem Keeps.reads {contents : Bytes} {result : Except StoreError Bytes} {w'' : Solo}
    (keeps : Keeps limits codec later key card files w) (inside : (safeName name, contents) ∈ files)
    (apart : safeName name ≠ metaName)
    (read : Alone (clock later) () (Store.get key.tenant key.kind key.id name) w result w'') :
    result = .ok contents := by
  obtain ⟨entry, found, young, -⟩ := keeps.live
  obtain ⟨rfl, invalid | ⟨reading, clocked, answered⟩⟩ := get_exec keeps.sane.toAtRest.toIdle read
  · obtain ⟨_, invalid, _⟩ := invalid
    rw [keeps.valid] at invalid
    cases invalid
  · obtain rfl : reading.now = later := clocked
    rw [answered]
    exact getAt_listed keeps.valid found young (keeps.files _ inside apart)

/-- An entry that stays in the index as it was keeps the files that stay on disk. -/
theorem Keeps.same (keeps : Keeps limits codec later key card files w) (sane : Sane limits codec False w')
    (lookup : w'.index.entries.lookup key = w.index.entries.lookup key)
    (disk : ∀ p, entryDir key <+: p → w'.disk.lookup p = w.disk.lookup p) :
    Keeps limits codec later key card files w' := by
  obtain ⟨entry, found, live⟩ := keeps.live
  refine ⟨sane, keeps.valid, ⟨entry, lookup.trans found, live⟩, fun file inside apart => ?_⟩
  rw [disk _ (List.prefix_append _ _)]
  exact keeps.files file inside apart

/-- What goes takes nothing of what stays. -/
theorem Keeps.dropped {keys : List Key} (keeps : Keeps limits codec later key card files w)
    (sane : Sane limits codec False w') (dropped : Dropped keys w w') (apart : key ∉ keys) :
    Keeps limits codec later key card files w' := by
  refine keeps.same sane ?_ fun p under => dropped.disk p fun other inside under' => ?_
  · rw [dropped.lookup, if_neg apart]
  · exact apart (entryDir_under under under' ▸ inside)

/-- A put takes no file of an entry it leaves, and renews its own. -/
theorem keeps_put (other : Key) {result : Except StoreError Entry}
    (keeps : Keeps limits codec later key card files w)
    (leaves : Leaves limits w.index key other bytes.length)
    (fits : w.index.stored + bytes.length < u64Size)
    (renews : ∀ choice, allowed choice → later < wrapAdd choice.now (limits.ttl key.kind))
    (ran : Alone allowed () (putWithId limits codec other.tenant other.kind other.id name bytes info)
      w result w') : Keeps limits codec later key card files w' := by
  have rest' := putWithId_atRest keeps.sane.toAtRest (fun no => no.elim) ran
  rcases putWithId_exec keeps.sane.toAtRest (fun no => no.elim) ran with
    ⟨_, _, _, rfl⟩ | ⟨_, begun, out, w1, ended, _, _, rfl⟩
  · exact keeps
  have after := ended.sane keeps.sane begun (fun no => no.elim) fits rest'
  have free : ∀ {u : Solo}, Fixed () (w.lockedFor other bytes.length) u → u.Undoomed key := by
    intro u fixed s
    rw [show u.doomed s = [] from fixed.own.trans keeps.sane.doomed]
    exact List.not_mem_nil
  cases ended with
  | refused _ mid => exact keeps.same after rfl fun p under => mid.same (free mid.fixed) under
  | taken _ _ mid => exact keeps.same after rfl fun p under => mid.same (free mid.fixed) under
  | @stored choice entry' w2 index' _ _ absent may made mid evicts evicting =>
      obtain ⟨entry, found, -, carded⟩ := keeps.live
      have made : entry' = w.index.nextEntry limits other bytes.length choice.now info := made
      have together : (w.index.commit other
          (w.index.nextEntry limits other bytes.length choice.now info) bytes.length).FitsSince limits
          entry.createdAt := leaves.fitsSince fits found
      have committed : (w.index.commit other entry' bytes.length).Accounting :=
        made ▸ Index.accounting_commit keeps.sane.sound.accounting fits
      rw [← made] at together
      have still : index'.entries.lookup key =
          (w.index.commit other entry' bytes.length).entries.lookup key →
          ∀ p, entryDir key <+: p → w1.disk.lookup p = w2.disk.lookup p :=
        evicting.kept key (by simp) (free (mid.fixed.trans evicting.fixed))
      by_cases mine : key = other
      · subst mine
        have listed : (w.index.commit key entry' bytes.length).entries.lookup key = some entry' := by
          rw [Index.lookup_commit, if_pos rfl]
        have same : entry'.card = entry.card := made ▸ (nextEntry_found found fits).1
        have stamped : entry'.createdAt = entry.createdAt := congrArg Card.createdAt same
        have spared := evicts.spares committed listed (stamped ▸ together)
        refine ⟨after, keeps.valid, ⟨entry', spared, ?_, same.trans carded⟩, fun file inside apart => ?_⟩
        · rw [made, nextEntry_expiresAt]
          exact renews choice may
        · have there := keeps.files file inside apart
          have other : file.1 ≠ safeName name := by
            intro same
            have absent : w.disk.lookup (entryDir key ++ [safeName name]) = none := absent
            rw [same, absent] at there
            cases there
          have stays := still (spared.trans listed.symm) _ (List.prefix_append _ [file.1])
          have held := mid.here _ (List.prefix_append _ [file.1])
          exact stays.trans (held.trans ((dirStored_other other apart).trans there))
      · have listed : (w.index.commit other entry' bytes.length).entries.lookup key = some entry := by
          rw [Index.lookup_commit, if_neg mine]
          exact found
        have spared := evicts.spares committed listed together
        refine keeps.same after (spared.trans found.symm) fun p under => ?_
        exact (still (spared.trans listed.symm) p under).trans (mid.others key mine (free mid.fixed) p under)

/-- What a put returns is what it made of the index it found. -/
theorem put_entry (key : Key) (sane : Sane limits codec False w)
    (ran : Alone allowed () (putWithId limits codec key.tenant key.kind key.id name bytes info) w
      (.ok entry) w') :
    ∃ choice, allowed choice ∧ entry = w.index.nextEntry limits key bytes.length choice.now info := by
  rcases putWithId_exec sane.toAtRest (fun no => no.elim) ran with
    ⟨_, _, failed, _⟩ | ⟨valid, begun, out, w1, ended, _, answer, rfl⟩
  · cases failed
  cases ended with
  | refused _ _ => cases answer
  | taken _ _ _ => cases answer
  | @stored choice entry' w2 index' _ room absent may made mid evicts evicting =>
      obtain rfl := Except.ok.inj answer
      exact ⟨choice, may, made⟩

/-- The expiry a put gives its entry is counted from a reading of the clock. -/
theorem put_expiry (key : Key) (sane : Sane limits codec False w)
    (ran : Alone allowed () (putWithId limits codec key.tenant key.kind key.id name bytes info) w
      (.ok entry) w') :
    ∃ choice, allowed choice ∧ entry.expiresAt = wrapAdd choice.now (limits.ttl key.kind) := by
  obtain ⟨choice, may, made⟩ := put_entry key sane ran
  exact ⟨choice, may, by rw [made, nextEntry_expiresAt]⟩

/-- A put with room to spare has stored its file. -/
theorem put_stores (key : Key) (sane : Sane limits codec False w)
    (spare : Spare limits w.index key (bytes.length + extra)) (young : later < entry.expiresAt)
    (ran : Alone allowed () (putWithId limits codec key.tenant key.kind key.id name bytes info) w
      (.ok entry) w') :
    entry.id = key.id ∧ Keeps limits codec later key entry.card [(safeName name, bytes)] w' ∧
      Spare limits w'.index key extra := by
  have rest' := putWithId_atRest sane.toAtRest (fun no => no.elim) ran
  have fits : w.index.stored + bytes.length < u64Size := by
    have := spare.bytes
    have := limits.maxStoreBytes_lt
    omega
  rcases putWithId_exec sane.toAtRest (fun no => no.elim) ran with
    ⟨_, _, failed, _⟩ | ⟨valid, begun, out, w1, ended, _, answer, rfl⟩
  · cases failed
  have after := ended.sane sane begun (fun no => no.elim) fits rest'
  cases ended with
  | refused _ _ => cases answer
  | taken _ _ _ => cases answer
  | @stored choice entry' w2 index' _ room absent may made mid evicts evicting =>
      obtain rfl := Except.ok.inj answer
      have made : entry = w.index.nextEntry limits key bytes.length choice.now info := made
      obtain ⟨within, spare'⟩ := spare.commit sane.sound.accounting choice.now info
      rw [← made] at within spare'
      have same : index' = w.index.commit key entry bytes.length := Evicts.none evicts within
      have found : index'.entries.lookup key = some entry := by
        rw [same, Index.lookup_commit, if_pos rfl]
      refine ⟨?_, ⟨after, valid, ⟨entry, found, young, rfl⟩, ?_⟩, same ▸ spare'⟩
      · rw [made]
        exact (nextEntry_named begun _ _).1
      · intro file inside apart
        obtain rfl := List.mem_singleton.1 inside
        have there := spared_file sane.toAtRest begun absent mid evicting found List.mem_cons_self
        rw [if_neg apart] at there
        exact there

/-- A put with room to spare adds its file and loses none. -/
theorem put_keeps (key : Key) (keeps : Keeps limits codec later key card files w)
    (spare : Spare limits w.index key (bytes.length + extra))
    (renews : ∀ choice, allowed choice → later < wrapAdd choice.now (limits.ttl key.kind))
    (ran : Alone allowed () (putWithId limits codec key.tenant key.kind key.id name bytes info) w
      (.ok entry) w') :
    Keeps limits codec later key card ((safeName name, bytes) :: files) w' ∧
      Spare limits w'.index key extra := by
  obtain ⟨choice, may, told⟩ := put_expiry key keeps.sane ran
  obtain ⟨-, stored, spare'⟩ := put_stores key keeps.sane spare (told ▸ renews choice may) ran
  have fits : w.index.stored + bytes.length < u64Size := by
    have := spare.bytes
    have := limits.maxStoreBytes_lt
    omega
  have kept := keeps_put key keeps spare.leaves fits renews ran
  refine ⟨⟨kept.sane, kept.valid, kept.live, fun file inside apart => ?_⟩, spare'⟩
  rcases List.mem_cons.1 inside with rfl | old
  · exact stored.files _ List.mem_cons_self apart
  · exact kept.files file old apart

/-! ## Whatever is called meanwhile -/

/-- The call does not take the entry under `key`: it deletes another, and what it puts leaves it. -/
def Spares (limits : Limits) (key : Key) (w : Solo) : Op → Prop
  | .put tenant kind _ bytes _ => ∀ id, Leaves limits w.index key ⟨tenant, kind, id⟩ bytes.length
  | .putWithId tenant kind id _ bytes _ => Leaves limits w.index key ⟨tenant, kind, id⟩ bytes.length
  | .delete tenant kind id => key ≠ ⟨tenant, kind, id⟩
  | _ => True

/-- A reading of the clock up to `later`, from which an entry would outlast it. -/
def Until (limits : Limits) (key : Key) (later : Nat) (choice : Choice) : Prop :=
  choice.now ≤ later ∧ later < wrapAdd choice.now (limits.ttl key.kind)

/-- **No call takes what it spares.** -/
theorem keeps_op (op : Op) {out : Outcome} (keeps : Keeps limits codec later key card files w)
    (fits : op.Fits w.index) (spares : Spares limits key w op)
    (ran : Alone (Until limits key later) () (op.program limits codec) w out w') :
    Keeps limits codec later key card files w' := by
  have sane := program_sane op keeps.sane (fun no => no.elim) fits ran
  have rest := keeps.sane.toAtRest
  have renews : ∀ choice, Until limits key later choice →
      later < wrapAdd choice.now (limits.ttl key.kind) := fun _ held => held.2
  cases op with
  | put tenant kind name bytes info =>
      obtain ⟨_, w1, stored, -, rfl⟩ := Prog.exec_bind.1 ran
      obtain ⟨_, choice, _, stored⟩ := alone_call.1 stored
      exact keeps_put ⟨tenant, kind, kind.idPrefix ++ choice.ulid⟩ keeps (spares _) fits renews stored
  | putWithId tenant kind id name bytes info =>
      obtain ⟨_, w1, stored, -, rfl⟩ := Prog.exec_bind.1 ran
      exact keeps_put ⟨tenant, kind, id⟩ keeps spares fits renews stored
  | get tenant kind id name =>
      obtain ⟨_, w1, read, -, rfl⟩ := Prog.exec_bind.1 ran
      obtain ⟨rfl, -⟩ := get_exec rest.toIdle read
      exact keeps
  | entry tenant kind id =>
      obtain ⟨_, w1, read, -, rfl⟩ := Prog.exec_bind.1 ran
      obtain ⟨rfl, -⟩ := entry_exec rest.toIdle read
      exact keeps
  | list tenant kind =>
      obtain ⟨_, w1, read, -, rfl⟩ := Prog.exec_bind.1 ran
      obtain ⟨rfl, -⟩ := list_exec rest.toIdle read
      exact keeps
  | delete tenant kind id =>
      obtain ⟨_, w1, deleted, -, rfl⟩ := Prog.exec_bind.1 ran
      rcases delete_exec rest deleted with
        ⟨_, _, _, rfl⟩ | ⟨_, _, _, _, ⟨_, _, rfl⟩ | ⟨_, _, dropped⟩⟩
      · exact keeps
      · exact keeps
      · exact keeps.dropped sane dropped fun inside => spares (List.mem_singleton.1 inside)
  | reap =>
      obtain ⟨_, w1, reaped, -, rfl⟩ := Prog.exec_bind.1 ran
      obtain ⟨choice, keys, may, expired, dropped⟩ := reap_exec reaped
      apply keeps.dropped sane dropped
      intro inside
      obtain ⟨entry, found, young, -⟩ := keeps.live
      obtain ⟨entry', found', late⟩ := (expired key).1 inside
      obtain rfl : entry = entry' := by
        rw [found] at found'
        exact Option.some.inj found'
      have past : choice.now ≤ later := may.1
      simp only [Entry.isExpired, decide_eq_true_eq] at late
      omega

/-- A restart takes in every file. -/
theorem keeps_reopened (keeps : Keeps limits codec later key card files w)
    (ran : Alone (fun _ => True) () (openStore limits codec) w.crash (.ok ()) w') :
    Keeps limits codec later key card files w' := by
  have restarted := reopened_restarted keeps.sane ran
  obtain ⟨entry, found, live⟩ := keeps.live
  have listed := restarted.lookup key
  rw [found, Option.map_some] at listed
  refine ⟨restarted.sane, keeps.valid, ⟨_, listed, live⟩, fun file inside apart => ?_⟩
  obtain ⟨start, index, index', prepared, rebuilt, published, -⟩ := openStore_exec ran rfl
  rw [rebuilt.kept (published ▸ listed) (List.prefix_append _ _),
    Prepared.below prepared (List.prefix_append _ _)]
  exact keeps.files file inside apart

/-- What may happen between two states of a store up to `later` that leaves the entry under `key`:
calls by anyone, each run to its end, and restarts. -/
inductive Meanwhile (limits : Limits) (codec : MetaCodec) (key : Key) (later : Nat) (w : Solo) :
    Solo → Prop
  | nothing : Meanwhile limits codec key later w w
  | called {w1 w2 : Solo} {op : Op} {out : Outcome} (past : Meanwhile limits codec key later w w1)
      (fits : op.Fits w1.index) (spares : Spares limits key w1 op)
      (ran : Alone (Until limits key later) () (op.program limits codec) w1 out w2) :
      Meanwhile limits codec key later w w2
  | reopened {w1 w2 : Solo} (past : Meanwhile limits codec key later w w1)
      (ran : Alone (fun _ => True) () (openStore limits codec) w1.crash (.ok ()) w2) :
      Meanwhile limits codec key later w w2

theorem keeps_meanwhile (keeps : Keeps limits codec later key card files w)
    (run : Meanwhile limits codec key later w w') : Keeps limits codec later key card files w' := by
  induction run with
  | nothing => exact keeps
  | called _ fits spares ran ih => exact keeps_op _ ih fits spares ran
  | reopened _ ran ih => exact keeps_reopened ih ran

/-! ## From a read to a later one -/

variable {tenant : TenantId} {kind : Kind} {id : String} {now : Nat} {w1 w2 w'' : Solo}

/-- A file that is read is kept until its entry expires. -/
theorem keeps_of_read (sane : Sane limits codec False w)
    (told : Alone (clock now) () (Store.entry tenant kind id) w (.ok entry) w1)
    (read : Alone (clock now) () (Store.get tenant kind id name) w (.ok bytes) w2)
    (young : later < entry.expiresAt) :
    Keeps limits codec later ⟨tenant, kind, id⟩ entry.card [(safeName name, bytes)] w := by
  obtain ⟨rfl, ⟨_, _, failed⟩ | ⟨valid, reading, clocked, live⟩⟩ := entry_exec sane.toAtRest.toIdle told
  · cases failed
  obtain ⟨rfl, ⟨_, _, failed⟩ | ⟨reading', _, answered⟩⟩ := get_exec sane.toAtRest.toIdle read
  · cases failed
  refine ⟨sane, valid, ⟨entry, ?_, young, rfl⟩, fun file inside _ => ?_⟩
  · unfold liveAt at live
    split at live
    · cases live
    · rename_i found
      split at live
      · cases live
      · rw [found, Except.ok.inj live]
  · obtain rfl := List.mem_singleton.1 inside
    unfold getAt at answered
    rw [valid] at answered
    dsimp only at answered
    split at answered
    · cases answered
    · unfold readAt FileTree.read at answered
      split at answered
      · rename_i contents there
        obtain rfl := Except.ok.inj answered
        split at there <;> simp_all
      · cases answered
      · cases answered

/-- **What can be read can be read until it expires.**  In every reachable state, a file that a get
returned, the entry's own record apart, is what every get returns until the expiry of its entry,
whatever anyone calls meanwhile and however often the store is opened again, unless the entry is
deleted or a put leaves it no room beside the entries as young. -/
theorem read_stays (past : History limits codec (fun w op => op.Fits w.index) w)
    (told : Alone (clock now) () (Store.entry tenant kind id) w (.ok entry) w1)
    (read : Alone (clock now) () (Store.get tenant kind id name) w (.ok bytes) w2)
    (apart : safeName name ≠ metaName) (young : later < entry.expiresAt)
    (run : Meanwhile limits codec ⟨tenant, kind, id⟩ later w w') {result : Except StoreError Bytes}
    (again : Alone (clock later) () (Store.get tenant kind id name) w' result w'') :
    result = .ok bytes := by
  have sane : Sane limits codec False w := history_sane (fun _ _ fits => ⟨fun no => no.elim, fits⟩) past
  have kept := keeps_meanwhile (keeps_of_read sane told read young) run
  exact kept.reads List.mem_cons_self apart again

/-- A file is read, another tenant's is put, the store is reaped, and the file is read again. -/
theorem read_stays_crowd : ∃ w w' : Solo, Meanwhile tinyLimits serde someKey 5 w w' ∧
    size w'.index.entries = 2 ∧ ∀ result w'',
      Alone (clock 5) () (Store.get someKey.tenant .output someKey.id "a.pdf") w' result w'' →
        result = .ok [1, 2] := by
  obtain ⟨⟨_, w⟩, first, more⟩ : ∃ x,
      solo 0 ((putOp "a.pdf" [1, 2]).program tinyLimits serde) World.fresh = some x ∧
        (decide (x.2.index.stored = 2 ∧ size x.2.index.entries = 1) &&
        (solo 1 (Store.entry someKey.tenant .output someKey.id) x.2).any (fun y =>
          y.1.toOption.any fun entry => decide (entry.expiresAt = 10)) &&
        (solo 1 (Store.get someKey.tenant .output someKey.id "a.pdf") x.2).any (fun y =>
          decide (y.1.toOption = some [1, 2])) &&
        (solo 2 (otherPut.program tinyLimits serde) x.2).any fun y =>
          (solo 3 (Op.reap.program tinyLimits serde) y.2).any fun z =>
            decide (size z.2.index.entries = 2)) = true :=
    (Option.any_eq_true _ _).1 (by decide +kernel)
  simp only [Bool.and_eq_true, decide_eq_true_eq] at more
  obtain ⟨⟨⟨⟨small, few⟩, told⟩, read⟩, more⟩ := more
  obtain ⟨⟨answer, w1⟩, told, live⟩ := (Option.any_eq_true _ _).1 told
  obtain ⟨⟨found, w2⟩, read, same⟩ := (Option.any_eq_true _ _).1 read
  obtain ⟨⟨_, w3⟩, second, more⟩ := (Option.any_eq_true _ _).1 more
  obtain ⟨⟨_, w4⟩, third, both⟩ := (Option.any_eq_true _ _).1 more
  have early : ∀ now, now ≤ 5 → 0 < now → ∀ choice, clock now choice →
      Until tinyLimits someKey 5 choice := by
    rintro now most least choice rfl
    exact ⟨most, by simp [wrapAdd, tinyLimits, smallLimits, Limits.ttl, someKey, u64Size]; omega⟩
  have fits : (putOp "a.pdf" [1, 2]).Fits (World.fresh : Solo).index := by
    show 0 + 2 < u64Size
    decide
  have past : History tinyLimits serde (fun w op => op.Fits w.index) w :=
    .served .fresh fits (alone_mono (alone_solo first) fun _ _ => trivial)
  have fits' : otherPut.Fits w.index := by
    show w.index.stored + 2 < u64Size
    rw [small]
    decide
  have leaves : Spares tinyLimits someKey w otherPut :=
    leaves_of_room (by rw [small]; decide) (by rw [few]; decide) _
  have counts : Op.reap.Fits w3.index := trivial
  have spared : Spares tinyLimits someKey w3 .reap := trivial
  have run : Meanwhile tinyLimits serde someKey 5 w w4 :=
    .called (.called .nothing fits' leaves
      (alone_mono (alone_solo second) (early 2 (by decide) (by decide)))) counts spared
      (alone_mono (alone_solo third) (early 3 (by decide) (by decide)))
  refine ⟨w, w4, run, of_decide_eq_true both, fun result w'' again => ?_⟩
  cases answer with
  | error _ => cases live
  | ok entry =>
      cases found with
      | error _ => cases same
      | ok bytes =>
          obtain rfl : bytes = [1, 2] := Option.some.inj (of_decide_eq_true same)
          have late : entry.expiresAt = 10 := of_decide_eq_true live
          exact read_stays past (alone_solo told) (alone_solo read) (by decide) (by omega) run again

end TypstMcp.Store
