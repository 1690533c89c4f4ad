/-
Store.History -- the states of a store that serves one call at a time

A history begins with an empty volume and goes on with operations, each run to its
end, and with restarts: the process stops between two calls and the store is opened
again.  `Held` is what holds of every state of a history.

* `history_kept`: the run lemma, from `program_kept` and `reopened_kept`.
-/
import TypstMcp.Store.Sequential
import TypstMcp.Store.Reopen

namespace TypstMcp.Store

open TypstMcp.Theory TypstMcp.Theory.Table
open TypstMcp.Theory.FileTree (isDir_iff bytesIn bytesIn_congr bytesIn_insert bytesIn_eq_zero)
open TypstMcp.Auth (TenantId)

set_option autoImplicit false
set_option linter.unusedSectionVars false

variable {codec : MetaCodec} {plain : Prop} {allowed : Choice → Prop} {limits : Limits}
variable {w w' : Solo}

/-- With this operation the stored sizes still sum below `2 ^ 64`. -/
def Op.Fits (index : Index) : Op → Prop
  | .put _ _ _ bytes _ => index.stored + bytes.length < u64Size
  | .putWithId _ _ _ _ bytes _ => index.stored + bytes.length < u64Size
  | _ => True

/-- A store between two calls, its books right.  An entry counts at least the payload
bytes of its directory, and exactly those when no file takes the metadata's name. -/
structure Sane (limits : Limits) (codec : MetaCodec) (plain : Prop) (w : Solo) : Prop extends
    AtRest codec plain w where
  sound : Sound limits w.index
  counts : ∀ key entry, w.index.entries.lookup key = some entry →
    bytesIn metaName w.disk (entryDir key) ≤ entry.bytes ∧
      (plain → bytesIn metaName w.disk (entryDir key) = entry.bytes)

/-- The states of a store on which `may` allows each next operation. -/
inductive History (limits : Limits) (codec : MetaCodec) (may : Solo → Op → Prop) : Solo → Prop
  | fresh : History limits codec may World.fresh
  | served {w w' : Solo} {op : Op} {out : Outcome} (past : History limits codec may w)
      (allowed : may w op)
      (ran : Alone (fun _ => True) () (op.program limits codec) w out w') :
      History limits codec may w'
  | reopened {w w' : Solo} (past : History limits codec may w)
      (ran : Alone (fun _ => True) () (openStore limits codec) w.crash (.ok ()) w') :
      History limits codec may w'

/-- The put has nothing against it: its id is valid, its tenant has room, and there is
no file of that name. -/
structure Accepted (limits : Limits) (w : Solo) (key : Key) (name : String) (size : Nat) : Prop where
  valid : validateId key.kind key.id = .ok key.id
  room : w.index.refusal limits key size = none
  absent : w.disk.lookup (entryDir key ++ [safeName name]) = none

/-! ## Sizes -/

/-- The payload bytes of an entry directory a put has added its file to. -/
theorem bytesIn_stored {key : Key} {name : String} {bytes : Bytes} {entry : Entry}
    {w0 w1 : Solo} (absent : w0.disk.lookup (entryDir key ++ [name]) = none)
    (mid : Mid () key w0 none (dirStored codec key name bytes entry w0) w1) :
    bytesIn metaName w1.disk (entryDir key) = (if name = metaName then 0 else bytes.length) +
      bytesIn metaName w0.disk (entryDir key) := by
  have at_ : ∀ n, n ≠ name → n ≠ metaName →
      w1.disk.lookup (entryDir key ++ [n]) = w0.disk.lookup (entryDir key ++ [n]) := by
    intro n apart safe
    rw [mid.here _ (List.prefix_append _ _), dirStored_other apart safe]
  by_cases named : name = metaName
  · rw [if_pos named, Nat.zero_add]
    apply bytesIn_congr
    intro n safe
    exact at_ n (named ▸ safe) safe
  · rw [if_neg named, ← bytesIn_insert absent named]
    apply bytesIn_congr
    intro n safe
    rw [FileTree.lookup_insert_eq]
    split
    · rename_i same
      obtain rfl : n = name := by simpa using same
      rw [mid.here _ (List.prefix_append _ _), dirStored_payload named]
    · rename_i apart
      exact at_ n (fun same => apart (by rw [same])) safe

theorem Dropped.sane {keys : List Key} (sane : Sane limits codec plain w)
    (dropped : Dropped keys w w') (rest : AtRest codec plain w') :
    Sane limits codec plain w' := by
  refine ⟨rest, dropped.sound limits sane.sound, ?_⟩
  intro key entry found
  have before := dropped.lookup key
  rw [found] at before
  split at before
  · simp at before
  · rename_i apart
    have same : bytesIn metaName w'.disk (entryDir key) =
        bytesIn metaName w.disk (entryDir key) := by
      apply bytesIn_congr
      intro n _
      apply dropped.disk
      intro other inside under
      exact apart (entryDir_under (List.prefix_append _ _) under ▸ inside)
    rw [same]
    exact sane.counts key entry before.symm

/-- **A put keeps the books and the disk in step.** -/
theorem PutEnd.sane {key : Key} {name : String} {bytes : Bytes} {info : Meta}
    {out : Except StoreError Entry × Index × Note} {w1 : Solo} (sane : Sane limits codec plain w)
    (begun : PutStart codec plain () key bytes.length (w.lockedFor key bytes.length))
    (named : plain → safeName name ≠ metaName) (fits : w.index.stored + bytes.length < u64Size)
    (ended : PutEnd limits codec allowed () key name bytes info (w.lockedFor key bytes.length) out w1)
    (rest : AtRest codec plain (w1.publish () out.2.1 out.2.2)) :
    Sane limits codec plain (w1.publish () out.2.1 out.2.2) := by
  have unchanged : ∀ {v : Solo}, (∀ key p, entryDir key <+: p →
      v.disk.lookup p = w.disk.lookup p) → ∀ key entry, w.index.entries.lookup key = some entry →
      bytesIn metaName v.disk (entryDir key) ≤ entry.bytes ∧
        (plain → bytesIn metaName v.disk (entryDir key) = entry.bytes) := by
    intro v same key entry found
    rw [bytesIn_congr fun n _ => same key _ (List.prefix_append _ _)]
    exact sane.counts key entry found
  have undoomed : ∀ {v : Solo}, Fixed () (w.lockedFor key bytes.length) v → ∀ other,
      v.Undoomed other := by
    intro v fixed other s
    rw [show v.doomed s = [] from fixed.own.trans sane.doomed]
    exact List.not_mem_nil
  cases ended with
  | refused full mid =>
      exact ⟨rest, sane.sound, unchanged fun other p => mid.same (undoomed mid.fixed other)⟩
  | taken room there mid =>
      exact ⟨rest, sane.sound, unchanged fun other p => mid.same (undoomed mid.fixed other)⟩
  | @stored choice entry w2 index' _ room absent may made mid evicts evicting =>
      have next : entry.bytes = ((w.index.entries.lookup key).map (·.bytes)).getD 0 +
          bytes.length := made ▸ Index.nextEntry_bytes fits
      have committed : (w.index.commit key entry bytes.length).Accounting :=
        Index.accounting_grow sane.sound.accounting fits next
      refine ⟨rest, evicts.sound committed, ?_⟩
      intro other entry' found
      have kept : index'.entries.lookup other =
          (w.index.commit key entry bytes.length).entries.lookup other := by
        cases evicts.sub other with
        | inl gone => rw [show index'.entries.lookup other = some entry' from found] at gone; simp at gone
        | inr same => exact same
      have found' := kept.symm.trans found
      rw [Index.lookup_commit] at found'
      have disk : ∀ p, entryDir other <+: p → w1.disk.lookup p = w2.disk.lookup p :=
        evicting.kept other (by simp) (undoomed (mid.fixed.trans evicting.fixed) other) kept
      show bytesIn metaName w1.disk _ ≤ _ ∧ (plain → bytesIn metaName w1.disk _ = _)
      rw [bytesIn_congr fun n _ => disk _ (List.prefix_append _ _)]
      by_cases mine : other = key
      · subst mine
        rw [if_pos rfl] at found'
        obtain rfl : entry = entry' := by simpa using found'
        rw [bytesIn_stored absent mid, next]
        have before : bytesIn metaName w.disk (entryDir other) ≤
            ((w.index.entries.lookup other).map (·.bytes)).getD 0 ∧
            (plain → bytesIn metaName w.disk (entryDir other) =
              ((w.index.entries.lookup other).map (·.bytes)).getD 0) := by
          cases was : w.index.entries.lookup other with
          | some old => simpa using sane.counts other old was
          | none =>
              have bare := (sane.good other).unlisted was
              rw [bytesIn_eq_zero fun n => bare _ (List.prefix_append _ _)]
              simp
        have here : bytesIn metaName (w.lockedFor other bytes.length).disk (entryDir other) =
            bytesIn metaName w.disk (entryDir other) := rfl
        rw [here]
        constructor
        · have := before.1
          split <;> omega
        · intro isPlain
          rw [if_neg (named isPlain), before.2 isPlain]
          omega
      · rw [if_neg mine] at found'
        rw [bytesIn_congr fun n _ => mid.others other mine (undoomed mid.fixed other) _
          (List.prefix_append _ _)]
        exact sane.counts other entry' found'

/-- **Every operation keeps a store sane.** -/
theorem program_sane (op : Op) {out : Outcome} (sane : Sane limits codec plain w)
    (named : plain → op.Plain) (fits : op.Fits w.index)
    (ran : Alone allowed () (op.program limits codec) w out w') : Sane limits codec plain w' := by
  have rest := program_atRest op sane.toAtRest named ran
  have puts : ∀ {tenant : TenantId} {kind : Kind} {id name : String} {bytes : Bytes} {info : Meta}
      {result : Except StoreError Entry}, (plain → safeName name ≠ metaName) →
      w.index.stored + bytes.length < u64Size →
      Alone allowed () (putWithId limits codec tenant kind id name bytes info) w result w' →
      Sane limits codec plain w' := by
    intro tenant kind id name bytes info result named fits stored
    rcases putWithId_exec sane.toAtRest named stored with
      ⟨_, _, _, rfl⟩ | ⟨_, begun, out, w1, ended, inv, _, rfl⟩
    · exact sane
    · exact ended.sane sane begun named fits rest
  cases op with
  | put tenant kind name bytes info =>
      obtain ⟨_, w1, stored, -, rfl⟩ := Prog.exec_bind.1 ran
      obtain ⟨_, choice, _, stored⟩ := alone_call.1 stored
      exact puts named fits stored
  | putWithId tenant kind id name bytes info =>
      obtain ⟨_, w1, stored, -, rfl⟩ := Prog.exec_bind.1 ran
      exact puts named fits stored
  | get tenant kind id name =>
      obtain ⟨_, w1, read, -, rfl⟩ := Prog.exec_bind.1 ran
      obtain ⟨rfl, -⟩ := get_exec sane.toIdle read
      exact sane
  | entry tenant kind id =>
      obtain ⟨_, w1, read, -, rfl⟩ := Prog.exec_bind.1 ran
      obtain ⟨rfl, -⟩ := entry_exec sane.toIdle read
      exact sane
  | list tenant kind =>
      obtain ⟨_, w1, read, -, rfl⟩ := Prog.exec_bind.1 ran
      obtain ⟨rfl, -⟩ := list_exec sane.toIdle read
      exact sane
  | delete tenant kind id =>
      obtain ⟨_, w1, deleted, -, rfl⟩ := Prog.exec_bind.1 ran
      rcases delete_exec sane.toAtRest deleted with
        ⟨_, _, _, rfl⟩ | ⟨_, _, _, _, ⟨_, _, rfl⟩ | ⟨_, _, dropped⟩⟩
      · exact sane
      · exact sane
      · exact dropped.sane sane rest
  | reap =>
      obtain ⟨_, w1, reaped, -, rfl⟩ := Prog.exec_bind.1 ran
      obtain ⟨_, _, _, _, dropped⟩ := reap_exec reaped
      exact dropped.sane sane rest

/-! ## Restarts -/

/-- What the rebuild makes of the directory of an entry: the entry, at the size its
payload has on disk. -/
theorem Sane.adopts (sane : Sane limits codec plain w) {key : Key} {entry : Entry}
    (found : w.index.entries.lookup key = some entry) :
    Adopts codec w.disk key { entry with bytes := bytesIn metaName w.disk (entryDir key) } := by
  have complete := (sane.good key).listed entry found
  obtain ⟨raw, there, stored, decoded, whole⟩ := complete.info
  have dir := sane.inv.dir_of_file (by rw [there]; rfl)
  obtain ⟨-, valid⟩ := placed_entry (sane.inv.shape _ _ dir)
  refine ⟨⟨raw, stored, there, decoded, ?_⟩, complete.id, complete.kind, by rw [valid]; rfl,
    isDir_iff.2 dir, ?_, ?_⟩
  · rw [whole]
  · intro name node _ present
    exact placed_file (sane.inv.shape _ _ present)
  · have within := le_weight Index.bytesOf found
    have counts := (sane.counts key entry found).1
    have total := sane.sound.accounting.total
    have ceiling := sane.sound.ceilings.bytes
    have small := limits.maxStoreBytes_lt
    simp only [Index.bytesOf, Index.stored] at *
    omega

theorem Sane.live (sane : Sane limits codec plain w) {key : Key} {found : Entry}
    (adopts : Adopts codec w.disk key found) : ∃ entry,
      w.index.entries.lookup key = some entry ∧
      found = { entry with bytes := bytesIn metaName w.disk (entryDir key) } := by
  cases listed : w.index.entries.lookup key with
  | none =>
      obtain ⟨raw, _, there, _⟩ := adopts.recorded
      rw [(sane.good key).unlisted listed _ (List.prefix_append _ _)] at there
      simp at there
  | some entry => exact ⟨entry, rfl, adopts.unique (sane.adopts listed)⟩

/-- What an index takes in from the tree of a sane store is no more than the live one
holds. -/
theorem Sane.adopted_le (sane : Sane limits codec plain w) {index : Index}
    (each : ∀ key entry, index.entries.lookup key = some entry → Adopts codec w.disk key entry) :
    index.stored ≤ w.index.stored ∧ size index.entries ≤ size w.index.entries := by
  have keys : ∀ key, (index.entries.lookup key).isSome → (w.index.entries.lookup key).isSome := by
    intro key present
    obtain ⟨found, taken⟩ := Option.isSome_iff_exists.1 present
    obtain ⟨entry, listed, -⟩ := sane.live (each key found taken)
    rw [listed]
    rfl
  constructor
  · calc index.stored
        = weight (fun key _ => bytesIn metaName w.disk (entryDir key)) index.entries :=
          weight_eq_weight fun key entry taken => (each key entry taken).bytes
      _ ≤ weight (fun key _ => bytesIn metaName w.disk (entryDir key)) w.index.entries :=
          weight_le_of_keys (fun key => bytesIn metaName w.disk (entryDir key)) keys
      _ ≤ w.index.stored :=
          weight_le_weight fun key entry listed => (sane.counts key entry listed).1
  · rw [size_eq_weight, size_eq_weight]
    exact weight_le_of_keys (fun _ => 1) keys

/-- The store a restart hands out, against the one that stopped. -/
structure Restarted (limits : Limits) (codec : MetaCodec) (plain : Prop) (w w' : Solo) : Prop where
  sane : Sane limits codec plain w'
  lookup : ∀ key, w'.index.entries.lookup key = (w.index.entries.lookup key).map fun entry =>
    { entry with bytes := bytesIn metaName w.disk (entryDir key) }
  quota : w'.quotaEvictions = 0

/-- **A restart takes in every entry and evicts nothing.** -/
theorem reopened_restarted (sane : Sane limits codec plain w)
    (ran : Alone allowed () (openStore limits codec) w.crash (.ok ()) w') :
    Restarted limits codec plain w w' := by
  have serves : ∀ key, w.crash.Serves key := by
    intro key present
    cases found : w.index.entries.lookup key with
    | none =>
        have bare := (sane.good key).unlisted found _ (List.prefix_append _ [metaName])
        rw [show w.crash.disk = w.disk from rfl, bare] at present
        simp at present
    | some entry => exact ((sane.good key).listed entry found).files
  obtain ⟨inv, -⟩ := openStore_inv (down_crash sane.inv (Or.inr sane.still)) serves ran
  obtain ⟨start, index, index', prepared, rebuilt, published, free, _, _, isUp, doomed, quota⟩ :=
    openStore_exec ran rfl
  obtain ⟨middle, scanned, trimmed⟩ := rebuilt.scanned
  have below : ∀ key p, entryDir key <+: p → start.lookup p = w.disk.lookup p :=
    fun key p under => Prepared.below prepared under
  have sizes : ∀ key, bytesIn metaName start (entryDir key) =
      bytesIn metaName w.disk (entryDir key) := fun key =>
    bytesIn_congr fun n _ => below key _ (List.prefix_append _ _)
  have onDisk : ∀ {key entry}, Adopts codec start key entry → Adopts codec w.disk key entry :=
    fun {key} _ adopts => adopts.congr fun p under => (below key p under).symm
  have taken : ∀ key entry, index.entries.lookup key = some entry →
      Adopts codec w.disk key entry := fun key entry found =>
    onDisk ((scanned.listed key entry).1 found).2
  have bound := sane.adopted_le taken
  have ceiling := sane.sound.ceilings
  have total := sane.sound.accounting.total
  have countable : Countable codec start := by
    intro other each
    have := (sane.adopted_le fun key entry found => onDisk (each key entry found)).1
    have := ceiling.bytes
    have := limits.maxStoreBytes_lt
    omega
  have accounting := scanned.accounting countable
  have within : index.exceeded limits = false := by
    rw [← Index.ceilings_iff]
    refine ⟨?_, bound.2.trans ceiling.entries⟩
    have := ceiling.bytes
    have := accounting.total
    omega
  have same : index' = index := by
    cases rebuilt.evicts with
    | done _ => rfl
    | bare _ => rfl
    | turn exceeded _ _ _ =>
        rw [within] at exceeded
        simp at exceeded
  subst same
  have rest : AtRest codec plain w' := ⟨⟨inv, isUp, free⟩, congrFun (doomed rfl) ()⟩
  refine ⟨⟨rest, ?_, ?_⟩, ?_, quota within⟩
  · rw [published]
    exact ⟨accounting, Index.ceilings_iff.2 within⟩
  · intro key entry found
    rw [published] at found
    have exact_ : bytesIn metaName w'.disk (entryDir key) = entry.bytes := by
      rw [(rebuilt.adopts found).2.bytes]
      exact bytesIn_congr fun n _ => rebuilt.kept found (List.prefix_append _ _)
    exact ⟨exact_.le, fun _ => exact_⟩
  · intro key
    rw [published]
    cases listed : w.index.entries.lookup key with
    | none =>
        cases found : index'.entries.lookup key with
        | none => rfl
        | some entry =>
            obtain ⟨live, present, -⟩ := sane.live (taken key entry found)
            simp [listed] at present
    | some entry =>
        apply (scanned.listed key _).2
        constructor
        · apply (Prepared.reached prepared sane.inv.closed key).resolve_right
          intro bare
          obtain ⟨raw, _, there, _⟩ := (sane.adopts listed).recorded
          rw [← below key _ (List.prefix_append _ _), bare _ (List.prefix_append _ _)] at there
          simp at there
        · exact (sane.adopts listed).congr (below key)

/-! ## Every history -/

theorem sane_fresh : Sane limits codec plain World.fresh where
  inv := inv_fresh codec plain
  up := rfl
  free := rfl
  doomed := rfl
  sound := sound_empty limits
  counts key entry found := by simp [World.fresh] at found

/-- **Every state of a history is sane.** -/
theorem history_sane {may : Solo → Op → Prop}
    (allows : ∀ w op, may w op → (plain → op.Plain) ∧ op.Fits w.index)
    (past : History limits codec may w) : Sane limits codec plain w := by
  induction past with
  | fresh => exact sane_fresh
  | served _ allowed ran ih =>
      obtain ⟨named, fits⟩ := allows _ _ allowed
      exact program_sane _ ih named fits ran
  | reopened _ ran ih => exact (reopened_restarted ih ran).sane

/-! ## Refused puts -/

/-- At rest nothing is being stored, whatever names are stored. -/
theorem AtRest.anyNamed (rest : AtRest codec False w) : AtRest codec plain w where
  inv := { rest.inv with info := fun _ => rest.inv.info (.inr rest.toIdle.still) }
  up := rest.up
  free := rest.free
  doomed := rest.doomed

theorem Sane.named (sane : Sane limits codec plain w) : Sane limits codec False w where
  inv := { sane.inv with info := fun _ => sane.inv.info (.inr sane.toIdle.still) }
  up := sane.up
  free := sane.free
  doomed := sane.doomed
  sound := sane.sound
  counts key entry found := ⟨(sane.counts key entry found).1, fun no => no.elim⟩

/-- The counts stay exact where neither the index nor an entry directory changes. -/
theorem Sane.again (sane : Sane limits codec plain w) (after : Sane limits codec False w')
    (index : w'.index = w.index)
    (disk : ∀ key p, entryDir key <+: p → w'.disk.lookup p = w.disk.lookup p) :
    Sane limits codec plain w' := by
  refine ⟨after.toAtRest.anyNamed, after.sound, fun key entry found => ?_⟩
  rw [bytesIn_congr fun n _ => disk key _ (List.prefix_append _ _)]
  exact sane.counts key entry (index ▸ found)

/-- **A put that is refused changes nothing,** whatever its name. -/
theorem refused_sane {key : Key} {name : String} {bytes : Bytes} {info : Meta}
    {result : Except StoreError Entry} (sane : Sane limits codec plain w)
    (fits : w.index.stored + bytes.length < u64Size)
    (refused : ¬ Accepted limits w key name bytes.length)
    (ran : Alone allowed () (putWithId limits codec key.tenant key.kind key.id name bytes info) w
      result w') : Sane limits codec plain w' := by
  have rest := putWithId_atRest sane.named.toAtRest (fun no => no.elim) ran
  rcases putWithId_exec sane.named.toAtRest (fun no => no.elim) ran with
    ⟨_, _, _, rfl⟩ | ⟨valid, begun, out, w1, ended, _, _, rfl⟩
  · exact sane
  have after := ended.sane sane.named begun (fun no => no.elim) fits rest
  have undoomed : ∀ {v : Solo}, Fixed () (w.lockedFor key bytes.length) v → ∀ other,
      v.Undoomed other := by
    intro v fixed other s
    rw [show v.doomed s = [] from fixed.own.trans sane.doomed]
    exact List.not_mem_nil
  cases ended with
  | refused full mid => exact sane.again after rfl fun other p => mid.same (undoomed mid.fixed other)
  | taken room there mid => exact sane.again after rfl fun other p => mid.same (undoomed mid.fixed other)
  | stored room absent may made mid evicts evicting => exact absurd ⟨valid, room, absent⟩ refused

/-- The operation is a put that is refused. -/
def Op.Refused (limits : Limits) (w : Solo) : Op → Prop
  | .putWithId tenant kind id name bytes _ => ¬ Accepted limits w ⟨tenant, kind, id⟩ name bytes.length
  | _ => False

/-- The operation stores nothing under the metadata's name, and its bytes fit. -/
def PlainAndFits (limits : Limits) (w : Solo) (op : Op) : Prop :=
  (op.Plain ∨ op.Refused limits w) ∧ op.Fits w.index

theorem plain_history_sane (past : History limits codec (PlainAndFits limits) w) :
    Sane limits codec True w := by
  induction past with
  | fresh => exact sane_fresh
  | @served w w' op out _ allowed ran ih =>
      obtain ⟨named | refused, fits⟩ := allowed
      · exact program_sane op ih (fun _ => named) fits ran
      · cases op with
        | putWithId tenant kind id name bytes info =>
            obtain ⟨_, w1, stored, -, rfl⟩ := Prog.exec_bind.1 ran
            exact @refused_sane _ _ _ _ _ _ ⟨tenant, kind, id⟩ _ _ _ _ ih fits refused stored
        | _ => exact refused.elim
  | reopened _ ran ih => exact (reopened_restarted ih ran).sane

/-- **A clean restart is the identity**: from every state of a history in which no
stored name reduces to `meta.json`, opening the store again gives the same entries, the
same total and the same counts, and evicts nothing. -/
theorem restart_identity (past : History limits codec (PlainAndFits limits) w)
    (ran : Alone allowed () (openStore limits codec) w.crash (.ok ()) w') :
    (∀ key, w'.index.entries.lookup key = w.index.entries.lookup key) ∧
    w'.index.total = w.index.total ∧
    (∀ tenant, tally w'.index.perTenant tenant = tally w.index.perTenant tenant) ∧
    (∀ tenant, tally w'.index.perTenantEntries tenant = tally w.index.perTenantEntries tenant) ∧
    w'.quotaEvictions = 0 := by
  have sane := plain_history_sane past
  have restarted := reopened_restarted sane ran
  have lookup : ∀ key, w'.index.entries.lookup key = w.index.entries.lookup key := by
    intro key
    rw [restarted.lookup]
    cases found : w.index.entries.lookup key with
    | none => rfl
    | some entry =>
        rw [Option.map_some, (sane.counts key entry found).2 trivial]
  have live := sane.sound.accounting
  have rebuilt := restarted.sane.sound.accounting
  refine ⟨lookup, ?_, ?_, ?_, restarted.quota⟩
  · rw [rebuilt.total, live.total]
    exact weight_congr lookup
  · intro tenant
    rw [rebuilt.tenant, live.tenant]
    exact weight_congr lookup
  · intro tenant
    rw [rebuilt.tenantEntries, live.tenantEntries]
    exact weight_congr lookup

/-- Two files of one entry are put, a third one is refused for the metadata's name, and the store is
opened again. -/
theorem restart_identity_twoFiles : ∃ w w' : Solo, (w.index.entries.lookup someKey).isSome ∧
    Alone (fun _ => True) () (openStore smallLimits serde) w.crash (.ok ()) w' ∧
    ((∀ key, w'.index.entries.lookup key = w.index.entries.lookup key) ∧
    w'.index.total = w.index.total ∧
    (∀ tenant, tally w'.index.perTenant tenant = tally w.index.perTenant tenant) ∧
    (∀ tenant, tally w'.index.perTenantEntries tenant = tally w.index.perTenantEntries tenant) ∧
    w'.quotaEvictions = 0) := by
  obtain ⟨⟨_, w1⟩, first, more⟩ : ∃ x,
      solo 0 ((putOp "a.pdf" [1]).program smallLimits serde) World.fresh = some x ∧
        (solo 1 ((putOp "b.pdf" [2, 3]).program smallLimits serde) x.2).any (fun y =>
          decide (x.2.index.stored + 2 < u64Size ∧ y.2.index.stored + 1 < u64Size ∧
            (y.2.disk.lookup (entryDir someKey ++ [safeName "meta.json"])).isSome) &&
          (solo 2 ((putOp "meta.json" [4]).program smallLimits serde) y.2).any fun z =>
            (z.2.index.entries.lookup someKey).isSome &&
            (solo 3 (openStore smallLimits serde) z.2.crash).any fun v => v.1.isOk) = true :=
    (Option.any_eq_true _ _).1 (by decide +kernel)
  obtain ⟨⟨_, w2⟩, second, more⟩ := (Option.any_eq_true _ _).1 more
  obtain ⟨checked, more⟩ := Bool.and_eq_true_iff.1 more
  obtain ⟨small, small', there⟩ := of_decide_eq_true checked
  obtain ⟨⟨_, w3⟩, third, more⟩ := (Option.any_eq_true _ _).1 more
  obtain ⟨listed, more⟩ := Bool.and_eq_true_iff.1 more
  obtain ⟨⟨result, w4⟩, reopened, ok⟩ := (Option.any_eq_true _ _).1 more
  have refused : (putOp "meta.json" [4]).Refused smallLimits w2 := by
    intro accepted
    have absent : w2.disk.lookup (entryDir someKey ++ [safeName "meta.json"]) = none :=
      accepted.absent
    rw [absent] at there
    cases there
  have past : History smallLimits serde (PlainAndFits smallLimits) w3 := by
    refine .served (.served (.served .fresh ⟨.inl ?_, ?_⟩
      (alone_mono (alone_solo first) fun _ _ => trivial)) ⟨.inl ?_, ?_⟩
      (alone_mono (alone_solo second) fun _ _ => trivial)) ⟨.inr refused, ?_⟩
      (alone_mono (alone_solo third) fun _ _ => trivial)
    · show safeName "a.pdf" ≠ metaName
      decide
    · show 0 + 1 < u64Size
      decide
    · show safeName "b.pdf" ≠ metaName
      decide
    · exact small
    · exact small'
  cases result with
  | error _ => exact absurd ok Bool.false_ne_true
  | ok _ =>
      have ran := alone_mono (alone_solo reopened) fun _ _ => trivial
      exact ⟨w3, w4, listed, ran, restart_identity past ran⟩

end TypstMcp.Store
