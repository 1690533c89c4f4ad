/-
Store.Rebuild -- what opening a store makes of the tree it finds

The rebuild walks the tenants, the kinds and the entry directories below them.
Whatever the tree is, one directory is either taken into the index with the size
its files sum to (`Adopts`), or emptied.

* `scanEntry_exec`: the one step.
* `Scanned`: the walk so far, over the tree it began with; `scanTenants_exec` is the
  whole of it.
* `rebuildIndex_exec`: the walk, the eviction after it, and the index published.
* `stored_le_fileBytes`: the sizes an index adopts sum to no more than the files.
-/
import TypstMcp.Store.Alone

namespace TypstMcp.Store

open TypstMcp.Theory TypstMcp.Theory.Table
open TypstMcp.Theory.FileTree (isDir_iff mem_children children children_nodup bytesIn bytesIn_congr
  sum_children fileBytes sizeIn childName childName_iff)
open TypstMcp.Auth (TenantId)

set_option autoImplicit false
set_option linter.unusedSectionVars false

variable {T : Type} [DecidableEq T]
variable {allowed : Choice → Prop} {t : T} {w w' : World T} {codec : MetaCodec}

/-! ## One directory -/

/-- The rebuild takes the directory of `key` for `entry`. -/
structure Adopts (codec : MetaCodec) (disk : FileTree) (key : Key) (entry : Entry) : Prop where
  recorded : ∃ raw stored, disk.lookup (entryDir key ++ [metaName]) = some (.file raw) ∧
    codec.fromSlice raw = some stored ∧
    entry = { stored with bytes := bytesIn metaName disk (entryDir key) }
  id : entry.id = key.id
  kind : entry.kind = key.kind
  valid : (validateId key.kind key.id).isOk = true
  dir : disk.isDir (entryDir key)
  files : ∀ name node, name ≠ metaName → disk.lookup (entryDir key ++ [name]) = some node →
    IsFile node
  counted : bytesIn metaName disk (entryDir key) < u64Size

theorem Adopts.bytes {disk : FileTree} {key : Key} {entry : Entry}
    (adopts : Adopts codec disk key entry) :
    entry.bytes = bytesIn metaName disk (entryDir key) := by
  obtain ⟨_, _, _, _, same⟩ := adopts.recorded
  rw [same]

theorem Adopts.unique {disk : FileTree} {key : Key} {a b : Entry}
    (first : Adopts codec disk key a) (second : Adopts codec disk key b) : a = b := by
  obtain ⟨raw, stored, found, decoded, rfl⟩ := first.recorded
  obtain ⟨raw', stored', found', decoded', rfl⟩ := second.recorded
  obtain rfl : raw = raw' := by simpa [found] using found'
  obtain rfl : stored = stored' := by simpa [decoded] using decoded'
  rfl

theorem Adopts.congr {disk disk' : FileTree} {key : Key} {entry : Entry}
    (adopts : Adopts codec disk key entry)
    (same : ∀ p, entryDir key <+: p → disk'.lookup p = disk.lookup p) :
    Adopts codec disk' key entry := by
  have files : ∀ name, disk'.lookup (entryDir key ++ [name]) =
      disk.lookup (entryDir key ++ [name]) := fun name => same _ (List.prefix_append _ _)
  have sizes : bytesIn metaName disk' (entryDir key) = bytesIn metaName disk (entryDir key) :=
    bytesIn_congr fun name _ => files name
  obtain ⟨raw, stored, found, decoded, whole⟩ := adopts.recorded
  refine ⟨⟨raw, stored, ?_, decoded, ?_⟩, adopts.id, adopts.kind, adopts.valid, ?_, ?_, ?_⟩
  · rw [files]
    exact found
  · rw [sizes]
    exact whole
  · rw [isDir_iff, same _ List.prefix_rfl]
    exact isDir_iff.1 adopts.dir
  · intro name node plain present
    rw [files] at present
    exact adopts.files name node plain present
  · rw [sizes]
    exact adopts.counted

/-- The size of one name in a directory, the metadata left out. -/
def sizeAt (disk : FileTree) (dir : Path) (name : String) : Nat :=
  if name = metaName then 0 else ((disk.lookup (dir ++ [name])).map Node.size).getD 0

theorem metadata_file {p : Path} {length : Nat} (found : w.metadata p = .ok (some length)) :
    ∃ bytes, w.disk.lookup p = some (.file bytes) ∧ length = bytes.length := by
  unfold World.metadata at found
  split at found
  · rename_i bytes there
    exact ⟨bytes, there, by simpa using found.symm⟩
  · simp at found
  · simp at found

/-- The sum runs through exactly when every name but the metadata is a file and the
lengths fit. -/
theorem sumLengths_exec {dir : Path} {names : List String} {total : Nat} {result : Option Nat}
    (ran : Alone allowed t (sumLengths dir names total) w result w') :
    w' = w ∧
      (∀ sum, result = some sum → sum = total + (names.map (sizeAt w.disk dir)).sum ∧
        (sum < u64Size ∨ sum = total) ∧
        ∀ name ∈ names, name ≠ metaName →
          ∃ bytes, w.disk.lookup (dir ++ [name]) = some (.file bytes)) ∧
      (result = none → (∃ name ∈ names, name ≠ metaName ∧
          ∀ bytes, w.disk.lookup (dir ++ [name]) ≠ some (.file bytes)) ∨
        u64Size ≤ total + (names.map (sizeAt w.disk dir)).sum) := by
  induction names generalizing total with
  | nil =>
      obtain ⟨rfl, rfl⟩ := ran
      refine ⟨rfl, ?_, fun none_ => by simp at none_⟩
      intro sum same
      obtain rfl : total = sum := by simpa using same
      exact ⟨by simp, Or.inr rfl, by simp⟩
  | cons name rest ih =>
      unfold sumLengths at ran
      split at ran
      · rename_i named
        obtain ⟨same, sums, fails⟩ := ih ran
        have skip : sizeAt w.disk dir name = 0 := by simp [sizeAt, named]
        refine ⟨same, ?_, ?_⟩
        · intro sum ok
          obtain ⟨value, fits, files⟩ := sums sum ok
          refine ⟨by simp [value, skip], fits, ?_⟩
          intro other inside plain
          cases List.mem_cons.1 inside with
          | inl eq => exact absurd (eq.trans named) plain
          | inr later => exact files other later plain
        · intro none_
          cases fails none_ with
          | inl bad =>
              obtain ⟨other, inside, odd⟩ := bad
              exact Or.inl ⟨other, List.mem_cons_of_mem _ inside, odd⟩
          | inr large =>
              apply Or.inr
              simpa [skip] using large
      · rename_i plain
        obtain ⟨_, choice, _, ran⟩ := alone_call.1 ran
        simp only [handle, Prog.ret_bind] at ran
        split at ran
        · rename_i length found
          obtain ⟨bytes, there, rfl⟩ := metadata_file found
          have size : sizeAt w.disk dir name = bytes.length := by
            simp [sizeAt, plain, there, Node.size]
          split at ran
          · rename_i fits
            obtain ⟨same, sums, fails⟩ := ih ran
            refine ⟨same, ?_, ?_⟩
            · intro sum ok
              obtain ⟨value, bound, files⟩ := sums sum ok
              refine ⟨?_, ?_, ?_⟩
              · simp only [List.map_cons, List.sum_cons, size, value]
                omega
              · left
                omega
              · intro other inside plain'
                cases List.mem_cons.1 inside with
                | inl eq => exact ⟨bytes, by rw [eq]; exact there⟩
                | inr later => exact files other later plain'
            · intro none_
              cases fails none_ with
              | inl bad =>
                  obtain ⟨other, inside, odd⟩ := bad
                  exact Or.inl ⟨other, List.mem_cons_of_mem _ inside, odd⟩
              | inr large =>
                  apply Or.inr
                  simp only [List.map_cons, List.sum_cons, size]
                  omega
          · rename_i large
            obtain ⟨rfl, rfl⟩ := ran
            refine ⟨rfl, fun _ ok => by simp at ok, fun _ => Or.inr ?_⟩
            simp only [List.map_cons, List.sum_cons, size]
            omega
        · rename_i other
          obtain ⟨rfl, rfl⟩ := ran
          refine ⟨rfl, fun _ ok => by simp at ok, fun _ => Or.inl ⟨name, by simp, plain, ?_⟩⟩
          intro bytes there
          apply other bytes.length
          simp [World.metadata, there]

/-- The directory's payload, when the rebuild can count it. -/
theorem payloadBytes_exec {dir : Path} {result : Option Nat}
    (ran : Alone allowed t (payloadBytes dir) w result w') :
    w' = w ∧ ∀ sum, result = some sum ↔
      w.disk.isDir dir ∧
        (∀ name node, name ≠ metaName → w.disk.lookup (dir ++ [name]) = some node → IsFile node) ∧
        bytesIn metaName w.disk dir < u64Size ∧ sum = bytesIn metaName w.disk dir := by
  obtain ⟨_, choice, _, ran⟩ := alone_call.1 ran
  simp only [handle, Prog.ret_bind, FileTree.readDir] at ran
  by_cases isDir : w.disk.isDir dir
  · rw [if_pos isDir] at ran
    obtain ⟨same, sums, fails⟩ := sumLengths_exec ran
    have listed := List.perm_insertionSort (fun m n =>
      choice.pathRank (dir ++ [m]) ≤ choice.pathRank (dir ++ [n])) (children w.disk dir)
    generalize (children w.disk dir).insertionSort (fun m n =>
      choice.pathRank (dir ++ [m]) ≤ choice.pathRank (dir ++ [n])) = names at *
    have whole : (names.map (sizeAt w.disk dir)).sum = bytesIn metaName w.disk dir :=
      sum_children listed
    rw [whole] at sums fails
    have present : ∀ name, name ∈ names ↔ (w.disk.lookup (dir ++ [name])).isSome := by
      intro name
      rw [listed.mem_iff, mem_children]
    refine ⟨same, fun sum => ⟨?_, ?_⟩⟩
    · intro ok
      obtain ⟨same, bound, files⟩ := sums sum ok
      have small : u64Size ≠ 0 := by decide
      refine ⟨isDir, ?_, by omega, by omega⟩
      intro name node plain found
      obtain ⟨bytes, there⟩ := files name ((present name).2 (by rw [found]; rfl)) plain
      exact ⟨bytes, by simpa [found] using there⟩
    · rintro ⟨-, files, fits, rfl⟩
      cases result with
      | some sum => rw [(sums sum rfl).1, Nat.zero_add]
      | none =>
          exfalso
          cases fails rfl with
          | inl bad =>
              obtain ⟨name, inside, plain, odd⟩ := bad
              obtain ⟨node, found⟩ := Option.isSome_iff_exists.1 ((present name).1 inside)
              obtain ⟨bytes, rfl⟩ := files name node plain found
              exact odd bytes found
          | inr large => omega
  · rw [if_neg isDir] at ran
    obtain ⟨rfl, rfl⟩ := ran
    exact ⟨rfl, fun sum => ⟨fun no => by simp at no, fun has => absurd has.1 isDir⟩⟩

/-- The metadata the rebuild reads. -/
theorem readMeta_exec {dir : Path} {result : Option Entry}
    (ran : Alone allowed t (readMeta codec dir) w result w') :
    w' = w ∧ ∀ entry, result = some entry ↔
      ∃ raw, w.disk.lookup (dir ++ [metaName]) = some (.file raw) ∧
        codec.fromSlice raw = some entry := by
  obtain ⟨_, choice, _, ran⟩ := alone_call.1 ran
  simp only [handle, Prog.ret_bind, FileTree.read] at ran
  cases found : w.disk.lookup (dir ++ [metaName]) with
  | none =>
      rw [found] at ran
      obtain ⟨rfl, rfl⟩ := ran
      exact ⟨rfl, by simp⟩
  | some node =>
      rw [found] at ran
      cases node with
      | dir =>
          obtain ⟨rfl, rfl⟩ := ran
          exact ⟨rfl, by simp⟩
      | file raw =>
          obtain ⟨rfl, rfl⟩ := ran
          exact ⟨rfl, by simp⟩

/-- **One directory of the walk**: taken into the index, or emptied. -/
theorem scanEntry_exec {key : Key} {index index' : Index}
    (ran : Alone allowed t (scanEntry codec key index) w index' w') :
    (∃ entry, Adopts codec w.disk key entry ∧ index' = index.adopt key entry ∧
      w'.disk = w.disk) ∨
    ((∀ entry, ¬ Adopts codec w.disk key entry) ∧ index' = index ∧
      Cleared (entryDir key) w.disk w'.disk) := by
  obtain ⟨recorded, w1, first, ran⟩ := Prog.exec_bind.1 ran
  obtain ⟨rfl, reads⟩ := readMeta_exec first
  have empties : ∀ {w' : World T} {index' : Index},
      Alone allowed t ((removeDirAll (entryDir key)).bind fun _ => .ret index) w1 index' w' →
      (∀ entry, ¬ Adopts codec w1.disk key entry) →
      ((∀ entry, ¬ Adopts codec w1.disk key entry) ∧ index' = index ∧
        Cleared (entryDir key) w1.disk w'.disk) := by
    intro w' index' ran odd
    obtain ⟨_, w2, removed, rfl, rfl⟩ := Prog.exec_bind.1 ran
    exact ⟨odd, rfl, removeDirAll_exec removed⟩
  cases recorded with
  | none =>
      refine Or.inr (empties ran ?_)
      intro entry adopts
      obtain ⟨raw, stored, found, decoded, -⟩ := adopts.recorded
      simpa using (reads stored).2 ⟨raw, found, decoded⟩
  | some stored =>
      obtain ⟨raw, found, decoded⟩ := (reads stored).1 rfl
      have only : ∀ entry, Adopts codec w1.disk key entry →
          entry = { stored with bytes := bytesIn metaName w1.disk (entryDir key) } := by
        intro entry adopts
        obtain ⟨raw', stored', found', decoded', same⟩ := adopts.recorded
        obtain rfl : raw = raw' := by simpa [found] using found'
        obtain rfl : stored = stored' := by simpa [decoded] using decoded'
        exact same
      dsimp only at ran
      split at ran
      · rename_i strange
        refine Or.inr (empties ran ?_)
        intro entry adopts
        have id := adopts.id
        have kind := adopts.kind
        rw [only entry adopts] at id kind
        rcases strange with ne | ne | ne
        · exact ne id
        · exact ne kind
        · rw [adopts.valid] at ne
          simp at ne
      · rename_i named
        push Not at named
        obtain ⟨id, kind, valid⟩ := named
        obtain ⟨payload, w2, second, ran⟩ := Prog.exec_bind.1 ran
        obtain ⟨rfl, counts⟩ := payloadBytes_exec second
        cases payload with
        | none =>
            refine Or.inr (empties ran ?_)
            intro entry adopts
            have := (counts _).2 ⟨adopts.dir, adopts.files, adopts.counted, rfl⟩
            simp at this
        | some sum =>
            obtain ⟨dir, files, fits, rfl⟩ := (counts sum).1 rfl
            obtain ⟨rfl, rfl⟩ := ran
            refine Or.inl ⟨_, ⟨⟨raw, stored, found, decoded, rfl⟩, id, kind, ?_, dir, files, fits⟩,
              rfl, rfl⟩
            simpa using valid

/-! ## Sizes -/

/-- A path lies directly in at most one entry directory of a table. -/
theorem sum_sizeIn_le (entries : List (Sigma fun _ : Key => Entry))
    (nodup : (entries.map Sigma.fst).Nodup) (p : Path) (node : Node) :
    (entries.map fun e => sizeIn metaName (entryDir e.1) p node).sum ≤ node.size := by
  induction entries with
  | nil => simp
  | cons e rest ih =>
      rw [List.map_cons, List.nodup_cons] at nodup
      simp only [List.map_cons, List.sum_cons]
      cases named : childName (entryDir e.1) p with
      | none =>
          have zero : sizeIn metaName (entryDir e.1) p node = 0 := by simp [sizeIn, named]
          have := ih nodup.2
          omega
      | some name =>
          have own := FileTree.sizeIn_le metaName (entryDir e.1) p node
          have others : (rest.map fun e => sizeIn metaName (entryDir e.1) p node).sum = 0 := by
            apply List.sum_eq_zero
            intro size inside
            obtain ⟨other, listed, rfl⟩ := List.mem_map.1 inside
            cases named' : childName (entryDir other.1) p with
            | none => simp [sizeIn, named']
            | some name' =>
                exfalso
                have same := (childName_iff.1 named).symm.trans (childName_iff.1 named')
                have eq : e.1 = other.1 := entryDir_inj (List.append_inj' same rfl).1
                exact nodup.1 (eq ▸ List.mem_map_of_mem listed)
          omega

/-- **The sizes an index takes from a tree sum to no more than its files.** -/
theorem stored_le_fileBytes {index : Index} {disk : FileTree}
    (each : ∀ key entry, index.entries.lookup key = some entry →
      entry.bytes = bytesIn metaName disk (entryDir key)) : index.stored ≤ fileBytes disk := by
  calc index.stored
      = weight (fun key _ => bytesIn metaName disk (entryDir key)) index.entries :=
        weight_eq_weight each
    _ = weight (fun p node =>
          (index.entries.entries.map fun e => sizeIn metaName (entryDir e.1) p node).sum) disk :=
        sum_weight index.entries.entries (fun e => sizeIn metaName (entryDir e.1)) disk
    _ ≤ fileBytes disk := by
        apply weight_le_weight
        intro p node _
        exact sum_sizeIn_le _ index.entries.nodupKeys p node

/-! ## The walk -/

/-- Whatever part of a tree an index takes in, the sizes sum below `2 ^ 64`. -/
def Countable (codec : MetaCodec) (start : FileTree) : Prop :=
  ∀ index : Index, (∀ key entry, index.entries.lookup key = some entry →
    Adopts codec start key entry) → index.stored < u64Size

theorem countable_of_fileBytes {start : FileTree} (fits : fileBytes start < u64Size) :
    Countable codec start := by
  intro index each
  have := stored_le_fileBytes fun key entry found => (each key entry found).bytes
  omega

/-- The walk over the tree `start`, with the directories of `done` behind it. -/
structure Scanned (codec : MetaCodec) (start : FileTree) (done : Key → Prop) (index : Index)
    (disk : FileTree) : Prop where
  listed : ∀ key entry, index.entries.lookup key = some entry ↔
    done key ∧ Adopts codec start key entry
  junk : ∀ key, done key → (∀ entry, ¬ Adopts codec start key entry) → Bare disk key
  kept : ∀ p, (∀ key, entryDir key <+: p → done key → ∃ entry, Adopts codec start key entry) →
    disk.lookup p = start.lookup p
  wrapped : index.Wrapped

variable {start : FileTree} {done done' : Key → Prop} {index index' : Index}

theorem scanned_start (codec : MetaCodec) (start : FileTree) :
    Scanned codec start (fun _ => False) {} start where
  listed key entry := by simp
  junk _ no := no.elim
  kept _ _ := rfl
  wrapped := Index.wrapped_empty

theorem Scanned.accounting {disk : FileTree} (scanned : Scanned codec start done index disk)
    (fits : Countable codec start) : index.Accounting :=
  scanned.wrapped.accounting (fits index fun key entry found =>
    ((scanned.listed key entry).1 found).2)

theorem Scanned.congr {disk : FileTree} (scanned : Scanned codec start done index disk)
    (same : ∀ key, done' key ↔ done key) : Scanned codec start done' index disk := by
  obtain rfl : done' = done := funext fun key => propext (same key)
  exact scanned

/-- A directory still ahead of the walk is as it was. -/
theorem Scanned.ahead {disk : FileTree} (scanned : Scanned codec start done index disk) {key : Key}
    (fresh : ¬ done key) {p : Path} (under : entryDir key <+: p) :
    disk.lookup p = start.lookup p := by
  apply scanned.kept
  intro other under' behind
  obtain rfl := entryDir_under under under'
  exact absurd behind fresh

theorem Scanned.above {disk : FileTree} (scanned : Scanned codec start done index disk) {p : Path}
    (short : p.length < 3) : disk.lookup p = start.lookup p := by
  apply scanned.kept
  intro key under _
  have := under.length_le
  rw [entryDir_length] at this
  omega

theorem Scanned.adopt {disk : FileTree} (scanned : Scanned codec start done index disk) {key : Key}
    {entry : Entry} (fresh : ¬ done key) (adopts : Adopts codec start key entry) :
    Scanned codec start (fun k => k = key ∨ done k) (index.adopt key entry) disk := by
  have absent : index.entries.lookup key = none := by
    cases found : index.entries.lookup key with
    | none => rfl
    | some old => exact absurd ((scanned.listed key old).1 found).1 fresh
  have lookup : ∀ other, (index.adopt key entry).entries.lookup other =
      if other = key then some entry else index.entries.lookup other :=
    fun other => lookup_insert_eq index.entries key other entry
  have listed : ∀ other entry', (index.adopt key entry).entries.lookup other = some entry' ↔
      (other = key ∨ done other) ∧ Adopts codec start other entry' := by
    intro other entry'
    rw [lookup]
    by_cases mine : other = key
    · subst mine
      rw [if_pos rfl]
      constructor
      · intro same
        obtain rfl : entry = entry' := by simpa using same
        exact ⟨Or.inl rfl, adopts⟩
      · rintro ⟨-, adopts'⟩
        rw [adopts.unique adopts']
    · rw [if_neg mine, scanned.listed]
      simp [mine]
  refine ⟨listed, ?_, ?_, ?_⟩
  · rintro other (rfl | behind) odd
    · exact absurd adopts (odd entry)
    · exact scanned.junk other behind odd
  · intro p stays
    apply scanned.kept
    intro other under behind
    exact stays other under (Or.inr behind)
  · exact Index.wrapped_adopt scanned.wrapped absent

theorem Scanned.drop {disk disk' : FileTree} (scanned : Scanned codec start done index disk)
    {key : Key} (odd : ∀ entry, ¬ Adopts codec start key entry)
    (cleared : Cleared (entryDir key) disk disk') :
    Scanned codec start (fun k => k = key ∨ done k) index disk' := by
  refine ⟨?_, ?_, ?_, scanned.wrapped⟩
  · intro other entry
    rw [scanned.listed]
    constructor
    · rintro ⟨behind, adopts⟩
      exact ⟨Or.inr behind, adopts⟩
    · rintro ⟨rfl | behind, adopts⟩
      · exact absurd adopts (odd entry)
      · exact ⟨behind, adopts⟩
  · rintro other behind odd' p under
    by_cases mine : other = key
    · subst mine
      exact cleared.gone p under
    · rw [cleared.kept p fun inside => mine (entryDir_under under inside)]
      exact scanned.junk other (behind.resolve_left mine) odd' p under
  · intro p stays
    rw [cleared.kept p]
    · apply scanned.kept
      intro other under behind
      exact stays other under (Or.inr behind)
    · intro inside
      obtain ⟨entry, adopts⟩ := stays key inside (Or.inl rfl)
      exact odd entry adopts

theorem scanned_entry {key : Key} (scanned : Scanned codec start done index w.disk)
    (fresh : ¬ done key)
    (ran : Alone allowed t (scanEntry codec key index) w index' w') :
    Scanned codec start (fun k => k = key ∨ done k) index' w'.disk := by
  have here : ∀ p, entryDir key <+: p → w.disk.lookup p = start.lookup p :=
    fun p under => scanned.ahead fresh under
  cases scanEntry_exec ran with
  | inl taken =>
      obtain ⟨entry, adopts, rfl, same⟩ := taken
      rw [same]
      exact scanned.adopt fresh (adopts.congr fun p under => (here p under).symm)
  | inr dropped =>
      obtain ⟨odd, rfl, cleared⟩ := dropped
      apply scanned.drop _ cleared
      intro entry adopts
      exact odd entry (adopts.congr here)

theorem scanEntries_exec {tenant : TenantId} {kind : Kind} {ids : List String}
    (scanned : Scanned codec start done index w.disk) (nodup : ids.Nodup)
    (fresh : ∀ id ∈ ids, ¬ done ⟨tenant, kind, id⟩)
    (ran : Alone allowed t (scanEntries codec tenant kind ids index) w index' w') :
    Scanned codec start
      (fun k => done k ∨ (k.tenant = tenant ∧ k.kind = kind ∧ k.id ∈ ids)) index' w'.disk := by
  induction ids generalizing index w done with
  | nil =>
      obtain ⟨rfl, rfl⟩ := ran
      exact scanned.congr (by simp)
  | cons id rest ih =>
      obtain ⟨index1, w1, first, ran⟩ := Prog.exec_bind.1 ran
      have one := scanned_entry scanned (fresh id List.mem_cons_self) first
      rw [List.nodup_cons] at nodup
      have later := ih one nodup.2 ?_ ran
      · apply later.congr
        intro key
        constructor
        · rintro (behind | ⟨tenant_, kind_, listed⟩)
          · exact Or.inl (Or.inr behind)
          · cases List.mem_cons.1 listed with
            | inl eq => exact Or.inl (Or.inl (by cases key; simp_all))
            | inr after => exact Or.inr ⟨tenant_, kind_, after⟩
        · rintro ((rfl | behind) | ⟨tenant_, kind_, listed⟩)
          · exact Or.inr ⟨rfl, rfl, List.mem_cons_self⟩
          · exact Or.inl behind
          · exact Or.inr ⟨tenant_, kind_, List.mem_cons_of_mem _ listed⟩
      · rintro other inside (eq | behind)
        · obtain rfl : other = id := congrArg Key.id eq
          exact nodup.1 inside
        · exact fresh other (List.mem_cons_of_mem _ inside) behind

/-- The entry directory is in a directory of its tenant and kind. -/
def Shelved (disk : FileTree) (key : Key) : Prop :=
  disk.isDir ["t_" ++ key.tenant.str, key.kind.dir] ∧ (disk.lookup (entryDir key)).isSome

theorem scanKinds_exec {tenant : TenantId} {kinds : List Kind}
    (scanned : Scanned codec start done index w.disk) (nodup : kinds.Nodup)
    (fresh : ∀ kind ∈ kinds, ∀ id, ¬ done ⟨tenant, kind, id⟩)
    (ran : Alone allowed t (scanKinds codec tenant kinds index) w index' w') :
    Scanned codec start
      (fun k => done k ∨ (k.tenant = tenant ∧ k.kind ∈ kinds ∧ Shelved start k)) index' w'.disk := by
  induction kinds generalizing index w done with
  | nil =>
      obtain ⟨rfl, rfl⟩ := ran
      exact scanned.congr (by simp)
  | cons kind rest ih =>
      rw [List.nodup_cons] at nodup
      have sameDir : w.disk.isDir ["t_" ++ tenant.str, kind.dir] =
          start.isDir ["t_" ++ tenant.str, kind.dir] := by
        unfold FileTree.isDir
        rw [scanned.above (by simp)]
      obtain ⟨_, choice, _, ran⟩ := alone_call.1 ran
      simp only [handle, Prog.ret_bind, FileTree.readDir] at ran
      by_cases isDir : w.disk.isDir ["t_" ++ tenant.str, kind.dir]
      · rw [if_pos isDir] at ran
        obtain ⟨index1, w1, first, ran⟩ := Prog.exec_bind.1 ran
        have perm := List.perm_insertionSort (fun m n =>
          choice.pathRank (["t_" ++ tenant.str, kind.dir] ++ [m]) ≤
            choice.pathRank (["t_" ++ tenant.str, kind.dir] ++ [n]))
          (children w.disk ["t_" ++ tenant.str, kind.dir])
        have listed : ∀ id, id ∈ children w.disk ["t_" ++ tenant.str, kind.dir] ↔
            (start.lookup (entryDir ⟨tenant, kind, id⟩)).isSome := by
          intro id
          rw [mem_children, ← scanned.ahead (fresh kind List.mem_cons_self id) List.prefix_rfl]
          rfl
        have one := scanEntries_exec scanned (perm.nodup_iff.2 (children_nodup _ _))
          (fun id _ => fresh kind List.mem_cons_self id) first
        apply (ih one nodup.2 ?_ ran).congr
        · intro key
          simp only [perm.mem_iff, listed, List.mem_cons]
          constructor
          · rintro (behind | ⟨tenant_, rfl | later, shelved⟩)
            · exact Or.inl (Or.inl behind)
            · refine Or.inl (Or.inr ⟨tenant_, rfl, ?_⟩)
              rw [← tenant_]
              exact shelved.2
            · exact Or.inr ⟨tenant_, later, shelved⟩
          · rintro ((behind | ⟨rfl, rfl, present⟩) | ⟨tenant_, later, shelved⟩)
            · exact Or.inl behind
            · exact Or.inr ⟨rfl, Or.inl rfl, sameDir ▸ isDir, present⟩
            · exact Or.inr ⟨tenant_, Or.inr later, shelved⟩
        · rintro other inside id (behind | ⟨-, eq, -⟩)
          · exact fresh other (List.mem_cons_of_mem _ inside) id behind
          · obtain rfl : other = kind := eq
            exact nodup.1 inside
      · rw [if_neg isDir] at ran
        have out : ¬ start.isDir ["t_" ++ tenant.str, kind.dir] := sameDir ▸ isDir
        apply (ih scanned nodup.2 ?_ ran).congr
        · intro key
          simp only [List.mem_cons]
          constructor
          · rintro (behind | ⟨tenant_, rfl | later, shelved⟩)
            · exact Or.inl behind
            · exact absurd (tenant_ ▸ shelved.1) out
            · exact Or.inr ⟨tenant_, later, shelved⟩
          · rintro (behind | ⟨tenant_, later, shelved⟩)
            · exact Or.inl behind
            · exact Or.inr ⟨tenant_, Or.inr later, shelved⟩
        · intro other inside
          exact fresh other (List.mem_cons_of_mem _ inside)

theorem tenantOfDir_eq_some {name : String} {tenant : TenantId} :
    tenantOfDir name = some tenant ↔ name = "t_" ++ tenant.str := by
  unfold tenantOfDir
  rw [Option.bind_eq_some_iff]
  constructor
  · rintro ⟨rest, stripped, parsed⟩
    rw [stripPrefix_eq_some.1 stripped, TenantId.parse_eq_some.1 parsed]
  · intro whole
    exact ⟨tenant.str, stripPrefix_eq_some.2 whole, TenantId.parse_eq_some.2 rfl⟩

/-- **The whole walk.** -/
theorem scanTenants_exec {names : List String}
    (scanned : Scanned codec start done index w.disk) (nodup : names.Nodup)
    (fresh : ∀ key, "t_" ++ key.tenant.str ∈ names → ¬ done key)
    (ran : Alone allowed t (scanTenants codec names index) w index' w') :
    Scanned codec start
      (fun k => done k ∨ ("t_" ++ k.tenant.str ∈ names ∧ Shelved start k)) index' w'.disk := by
  induction names generalizing index w done with
  | nil =>
      obtain ⟨rfl, rfl⟩ := ran
      exact scanned.congr (by simp)
  | cons name rest ih =>
      rw [List.nodup_cons] at nodup
      unfold scanTenants at ran
      split at ran
      · rename_i other
        apply (ih scanned nodup.2 (fun key inside => fresh key (List.mem_cons_of_mem _ inside)) ran
          ).congr
        intro key
        have ne : "t_" ++ key.tenant.str ≠ name := by
          intro same
          rw [tenantOfDir_eq_some.2 same.symm] at other
          simp at other
        simp [ne]
      · rename_i tenant parsed
        have named := tenantOfDir_eq_some.1 parsed
        obtain ⟨index1, w1, first, ran⟩ := Prog.exec_bind.1 ran
        have one := scanKinds_exec scanned (by decide) (fun kind _ id =>
          fresh ⟨tenant, kind, id⟩ (by rw [named]; exact List.mem_cons_self)) first
        have every : ∀ kind : Kind, kind ∈ [Kind.output, .asset, .template] := by
          intro kind
          cases kind <;> decide
        have tenants : ∀ key : Key, "t_" ++ key.tenant.str = name ↔ key.tenant = tenant := by
          intro key
          rw [named]
          constructor
          · intro same
            exact TenantId.ext (by simpa using same)
          · rintro rfl
            rfl
        apply (ih one nodup.2 ?_ ran).congr
        · intro key
          simp only [List.mem_cons, tenants, every, true_and]
          tauto
        · rintro key inside (behind | ⟨same, -⟩)
          · exact fresh key (List.mem_cons_of_mem _ inside) behind
          · exact nodup.1 ((tenants key).2 same ▸ inside)

/-! ## The calls of an opening -/

/-- The calls an opening makes: none of them writes a file. -/
def Call.Booting : Call → Prop
  | .createDirAll p => p = [] ∨ p = tmpDir
  | .lock purpose => purpose = .other
  | .unlock _ note => note = .nothing
  | .iterate _ | .walk _ | .unlink _ | .read _ | .readDir _ | .metadata _ | .countQuota
  | .opened => True
  | _ => False

/-- Those of its walk: they read, or take files away. -/
def Call.Scanning : Call → Prop
  | .walk _ | .unlink _ | .read _ | .readDir _ | .metadata _ => True
  | _ => False

/-- Those of the walk and of the eviction after it. -/
def Call.Walking : Call → Prop
  | .iterate _ | .walk _ | .unlink _ | .read _ | .readDir _ | .metadata _ | .countQuota => True
  | _ => False

theorem Call.Scanning.walking {c : Call} (scanning : c.Scanning) : c.Walking := by
  cases c <;> first | exact scanning.elim | trivial

theorem Call.Walking.quiet {c : Call} (walking : c.Walking) : c.Quiet := by
  cases c <;> first | exact walking.elim | trivial

theorem Call.Walking.booting {c : Call} (walking : c.Walking) : c.Booting := by
  cases c <;> first | exact walking.elim | trivial

theorem scanning_removeDirAll (p : Path) : (removeDirAll p).Calls Call.Scanning :=
  (unlinking_removeDirAll p).mono fun c unlinking => by
    cases c <;> first | exact unlinking.elim | trivial

theorem scanning_sumLengths (dir : Path) (names : List String) (total : Nat) :
    (sumLengths dir names total).Calls Call.Scanning := by
  induction names generalizing total with
  | nil => trivial
  | cons name rest ih =>
      unfold sumLengths
      split
      · exact ih total
      · refine ⟨trivial, fun reply => ?_⟩
        simp only [Prog.ret_bind]
        split
        · split
          · exact ih _
          · trivial
        · trivial

theorem scanning_scanEntry (key : Key) (index : Index) :
    (scanEntry codec key index).Calls Call.Scanning := by
  apply Prog.calls_bind
  · refine ⟨trivial, fun reply => ?_⟩
    simp only [Prog.ret_bind]
    cases reply <;> trivial
  · intro recorded
    have drops := scanning_removeDirAll (entryDir key)
    split
    · exact Prog.calls_bind drops fun _ => trivial
    · split
      · exact Prog.calls_bind drops fun _ => trivial
      · apply Prog.calls_bind
        · refine ⟨trivial, fun reply => ?_⟩
          simp only [Prog.ret_bind]
          cases reply with
          | error kind => trivial
          | ok names => exact scanning_sumLengths _ _ _
        · intro payload
          cases payload with
          | none => exact Prog.calls_bind drops fun _ => trivial
          | some sum => trivial

theorem scanning_scanEntries (tenant : TenantId) (kind : Kind) (ids : List String)
    (index : Index) : (scanEntries codec tenant kind ids index).Calls Call.Scanning := by
  induction ids generalizing index with
  | nil => trivial
  | cons id rest ih => exact Prog.calls_bind (scanning_scanEntry _ _) fun _ => ih _

theorem scanning_scanKinds (tenant : TenantId) (kinds : List Kind) (index : Index) :
    (scanKinds codec tenant kinds index).Calls Call.Scanning := by
  induction kinds generalizing index with
  | nil => trivial
  | cons kind rest ih =>
      refine ⟨trivial, fun reply => ?_⟩
      simp only [Prog.ret_bind]
      cases reply with
      | error kind => exact ih _
      | ok ids => exact Prog.calls_bind (scanning_scanEntries _ _ _ _) fun _ => ih _

theorem scanning_scanTenants (names : List String) (index : Index) :
    (scanTenants codec names index).Calls Call.Scanning := by
  induction names generalizing index with
  | nil => trivial
  | cons name rest ih =>
      unfold scanTenants
      split
      · exact ih _
      · exact Prog.calls_bind (scanning_scanKinds _ _ _) fun _ => ih _

theorem walking_evictLocked {limits : Limits} (fuel : Nat) (index : Index) :
    (evictLocked limits fuel index).Calls Call.Walking :=
  (evicting_evictLocked fuel index).mono fun c evicting => by
    cases c <;> first | exact evicting.elim | trivial

theorem booting_rebuildIndex (limits : Limits) (codec : MetaCodec) :
    (rebuildIndex limits codec).Calls Call.Booting := by
  refine ⟨trivial, fun reply => ?_⟩
  simp only [Prog.ret_bind]
  cases reply with
  | error kind => trivial
  | ok names =>
      refine Prog.calls_bind ((scanning_scanTenants _ _).mono fun _ scanning =>
        scanning.walking.booting) ?_
      intro index
      refine Prog.calls_bind ((walking_evictLocked _ _).mono fun _ => Call.Walking.booting) ?_
      intro index'
      exact ⟨rfl, fun _ => ⟨rfl, fun _ => trivial⟩⟩

theorem booting_openStore (limits : Limits) (codec : MetaCodec) :
    (openStore limits codec).Calls Call.Booting := by
  refine ⟨Or.inl rfl, fun reply => ?_⟩
  simp only [Prog.ret_bind]
  cases reply with
  | error kind => trivial
  | ok _ =>
      refine ⟨Or.inr rfl, fun reply => ?_⟩
      simp only [Prog.ret_bind]
      cases reply with
      | error kind => trivial
      | ok _ =>
          exact Prog.calls_bind (booting_rebuildIndex limits codec) fun _ => ⟨trivial, fun _ => trivial⟩

/-- What the walk leaves alone in a store that is not open. -/
structure Walked (w w' : World T) : Prop extends Shared w w' where
  up : w'.up = w.up
  doomed : w.up = false → w'.doomed = w.doomed

theorem Walked.trans {a b c : World T} (first : Walked a b) (second : Walked b c) : Walked a c where
  toShared := first.toShared.trans second.toShared
  up := second.up.trans first.up
  doomed down := (second.doomed (first.up.trans down)).trans (first.doomed down)

theorem walking_walked {c : Call} (walking : c.Walking) (choice : Choice) (w : World T) :
    Walked w (handle t choice c w).2 := by
  cases c with
  | walk p =>
      refine ⟨shared_startRemoval w t p, ?_, fun down => ?_⟩
      · show (w.startRemoval t p).up = w.up
        unfold World.startRemoval
        split <;> rfl
      · show (w.startRemoval t p).doomed = w.doomed
        unfold World.startRemoval
        simp [down]
  | iterate _ | unlink _ | read _ | readDir _ | metadata _ | countQuota =>
      exact ⟨⟨rfl, rfl, rfl, rfl⟩, rfl, fun _ => rfl⟩
  | _ => exact walking.elim

theorem walking_exec {α : Type} {p : StoreProg α} {value : α} (walking : p.Calls Call.Walking)
    (ran : Alone allowed t p w value w') : Walked w w' := by
  refine Prog.Exec.keeps (Walked w) ?_ walking ⟨shared_refl w, rfl, fun _ => rfl⟩ ran
  intro c s reply s' walking kept answered
  obtain ⟨_, choice, _, handled⟩ := answered
  obtain rfl : (handle t choice c s).2 = s' := congrArg Prod.snd handled
  exact kept.trans (walking_walked walking choice s)

/-- The walk itself evicts nothing. -/
theorem scanning_exec {α : Type} {p : StoreProg α} {value : α} (scanning : p.Calls Call.Scanning)
    (ran : Alone allowed t p w value w') : w'.quotaEvictions = w.quotaEvictions := by
  refine Prog.Exec.keeps (fun s => s.quotaEvictions = w.quotaEvictions) ?_ scanning rfl ran
  intro c s reply s' scanning kept answered
  obtain ⟨_, choice, _, handled⟩ := answered
  obtain rfl : (handle t choice c s).2 = s' := congrArg Prod.snd handled
  refine Eq.trans ?_ kept
  cases c with
  | walk p =>
      show (s.startRemoval t p).quotaEvictions = s.quotaEvictions
      unfold World.startRemoval
      split <;> rfl
  | unlink _ | read _ | readDir _ | metadata _ => rfl
  | _ => exact scanning.elim

/-- An index within its ceilings is left alone. -/
theorem evict_idle {limits : Limits} {index index' : Index}
    (within : index.exceeded limits = false)
    (ran : Alone allowed t (evict limits index) w index' w') : index' = index ∧ w' = w := by
  unfold evict at ran
  generalize size index.entries = fuel at ran
  cases fuel with
  | zero => exact ran
  | succ fuel =>
      unfold evictLocked at ran
      rw [within] at ran
      exact ran

/-! ## The rebuild -/

/-- The entry directories the walk reaches. -/
def Reached (disk : FileTree) (key : Key) : Prop :=
  "t_" ++ key.tenant.str ∈ children disk [] ∧ Shelved disk key

/-- What a rebuild leaves of the tree `start`: everything it reached scanned into
`index`, and `index'` what eviction left of that. -/
structure Rebuilt (limits : Limits) (codec : MetaCodec) (allowed : Choice → Prop)
    (start : FileTree) (index index' : Index) (disk : FileTree) : Prop where
  scanned : ∃ middle, Scanned codec start (Reached start) index middle ∧
    Trimmed index index' middle disk
  evicts : Evicts limits (ranksOf allowed) index index'

section Rebuilt

variable {limits : Limits} {disk : FileTree}

/-- What the index holds was found on disk so. -/
theorem Rebuilt.adopts (rebuilt : Rebuilt limits codec allowed start index index' disk) {key : Key}
    {entry : Entry} (found : index'.entries.lookup key = some entry) :
    Reached start key ∧ Adopts codec start key entry := by
  obtain ⟨middle, scanned, _⟩ := rebuilt.scanned
  cases rebuilt.evicts.sub key with
  | inl gone => simp [gone] at found
  | inr same => exact (scanned.listed key entry).1 (same ▸ found)

/-- The directory of an entry the index holds is as it was found. -/
theorem Rebuilt.kept (rebuilt : Rebuilt limits codec allowed start index index' disk) {key : Key}
    {entry : Entry} (found : index'.entries.lookup key = some entry) {p : Path}
    (under : entryDir key <+: p) : disk.lookup p = start.lookup p := by
  obtain ⟨middle, scanned, trimmed⟩ := rebuilt.scanned
  rw [trimmed.kept, scanned.kept]
  · intro other under' _
    obtain rfl := entryDir_under under under'
    exact ⟨entry, (rebuilt.adopts found).2⟩
  · intro other under' _ absent
    obtain rfl := entryDir_under under under'
    simp [found] at absent

/-- The rest of the tree is as it was. -/
theorem Rebuilt.aside (rebuilt : Rebuilt limits codec allowed start index index' disk) {p : Path}
    (apart : ∀ key, ¬ entryDir key <+: p) : disk.lookup p = start.lookup p := by
  obtain ⟨middle, scanned, trimmed⟩ := rebuilt.scanned
  rw [trimmed.kept p fun key under => absurd under (apart key),
    scanned.kept p fun key under => absurd under (apart key)]

/-- No directory is left without an index entry. -/
theorem Rebuilt.bare (rebuilt : Rebuilt limits codec allowed start index index' disk) {key : Key}
    (found : Reached start key ∨ Bare start key) (absent : index'.entries.lookup key = none) :
    Bare disk key := by
  obtain ⟨middle, scanned, trimmed⟩ := rebuilt.scanned
  by_cases listed : index.entries.lookup key = none
  · have odd : Reached start key → ∀ entry, ¬ Adopts codec start key entry := by
      intro reached entry adopts
      have := (scanned.listed key entry).2 ⟨reached, adopts⟩
      simp [listed] at this
    have middleBare : Bare middle key := by
      by_cases reached : Reached start key
      · exact scanned.junk key reached (odd reached)
      · intro p under
        rw [scanned.ahead reached under]
        exact found.resolve_left reached p under
    intro p under
    rw [trimmed.kept]
    · exact middleBare p under
    · intro other under' present
      obtain rfl := entryDir_under under under'
      exact absurd listed present
  · exact trimmed.gone key listed absent

end Rebuilt

/-- **The rebuild**: the walk, the eviction after it, and the index published. -/
theorem rebuildIndex_exec {limits : Limits} {value : Unit} (root : w.disk.isDir [])
    (ran : Alone allowed t (rebuildIndex limits codec) w value w') :
    ∃ index index', Rebuilt limits codec allowed w.disk index index' w'.disk ∧
      w'.index = index' ∧ w'.owner = none ∧ w'.acked = w.ackedAfter index' .nothing ∧
      w'.stray = w.stray ∧ (w.up = false → w'.doomed = w.doomed) ∧
      (index.exceeded limits = false → w'.quotaEvictions = w.quotaEvictions) := by
  obtain ⟨_, choice, _, ran⟩ := alone_call.1 ran
  simp only [handle, Prog.ret_bind, FileTree.readDir, root, if_true] at ran
  have perm := List.perm_insertionSort (fun m n =>
    choice.pathRank ([] ++ [m]) ≤ choice.pathRank ([] ++ [n])) (children w.disk [])
  generalize (children w.disk []).insertionSort (fun m n =>
    choice.pathRank ([] ++ [m]) ≤ choice.pathRank ([] ++ [n])) = names at ran perm
  obtain ⟨index, w1, walked, ran⟩ := Prog.exec_bind.1 ran
  have scanned := scanTenants_exec (scanned_start codec w.disk)
    (perm.nodup_iff.2 (children_nodup _ _)) (fun _ _ => not_false) walked
  have first := walking_exec ((scanning_scanTenants _ _).mono fun _ => Call.Scanning.walking) walked
  have quota := scanning_exec (scanning_scanTenants _ _) walked
  obtain ⟨index', w2, evicted, ran⟩ := Prog.exec_bind.1 ran
  obtain ⟨evicts, trimmed⟩ := evictLocked_exec le_rfl evicted
  have both := first.trans (walking_exec (walking_evictLocked _ _) evicted)
  obtain ⟨_, _, _, ran⟩ := alone_call.1 ran
  obtain ⟨_, _, _, ran⟩ := alone_call.1 ran
  obtain ⟨-, rfl⟩ := ran
  refine ⟨index, index', ⟨⟨w1.disk, scanned.congr ?_, trimmed⟩, evicts⟩, rfl, rfl, ?_,
    both.stray, both.doomed, ?_⟩
  · intro key
    unfold Reached
    rw [perm.mem_iff]
    simp
  · show w2.ackedAfter index' .nothing = w.ackedAfter index' .nothing
    unfold World.ackedAfter
    rw [both.acked]
  · intro within
    obtain ⟨-, rfl⟩ := evict_idle within evicted
    exact quota

/-- The two directories an opening makes, and the rest as it was. -/
theorem lookup_prepared {disk disk1 disk2 : FileTree} (rootMade : disk.createDirAll [] = .ok disk1)
    (tmpMade : disk1.createDirAll tmpDir = .ok disk2) (p : Path) :
    disk2.lookup p = if p = [] ∨ p = tmpDir then some .dir else disk.lookup p := by
  rw [FileTree.lookup_createDirAll tmpMade, FileTree.lookup_createDirAll rootMade]
  have inside : p <+: tmpDir ↔ p = [] ∨ p = tmpDir := by
    unfold tmpDir
    rw [List.prefix_cons_iff]
    simp
  by_cases root : p = [] <;> by_cases temporary : p = tmpDir <;>
    simp [inside, root, temporary]

/-- What follows the two directories an opening makes. -/
def openRest (limits : Limits) (codec : MetaCodec) : StoreProg (Except StoreError Unit) := do
  rebuildIndex limits codec
  perform .opened
  return .ok ()

/-- An opening that comes to its end has made both. -/
theorem openStore_made {limits : Limits}
    (ran : Alone allowed t (openStore limits codec) w (.ok ()) w') :
    ∃ disk1 disk2, w.disk.createDirAll [] = .ok disk1 ∧ disk1.createDirAll tmpDir = .ok disk2 ∧
      Alone allowed t (openRest limits codec) { w with disk := disk2 } (.ok ()) w' := by
  obtain ⟨_, _, _, ran⟩ := alone_call.1 ran
  simp only [handle, World.attempt] at ran
  cases rootMade : w.disk.createDirAll [] with
  | error kind =>
      rw [rootMade] at ran
      exact absurd ran.1 (by simp)
  | ok disk1 =>
      rw [rootMade] at ran
      obtain ⟨_, _, _, ran⟩ := alone_call.1 ran
      simp only [handle, World.attempt] at ran
      cases tmpMade : disk1.createDirAll tmpDir with
      | error kind =>
          rw [tmpMade] at ran
          exact absurd ran.1 (by simp)
      | ok disk2 =>
          simp only [tmpMade, Prog.ret_bind] at ran
          exact ⟨disk1, disk2, rfl, tmpMade, ran⟩

/-- **Opening a store.** -/
theorem openStore_exec {limits : Limits} {value : Except StoreError Unit}
    (ran : Alone allowed t (openStore limits codec) w value w') (opened : value = .ok ()) :
    ∃ start index index',
      (∀ p, start.lookup p = if p = [] ∨ p = tmpDir then some .dir else w.disk.lookup p) ∧
      Rebuilt limits codec allowed start index index' w'.disk ∧
      w'.index = index' ∧ w'.owner = none ∧ w'.acked = w.ackedAfter index' .nothing ∧
      w'.stray = w.stray ∧ w'.up = true ∧ (w.up = false → w'.doomed = w.doomed) ∧
      (index.exceeded limits = false → w'.quotaEvictions = w.quotaEvictions) := by
  subst opened
  obtain ⟨disk1, disk2, rootMade, tmpMade, ran⟩ := openStore_made ran
  obtain ⟨_, w1, rebuilt, ran⟩ := Prog.exec_bind.1 ran
  have lookup : ∀ p, disk2.lookup p =
      if p = [] ∨ p = tmpDir then some .dir else w.disk.lookup p :=
    lookup_prepared rootMade tmpMade
  have root : disk2.isDir [] := by
    rw [isDir_iff, lookup, if_pos (Or.inl rfl)]
  obtain ⟨index, index', done, published, free, acked, stray, doomed, quota⟩ :=
    rebuildIndex_exec (w := { w with disk := disk2 }) root rebuilt
  obtain ⟨_, _, _, ran⟩ := alone_call.1 ran
  obtain ⟨-, rfl⟩ := ran
  exact ⟨disk2, index, index', lookup, done, published, free, acked, stray, rfl, doomed, quota⟩

end TypstMcp.Store
