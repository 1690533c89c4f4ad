/-
Store.Concurrent -- every operation is safe among the others

Each operation of an open store stays within its guarantee, whatever the other
calls do meanwhile, as long as no put on an entry overlaps a removal of it
(`Calm`).  A thread between its lock sections is `Resting`, with the entry
directories it still has to remove; a thread that reads under the lock is
`Reading`.

* `putWithId_safe`, `remove_safe`, `program_safe`: one lemma for each operation.
-/
import TypstMcp.Store.Publishing

namespace TypstMcp.Store

open TypstMcp.Theory TypstMcp.Theory.Table TypstMcp.Theory.FileTree
open TypstMcp.Auth (TenantId)

set_option autoImplicit false
set_option linter.unusedSectionVars false

variable {T : Type} [DecidableEq T]

/-- A thread without the lock, which still has the directories `picked` to remove and
knows `known` of the disk. -/
structure Resting (codec : MetaCodec) (plain : Prop) (t : T) (picked : List Path)
    (known : FileTree → Prop) (w : World T) : Prop where
  inv : Inv codec plain w
  up : w.up = true
  doomed : w.doomed t = picked
  free : ∀ purpose, w.owner ≠ some (t, purpose)
  known : known w.disk

/-- The same thread with the lock, taken to read. -/
structure Reading (codec : MetaCodec) (plain : Prop) (t : T) (picked : List Path)
    (known : FileTree → Prop) (index : Index) (w : World T) : Prop where
  inv : Inv codec plain w
  up : w.up = true
  doomed : w.doomed t = picked
  owned : w.owner = some (t, .other)
  index : w.index = index
  known : known w.disk

/-- What others leave true: they add nothing below a picked directory. -/
def Spared (picked : List Path) (known : FileTree → Prop) : Prop :=
  ∀ disk disk' : FileTree, known disk →
    (∀ key, entryDir key ∈ picked → ∀ p, entryDir key <+: p →
      (disk'.lookup p).isSome → (disk.lookup p).isSome) → known disk'

/-- Nothing in particular is known. -/
abbrev anything : FileTree → Prop := fun _ => True

theorem spared_anything (picked : List Path) : Spared picked anything := fun _ _ _ _ => trivial

theorem spared_sweep {picked : List Path} {key : Key} {left : List Path}
    (mine : entryDir key ∈ picked) :
    Spared picked fun disk => Sweep disk (entryDir key) left :=
  fun _ _ sweep fewer => sweep.shrink (fewer key mine)

variable {codec : MetaCodec} {plain : Prop} {boot : T} {allowed : Choice → Prop} {t : T}
variable {limits : Limits} {picked : List Path} {known : FileTree → Prop} {index : Index}
variable {α : Type} {post : α → World T → Prop} {w : World T}

theorem stable_resting (spared : Spared picked known) :
    Stable (Guar codec plain boot) t (Resting codec plain t picked known) := by
  rintro w w' held ⟨s, other, within⟩
  have frame := within.frame held.up
  refine ⟨within.inv held.inv, frame.up, ?_, fun purpose owned => ?_, ?_⟩
  · rw [frame.doomed t (Ne.symm other)]
    exact held.doomed
  · exact held.free purpose (frame.owner t (Ne.symm other) purpose owned)
  · refine spared _ _ held.known fun key mine p under present => ?_
    exact frame.spared t (Ne.symm other) key (held.doomed ▸ mine) p under present

theorem stable_reading (spared : Spared picked known) :
    Stable (Guar codec plain boot) t (Reading codec plain t picked known index) := by
  rintro w w' held ⟨s, other, within⟩
  have frame := within.frame held.up
  have outside := frame.locked t (Ne.symm other) _ held.owned
  refine ⟨within.inv held.inv, frame.up, ?_, outside.owner.trans held.owned,
    outside.index.trans held.index, ?_⟩
  · rw [frame.doomed t (Ne.symm other)]
    exact held.doomed
  · refine spared _ _ held.known fun key mine p under present => ?_
    exact frame.spared t (Ne.symm other) key (held.doomed ▸ mine) p under present

theorem Resting.alone (held : Resting codec plain t picked known w) :
    w.up = false → t = boot := by
  intro down
  rw [held.up] at down
  exact absurd down (by simp)

theorem Reading.alone (held : Reading codec plain t picked known index w) :
    w.up = false → t = boot := by
  intro down
  rw [held.up] at down
  exact absurd down (by simp)

theorem Reading.idle (held : Reading codec plain t picked known index w) : ¬ w.Storing := by
  rintro ⟨s, key, size, owned⟩
  rw [held.owned] at owned
  exact absurd (Prod.mk.inj (Option.some.inj owned)).2 (by simp)

theorem resting_still (spared : Spared picked known) {c : Call} {next : Reply c → StoreProg α}
    (start : Resting codec plain t picked known w)
    (still : ∀ choice w, (handle t choice c w).2 = w)
    (each : ∀ w choice, Resting codec plain t picked known w → allowed choice →
      StoreSafe codec plain boot allowed t post (next (handle t choice c w).1) w) :
    StoreSafe codec plain boot allowed t post (.call c next) w :=
  still_call (stable_resting spared) start still (fun _ held => held.alone) each

theorem reading_still (spared : Spared picked known) {c : Call} {next : Reply c → StoreProg α}
    (start : Reading codec plain t picked known index w)
    (still : ∀ choice w, (handle t choice c w).2 = w)
    (each : ∀ w choice, Reading codec plain t picked known index w → allowed choice →
      StoreSafe codec plain boot allowed t post (next (handle t choice c w).1) w) :
    StoreSafe codec plain boot allowed t post (.call c next) w :=
  still_call (stable_reading spared) start still (fun _ held => held.alone) each

theorem resting_ret (spared : Spared picked known) {value : α}
    (start : Resting codec plain t picked known w)
    (meets : ∀ w, Resting codec plain t picked known w → post value w) :
    StoreSafe codec plain boot allowed t post (.ret value) w :=
  safe_ret (stable_resting spared) start meets

/-! ## Lock sections that read -/

theorem lock_other (spared : Spared picked known) {next : Index → StoreProg α}
    (start : Resting codec plain t picked known w)
    (each : ∀ w, Reading codec plain t picked known w.index w →
      StoreSafe codec plain boot allowed t post (next w.index) w) :
    StoreSafe codec plain boot allowed t post (.call (.lock .other) next) w := by
  refine world_call (stable_resting spared) start fun w1 _ held _ waits _ => ?_
  have free := waits .other rfl
  exact ⟨guar_lock held.alone free, each { w1 with owner := some (t, .other) }
    ⟨inv_lock held.inv free, held.up, held.doomed, rfl, rfl, held.known⟩⟩

/-- Dropping the guard over an index that agrees with the disk. -/
theorem unlock_other (spared : Spared picked known) {published : Index} {note : Note}
    {picked' : List Path} {next : Unit → StoreProg α}
    (start : Reading codec plain t picked known index w)
    (good : ∀ w, Reading codec plain t picked known index w → ∀ other,
      (w.publish t published note).Undoomed other →
      Good codec published (w.ackedAfter published note) w.disk other)
    (unchanged : ∀ w : World T, ∀ other entry, published.entries.lookup other = some entry →
      w.ackedAfter published note other = w.acked other)
    (doomed : ∀ w : World T, w.doomed t = picked → w.doomedAfter t note t = picked')
    (each : ∀ w, Resting codec plain t picked' known w →
      StoreSafe codec plain boot allowed t post (next ()) w) :
    StoreSafe codec plain boot allowed t post (.call (.unlock published note) next) w := by
  refine world_call (stable_reading spared) start fun w1 _ held _ _ _ => ?_
  have serves : ∀ other, entryDir other ∈ w1.torn ∨
      (w1.publish t published note).Serves other := by
    intro other
    rcases held.inv.serves other with torn | serves
    · exact Or.inl torn
    · refine Or.inr fun present n b inside safe => ?_
      have inside' : (n, b) ∈ w1.ackedAfter published note other := inside
      cases found : published.entries.lookup other with
      | none =>
          rw [ackedAfter_unlisted found] at inside'
          exact absurd inside' (by simp)
      | some entry =>
          rw [unchanged w1 other entry found] at inside'
          exact serves present n b inside' safe
  have inv' : Inv codec plain (w1.publish t published note) :=
    inv_publish held.inv (held.inv.info (Or.inr held.idle)) (held.inv.tmpFiles held.idle)
      serves fun _ => good w1 held
  exact ⟨guar_publish held.alone held.owned fun _ => inv', each (w1.publish t published note)
    ⟨inv', held.up, doomed w1 held.doomed, fun purpose owned => absurd owned (by simp [World.publish]),
      held.known⟩⟩

/-- Dropping the guard over the index as it was. -/
theorem unlock_same (spared : Spared picked known) {note : Note} {picked' : List Path}
    {next : Unit → StoreProg α}
    (start : Reading codec plain t picked known index w)
    (uncounted : ∀ key name bytes, note ≠ .counted key name bytes)
    (doomed : ∀ w : World T, w.doomed t = picked → w.doomedAfter t note t = picked')
    (more : ∀ w : World T, w.doomed t = picked → ∀ s, w.doomed s ⊆ w.doomedAfter t note s)
    (each : ∀ w, Resting codec plain t picked' known w →
      StoreSafe codec plain boot allowed t post (next ()) w) :
    StoreSafe codec plain boot allowed t post (.call (.unlock index note) next) w := by
  have unchanged : ∀ w : World T, ∀ other entry, index.entries.lookup other = some entry →
      w.ackedAfter index note other = w.acked other := by
    intro w other entry found
    rw [ackedAfter_listed found]
    cases note with
    | counted key name bytes => exact absurd rfl (uncounted key name bytes)
    | nothing => rfl
    | doomed keys => rfl
  refine unlock_other spared start (fun w held other free => ?_) unchanged doomed each
  have before : w.Undoomed other := fun s mine => free s (more w held.doomed s mine)
  have good := held.inv.good held.up held.idle other before
  rw [held.index] at good
  exact good.acked (unchanged w other)

/-! ## Reads -/

theorem checkLive_safe {key : Key} (start : Resting codec plain t [] anything w) :
    StoreSafe codec plain boot allowed t
      (fun _ => Resting codec plain t [] anything) (checkLive key) w := by
  have spared := spared_anything []
  have leave : ∀ {index : Index} {w : World T} (result : Except StoreError Entry),
      Reading codec plain t [] anything index w →
      StoreSafe codec plain boot allowed t (fun _ => Resting codec plain t [] anything)
        (.call (.unlock index .nothing) fun _ => .ret result) w := by
    intro index w result held
    exact unlock_same spared held (fun _ _ _ => by simp) (fun _ same => same)
      (fun _ _ _ _ inside => inside) fun w settled =>
        resting_ret spared settled fun _ later => later
  refine lock_other spared start fun w1 held => ?_
  simp only [Prog.ret_bind]
  split
  · exact leave _ held
  · show StoreSafe codec plain boot allowed t _ (Prog.call .now _) w1
    refine reading_still spared held (fun _ _ => rfl) fun w2 choice held2 _ => ?_
    simp only [Prog.ret_bind]
    split
    · exact leave _ held2
    · exact leave _ held2

/-! ## Removal -/

theorem guar_walk {key : Key} (held : Resting codec plain t picked known w)
    (calm : Calm t w (.walk (entryDir key))) :
    w.startRemoval t (entryDir key) =
        { w with doomed := Function.update w.doomed t (entryDir key :: w.doomed t) } ∧
      Guar codec plain boot t w (w.startRemoval t (entryDir key)) := by
  have started : w.startRemoval t (entryDir key) =
      { w with doomed := Function.update w.doomed t (entryDir key :: w.doomed t) } := by
    refine if_pos ⟨held.up, fun same => ?_⟩
    cases owned : w.owner with
    | none => rw [owned] at same; exact absurd same (by simp)
    | some owner =>
        obtain ⟨s, purpose⟩ := owner
        obtain rfl : s = t := by simpa [owned] using same
        exact held.free purpose owned
  rw [started]
  have more : ∀ s, w.doomed s ⊆
      Function.update w.doomed t (entryDir key :: w.doomed t) s := by
    intro s
    by_cases mine : s = t
    · subst mine; simp
    · simp [mine]
  refine ⟨rfl, fun inv => { inv with
      good := fun up idle other free => inv.good up idle other fun s inside =>
        free s (more s inside) }, held.alone, fun up => ⟨up, fun s other => ?_,
      fun _ _ _ owned => owned, fun s other purpose owned => ?_,
      fun _ _ _ _ _ _ present => present⟩⟩
  · exact Function.update_of_ne other _ _
  · refine ⟨rfl, rfl, rfl, rfl, more t, fun key' size same free inside => ?_,
      fun p => Or.inl rfl⟩
    have here : entryDir key' = entryDir key ∨ entryDir key' ∈ w.doomed t := by
      simpa using inside
    rcases here with eq | before
    · have calm : Apart t (entryDir key) w.owner := calm
      rw [owned, same] at calm
      rcases calm with mine | apart
      · exact other mine
      · exact apart eq.symm
    · exact free before

theorem guar_unlink {key : Key} {p : Path} (held : Resting codec plain t picked known w)
    (mine : entryDir key ∈ picked) (under : entryDir key <+: p) :
    Guar codec plain boot t w (w.unlinked p) := by
  have picked_ : entryDir key ∈ w.doomed t := held.doomed ▸ mine
  refine ⟨fun inv => inv_unlink inv under fun _ _ free => free t picked_, held.alone,
    fun up => ⟨up, fun _ _ => rfl, fun _ _ _ owned => owned, fun s other purpose owned => ?_,
      fun _ _ _ _ q _ present => ?_⟩⟩
  · refine ⟨rfl, rfl, rfl, rfl, fun _ inside => inside, fun _ _ _ free => free, fun q => ?_⟩
    by_cases same : q = p
    · subst same
      cases after : (w.disk.unlink q).lookup q with
      | none => exact Or.inr ⟨after, key, picked_, under⟩
      | some node => exact Or.inl (by rw [lookup_unlink_le after]; exact after)
    · exact Or.inl (lookup_unlink_ne same)
  · obtain ⟨node, found⟩ := Option.isSome_iff_exists.1 present
    rw [lookup_unlink_le found]; rfl

theorem unlinkAll_safe {key : Key} {left : List Path} (mine : entryDir key ∈ picked)
    (start : Resting codec plain t picked (fun disk => Sweep disk (entryDir key) left) w) :
    StoreSafe codec plain boot allowed t
      (fun _ => Resting codec plain t picked fun disk => Sweep disk (entryDir key) [])
      (unlinkAll left) w := by
  induction left generalizing w with
  | nil => exact resting_ret (spared_sweep mine) start fun _ held => held
  | cons p rest ih =>
      refine world_call (stable_resting (spared_sweep mine)) start fun w1 _ held _ _ _ => ?_
      have within : Guar codec plain boot t w1 (w1.unlinked p) :=
        guar_unlink held mine (held.known.below p (by simp))
      exact ⟨within, ih ⟨within.inv held.inv, held.up, held.doomed, held.free,
        held.known.unlink⟩⟩

theorem removeDirAll_safe {key : Key} (start : Resting codec plain t picked anything w) :
    StoreSafe codec plain boot allowed t
      (fun _ => Resting codec plain t (entryDir key :: picked)
        fun disk => Sweep disk (entryDir key) [])
      (removeDirAll (entryDir key)) w := by
  show StoreSafe codec plain boot allowed t _ (Prog.call (.walk (entryDir key)) _) w
  refine world_call (stable_resting (spared_anything picked)) start fun w1 choice held calm _ _ => ?_
  obtain ⟨started, within⟩ : _ ∧ Guar codec plain boot t w1 _ := guar_walk held calm
  have mine : entryDir key ∈ entryDir key :: picked := List.mem_cons_self
  refine ⟨within, unlinkAll_safe mine ⟨within.inv held.inv, ?_, ?_, ?_, ?_⟩⟩
  · show (w1.startRemoval t (entryDir key)).up = true
    rw [started]; exact held.up
  · show (w1.startRemoval t (entryDir key)).doomed t = _
    rw [started, ← held.doomed]; simp
  · show ∀ purpose, (w1.startRemoval t (entryDir key)).owner ≠ some (t, purpose)
    rw [started]; exact held.free
  · show Sweep (w1.startRemoval t (entryDir key)).disk (entryDir key) _
    rw [started]; exact sweep_walk _ _ _

/-- **A removal empties the directory, then drops the index entry**, and leaves the
rest of its list to be removed. -/
theorem remove_safe {key : Key} {rest : List Key}
    (sub : picked ⊆ entryDir key :: rest.map entryDir)
    (start : Resting codec plain t picked anything w) :
    StoreSafe codec plain boot allowed t
      (fun _ => Resting codec plain t (rest.map entryDir) anything) (remove key rest) w := by
  have mine : entryDir key ∈ entryDir key :: picked := List.mem_cons_self
  refine safe_bind (removeDirAll_safe start) fun _ w1 held1 => ?_
  refine lock_other (spared_sweep mine) held1 fun w2 held2 => ?_
  have removed : ∀ other, (w2.index.removeFromIndex key).entries.lookup other =
      if other = key then none else w2.index.entries.lookup other :=
    Index.lookup_removeFromIndex _ _
  refine unlock_other (spared_sweep mine) held2 (fun w3 held3 other free => ?_)
    (fun w other entry found => ackedAfter_listed found)
    (fun w _ => Function.update_self _ _ _) fun w3 held3 => ?_
  · by_cases same : other = key
    · subst same
      refine ⟨fun entry found => ?_, fun _ p under => held3.known.bare under⟩
      rw [removed, if_pos rfl] at found
      exact absurd found (by simp)
    · have before : w3.Undoomed other := by
        intro s inside
        have after := free s
        by_cases own : s = t
        · subst own
          rw [held3.doomed] at inside
          have later : entryDir other ∉ rest.map entryDir := by
            simpa [World.publish, World.doomedAfter] using after
          have ne : entryDir other ≠ entryDir key := fun eq => same (entryDir_inj eq)
          rcases List.mem_cons.1 inside with eq | inside
          · exact ne eq
          · rcases List.mem_cons.1 (sub inside) with eq | inside
            · exact ne eq
            · exact later inside
        · refine after ?_
          show entryDir other ∈ Function.update w3.doomed t _ s
          rwa [Function.update_of_ne own]
      have good := held3.inv.good held3.up held3.idle other before
      rw [held3.index] at good
      have kept := removed other
      rw [if_neg same] at kept
      refine Good.acked ⟨fun entry found => good.listed entry (kept ▸ found),
        fun gone => good.unlisted (kept ▸ gone)⟩ fun entry found => ackedAfter_listed found
  · exact resting_ret (spared_anything _)
      ⟨held3.inv, held3.up, held3.doomed, held3.free, trivial⟩ fun _ later => later

theorem removeEach_safe {keys : List Key}
    (start : Resting codec plain t (keys.map entryDir) anything w) :
    StoreSafe codec plain boot allowed t (fun _ => Resting codec plain t [] anything)
      (removeEach keys) w := by
  induction keys generalizing w with
  | nil => exact resting_ret (spared_anything []) start fun _ held => held
  | cons key rest ih =>
      exact safe_bind (remove_safe (fun _ inside => inside) start) fun _ _ held => ih held

/-! ## A put -/

theorem putStart_of_lock {key : Key} {size : Nat} (held : Resting codec plain t [] anything w)
    (free : w.owner = none) (undoomed : w.Undoomed key)
    (valid : validateId key.kind key.id = .ok key.id) :
    PutStart codec plain t key size { w with owner := some (t, .storing key size) } := by
  have idle : ¬ w.Storing := by
    rintro ⟨s, key', size', owned⟩
    rw [free] at owned
    exact absurd owned (by simp)
  exact ⟨inv_lock held.inv free, held.up, rfl, undoomed, valid, held.inv.info (Or.inr idle),
    held.inv.tmpFiles idle, held.inv.good held.up idle⟩

/-- **A put ends at rest**, and its index agrees with the disk. -/
theorem putWithId_safe {tenant : TenantId} {kind : Kind} {id name : String} {bytes : Bytes}
    {info : Meta} (named : plain → safeName name ≠ metaName)
    (start : Resting codec plain t [] anything w) :
    StoreSafe codec plain boot allowed t (fun _ => Resting codec plain t [] anything)
      (putWithId limits codec tenant kind id name bytes info) w := by
  have spared := spared_anything []
  unfold putWithId
  split
  · exact resting_ret spared start fun _ held => held
  · rename_i id' valid
    obtain rfl := validateId_ok valid
    refine world_call (stable_resting spared) start fun w1 choice held calm waits _ => ?_
    have free := waits _ rfl
    have begun : PutStart codec plain t ⟨tenant, kind, id'⟩ bytes.length
        { w1 with owner := some (t, .storing ⟨tenant, kind, id'⟩ bytes.length) } :=
      putStart_of_lock held free calm valid
    refine ⟨guar_lock held.alone free, ?_⟩
    simp only [Prog.ret_bind]
    refine safe_bind (putLocked_working begun named) fun out w2 ended => ?_
    obtain ⟨inv2, working2, ended2⟩ := ended
    refine world_call (lasting_putEnd begun).stable ⟨inv2, working2, ended2⟩
      fun w3 _ held3 _ _ _ => ?_
    obtain ⟨inv3, working3, ended3⟩ := held3
    have fixed := ended3.fixed
    have owned : w3.owner = some (t, .storing ⟨tenant, kind, id'⟩ bytes.length) := fixed.owner
    have inv4 := inv_putEnd begun ended3 inv3
    refine ⟨guar_publish working3.alone owned fun _ => inv4, ?_⟩
    refine resting_ret spared ⟨inv4, fixed.up.trans held.up, ?_, ?_, trivial⟩ fun _ later => later
    · show w3.doomedAfter t out.2.2 t = []
      rw [ended3.note, fixed.own]
      exact held.doomed
    · exact fun purpose owned => absurd owned (by simp [handle, World.publish])

/-! ## Every operation -/

theorem guar_countExpired (alone : w.up = false → t = boot) (choice : Choice) (count : Nat) :
    Guar codec plain boot t w (handle t choice (.countExpired count) w).2 :=
  guar_quiet alone (fun inv => { inv with }) rfl rfl rfl rfl rfl rfl rfl

/-- The operation stores nothing under the name of the metadata. -/
def Op.Plain : Op → Prop
  | .put _ _ name _ _ => safeName name ≠ metaName
  | .putWithId _ _ _ name _ _ => safeName name ≠ metaName
  | _ => True

/-- **Every operation of the store is safe among the others.** -/
theorem program_safe (op : Op) (named : plain → op.Plain)
    (start : Resting codec plain t [] anything w) :
    StoreSafe codec plain boot allowed t (fun _ => Resting codec plain t [] anything)
      (op.program limits codec) w := by
  have spared := spared_anything []
  have finish : ∀ {β : Type} (wrap : β → Outcome) {p : StoreProg β},
      StoreSafe codec plain boot allowed t (fun _ => Resting codec plain t [] anything) p w →
      StoreSafe codec plain boot allowed t (fun _ => Resting codec plain t [] anything)
        (p.bind fun out => .ret (wrap out)) w := by
    intro β wrap p safe
    exact safe_bind safe fun out w' held => resting_ret spared held fun _ later => later
  cases op with
  | put tenant kind name bytes info =>
      refine finish .entry ?_
      show StoreSafe codec plain boot allowed t _ (Prog.call .newUlid _) w
      exact resting_still spared start (fun _ _ => rfl) fun w1 choice held _ =>
        putWithId_safe named held
  | putWithId tenant kind id name bytes info => exact finish .entry (putWithId_safe named start)
  | get tenant kind id name =>
      refine finish .bytes ?_
      unfold Store.get
      split
      · exact resting_ret spared start fun _ held => held
      · refine safe_bind (checkLive_safe start) fun result w1 held1 => ?_
        cases result with
        | error error => exact resting_ret spared held1 fun _ held => held
        | ok entry =>
            show StoreSafe codec plain boot allowed t _ (Prog.call (.read _) _) w1
            refine resting_still spared held1 (fun _ _ => rfl) fun w2 choice held2 _ => ?_
            simp only [Prog.ret_bind]
            split
            · exact resting_ret spared held2 fun _ held => held
            · exact resting_ret spared held2 fun _ held => held
            · exact resting_ret spared held2 fun _ held => held
  | entry tenant kind id =>
      refine finish .entry ?_
      unfold Store.entry
      split
      · exact resting_ret spared start fun _ held => held
      · exact checkLive_safe start
  | list tenant kind =>
      refine finish .entries ?_
      show StoreSafe codec plain boot allowed t _ (Prog.call .now _) w
      refine resting_still spared start (fun _ _ => rfl) fun w1 choice held1 _ => ?_
      show StoreSafe codec plain boot allowed t _ (Prog.call (.lock .other) _) w1
      refine lock_other spared held1 fun w2 held2 => ?_
      show StoreSafe codec plain boot allowed t _ (Prog.call (.iterate w2.index) _) w2
      refine reading_still spared held2 (fun _ _ => rfl) fun w3 choice' held3 _ => ?_
      exact unlock_same spared held3 (fun _ _ _ => by simp) (fun _ same => same)
        (fun _ _ _ _ inside => inside) fun w4 held4 => resting_ret spared held4 fun _ held => held
  | delete tenant kind id =>
      refine finish .entry ?_
      unfold Store.delete
      split
      · exact resting_ret spared start fun _ held => held
      · refine safe_bind (checkLive_safe start) fun result w1 held1 => ?_
        cases result with
        | error error => exact resting_ret spared held1 fun _ held => held
        | ok entry =>
            exact safe_bind (remove_safe (List.nil_subset _) held1) fun _ w2 held2 =>
              resting_ret spared held2 fun _ held => held
  | reap =>
      refine finish .count ?_
      show StoreSafe codec plain boot allowed t _ (Prog.call .now _) w
      refine resting_still spared start (fun _ _ => rfl) fun w1 choice held1 _ => ?_
      show StoreSafe codec plain boot allowed t _ (Prog.call (.lock .other) _) w1
      refine lock_other spared held1 fun w2 held2 => ?_
      show StoreSafe codec plain boot allowed t _ (Prog.call (.iterate w2.index) _) w2
      refine reading_still spared held2 (fun _ _ => rfl) fun w3 choice' held3 _ => ?_
      simp only [Prog.ret_bind]
      refine unlock_same spared held3 (fun _ _ _ => by simp)
        (fun w _ => Function.update_self _ _ _) (fun w none_ s => ?_) fun w4 held4 => ?_
      · by_cases own : s = t
        · subst own; rw [none_]; exact List.nil_subset _
        · show w.doomed s ⊆ Function.update w.doomed t _ s
          rw [Function.update_of_ne own]
          exact fun _ inside => inside
      · simp only [Prog.ret_bind]
        refine safe_bind (removeEach_safe held4) fun _ w5 held5 => ?_
        show StoreSafe codec plain boot allowed t _ (Prog.call (.countExpired _) _) w5
        generalize List.length _ = count
        refine world_call (stable_resting spared) held5 fun w6 choice held6 _ _ _ => ?_
        have within : Guar codec plain boot t w6 (handle t choice (.countExpired count) w6).2 :=
          guar_countExpired held6.alone choice count
        exact ⟨within, resting_ret spared
          ⟨within.inv held6.inv, held6.up, held6.doomed, held6.free, trivial⟩ fun _ later => later⟩

end TypstMcp.Store
