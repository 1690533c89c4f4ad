/-
Store.Sequential -- one operation at a time

A store that serves one call after another runs on a single thread.  Between calls
it is `AtRest`: nobody holds the lock and nothing is being removed.  For each
operation one lemma says exactly what it answers and what it leaves, from the index
and the disk it found.

* `putWithId_exec`, `get_exec`, `entry_exec`, `list_exec`, `delete_exec`, `reap_exec`.
* `program_atRest`: every operation leaves the store at rest.
-/
import TypstMcp.Store.Races
import TypstMcp.Store.Accounts
import TypstMcp.Store.Reading

namespace TypstMcp.Store

open TypstMcp.Theory TypstMcp.Theory.Table TypstMcp.Theory.FileTree
open TypstMcp.Auth (TenantId)

set_option autoImplicit false

/-- The world of a store that serves one call at a time. -/
abbrev Solo := World Unit

/-- An open store between two calls. -/
structure AtRest (codec : MetaCodec) (plain : Prop) (w : Solo) : Prop extends
    Idle codec plain w where
  doomed : w.doomed () = []

variable {codec : MetaCodec} {plain : Prop} {allowed : Choice → Prop} {limits : Limits}
variable {α : Type} {w w' : Solo} {value : α}

theorem AtRest.resting (rest : AtRest codec plain w) :
    Resting codec plain () [] anything w :=
  ⟨rest.inv, rest.up, rest.doomed, fun purpose owned => by
    rw [rest.free] at owned; exact absurd owned (by simp), trivial⟩

theorem Resting.atRest (held : Resting codec plain () [] anything w) : AtRest codec plain w := by
  refine ⟨⟨held.inv, held.up, ?_⟩, held.doomed⟩
  cases owned : w.owner with
  | none => rfl
  | some owner => exact absurd owned (held.free owner.2)

theorem AtRest.undoomed (rest : AtRest codec plain w) (key : Key) : w.Undoomed key := fun _ => by
  rw [rest.doomed]
  exact List.not_mem_nil

theorem AtRest.good (rest : AtRest codec plain w) (key : Key) :
    Good codec w.index w.acked w.disk key :=
  rest.inv.good rest.up rest.still key (rest.undoomed key)

/-! ## Runs that can be played -/

/-- Every clock reading is `now`. -/
def clock (now : Nat) (choice : Choice) : Prop := choice.now = now

/-- A program played to its end, every clock reading `now`. -/
def solo (now : Nat) (p : StoreProg α) (w : Solo) : Option (α × Solo) :=
  p.play (handle () (reading now)) (fun c w => unlocked w c) w

theorem alone_solo {now : Nat} {p : StoreProg α} (played : solo now p w = some (value, w')) :
    Alone (clock now) () p w value w' := by
  apply Prog.exec_of_play _ played
  intro c s free
  exact answers_of_unlocked rfl free

theorem alone_mono {more : Choice → Prop} {p : StoreProg α}
    (ran : Alone allowed () p w value w') (each : ∀ choice, allowed choice → more choice) :
    Alone more () p w value w' := by
  apply ran.mono
  rintro c s reply s' ⟨waits, choice, may, handled⟩
  exact ⟨waits, choice, each choice may, handled⟩

/-! ## A put -/

theorem quiet_putLocked (key : Key) (name : String) (bytes : Bytes) (info : Meta)
    (index : Index) : (putLocked limits codec key name bytes info index).Calls Call.Quiet :=
  (storing_putLocked key name bytes info index).mono fun c storing => by
    cases c <;> first | exact storing.elim | trivial

/-- The world as a put has taken the lock. -/
def World.lockedFor (w : Solo) (key : Key) (size : Nat) : Solo :=
  { w with owner := some ((), .storing key size) }

theorem putStart_lockedFor {key : Key} {size : Nat} (rest : AtRest codec plain w)
    (valid : validateId key.kind key.id = .ok key.id) :
    PutStart codec plain () key size (w.lockedFor key size) :=
  putStart_of_lock rest.resting rest.free (rest.undoomed key) valid

/-- Inside its lock section a put is calm. -/
theorem calm_putLocked {key : Key} {name : String} {bytes : Bytes} {info : Meta}
    {index : Index} {out : Except StoreError Entry × Index × Note}
    (ran : Alone allowed () (putLocked limits codec key name bytes info index)
      (w.lockedFor key bytes.length) out w') :
    (putLocked limits codec key name bytes info index).Exec (calmAnswers allowed ())
      (w.lockedFor key bytes.length) out w' := by
  refine (ran.transport (fun s => s.owner = some ((), .storing key bytes.length))
    (fun c s reply s' quiet owned answered => ?_) (quiet_putLocked key name bytes info index)
    rfl).1
  have calm : Calm () s c := by
    cases c with
    | lock _ => exact quiet.elim
    | walk p =>
        show Apart () p s.owner
        rw [owned]
        exact Or.inl rfl
    | _ => trivial
  refine ⟨⟨calm, answered⟩, ?_⟩
  obtain ⟨_, choice, _, handled⟩ := answered
  obtain rfl : (handle () choice c s).2 = s' := congrArg Prod.snd handled
  exact (quiet_shared quiet choice s).owner.trans owned

/-- **A put on its own**: refused for its id, or what `PutEnd` says, its index
published. -/
theorem putWithId_exec {tenant : TenantId} {kind : Kind} {id name : String} {bytes : Bytes}
    {info : Meta} {result : Except StoreError Entry} (rest : AtRest codec plain w)
    (named : plain → safeName name ≠ metaName)
    (ran : Alone allowed () (putWithId limits codec tenant kind id name bytes info) w result w') :
    (∃ error, validateId kind id = .error error ∧ result = .error error ∧ w' = w) ∨
    (validateId kind id = .ok id ∧
      PutStart codec plain () ⟨tenant, kind, id⟩ bytes.length
        (w.lockedFor ⟨tenant, kind, id⟩ bytes.length) ∧
      ∃ out w1, PutEnd limits codec allowed () ⟨tenant, kind, id⟩ name bytes info
          (w.lockedFor ⟨tenant, kind, id⟩ bytes.length) out w1 ∧
        Inv codec plain w1 ∧ result = out.1 ∧ w' = w1.publish () out.2.1 out.2.2) := by
  unfold putWithId at ran
  split at ran
  · rename_i error invalid
    exact Or.inl ⟨error, invalid, ran.1, ran.2⟩
  · rename_i id' valid
    obtain rfl := validateId_ok valid
    have begun : PutStart codec plain () ⟨tenant, kind, id'⟩ bytes.length _ :=
      putStart_lockedFor rest valid
    obtain ⟨_, _, _, ran⟩ := alone_call.1 ran
    simp only [Prog.ret_bind] at ran
    obtain ⟨out, w1, first, ran⟩ := Prog.exec_bind.1 ran
    obtain ⟨_, choice, _, ran⟩ := alone_call.1 ran
    have safe : StoreSafe codec plain () allowed () _
        (putLocked limits codec _ name bytes info _) _ := putLocked_working begun named
    have ended := (safe.exec (calm_putLocked first)).1
    obtain ⟨rfl, rfl⟩ := ran
    exact Or.inr ⟨valid, begun, out, w1, ended.2.2, ended.1, rfl, rfl⟩

theorem balanced_putWithId (tenant : TenantId) (kind : Kind) (id name : String) (bytes : Bytes)
    (info : Meta) : Balanced false (putWithId limits codec tenant kind id name bytes info) := by
  unfold putWithId
  split
  · rfl
  · refine ⟨rfl, fun index => ?_⟩
    simp only [Prog.ret_bind]
    exact balanced_quiet_bind (quiet_putLocked _ _ _ _ _) fun _ => ⟨trivial, fun _ => rfl⟩

/-- A put leaves the store at rest. -/
theorem putWithId_atRest {tenant : TenantId} {kind : Kind} {id name : String} {bytes : Bytes}
    {info : Meta} {result : Except StoreError Entry} (rest : AtRest codec plain w)
    (named : plain → safeName name ≠ metaName)
    (ran : Alone allowed () (putWithId limits codec tenant kind id name bytes info) w result w') :
    AtRest codec plain w' := by
  rcases putWithId_exec rest named ran with ⟨_, _, _, rfl⟩ | ⟨_, begun, out, w1, ended, inv, _, rfl⟩
  · exact rest
  · refine ⟨⟨inv_putEnd begun ended inv, ended.fixed.up.trans rest.up, rfl⟩, ?_⟩
    show w1.doomedAfter () out.2.2 () = []
    rw [ended.note, ended.fixed.own]
    exact rest.doomed

/-! ## Removal -/

/-- The entries of `keys` are gone from the index and the disk, and nothing else is. -/
structure Dropped (keys : List Key) (w w' : Solo) : Prop where
  lookup : ∀ key, w'.index.entries.lookup key =
    if key ∈ keys then none else w.index.entries.lookup key
  disk : ∀ p, (∀ key ∈ keys, ¬ entryDir key <+: p) → w'.disk.lookup p = w.disk.lookup p
  gone : ∀ key ∈ keys, Bare w'.disk key
  acked : ∀ key entry, w'.index.entries.lookup key = some entry → w'.acked key = w.acked key
  sound : ∀ limits, Sound limits w.index → Sound limits w'.index

theorem dropped_nil (w : Solo) : Dropped [] w w :=
  ⟨fun _ => by simp, fun _ _ => rfl, fun _ no => by simp at no, fun _ _ _ => rfl, fun _ => id⟩

theorem Dropped.cons {key : Key} {keys : List Key} {w1 w2 w3 : Solo} (first : Dropped [key] w1 w2)
    (rest : Dropped keys w2 w3) : Dropped (key :: keys) w1 w3 := by
  refine ⟨?_, ?_, ?_, ?_, fun limits sound => rest.sound limits (first.sound limits sound)⟩
  · intro other
    rw [rest.lookup, first.lookup]
    by_cases head : other = key <;> by_cases tail : other ∈ keys <;> simp [head, tail]
  · intro p apart
    rw [rest.disk p fun other inside => apart other (List.mem_cons_of_mem _ inside)]
    apply first.disk
    intro other inside
    obtain rfl : other = key := by simpa using inside
    exact apart other List.mem_cons_self
  · intro other inside
    by_cases later : other ∈ keys
    · exact rest.gone other later
    · obtain rfl : other = key := (List.mem_cons.1 inside).resolve_right later
      intro p under
      rw [rest.disk p fun key' inside' under' => later (entryDir_under under under' ▸ inside')]
      exact first.gone other List.mem_cons_self p under
  · intro other entry found
    have before : w2.index.entries.lookup other = some entry := by
      have := rest.lookup other
      rw [found] at this
      split at this
      · simp at this
      · exact this.symm
    rw [rest.acked other entry found, first.acked other entry before]

theorem remove_exec {key : Key} {rest : List Key} {value : Unit}
    (ran : Alone allowed () (remove key rest) w value w') :
    Dropped [key] w w' ∧ w'.owner = none := by
  obtain ⟨_, w1, removed, ran⟩ := Prog.exec_bind.1 ran
  have cleared := removeDirAll_exec removed
  have shared := quiet_exec (quiet_removeDirAll _) removed
  obtain ⟨_, _, _, ran⟩ := alone_call.1 ran
  obtain ⟨_, _, _, ran⟩ := alone_call.1 ran
  obtain ⟨-, rfl⟩ := ran
  have index : ∀ other, (w1.index.removeFromIndex key).entries.lookup other =
      if other ∈ [key] then none else w.index.entries.lookup other := by
    intro other
    rw [Index.lookup_removeFromIndex, shared.index]
    simp
  refine ⟨⟨index, ?_, ?_, ?_, ?_⟩, rfl⟩
  · intro p apart
    exact cleared.kept p (apart key List.mem_cons_self)
  · intro other inside
    obtain rfl : other = key := by simpa using inside
    exact cleared.gone
  · intro other entry found
    have same : (World.publish { w1 with owner := some ((), .other) } ()
        (w1.index.removeFromIndex key) (.doomed rest)).acked other = w1.acked other :=
      acked_publish found fun _ _ _ => by simp
    exact same.trans (congrFun shared.acked other)
  · intro limits sound
    show Sound limits (w1.index.removeFromIndex key)
    rw [shared.index]
    exact (shrunk_remove sound.accounting key).sound sound

theorem removeEach_exec {keys : List Key} {value : Unit} (free : w.owner = none)
    (ran : Alone allowed () (removeEach keys) w value w') :
    Dropped keys w w' ∧ w'.owner = none := by
  induction keys generalizing w with
  | nil =>
      obtain ⟨-, rfl⟩ := ran
      exact ⟨dropped_nil _, free⟩
  | cons key rest ih =>
      obtain ⟨_, w1, first, ran⟩ := Prog.exec_bind.1 ran
      obtain ⟨one, free1⟩ := remove_exec first
      obtain ⟨others, free'⟩ := ih free1 ran
      exact ⟨one.cons others, free'⟩

/-- **A delete on its own.** -/
theorem delete_exec {tenant : TenantId} {kind : Kind} {id : String}
    {result : Except StoreError Entry} (rest : AtRest codec plain w)
    (ran : Alone allowed () (Store.delete tenant kind id) w result w') :
    (∃ error, validateId kind id = .error error ∧ result = .error error ∧ w' = w) ∨
    (validateId kind id = .ok id ∧ ∃ choice, allowed choice ∧
      result = liveAt choice.now w.index ⟨tenant, kind, id⟩ ∧
      ((∃ error, result = .error error ∧ w' = w) ∨
        ∃ entry, result = .ok entry ∧ Dropped [⟨tenant, kind, id⟩] w w')) := by
  unfold Store.delete at ran
  split at ran
  · rename_i error invalid
    exact Or.inl ⟨error, invalid, ran.1, ran.2⟩
  · rename_i id' valid
    obtain rfl := validateId_ok valid
    obtain ⟨live, w1, first, ran⟩ := Prog.exec_bind.1 ran
    obtain ⟨rfl, choice, may, same⟩ := checkLive_exec rest.toIdle first
    refine Or.inr ⟨valid, choice, may, ?_⟩
    cases live with
    | error error =>
        obtain ⟨rfl, rfl⟩ := ran
        exact ⟨same, Or.inl ⟨error, rfl, rfl⟩⟩
    | ok entry =>
        obtain ⟨_, w2, removed, rfl, rfl⟩ := Prog.exec_bind.1 ran
        exact ⟨same, Or.inr ⟨entry, rfl, (remove_exec removed).1⟩⟩

/-- **A reap on its own** drops what has expired by its clock. -/
theorem reap_exec {result : Nat}
    (ran : Alone allowed () Store.reap w result w') :
    ∃ choice keys, allowed choice ∧
      (∀ key, key ∈ keys ↔ ∃ entry, w.index.entries.lookup key = some entry ∧
        entry.isExpired choice.now = true) ∧
      Dropped keys w w' := by
  obtain ⟨choice, rank, may, ran⟩ := snapshot_exec ran
  obtain ⟨_, _, _, ran⟩ := alone_call.1 ran
  simp only [handle, Prog.ret_bind] at ran
  set keys := ((iterate rank w.index.entries).filter fun x =>
    x.2.isExpired choice.now).map (·.1) with keysAre
  obtain ⟨_, w1, removed, ran⟩ := Prog.exec_bind.1 ran
  obtain ⟨_, _, _, ran⟩ := alone_call.1 ran
  obtain ⟨-, rfl⟩ := ran
  refine ⟨choice, keys, may, ?_, ?_⟩
  · intro key
    rw [keysAre, List.mem_map]
    constructor
    · rintro ⟨⟨key', entry⟩, inside, rfl⟩
      obtain ⟨listed, expired⟩ := List.mem_filter.1 inside
      exact ⟨entry, mem_iterate.1 listed, expired⟩
    · rintro ⟨entry, found, expired⟩
      exact ⟨(key, entry), List.mem_filter.2 ⟨mem_iterate.2 found, expired⟩, rfl⟩
  · obtain ⟨dropped, -⟩ := removeEach_exec rfl removed
    refine ⟨dropped.lookup, dropped.disk, dropped.gone, ?_, dropped.sound⟩
    intro key entry found
    have before : w.index.entries.lookup key = some entry := by
      have := dropped.lookup key
      rw [show w1.index.entries.lookup key = some entry from found] at this
      split at this
      · simp at this
      · exact this.symm
    have same : (World.publish { w with owner := some ((), .other) } () w.index
        (.doomed keys)).acked key = w.acked key := acked_publish before fun _ _ _ => by simp
    exact (dropped.acked key entry found).trans same

/-! ## Every operation -/

theorem noPut_checkLive (key : Key) : (checkLive key).Calls Call.NoPut := by
  refine ⟨trivial, fun index => ?_⟩
  simp only [Prog.ret_bind]
  split
  · exact ⟨trivial, fun _ => trivial⟩
  · refine ⟨trivial, fun now => ?_⟩
    simp only [Prog.ret_bind]
    split
    · exact ⟨trivial, fun _ => trivial⟩
    · exact ⟨trivial, fun _ => trivial⟩

theorem Call.Scanning.noPut {c : Call} (scanning : c.Scanning) : c.NoPut := by
  cases c <;> first | exact scanning.elim | trivial

theorem noPut_remove (key : Key) (rest : List Key) : (remove key rest).Calls Call.NoPut :=
  Prog.calls_bind ((scanning_removeDirAll _).mono fun _ => Call.Scanning.noPut) fun _ =>
    ⟨trivial, fun _ => ⟨trivial, fun _ => trivial⟩⟩

theorem noPut_removeEach (keys : List Key) : (removeEach keys).Calls Call.NoPut := by
  induction keys with
  | nil => trivial
  | cons key rest ih => exact Prog.calls_bind (noPut_remove key rest) fun _ => ih

/-- Every operation but a put makes no call that only a put makes. -/
theorem noPut_program (op : Op) (reads : op.storesFor = none) :
    (op.program limits codec).Calls Call.NoPut := by
  cases op with
  | put tenant _ _ _ _ | putWithId tenant _ _ _ _ _ => simp [Op.storesFor] at reads
  | get tenant kind id name =>
      refine Prog.calls_bind ?_ fun _ => trivial
      unfold Store.get
      split
      · trivial
      · refine Prog.calls_bind (noPut_checkLive _) fun live => ?_
        cases live with
        | error error => trivial
        | ok entry =>
            refine ⟨trivial, fun found => ?_⟩
            simp only [Prog.ret_bind]
            split <;> trivial
  | entry tenant kind id =>
      refine Prog.calls_bind ?_ fun _ => trivial
      unfold Store.entry
      split
      · trivial
      · exact noPut_checkLive _
  | list tenant kind =>
      refine Prog.calls_bind ?_ fun _ => trivial
      exact ⟨trivial, fun _ => ⟨trivial, fun _ => ⟨trivial, fun _ => ⟨trivial, fun _ => trivial⟩⟩⟩⟩
  | delete tenant kind id =>
      refine Prog.calls_bind ?_ fun _ => trivial
      unfold Store.delete
      split
      · trivial
      · refine Prog.calls_bind (noPut_checkLive _) fun live => ?_
        cases live with
        | error error => trivial
        | ok entry => exact Prog.calls_bind (noPut_remove _ _) fun _ => trivial
  | reap =>
      refine Prog.calls_bind ?_ fun _ => trivial
      refine ⟨trivial, fun now => ⟨trivial, fun index => ⟨trivial, fun order => ⟨trivial, ?_⟩⟩⟩⟩
      intro _
      simp only [Prog.ret_bind]
      exact Prog.calls_bind (noPut_removeEach _) fun _ => ⟨trivial, fun _ => trivial⟩

/-- **Every operation leaves the store at rest.** -/
theorem program_atRest (op : Op) {out : Outcome} (rest : AtRest codec plain w)
    (named : plain → op.Plain) (ran : Alone allowed () (op.program limits codec) w out w') :
    AtRest codec plain w' := by
  by_cases reads : op.storesFor = none
  · have calm := calm_exec (noPut_program op reads) rest.still ran
    have safe : StoreSafe codec plain () allowed () _ (op.program limits codec) w :=
      program_safe op named rest.resting
    exact (safe.exec calm).1.atRest
  · cases op with
    | put tenant kind name bytes info =>
        obtain ⟨_, w1, stored, -, rfl⟩ := Prog.exec_bind.1 ran
        obtain ⟨_, choice, _, stored⟩ := alone_call.1 stored
        exact putWithId_atRest rest named stored
    | putWithId tenant kind id name bytes info =>
        obtain ⟨_, w1, stored, -, rfl⟩ := Prog.exec_bind.1 ran
        exact putWithId_atRest rest named stored
    | _ => exact absurd rfl reads

theorem balanced_remove (key : Key) (rest : List Key) : Balanced false (remove key rest) :=
  balanced_quiet_bind (quiet_removeDirAll _) fun _ => ⟨rfl, fun _ => ⟨trivial, fun _ => rfl⟩⟩

theorem balanced_removeEach (keys : List Key) : Balanced false (removeEach keys) := by
  induction keys with
  | nil => rfl
  | cons key rest ih => exact balanced_bind (balanced_remove key rest) fun _ => ih

/-- **Every operation comes to an end.** -/
theorem balanced_program (op : Op) : Balanced false (op.program limits codec) := by
  cases op with
  | put tenant kind name bytes info =>
      refine balanced_bind ?_ fun _ => rfl
      exact ⟨trivial, fun ulid => balanced_putWithId _ _ _ _ _ _⟩
  | putWithId tenant kind id name bytes info =>
      exact balanced_bind (balanced_putWithId _ _ _ _ _ _) fun _ => rfl
  | get tenant kind id name => exact balanced_bind (balanced_get _ _ _ _) fun _ => rfl
  | entry tenant kind id => exact balanced_bind (balanced_entry _ _ _) fun _ => rfl
  | list tenant kind => exact balanced_bind (balanced_list _ _) fun _ => rfl
  | delete tenant kind id =>
      refine balanced_bind ?_ fun _ => rfl
      unfold Store.delete
      split
      · rfl
      · refine balanced_bind (balanced_checkLive _) fun live => ?_
        cases live with
        | error error => rfl
        | ok entry => exact balanced_bind (balanced_remove _ _) fun _ => rfl
  | reap =>
      refine balanced_bind ?_ fun _ => rfl
      refine ⟨trivial, fun now => ⟨rfl, fun index => ⟨trivial, fun order => ⟨trivial, ?_⟩⟩⟩⟩
      intro _
      simp only [Prog.ret_bind]
      exact balanced_bind (balanced_removeEach _) fun _ => ⟨trivial, fun _ => rfl⟩

end TypstMcp.Store
