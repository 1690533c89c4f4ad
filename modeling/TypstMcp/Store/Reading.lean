/-
Store.Reading -- what a client reads

The answers of the calls that only read, made on an open store whose lock is free:
each is a function of the index, the disk and the clock, and leaves the store as it
was.

* `checkLive_exec`, `get_exec`, `entry_exec`, `list_exec`.
-/
import TypstMcp.Store.Alone
import TypstMcp.Store.Publishing

namespace TypstMcp.Store

open TypstMcp.Theory TypstMcp.Theory.Table
open TypstMcp.Auth (TenantId)

set_option autoImplicit false
set_option linter.unusedSectionVars false

variable {T : Type} [DecidableEq T]
variable {codec : MetaCodec} {plain : Prop} {allowed : Choice → Prop} {t : T} {w w' : World T}

/-- An open store whose lock is free. -/
structure Idle (codec : MetaCodec) (plain : Prop) (w : World T) : Prop where
  inv : Inv codec plain w
  up : w.up = true
  free : w.owner = none

theorem Idle.still (idle : Idle codec plain w) : ¬ w.Storing := by
  rintro ⟨s, key, size, owned⟩
  rw [idle.free] at owned
  simp at owned

/-- The entry a client sees under a key. -/
def liveAt (now : Nat) (index : Index) (key : Key) : Except StoreError Entry :=
  match index.entries.lookup key with
  | none => .error (.notFound key.kind key.id)
  | some entry => if entry.isExpired now then .error (.expired key.kind key.id) else .ok entry

/-- Publishing the index as it was changes nothing. -/
theorem publish_same (idle : Idle codec plain w) (purpose : Purpose) :
    World.publish { w with owner := some (t, purpose) } t w.index .nothing = w := by
  have acked : w.ackedAfter w.index .nothing = w.acked := by
    funext key
    cases found : w.index.entries.lookup key with
    | none => rw [ackedAfter_unlisted found, idle.inv.acked idle.up key found]
    | some entry => rw [ackedAfter_listed found]
  show { w with owner := none, acked := w.ackedAfter w.index .nothing } = w
  rw [acked, ← idle.free]

theorem checkLive_exec {key : Key} {result : Except StoreError Entry}
    (idle : Idle codec plain w) (ran : Alone allowed t (checkLive key) w result w') :
    w' = w ∧ ∃ choice, allowed choice ∧ result = liveAt choice.now w.index key := by
  obtain ⟨_, first, mayFirst, ran⟩ := alone_call.1 ran
  simp only [handle, Prog.ret_bind] at ran
  have leave : ∀ result', Alone allowed t
      (.call (.unlock w.index .nothing) fun _ => .ret result')
      { w with owner := some (t, .other) } result w' → w' = w ∧ result = result' := by
    intro result' ran
    obtain ⟨_, _, _, ran⟩ := alone_call.1 ran
    exact ⟨ran.2.trans (publish_same idle _), ran.1⟩
  split at ran
  · rename_i absent
    obtain ⟨same, rfl⟩ := leave _ ran
    exact ⟨same, first, mayFirst, by unfold liveAt; rw [absent]⟩
  · rename_i entry found
    obtain ⟨_, choice, may, ran⟩ := alone_call.1 ran
    simp only [handle, Prog.ret_bind] at ran
    split at ran
    · rename_i expired
      obtain ⟨same, rfl⟩ := leave _ ran
      exact ⟨same, choice, may, by unfold liveAt; rw [found]; simp [expired]⟩
    · rename_i live
      obtain ⟨same, rfl⟩ := leave _ ran
      exact ⟨same, choice, may, by unfold liveAt; rw [found]; simp [live]⟩

/-- What a read of a live entry answers. -/
def readAt (disk : FileTree) (key : Key) (name : String) : Except StoreError Bytes :=
  match disk.read (entryDir key ++ [safeName name]) with
  | .ok bytes => .ok bytes
  | .error .notFound => .error (.notFound key.kind key.id)
  | .error source => .error (.io (entryDir key ++ [safeName name]) source)

/-- The answer of `get`. -/
def getAt (now : Nat) (w : World T) (tenant : TenantId) (kind : Kind) (id name : String) :
    Except StoreError Bytes :=
  match validateId kind id with
  | .error error => .error error
  | .ok id =>
      match liveAt now w.index ⟨tenant, kind, id⟩ with
      | .error error => .error error
      | .ok _ => readAt w.disk ⟨tenant, kind, id⟩ name

section Single

variable {key : Key} {entry : Entry} {later : Nat}

/-- A live entry answers a read with the file it has. -/
theorem getAt_listed (valid : validateId key.kind key.id = .ok key.id)
    (found : w.index.entries.lookup key = some entry) (live : later < entry.expiresAt)
    {name' : String} {contents : Bytes}
    (there : w.disk.lookup (entryDir key ++ [safeName name']) = some (.file contents)) :
    getAt later w key.tenant key.kind key.id name' = .ok contents := by
  have fresh : entry.isExpired later = false := by
    unfold Entry.isExpired
    simpa using live
  have alive : liveAt later w.index key = .ok entry := by
    unfold liveAt
    rw [found]
    simp [fresh]
  have read : w.disk.read (entryDir key ++ [safeName name']) = .ok contents := by
    unfold FileTree.read
    rw [there]
  obtain ⟨tenant, kind, id⟩ := key
  simp only [getAt, valid, alive, readAt, read]

theorem getAt_unlisted (valid : validateId key.kind key.id = .ok key.id)
    (absent : w.index.entries.lookup key = none) (name' : String) :
    getAt later w key.tenant key.kind key.id name' = .error (.notFound key.kind key.id) := by
  have gone : liveAt later w.index key = .error (.notFound key.kind key.id) := by
    unfold liveAt
    rw [absent]
  obtain ⟨tenant, kind, id⟩ := key
  simp only [getAt, valid, gone]

end Single

theorem get_exec {tenant : TenantId} {kind : Kind} {id name : String}
    {result : Except StoreError Bytes} (idle : Idle codec plain w)
    (ran : Alone allowed t (Store.get tenant kind id name) w result w') :
    w' = w ∧ ((∃ error, validateId kind id = .error error ∧ result = .error error) ∨
      ∃ choice, allowed choice ∧ result = getAt choice.now w tenant kind id name) := by
  unfold Store.get at ran
  split at ran
  · rename_i error invalid
    exact ⟨ran.2, Or.inl ⟨error, invalid, ran.1⟩⟩
  · rename_i id' valid
    obtain ⟨live, w1, first, ran⟩ := Prog.exec_bind.1 ran
    obtain ⟨rfl, choice, may, same⟩ := checkLive_exec idle first
    cases live with
    | error error =>
        obtain ⟨rfl, rfl⟩ := ran
        exact ⟨rfl, Or.inr ⟨choice, may, by unfold getAt; simp only [valid, ← same]⟩⟩
    | ok entry =>
        obtain ⟨_, _, _, ran⟩ := alone_call.1 ran
        simp only [handle, Prog.ret_bind] at ran
        refine ⟨?_, Or.inr ⟨choice, may, ?_⟩⟩
        · split at ran <;> exact ran.2
        · unfold getAt
          simp only [valid, ← same, readAt]
          split at ran <;> simp_all

theorem entry_exec {tenant : TenantId} {kind : Kind} {id : String}
    {result : Except StoreError Entry} (idle : Idle codec plain w)
    (ran : Alone allowed t (Store.entry tenant kind id) w result w') :
    w' = w ∧ ((∃ error, validateId kind id = .error error ∧ result = .error error) ∨
      (validateId kind id = .ok id ∧
        ∃ choice, allowed choice ∧ result = liveAt choice.now w.index ⟨tenant, kind, id⟩)) := by
  unfold Store.entry at ran
  split at ran
  · rename_i error invalid
    exact ⟨ran.2, Or.inl ⟨error, invalid, ran.1⟩⟩
  · rename_i id' valid
    obtain rfl := validateId_ok valid
    obtain ⟨same, choice, may, answer⟩ := checkLive_exec idle ran
    exact ⟨same, Or.inr ⟨valid, choice, may, answer⟩⟩

/-- The clock and the whole map, as `list` and `reap` take them under the lock. -/
theorem snapshot_exec {α : Type} {q : Nat → Index → List (Key × Entry) → StoreProg α} {value : α}
    (ran : Alone allowed t (.call .now fun now => .call (.lock .other) fun index =>
      .call (.iterate index) fun order => q now index order) w value w') :
    ∃ choice rank, allowed choice ∧
      Alone allowed t (q choice.now w.index (iterate rank w.index.entries))
        { w with owner := some (t, .other) } value w' := by
  obtain ⟨_, choice, may, ran⟩ := alone_call.1 ran
  obtain ⟨_, _, _, ran⟩ := alone_call.1 ran
  obtain ⟨_, order, _, ran⟩ := alone_call.1 ran
  exact ⟨choice, order.keyRank, may, ran⟩

/-- The entries `list` picks, in the order the map was iterated. -/
def listedIn (tenant : TenantId) (kind : Kind) (now : Nat) (order : List (Key × Entry)) :
    List (Key × Entry) :=
  order.filter fun (key, entry) =>
    key.tenant = tenant && key.kind = kind && !entry.isExpired now

theorem list_exec {tenant : TenantId} {kind : Kind} {result : List Entry}
    (idle : Idle codec plain w)
    (ran : Alone allowed t (Store.list tenant kind) w result w') :
    w' = w ∧ ∃ choice rank, allowed choice ∧
      result = ((listedIn tenant kind choice.now (iterate rank w.index.entries)).map
        (·.2)).insertionSort listedBefore := by
  obtain ⟨choice, rank, may, ran⟩ := snapshot_exec ran
  obtain ⟨_, _, _, ran⟩ := alone_call.1 ran
  simp only [handle, Prog.ret_bind] at ran
  exact ⟨ran.2.trans (publish_same idle _), choice, rank, may, ran.1⟩

/-! ## Reads come to an end -/

theorem balanced_checkLive (key : Key) : Balanced false (checkLive key) := by
  refine ⟨rfl, fun index => ?_⟩
  simp only [Prog.ret_bind]
  split
  · exact ⟨trivial, fun _ => rfl⟩
  · refine ⟨trivial, fun now => ?_⟩
    simp only [Prog.ret_bind]
    split
    · exact ⟨trivial, fun _ => rfl⟩
    · exact ⟨trivial, fun _ => rfl⟩

theorem balanced_get (tenant : TenantId) (kind : Kind) (id name : String) :
    Balanced false (Store.get tenant kind id name) := by
  unfold Store.get
  split
  · rfl
  · refine balanced_bind (balanced_checkLive _) fun live => ?_
    cases live with
    | error error => rfl
    | ok entry =>
        refine ⟨trivial, fun found => ?_⟩
        simp only [Prog.ret_bind]
        split <;> rfl

theorem balanced_entry (tenant : TenantId) (kind : Kind) (id : String) :
    Balanced false (Store.entry tenant kind id) := by
  unfold Store.entry
  split
  · rfl
  · exact balanced_checkLive _

theorem balanced_list (tenant : TenantId) (kind : Kind) :
    Balanced false (Store.list tenant kind) :=
  ⟨trivial, fun _ => ⟨rfl, fun _ => ⟨trivial, fun _ => ⟨trivial, fun _ => rfl⟩⟩⟩⟩

end TypstMcp.Store
