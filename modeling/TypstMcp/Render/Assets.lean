/-
Render.Assets -- loading a caller's assets

`loadAssets` first asks the store's index about the whole list, and only then reads
files.  A run is watched with the calls it makes written down (`Prog.logged`), so
that "before the first read" is a statement about its log.

* `preflight_log`: what a preflight that succeeds has established, and by which
  readings of the clock.
* `load_assets_preflight`: no content is read unless the whole list is cleared, and
  what is loaded is what the store's `get` answers.
-/
import TypstMcp.Bundle.Files
import TypstMcp.Store.Lives
import TypstMcp.Store.Races
import TypstMcp.Store.Reading

namespace TypstMcp.Render

open TypstMcp.Theory TypstMcp.Theory.Table
open TypstMcp.Auth (TenantId)
open TypstMcp.Bundle TypstMcp.Store

set_option autoImplicit false
set_option linter.unusedSectionVars false

/-! ## Loading -/

/-- Why assets could not be loaded. -/
inductive AssetError
  | duplicateAsset (id : String)
  | bundle (source : BundleError)
  | store (source : StoreError)
  deriving DecidableEq, Repr

/-- The loop over the ids: metadata only.  `limit` is `max_bundle_bytes`, a `usize` of 64 bits. -/
def preflight (limit : Nat) (tenant : TenantId) :
    List String → List String → Nat → List (String × Entry) →
      StoreProg (Except AssetError (List (String × Entry)))
  | [], _, _, entries => return .ok entries
  | id :: rest, seen, totalBytes, entries =>
      if id ∈ seen then return .error (.duplicateAsset id)
      else do
        match ← Store.entry tenant .asset id with
        | .error source => return .error (.store source)
        | .ok entry =>
            let totalBytes := saturatingAdd totalBytes entry.bytes
            if totalBytes > limit then return .error (.bundle (.tooLarge totalBytes limit))
            else preflight limit tenant rest (id :: seen) totalBytes (entries ++ [(id, entry)])

/-- The name an asset is mounted under. -/
def mountName (asset : String × Entry) : String := asset.2.filename.getD asset.1

def readAssets (tenant : TenantId) :
    List (String × Entry) → StoreProg (Except AssetError (List BundleFile))
  | [] => return .ok []
  | asset :: rest => do
      match ← Store.get tenant .asset asset.1 (mountName asset) with
      | .error source => return .error (.store source)
      | .ok bytes =>
          match ← readAssets tenant rest with
          | .error error => return .error error
          | .ok files => return .ok (⟨mountName asset, .binary bytes⟩ :: files)

/-- `RenderService::load_assets`. -/
def loadAssets (limit : Nat) (tenant : TenantId) (ids : List String) :
    StoreProg (Except AssetError (List BundleFile)) :=
  if ids.length > maxFiles then return .error (.bundle (.tooManyFiles ids.length))
  else do
    match ← preflight limit tenant ids [] 0 [] with
    | .error error => return .error error
    | .ok entries => readAssets tenant entries

/-! ## The log of a run -/

abbrev Log := List (Prog.Event Call Reply)

/-- No file's content has been asked for. -/
def Unread (log : Log) : Prop := ∀ event ∈ log, ∀ p, event.1 ≠ .read p

/-- The readings of the clock, in order. -/
def clocks (log : Log) : List Nat :=
  log.filterMap fun
    | ⟨.now, now⟩ => some now
    | _ => none

@[simp] theorem clocks_append (past more : Log) : clocks (past ++ more) = clocks past ++ clocks more :=
  List.filterMap_append

variable {T : Type} [DecidableEq T]
variable {allowed : Choice → Prop} {t : T} {w w' : World T} {tenant : TenantId} {past log : Log}
variable {limit : Nat}

/-- A program run alone, its calls written down. -/
abbrev Watched (allowed : Choice → Prop) (t : T) {α : Type} (p : StoreProg α) (w : World T × Log)
    (value : α) (w' : World T × Log) : Prop :=
  p.Exec (Prog.logged (answers allowed t)) w value w'

theorem watched_call {α : Type} {c : Call} {next : Reply c → StoreProg α} {value : α} :
    Watched allowed t (.call c next) (w, past) value (w', log) ↔
      (∀ purpose, c = .lock purpose → w.owner = none) ∧ ∃ choice, allowed choice ∧
        Watched allowed t (next (handle t choice c w).1)
          ((handle t choice c w).2, past ++ [⟨c, (handle t choice c w).1⟩]) value (w', log) := by
  constructor
  · rintro ⟨reply, ⟨mid, written⟩, ⟨⟨waits, choice, may, handled⟩, same⟩, rest⟩
    obtain rfl : written = past ++ [⟨c, reply⟩] := same
    refine ⟨waits, choice, may, ?_⟩
    rw [handled]
    exact rest
  · rintro ⟨waits, choice, may, rest⟩
    exact ⟨_, (_, _), ⟨⟨waits, choice, may, rfl⟩, rfl⟩, rest⟩

/-! ## What reading leaves alone -/

/-- Two states no reader tells apart. -/
structure Alike (w w' : World T) : Prop where
  index : w'.index = w.index
  disk : w'.disk = w.disk
  owner : w'.owner = w.owner

theorem alike_refl (w : World T) : Alike w w := ⟨rfl, rfl, rfl⟩

theorem Alike.trans {a b c : World T} (first : Alike a b) (second : Alike b c) : Alike a c :=
  ⟨second.index.trans first.index, second.disk.trans first.disk, second.owner.trans first.owner⟩

theorem Alike.symm (alike : Alike w w') : Alike w' w :=
  ⟨alike.index.symm, alike.disk.symm, alike.owner.symm⟩

/-- What a reader is answered in one state it is answered in the other. -/
theorem fetching_alike {p : Path} {α : Type} {q : StoreProg α} (calls : q.Calls (Call.Fetching p))
    {u : World T} {value : α} (alike : Alike w u) (ran : Alone allowed t q w value w') :
    ∃ u', Alone allowed t q u value u' := by
  have each : ∀ c s v reply s', Call.Fetching p c → Alike s v → answers allowed t c s reply s' →
      ∃ v', answers allowed t c v reply v' ∧ Alike s' v' := by
    rintro c s v reply s' fetching same ⟨waits, choice, may, handled⟩
    have waits' : ∀ purpose, c = .lock purpose → v.owner = none := fun purpose locks =>
      same.owner.trans (waits purpose locks)
    obtain rfl : (handle t choice c s).1 = reply := congrArg Prod.fst handled
    obtain rfl : (handle t choice c s).2 = s' := congrArg Prod.snd handled
    have replied : (handle t choice c v).1 = (handle t choice c s).1 := by
      cases c with
      | lock purpose => exact same.index
      | read q => exact congrArg (FileTree.read · q) same.disk
      | unlock _ _ | now => rfl
      | _ => exact fetching.elim
    refine ⟨(handle t choice c v).2, ⟨waits', choice, may, Prod.ext replied rfl⟩, ?_⟩
    cases c with
    | lock purpose => exact ⟨same.index, same.disk, rfl⟩
    | unlock index note => exact ⟨rfl, same.disk, rfl⟩
    | read _ | now => exact same
    | _ => exact fetching.elim
  obtain ⟨u', ran', _⟩ := ran.simulate Alike each calls alike
  exact ⟨u', ran'⟩

/-! ## The preflight -/

theorem checkLive_log {key : Key} {entry : Entry}
    (ran : Watched allowed t (checkLive key) (w, past) (.ok entry) (w', log)) :
    Alike w w' ∧ ∃ now, clocks log = clocks past ++ [now] ∧
      liveAt now w.index key = .ok entry := by
  obtain ⟨waits, _, _, ran⟩ := watched_call.1 ran
  have free := waits .other rfl
  simp only [handle, Prog.ret_bind] at ran
  split at ran
  · obtain ⟨_, _, _, failed, _⟩ := watched_call.1 ran
    cases failed
  · rename_i found listed
    obtain ⟨_, choice, _, ran⟩ := watched_call.1 ran
    simp only [handle, Prog.ret_bind] at ran
    split at ran
    · obtain ⟨_, _, _, failed, _⟩ := watched_call.1 ran
      cases failed
    · rename_i live
      obtain ⟨_, _, _, same, ended⟩ := watched_call.1 ran
      obtain rfl : entry = found := Except.ok.inj same
      obtain ⟨rfl, rfl⟩ := Prod.mk.inj ended
      refine ⟨⟨rfl, rfl, free.symm⟩, choice.now, ?_, ?_⟩
      · simp [clocks]
      · unfold liveAt
        rw [listed]
        exact if_neg live

theorem entry_log {kind : Kind} {id : String} {entry : Entry}
    (ran : Watched allowed t (Store.entry tenant kind id) (w, past) (.ok entry) (w', log)) :
    Alike w w' ∧ ∃ now, clocks log = clocks past ++ [now] ∧
      liveAt now w.index ⟨tenant, kind, id⟩ = .ok entry := by
  unfold Store.entry at ran
  split at ran
  · cases ran.1
  · rename_i valid
    obtain rfl := validateId_ok valid
    exact checkLive_log ran

/-- The recorded sizes of assets, summed up. -/
def recordedBytes (entries : List (String × Entry)) : Nat := (entries.map (·.2.bytes)).sum

/-- The ids are new and distinct, and each was that of a live asset of the tenant at its own
reading of the clock. -/
structure Checked (index : Index) (tenant : TenantId) (seen ids : List String)
    (entries : List (String × Entry)) (readings : List Nat) : Prop where
  listed : entries.map (·.1) = ids
  fresh : ∀ id ∈ ids, id ∉ seen
  distinct : ids.Nodup
  live : List.Forall₂ (fun asset now => liveAt now index ⟨tenant, .asset, asset.1⟩ = .ok asset.2)
    entries readings

theorem checked_nil (index : Index) (tenant : TenantId) (seen : List String) :
    Checked index tenant seen [] [] [] :=
  ⟨rfl, fun _ inside => absurd inside List.not_mem_nil, List.nodup_nil, .nil⟩

theorem Checked.cons {index : Index} {seen rest : List String} {entries : List (String × Entry)}
    {readings : List Nat} {id : String} {entry : Entry} {now : Nat} (fresh : id ∉ seen)
    (live : liveAt now index ⟨tenant, .asset, id⟩ = .ok entry)
    (checked : Checked index tenant (id :: seen) rest entries readings) :
    Checked index tenant seen (id :: rest) ((id, entry) :: entries) (now :: readings) where
  listed := by rw [List.map_cons, checked.listed]
  fresh other inside := by
    rcases List.mem_cons.1 inside with rfl | later
    · exact fresh
    · exact fun old => checked.fresh other later (List.mem_cons_of_mem _ old)
  distinct := List.nodup_cons.2
    ⟨fun again => checked.fresh id again (List.mem_cons_self ..), checked.distinct⟩
  live := .cons live checked.live

theorem saturatingAdd_assoc (a b c : Nat) :
    saturatingAdd (saturatingAdd a b) c = saturatingAdd a (b + c) := by
  unfold saturatingAdd
  omega

/-- **What a preflight has established.** -/
theorem preflight_log {ids seen : List String} {total : Nat} {entries out : List (String × Entry)}
    (within : total ≤ limit)
    (ran : Watched allowed t (preflight limit tenant ids seen total entries) (w, past) (.ok out)
      (w', log)) :
    Alike w w' ∧ ∃ more readings, out = entries ++ more ∧ clocks log = clocks past ++ readings ∧
      Checked w.index tenant seen ids more readings ∧
      saturatingAdd total (recordedBytes more) ≤ limit := by
  induction ids generalizing seen total entries w past with
  | nil =>
      obtain ⟨same, ended⟩ := ran
      obtain rfl := Except.ok.inj same
      obtain ⟨rfl, rfl⟩ := Prod.mk.inj ended
      refine ⟨alike_refl _, [], [], by simp, by simp, checked_nil _ _ _, ?_⟩
      simp only [recordedBytes, saturatingAdd, List.map_nil, List.sum_nil]
      omega
  | cons id rest ih =>
      unfold preflight at ran
      split at ran
      · cases ran.1
      · rename_i fresh
        obtain ⟨answer, ⟨mid, written⟩, first, ran⟩ := Prog.exec_bind.1 ran
        cases answer with
        | error source => cases ran.1
        | ok entry =>
            obtain ⟨alike, now, read, live⟩ := entry_log first
            dsimp only at ran
            split at ran
            · cases ran.1
            · rename_i fits
              obtain ⟨alike', more, readings, rfl, clocked, checked, sized⟩ :=
                ih (Nat.le_of_not_lt fits) ran
              rw [alike.index] at checked
              refine ⟨alike.trans alike', (id, entry) :: more, now :: readings, by simp, ?_,
                checked.cons fresh live, ?_⟩
              · rw [clocked, read, List.append_assoc, List.singleton_append]
              · rw [saturatingAdd_assoc] at sized
                exact sized

theorem asking_preflight (ids seen : List String) (total : Nat) (entries : List (String × Entry)) :
    (preflight limit tenant ids seen total entries).Calls Call.Asking := by
  induction ids generalizing seen total entries with
  | nil => trivial
  | cons id rest ih =>
      unfold preflight
      split
      · trivial
      · refine Prog.calls_bind (asking_entry _ _ _) fun answer => ?_
        cases answer with
        | error source => trivial
        | ok entry =>
            dsimp only
            split
            · trivial
            · exact ih _ _ _

theorem unread_nil : Unread [] := fun _ inside => absurd inside List.not_mem_nil

/-- A look at the index reads no file. -/
theorem unread_asking {c : Call} {s s' : World T × Log} {reply : Reply c} (asking : c.Asking)
    (unread : Unread s.2) (stepped : Prog.logged (answers allowed t) c s reply s') :
    Unread s'.2 := by
  intro event inside p reads
  rw [stepped.2, List.mem_append, List.mem_singleton] at inside
  rcases inside with before | rfl
  · exact unread event before p reads
  · subst reads
    exact asking

/-! ## The gate -/

theorem liveAt_listed {index : Index} {key : Key} {now : Nat} {entry : Entry}
    (live : liveAt now index key = .ok entry) : index.entries.lookup key = some entry := by
  unfold liveAt at live
  split at live
  · cases live
  · rename_i found listed
    split at live
    · cases live
    · rw [listed, Except.ok.inj live]

/-- The saturating sum is the sum: it cannot reach the limit by saturating, or the sizes on
record do not reach `2 ^ 64`. -/
def Unsaturated (limit : Nat) (index : Index) : Prop :=
  limit + 1 < u64Size ∨ index.stored < u64Size

/-- The whole list may be loaded: `entries` are its assets, live at these readings of the clock. -/
structure Cleared (limit : Nat) (index : Index) (tenant : TenantId) (ids : List String)
    (entries : List (String × Entry)) (readings : List Nat) : Prop where
  count : ids.length ≤ maxFiles
  distinct : ids.Nodup
  listed : entries.map (·.1) = ids
  live : List.Forall₂ (fun asset now => liveAt now index ⟨tenant, .asset, asset.1⟩ = .ok asset.2)
    entries readings
  size : recordedBytes entries ≤ limit

/-- The sizes of distinct assets sum to no more than the store holds. -/
theorem Checked.recorded_le {index : Index} {seen ids : List String}
    {entries : List (String × Entry)} {readings : List Nat}
    (checked : Checked index tenant seen ids entries readings) :
    recordedBytes entries ≤ index.stored := by
  have keys : (entries.map fun asset => (⟨tenant, .asset, asset.1⟩ : Key)).Nodup := by
    have distinct := checked.distinct
    rw [← checked.listed] at distinct
    have each : Function.Injective fun id : String => (⟨tenant, .asset, id⟩ : Key) :=
      fun _ _ same => (Key.mk.inj same).2.2
    simpa only [List.map_map, Function.comp_def] using distinct.map each
  have found : ∀ asset ∈ entries, index.entries.lookup ⟨tenant, .asset, asset.1⟩ = some asset.2 :=
    ((List.forall₂_and_left _ _).1 (checked.live.imp fun _ _ live => ⟨liveAt_listed live, live⟩)).1
  exact sum_le_weight Index.bytesOf keys found

theorem Checked.cleared {index : Index} {ids : List String} {entries : List (String × Entry)}
    {readings : List Nat} (checked : Checked index tenant [] ids entries readings)
    (room : Unsaturated limit index) (count : ids.length ≤ maxFiles)
    (sized : saturatingAdd 0 (recordedBytes entries) ≤ limit) :
    Cleared limit index tenant ids entries readings where
  count := count
  distinct := checked.distinct
  listed := checked.listed
  live := checked.live
  size := by
    have stored := checked.recorded_le
    unfold saturatingAdd at sized
    rcases room with below | fits <;> omega

/-- The run began by clearing the whole list, before it read anything. -/
def Preflighted (limit : Nat) (index : Index) (tenant : TenantId) (ids : List String) (log : Log)
    (entries : List (String × Entry)) : Prop :=
  ∃ before after, log = before ++ after ∧ Unread before ∧
    Cleared limit index tenant ids entries (clocks before)

theorem Preflighted.grow {index : Index} {ids : List String} {entries : List (String × Entry)}
    (cleared : Preflighted limit index tenant ids past entries) (grown : past <+: log) :
    Preflighted limit index tenant ids log entries := by
  obtain ⟨before, after, rfl, unread, passed⟩ := cleared
  obtain ⟨more, rfl⟩ := grown
  exact ⟨before, after ++ more, by rw [List.append_assoc], unread, passed⟩

/-- A preflight that ran to its end has read nothing, and has cleared the list if it succeeded. -/
theorem preflight_gate {ids : List String}
    {answer : Except AssetError (List (String × Entry))} (room : Unsaturated limit w.index)
    (count : ids.length ≤ maxFiles)
    (ran : Watched allowed t (preflight limit tenant ids [] 0 []) (w, []) answer (w', log)) :
    Unread log ∧ ∀ entries, answer = .ok entries →
      Alike w w' ∧ Preflighted limit w.index tenant ids log entries := by
  have unread : Unread log :=
    ran.keeps (fun s => Unread s.2) (fun _ _ _ _ => unread_asking) (asking_preflight _ _ _ _)
      unread_nil
  refine ⟨unread, ?_⟩
  rintro entries rfl
  obtain ⟨alike, more, readings, rfl, clocked, checked, sized⟩ := preflight_log (Nat.zero_le _) ran
  refine ⟨alike, log, [], by rw [List.append_nil], unread, ?_⟩
  rw [clocked]
  exact checked.cleared room count sized

/-! ## What is loaded -/

/-- The file is the asset under its recorded path, with what the store answers for it. -/
def Loaded (allowed : Choice → Prop) (t : T) (w : World T) (tenant : TenantId)
    (asset : String × Entry) (file : BundleFile) : Prop :=
  file.path = asset.2.filename.getD asset.1 ∧ ∃ bytes w', file.content = .binary bytes ∧
    Alone allowed t (Store.get tenant .asset asset.1 file.path) w (.ok bytes) w'

theorem get_alike {kind : Kind} {id name : String} {bytes : Bytes}
    (ran : Alone allowed t (Store.get tenant kind id name) w (.ok bytes) w') : Alike w w' := by
  unfold Store.get at ran
  split at ran
  · cases ran.1
  · obtain ⟨live, mid, first, ran⟩ := Prog.exec_bind.1 ran
    cases live with
    | error error => cases ran.1
    | ok entry =>
        obtain ⟨log, first⟩ := first.logged []
        refine (checkLive_log first).1.trans ?_
        obtain ⟨_, _, _, ran⟩ := alone_call.1 ran
        simp only [handle, Prog.ret_bind] at ran
        split at ran
        · rw [ran.2]
          exact alike_refl _
        · cases ran.1
        · cases ran.1

theorem readAssets_loaded {u : World T} {entries : List (String × Entry)} {files : List BundleFile}
    (alike : Alike w u) (ran : Alone allowed t (readAssets tenant entries) u (.ok files) w') :
    List.Forall₂ (Loaded allowed t w tenant) entries files := by
  induction entries generalizing u w' files with
  | nil =>
      obtain rfl := Except.ok.inj ran.1
      exact .nil
  | cons asset rest ih =>
      obtain ⟨answer, mid, first, ran⟩ := Prog.exec_bind.1 ran
      cases answer with
      | error source => cases ran.1
      | ok bytes =>
          obtain ⟨others, last, second, ran⟩ := Prog.exec_bind.1 ran
          cases others with
          | error error => cases ran.1
          | ok others =>
              obtain rfl := Except.ok.inj ran.1
              obtain ⟨w1, same⟩ := fetching_alike (fetching_get _ _ _ _) alike.symm first
              exact .cons ⟨rfl, bytes, w1, rfl, same⟩ (ih (alike.trans (get_alike first)) second)

/-! ## Loading comes to an end -/

theorem balanced_preflight (ids seen : List String) (total : Nat)
    (entries : List (String × Entry)) :
    Balanced false (preflight limit tenant ids seen total entries) := by
  induction ids generalizing seen total entries with
  | nil => rfl
  | cons id rest ih =>
      unfold preflight
      split
      · rfl
      · refine balanced_bind (balanced_entry _ _ _) fun answer => ?_
        cases answer with
        | error source => rfl
        | ok entry =>
            dsimp only
            split
            · rfl
            · exact ih _ _ _

theorem balanced_readAssets (entries : List (String × Entry)) :
    Balanced false (readAssets tenant entries) := by
  induction entries with
  | nil => rfl
  | cons asset rest ih =>
      refine balanced_bind (balanced_get _ _ _ _) fun answer => ?_
      cases answer with
      | error source => rfl
      | ok bytes =>
          refine balanced_bind ih fun others => ?_
          cases others <;> rfl

theorem balanced_loadAssets (limit : Nat) (tenant : TenantId) (ids : List String) :
    Balanced false (loadAssets limit tenant ids) := by
  unfold loadAssets
  split
  · rfl
  · refine balanced_bind (balanced_preflight _ _ _ _) fun answer => ?_
    cases answer with
    | error error => rfl
    | ok entries => exact balanced_readAssets entries

/-! ## All or nothing -/

/-- At every point of a run: nothing has been read yet, or the whole list was cleared first. -/
theorem loadAssets_begun {ids : List String} (room : Unsaturated limit w.index)
    (begun : (loadAssets limit tenant ids).Begun (Prog.logged (answers allowed t)) (w, [])
      (w', log)) :
    Unread log ∨ ∃ entries, Preflighted limit w.index tenant ids log entries := by
  unfold loadAssets at begun
  split at begun
  · exact .inl ((Prod.mk.inj begun).2 ▸ unread_nil)
  · rename_i count
    rcases Prog.begun_bind begun with early | ⟨answer, ⟨mid, written⟩, ran, later⟩
    · exact .inl (early.keeps (fun s => Unread s.2) (fun _ _ _ _ => unread_asking)
        (asking_preflight _ _ _ _) unread_nil)
    · obtain ⟨unread, cleared⟩ := preflight_gate room (Nat.le_of_not_lt count) ran
      cases answer with
      | error error => exact .inl ((Prod.mk.inj later).2 ▸ unread)
      | ok entries => exact .inr ⟨entries, (cleared entries rfl).2.grow later.grows⟩

/-- A run that came to its end has failed without reading, or has cleared the whole list. -/
theorem loadAssets_ran {ids : List String} {result : Except AssetError (List BundleFile)}
    (room : Unsaturated limit w.index)
    (ran : Watched allowed t (loadAssets limit tenant ids) (w, []) result (w', log)) :
    ((∃ error, result = .error error) ∧ Unread log) ∨
      ∃ entries, Preflighted limit w.index tenant ids log entries ∧
        ∀ files, result = .ok files → List.Forall₂ (Loaded allowed t w tenant) entries files := by
  unfold loadAssets at ran
  split at ran
  · exact .inl ⟨⟨_, ran.1⟩, (Prod.mk.inj ran.2).2 ▸ unread_nil⟩
  · rename_i count
    obtain ⟨answer, ⟨mid, written⟩, first, ran⟩ := Prog.exec_bind.1 ran
    obtain ⟨unread, cleared⟩ := preflight_gate room (Nat.le_of_not_lt count) first
    cases answer with
    | error error => exact .inl ⟨⟨error, ran.1⟩, (Prod.mk.inj ran.2).2 ▸ unread⟩
    | ok entries =>
        obtain ⟨alike, passed⟩ := cleared entries rfl
        refine .inr ⟨entries, passed.grow ran.grows, ?_⟩
        rintro files rfl
        exact readAssets_loaded alike ran.unlogged

/-- **No asset is read before the whole list is cleared.** -/
theorem load_assets_preflight {ids : List String} (room : Unsaturated limit w.index) :
    (∀ w' log, (loadAssets limit tenant ids).Begun (Prog.logged (answers allowed t)) (w, [])
        (w', log) →
      Unread log ∨ ∃ entries, Preflighted limit w.index tenant ids log entries) ∧
    (∀ result w' log, Watched allowed t (loadAssets limit tenant ids) (w, []) result (w', log) →
      ((∃ error, result = .error error) ∧ Unread log) ∨
        ∃ entries, Preflighted limit w.index tenant ids log entries ∧
          ∀ files, result = .ok files → List.Forall₂ (Loaded allowed t w tenant) entries files) ∧
    (w.owner = none → (∃ choice, allowed choice) →
      ∃ result w' log, Watched allowed t (loadAssets limit tenant ids) (w, []) result (w', log)) := by
  refine ⟨fun w' log => loadAssets_begun room, fun result w' log => loadAssets_ran room, ?_⟩
  rintro free ⟨choice, may⟩
  obtain ⟨result, w', ran, _⟩ :=
    balanced_runs may (balanced_loadAssets limit tenant ids) fun _ => free
  obtain ⟨log, ran⟩ := ran.logged []
  exact ⟨result, w', log, ran⟩

section Sample

def logo : Key := ⟨someTenant, .asset, "ast_01ARZ3NDEKTSV4RRFFQ69G5FAV"⟩

def logoEntry : Entry where
  id := logo.id
  kind := .asset
  bytes := 3
  createdAt := 0
  expiresAt := 10
  filename := some "logo.png"

def logoFile : BundleFile := ⟨"logo.png", .binary [1, 2, 3]⟩

/-- A store with one asset. -/
def oneAsset : World Unit where
  disk := ((∅ : FileTree).insert (entryDir logo) .dir).insert (entryDir logo ++ ["logo.png"])
    (.file [1, 2, 3])
  index := { entries := (∅ : Table Key Entry).insert logo logoEntry }

theorem load_assets_preflight_logo :
    (∃ w' log entries, Watched anyChoice () (loadAssets 8 logo.tenant [logo.id]) (oneAsset, [])
        (.ok [logoFile]) (w', log) ∧
      Preflighted 8 oneAsset.index logo.tenant [logo.id] log entries) ∧
    ∀ result w' log, Watched anyChoice () (loadAssets 8 logo.tenant [logo.id, logo.id])
        (oneAsset, []) result (w', log) →
      (∃ error, result = .error error) ∧ Unread log := by
  have room : Unsaturated 8 oneAsset.index := .inl (by decide)
  constructor
  · obtain ⟨⟨result, w'⟩, played, checked⟩ : ∃ x, (loadAssets 8 logo.tenant [logo.id]).play
        (handle () (reading 5)) (fun c w => unlocked w c) oneAsset = some x ∧
        (x.1.toOption == some [logoFile]) = true :=
      (Option.any_eq_true _ _).1 (by decide +kernel)
    have ran : Alone anyChoice () (loadAssets 8 logo.tenant [logo.id]) oneAsset result w' :=
      Prog.exec_of_play (fun c w free => @answers_of_unlocked Unit _ anyChoice () (reading 5) c w
        trivial free) played
    obtain ⟨log, ran⟩ := ran.logged []
    cases result with
    | error error => cases checked
    | ok files =>
        obtain rfl : files = [logoFile] := Option.some.inj (eq_of_beq checked)
        rcases (load_assets_preflight room).2.1 _ _ _ ran with ⟨⟨_, failed⟩, _⟩ | ⟨entries, passed, _⟩
        · cases failed
        · exact ⟨w', log, entries, ran, passed⟩
  · intro result w' log ran
    rcases (load_assets_preflight room).2.1 _ _ _ ran with failed | ⟨entries, passed, _⟩
    · exact failed
    · obtain ⟨_, _, _, _, cleared⟩ := passed
      exact absurd cleared.distinct (by decide)

end Sample

end TypstMcp.Render
